import EntityQuery.Lowering.Error
import EntityQuery.Sql.Query

/-!
# Results of visits

The parts of a statement are visited one by one. Whatever the part, its visit comes to an `Outcome`,
and whoever visits a part asks for a result of the kind that it needs: the conversions `as…` give
it, or the error that the outcome is of another kind.
-/

set_option autoImplicit false

namespace EntityQuery

/-- What the visit of a part of a statement comes to. -/
inductive Outcome
  | statement (s : Sql.Statement)
  | query (q : Sql.Query)
  | fromElements
  | selectClause (distinct : Bool) (items : List Sql.SelectItem)
  | selectList (items : List Sql.SelectItem)
  | selection (item : Sql.SelectItem)
  | orderClause (keys : List Sql.SortKey)
  | sortKey (k : Sql.SortKey)
  | assignment (a : Sql.Assignment)
  | predicate (p : Sql.Predicate)
  | expression (e : Sql.Expression)

namespace Outcome

def kind : Outcome → ResultKind
  | .statement _ => .statement
  | .query _ => .query
  | .fromElements => .fromElements
  | .selectClause _ _ => .selectClause
  | .selectList _ => .selectList
  | .selection _ => .selection
  | .orderClause _ => .orderClause
  | .sortKey _ => .sortKey
  | .assignment _ => .assignment
  | .predicate _ => .predicate
  | .expression _ => .expression

/-- The error that an outcome is not of the kind expected. -/
def mismatch {α : Type} (o : Outcome) (expected : ResultKind) : Except LoweringError α :=
  .error (.unexpected (.mismatch expected o.kind))

def asStatement : Outcome → Except LoweringError Sql.Statement
  | .statement s => .ok s
  | o => o.mismatch .statement

def asQuery : Outcome → Except LoweringError Sql.Query
  | .query q => .ok q
  | o => o.mismatch .query

/-- From-elements are entered where they are visited, so there is nothing more to give. -/
def asFromElements : Outcome → Except LoweringError Unit
  | .fromElements => .ok ()
  | o => o.mismatch .fromElements

def asSelectClause : Outcome → Except LoweringError (Bool × List Sql.SelectItem)
  | .selectClause distinct items => .ok (distinct, items)
  | o => o.mismatch .selectClause

def asSelectList : Outcome → Except LoweringError (List Sql.SelectItem)
  | .selectList items => .ok items
  | o => o.mismatch .selectList

def asSelection : Outcome → Except LoweringError Sql.SelectItem
  | .selection item => .ok item
  | o => o.mismatch .selection

def asOrderClause : Outcome → Except LoweringError (List Sql.SortKey)
  | .orderClause keys => .ok keys
  | o => o.mismatch .orderClause

def asSortKey : Outcome → Except LoweringError Sql.SortKey
  | .sortKey k => .ok k
  | o => o.mismatch .sortKey

def asAssignment : Outcome → Except LoweringError Sql.Assignment
  | .assignment a => .ok a
  | o => o.mismatch .assignment

def asPredicate : Outcome → Except LoweringError Sql.Predicate
  | .predicate p => .ok p
  | o => o.mismatch .predicate

def asExpression : Outcome → Except LoweringError Sql.Expression
  | .expression e => .ok e
  | o => o.mismatch .expression

end Outcome

end EntityQuery
