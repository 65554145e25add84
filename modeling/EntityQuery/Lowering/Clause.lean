import EntityQuery.Function
import EntityQuery.Lowering.AliasBases
import EntityQuery.Lowering.Outcome
import EntityQuery.Lowering.Path

/-!
# Clauses

Expressions, predicates, selections, sort keys and assignments over the from-elements in scope.
Clauses leave the from clause as it is. What they use up is a `Supply`: alias bases for the
subqueries they open, and places for the parameters they hold.

For each kind of clause there is a visit, with an outcome of any kind, and the clause itself: a
visit whose outcome is expected to be of the clause's own kind.

A failing clause keeps what it had used up before it failed.
-/

set_option autoImplicit false

namespace EntityQuery

/-- What clauses draw on: alias bases, and the parameters so far. -/
structure Supply where
  aliasBases : AliasBases
  parameters : List Sql.Parameter

/-- A clause being lowered. -/
abbrev Clause := EStateM LoweringError Supply

/-- The outcome of a step that draws on nothing. -/
def settled {α : Type} : Except LoweringError α → Clause α
  | .ok a => pure a
  | .error e => throw e

instance : MonadLift (Except LoweringError) Clause := ⟨settled⟩

/-- The result of a visit, converted to the kind that is expected. -/
def expecting {α : Type} (convert : Outcome → Except LoweringError α) (visit : Clause Outcome) :
    Clause α := do
  settled (convert (← visit))

/-- A new alias base. -/
def newAliasBase : Clause String := fun supply =>
  let (base, aliasBases) := supply.aliasBases.next
  .ok base { supply with aliasBases }

/-- A new parameter, at the end of the list. -/
def newParameter (binding : Binding) (expected : Option DomainType) : Clause Sql.Parameter :=
  fun supply =>
    let parameter : Sql.Parameter := ⟨supply.parameters.length, binding, expected⟩
    .ok parameter { supply with parameters := supply.parameters ++ [parameter] }

/-! ## Types -/

/-- The type of arithmetic on operands of the given types: that of two basic types is their
promotion, otherwise the left one wins. -/
def arithmeticType : Option DomainType → Option DomainType → Option DomainType
  | some (.basic l), some (.basic r) => some (.basic (.promote l r))
  | some l, _ => some l
  | none, r => r

/-- A literal of a statement, with its standard type. -/
def literalValue (value : Literal) : Sql.Expression :=
  .literal ⟨.plain value, value.valueType.map BasicType.standard⟩

/-- A constant of an enumeration, stored by its place unless stated otherwise. -/
def enumValue (constant : EnumConstant) (storage : Option EnumStorage) : Sql.Expression :=
  .literal ⟨.enum constant,
    some (BasicType.standard (.enum constant.enumName (storage.getD .ordinal)))⟩

/-! ## Expressions -/

/-- The visit of a literal. -/
def visitLiteral (value : Literal) : Clause Outcome := return .expression (literalValue value)

namespace Scope

/-- The value of an attribute path. -/
def path (s : Scope) (m : Metamodel) (p : AttributePath) : Except LoweringError Sql.Expression := do
  s.pathValue m (← s.resolve m p)

/-- The visit of an attribute path. -/
def visitPath (s : Scope) (m : Metamodel) (p : AttributePath) : Clause Outcome := do
  return .expression (← settled (s.path m p))

mutual
/-- The visit of an expression. -/
def visitExpression (s : Scope) (m : Metamodel) : Expression → Clause Outcome
  | .parameter binding expected => do
    return .expression (.parameter (← newParameter binding expected))
  | .entityType name => do
    let e ← lookedUp (m.entity name)
    return .expression (.entityType e.name)
  | .unary operator operand => do
    let operand ← expecting (·.asExpression) (visitExpression s m operand)
    return .expression (.unary operator operand operand.type)
  | .path p => s.visitPath m p
  | .element name => do
    let value ← settled do s.elementValue m (← s.index.resolve name)
    return .expression value
  | .function name arguments result => do
    let arguments ← expressions s m arguments
    return .expression
      (.function name arguments (result <|> resultType name (arguments.map (·.type))))
  | .literal value => visitLiteral value
  | .concatenation lhs rhs explicit => do
    let lhs ← expecting (·.asExpression) (visitExpression s m lhs)
    let rhs ← expecting (·.asExpression) (visitExpression s m rhs)
    return .expression (.concatenation lhs rhs (explicit <|> lhs.type))
  | .enumConstant constant storage => return .expression (enumValue constant storage)
  | .fieldConstant _ _ value => visitLiteral value
  | .arithmetic lhs operator rhs explicit => do
    let lhs ← expecting (·.asExpression) (visitExpression s m lhs)
    let rhs ← expecting (·.asExpression) (visitExpression s m rhs)
    return .expression
      (.arithmetic lhs operator rhs (explicit <|> arithmeticType lhs.type rhs.type))
/-- The values of expressions, from left to right. -/
def expressions (s : Scope) (m : Metamodel) : List Expression → Clause (List Sql.Expression)
  | [] => return []
  | e :: es => do
    let e ← expecting (·.asExpression) (visitExpression s m e)
    let es ← expressions s m es
    return e :: es
end

/-- The value of an expression. -/
def expression (s : Scope) (m : Metamodel) (e : Expression) : Clause Sql.Expression :=
  expecting (·.asExpression) (s.visitExpression m e)

/-! ## Subqueries over collections -/

/-- The collection that a path reaches, with the value of its owner. -/
def owned (s : Scope) (m : Metamodel) (collection : AttributePath) :
    Except LoweringError (PluralAttribute × Sql.Expression) := do
  let r ← s.resolve m collection
  match r.target with
  | .attributeOf (.plural p) => return (p, ← s.elementValue m r.ref)
  | _ => .error (.invalidPath r.path .notCollection)

end Scope

/-- What a subquery over a collection selects. -/
inductive Selected
  | key
  | element
deriving DecidableEq

/-- The subquery over a collection that belongs to the given owner. -/
def collectionQuery (m : Metamodel) (p : PluralAttribute) (owner : Sql.Expression)
    (selected : Selected) (aliasBase : String) : Except MetamodelError Sql.Query := do
  let group ← m.collectionGroup p aliasBase
  let predicate ← m.keyPredicate p group owner
  let value ← match selected with
    | .key => m.keyValue p group
    | .element => m.elementValue p group
  return ⟨false, [⟨.expression value, none⟩], ⟨[⟨group, []⟩]⟩, predicate, []⟩

namespace Scope

/-- The subquery over the collection that a path reaches. -/
def subquery (s : Scope) (m : Metamodel) (collection : AttributePath) (selected : Selected) :
    Clause Sql.Query := do
  let (p, owner) ← settled (s.owned m collection)
  let aliasBase ← newAliasBase
  settled (lookedUp (collectionQuery m p owner selected aliasBase))

/-! ## Predicates -/

/-- The visit of a predicate. A collection is empty when its subquery has no row, and a value is a
member when the subquery selects it. -/
def visitPredicate (s : Scope) (m : Metamodel) : Predicate → Clause Outcome
  | .grouped inner => do
    let inner ← expecting (·.asPredicate) (visitPredicate s m inner)
    return .predicate (.grouped inner)
  | .and left right => do
    let left ← expecting (·.asPredicate) (visitPredicate s m left)
    let right ← expecting (·.asPredicate) (visitPredicate s m right)
    return .predicate (.junction .conjunction [left, right])
  | .or left right => do
    let left ← expecting (·.asPredicate) (visitPredicate s m left)
    let right ← expecting (·.asPredicate) (visitPredicate s m right)
    return .predicate (.junction .disjunction [left, right])
  | .negated inner => do
    let inner ← expecting (·.asPredicate) (visitPredicate s m inner)
    return .predicate (.negated inner)
  | .relational lhs operator rhs => do
    let lhs ← s.expression m lhs
    let rhs ← s.expression m rhs
    return .predicate (.comparison lhs operator rhs)
  | .isNull subject isNegated => do
    return .predicate (.nullness (← s.expression m subject) isNegated)
  | .isEmpty collection isNegated => do
    return .predicate (.nonempty (← s.subquery m collection .key) (!isNegated))
  | .between subject lower upper isNegated => do
    let subject ← s.expression m subject
    let lower ← s.expression m lower
    let upper ← s.expression m upper
    return .predicate (.between subject lower upper isNegated)
  | .like subject pattern escape isNegated => do
    let subject ← s.expression m subject
    let pattern ← s.expression m pattern
    let escape ← match escape with
      | none => pure none
      | some escape => some <$> s.expression m escape
    return .predicate (.like subject pattern escape isNegated)
  | .memberOf value collection isNegated => do
    let value ← s.expression m value
    let subquery ← s.subquery m collection .element
    return .predicate (.among value subquery isNegated)

def predicate (s : Scope) (m : Metamodel) (p : Predicate) : Clause Sql.Predicate :=
  expecting (·.asPredicate) (s.visitPredicate m p)

/-- A predicate that may be missing. -/
def condition (s : Scope) (m : Metamodel) : Option Predicate → Clause (Option Sql.Predicate)
  | none => return none
  | some p => do return some (← s.predicate m p)

/-! ## Selections, order, assignments -/

mutual
/-- The visit of a selection under a name. An instantiation is visited for itself, as a selection
without a name. -/
def visitSelection (s : Scope) (m : Metamodel) : Selection → Option String → Clause Outcome
  | .expression value, name => do
    let value ← s.expression m value
    return .selection ⟨.expression value, name⟩
  | .instantiation target arguments, name => do
    let instantiation ← expecting (·.asSelection) do
      return .selection ⟨.instantiation target (← items s m arguments), none⟩
    return .selection ⟨instantiation.selection, name⟩
/-- Named selections, from left to right. -/
def items (s : Scope) (m : Metamodel) : List SelectItem → Clause (List Sql.SelectItem)
  | [] => return []
  | ⟨value, name⟩ :: rest => do
    let item ← expecting (·.asSelection) (visitSelection s m value name)
    let rest ← items s m rest
    return item :: rest
end

/-- The visit of a select list. -/
def visitSelectList (s : Scope) (m : Metamodel) (items : List SelectItem) : Clause Outcome := do
  return .selectList (← s.items m items)

/-- The visit of a select clause. -/
def visitSelectClause (s : Scope) (m : Metamodel) (c : SelectClause) : Clause Outcome := do
  let items ← expecting (·.asSelectList) (s.visitSelectList m c.items)
  return .selectClause c.distinct items

/-- What a select clause selects, and whether only distinct rows. -/
def selectClause (s : Scope) (m : Metamodel) (c : SelectClause) :
    Clause (Bool × List Sql.SelectItem) :=
  expecting (·.asSelectClause) (s.visitSelectClause m c)

/-- The selection of a query without a select clause: the from-element that opens the first
space. -/
def defaultSelection (s : Scope) (m : Metamodel) : Except LoweringError Sql.SelectItem := do
  match s.index.entries.find? (·.2.locator = ⟨0, .root⟩) with
  | some (_, ref) => return ⟨.expression (← s.elementValue m ref), none⟩
  | none => .error .emptyFromClause

/-- The visit of a sort key. -/
def visitSortKey (s : Scope) (m : Metamodel) (k : SortKey) : Clause Outcome := do
  return .sortKey ⟨← s.expression m k.expression, k.order⟩

def sortKey (s : Scope) (m : Metamodel) (k : SortKey) : Clause Sql.SortKey :=
  expecting (·.asSortKey) (s.visitSortKey m k)

/-- The visit of an order clause. -/
def visitOrderClause (s : Scope) (m : Metamodel) (ks : List SortKey) : Clause Outcome := do
  return .orderClause (← ks.mapM (s.sortKey m))

/-- Sort keys, from left to right. -/
def sortKeys (s : Scope) (m : Metamodel) (ks : List SortKey) : Clause (List Sql.SortKey) :=
  expecting (·.asOrderClause) (s.visitOrderClause m ks)

/-- The visit of an assignment. -/
def visitAssignment (s : Scope) (m : Metamodel) (a : Assignment) : Clause Outcome := do
  let target ← expecting (·.asExpression) (s.visitPath m a.target)
  let value ← s.expression m a.value
  return .assignment ⟨target.parts, value⟩

def assignment (s : Scope) (m : Metamodel) (a : Assignment) : Clause Sql.Assignment :=
  expecting (·.asAssignment) (s.visitAssignment m a)

end Scope

end EntityQuery
