import EntityQuery.Query.Statement
import EntityQuery.Sql.Expression

/-!
# SQL queries

A from clause is a list of spaces, each a table group with the groups joined onto it. A table
group holds the tables behind one from-element: a root table and the tables joined to it.
Predicates may hold subqueries, and table groups hold predicates, so the parts of a query are
written for any type of predicates first.
-/

set_option autoImplicit false

namespace EntityQuery.Sql

/-! ## Parts of a query, over a type of predicates -/

inductive JoinType
  | inner
  | left
deriving DecidableEq

/-- A table of the database under an identification variable. -/
structure TableUse where
  id : TableId
  reference : TableReference
  variableName : String
deriving DecidableEq

structure TableJoinOf (π : Type) where
  joinType : JoinType
  table : TableUse
  predicate : Option π

/-- What the tables of a group stand for. -/
inductive GroupKind
  | entity (name : String)
  | collection (role : String)
deriving DecidableEq

/-- The tables behind one from-element. `elementOffset` is the place of the first table of the
elements, where a link table comes before it. -/
structure TableGroupOf (π : Type) where
  aliasBase : String
  kind : GroupKind
  rootTable : TableUse
  tableJoins : List (TableJoinOf π)
  elementOffset : Nat

structure GroupJoinOf (π : Type) where
  joinType : JoinType
  group : TableGroupOf π
  predicate : Option π
  fetched : Bool

structure TableSpaceOf (π : Type) where
  root : TableGroupOf π
  joins : List (GroupJoinOf π)

structure FromClauseOf (π : Type) where
  spaces : List (TableSpaceOf π)

structure SortKey where
  expression : Expression
  order : SortOrder

structure QueryOf (π : Type) where
  distinct : Bool
  selections : List SelectItem
  fromClause : FromClauseOf π
  predicate : Option π
  order : List SortKey

/-! ## Predicates -/

inductive JunctionKind
  | conjunction
  | disjunction
deriving DecidableEq

inductive Predicate
  | junction (kind : JunctionKind) (predicates : List Predicate)
  | grouped (inner : Predicate)
  | negated (inner : Predicate)
  | comparison (lhs : Expression) (operator : RelationalOperator) (rhs : Expression)
  | between (subject lower upper : Expression) (negated : Bool)
  | like (subject pattern : Expression) (escape : Option Expression) (negated : Bool)
  | nullness (subject : Expression) (negated : Bool)
  | nonempty (subquery : QueryOf Predicate) (negated : Bool)
  | among (subject : Expression) (subquery : QueryOf Predicate) (negated : Bool)

namespace Predicate

/-- The conjunction of predicates. None of them makes none, and one is itself. -/
def conjunction : List Predicate → Option Predicate
  | [] => none
  | [p] => some p
  | ps => some (.junction .conjunction ps)

/-- The equality of two values by their columns, in order. -/
def equality (lhs rhs : List Expression) : Option Predicate :=
  conjunction (List.zipWith (fun l r => .comparison l .equal r) lhs rhs)

end Predicate

abbrev TableJoin := TableJoinOf Predicate

abbrev TableGroup := TableGroupOf Predicate

abbrev GroupJoin := GroupJoinOf Predicate

abbrev TableSpace := TableSpaceOf Predicate

abbrev FromClause := FromClauseOf Predicate

abbrev Query := QueryOf Predicate

/-! ## Table groups -/

namespace TableGroupOf

variable {π : Type}

/-- The tables of the group, the root first. -/
def tables (g : TableGroupOf π) : List TableUse := g.rootTable :: g.tableJoins.map (·.table)

/-- The table at a place of the group. -/
def table? (g : TableGroupOf π) (position : Nat) : Option TableUse := g.tables[position]?

/-- The place of the first use of a table. -/
def positionOf? (g : TableGroupOf π) (id : TableId) : Option Nat := g.tables.findIdx? (·.id = id)

/-- The first use of a table. -/
def use? (g : TableGroupOf π) (id : TableId) : Option TableUse := g.tables.find? (·.id = id)

end TableGroupOf

namespace TableSpaceOf

variable {π : Type}

/-- The groups of the space, the root first. -/
def groups (s : TableSpaceOf π) : List (TableGroupOf π) := s.root :: s.joins.map (·.group)

end TableSpaceOf

namespace FromClauseOf

variable {π : Type}

/-- The groups of all spaces, in order. -/
def groups (f : FromClauseOf π) : List (TableGroupOf π) := f.spaces.flatMap (·.groups)

end FromClauseOf

/-! ## Statements -/

/-- The columns that an update sets, with the value they are set to. -/
structure Assignment where
  columns : List Expression
  value : Expression

structure Select where
  query : Query
  parameters : List Parameter

structure Update where
  fromClause : FromClause
  assignments : List Assignment
  predicate : Option Predicate
  parameters : List Parameter

structure Delete where
  fromClause : FromClause
  predicate : Option Predicate
  parameters : List Parameter

inductive Statement
  | select (select : Select)
  | update (update : Update)
  | delete (delete : Delete)

namespace Statement

def fromClause : Statement → FromClause
  | .select s => s.query.fromClause
  | .update u => u.fromClause
  | .delete d => d.fromClause

/-- The parameters, in the order in which they are met. -/
def parameters : Statement → List Parameter
  | .select s => s.parameters
  | .update u => u.parameters
  | .delete d => d.parameters

end Statement

end EntityQuery.Sql
