import EntityQuery.Query.Expression
import EntityQuery.Query.Selection

/-!
# Statements

Queries, updates and deletions over entities. A from clause is a list of spaces; each opens with
an entity, onto which attributes and entities are joined. From-elements are called by an alias,
which may be left out.
-/

set_option autoImplicit false

namespace EntityQuery

/-! ## From clauses -/

/-- An entity that opens a space. -/
structure Root where
  entity : String
  aliasName : Option String
deriving DecidableEq

inductive JoinType
  | inner
  | left
  | right
  | full
  | cross
deriving DecidableEq

/-- What is joined: the attribute that a dotted path reaches from a from-element, or an entity. -/
inductive JoinSource
  | attributeOf (start : String) (dotted : String)
  | entity (name : String)
deriving DecidableEq

structure Join where
  aliasName : Option String
  joinType : JoinType
  source : JoinSource
  fetch : Bool
  condition : Option Predicate

structure Space where
  root : Root
  joins : List Join

structure FromClause where
  spaces : List Space

namespace Space

/-- Whether a from-element of the space is explicitly called `name`. -/
def calls (s : Space) (name : String) : Bool :=
  s.root.aliasName = some name || s.joins.any (·.aliasName = some name)

end Space

namespace FromClause

/-- The place of the first space with a from-element explicitly called `name`. -/
def spaceOf? (f : FromClause) (name : String) : Option Nat := f.spaces.findIdx? (·.calls name)

end FromClause

/-! ## Clauses -/

abbrev Selection := SelectionOf Expression

abbrev SelectItem := SelectItemOf Selection

structure SelectClause where
  distinct : Bool
  items : List SelectItem

namespace SelectClause

/-- The clause that selects expressions under no names. -/
def ofExpressions (es : List Expression) : SelectClause :=
  ⟨false, es.map fun e => ⟨.expression e, none⟩⟩

end SelectClause

inductive SortOrder
  | ascending
  | descending
deriving DecidableEq

structure SortKey where
  expression : Expression
  order : SortOrder

/-- An assignment of a value to the attribute that a path reaches. -/
structure Assignment where
  target : AttributePath
  value : Expression

/-! ## Statements -/

/-- A query. Without a select clause it selects the first entity of its from clause. -/
structure Query where
  fromClause : FromClause
  select : Option SelectClause
  condition : Option Predicate
  order : Option (List SortKey)

structure Update where
  target : Root
  assignments : List Assignment
  condition : Option Predicate

structure Delete where
  target : Root
  condition : Option Predicate

inductive Statement
  | select (query : Query)
  | update (update : Update)
  | delete (delete : Delete)

end EntityQuery
