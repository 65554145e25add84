import EntityQuery.Json.Expression
import EntityQuery.Query.Statement

/-!
# Documents of statements

The written form of statements and their clauses, and how it is read. A `layout` says which
documents may stand for the fields of a variant: objects only, or lists too.
-/

set_option autoImplicit false

namespace EntityQuery

/-! ## From clauses -/

namespace Root

def toDocument (r : Root) : Document :=
  .fields [("entity_name", .text r.entity), ("alias", .option .text r.aliasName)]

def ofDocument? (d : Document) : Option Root := do
  match ← d.slots ["entity_name", "alias"] with
  | [entity, name] => return ⟨← entity.required Document.text?, ← name.optional Document.text?⟩
  | _ => none

end Root

namespace JoinType

def toDocument : JoinType → Document
  | .inner => .text "inner"
  | .left => .text "left"
  | .right => .text "right"
  | .full => .text "full"
  | .cross => .text "cross"

def ofDocument? : Document → Option JoinType :=
  Document.enum? [("inner", .inner), ("left", .left), ("right", .right), ("full", .full),
    ("cross", .cross)]

end JoinType

namespace JoinSource

def toDocument : JoinSource → Document
  | .attributeOf start dotted =>
    .variant "attribute" (.fields [("lhs_alias", .text start), ("attribute", .text dotted)])
  | .entity name => .variant "entity" (.fields [("entity_name", .text name)])

def read? (layout : Layout) : Reader JoinSource := fun d => do
  match ← d.variant? with
  | ("attribute", some d) =>
    match ← layout ["lhs_alias", "attribute"] d with
    | [start, dotted] =>
      return .attributeOf (← start.required Document.text?) (← dotted.required Document.text?)
    | _ => none
  | ("entity", some d) =>
    match ← layout ["entity_name"] d with
    | [name] => return .entity (← name.required Document.text?)
    | _ => none
  | _ => none

def ofDocument? : Document → Option JoinSource := read? Document.namedSlots

end JoinSource

namespace Join

def toDocument (j : Join) : Document :=
  .fields [("alias", .option .text j.aliasName), ("join_type", j.joinType.toDocument),
    ("source", j.source.toDocument), ("fetch", .bool j.fetch),
    ("on", .option Predicate.toDocument j.condition)]

def read? (layout : Layout) : Reader Join := fun d => do
  match ← d.slots ["alias", "join_type", "source", "fetch", "on"] with
  | [name, joinType, source, fetch, condition] =>
    return ⟨← name.optional Document.text?, ← joinType.required JoinType.ofDocument?,
      ← source.required (JoinSource.read? layout), ← fetch.orElse false Document.bool?,
      ← condition.optional (Predicate.read? layout)⟩
  | _ => none

def ofDocument? : Document → Option Join := read? Document.namedSlots

end Join

namespace Space

def toDocument (s : Space) : Document :=
  .fields [("root", s.root.toDocument), ("joins", .list (s.joins.map (·.toDocument)))]

def read? (layout : Layout) : Reader Space := fun d => do
  match ← d.slots ["root", "joins"] with
  | [root, joins] =>
    return ⟨← root.required Root.ofDocument?,
      ← joins.orElse [] (Document.list? (Join.read? layout))⟩
  | _ => none

def ofDocument? : Document → Option Space := read? Document.namedSlots

end Space

namespace FromClause

def toDocument (f : FromClause) : Document :=
  .fields [("spaces", .list (f.spaces.map (·.toDocument)))]

def read? (layout : Layout) : Reader FromClause := fun d => do
  match ← d.slots ["spaces"] with
  | [spaces] => return ⟨← spaces.required (Document.list? (Space.read? layout))⟩
  | _ => none

def ofDocument? : Document → Option FromClause := read? Document.namedSlots

end FromClause

/-! ## Selections -/

namespace InstantiationTarget

def toDocument : InstantiationTarget → Document
  | .named className => .variant "class" (.text className)
  | .list => .text "list"
  | .map => .text "map"

def ofDocument? (d : Document) : Option InstantiationTarget := do
  match ← d.variant? with
  | ("class", some d) => return .named (← d.text?)
  | _ => d.enum? [("list", .list), ("map", .map)]

end InstantiationTarget

namespace SelectionOf

mutual
/-- The document of a selection of a statement. -/
def toDocument : Selection → Document
  | .expression value => .variant "expression" value.toDocument
  | .instantiation target arguments =>
    .variant "dynamic_instantiation" (.fields
      [("target", target.toDocument), ("arguments", .list (itemDocuments arguments))])
def itemDocuments : List SelectItem → List Document
  | [] => []
  | ⟨selection, name⟩ :: rest =>
    .fields [("selection", toDocument selection), ("alias", .option .text name)]
      :: itemDocuments rest
end

/-- A named selection, which itself is read by `part`. -/
def item? (part : Reader Selection) : Reader SelectItem := fun d => do
  match ← d.slots ["selection", "alias"] with
  | [selection, name] => return ⟨← selection.required part, ← name.optional Document.text?⟩
  | _ => none

/-- A selected object, whose parts are read by `part`. -/
def instantiation? (part : Reader Selection) : Reader Selection := fun d => do
  match ← d.slots ["target", "arguments"] with
  | [target, arguments] =>
    return .instantiation (← target.required InstantiationTarget.ofDocument?)
      (← arguments.required (Document.list? (item? part)))
  | _ => none

/-- A selection, whose parts are read by `part`. -/
def layer? (layout : Layout) (part : Reader Selection) : Reader Selection := fun d => do
  match ← d.variant? with
  | ("expression", some d) => return .expression (← Expression.read? layout d)
  | ("dynamic_instantiation", some d) => instantiation? part d
  | _ => none

/-- A selection nested at most `depth` deep. -/
def within? (layout : Layout) : Nat → Reader Selection
  | 0 => fun _ => none
  | depth + 1 => layer? layout (within? layout depth)

def read? (layout : Layout) : Reader Selection := fun d => within? layout d.depth d

def ofDocument? : Document → Option Selection := read? Document.namedSlots

end SelectionOf

namespace SelectItemOf

/-- The document of a named selection of a statement. -/
def toDocument (item : SelectItem) : Document :=
  .fields [("selection", item.selection.toDocument), ("alias", .option .text item.aliasName)]

def read? (layout : Layout) : Reader SelectItem := SelectionOf.item? (SelectionOf.read? layout)

def ofDocument? : Document → Option SelectItem := read? Document.namedSlots

end SelectItemOf

/-! ## Clauses -/

/-- A list of selections. -/
def Document.selectList? (layout : Layout) : Reader (List SelectItem) := fun d => do
  match ← d.slots ["items"] with
  | [items] => items.required (Document.list? (SelectItemOf.read? layout))
  | _ => none

namespace SelectClause

def toDocument (c : SelectClause) : Document :=
  .fields [("distinct", .bool c.distinct),
    ("list", .fields [("items", .list (SelectionOf.itemDocuments c.items))])]

def read? (layout : Layout) : Reader SelectClause := fun d => do
  match ← d.slots ["distinct", "list"] with
  | [distinct, list] =>
    return ⟨← distinct.orElse false Document.bool?, ← list.required (Document.selectList? layout)⟩
  | _ => none

def ofDocument? : Document → Option SelectClause := read? Document.namedSlots

end SelectClause

/-- How a where clause is written. -/
def Document.whereClause (p : Predicate) : Document := .fields [("predicate", p.toDocument)]

/-- The predicate of a where clause. -/
def Document.whereClause? (layout : Layout) : Reader Predicate := fun d => do
  match ← d.slots ["predicate"] with
  | [predicate] => predicate.required (Predicate.read? layout)
  | _ => none

namespace SortOrder

def toDocument : SortOrder → Document
  | .ascending => .text "ascending"
  | .descending => .text "descending"

def ofDocument? : Document → Option SortOrder :=
  Document.enum? [("ascending", .ascending), ("descending", .descending)]

end SortOrder

namespace SortKey

def toDocument (k : SortKey) : Document :=
  .fields [("expression", k.expression.toDocument), ("order", k.order.toDocument)]

def read? (layout : Layout) : Reader SortKey := fun d => do
  match ← d.slots ["expression", "order"] with
  | [expression, order] =>
    return ⟨← expression.required (Expression.read? layout),
      ← order.orElse .ascending SortOrder.ofDocument?⟩
  | _ => none

def ofDocument? : Document → Option SortKey := read? Document.namedSlots

end SortKey

/-- How an order clause is written. -/
def Document.orderClause (keys : List SortKey) : Document :=
  .fields [("sort_specifications", .list (keys.map (·.toDocument)))]

/-- The sort keys of an order clause. -/
def Document.orderClause? (layout : Layout) : Reader (List SortKey) := fun d => do
  match ← d.slots ["sort_specifications"] with
  | [keys] => keys.required (Document.list? (SortKey.read? layout))
  | _ => none

namespace Assignment

def toDocument (a : Assignment) : Document :=
  .fields [("target", a.target.toDocument), ("value", a.value.toDocument)]

def read? (layout : Layout) : Reader Assignment := fun d => do
  match ← d.slots ["target", "value"] with
  | [target, value] =>
    return ⟨← target.required AttributePath.ofDocument?, ← value.required (Expression.read? layout)⟩
  | _ => none

def ofDocument? : Document → Option Assignment := read? Document.namedSlots

end Assignment

/-! ## Statements -/

namespace Query

def toDocument (q : Query) : Document :=
  .fields [("from_clause", q.fromClause.toDocument),
    ("select_clause", .option SelectClause.toDocument q.select),
    ("where_clause", .option .whereClause q.condition),
    ("order_by_clause", .option .orderClause q.order)]

def read? (layout : Layout) : Reader Query := fun d => do
  match ← d.slots ["from_clause", "select_clause", "where_clause", "order_by_clause"] with
  | [fromClause, select, condition, order] =>
    return ⟨← fromClause.required (FromClause.read? layout),
      ← select.optional (SelectClause.read? layout),
      ← condition.optional (Document.whereClause? layout),
      ← order.optional (Document.orderClause? layout)⟩
  | _ => none

def ofDocument? : Document → Option Query := read? Document.namedSlots

end Query

namespace Update

def toDocument (u : Update) : Document :=
  .fields [("target", u.target.toDocument),
    ("assignments", .list (u.assignments.map (·.toDocument))),
    ("where_clause", .option .whereClause u.condition)]

def read? (layout : Layout) : Reader Update := fun d => do
  match ← d.slots ["target", "assignments", "where_clause"] with
  | [target, assignments, condition] =>
    return ⟨← target.required Root.ofDocument?,
      ← assignments.required (Document.list? (Assignment.read? layout)),
      ← condition.optional (Document.whereClause? layout)⟩
  | _ => none

def ofDocument? : Document → Option Update := read? Document.namedSlots

end Update

namespace Delete

def toDocument (x : Delete) : Document :=
  .fields [("target", x.target.toDocument), ("where_clause", .option .whereClause x.condition)]

def read? (layout : Layout) : Reader Delete := fun d => do
  match ← d.slots ["target", "where_clause"] with
  | [target, condition] =>
    return ⟨← target.required Root.ofDocument?, ← condition.optional (Document.whereClause? layout)⟩
  | _ => none

def ofDocument? : Document → Option Delete := read? Document.namedSlots

end Delete

namespace Statement

def toDocument : Statement → Document
  | .select query => .variant "select" (.fields [("query_spec", query.toDocument)])
  | .update u => .variant "update" u.toDocument
  | .delete x => .variant "delete" x.toDocument

def read? (layout : Layout) : Reader Statement := fun d => do
  match ← d.variant? with
  | ("select", some d) =>
    match ← d.slots ["query_spec"] with
    | [query] => return .select (← query.required (Query.read? layout))
    | _ => none
  | ("update", some d) => return .update (← Update.read? layout d)
  | ("delete", some d) => return .delete (← Delete.read? layout d)
  | _ => none

def ofDocument? : Document → Option Statement := read? Document.namedSlots

end Statement

end EntityQuery
