import EntityQuery.Json.Metamodel
import EntityQuery.Json.Statement
import EntityQuery.Lowering

/-!
# Documents of SQL queries

The written form of SQL statements and of from-indexes, which lowered statements are made of, and
how it is read. Predicates hold
subqueries and table groups hold predicates, so the readers of the parts of a query take the
reader of predicates.
-/

set_option autoImplicit false

namespace EntityQuery.Sql

/-- The type of an expression, which may be unknown. -/
def typeDocument (t : Option DomainType) : Document := .option DomainType.toDocument t

/-! ## Expressions -/

namespace ColumnReference

def toDocument (c : ColumnReference) : Document :=
  .fields [("identification_variable", .text c.variableName), ("expression", c.expression.toDocument),
    ("sql_type_code", .code c.sqlCode), ("expression_type", typeDocument c.type)]

def ofDocument? (d : Document) : Option ColumnReference := do
  match ← d.slots ["identification_variable", "expression", "sql_type_code", "expression_type"] with
  | [name, expression, code, type] =>
    return ⟨← name.required Document.text?, ← expression.required ColumnExpression.ofDocument?,
      ← code.required Document.int32?, ← type.optional DomainType.ofDocument?⟩
  | _ => none

end ColumnReference

namespace Value

def toDocument : Value → Document
  | .plain (.boolean value) => .variant "boolean" (.bool value)
  | .plain literal => literal.toDocument
  | .enum constant =>
    .variant "enum" (.fields
      [("enum_name", .text constant.enumName), ("constant_name", .text constant.constantName),
       ("ordinal", .nat constant.ordinal.toNat)])

def ofDocument? (d : Document) : Option Value :=
  match d.enum? [("null", Literal.null)] with
  | some literal => some (.plain literal)
  | none => do
    match ← d.variant? with
    | ("boolean", some d) => return .plain (.boolean (← d.bool?))
    | ("enum", some d) =>
      match ← d.namedSlots ["enum_name", "constant_name", "ordinal"] with
      | [enumName, constantName, ordinal] =>
        return .enum ⟨← enumName.required Document.text?, ← constantName.required Document.text?,
          ← ordinal.required Document.uint32?⟩
      | _ => none
    | (name, some d) => return .plain (← Literal.valued? name d)
    | (_, none) => none

end Value

namespace TypedValue

def toDocument (v : TypedValue) : Document :=
  .fields [("value", v.value.toDocument), ("literal_type", .option BasicType.toDocument v.type)]

def ofDocument? (d : Document) : Option TypedValue := do
  match ← d.slots ["value", "literal_type"] with
  | [value, type] =>
    return ⟨← value.required Value.ofDocument?, ← type.nullable BasicType.ofDocument?⟩
  | _ => none

end TypedValue

namespace Parameter

/-- How a parameter is given its value. -/
def bindingDocument : Binding → Document
  | .positional position => .variant "positional" (.nat position.toNat)
  | .named name => .variant "named" (.text name)

/-- How a parameter is given its value. -/
def binding? (d : Document) : Option Binding := do
  match ← d.variant? with
  | ("positional", some d) => return .positional (← d.uint32?)
  | ("named", some d) => return .named (← d.text?)
  | _ => none

def toDocument (p : Parameter) : Document :=
  .fields [("index", .nat p.index), ("binding", bindingDocument p.binding),
    ("expected_type", typeDocument p.expected)]

def ofDocument? (d : Document) : Option Parameter := do
  match ← d.slots ["index", "binding", "expected_type"] with
  | [index, binding, expected] =>
    return ⟨← index.required Document.nat?, ← binding.required binding?,
      ← expected.optional DomainType.ofDocument?⟩
  | _ => none

end Parameter

namespace Expression

mutual
def toDocument : Expression → Document
  | .column reference => .variant "column_reference" reference.toDocument
  | .tuple parts type =>
    .variant "tuple" (.fields
      [("expressions", .list (documents parts)), ("expression_type", typeDocument type)])
  | .literal value => .variant "literal" value.toDocument
  | .parameter p => .variant "parameter" p.toDocument
  | .entityType name => .variant "entity_type_literal" (.fields [("entity_name", .text name)])
  | .unary operator operand type =>
    .variant "unary" (.fields
      [("operator", operator.toDocument), ("operand", operand.toDocument),
       ("expression_type", typeDocument type)])
  | .arithmetic lhs operator rhs type =>
    .variant "binary_arithmetic" (.fields
      [("lhs", lhs.toDocument), ("operator", operator.toDocument), ("rhs", rhs.toDocument),
       ("expression_type", typeDocument type)])
  | .concatenation lhs rhs type =>
    .variant "concatenation" (.fields
      [("lhs", lhs.toDocument), ("rhs", rhs.toDocument), ("expression_type", typeDocument type)])
  | .function name arguments result =>
    .variant "function" (.fields
      [("name", .text name), ("arguments", .list (documents arguments)),
       ("result_type", typeDocument result)])
def documents : List Expression → List Document
  | [] => []
  | e :: es => e.toDocument :: documents es
end

/-- An expression, whose parts are read by `part`. -/
def layer? (part : Reader Expression) : Reader Expression := fun d => do
  match ← d.variant? with
  | ("column_reference", some d) => return .column (← ColumnReference.ofDocument? d)
  | ("tuple", some d) =>
    match ← d.namedSlots ["expressions", "expression_type"] with
    | [parts, type] =>
      return .tuple (← parts.required (Document.list? part)) (← type.nullable DomainType.ofDocument?)
    | _ => none
  | ("literal", some d) => return .literal (← TypedValue.ofDocument? d)
  | ("parameter", some d) => return .parameter (← Parameter.ofDocument? d)
  | ("entity_type_literal", some d) =>
    match ← d.namedSlots ["entity_name"] with
    | [name] => return .entityType (← name.required Document.text?)
    | _ => none
  | ("unary", some d) =>
    match ← d.namedSlots ["operator", "operand", "expression_type"] with
    | [operator, operand, type] =>
      return .unary (← operator.required UnaryOperator.ofDocument?) (← operand.required part)
        (← type.nullable DomainType.ofDocument?)
    | _ => none
  | ("binary_arithmetic", some d) =>
    match ← d.namedSlots ["lhs", "operator", "rhs", "expression_type"] with
    | [lhs, operator, rhs, type] =>
      return .arithmetic (← lhs.required part) (← operator.required ArithmeticOperator.ofDocument?)
        (← rhs.required part) (← type.nullable DomainType.ofDocument?)
    | _ => none
  | ("concatenation", some d) =>
    match ← d.namedSlots ["lhs", "rhs", "expression_type"] with
    | [lhs, rhs, type] =>
      return .concatenation (← lhs.required part) (← rhs.required part)
        (← type.nullable DomainType.ofDocument?)
    | _ => none
  | ("function", some d) =>
    match ← d.namedSlots ["name", "arguments", "result_type"] with
    | [name, arguments, result] =>
      return .function (← name.required Document.text?) (← arguments.required (Document.list? part))
        (← result.nullable DomainType.ofDocument?)
    | _ => none
  | _ => none

/-- An expression nested at most `depth` deep. -/
def within? : Nat → Reader Expression
  | 0 => fun _ => none
  | depth + 1 => layer? (within? depth)

def ofDocument? (d : Document) : Option Expression := within? d.depth d

end Expression

/-! ## Selections -/

namespace SelectionOf

mutual
/-- The document of a selection of a query. -/
def toDocument : Selection → Document
  | .expression value => .variant "expression" value.toDocument
  | .instantiation target arguments =>
    .variant "dynamic_instantiation" (.fields
      [("target", target.toDocument), ("arguments", .list (itemDocuments arguments))])
def itemDocuments : List SelectItem → List Document
  | [] => []
  | ⟨selection, name⟩ :: rest =>
    .fields [("kind", toDocument selection), ("alias", .option .text name)] :: itemDocuments rest
end

/-- A named selection, which itself is read by `part`. -/
def item? (part : Reader Selection) : Reader SelectItem := fun d => do
  match ← d.slots ["kind", "alias"] with
  | [selection, name] => return ⟨← selection.required part, ← name.optional Document.text?⟩
  | _ => none

/-- A selection, whose parts are read by `part`. -/
def layer? (part : Reader Selection) : Reader Selection := fun d => do
  match ← d.variant? with
  | ("expression", some d) => return .expression (← Expression.ofDocument? d)
  | ("dynamic_instantiation", some d) =>
    match ← d.namedSlots ["target", "arguments"] with
    | [target, arguments] =>
      return .instantiation (← target.required InstantiationTarget.ofDocument?)
        (← arguments.required (Document.list? (item? part)))
    | _ => none
  | _ => none

/-- A selection nested at most `depth` deep. -/
def within? : Nat → Reader Selection
  | 0 => fun _ => none
  | depth + 1 => layer? (within? depth)

def ofDocument? (d : Document) : Option Selection := within? d.depth d

end SelectionOf

namespace SelectItem

def toDocument (item : SelectItem) : Document :=
  .fields [("kind", SelectionOf.toDocument item.selection), ("alias", .option .text item.aliasName)]

def ofDocument? : Document → Option SelectItem := SelectionOf.item? SelectionOf.ofDocument?

end SelectItem

/-! ## Parts without predicates -/

namespace JoinType

def toDocument : JoinType → Document
  | .inner => .text "inner"
  | .left => .text "left"

def ofDocument? : Document → Option JoinType :=
  Document.enum? [("inner", .inner), ("left", .left)]

end JoinType

namespace TableUse

def toDocument (t : TableUse) : Document :=
  .fields [("table_id", t.id.toDocument), ("reference", t.reference.toDocument),
    ("identification_variable", .text t.variableName)]

def ofDocument? (d : Document) : Option TableUse := do
  match ← d.slots ["table_id", "reference", "identification_variable"] with
  | [id, reference, name] =>
    return ⟨← id.required TableId.ofDocument?, ← reference.required TableReference.ofDocument?,
      ← name.required Document.text?⟩
  | _ => none

end TableUse

namespace GroupKind

def toDocument : GroupKind → Document
  | .entity name => .variant "entity" (.fields [("entity_name", .text name)])
  | .collection role => .variant "collection" (.fields [("role", .text role)])

def ofDocument? (d : Document) : Option GroupKind := do
  match ← d.variant? with
  | ("entity", some d) =>
    match ← d.namedSlots ["entity_name"] with
    | [name] => return .entity (← name.required Document.text?)
    | _ => none
  | ("collection", some d) =>
    match ← d.namedSlots ["role"] with
    | [role] => return .collection (← role.required Document.text?)
    | _ => none
  | _ => none

end GroupKind

namespace SortKey

def toDocument (k : SortKey) : Document :=
  .fields [("expression", k.expression.toDocument), ("order", k.order.toDocument)]

def ofDocument? (d : Document) : Option SortKey := do
  match ← d.slots ["expression", "order"] with
  | [expression, order] =>
    return ⟨← expression.required Expression.ofDocument?, ← order.required SortOrder.ofDocument?⟩
  | _ => none

end SortKey

namespace JunctionKind

def toDocument : JunctionKind → Document
  | .conjunction => .text "conjunction"
  | .disjunction => .text "disjunction"

def ofDocument? : Document → Option JunctionKind :=
  Document.enum? [("conjunction", .conjunction), ("disjunction", .disjunction)]

end JunctionKind

/-! ## Writing predicates and the parts that hold them -/

namespace Predicate

mutual
def toDocument : Predicate → Document
  | .junction kind predicates =>
    .variant "junction" (.fields
      [("kind", kind.toDocument), ("predicates", .list (documents predicates))])
  | .grouped inner => .variant "grouped" (toDocument inner)
  | .negated inner => .variant "negated" (toDocument inner)
  | .comparison lhs operator rhs =>
    .variant "comparison" (.fields
      [("lhs", lhs.toDocument), ("operator", operator.toDocument), ("rhs", rhs.toDocument)])
  | .between subject lower upper isNegated =>
    .variant "between" (.fields
      [("expression", subject.toDocument), ("lower_bound", lower.toDocument),
       ("upper_bound", upper.toDocument), ("negated", .bool isNegated)])
  | .like subject pattern escape isNegated =>
    .variant "like" (.fields
      [("match_expression", subject.toDocument), ("pattern", pattern.toDocument),
       ("escape_character", .option Expression.toDocument escape), ("negated", .bool isNegated)])
  | .nullness subject isNegated =>
    .variant "nullness" (.fields
      [("expression", subject.toDocument), ("negated", .bool isNegated)])
  | .nonempty subquery isNegated =>
    .variant "exists" (.fields
      [("subquery", queryDocument subquery), ("negated", .bool isNegated)])
  | .among subject subquery isNegated =>
    .variant "in_subquery" (.fields
      [("expression", subject.toDocument), ("subquery", queryDocument subquery),
       ("negated", .bool isNegated)])
def documents : List Predicate → List Document
  | [] => []
  | p :: ps => toDocument p :: documents ps
def optionDocument : Option Predicate → Document
  | none => .null
  | some p => toDocument p
def queryDocument : QueryOf Predicate → Document
  | ⟨distinct, selections, fromClause, predicate, order⟩ =>
    .fields [("distinct", .bool distinct),
      ("selections", .list (SelectionOf.itemDocuments selections)),
      ("from_clause", fromDocument fromClause), ("where_predicate", optionDocument predicate),
      ("sort_specifications", .list (order.map (·.toDocument)))]
def fromDocument : FromClauseOf Predicate → Document
  | ⟨spaces⟩ => .fields [("spaces", .list (spaceDocuments spaces))]
def spaceDocuments : List (TableSpaceOf Predicate) → List Document
  | [] => []
  | ⟨root, joins⟩ :: rest =>
    .fields [("root", groupDocument root), ("joins", .list (joinDocuments joins))]
      :: spaceDocuments rest
def joinDocuments : List (GroupJoinOf Predicate) → List Document
  | [] => []
  | ⟨joinType, group, predicate, fetched⟩ :: rest =>
    .fields [("join_type", joinType.toDocument), ("group", groupDocument group),
      ("predicate", optionDocument predicate), ("fetched", .bool fetched)]
      :: joinDocuments rest
def groupDocument : TableGroupOf Predicate → Document
  | ⟨aliasBase, kind, rootTable, tableJoins, elementOffset⟩ =>
    .fields [("alias_base", .text aliasBase), ("kind", kind.toDocument),
      ("root_table", rootTable.toDocument), ("table_joins", .list (tableDocuments tableJoins)),
      ("element_offset", .nat elementOffset)]
def tableDocuments : List (TableJoinOf Predicate) → List Document
  | [] => []
  | ⟨joinType, table, predicate⟩ :: rest =>
    .fields [("join_type", joinType.toDocument), ("table", table.toDocument),
      ("predicate", optionDocument predicate)]
      :: tableDocuments rest
end

end Predicate

namespace TableGroup

def toDocument : TableGroup → Document := Predicate.groupDocument

end TableGroup

namespace FromClause

def toDocument : FromClause → Document := Predicate.fromDocument

end FromClause

namespace Query

def toDocument : Query → Document := Predicate.queryDocument

end Query

/-! ## Reading predicates and the parts that hold them -/

namespace TableJoinOf

def read? {π : Type} (predicate : Reader π) : Reader (TableJoinOf π) := fun d => do
  match ← d.slots ["join_type", "table", "predicate"] with
  | [joinType, table, condition] =>
    return ⟨← joinType.required JoinType.ofDocument?, ← table.required TableUse.ofDocument?,
      ← condition.optional predicate⟩
  | _ => none

end TableJoinOf

namespace TableGroupOf

def read? {π : Type} (predicate : Reader π) : Reader (TableGroupOf π) := fun d => do
  match ← d.slots ["alias_base", "kind", "root_table", "table_joins", "element_offset"] with
  | [aliasBase, kind, rootTable, tableJoins, elementOffset] =>
    return ⟨← aliasBase.required Document.text?, ← kind.required GroupKind.ofDocument?,
      ← rootTable.required TableUse.ofDocument?,
      ← tableJoins.required (Document.list? (TableJoinOf.read? predicate)),
      ← elementOffset.orElse 0 Document.nat?⟩
  | _ => none

end TableGroupOf

namespace GroupJoinOf

def read? {π : Type} (predicate : Reader π) : Reader (GroupJoinOf π) := fun d => do
  match ← d.slots ["join_type", "group", "predicate", "fetched"] with
  | [joinType, group, condition, fetched] =>
    return ⟨← joinType.required JoinType.ofDocument?,
      ← group.required (TableGroupOf.read? predicate), ← condition.optional predicate,
      ← fetched.orElse false Document.bool?⟩
  | _ => none

end GroupJoinOf

namespace TableSpaceOf

def read? {π : Type} (predicate : Reader π) : Reader (TableSpaceOf π) := fun d => do
  match ← d.slots ["root", "joins"] with
  | [root, joins] =>
    return ⟨← root.required (TableGroupOf.read? predicate),
      ← joins.orElse [] (Document.list? (GroupJoinOf.read? predicate))⟩
  | _ => none

end TableSpaceOf

namespace FromClauseOf

def read? {π : Type} (predicate : Reader π) : Reader (FromClauseOf π) := fun d => do
  match ← d.slots ["spaces"] with
  | [spaces] => return ⟨← spaces.required (Document.list? (TableSpaceOf.read? predicate))⟩
  | _ => none

end FromClauseOf

namespace QueryOf

def read? {π : Type} (predicate : Reader π) : Reader (QueryOf π) := fun d => do
  match ← d.slots ["distinct", "selections", "from_clause", "where_predicate",
      "sort_specifications"] with
  | [distinct, selections, fromClause, condition, order] =>
    return ⟨← distinct.required Document.bool?,
      ← selections.required (Document.list? SelectItem.ofDocument?),
      ← fromClause.required (FromClauseOf.read? predicate), ← condition.optional predicate,
      ← order.orElse [] (Document.list? SortKey.ofDocument?)⟩
  | _ => none

end QueryOf

namespace Predicate

/-- A predicate, whose parts are read by `part`. -/
def layer? (part : Reader Predicate) : Reader Predicate := fun d => do
  match ← d.variant? with
  | ("junction", some d) =>
    match ← d.namedSlots ["kind", "predicates"] with
    | [kind, predicates] =>
      return .junction (← kind.required JunctionKind.ofDocument?)
        (← predicates.required (Document.list? part))
    | _ => none
  | ("grouped", some d) => return .grouped (← part d)
  | ("negated", some d) => return .negated (← part d)
  | ("comparison", some d) =>
    match ← d.namedSlots ["lhs", "operator", "rhs"] with
    | [lhs, operator, rhs] =>
      return .comparison (← lhs.required Expression.ofDocument?)
        (← operator.required RelationalOperator.ofDocument?) (← rhs.required Expression.ofDocument?)
    | _ => none
  | ("between", some d) =>
    match ← d.namedSlots ["expression", "lower_bound", "upper_bound", "negated"] with
    | [subject, lower, upper, isNegated] =>
      return .between (← subject.required Expression.ofDocument?)
        (← lower.required Expression.ofDocument?) (← upper.required Expression.ofDocument?)
        (← isNegated.required Document.bool?)
    | _ => none
  | ("like", some d) =>
    match ← d.namedSlots ["match_expression", "pattern", "escape_character", "negated"] with
    | [subject, pattern, escape, isNegated] =>
      return .like (← subject.required Expression.ofDocument?)
        (← pattern.required Expression.ofDocument?) (← escape.nullable Expression.ofDocument?)
        (← isNegated.required Document.bool?)
    | _ => none
  | ("nullness", some d) =>
    match ← d.namedSlots ["expression", "negated"] with
    | [subject, isNegated] =>
      return .nullness (← subject.required Expression.ofDocument?)
        (← isNegated.required Document.bool?)
    | _ => none
  | ("exists", some d) =>
    match ← d.namedSlots ["subquery", "negated"] with
    | [subquery, isNegated] =>
      return .nonempty (← subquery.required (QueryOf.read? part))
        (← isNegated.required Document.bool?)
    | _ => none
  | ("in_subquery", some d) =>
    match ← d.namedSlots ["expression", "subquery", "negated"] with
    | [subject, subquery, isNegated] =>
      return .among (← subject.required Expression.ofDocument?)
        (← subquery.required (QueryOf.read? part)) (← isNegated.required Document.bool?)
    | _ => none
  | _ => none

/-- A predicate nested at most `depth` deep. -/
def within? : Nat → Reader Predicate
  | 0 => fun _ => none
  | depth + 1 => layer? (within? depth)

def ofDocument? (d : Document) : Option Predicate := within? d.depth d

end Predicate

namespace TableGroup

def ofDocument? : Document → Option TableGroup := TableGroupOf.read? Predicate.ofDocument?

end TableGroup

namespace FromClause

def ofDocument? : Document → Option FromClause := FromClauseOf.read? Predicate.ofDocument?

end FromClause

namespace Query

def ofDocument? : Document → Option Query := QueryOf.read? Predicate.ofDocument?

end Query

/-! ## Statements -/

namespace Assignment

def toDocument (a : Assignment) : Document :=
  .fields [("columns", .list (Expression.documents a.columns)), ("value", a.value.toDocument)]

def ofDocument? (d : Document) : Option Assignment := do
  match ← d.slots ["columns", "value"] with
  | [columns, value] =>
    return ⟨← columns.required (Document.list? Expression.ofDocument?),
      ← value.required Expression.ofDocument?⟩
  | _ => none

end Assignment

/-- The parameters of a statement. -/
def parametersDocument (ps : List Parameter) : Document := .list (ps.map (·.toDocument))

namespace Select

def toDocument (s : Select) : Document :=
  .fields [("query_spec", Query.toDocument s.query), ("parameters", parametersDocument s.parameters)]

def ofDocument? (d : Document) : Option Select := do
  match ← d.slots ["query_spec", "parameters"] with
  | [query, parameters] =>
    return ⟨← query.required Query.ofDocument?,
      ← parameters.required (Document.list? Parameter.ofDocument?)⟩
  | _ => none

end Select

namespace Update

def toDocument (u : Update) : Document :=
  .fields [("from_clause", FromClause.toDocument u.fromClause),
    ("assignments", .list (u.assignments.map (·.toDocument))),
    ("where_predicate", Predicate.optionDocument u.predicate),
    ("parameters", parametersDocument u.parameters)]

def ofDocument? (d : Document) : Option Update := do
  match ← d.slots ["from_clause", "assignments", "where_predicate", "parameters"] with
  | [fromClause, assignments, predicate, parameters] =>
    return ⟨← fromClause.required FromClause.ofDocument?,
      ← assignments.required (Document.list? Assignment.ofDocument?),
      ← predicate.optional Predicate.ofDocument?,
      ← parameters.required (Document.list? Parameter.ofDocument?)⟩
  | _ => none

end Update

namespace Delete

def toDocument (x : Delete) : Document :=
  .fields [("from_clause", FromClause.toDocument x.fromClause),
    ("where_predicate", Predicate.optionDocument x.predicate),
    ("parameters", parametersDocument x.parameters)]

def ofDocument? (d : Document) : Option Delete := do
  match ← d.slots ["from_clause", "where_predicate", "parameters"] with
  | [fromClause, predicate, parameters] =>
    return ⟨← fromClause.required FromClause.ofDocument?,
      ← predicate.optional Predicate.ofDocument?,
      ← parameters.required (Document.list? Parameter.ofDocument?)⟩
  | _ => none

end Delete

namespace Statement

def toDocument : Statement → Document
  | .select s => .variant "select" s.toDocument
  | .update u => .variant "update" u.toDocument
  | .delete x => .variant "delete" x.toDocument

def ofDocument? (d : Document) : Option Statement := do
  match ← d.variant? with
  | ("select", some d) => return .select (← Select.ofDocument? d)
  | ("update", some d) => return .update (← Update.ofDocument? d)
  | ("delete", some d) => return .delete (← Delete.ofDocument? d)
  | _ => none

end Statement

end EntityQuery.Sql

namespace EntityQuery

/-! ## From-indexes -/

namespace GroupPosition

def toDocument : GroupPosition → Document
  | .root => .text "root"
  | .join index => .variant "join" (.nat index)

def ofDocument? (d : Document) : Option GroupPosition := do
  match ← d.variant? with
  | ("join", some d) => return .join (← d.nat?)
  | _ => d.enum? [("root", .root)]

end GroupPosition

namespace GroupLocator

def toDocument (l : GroupLocator) : Document :=
  .fields [("space", .nat l.space), ("position", l.position.toDocument)]

def ofDocument? (d : Document) : Option GroupLocator := do
  match ← d.slots ["space", "position"] with
  | [space, position] =>
    return ⟨← space.required Document.nat?, ← position.required GroupPosition.ofDocument?⟩
  | _ => none

end GroupLocator

namespace GroupSource

def toDocument : GroupSource → Document
  | .entity name => .variant "entity" (.text name)
  | .collection role => .variant "collection" (.text role)

def ofDocument? (d : Document) : Option GroupSource := do
  match ← d.variant? with
  | ("entity", some d) => return .entity (← d.text?)
  | ("collection", some d) => return .collection (← d.text?)
  | _ => none

end GroupSource

namespace GroupRef

def toDocument (r : GroupRef) : Document :=
  .fields [("locator", r.locator.toDocument), ("alias_base", .text r.aliasBase),
    ("source", r.source.toDocument)]

def ofDocument? (d : Document) : Option GroupRef := do
  match ← d.slots ["locator", "alias_base", "source"] with
  | [locator, aliasBase, source] =>
    return ⟨← locator.required GroupLocator.ofDocument?, ← aliasBase.required Document.text?,
      ← source.required GroupSource.ofDocument?⟩
  | _ => none

end GroupRef

namespace FromIndex

def toDocument (index : FromIndex) : Document :=
  .fields [("entries", .fields (index.entries.map fun entry => (entry.1, entry.2.toDocument)))]

/-- The entries of an index, as the members of an object. -/
def entries? : Document → Option (List (String × GroupRef))
  | .fields members =>
    members.mapM fun entry => do return (entry.1, ← GroupRef.ofDocument? entry.2)
  | _ => none

def ofDocument? (d : Document) : Option FromIndex := do
  match ← d.slots ["entries"] with
  | [entries] => return ofEntries (← entries.required entries?)
  | _ => none

end FromIndex

def Lowered.toDocument (l : Lowered) : Document :=
  .fields [("sql_ast", l.statement.toDocument), ("from_index", l.index.toDocument)]

end EntityQuery
