import EntityQuery.Json.Sql
import EntityQuery.Proofs.StatementDocuments

/-!
# Documents of SQL statements

A SQL statement without infinite or undefined numbers is read from the document that is written for
it (`Sql.Statement.ofDocument?_toDocument`). Predicates hold subqueries, the groups of which hold
predicates again: what a reader of predicates reads up to some depth, the readers of groups, spaces
and queries that use it do too (`Sql.Predicate.Reads.query`).
-/

set_option autoImplicit false

namespace EntityQuery

@[simp] theorem BasicType.ofDocument?_toDocument (t : BasicType) :
    ofDocument? t.toDocument = some t := read?_toDocument t

@[simp] theorem DomainType.ofDocument?_toDocument (t : DomainType) :
    ofDocument? t.toDocument = some t := read?_toDocument t

@[simp] theorem TableId.ofDocument?_toDocument (id : TableId) :
    ofDocument? id.toDocument = some id := by
  simp [ofDocument?, toDocument]

@[simp] theorem TableReference.ofDocument?_toDocument (r : TableReference) :
    ofDocument? r.toDocument = some r := by
  cases r <;> simp [ofDocument?, toDocument]

@[simp] theorem ColumnExpression.ofDocument?_toDocument (c : ColumnExpression) :
    ofDocument? c.toDocument = some c := by
  cases c <;> simp [ofDocument?, toDocument]

namespace Sql

/-! ## Literals -/

/-- The literal of a value, unless it is a constant of an enumeration. -/
def Value.literals : Value → List Literal
  | .plain literal => [literal]
  | .enum _ => []

namespace Expression

mutual
/-- The literals of an expression, from left to right. -/
def literals : Expression → List Literal
  | .column _ => []
  | .tuple parts _ => literalsOfAll parts
  | .literal value => value.value.literals
  | .parameter _ => []
  | .entityType _ => []
  | .unary _ operand _ => operand.literals
  | .arithmetic lhs _ rhs _ => lhs.literals ++ rhs.literals
  | .concatenation lhs rhs _ => lhs.literals ++ rhs.literals
  | .function _ arguments _ => literalsOfAll arguments
def literalsOfAll : List Expression → List Literal
  | [] => []
  | e :: es => e.literals ++ literalsOfAll es
end

end Expression

namespace Predicate

mutual
/-- The literals of a predicate, also those of its subqueries. -/
def literals : Predicate → List Literal
  | .junction _ ps => literalsOfAll ps
  | .grouped inner => literals inner
  | .negated inner => literals inner
  | .comparison lhs _ rhs => lhs.literals ++ rhs.literals
  | .between subject lower upper _ => subject.literals ++ lower.literals ++ upper.literals
  | .like subject pattern escape _ =>
    subject.literals ++ pattern.literals ++ escape.elim [] (·.literals)
  | .nullness subject _ => subject.literals
  | .nonempty subquery _ => queryLiterals subquery
  | .among subject subquery _ => subject.literals ++ queryLiterals subquery
def literalsOfAll : List Predicate → List Literal
  | [] => []
  | p :: ps => literals p ++ literalsOfAll ps
/-- The literals of a predicate that may be missing. -/
def literalsOf : Option Predicate → List Literal
  | none => []
  | some p => literals p
def queryLiterals : QueryOf Predicate → List Literal
  | ⟨_, selections, fromClause, predicate, order⟩ =>
    (SelectionOf.itemValues selections).flatMap (·.literals) ++ fromLiterals fromClause ++
      literalsOf predicate ++ order.flatMap (·.expression.literals)
def fromLiterals : FromClauseOf Predicate → List Literal
  | ⟨spaces⟩ => spaceLiterals spaces
def spaceLiterals : List (TableSpaceOf Predicate) → List Literal
  | [] => []
  | ⟨root, joins⟩ :: rest => groupLiterals root ++ joinLiterals joins ++ spaceLiterals rest
def joinLiterals : List (GroupJoinOf Predicate) → List Literal
  | [] => []
  | ⟨_, group, predicate, _⟩ :: rest =>
    groupLiterals group ++ literalsOf predicate ++ joinLiterals rest
def groupLiterals : TableGroupOf Predicate → List Literal
  | ⟨_, _, _, tableJoins, _⟩ => tableLiterals tableJoins
def tableLiterals : List (TableJoinOf Predicate) → List Literal
  | [] => []
  | ⟨_, _, predicate⟩ :: rest => literalsOf predicate ++ tableLiterals rest
end

end Predicate

/-- The literals of a statement. -/
def Statement.literals : Statement → List Literal
  | .select s => Predicate.queryLiterals s.query
  | .update u => Predicate.fromLiterals u.fromClause ++
      u.assignments.flatMap (fun a => Expression.literalsOfAll a.columns ++ a.value.literals) ++
      Predicate.literalsOf u.predicate
  | .delete d => Predicate.fromLiterals d.fromClause ++ Predicate.literalsOf d.predicate

/-! ## Values -/

@[simp] theorem ColumnReference.ofDocument?_toDocument (c : ColumnReference) :
    ofDocument? c.toDocument = some c := by
  simp [ofDocument?, toDocument, typeDocument]

-- The number is kept as any document that it is read from, as in `Expression.parameter?_fields`.
theorem Value.ofDocument?_enum {d : Document} {constant : EnumConstant}
    (h : d.uint32? = some constant.ordinal) :
    ofDocument? (.variant "enum" (.fields [("enum_name", .text constant.enumName),
      ("constant_name", .text constant.constantName), ("ordinal", d)])) =
        some (.enum constant) := by
  simp [ofDocument?, h]

theorem Value.ofDocument?_variant {name : String} {d : Document} (hboolean : name ≠ "boolean")
    (henum : name ≠ "enum") (h : d.isNull = false) :
    ofDocument? (.variant name d) = Literal.valued? name d >>= fun l => some (.plain l) := by
  rw [ofDocument?, Document.enum?_variant _ _ h]
  simp

theorem Value.ofDocument?_toDocument {v : Value} (h : Literal.AllFinite v.literals) :
    ofDocument? v.toDocument = some v := by
  cases v with
  | enum constant => exact ofDocument?_enum (Document.uint32?_nat constant.ordinal)
  | plain l =>
    simp only [literals, List.forall_mem_singleton] at h
    cases l with
    | double x =>
      simp [toDocument, Literal.toDocument, ofDocument?_variant, Literal.valued?,
        Binary64.isNull_toDocument h, Document.binary64?_toDocument h]
    | float x =>
      simp [toDocument, Literal.toDocument, ofDocument?_variant, Literal.valued?,
        Binary32.isNull_toDocument h, Document.binary32?_toDocument h]
    | boolean b => simp [ofDocument?, toDocument]
    | null => simp [ofDocument?, toDocument, Literal.toDocument]
    | _ => simp [toDocument, Literal.toDocument, ofDocument?_variant, Literal.valued?]

theorem TypedValue.ofDocument?_toDocument {v : TypedValue}
    (h : Literal.AllFinite v.value.literals) : ofDocument? v.toDocument = some v := by
  simp [ofDocument?, toDocument, Value.ofDocument?_toDocument h]

theorem Parameter.binding?_positional {d : Document} {position : UInt32}
    (h : d.uint32? = some position) :
    binding? (.variant "positional" d) = some (.positional position) := by
  simp [binding?, h]

@[simp] theorem Parameter.binding?_bindingDocument (b : Binding) :
    binding? (bindingDocument b) = some b := by
  cases b with
  | positional position => exact binding?_positional (Document.uint32?_nat position)
  | named name => simp [binding?, bindingDocument]

@[simp] theorem Parameter.ofDocument?_toDocument (p : Parameter) :
    ofDocument? p.toDocument = some p := by
  simp [ofDocument?, toDocument, typeDocument]

/-! ## Expressions -/

namespace Expression

theorem isNull_toDocument (e : Expression) : e.toDocument.isNull = false := by
  cases e <;> simp [toDocument]

theorem depth_pos (e : Expression) : 0 < e.toDocument.depth := by
  cases e <;> simp [toDocument, Document.variant, Document.depth]

theorem literalsOfAll_eq (es : List Expression) : literalsOfAll es = es.flatMap literals := by
  induction es with
  | nil => rw [literalsOfAll, List.flatMap_nil]
  | cons e es ih => rw [literalsOfAll, ih, List.flatMap_cons]

theorem documents_eq (es : List Expression) : documents es = es.map toDocument := by
  induction es with
  | nil => rw [documents, List.map_nil]
  | cons e es ih => rw [documents, ih, List.map_cons]

theorem layer?_toDocument {part : Reader Expression} {n : Nat}
    (hpart : Document.Reads toDocument (fun e => Literal.AllFinite e.literals) part n) :
    ∀ e : Expression, Literal.AllFinite e.literals → e.toDocument.depth ≤ n + 1 →
      layer? part e.toDocument = some e
  | .column reference, _, _ => by
    rw [toDocument, layer?]
    simp
  | .tuple parts type, hfinite, hdepth => by
    simp only [literals, literalsOfAll_eq, List.forall_mem_flatMap] at hfinite
    simp only [toDocument, documents_eq, Document.variant, Document.depth,
      Document.depthMembers] at hdepth
    rw [toDocument, layer?]
    simp [typeDocument, documents_eq, hpart.all hfinite (by omega)]
  | .literal value, hfinite, _ => by
    simp only [literals] at hfinite
    rw [toDocument, layer?]
    simp [TypedValue.ofDocument?_toDocument hfinite]
  | .parameter p, _, _ => by
    rw [toDocument, layer?]
    simp
  | .entityType name, _, _ => by
    rw [toDocument, layer?]
    simp
  | .unary operator operand type, hfinite, hdepth => by
    simp only [literals] at hfinite
    simp only [toDocument, Document.variant, Document.depth, Document.depthMembers] at hdepth
    rw [toDocument, layer?]
    simp [typeDocument, hpart operand hfinite (by omega)]
  | .arithmetic lhs operator rhs type, hfinite, hdepth => by
    simp only [literals, List.forall_mem_append] at hfinite
    simp only [toDocument, Document.variant, Document.depth, Document.depthMembers] at hdepth
    rw [toDocument, layer?]
    simp [typeDocument, hpart lhs hfinite.1 (by omega),
      hpart rhs hfinite.2 (by omega)]
  | .concatenation lhs rhs type, hfinite, hdepth => by
    simp only [literals, List.forall_mem_append] at hfinite
    simp only [toDocument, Document.variant, Document.depth, Document.depthMembers] at hdepth
    rw [toDocument, layer?]
    simp [typeDocument, hpart lhs hfinite.1 (by omega),
      hpart rhs hfinite.2 (by omega)]
  | .function name arguments result, hfinite, hdepth => by
    simp only [literals, literalsOfAll_eq, List.forall_mem_flatMap] at hfinite
    simp only [toDocument, documents_eq, Document.variant, Document.depth,
      Document.depthMembers] at hdepth
    rw [toDocument, layer?]
    simp [typeDocument, documents_eq, hpart.all hfinite (by omega)]

theorem ofDocument?_toDocument {e : Expression} (h : Literal.AllFinite e.literals) :
    ofDocument? e.toDocument = some e := by
  have hreads : Document.Reads toDocument (fun e => Literal.AllFinite e.literals)
      (within? e.toDocument.depth) e.toDocument.depth :=
    .within (fun _ => rfl) depth_pos layer?_toDocument _
  exact hreads e h le_rfl

theorem readAll_documents {es : List Expression} (h : Literal.AllFinite (literalsOfAll es)) :
    Document.readAll ofDocument? (documents es) = some es := by
  rw [literalsOfAll_eq, Literal.AllFinite, List.forall_mem_flatMap] at h
  rw [documents_eq]
  exact Document.readAll_map fun e he => ofDocument?_toDocument (h e he)

end Expression

/-! ## Selections -/

namespace SelectionOf

theorem itemDocuments_eq (items : List SelectItem) :
    itemDocuments items = items.map SelectItem.toDocument := by
  induction items with
  | nil => rw [itemDocuments, List.map_nil]
  | cons item items ih => rw [itemDocuments, ih, List.map_cons, SelectItem.toDocument]

theorem depth_pos (s : Selection) : 0 < (toDocument s).depth := by
  cases s <;> simp [toDocument, Document.variant, Document.depth]

theorem item?_toDocument {part : Reader Selection} {item : SelectItem}
    (h : part (toDocument item.selection) = some item.selection) :
    item? part (SelectItem.toDocument item) = some item := by
  simp [item?, SelectItem.toDocument, h]

theorem layer?_toDocument {part : Reader Selection} {n : Nat}
    (hpart : Document.Reads toDocument
      (fun s => Literal.AllFinite (s.values.flatMap (·.literals))) part n) :
    ∀ s : Selection, Literal.AllFinite (s.values.flatMap (·.literals)) →
      (toDocument s).depth ≤ n + 1 → layer? part (toDocument s) = some s
  | .expression value, hfinite, _ => by
    simp only [SelectionOf.values, List.flatMap_singleton] at hfinite
    rw [toDocument, layer?]
    simp [Expression.ofDocument?_toDocument hfinite]
  | .instantiation target arguments, hfinite, hdepth => by
    simp only [SelectionOf.values, SelectionOf.itemValues_eq, List.flatMap_assoc,
      List.forall_mem_flatMap] at hfinite
    simp only [toDocument, itemDocuments_eq, Document.variant, Document.depth,
      Document.depthMembers] at hdepth
    have harguments : Document.readAll (item? part) (arguments.map SelectItem.toDocument) =
        some arguments := by
      refine Document.readAll_map fun item hitem => item?_toDocument ?_
      have hitemDepth := Document.depth_le_depthItems
        (List.mem_map_of_mem (f := SelectItem.toDocument) hitem)
      simp only [SelectItem.toDocument, Document.depth, Document.depthMembers] at hitemDepth
      exact hpart _ (List.forall_mem_flatMap.2 (hfinite item hitem)) (by omega)
    rw [toDocument, layer?]
    simp [itemDocuments_eq, harguments]

theorem ofDocument?_toDocument {s : Selection}
    (h : Literal.AllFinite (s.values.flatMap (·.literals))) :
    ofDocument? (toDocument s) = some s := by
  have hreads : Document.Reads toDocument
      (fun s => Literal.AllFinite (s.values.flatMap (·.literals)))
      (within? (toDocument s).depth) (toDocument s).depth :=
    .within (fun _ => rfl) depth_pos layer?_toDocument _
  exact hreads s h le_rfl

theorem readAll_itemDocuments {items : List SelectItem}
    (h : Literal.AllFinite ((SelectionOf.itemValues items).flatMap (·.literals))) :
    Document.readAll SelectItem.ofDocument? (itemDocuments items) = some items := by
  simp only [SelectionOf.itemValues_eq, List.flatMap_assoc, List.forall_mem_flatMap] at h
  rw [itemDocuments_eq]
  exact Document.readAll_map fun item hitem =>
    item?_toDocument (ofDocument?_toDocument (List.forall_mem_flatMap.2 (h item hitem)))

end SelectionOf

/-! ## Parts without predicates -/

@[simp] theorem JoinType.ofDocument?_toDocument (t : JoinType) :
    ofDocument? t.toDocument = some t := by
  cases t <;> simp [ofDocument?, toDocument, List.lookup_cons]

@[simp] theorem TableUse.ofDocument?_toDocument (t : TableUse) :
    ofDocument? t.toDocument = some t := by
  simp [ofDocument?, toDocument]

@[simp] theorem GroupKind.ofDocument?_toDocument (k : GroupKind) :
    ofDocument? k.toDocument = some k := by
  cases k <;> simp [ofDocument?, toDocument]

theorem SortKey.ofDocument?_toDocument {k : SortKey} (h : Literal.AllFinite k.expression.literals) :
    ofDocument? k.toDocument = some k := by
  simp [ofDocument?, toDocument, Expression.ofDocument?_toDocument h]

@[simp] theorem JunctionKind.ofDocument?_toDocument (k : JunctionKind) :
    ofDocument? k.toDocument = some k := by
  cases k <;> simp [ofDocument?, toDocument, List.lookup_cons]

/-! ## Predicates and the parts that hold them -/

namespace Predicate

/-- Predicates without infinite or undefined numbers are read from documents up to the given
depth. -/
abbrev Reads (part : Reader Predicate) (n : Nat) : Prop :=
  Document.Reads toDocument (fun p => Literal.AllFinite (literals p)) part n

theorem literalsOfAll_eq (ps : List Predicate) : literalsOfAll ps = ps.flatMap literals := by
  induction ps with
  | nil => rw [literalsOfAll, List.flatMap_nil]
  | cons p ps ih => rw [literalsOfAll, ih, List.flatMap_cons]

theorem documents_eq (ps : List Predicate) : documents ps = ps.map toDocument := by
  induction ps with
  | nil => rw [documents, List.map_nil]
  | cons p ps ih => rw [documents, ih, List.map_cons]

theorem isNull_toDocument (p : Predicate) : (toDocument p).isNull = false := by
  cases p <;> simp [toDocument]

section

variable {part : Reader Predicate} {n : Nat} (hpart : Reads part n)
include hpart

theorem Reads.optional {p : Option Predicate} (hfinite : Literal.AllFinite (literalsOf p))
    (hdepth : (optionDocument p).depth ≤ n) :
    Slot.optional part (.given (optionDocument p)) = some p := by
  cases p with
  | none => simp [optionDocument, Slot.optional, Document.option?, Document.isNull]
  | some p =>
    simp only [literalsOf] at hfinite
    simp only [optionDocument] at hdepth
    simp [optionDocument, Slot.optional, Document.option?, isNull_toDocument,
      hpart p hfinite hdepth]

theorem Reads.tables : ∀ {joins : List TableJoin}, Literal.AllFinite (tableLiterals joins) →
    Document.depthItems (tableDocuments joins) ≤ n →
    Document.readAll (TableJoinOf.read? part) (tableDocuments joins) = some joins
  | [], _, _ => by simp [tableDocuments, Document.readAll]
  | ⟨joinType, table, predicate⟩ :: rest, hfinite, hdepth => by
    simp only [tableLiterals, List.forall_mem_append] at hfinite
    simp only [tableDocuments, Document.depthItems, Document.depth, Document.depthMembers] at hdepth
    have hpredicate := hpart.optional hfinite.1 (by omega)
    have hrest := Reads.tables hfinite.2 (by omega)
    rw [tableDocuments, Document.readAll, TableJoinOf.read?]
    simp [hpredicate, hrest]

theorem Reads.group {g : TableGroup} (hfinite : Literal.AllFinite (groupLiterals g))
    (hdepth : (groupDocument g).depth ≤ n) :
    TableGroupOf.read? part (groupDocument g) = some g := by
  obtain ⟨aliasBase, kind, rootTable, tableJoins, elementOffset⟩ := g
  simp only [groupLiterals] at hfinite
  simp only [groupDocument, Document.depth, Document.depthMembers] at hdepth
  have htables := hpart.tables hfinite (by omega)
  rw [groupDocument, TableGroupOf.read?]
  simp [htables]

theorem Reads.joins : ∀ {joins : List GroupJoin}, Literal.AllFinite (joinLiterals joins) →
    Document.depthItems (joinDocuments joins) ≤ n →
    Document.readAll (GroupJoinOf.read? part) (joinDocuments joins) = some joins
  | [], _, _ => by simp [joinDocuments, Document.readAll]
  | ⟨joinType, group, predicate, fetched⟩ :: rest, hfinite, hdepth => by
    simp only [joinLiterals, List.forall_mem_append] at hfinite
    simp only [joinDocuments, Document.depthItems, Document.depth, Document.depthMembers] at hdepth
    have hgroup := hpart.group hfinite.1.1 (by omega)
    have hpredicate := hpart.optional hfinite.1.2 (by omega)
    have hrest := Reads.joins hfinite.2 (by omega)
    rw [joinDocuments, Document.readAll, GroupJoinOf.read?]
    simp [hgroup, hpredicate, hrest]

theorem Reads.spaces : ∀ {spaces : List TableSpace}, Literal.AllFinite (spaceLiterals spaces) →
    Document.depthItems (spaceDocuments spaces) ≤ n →
    Document.readAll (TableSpaceOf.read? part) (spaceDocuments spaces) = some spaces
  | [], _, _ => by simp [spaceDocuments, Document.readAll]
  | ⟨root, joins⟩ :: rest, hfinite, hdepth => by
    simp only [spaceLiterals, List.forall_mem_append] at hfinite
    simp only [spaceDocuments, Document.depthItems, Document.depth, Document.depthMembers] at hdepth
    have hroot := hpart.group hfinite.1.1 (by omega)
    have hjoins := hpart.joins hfinite.1.2 (by omega)
    have hrest := Reads.spaces hfinite.2 (by omega)
    rw [spaceDocuments, Document.readAll, TableSpaceOf.read?]
    simp [hroot, hjoins, hrest]

theorem Reads.fromClause {f : FromClause} (hfinite : Literal.AllFinite (fromLiterals f))
    (hdepth : (fromDocument f).depth ≤ n) : FromClauseOf.read? part (fromDocument f) = some f := by
  obtain ⟨spaces⟩ := f
  simp only [fromLiterals] at hfinite
  simp only [fromDocument, Document.depth, Document.depthMembers] at hdepth
  have hspaces := hpart.spaces hfinite (by omega)
  rw [fromDocument, FromClauseOf.read?]
  simp [hspaces]

theorem Reads.query {q : Query} (hfinite : Literal.AllFinite (queryLiterals q))
    (hdepth : (queryDocument q).depth ≤ n) : QueryOf.read? part (queryDocument q) = some q := by
  obtain ⟨distinct, selections, fromClause, predicate, order⟩ := q
  simp only [queryLiterals, List.forall_mem_append] at hfinite
  obtain ⟨⟨⟨hselections, hfrom⟩, hpredicate⟩, horder⟩ := hfinite
  simp only [queryDocument, Document.depth, Document.depthMembers] at hdepth
  have hkeys : Document.readAll SortKey.ofDocument? (order.map (·.toDocument)) = some order :=
    Document.readAll_map fun k hk =>
      SortKey.ofDocument?_toDocument fun l hl => horder l (List.mem_flatMap.2 ⟨k, hk, hl⟩)
  rw [queryDocument, QueryOf.read?]
  simp [SelectionOf.readAll_itemDocuments hselections, hpart.fromClause hfrom (by omega),
    hpart.optional hpredicate (by omega), hkeys]

/-- A predicate is read a layer above its parts. -/
theorem Reads.layer : ∀ p : Predicate, Literal.AllFinite (literals p) →
    (toDocument p).depth ≤ n + 1 → layer? part (toDocument p) = some p
  | .junction kind ps, hfinite, hdepth => by
    simp only [literals, literalsOfAll_eq, List.forall_mem_flatMap] at hfinite
    simp only [toDocument, documents_eq, Document.variant, Document.depth,
      Document.depthMembers] at hdepth
    rw [toDocument, layer?]
    simp [documents_eq, hpart.all hfinite (by omega)]
  | .grouped inner, hfinite, hdepth => by
    simp only [literals] at hfinite
    simp only [toDocument, Document.variant, Document.depth, Document.depthMembers] at hdepth
    rw [toDocument, layer?]
    simp [hpart inner hfinite (by omega)]
  | .negated inner, hfinite, hdepth => by
    simp only [literals] at hfinite
    simp only [toDocument, Document.variant, Document.depth, Document.depthMembers] at hdepth
    rw [toDocument, layer?]
    simp [hpart inner hfinite (by omega)]
  | .comparison lhs operator rhs, hfinite, _ => by
    simp only [literals, List.forall_mem_append] at hfinite
    rw [toDocument, layer?]
    simp [Expression.ofDocument?_toDocument hfinite.1,
      Expression.ofDocument?_toDocument hfinite.2]
  | .between subject lower upper isNegated, hfinite, _ => by
    simp only [literals, List.forall_mem_append] at hfinite
    rw [toDocument, layer?]
    simp [Expression.ofDocument?_toDocument hfinite.1.1,
      Expression.ofDocument?_toDocument hfinite.1.2, Expression.ofDocument?_toDocument hfinite.2]
  | .like subject pattern escape isNegated, hfinite, _ => by
    simp only [literals, List.forall_mem_append] at hfinite
    have hescape : Slot.nullable Expression.ofDocument?
        (.given (.option Expression.toDocument escape)) = some escape := by
      refine Slot.nullable_option (fun e he => ?_) fun e _ => e.isNull_toDocument
      obtain rfl := Option.mem_def.1 he
      exact Expression.ofDocument?_toDocument hfinite.2
    rw [toDocument, layer?]
    simp [Expression.ofDocument?_toDocument hfinite.1.1,
      Expression.ofDocument?_toDocument hfinite.1.2, hescape]
  | .nullness subject isNegated, hfinite, _ => by
    simp only [literals] at hfinite
    rw [toDocument, layer?]
    simp [Expression.ofDocument?_toDocument hfinite]
  | .nonempty subquery isNegated, hfinite, hdepth => by
    simp only [literals] at hfinite
    simp only [toDocument, Document.variant, Document.depth, Document.depthMembers] at hdepth
    have hquery := hpart.query hfinite (by omega)
    rw [toDocument, layer?]
    simp [hquery]
  | .among subject subquery isNegated, hfinite, hdepth => by
    simp only [literals, List.forall_mem_append] at hfinite
    simp only [toDocument, Document.variant, Document.depth, Document.depthMembers] at hdepth
    have hquery := hpart.query hfinite.2 (by omega)
    rw [toDocument, layer?]
    simp [Expression.ofDocument?_toDocument hfinite.1, hquery]

end

theorem depth_pos (p : Predicate) : 0 < (toDocument p).depth := by
  cases p <;> simp [toDocument, Document.variant, Document.depth]

theorem reads_ofDocument? (n : Nat) : Reads ofDocument? n := fun p hfinite _ => by
  have hreads : Reads (within? (toDocument p).depth) (toDocument p).depth :=
    .within (fun _ => rfl) depth_pos Reads.layer _
  exact hreads p hfinite le_rfl

end Predicate

/-! ## Statements -/

theorem Assignment.ofDocument?_toDocument {a : Assignment}
    (h : Literal.AllFinite (Expression.literalsOfAll a.columns ++ a.value.literals)) :
    ofDocument? a.toDocument = some a := by
  rw [Literal.AllFinite, List.forall_mem_append] at h
  simp [ofDocument?, toDocument, Expression.readAll_documents h.1,
    Expression.ofDocument?_toDocument h.2]

@[simp] theorem list?_parameters (ps : List Parameter) :
    Document.list? Parameter.ofDocument? (parametersDocument ps) = some ps := by
  simp [parametersDocument]

theorem Select.ofDocument?_toDocument {s : Select}
    (h : Literal.AllFinite (Statement.select s).literals) : ofDocument? s.toDocument = some s := by
  have hquery : Query.ofDocument? (Query.toDocument s.query) = some s.query :=
    (Predicate.reads_ofDocument? _).query h le_rfl
  rw [toDocument, ofDocument?]
  simp [hquery]

theorem FromClause.ofDocument?_toDocument {f : FromClause}
    (h : Literal.AllFinite (Predicate.fromLiterals f)) :
    ofDocument? (toDocument f) = some f :=
  (Predicate.reads_ofDocument? _).fromClause h le_rfl

theorem Update.ofDocument?_toDocument {u : Update}
    (h : Literal.AllFinite (Statement.update u).literals) : ofDocument? u.toDocument = some u := by
  simp only [Statement.literals, List.forall_mem_append] at h
  have hassignments : Document.readAll Assignment.ofDocument?
      (u.assignments.map (·.toDocument)) = some u.assignments :=
    Document.readAll_map fun a ha =>
      Assignment.ofDocument?_toDocument fun l hl => h.1.2 l (List.mem_flatMap.2 ⟨a, ha, hl⟩)
  have hpredicate := (Predicate.reads_ofDocument? _).optional h.2 le_rfl
  rw [toDocument, ofDocument?]
  simp [FromClause.ofDocument?_toDocument h.1.1, hassignments, hpredicate]

theorem Delete.ofDocument?_toDocument {d : Delete}
    (h : Literal.AllFinite (Statement.delete d).literals) : ofDocument? d.toDocument = some d := by
  simp only [Statement.literals, List.forall_mem_append] at h
  have hpredicate := (Predicate.reads_ofDocument? _).optional h.2 le_rfl
  rw [toDocument, ofDocument?]
  simp [FromClause.ofDocument?_toDocument h.1, hpredicate]

/-- A statement without infinite or undefined numbers is read from its document. -/
theorem Statement.ofDocument?_toDocument {s : Statement} (h : Literal.AllFinite s.literals) :
    ofDocument? s.toDocument = some s := by
  cases s with
  | select s =>
    rw [toDocument, ofDocument?]
    simp [Select.ofDocument?_toDocument h]
  | update u =>
    rw [toDocument, ofDocument?]
    simp [Update.ofDocument?_toDocument h]
  | delete d =>
    rw [toDocument, ofDocument?]
    simp [Delete.ofDocument?_toDocument h]

end Sql

end EntityQuery
