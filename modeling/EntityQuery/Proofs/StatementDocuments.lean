import EntityQuery.Proofs.Documents
import EntityQuery.Proofs.Parameters

/-!
# Documents of statements

A statement without infinite or undefined numbers is read from the document that is written for it
(`Statement.ofDocument?_toDocument`). Expressions, predicates and selections are read layer by
layer, and as many layers as their document is deep are enough (`Expression.read?_toDocument`).
-/

set_option autoImplicit false

namespace EntityQuery

/-! ## Literals -/

/-- Neither infinite nor undefined. -/
def Literal.isFinite : Literal → Bool
  | .double x => x.isFinite
  | .float x => x.isFinite
  | _ => true

/-- None of the literals is infinite or undefined. -/
abbrev Literal.AllFinite (ls : List Literal) : Prop := ∀ l ∈ ls, l.isFinite

namespace Expression

mutual
/-- The literals of an expression, from left to right. The value of a constant is one of them. -/
def literals : Expression → List Literal
  | .parameter .. => []
  | .entityType _ => []
  | .unary _ operand => operand.literals
  | .path _ => []
  | .element _ => []
  | .function _ arguments _ => literalsOfAll arguments
  | .literal value => [value]
  | .concatenation lhs rhs _ => lhs.literals ++ rhs.literals
  | .enumConstant .. => []
  | .fieldConstant _ _ value => [value]
  | .arithmetic lhs _ rhs _ => lhs.literals ++ rhs.literals
def literalsOfAll : List Expression → List Literal
  | [] => []
  | e :: es => e.literals ++ literalsOfAll es
end

end Expression

/-- The literals of a predicate, from left to right. -/
def Predicate.literals : Predicate → List Literal
  | .grouped inner => inner.literals
  | .and left right => left.literals ++ right.literals
  | .or left right => left.literals ++ right.literals
  | .negated inner => inner.literals
  | .relational lhs _ rhs => lhs.literals ++ rhs.literals
  | .isNull subject _ => subject.literals
  | .isEmpty .. => []
  | .between subject lower upper _ => subject.literals ++ lower.literals ++ upper.literals
  | .like subject pattern escape _ =>
    subject.literals ++ pattern.literals ++ escape.elim [] (·.literals)
  | .memberOf value _ _ => value.literals

/-- The literals of a predicate that may be missing. -/
def literalsOf (p : Option Predicate) : List Literal := p.elim [] Predicate.literals

/-- The literals of a statement: those of its joins, of what it selects or sets, of its condition
and of its sort keys. -/
def Statement.literals : Statement → List Literal
  | .select q => q.fromClause.spaces.flatMap (·.joins.flatMap (literalsOf ·.condition)) ++
      q.select.elim [] (fun c => (SelectionOf.itemValues c.items).flatMap (·.literals)) ++
      literalsOf q.condition ++ (q.order.getD []).flatMap (·.expression.literals)
  | .update u => u.assignments.flatMap (·.value.literals) ++ literalsOf u.condition
  | .delete d => literalsOf d.condition

theorem Binary64.isNull_toDocument {x : Binary64} (h : x.isFinite) :
    x.toDocument.isNull = false := by
  simp [toDocument, h, Document.isNull]

theorem Binary32.isNull_toDocument {x : Binary32} (h : x.isFinite) : x.toDocument.isNull = false :=
  Binary64.isNull_toDocument (isFinite_widen h)

theorem Literal.ofDocument?_variant (name : String) {d : Document} (h : d.isNull = false) :
    ofDocument? (.variant name d) = valued? name d := by
  rw [ofDocument?, Document.enum?_variant _ _ h]
  rfl

theorem Literal.ofDocument?_toDocument {l : Literal} (h : l.isFinite) :
    ofDocument? l.toDocument = some l := by
  cases l with
  | double x =>
    rw [toDocument, ofDocument?_variant _ (Binary64.isNull_toDocument h)]
    simp [valued?, Document.binary64?_toDocument h]
  | float x =>
    rw [toDocument, ofDocument?_variant _ (Binary32.isNull_toDocument h)]
    simp [valued?, Document.binary32?_toDocument h]
  | boolean b => cases b <;> simp [ofDocument?, toDocument, List.lookup_cons]
  | null => simp [ofDocument?, toDocument, List.lookup_cons]
  | _ => simp [toDocument, ofDocument?_variant, valued?]

/-! ## Expressions -/

@[simp] theorem AttributePath.ofDocument?_toDocument (p : AttributePath) :
    ofDocument? p.toDocument = some p := by
  simp [ofDocument?, toDocument]

@[simp] theorem UnaryOperator.ofDocument?_toDocument (o : UnaryOperator) :
    ofDocument? o.toDocument = some o := by
  cases o <;> simp [ofDocument?, toDocument, List.lookup_cons]

@[simp] theorem ArithmeticOperator.ofDocument?_toDocument (o : ArithmeticOperator) :
    ofDocument? o.toDocument = some o := by
  cases o <;> simp [ofDocument?, toDocument, List.lookup_cons]

@[simp] theorem RelationalOperator.ofDocument?_toDocument (o : RelationalOperator) :
    ofDocument? o.toDocument = some o := by
  cases o <;> simp [ofDocument?, toDocument, List.lookup_cons]

namespace Expression

theorem literalsOfAll_eq (es : List Expression) : literalsOfAll es = es.flatMap literals := by
  induction es with
  | nil => rw [literalsOfAll, List.flatMap_nil]
  | cons e es ih => rw [literalsOfAll, ih, List.flatMap_cons]

theorem documents_eq (es : List Expression) : documents es = es.map toDocument := by
  induction es with
  | nil => rw [documents, List.map_nil]
  | cons e es ih => rw [documents, ih, List.map_cons]

theorem isNull_toDocument (e : Expression) : e.toDocument.isNull = false := by
  cases e with
  | parameter binding expected => cases binding <;> simp [toDocument]
  | _ => simp [toDocument]

theorem depth_pos (e : Expression) : 0 < e.toDocument.depth := by
  cases e with
  | parameter binding expected =>
    cases binding <;> simp [toDocument, Document.variant, Document.depth]
  | _ => simp [toDocument, Document.variant, Document.depth]

-- The number is kept as any document that it is read from: opened up, it would be compared with its
-- bound by counting.
theorem parameter?_fields {key : String} {binding : Reader Binding} {d : Document} {b : Binding}
    (hkey : key ≠ "expected_type") (h : binding d = some b) (expected : Option DomainType) :
    parameter? Document.namedSlots key binding
      (.fields [(key, d), ("expected_type", .option DomainType.toDocument expected)]) =
        some (.parameter b expected) := by
  simp [parameter?, hkey, h]

theorem enumConstant?_fields {d : Document} {constant : EnumConstant}
    (h : d.uint32? = some constant.ordinal) (storage : Option EnumStorage) :
    enumConstant? Document.namedSlots (.fields
      [("enum_name", .text constant.enumName), ("constant_name", .text constant.constantName),
       ("ordinal", d), ("storage", .option EnumStorage.toDocument storage)]) =
        some (.enumConstant constant storage) := by
  simp [enumConstant?, h]

theorem layer?_toDocument {part : Reader Expression} {n : Nat}
    (hpart : Document.Reads toDocument (fun e => Literal.AllFinite e.literals) part n) :
    ∀ e : Expression, Literal.AllFinite e.literals → e.toDocument.depth ≤ n + 1 →
      layer? Document.namedSlots part e.toDocument = some e
  | .parameter (.positional position) expected, _, _ => by
    rw [toDocument, layer?]
    simp [parameter?_fields]
  | .parameter (.named name) expected, _, _ => by
    rw [toDocument, layer?]
    simp [parameter?_fields]
  | .entityType name, _, _ => by
    rw [toDocument, layer?]
    simp
  | .unary operator operand, hfinite, hdepth => by
    simp only [literals] at hfinite
    simp only [toDocument, Document.variant, Document.depth, Document.depthMembers] at hdepth
    rw [toDocument, layer?]
    simp [hpart operand hfinite (by omega)]
  | .path p, _, _ => by
    rw [toDocument, layer?]
    simp
  | .element name, _, _ => by
    rw [toDocument, layer?]
    simp
  | .function name arguments result, hfinite, hdepth => by
    simp only [literals, literalsOfAll_eq, List.forall_mem_flatMap] at hfinite
    simp only [toDocument, documents_eq, Document.variant, Document.depth,
      Document.depthMembers] at hdepth
    rw [toDocument, layer?]
    simp [documents_eq, hpart.all hfinite (by omega)]
  | .literal value, hfinite, _ => by
    simp only [literals, List.forall_mem_singleton] at hfinite
    rw [toDocument, layer?]
    simp [Literal.ofDocument?_toDocument hfinite]
  | .concatenation lhs rhs explicit, hfinite, hdepth => by
    simp only [literals, List.forall_mem_append] at hfinite
    simp only [toDocument, Document.variant, Document.depth, Document.depthMembers] at hdepth
    rw [toDocument, layer?]
    simp [hpart lhs hfinite.1 (by omega), hpart rhs hfinite.2 (by omega)]
  | .enumConstant constant storage, _, _ => by
    rw [toDocument, layer?]
    simp [enumConstant?_fields (Document.uint32?_nat constant.ordinal)]
  | .fieldConstant className fieldName value, hfinite, _ => by
    simp only [literals, List.forall_mem_singleton] at hfinite
    rw [toDocument, layer?]
    simp [fieldConstant?, Literal.ofDocument?_toDocument hfinite]
  | .arithmetic lhs operator rhs explicit, hfinite, hdepth => by
    simp only [literals, List.forall_mem_append] at hfinite
    simp only [toDocument, Document.variant, Document.depth, Document.depthMembers] at hdepth
    rw [toDocument, layer?]
    simp [hpart lhs hfinite.1 (by omega), hpart rhs hfinite.2 (by omega)]

theorem read?_toDocument {e : Expression} (h : Literal.AllFinite e.literals) :
    read? Document.namedSlots e.toDocument = some e := by
  have hreads : Document.Reads toDocument (fun e => Literal.AllFinite e.literals)
      (within? Document.namedSlots e.toDocument.depth) e.toDocument.depth :=
    .within (fun _ => rfl) depth_pos layer?_toDocument _
  exact hreads e h le_rfl

end Expression

/-! ## Predicates -/

namespace Predicate

theorem isNull_toDocument (p : Predicate) : p.toDocument.isNull = false := by
  cases p <;> simp [toDocument]

theorem depth_pos (p : Predicate) : 0 < p.toDocument.depth := by
  cases p <;> simp [toDocument, Document.variant, Document.depth]

theorem layer?_toDocument {part : Reader Predicate} {n : Nat}
    (hpart : Document.Reads toDocument (fun p => Literal.AllFinite p.literals) part n) :
    ∀ p : Predicate, Literal.AllFinite p.literals → p.toDocument.depth ≤ n + 1 →
      layer? Document.namedSlots part p.toDocument = some p
  | .grouped inner, hfinite, hdepth => by
    simp only [literals] at hfinite
    simp only [toDocument, Document.variant, Document.depth, Document.depthMembers] at hdepth
    rw [toDocument, layer?]
    simp [one?, hpart inner hfinite (by omega)]
  | .and left right, hfinite, hdepth => by
    simp only [literals, List.forall_mem_append] at hfinite
    simp only [toDocument, Document.variant, Document.depth, Document.depthMembers] at hdepth
    rw [toDocument, layer?]
    simp [two?, hpart left hfinite.1 (by omega),
      hpart right hfinite.2 (by omega)]
  | .or left right, hfinite, hdepth => by
    simp only [literals, List.forall_mem_append] at hfinite
    simp only [toDocument, Document.variant, Document.depth, Document.depthMembers] at hdepth
    rw [toDocument, layer?]
    simp [two?, hpart left hfinite.1 (by omega),
      hpart right hfinite.2 (by omega)]
  | .negated inner, hfinite, hdepth => by
    simp only [literals] at hfinite
    simp only [toDocument, Document.variant, Document.depth, Document.depthMembers] at hdepth
    rw [toDocument, layer?]
    simp [one?, hpart inner hfinite (by omega)]
  | .relational lhs operator rhs, hfinite, _ => by
    simp only [literals, List.forall_mem_append] at hfinite
    rw [toDocument, layer?]
    simp [Expression.read?_toDocument hfinite.1,
      Expression.read?_toDocument hfinite.2]
  | .isNull subject isNegated, hfinite, _ => by
    simp only [literals] at hfinite
    rw [toDocument, layer?]
    simp [Expression.read?_toDocument hfinite]
  | .isEmpty collection isNegated, _, _ => by
    rw [toDocument, layer?]
    simp
  | .between subject lower upper isNegated, hfinite, _ => by
    simp only [literals, List.forall_mem_append] at hfinite
    rw [toDocument, layer?]
    simp [Expression.read?_toDocument hfinite.1.1,
      Expression.read?_toDocument hfinite.1.2, Expression.read?_toDocument hfinite.2]
  | .like subject pattern escape isNegated, hfinite, _ => by
    simp only [literals, List.forall_mem_append] at hfinite
    have hescape : Slot.optional (Expression.read? Document.namedSlots)
        (.given (.option Expression.toDocument escape)) = some escape := by
      refine Slot.optional_option (fun e he => ?_) fun e _ => e.isNull_toDocument
      obtain rfl := Option.mem_def.1 he
      exact Expression.read?_toDocument hfinite.2
    rw [toDocument, layer?]
    simp [Expression.read?_toDocument hfinite.1.1,
      Expression.read?_toDocument hfinite.1.2, hescape]
  | .memberOf value collection isNegated, hfinite, _ => by
    simp only [literals] at hfinite
    rw [toDocument, layer?]
    simp [Expression.read?_toDocument hfinite]

theorem read?_toDocument {p : Predicate} (h : Literal.AllFinite p.literals) :
    read? Document.namedSlots p.toDocument = some p := by
  have hreads : Document.Reads toDocument (fun p => Literal.AllFinite p.literals)
      (within? Document.namedSlots p.toDocument.depth) p.toDocument.depth :=
    .within (fun _ => rfl) depth_pos layer?_toDocument _
  exact hreads p h le_rfl

end Predicate

/-! ## From clauses -/

@[simp] theorem Root.ofDocument?_toDocument (r : Root) : ofDocument? r.toDocument = some r := by
  simp [ofDocument?, toDocument]

@[simp] theorem JoinType.ofDocument?_toDocument (t : JoinType) :
    ofDocument? t.toDocument = some t := by
  cases t <;> simp [ofDocument?, toDocument, List.lookup_cons]

@[simp] theorem JoinSource.read?_toDocument (s : JoinSource) :
    read? Document.namedSlots s.toDocument = some s := by
  cases s <;> simp [read?, toDocument]

theorem Join.read?_toDocument {j : Join} (h : Literal.AllFinite (literalsOf j.condition)) :
    read? Document.namedSlots j.toDocument = some j := by
  have hcondition : Slot.optional (Predicate.read? Document.namedSlots)
      (.given (.option Predicate.toDocument j.condition)) = some j.condition := by
    refine Slot.optional_option (fun p hp => ?_) fun p _ => p.isNull_toDocument
    rw [Option.mem_def.1 hp] at h
    exact Predicate.read?_toDocument h
  simp [read?, toDocument, hcondition]

theorem Space.read?_toDocument {s : Space}
    (h : Literal.AllFinite (s.joins.flatMap (literalsOf ·.condition))) :
    read? Document.namedSlots s.toDocument = some s := by
  have hjoins : Document.readAll (Join.read? Document.namedSlots) (s.joins.map (·.toDocument)) =
      some s.joins :=
    Document.readAll_map fun j hj =>
      Join.read?_toDocument fun l hl => h l (List.mem_flatMap.2 ⟨j, hj, hl⟩)
  simp [read?, toDocument, hjoins]

theorem FromClause.read?_toDocument {f : FromClause}
    (h : Literal.AllFinite (f.spaces.flatMap (·.joins.flatMap (literalsOf ·.condition)))) :
    read? Document.namedSlots f.toDocument = some f := by
  have hspaces : Document.readAll (Space.read? Document.namedSlots) (f.spaces.map (·.toDocument)) =
      some f.spaces :=
    Document.readAll_map fun s hs =>
      Space.read?_toDocument fun l hl => h l (List.mem_flatMap.2 ⟨s, hs, hl⟩)
  simp [read?, toDocument, hspaces]

/-! ## Selections -/

@[simp] theorem InstantiationTarget.ofDocument?_toDocument (t : InstantiationTarget) :
    ofDocument? t.toDocument = some t := by
  cases t <;> simp [ofDocument?, toDocument, List.lookup_cons]

namespace SelectionOf

theorem itemDocuments_eq (items : List SelectItem) :
    itemDocuments items = items.map SelectItemOf.toDocument := by
  induction items with
  | nil => rw [itemDocuments, List.map_nil]
  | cons item items ih => rw [itemDocuments, ih, List.map_cons, SelectItemOf.toDocument]

theorem itemValues_eq {ε : Type} (items : List (SelectItemOf (SelectionOf ε))) :
    itemValues items = items.flatMap (·.selection.values) := by
  induction items with
  | nil => rw [itemValues, List.flatMap_nil]
  | cons item items ih => rw [itemValues, ih, List.flatMap_cons]

theorem depth_pos (s : Selection) : 0 < s.toDocument.depth := by
  cases s <;> simp [toDocument, Document.variant, Document.depth]

theorem item?_toDocument {part : Reader Selection} {item : SelectItem}
    (h : part item.selection.toDocument = some item.selection) :
    item? part item.toDocument = some item := by
  simp [item?, SelectItemOf.toDocument, h]

theorem layer?_toDocument {part : Reader Selection} {n : Nat}
    (hpart : Document.Reads toDocument
      (fun s => Literal.AllFinite (s.values.flatMap (·.literals))) part n) :
    ∀ s : Selection, Literal.AllFinite (s.values.flatMap (·.literals)) →
      s.toDocument.depth ≤ n + 1 → layer? Document.namedSlots part s.toDocument = some s
  | .expression value, hfinite, _ => by
    simp only [values, List.flatMap_singleton] at hfinite
    rw [toDocument, layer?]
    simp [Expression.read?_toDocument hfinite]
  | .instantiation target arguments, hfinite, hdepth => by
    simp only [values, itemValues_eq, List.flatMap_assoc, List.forall_mem_flatMap] at hfinite
    simp only [toDocument, itemDocuments_eq, Document.variant, Document.depth,
      Document.depthMembers] at hdepth
    have harguments : Document.readAll (item? part) (arguments.map SelectItemOf.toDocument) =
        some arguments := by
      refine Document.readAll_map fun item hitem => item?_toDocument ?_
      have hitemDepth := Document.depth_le_depthItems
        (List.mem_map_of_mem (f := SelectItemOf.toDocument) hitem)
      simp only [SelectItemOf.toDocument, Document.depth, Document.depthMembers] at hitemDepth
      exact hpart _ (List.forall_mem_flatMap.2 (hfinite item hitem)) (by omega)
    rw [toDocument, layer?]
    simp [instantiation?, itemDocuments_eq, harguments]

theorem read?_toDocument {s : Selection} (h : Literal.AllFinite (s.values.flatMap (·.literals))) :
    read? Document.namedSlots s.toDocument = some s := by
  have hreads : Document.Reads toDocument
      (fun s => Literal.AllFinite (s.values.flatMap (·.literals)))
      (within? Document.namedSlots s.toDocument.depth) s.toDocument.depth :=
    .within (fun _ => rfl) depth_pos layer?_toDocument _
  exact hreads s h le_rfl

end SelectionOf

/-! ## Clauses -/

theorem SelectClause.read?_toDocument {c : SelectClause}
    (h : Literal.AllFinite ((SelectionOf.itemValues c.items).flatMap (·.literals))) :
    read? Document.namedSlots c.toDocument = some c := by
  simp only [SelectionOf.itemValues_eq, List.flatMap_assoc, List.forall_mem_flatMap] at h
  have hitems : Document.readAll (SelectItemOf.read? Document.namedSlots)
      (c.items.map SelectItemOf.toDocument) = some c.items :=
    Document.readAll_map fun item hitem => SelectionOf.item?_toDocument
      (SelectionOf.read?_toDocument (List.forall_mem_flatMap.2 (h item hitem)))
  simp [read?, toDocument, Document.selectList?, SelectionOf.itemDocuments_eq, hitems]

/-- A condition that may be missing is read from its clause. -/
theorem Slot.optional_whereClause {condition : Option Predicate}
    (h : Literal.AllFinite (literalsOf condition)) :
    Slot.optional (Document.whereClause? Document.namedSlots)
      (.given (.option .whereClause condition)) = some condition := by
  refine Slot.optional_option (fun p hp => ?_) fun p _ => by simp [Document.whereClause]
  rw [Option.mem_def.1 hp] at h
  simp [Document.whereClause?, Document.whereClause, Predicate.read?_toDocument h]

@[simp] theorem SortOrder.ofDocument?_toDocument (o : SortOrder) :
    ofDocument? o.toDocument = some o := by
  cases o <;> simp [ofDocument?, toDocument, List.lookup_cons]

theorem SortKey.read?_toDocument {k : SortKey} (h : Literal.AllFinite k.expression.literals) :
    read? Document.namedSlots k.toDocument = some k := by
  simp [read?, toDocument, Expression.read?_toDocument h]

theorem Document.orderClause?_orderClause {keys : List SortKey}
    (h : Literal.AllFinite (keys.flatMap (·.expression.literals))) :
    orderClause? Document.namedSlots (.orderClause keys) = some keys := by
  have hkeys : readAll (SortKey.read? Document.namedSlots) (keys.map (·.toDocument)) = some keys :=
    readAll_map fun k hk =>
      SortKey.read?_toDocument fun l hl => h l (List.mem_flatMap.2 ⟨k, hk, hl⟩)
  simp [orderClause?, orderClause, hkeys]

theorem Assignment.read?_toDocument {a : Assignment} (h : Literal.AllFinite a.value.literals) :
    read? Document.namedSlots a.toDocument = some a := by
  simp [read?, toDocument, Expression.read?_toDocument h]

/-! ## Statements -/

theorem Query.read?_toDocument {q : Query} (h : Literal.AllFinite (Statement.select q).literals) :
    read? Document.namedSlots q.toDocument = some q := by
  simp only [Statement.literals, List.forall_mem_append] at h
  obtain ⟨⟨⟨hfrom, hselect⟩, hcondition⟩, horder⟩ := h
  have hselect' : Slot.optional (SelectClause.read? Document.namedSlots)
      (.given (.option SelectClause.toDocument q.select)) = some q.select := by
    refine Slot.optional_option (fun c hc => ?_) fun c _ => by simp [SelectClause.toDocument]
    rw [Option.mem_def.1 hc] at hselect
    exact SelectClause.read?_toDocument hselect
  have horder' : Slot.optional (Document.orderClause? Document.namedSlots)
      (.given (.option .orderClause q.order)) = some q.order := by
    refine Slot.optional_option (fun keys hkeys => ?_) fun keys _ => by simp [Document.orderClause]
    rw [Option.mem_def.1 hkeys] at horder
    exact Document.orderClause?_orderClause horder
  rw [toDocument, read?]
  simp [FromClause.read?_toDocument hfrom, hselect', Slot.optional_whereClause hcondition, horder']

theorem Update.read?_toDocument {u : Update} (h : Literal.AllFinite (Statement.update u).literals) :
    read? Document.namedSlots u.toDocument = some u := by
  simp only [Statement.literals, List.forall_mem_append] at h
  have hassignments : Document.readAll (Assignment.read? Document.namedSlots)
      (u.assignments.map (·.toDocument)) = some u.assignments :=
    Document.readAll_map fun a ha =>
      Assignment.read?_toDocument fun l hl => h.1 l (List.mem_flatMap.2 ⟨a, ha, hl⟩)
  rw [toDocument, read?]
  simp [hassignments, Slot.optional_whereClause h.2]

theorem Delete.read?_toDocument {d : Delete} (h : Literal.AllFinite (Statement.delete d).literals) :
    read? Document.namedSlots d.toDocument = some d := by
  rw [toDocument, read?]
  simp [Slot.optional_whereClause h]

/-- A statement without infinite or undefined numbers is read from its document. -/
theorem Statement.ofDocument?_toDocument {s : Statement} (h : Literal.AllFinite s.literals) :
    ofDocument? s.toDocument = some s := by
  cases s with
  | select q =>
    rw [toDocument, ofDocument?, read?]
    simp [Query.read?_toDocument h]
  | update u =>
    rw [toDocument, ofDocument?, read?]
    simp [Update.read?_toDocument h]
  | delete d =>
    rw [toDocument, ofDocument?, read?]
    simp [Delete.read?_toDocument h]

end EntityQuery
