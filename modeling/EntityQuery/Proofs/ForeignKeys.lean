import EntityQuery.Proofs.CollectionJoins
import EntityQuery.Proofs.Composite

/-!
# Identifiers read off associations

A path may go one step beyond an association, to the identifier of the entity that it leads to. It
then stands for the columns of the association, and no join is needed. `foreign_key_agrees_with_join`:
where the association is joined too, these columns and the identifier of the joined entity are what
the join compares, column by column.

Both ways read the association at the same place (`Scope.foreignKey_path`, `associationGroup_ok`),
and the identifier of a built entity is on its first table and has a column
(`Registration.build_identifier`).
-/

set_option autoImplicit false

namespace EntityQuery

/-! ## Columns -/

namespace Metamodel

variable {m : Metamodel}

/-- The columns of the database at the given places. -/
def HasColumns (m : Metamodel) (ids : List ColumnId) (slots : List Column) : Prop :=
  List.Forall₂ (fun id slot => m.database.column? id = some slot) ids slots

theorem columnReference_eq_ok {variableName : String} {id : ColumnId} {c : Sql.ColumnReference} :
    m.columnReference variableName id = .ok c ↔ ∃ slot, m.database.column? id = some slot ∧
      c = ⟨variableName, slot.expression, slot.sqlCode, none⟩ := by
  unfold columnReference
  cases m.database.column? id <;> simp [eq_comm]

theorem columnReferences_eq_ok {variableName : String} {ids : List ColumnId}
    {references : List Sql.ColumnReference} :
    m.columnReferences variableName ids = .ok references ↔
      ∃ slots, m.HasColumns ids slots ∧ references = slotReferences variableName slots := by
  constructor
  · intro h
    replace h := Except.mapM_ok h
    induction h with
    | nil => exact ⟨[], .nil, rfl⟩
    | cons hc _ ih =>
      obtain ⟨slot, hslot, rfl⟩ := columnReference_eq_ok.1 hc
      obtain ⟨slots, hslots, rfl⟩ := ih
      exact ⟨slot :: slots, .cons hslot hslots, rfl⟩
  · rintro ⟨slots, hslots, rfl⟩
    refine Except.mapM_of ?_
    rw [slotReferences, List.forall₂_map_right_iff]
    exact hslots.imp fun id slot hslot => columnReference_eq_ok.2 ⟨slot, hslot, rfl⟩

theorem columnsAt_eq_ok {g : Sql.TableGroup} {position : Nat} {ids : List ColumnId}
    {type : Option DomainType} {e : Sql.Expression} :
    m.columnsAt g position ids type = .ok e ↔ ∃ use slots, g.table? position = some use ∧
      m.HasColumns ids slots ∧ e = .ofColumns (slotReferences use.variableName slots) type := by
  unfold columnsAt
  split
  · rename_i use hu
    simp only [Except.bind_eq_ok, Except.pure_eq_ok, columnReferences_eq_ok, hu, Option.some.injEq]
    constructor
    · rintro ⟨_, ⟨slots, hslots, rfl⟩, rfl⟩
      exact ⟨use, slots, rfl, hslots, rfl⟩
    · rintro ⟨_, slots, rfl, hslots, rfl⟩
      exact ⟨_, ⟨slots, hslots, rfl⟩, rfl⟩
  · rename_i hu
    simp [hu]

theorem matching_eq_ok {role : String} {lhs rhs : Sql.Expression} {p : Option Sql.Predicate} :
    matching role lhs rhs = .ok p ↔
      lhs.parts.length = rhs.parts.length ∧ p = Sql.Predicate.equality lhs.parts rhs.parts := by
  unfold matching
  split
  · rename_i hlength
    simp [hlength, eq_comm]
  · rename_i hlength
    simp [hlength]

end Metamodel

section

variable (variableName : String) (slots : List Column) (type : Option DomainType)

theorem length_columns_slotReferences :
    (Sql.Expression.ofColumns (slotReferences variableName slots) type).columns.length =
      slots.length := by
  simpa [slotReferences] using congrArg List.length (columns_slotReferences variableName slots type)

/-- Without their types, the columns of a value are the references it was made of. -/
theorem untyped_columns_slotReferences :
    (Sql.Expression.ofColumns (slotReferences variableName slots) type).columns.map
        (.column ·.untyped) =
      (slotReferences variableName slots).map Sql.Expression.column := by
  have hcolumns := congrArg (List.map Sql.Expression.column)
    (columns_slotReferences variableName slots type)
  rwa [List.map_map] at hcolumns

end

/-! ## Identifiers of built entities -/

/-- An attribute can be the identifier of an entity: it is marked as one, has columns on the first
table, and can be lowered. -/
structure SingularAttribute.IsKey (a : SingularAttribute) : Prop where
  marked : a.isIdentifier = true
  position : a.tablePosition = 0
  columns : a.columns ≠ []
  kind : a.kind ≠ .any

theorem Build.identifier_isKey {p : PendingEntity} {id : SingularAttribute} {r r' : Registry}
    (h : Build.identifier p r = .ok id r') : id.IsKey := by
  obtain ⟨columns, _, hv, hid⟩ := Build.identifier_ok h
  have hcolumns : columns ≠ [] := by
    simp only [Build.identifier, EStateM.bind_eq_ok, EStateM.guard_eq_ok] at h
    obtain ⟨_, _, hv', hne, -⟩ := h
    cases hv.symm.trans hv'
    simpa using hne
  obtain ⟨_, -, -, rfl⟩ | ⟨_, -, -, rfl⟩ := hid
  · exact ⟨rfl, rfl, hcolumns, nofun⟩
  · exact ⟨rfl, rfl, hcolumns, nofun⟩

namespace Registration

variable {r : Registration} {m : Metamodel}

/-- The build of a metamodel: first all identifiers, then all attributes. -/
theorem build_ok (h : r.build = .ok m) :
    ∃ bare r1 r2, Build.identified r.pending ⟨r.database, [], []⟩ = .ok bare r1 ∧
      Build.completed bare r.pending bare r1 = .ok m.entities r2 ∧
      m = ⟨r2.database, m.entities, r2.embeddables, r2.collections⟩ := by
  unfold build at h
  split at h
  · rename_i es r2 hb
    cases h
    obtain ⟨bare, r1, hi, hc⟩ := Build.entities_ok hb
    exact ⟨bare, r1, r2, hi, hc, rfl⟩
  · cases h

theorem build_identifier (h : r.build = .ok m) {E : Entity} (hE : E ∈ m.entities) :
    E.identifier.IsKey := by
  obtain ⟨bare, r1, r2, hi, hc, -⟩ := build_ok h
  obtain ⟨p, -, hbuilt⟩ := (Build.completed_ok (Build.identified_ok hi) hc).exists_left hE
  obtain ⟨_, _, hid, -⟩ := hbuilt.identifier
  exact Build.identifier_isKey hid

end Registration

/-! ## Paths beyond an association -/

theorem Metamodel.mem_of_entity {m : Metamodel} {name : String} {e : Entity}
    (h : m.entity name = .ok e) : e ∈ m.entities := by
  unfold entity at h
  split at h
  · rename_i found hf
    cases h
    exact List.mem_of_find?_eq_some hf
  · cases h

theorem SingularAttribute.targetName_eq_ok {a : SingularAttribute} {name : String} :
    a.targetName = .ok name ↔ a.attributeType = .entity name := by
  unfold targetName
  cases a.attributeType <;> simp

theorem identifierAfter?_of {m : Metamodel} {a : SingularAttribute} {T : Entity} {n : String}
    (ha : a.attributeType = .entity T.name) (hT : m.entity T.name = .ok T)
    (hn : T.find? n = some (.singular T.identifier)) (hkey : T.identifier.IsKey) :
    identifierAfter? m a n = .ok (some T.identifier) := by
  simp only [identifierAfter?, Except.bind_eq_ok]
  refine ⟨T.name, lookedUp_of (SingularAttribute.targetName_eq_ok.2 ha), T, lookedUp_of hT, ?_⟩
  rw [hn]
  simp only [hkey.marked, if_true]
  rfl

/-- Where a path ends at an association, the path with one more name leads to the identifier behind
it. -/
theorem walk_foreignKey {m : Metamodel} {path path' n : String} {a identifier : SingularAttribute}
    (hk : a.kind = .manyToOne ∨ a.kind = .oneToOne)
    (hn : identifierAfter? m a n = .ok (some identifier)) :
    ∀ {segments : List String} {type : ManagedType},
      walk m path type segments = .ok (.attributeOf (.singular a)) →
      walk m path' type (segments ++ [n]) = .ok (.foreignKey a identifier) := by
  intro segments
  induction segments with
  | nil => intro type h; simp [walk] at h
  | cons name rest ih =>
    intro type h
    obtain ⟨_, _, heq, hf, htarget⟩ | ⟨_, _, e, heq, hf, ⟨role, he, ht, hw⟩ | ⟨_, htarget⟩⟩ := walk_ok h
    · cases heq
      cases htarget
      simp only [List.cons_append, List.nil_append, walk, Except.bind_eq_ok]
      refine ⟨_, lookedUp_of hf, ?_⟩
      rcases hk with hk | hk <;>
        simp only [hk, List.isEmpty_nil, if_true, Except.bind_eq_ok] <;>
        exact ⟨_, hn, rfl⟩
    · cases heq
      have hon := ih hw
      cases rest with
      | nil => simp [walk] at hw
      | cons next rest =>
        simp only [List.cons_append, walk, Except.bind_eq_ok] at hon ⊢
        refine ⟨_, lookedUp_of hf, ?_⟩
        simp only [he, ht]
        exact hon
    · cases htarget

/-- The value of a path stays with more from-elements. -/
theorem Scope.Grows.path {s t : Scope} {m : Metamodel} (h : s.Grows t) {p : AttributePath}
    {v : Sql.Expression} (hv : s.path m p = .ok v) : t.path m p = .ok v := by
  obtain ⟨x, hx, hv⟩ := Except.bind_eq_ok.1 hv
  obtain ⟨g, hg, hv⟩ := Except.bind_eq_ok.1 hv
  refine Except.bind_eq_ok.2 ⟨x, h.resolve hx, Except.bind_eq_ok.2 ⟨g, ?_, hv⟩⟩
  exact group_ok.2 (h.group (group_ok.1 hg))

namespace Scope

variable {s : Scope} {m : Metamodel} {path : AttributePath} {x : ResolvedPath}
  {a identifier : SingularAttribute} {n : String}

theorem start_congr {ref : GroupRef} {p q : String} {r : ManagedType × Nat}
    (h : s.start m ref p = .ok r) : s.start m ref q = .ok r := by
  unfold start at h ⊢
  split at h
  · exact h
  · obtain ⟨c, hc, h⟩ := Except.bind_eq_ok.1 h
    refine Except.bind_eq_ok.2 ⟨c, hc, ?_⟩
    split at h
    all_goals first | exact h | cases h

/-- An identifier that is read off an association is the columns of the association, at its place.
-/
theorem foreignKey_path (hx : s.resolve m path = .ok x) (ha : x.target = .attributeOf (.singular a))
    (hk : a.kind = .manyToOne ∨ a.kind = .oneToOne)
    (hn : identifierAfter? m a n = .ok (some identifier)) :
    s.path m ⟨path.start, path.segments ++ [n]⟩ = (do
      let g ← s.group x.ref
      m.columnsAt g (a.tablePosition + x.elementOffset) a.columns (some identifier.attributeType)) := by
  obtain ⟨type, hr, hstart, hw, -⟩ := resolve_ok hx
  rw [ha] at hw
  have hresolve : s.resolve m ⟨path.start, path.segments ++ [n]⟩ =
      .ok ⟨AttributePath.dotted ⟨path.start, path.segments ++ [n]⟩, x.ref,
        .foreignKey a identifier, x.elementOffset⟩ := by
    simp only [resolve, Except.bind_eq_ok, Except.pure_eq_ok]
    exact ⟨x.ref, hr, _, start_congr hstart, _, walk_foreignKey hk hn hw, rfl⟩
  rw [Scope.path, hresolve]
  rfl

/-! ## Joins of associations -/

/-- The group that an association leads to, and the columns that tie it to its owner: those of the
association on the table of the owner that has them, and the identifier on the first table of the
group. -/
theorem associationGroup_ok {base : String} {joined : JoinedGroup}
    (h : s.associationGroup m x a base = .ok joined) :
    ∃ T owner use lhs rhs, a.attributeType = .entity T.name ∧ m.entity T.name = .ok T ∧
      m.entityGroup T base = .ok joined.group ∧ joined.source = .entity T.name ∧
      s.group x.ref = .ok owner ∧ owner.table? (a.tablePosition + x.elementOffset) = some use ∧
      m.HasColumns a.columns lhs ∧ m.HasColumns T.identifier.columns rhs ∧
      lhs.length = rhs.length ∧
      joined.predicate = Sql.Predicate.equality
        ((slotReferences use.variableName lhs).map .column)
        ((slotReferences joined.group.rootTable.variableName rhs).map .column) := by
  simp only [associationGroup, Except.bind_eq_ok, Except.pure_eq_ok] at h
  obtain ⟨name, hname, T, hT, group, hg, owner, ho, _, hl, _, hr, _, hp, rfl⟩ := h
  obtain ⟨use, lhs, huse, hlhs, rfl⟩ := Metamodel.columnsAt_eq_ok.1 (lookedUp_ok hl)
  obtain ⟨_, rhs, hroot, hrhs, rfl⟩ := Metamodel.columnsAt_eq_ok.1 (lookedUp_ok hr)
  cases hroot
  have hT := lookedUp_ok hT
  obtain rfl := Metamodel.entity_name hT
  have htype := SingularAttribute.targetName_eq_ok.1 (lookedUp_ok hname)
  obtain ⟨hlength, rfl⟩ := Metamodel.matching_eq_ok.1 (lookedUp_ok hp)
  simp only [Sql.Expression.parts_ofColumns, List.length_map, slotReferences] at hlength ⊢
  exact ⟨T, owner, use, lhs, rhs, htype, hT, lookedUp_ok hg, rfl, ho, huse, hlhs, hrhs, hlength, rfl⟩

/-- A path of names without dots to an association is joined as the association. -/
theorem joinedGroup_association {base : String} (hplain : ∀ name ∈ path.segments, '.' ∉ name.toList)
    (hx : s.resolve m path = .ok x) (ha : x.target = .attributeOf (.singular a))
    (hk : a.kind = .manyToOne ∨ a.kind = .oneToOne) :
    s.joinedGroup m (.attributeOf path.start (".".intercalate path.segments)) base =
      s.associationGroup m x a base := by
  have hne : path.segments ≠ [] := by
    intro hnil
    obtain ⟨_, -, -, hw, -⟩ := resolve_ok hx
    rw [hnil] at hw
    simp [walk] at hw
  simp only [joinedGroup, splitDots_intercalate hne hplain, attributeGroup, hx, bind, Except.bind, ha]
  rcases hk with hk | hk <;> rw [hk]

/-- An entity that has been joined is referred to by the columns of its identifier, on its first
table. -/
theorem identifier_path {name : String} {ref : GroupRef} {g : Sql.TableGroup} {T : Entity}
    {slots : List Column} (hr : s.index.find? name = some ref) (hs : ref.source = .entity T.name)
    (hg : groupAt? s.spaces ref.locator = some g) (hT : m.entity T.name = .ok T)
    (hn : T.find? n = some (.singular T.identifier)) (hkey : T.identifier.IsKey)
    (hslots : m.HasColumns T.identifier.columns slots) :
    s.path m ⟨name, [n]⟩ = .ok (.ofColumns (slotReferences g.rootTable.variableName slots)
      (some T.identifier.attributeType)) := by
  have hstart : s.start m ref (AttributePath.dotted ⟨name, [n]⟩) = .ok (.entity T.name, 0) := by
    simp only [start, hs]
  have hresolve : s.resolve m ⟨name, [n]⟩ = .ok ⟨AttributePath.dotted ⟨name, [n]⟩, ref,
      .attributeOf (.singular T.identifier), 0⟩ := by
    simp only [resolve, Except.bind_eq_ok, Except.pure_eq_ok]
    exact ⟨ref, FromIndex.resolve_ok.2 hr, _, hstart, _, walk_entity hT hn, rfl⟩
  refine Except.bind_eq_ok.2 ⟨_, hresolve, Except.bind_eq_ok.2 ⟨g, group_ok.2 hg, ?_⟩⟩
  simp only [hkey.kind, if_false, hkey.position]
  exact lookedUp_of (Metamodel.columnsAt_eq_ok.2 ⟨g.rootTable, slots, rfl, hslots, rfl⟩)

end Scope

/-- A join adds its group and what ties it, under its name and alias base, and keeps what was
there. -/
theorem Step.join_enters {m : Metamodel} {j : Join} {pass pass' : Pass} {u : Unit}
    (h : join m j pass = .ok u pass') :
    ∃ joined ref, pass.scope.joinedGroup m j.source ref.aliasBase = .ok joined ∧
      pass.scope.Grows pass'.scope ∧
      pass'.scope.index.find? (nameFor j.aliasName pass.generated) = some ref ∧
      ref.source = joined.source ∧ groupAt? pass'.scope.spaces ref.locator = some joined.group ∧
      tieAt? pass'.scope.spaces ref.locator = joined.predicate := by
  obtain ⟨joinType, space, base, bases, joined, index, -, hl, -, hj, hi, rfl⟩ := join_ok h
  obtain ⟨hgroup, htie⟩ :=
    groupAt?_joinedOnto ⟨joinType, joined.group, joined.predicate, j.fetch⟩ hl
  have hperm := (FromIndex.add_ok hi).2
  have hgrows : pass.scope.Grows ⟨index,
      joinedOnto space ⟨joinType, joined.group, joined.predicate, j.fetch⟩ pass.scope.spaces⟩ := by
    refine ⟨fun hf => ?_, fun hk => ?_⟩
    · exact FromIndex.find?_of_mem
        (hperm.mem_iff.2 (List.mem_cons_of_mem _ (FromIndex.mem_of_find? hf)))
    · obtain ⟨before, s, hspaces, -, hjoined⟩ :=
        joinedOnto_last ⟨joinType, joined.group, joined.predicate, j.fetch⟩ hl
      rw [hspaces] at hk
      rw [hjoined]
      exact groupAt?_join hk _
  exact ⟨joined, ⟨_, base, _⟩, hj, hgrows,
    FromIndex.find?_of_mem (hperm.mem_iff.2 List.mem_cons_self), rfl, hgroup, htie⟩

/-- Where an association is joined, the identifier of the entity that it leads to can be read off the
association too, before the join and after it. Both values have the same number of columns, at least
one, and what ties the joined entity is that they are equal, column by column and in order. -/
theorem foreign_key_agrees_with_join {r : Registration} {m : Metamodel} {pass pass' : Pass}
    {u : Unit} {j : Join} {path : AttributePath} {x : ResolvedPath} {a : SingularAttribute}
    {T : Entity} {n : String} (hm : r.build = .ok m)
    (hplain : ∀ name ∈ path.segments, '.' ∉ name.toList)
    (hx : pass.scope.resolve m path = .ok x) (ha : x.target = .attributeOf (.singular a))
    (hk : a.kind = .manyToOne ∨ a.kind = .oneToOne) (htype : a.attributeType = .entity T.name)
    (hT : m.entity T.name = .ok T) (hn : T.find? n = some (.singular T.identifier))
    (hsource : j.source = .attributeOf path.start (".".intercalate path.segments))
    (hj : Step.join m j pass = .ok u pass') :
    ∃ f i ref, pass.scope.path m ⟨path.start, path.segments ++ [n]⟩ = .ok f ∧
      (∀ t, pass'.scope.Grows t → t.path m ⟨path.start, path.segments ++ [n]⟩ = .ok f ∧
        t.path m ⟨nameFor j.aliasName pass.generated, [n]⟩ = .ok i) ∧
      f.columns.length = i.columns.length ∧ 0 < f.columns.length ∧
      pass'.scope.index.find? (nameFor j.aliasName pass.generated) = some ref ∧
      tieAt? pass'.scope.spaces ref.locator = Sql.Predicate.equality
        (f.columns.map (.column ·.untyped)) (i.columns.map (.column ·.untyped)) := by
  obtain ⟨joined, ref, hjoined, hgrows, hr, hs, hg, htie⟩ := Step.join_enters hj
  rw [hsource, Scope.joinedGroup_association hplain hx ha hk] at hjoined
  obtain ⟨T', owner, use, lhs, rhs, htype', hT', -, hs', ho, huse, hlhs, hrhs, hlength, hpredicate⟩ :=
    Scope.associationGroup_ok hjoined
  have hname : T'.name = T.name := DomainType.entity.inj (htype'.symm.trans htype)
  rw [hname] at hT'
  cases hT.symm.trans hT'
  have hkey := Registration.build_identifier hm (Metamodel.mem_of_entity hT)
  have hf : pass.scope.path m ⟨path.start, path.segments ++ [n]⟩ =
      .ok (.ofColumns (slotReferences use.variableName lhs) (some T.identifier.attributeType)) := by
    rw [Scope.foreignKey_path hx ha hk (identifierAfter?_of htype hT hn hkey)]
    exact Except.bind_eq_ok.2 ⟨owner, ho,
      lookedUp_of (Metamodel.columnsAt_eq_ok.2 ⟨use, lhs, huse, hlhs, rfl⟩)⟩
  have hi := Scope.identifier_path hr (hs.trans hs') hg hT hn hkey hrhs
  refine ⟨_, _, ref, hf, fun t ht => ⟨(hgrows.trans ht).path hf, ht.path hi⟩, ?_, ?_, hr, ?_⟩
  · rw [length_columns_slotReferences, length_columns_slotReferences, hlength]
  · rw [length_columns_slotReferences, hlength, ← List.Forall₂.length_eq hrhs]
    exact List.length_pos_iff.2 hkey.columns
  · rw [htie, hpredicate, untyped_columns_slotReferences, untyped_columns_slotReferences]

/-- The storage of an attribute in columns of the first table, all of one type. -/
def inColumns (name : String) (columns : List String) (code : SqlCode) (mapped : MappedType) :
    AttributeMapping :=
  ⟨name, 0, columns.map some, none, columns.map fun _ => code, mapped⟩

/-- Orders, known by a region and a number there; parcels, whose origin is an order; and shipments
of parcels. -/
def parcels : List EntityMapping :=
  let text : MappedType := .basic (.standard .string)
  let id : IdentifierMapping := ⟨"id", ["id"], [SqlCode.bigint], .basic (.standard .long)⟩
  let order := inColumns "order" ["region", "number"] SqlCode.varchar (.association "Order" .manyToOne)
  [⟨"Order", none, ["orders"],
      ⟨"key", ["region", "number"], [SqlCode.varchar, SqlCode.varchar],
        .component ⟨"OrderKey", [inColumns "region" ["region"] SqlCode.varchar text,
          inColumns "number" ["number"] SqlCode.varchar text]⟩⟩, []⟩,
   ⟨"Parcel", none, ["parcel"], id,
      [inColumns "origin" ["region", "number"] SqlCode.varchar (.component ⟨"Origin", [order]⟩)]⟩,
   ⟨"Shipment", none, ["shipment"], id,
      [⟨"parcels", 0, [], none, [], .collection ⟨"Shipment.parcels", .bag, some "shipment_parcel",
        ["shipment_id"], [SqlCode.bigint],
        ⟨.entity "Parcel" true, [some "parcel_id"], none, [SqlCode.bigint]⟩, none⟩⟩]⟩]

/-- Shipments with their parcels. -/
def shipmentsAndParcels : FromClause :=
  ⟨[⟨⟨"Shipment", some "s"⟩, [⟨some "p", .inner, .attributeOf "s" "parcels", false, none⟩]⟩]⟩

/-- The orders that these parcels come from. -/
def ordersOfParcels : Join := ⟨some "o", .left, .attributeOf "p" "origin.order", false, none⟩

theorem foreign_key_agrees_with_order : ∃ r m pass pass' f i ref,
    Registration.empty.registerAll parcels = .ok r ∧ r.build = .ok m ∧
    Step.fromClause m shipmentsAndParcels (.start .default) = .ok () pass ∧
    Step.join m ordersOfParcels pass = .ok () pass' ∧
    pass.scope.path m ⟨"p", ["origin", "order", "id"]⟩ = .ok f ∧
    pass'.scope.path m ⟨"o", ["id"]⟩ = .ok i ∧ f.columns.length = 2 ∧ i.columns.length = 2 ∧
    pass'.scope.index.find? "o" = some ref ∧
    tieAt? pass'.scope.spaces ref.locator = Sql.Predicate.equality
      (f.columns.map (.column ·.untyped)) (i.columns.map (.column ·.untyped)) := by
  have hrun : ((Registration.empty.registerAll parcels).toOption.bind fun r =>
      r.build.toOption.bind fun m =>
      ((do Step.fromClause m shipmentsAndParcels; get : Step Pass).run' (.start .default)).bind
        fun pass =>
      (pass.scope.resolve m ⟨"p", ["origin", "order"]⟩).toOption.bind fun x =>
      ((m.find (.embeddable "Parcel.origin") "order").toOption.bind (·.singular?)).bind fun a =>
      (m.entity "Order").toOption.map fun T => decide (x.target = .attributeOf (.singular a) ∧
        a.kind = .manyToOne ∧ a.attributeType = .entity T.name ∧
        T.find? "id" = some (.singular T.identifier) ∧
        ((Step.join m ordersOfParcels).run' pass).isSome ∧
        (pass.scope.path m ⟨"p", ["origin", "order", "id"]⟩).toOption.map (·.columns.length) =
          some 2)) = some true := by
    decide +kernel
  obtain ⟨r, hr, hrun⟩ := Option.bind_eq_some_iff.1 hrun
  obtain ⟨m, hm, hrun⟩ := Option.bind_eq_some_iff.1 hrun
  obtain ⟨pass, hf, hrun⟩ := Option.bind_eq_some_iff.1 hrun
  obtain ⟨x, hx, hrun⟩ := Option.bind_eq_some_iff.1 hrun
  obtain ⟨a, -, hrun⟩ := Option.bind_eq_some_iff.1 hrun
  obtain ⟨T, hT, hrun⟩ := Option.map_eq_some_iff.1 hrun
  obtain ⟨ha, hk, htype, hn, hjoin, htwo⟩ := of_decide_eq_true hrun
  obtain ⟨_, hf⟩ := EStateM.exists_ok_of_run' hf
  obtain ⟨u, _, hf, hget⟩ := EStateM.bind_eq_ok.1 hf
  rw [(EStateM.get_eq_ok.1 hget).1] at hf
  obtain ⟨_, hjoin⟩ := Option.isSome_iff_exists.1 hjoin
  obtain ⟨pass', hjoin⟩ := EStateM.exists_ok_of_run' hjoin
  have hT := Except.toOption_eq_some.1 hT
  have hm := Except.toOption_eq_some.1 hm
  obtain ⟨f, i, ref, hpath, hpaths, hlength, -, href, htie⟩ :=
    foreign_key_agrees_with_join hm (by decide +kernel) (Except.toOption_eq_some.1 hx) ha (.inl hk)
      htype (by rw [Metamodel.entity_name hT]; exact hT) hn rfl hjoin
  have hpath' : pass.scope.path m ⟨"p", ["origin", "order", "id"]⟩ = .ok f := hpath
  rw [hpath'] at htwo
  have htwo : f.columns.length = 2 := Option.some.inj htwo
  exact ⟨r, m, pass, pass', f, i, ref, Except.toOption_eq_some.1 hr, hm, hf, hjoin, hpath,
    (hpaths _ (.refl _)).2, htwo, hlength ▸ htwo, href, htie⟩

end EntityQuery
