import EntityQuery.Proofs.AssociationWidths
import EntityQuery.Proofs.Integrity

/-!
# Tables of collections

The key of a collection is on the first table of its group: on the first table of the elements when
these refer back to their owner, on the table of the collection otherwise. So the group of a
collection that has been built can be made (`Metamodel.Complete.collectionGroup`), and its key is
found there (`Metamodel.keyValue_of`). Only elements of any kind have no group.
-/

set_option autoImplicit false

namespace EntityQuery

/-- Where a collection is stored. The elements are there if they are entities, and the key is on
the table that opens the group. -/
structure PluralAttribute.Placed (m : Metamodel) (p : PluralAttribute) : Prop where
  elements : p.element.kind = .oneToMany ∨ p.element.kind = .manyToMany →
    ∃ e, m.elementEntity p = .ok e
  onElements : ∀ {e}, p.element.kind = .oneToMany → m.elementEntity p = .ok e →
    ∀ key ∈ p.keyColumns, key.table = e.primaryTable
  onCollection : p.element.kind ≠ .oneToMany →
    ∃ id, p.collectionTable = some id ∧ ∀ key ∈ p.keyColumns, key.table = id

/-! ## Building collections -/

namespace Build

variable {entities : List Entity} {owner : Owner} {r r' : Registry}

theorem slotTable_elements {role target : String} {table : Option TableId} {id : TableId}
    (h : slotTable entities role (.entity target false) table = .ok id) :
    ∃ e, known entities target = .ok e ∧ e.primaryTable = id := by
  simp only [slotTable, Except.bind_eq_ok] at h
  obtain ⟨e, he, h⟩ := h
  split at h
  · contradiction
  · contradiction
  · cases h
    exact ⟨e, he, rfl⟩
  · cases h

/-- The key of a collection is on the table that has the slots of the collection. -/
theorem plural_keys {name : String} {c : CollectionMapping} {p : PluralAttribute}
    (h : plural entities owner name c r = .ok p r') :
    p.element.kind = c.element.elementType.elementClass ∧
      p.element.elementType = elementDomain c.role c.element.elementType ∧
      ∃ id, slotTable entities c.role c.element.elementType p.collectionTable = .ok id ∧
        ∀ key ∈ p.keyColumns, key.table = id := by
  obtain ⟨_, _, _, _, _, id, _, _, _, _, _, -, hs, hk, ht, -, -, -, rfl⟩ := plural_ok h
  exact ⟨rfl, (elementType_ok ht).1, id, hs, (values_sound [] (keyColumns_ok hk)).2.2⟩

/-- What was known of an entity during the build is known of it afterwards. -/
theorem known_keeps {m : Metamodel} {target : String} {b : Entity}
    (hm : List.Forall₂ (fun b e : Entity => ∃ attributes, e = { b with attributes }) entities
      m.entities) (h : known entities target = .ok b) :
    ∃ attributes, m.entity target = .ok { b with attributes } := by
  obtain ⟨e, he, attributes, rfl⟩ := hm.find?_eq_some (q := fun e => decide (e.name = target))
    (by rintro b e ⟨_, rfl⟩; rfl) (known_eq_ok.1 h)
  exact ⟨attributes, by rw [Metamodel.entity, Metamodel.entity?, he]⟩

theorem plural_placed {m : Metamodel} {name : String} {c : CollectionMapping} {p : PluralAttribute}
    (hm : List.Forall₂ (fun b e : Entity => ∃ attributes, e = { b with attributes }) entities
      m.entities) (h : plural entities owner name c r = .ok p r') : p.Placed m := by
  obtain ⟨hkind, htype, id, hs, hkeys⟩ := plural_keys h
  cases ht : c.element.elementType with
  | basic | component | any =>
    rw [ht] at hkind hs
    have hone : p.element.kind ≠ .oneToMany := by rw [hkind]; nofun
    refine ⟨fun hk => ?_, fun hk => absurd hk hone, fun hk => ⟨id, slotTable_ok hs ?_, hkeys⟩⟩
    · rw [hkind] at hk
      rcases hk with hk | hk <;> cases hk
    · rw [← hkind]
      exact hk
  | entity target viaLinkTable =>
    rw [ht] at hkind htype hs
    have hentity : m.elementEntity p = m.entity target := by
      simp [Metamodel.elementEntity, PluralAttribute.elementEntity?, htype, elementDomain]
    obtain ⟨b, hb⟩ := slotTable_known hs
    obtain ⟨_, he⟩ := known_keeps hm hb
    refine ⟨fun _ => ⟨_, hentity ▸ he⟩, fun {e} hk he => ?_,
      fun hk => ⟨id, slotTable_ok hs ?_, hkeys⟩⟩
    · cases viaLinkTable with
      | true =>
        rw [hkind] at hk
        cases hk
      | false =>
        obtain ⟨b, hb, rfl⟩ := slotTable_elements hs
        obtain ⟨_, hkept⟩ := known_keeps hm hb
        rw [hentity, hkept] at he
        cases he
        exact hkeys
    · rw [← hkind]
      exact hk

end Build

namespace Registration

variable {r : Registration} {m : Metamodel}

theorem build_placed (h : r.build = .ok m) {E : Entity} {p : PluralAttribute}
    (hE : E ∈ m.entities) (hp : .plural p ∈ E.attributes) : p.Placed m := by
  obtain ⟨bare, r1, r2, hi, hc, hm⟩ := build_ok h
  have hidentified := Build.identified_ok hi
  have hcompleted := Build.completed_ok hidentified hc
  obtain ⟨q, -, hof⟩ := hcompleted.exists_left hE
  obtain ⟨am, -, _, _, hstored, -⟩ := hof.attributes.exists_left hp
  obtain ⟨c, -, hplural⟩ := Build.stored_plural hstored
  exact Build.plural_placed (Build.completed_keeps hidentified.length_eq hc) hplural

/-- The attributes of embeddables are singular, and each is built from a mapping. -/
theorem build_singular (h : r.build = .ok m) {role : String} {e : Embeddable}
    (he : m.embeddable role = .ok e) {a : Attribute} (ha : a ∈ e.attributes) :
    ∃ s entities owner am before after, a = .singular s ∧
      Build.attributeOf entities owner am before = .ok (.singular s) after := by
  obtain ⟨bare, r1, r2, hi, hc, hm⟩ := build_ok h
  rw [Metamodel.embeddable_ok, hm] at he
  have of_kept {entities : List Entity} {owner : Owner} {c : ComponentMapping}
      (hk : Build.Kept r2 entities owner role c) :
      ∃ s entities owner am before after, a = .singular s ∧
        Build.attributeOf entities owner am before = .ok (.singular s) after := by
    obtain ⟨am, -, s, _, _, hs, hmade, -⟩ := hk.attribute he ha
    exact ⟨s, _, _, am, _, _, hs, hmade⟩
  rcases Build.completed_origin (Build.identified_ok hi) hc he with
    hbefore | ⟨_, -, _, -, _, -, horigin⟩
  · rcases (Build.identified_origin hi).2 hbefore with hnone | ⟨_, -, _, _, _, -, -, -, hk⟩
    · cases hnone
    · exact of_kept (hk.grows (Build.completed_grows hc))
  · cases horigin with
    | embedded _ _ hk => exact of_kept hk
    | element _ _ _ hk => exact of_kept hk

end Registration

/-! ## Complete metamodels -/

/-- What groups and values are made of is there. -/
structure Metamodel.Complete (m : Metamodel) : Prop where
  tables : ∀ {E}, E ∈ m.entities → ∀ id ∈ E.tables, ∃ table, m.database.table? id = some table
  identifier : ∀ {E}, E ∈ m.entities → m.database.Contains E.identifier.columns
  attributes : ∀ {type name a}, m.find type name = .ok a → a.Sound m
  collections : ∀ {role p}, m.collection role = .ok p → p.Sound m
  placed : ∀ {type name p}, m.find type name = .ok (.plural p) → p.Placed m

theorem Registration.build_complete {ms : List EntityMapping} {r : Registration} {m : Metamodel}
    (hr : Registration.empty.registerAll ms = .ok r) (hb : r.build = .ok m) : m.Complete := by
  obtain ⟨hentities, hembeddables, hcollections⟩ := build_keeps hb
  refine ⟨fun {E} hE id hid => ?_, fun hE => (hentities _ hE).1.columns, fun {type name a} ha => ?_,
    fun hp => hcollections _ _ hp, fun {type name p} hp => ?_⟩
  · obtain ⟨bare, hbuilt⟩ := build_entities hb
    obtain ⟨q, hq, hof⟩ := hbuilt.exists_left hE
    obtain ⟨em, -, hem⟩ := (registered hr).exists_left hq
    rw [hof.tables] at hid
    obtain ⟨_, -, hshows⟩ := hem.tables.exists_left hid
    obtain ⟨table, ht, -⟩ := hshows.grows (build_grows hb)
    exact ⟨table, ht⟩
  · cases type with
    | entity entity =>
      obtain ⟨E, hE, ⟨hmem, -⟩ | rfl⟩ := Metamodel.find_entity_ok ha
      · exact (hentities E (Metamodel.mem_of_entity hE)).2 a hmem
      · exact (hentities E (Metamodel.mem_of_entity hE)).1
    | embeddable role =>
      obtain ⟨e, he, hmem, -⟩ := Metamodel.find_embeddable ha
      exact hembeddables role e he a hmem
  · cases type with
    | entity entity =>
      obtain ⟨E, hE, hmem, -⟩ := Metamodel.find_plural hp
      exact build_placed hb (Metamodel.mem_of_entity hE) hmem
    | embeddable role =>
      obtain ⟨e, he, hmem, -⟩ := Metamodel.find_embeddable hp
      obtain ⟨_, _, _, _, _, _, hs, -⟩ := build_singular hb he hmem
      cases hs

theorem Definition.complete {d : Definition} {m : Metamodel} (h : d.metamodel = .ok m) :
    m.Complete := by
  simp only [metamodel, Except.bind_eq_ok] at h
  obtain ⟨_, -, _, hr, hb⟩ := h
  exact Registration.build_complete hr hb

namespace Metamodel

variable {m : Metamodel} {base : String}

theorem hasColumns_of_contains {ids : List ColumnId} (h : m.database.Contains ids) :
    ∃ slots, m.HasColumns ids slots :=
  List.exists_forall₂ h

theorem columnReferences_of_contains {ids : List ColumnId} (h : m.database.Contains ids)
    (variableName : String) :
    ∃ references, m.columnReferences variableName ids = .ok references := by
  obtain ⟨slots, hslots⟩ := hasColumns_of_contains h
  exact ⟨_, columnReferences_eq_ok.2 ⟨slots, hslots, rfl⟩⟩

theorem table_of_contains {ids : List ColumnId} (h : m.database.Contains ids) {id : ColumnId}
    (hid : id ∈ ids) : ∃ table, m.database.table? id.table = some table := by
  obtain ⟨slot, hslot⟩ := h id hid
  obtain ⟨table, ht, -⟩ := Option.bind_eq_some_iff.1 hslot
  exact ⟨table, ht⟩

theorem Covers.use? {ids : List TableId} {g : Sql.TableGroup} (h : m.Covers base ids g)
    {id : TableId} (hid : id ∈ ids) : ∃ use, g.use? id = some use := by
  rw [← h.tables, List.mem_map] at hid
  obtain ⟨use, hmem, rfl⟩ := hid
  cases hf : g.use? use.id with
  | some found => exact ⟨found, rfl⟩
  | none => simpa using List.find?_eq_none.1 hf use hmem

theorem locatedReferences_of {ids : List TableId} {g : Sql.TableGroup} (h : m.Covers base ids g)
    {columns : List ColumnId} (hc : m.database.Contains columns)
    (hids : ∀ column ∈ columns, column.table ∈ ids) :
    ∃ references, m.locatedReferences g columns = .ok references ∧
      references.length = columns.length := by
  have hfound : ∀ column ∈ columns, ∃ reference, m.locatedReference g column = .ok reference := by
    intro column hcolumn
    obtain ⟨use, hu⟩ := h.use? (hids column hcolumn)
    obtain ⟨slot, hslot⟩ := hc column hcolumn
    simp only [locatedReference, hu]
    exact ⟨_, columnReference_eq_ok.2 ⟨slot, hslot, rfl⟩⟩
  obtain ⟨references, hreferences⟩ := List.exists_forall₂ hfound
  exact ⟨references, Except.mapM_of hreferences, hreferences.length_eq.symm⟩

section
variable {p : PluralAttribute} (hs : p.Sound m) (hp : p.Placed m)
include hs hp

/-- The table of a collection is there, as its key is on it. -/
theorem collectionTable_of (hk : p.element.kind ≠ .oneToMany) :
    ∃ id table, collectionTable p = .ok id ∧ m.database.table? id = some table ∧
      ∀ key ∈ p.keyColumns, key.table = id := by
  obtain ⟨id, hid, hkeys⟩ := hp.onCollection hk
  obtain ⟨key, hkey⟩ := List.exists_mem_of_ne_nil _ hs.keyed
  obtain ⟨table, ht⟩ := table_of_contains hs.keyColumns hkey
  rw [hkeys key hkey] at ht
  exact ⟨id, table, by rw [collectionTable, hid], ht, hkeys⟩

/-- The key of a collection is found in its group. -/
theorem keyValue_of {g : Sql.TableGroup} (hg : m.collectionGroup p base = .ok g) :
    ∃ references, m.keyValue p g = .ok (.ofColumns references none) ∧
      references.length = p.keyColumns.length := by
  have hlocated : ∀ {id ids}, m.Covers base (id :: ids) g → (∀ key ∈ p.keyColumns, key.table = id) →
      ∃ references, m.keyValue p g = .ok (.ofColumns references none) ∧
        references.length = p.keyColumns.length := by
    intro id ids hcovers hkeys
    obtain ⟨references, hr, hlength⟩ := locatedReferences_of hcovers hs.keyColumns
      fun key hkey => by simp [hkeys key hkey]
    exact ⟨references, Except.bind_eq_ok.2 ⟨references, hr, rfl⟩, hlength⟩
  obtain ⟨hk, e, he, hg⟩ | ⟨hk, link, e, hlink, -, hg⟩ | ⟨hk, table, root, htable, hroot, rfl⟩ :=
    collectionGroup_ok hg
  · exact hlocated (entityGroup_ok hg).1 (hp.onElements hk he)
  · obtain ⟨id, hid, hkeys⟩ := hp.onCollection (by rw [hk]; nofun)
    cases hlink.symm.trans hid
    exact hlocated (linkGroup_ok hg).1 hkeys
  · obtain ⟨id, hid, hkeys⟩ := hp.onCollection (by rcases hk with hk | hk <;> (rw [hk]; nofun))
    cases htable.symm.trans hid
    obtain ⟨hid, hname, hrefers⟩ := tableUse_ok hroot
    have hcovers : m.Covers base [table] ⟨base, .collection p.role, root, [], 0⟩ :=
      ⟨rfl, by simp [Sql.TableGroupOf.tables, hid], by simp [Sql.TableGroupOf.tables, hname],
        by simpa [Sql.TableGroupOf.tables] using hrefers⟩
    exact hlocated hcovers hkeys

end

namespace Complete

variable (h : m.Complete)
include h

theorem entityGroup {E : Entity} (hE : E ∈ m.entities) (base : String) :
    ∃ g, m.entityGroup E base = .ok g := by
  obtain ⟨table, ht⟩ := h.tables hE E.primaryTable List.mem_cons_self
  obtain ⟨uses, hu⟩ := tableUses_of base 1 fun id hid => h.tables hE id (List.mem_cons_of_mem _ hid)
  exact ⟨_, Except.bind_eq_ok.2 ⟨_, tableUse_of ht, Except.bind_eq_ok.2 ⟨uses, hu, rfl⟩⟩⟩

variable {p : PluralAttribute} (hs : p.Sound m)
include hs

theorem linkGroup {id : TableId} {table : Table} {e : Entity}
    (ht : m.database.table? id = some table) (he : e ∈ m.entities) (base : String) :
    ∃ g, m.linkGroup p id e base = .ok g := by
  obtain ⟨first, hfirst⟩ := h.tables he e.primaryTable List.mem_cons_self
  obtain ⟨references, hreferences⟩ :=
    columnReferences_of_contains hs.elementColumns (variableAt base 0)
  obtain ⟨identifiers, hidentifiers⟩ :=
    columnReferences_of_contains (h.identifier he) (variableAt base 1)
  obtain ⟨uses, hu⟩ := tableUses_of base 2 fun id hid => h.tables he id (List.mem_cons_of_mem _ hid)
  exact ⟨_, Except.bind_eq_ok.2 ⟨_, tableUse_of ht, Except.bind_eq_ok.2 ⟨_, tableUse_of hfirst,
    Except.bind_eq_ok.2 ⟨_, hreferences, Except.bind_eq_ok.2 ⟨_, hidentifiers,
      Except.bind_eq_ok.2 ⟨uses, hu, rfl⟩⟩⟩⟩⟩⟩

/-- Every collection has a group, unless its elements are of any kind. -/
theorem collectionGroup (hp : p.Placed m) (hk : p.element.kind ≠ .any) (base : String) :
    ∃ g, m.collectionGroup p base = .ok g := by
  unfold Metamodel.collectionGroup
  cases hkind : p.element.kind with
  | any => exact absurd hkind hk
  | oneToMany =>
    obtain ⟨e, he⟩ := hp.elements (.inl hkind)
    obtain ⟨g, hg⟩ := h.entityGroup (mem_of_entity (elementEntity_ok he).2) base
    exact ⟨g, Except.bind_eq_ok.2 ⟨e, he, hg⟩⟩
  | manyToMany =>
    obtain ⟨e, he⟩ := hp.elements (.inr hkind)
    obtain ⟨id, table, hid, ht, -⟩ := collectionTable_of hs hp (by rw [hkind]; nofun)
    obtain ⟨g, hg⟩ := h.linkGroup hs ht (mem_of_entity (elementEntity_ok he).2) base
    exact ⟨g, Except.bind_eq_ok.2 ⟨id, hid, Except.bind_eq_ok.2 ⟨e, he, hg⟩⟩⟩
  | basic | embeddable =>
    obtain ⟨id, table, hid, ht, -⟩ := collectionTable_of hs hp (by rw [hkind]; nofun)
    exact ⟨_, Except.bind_eq_ok.2 ⟨id, hid, Except.bind_eq_ok.2 ⟨_, tableUse_of ht, rfl⟩⟩⟩

end Complete

end Metamodel

end EntityQuery
