import EntityQuery.Proofs.CollectionRegistry
import EntityQuery.Proofs.KnownEntities
import EntityQuery.Proofs.TwoRuns

/-!
# What has been built can be built again

Whether an attribute can be built depends on its mapping and on the entities that are known, and
hardly on what it is built for: an owner whose tables are in the database and which has an
identifier will do (`Build.Prepared`). Nor does it depend on the table that an embeddable is stored
in. So an attribute that has been built once is built again for any such owner
(`Build.attributeOf_again`), in whatever table, and an embeddable likewise
(`Build.componentMapper_again`).
-/

set_option autoImplicit false

namespace EntityQuery

/-! ## Slots -/

namespace Database

variable {P : MetamodelError → Prop} {role : String} {id : TableId} {db db' : Database}
  {columns : List (Option String)} {formulas : Option (List (Option String))} {codes : List SqlCode}
  {slots : List Column}

/-- There is a table at the place. -/
def Has (db : Database) (id : TableId) : Prop := ∃ table, db.table? id = some table

theorem Has.grows (h : db.Has id) (hg : db.Grows db') : db'.Has id := by
  obtain ⟨table, ht⟩ := h
  obtain ⟨more, ht⟩ := hg id table ht
  exact ⟨_, ht⟩

theorem Shows.has {expression : String} (h : db.Shows expression id) : db.Has id := by
  obtain ⟨table, ht, -⟩ := h
  exact ⟨table, ht⟩

theorem slot?_of_has (h : db.Has id) (slot : Column) :
    ∃ place db', db.slot? id slot = some (place, db') := by
  obtain ⟨table, ht⟩ := h
  simp only [slot?, ht]
  cases table.columns.idxOf? slot with
  | some index => exact ⟨_, _, rfl⟩
  | none => exact ⟨_, _, rfl⟩

theorem fillSlot_of (role : String) (h : db.Has id) (n : Nat) (slot : Column) :
    ∃ place db',
      fillSlot role id n slot.expression.column? slot.expression.formula? slot.sqlCode db =
        .ok place db' ∧ db.Grows db' := by
  obtain ⟨place, db', hs⟩ := slot?_of_has h slot
  refine ⟨place, db', ?_, slot?_grows hs⟩
  simp only [fillSlot, slotExpression_of, hs]

theorem fillSlots_of : ∀ (slots : List Column) {n : Nat} {db : Database}, db.Has id →
    (fillSlots role id n
      (slots.map fun c => (c.expression.column?, c.expression.formula?, c.sqlCode)) db).FailsWith P
  | [], _, _, _ => .of_ok rfl
  | slot :: slots, n, db, h => by
    obtain ⟨place, db', hfill, hg⟩ := fillSlot_of role h n slot
    rw [List.map_cons, fillSlots]
    refine .bind (.of_ok hfill) fun hrun => ?_
    cases hfill.symm.trans hrun
    exact .bind (fillSlots_of slots (h.grows hg)) fun _ => .of_ok rfl

theorem rowFault?_of (hd : Describes columns formulas codes slots) :
    rowFault? columns formulas codes = none := by
  have hlength : columns.length = codes.length := by
    rw [hd.named, hd.typed, List.length_map, List.length_map]
  unfold rowFault?
  rw [if_neg (not_not.2 hlength)]
  cases formulas with
  | none => rfl
  | some formulas =>
    have hformulas : formulas.length = columns.length := by
      rw [show formulas = _ from hd.computed, hd.named, List.length_map, List.length_map]
    exact if_neg (not_not.2 hformulas)

theorem values_of (hd : Describes columns formulas codes slots) (h : db.Has id) :
    (values role id columns formulas codes db).FailsWith P := by
  unfold values
  refine .bind (.of_ok rfl) fun hget => ?_
  obtain ⟨rfl, rfl⟩ := EStateM.get_eq_ok.1 hget
  refine .pass ?_ ?_
  · obtain ⟨table, ht⟩ := h
    simp [ht]
  · rw [rowFault?_of hd, hd.slotRow]
    exact fillSlots_of slots h

end Database

namespace Build

variable {P : MetamodelError → Prop} {entities : List Entity} {owner owner' : Owner}
  {r r' r2 : Registry} {role role' name : String} {table table' : TableId}
  {columns : List (Option String)} {formulas : Option (List (Option String))} {codes : List SqlCode}
  {ids : List ColumnId} {n n' : Nat}

/-- Columns that have been found in a table are found in any other. -/
theorem values_again
    (h : database (Database.values role table columns formulas codes) r = .ok ids r')
    (hid : r2.database.Has table') :
    (database (Database.values role' table' columns formulas codes) r2).FailsWith P := by
  obtain ⟨db, hv, -⟩ := database_ok h
  obtain ⟨slots, hd⟩ := Database.values_describes hv
  exact database_fails (Database.values_of hd hid)

/-- As many columns are found again. -/
theorem values_refilled {ids' : List ColumnId} {r2' : Registry}
    (h : database (Database.values role table columns formulas codes) r = .ok ids r')
    (h' : database (Database.values role' table' columns formulas codes) r2 = .ok ids' r2')
    (hne : ids ≠ []) : ids' ≠ [] := by
  rw [← List.length_pos_iff] at hne ⊢
  rw [values_length h', ← values_length h]
  exact hne

/-! ## Attributes without parts -/

/-- An owner can be built for: it has an identifier, and its tables are in the database. So are the
first tables of the entities that are known. -/
structure Prepared (entities : List Entity) (owner : Owner) (r : Registry) : Prop where
  named : r.database.Named
  tables : ∀ id ∈ owner.tables, r.database.Has id
  known : ∀ e ∈ entities, r.database.Has e.primaryTable
  keyed : owner.identifierColumns ≠ []

theorem Prepared.grows {Q : String → Prop} (h : Prepared entities owner r) (hg : r.Grows Q r') :
    Prepared entities owner r' :=
  ⟨hg.named h.named, fun id hid => (h.tables id hid).grows hg.database,
    fun e he => (h.known e he).grows hg.database, h.keyed⟩

theorem Prepared.exists_table (h : Prepared entities owner r) (hn : n < owner.tables.length) :
    ∃ table, owner.tables[n]? = some table ∧ r.database.Has table :=
  ⟨_, List.getElem?_eq_getElem hn, h.tables _ (List.getElem_mem hn)⟩

/-- Columns that must not be missing are not missing again. -/
theorem filled_fails {e : MetamodelError} {values : Database.Action (List ColumnId)}
    (hvalues : (database values r).FailsWith P)
    (hne : ∀ {ids : List ColumnId} {r' : Registry}, database values r = .ok ids r' → ids ≠ []) :
    ((do
      let ids ← database values
      if ids.isEmpty then throw e
      return ids : Build (List ColumnId)) r).FailsWith P :=
  .bind hvalues fun hv => .pass (by simpa using hne hv) (.of_ok rfl)

theorem filled_again {e e' : MetamodelError}
    (h : (do
      let ids ← database (Database.values role table columns formulas codes)
      if ids.isEmpty then throw e
      return ids : Build (List ColumnId)) r = .ok ids r')
    (hid : r2.database.Has table') :
    ((do
      let ids ← database (Database.values role' table' columns formulas codes)
      if ids.isEmpty then throw e'
      return ids : Build (List ColumnId)) r2).FailsWith P := by
  simp only [EStateM.bind_eq_ok, EStateM.guard_eq_ok, EStateM.pure_eq_ok] at h
  obtain ⟨_, _, hv, hne, rfl, rfl⟩ := h
  exact filled_fails (values_again hv hid) fun hv' =>
    values_refilled hv hv' (by simpa using hne)

theorem associationColumns_again {kind : AssociationKind} {declares : Bool} {position : Nat}
    (h : associationColumns owner role kind declares n
      (Database.values role table columns formulas codes) r = .ok (ids, position) r')
    (hkey : owner'.identifierColumns ≠ []) (hid : r2.database.Has table') :
    (associationColumns owner' role' kind declares n'
      (Database.values role' table' columns formulas codes) r2).FailsWith P := by
  have hne := associationColumns_filled h
  unfold associationColumns
  cases kind with
  | primaryKeyOneToOne =>
    obtain ⟨-, rfl, -⟩ | ⟨hk, -⟩ := associationColumns_ok h
    · exact .bind (.of_ok rfl) fun hrun => by
        cases hrun
        exact .pass (by simpa using hkey) (.of_ok rfl)
    · exact absurd rfl hk
  | manyToOne | uniqueKeyOneToOne =>
    obtain ⟨hk, -⟩ | ⟨-, -, hv⟩ := associationColumns_ok h
    · cases hk
    · refine .bind (values_again hv hid) fun hv' => .bind (.of_ok rfl) fun hpair => ?_
      obtain ⟨rfl, rfl⟩ := EStateM.pure_eq_ok.1 hpair
      exact .pass (by simpa using values_refilled hv hv' hne) (.of_ok rfl)

/-- An attribute without parts is stored again, in whatever table of the owner. -/
theorem stored_again {mapped : MappedType} {s : SingularAttribute}
    (hm : ∀ c, mapped ≠ .component c)
    (h : stored entities owner name n columns formulas codes mapped r = .ok (.singular s) r')
    (hp : Prepared entities owner' r2) (hn : n' < owner'.tables.length) :
    (stored entities owner' name n' columns formulas codes mapped r2).FailsWith P := by
  obtain ⟨table', ht', hid⟩ := hp.exists_table hn
  unfold stored at h ⊢
  cases ht : owner.tables[n]? with
  | none =>
    simp only [ht] at h
    exact absurd h EStateM.throw_ne_ok
  | some table =>
    simp only [ht, ht'] at h ⊢
    cases mapped with
    | basic t =>
      simp only [EStateM.bind_eq_ok] at h
      obtain ⟨_, _, hv, -⟩ := h
      exact .bind (filled_again hv hid) fun _ => .of_ok rfl
    | component c => exact absurd rfl (hm c)
    | any t =>
      simp only [EStateM.bind_eq_ok] at h
      obtain ⟨_, _, hv, -⟩ := h
      exact .bind (values_again hv hid) fun _ => .of_ok rfl
    | association target kind =>
      simp only [EStateM.bind_eq_ok] at h
      obtain ⟨_, _, hk, ⟨_, _⟩, _, hv, -⟩ := h
      obtain ⟨hknown, rfl⟩ := ofExcept_ok hk
      refine .bind (ofExcept_fails (.of_ok hknown)) fun hk' => ?_
      obtain ⟨-, rfl⟩ := ofExcept_ok hk'
      exact .bind (associationColumns_again hv hp.keyed hid) fun _ => .of_ok rfl
    | collection c =>
      simp only [EStateM.bind_eq_ok, EStateM.pure_eq_ok] at h
      obtain ⟨_, _, -, heq, -⟩ := h
      cases heq

/-! ## Collections -/

theorem slotTable_again {type : ElementType} {link link' : Option TableId} {id : TableId}
    {db : Database} (h : slotTable entities role type link = .ok id)
    (hlink : link'.isSome = link.isSome) (hid : ∀ id, link' = some id → db.Has id)
    (hknown : ∀ e ∈ entities, db.Has e.primaryTable) :
    ∃ id', slotTable entities role type link' = .ok id' ∧ db.Has id' := by
  cases type with
  | entity target viaLinkTable =>
    simp only [slotTable, Except.bind_eq_ok] at h ⊢
    obtain ⟨e, he, h⟩ := h
    cases viaLinkTable <;> cases link <;> cases link' <;> cases h <;> cases hlink
    · exact ⟨e.primaryTable, ⟨e, he, rfl⟩, hknown e (List.mem_of_find?_eq_some (known_eq_ok.1 he))⟩
    · exact ⟨_, ⟨e, he, rfl⟩, hid _ rfl⟩
  | basic t | component c | any t =>
    cases link <;> cases link' <;> cases h <;> cases hlink
    exact ⟨_, rfl, hid _ rfl⟩

theorem elementColumns_again {type : ElementType}
    (h : elementColumns entities role type (Database.values role table columns formulas codes) r =
      .ok ids r') (hid : r2.database.Has table') :
    (elementColumns entities role' type (Database.values role' table' columns formulas codes)
      r2).FailsWith P := by
  simp only [elementColumns, EStateM.bind_eq_ok, EStateM.guard_eq_ok] at h
  obtain ⟨found, _, hv, hne, -⟩ := h
  refine .bind (values_again hv hid) fun {found' _} hv' => .pass ?_ (.of_ok rfl)
  have hlength : found'.length = found.length := (values_length hv').trans (values_length hv).symm
  cases found with
  | nil =>
    rw [List.eq_nil_of_length_eq_zero hlength]
    exact hne
  | cons id ids =>
    obtain ⟨id', ids', rfl⟩ := List.exists_cons_of_length_eq_add_one hlength
    simp

theorem indexOf_again {collection : CollectionClass} {index : Option IndexMapping}
    {found : Option Index} (h : indexOf role table collection index r = .ok found r')
    (hid : r2.database.Has table') : (indexOf role' table' collection index r2).FailsWith P := by
  unfold indexOf at h ⊢
  cases index with
  | some m =>
    obtain ⟨_, _, hv, -⟩ := EStateM.bind_eq_ok.1 h
    exact .bind (values_again hv hid) fun _ => .of_ok rfl
  | none =>
    cases collection with
    | list | map => exact absurd h EStateM.throw_ne_ok
    | bag | set => exact .of_ok rfl

theorem ownTable_isSome {expression : Option String} {link : Option TableId}
    (h : ownTable expression r = .ok link r') : link.isSome = expression.isSome := by
  cases expression with
  | none =>
    obtain ⟨rfl, -⟩ := EStateM.pure_eq_ok.1 h
    rfl
  | some expression =>
    obtain ⟨id, -, rfl⟩ := EStateM.map_eq_ok.1 h
    rfl

theorem ownTable_has {expression : Option String} {id : TableId} (hn : r.database.Named)
    (h : ownTable expression r = .ok (some id) r') : r'.database.Has id := by
  cases expression with
  | none =>
    obtain ⟨hnone, -⟩ := EStateM.pure_eq_ok.1 h
    cases hnone
  | some expression =>
    obtain ⟨_, heq, hshows⟩ := ownTable_shows hn h
    cases heq
    exact hshows.has

end Build

/-! ## Embeddables -/

/-- An embeddable that is mapped in one table is mapped in every other. -/
theorem Definition.componentMapper_number {d : Definition} : ∀ {depth : Nat} {context name : String}
    {n : Nat} {c : ComponentMapping}, d.componentMapper depth context name n = .ok c →
    ∀ n', ∃ c', d.componentMapper depth context name n' = .ok c'
  | 0, _, _, _, _, h, _ => by
    obtain ⟨_, _, hdepth, -⟩ := componentMapper_ok h
    cases hdepth
  | depth + 1, context, name, n, c, h, n' => by
    obtain ⟨_, e, hdepth, he, -, hms⟩ := componentMapper_ok h
    cases hdepth
    have hsub : ∀ a ∈ e.attributes, ∀ m,
        d.subMapping (d.componentMapper depth) context n a = .ok m →
        ∃ m', d.subMapping (d.componentMapper depth) context n' a = .ok m' ∧ True := by
      intro a _ m hm
      obtain ⟨hsingular, hm⟩ := subMapping_ok hm
      rw [subMapping, hsingular]
      by_cases hx : ∃ x, a = .embedded x
      · obtain ⟨x, rfl⟩ := hx
        obtain ⟨c, hc, -⟩ := Except.bind_eq_ok.1 hm
        obtain ⟨c', hc'⟩ := componentMapper_number hc n'
        exact ⟨_, Except.bind_eq_ok.2 ⟨c', hc', rfl⟩, trivial⟩
      · exact ⟨_, attributeMapping_number (fun x ha => hx ⟨x, ha⟩) hm n', trivial⟩
    obtain ⟨ms', hms', -⟩ := Except.mapM_of_ok (Except.mapM_of hms) hsub
    refine ⟨⟨e.name, ms'⟩, ?_⟩
    unfold componentMapper
    rw [he]
    exact Except.bind_eq_ok.2 ⟨ms', hms', rfl⟩

namespace Build

variable {P : MetamodelError → Prop} {entities : List Entity} {owner owner' : Owner}
  {r r' r2 : Registry} {name : String} {n n' : Nat}

/-- What is mapped as an embeddable in one table can be built wherever it is mapped in another, once
it has been built. -/
structure Again (entities : List Entity) (component : ComponentMapper) : Prop where
  run : ∀ {P : MetamodelError → Prop} {context name role role' : String} {n n' : Nat}
    {c c' : ComponentMapping} {owner owner' : Owner} {r r' r2 : Registry} {u : Unit},
    component context name n = .ok c → component context name n' = .ok c' →
    Build.component entities owner role c r = .ok u r' →
    Prepared entities owner' r2 → n' < owner'.tables.length →
    (Build.component entities owner' role' c' r2).FailsWith P

section

variable {d : Definition} {mapper : ComponentMapper} {embeddable : String → Option (List Column)}
  {context : String} {a : AttributeDefinition} {m m' : AttributeMapping}

theorem singular_again {s : SingularAttribute} (hc : Definition.Agrees mapper embeddable)
    (hagain : Again entities mapper)
    (hm : d.attributeMapping mapper context n a = .ok m)
    (hm' : d.attributeMapping mapper context n' a = .ok m')
    (h : attributeOf entities owner m r = .ok (.singular s) r')
    (hp : Prepared entities owner' r2) (hn : n' < owner'.tables.length) :
    (attributeOf entities owner' m' r2).FailsWith P := by
  by_cases hx : ∃ x, a = .embedded x
  · obtain ⟨x, rfl⟩ := hx
    obtain ⟨slots, hmaps⟩ := Definition.embeddedMapping_maps (d := d) hc hm'
    simp only [Definition.attributeMapping, Definition.embeddedMapping, Except.bind_eq_ok,
      Except.pure_eq_ok] at hm hm'
    obtain ⟨c, hcomponent, rfl⟩ := hm
    obtain ⟨c', hcomponent', rfl⟩ := hm'
    obtain ⟨_, -, _, _, -, hbuilt, -⟩ := stored_ok h
    obtain ⟨table, ht, hid⟩ := hp.exists_table hn
    simp only [attributeOf, stored, ht]
    refine .bind (database_fails (Database.values_of hmaps.described hid)) fun hv => ?_
    have hg := values_grows (P := fun _ => True) hv
    exact .bind (hagain.run hcomponent hcomponent' hbuilt (hp.grows hg) hn) fun _ => .of_ok rfl
  · have hx : ∀ x, a ≠ .embedded x := fun x ha => hx ⟨x, ha⟩
    cases (Definition.attributeMapping_number hx hm n').symm.trans hm'
    refine stored_again (fun c hcomponent => ?_) h hp hn
    have htype := Definition.attributeMapping_type hc hm
    rw [hcomponent] at htype
    obtain ⟨x, rfl, -⟩ := htype
    exact hx x rfl

theorem subAttributes_again (hc : Definition.Agrees mapper embeddable)
    (hagain : Again entities mapper) {as : List AttributeDefinition}
    {ms ms' : List AttributeMapping} {subs : List Attribute} {r r' r2 : Registry}
    (hms : List.Forall₂ (fun a m => d.subMapping mapper context n a = .ok m) as ms)
    (hms' : List.Forall₂ (fun a m => d.subMapping mapper context n' a = .ok m) as ms')
    (h : subAttributes entities owner ms r = .ok subs r') (hp : Prepared entities owner' r2)
    (hn : n' < owner'.tables.length) : (subAttributes entities owner' ms' r2).FailsWith P := by
  induction hms generalizing ms' subs r r' r2 with
  | nil =>
    cases hms'
    unfold subAttributes
    exact .of_ok rfl
  | cons hm _ ih =>
    obtain _ | ⟨hm', hms'⟩ := hms'
    simp only [subAttributes, EStateM.bind_eq_ok] at h
    obtain ⟨found, _, hs, h⟩ := h
    cases found with
    | plural p => exact absurd h EStateM.throw_ne_ok
    | singular s =>
      simp only [EStateM.bind_eq_ok] at h
      obtain ⟨_, _, hrest, -⟩ := h
      obtain ⟨hsingular, hm'⟩ := Definition.subMapping_ok hm'
      unfold subAttributes
      refine .bind (singular_again hc hagain (Definition.subMapping_ok hm).2 hm' hs hp hn) ?_
      intro found _ hs'
      cases found with
      | plural p =>
        obtain ⟨c, hcollection, -⟩ := stored_plural hs'
        have hplural := (Definition.attributeMapping_collection hm' hcollection).isPlural
        rw [hsingular] at hplural
        cases hplural
      | singular s' =>
        exact .bind (ih hms' hrest (hp.grows (stored_grows hs'))) fun _ => .of_ok rfl

theorem componentMapper_again (entities : List Entity) : ∀ depth : Nat,
    Again entities (d.componentMapper depth)
  | 0 => by
    refine ⟨fun hc => ?_⟩
    obtain ⟨_, _, hdepth, -⟩ := Definition.componentMapper_ok hc
    cases hdepth
  | depth + 1 => by
    refine ⟨fun {_ _ _ _ role' _ _ c c' _ owner' _ _ r2 _} hc hc' h hp hn => ?_⟩
    obtain ⟨_, e, hdepth, he, -, hms⟩ := Definition.componentMapper_ok hc
    cases hdepth
    obtain ⟨_, e', hdepth, he', -, hms'⟩ := Definition.componentMapper_ok hc'
    cases hdepth
    cases he.symm.trans he'
    obtain ⟨_, ms⟩ := c
    obtain ⟨_, ms'⟩ := c'
    simp only [component, EStateM.bind_eq_ok] at h
    obtain ⟨_, _, hs, -⟩ := h
    unfold component
    have hp' : Prepared entities { owner' with type := .embeddable role' } r2 :=
      ⟨hp.named, hp.tables, hp.known, hp.keyed⟩
    exact .bind (subAttributes_again (Definition.componentMapper_agrees depth)
      (componentMapper_again entities depth) hms hms' hs hp' hn) fun _ => .of_ok rfl

/-- The elements of a collection are built in its table alone. -/
theorem elementType_component {c : ComponentMapping} {role : String} {id : TableId}
    (hp : Prepared entities owner r) (hid : r.database.Has id)
    (hcomponent : ∀ {owner : Owner} {role : String} {r : Registry}, Prepared entities owner r →
      0 < owner.tables.length → (component entities owner role c r).FailsWith P) :
    (elementType entities owner role id (.component c) r).FailsWith P := by
  unfold elementType
  refine .bind (hcomponent ⟨hp.named, ?_, hp.known, hp.keyed⟩ Nat.one_pos) fun _ => .of_ok rfl
  simpa using hid

/-- A collection is built again, if its elements are. -/
theorem plural_again {p : PluralAttribute} (hp : Prepared entities owner' r2) :
    ∀ {c : CollectionMapping}, plural entities owner name c r = .ok p r' →
    (∀ {element : ComponentMapping} {owner : Owner} {role : String} {r : Registry},
      c.element.elementType = .component element → Prepared entities owner r →
      0 < owner.tables.length → (component entities owner role element r).FailsWith P) →
    (plural entities owner' name c r2).FailsWith P
  | ⟨role, shape, expression, keys, keyCodes, ⟨type, columns, formulas, codes⟩, index⟩, h,
      helement => by
    obtain ⟨link, _, _, _, _, id, r1, _, _, _, _, ht, hs, hk, -, he, hi, -, -⟩ := plural_ok h
    have hown : (ownTable expression r2).FailsWith P := by
      cases expression <;> exact .of_ok rfl
    have htype {id : TableId} {r : Registry} (hp : Prepared entities owner' r)
        (hid : r.database.Has id) : (elementType entities owner' role id type r).FailsWith P := by
      cases type with
      | component element => exact elementType_component hp hid (helement rfl)
      | basic t | any t | entity target link =>
        unfold elementType
        exact .of_ok rfl
    unfold plural
    cases expression with
    | none | some expression =>
      refine .bind (x := ownTable _) hown fun {link' r3} ht' => ?_
      have hlink : link'.isSome = link.isSome := by rw [ownTable_isSome ht', ownTable_isSome ht]
      have hids (id : TableId) (heq : link' = some id) : r3.database.Has id := by
        subst heq
        exact ownTable_has hp.named ht'
      have hp3 := hp.grows (ownTable_grows (P := fun _ => True) ht')
      obtain ⟨id', hs', hid⟩ := slotTable_again hs hlink hids hp3.known
      refine .bind (ofExcept_fails (.of_ok hs')) fun hrun => ?_
      obtain ⟨hrun', rfl⟩ := ofExcept_ok hrun
      cases hs'.symm.trans hrun'
      refine .bind (filled_again hk hid) fun hk' => ?_
      have hg4 := keyColumns_grows (P := fun _ => True) hk'
      have hid4 := hid.grows hg4.database
      refine .bind (htype (hp3.grows hg4) hid4) fun hy' => ?_
      have hid5 := hid4.grows (elementType_grows hy').database
      refine .bind (elementColumns_again he hid5) fun he' => ?_
      have hid6 := hid5.grows (elementColumns_grows (P := fun _ => True) he').database
      exact .bind (indexOf_again hi hid6) fun _ => .bind (.of_ok rfl) fun _ => .of_ok rfl

/-- What has been built for one owner is built for any other that is prepared, in whatever table. -/
theorem attributeOf_again {x : Attribute} (hc : Definition.Agrees mapper embeddable)
    (hagain : Again entities mapper) (hm : d.attributeMapping mapper context n a = .ok m)
    (hm' : d.attributeMapping mapper context n' a = .ok m')
    (h : attributeOf entities owner m r = .ok x r')
    (hp : Prepared entities owner' r2) (hn : n' < owner'.tables.length) :
    (attributeOf entities owner' m' r2).FailsWith P := by
  cases x with
  | singular s => exact singular_again hc hagain hm hm' h hp hn
  | plural p =>
    obtain ⟨c, hcollection, hplural⟩ := stored_plural h
    have hmaps := Definition.attributeMapping_collection hm hcollection
    have hx : ∀ x, a ≠ .embedded x := by
      rintro x rfl
      cases hmaps.isPlural
    cases (Definition.attributeMapping_number hx hm n').symm.trans hm'
    obtain ⟨table, ht, -⟩ := hp.exists_table hn
    simp only [attributeOf, stored, ht, hcollection]
    refine .bind (plural_again hp hplural fun helement hp' hpos => ?_) fun _ => .of_ok rfl
    obtain ⟨_, hcomponent⟩ := hmaps.component helement
    obtain ⟨_, _, _, _, _, _, _, _, _, _, _, -, -, -, hy, -, -, -, -⟩ := plural_ok hplural
    obtain ⟨-, hbuilt⟩ := elementType_ok hy
    rw [helement] at hbuilt
    exact hagain.run hcomponent hcomponent hbuilt hp' hpos

end

end Build

end EntityQuery
