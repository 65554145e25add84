import EntityQuery.Proofs.Redeclaration
import EntityQuery.Proofs.TableOrder

/-!
# Embeddables as elements of collections

An embeddable can be embedded in an entity, or be the element of a collection of that entity.
`elements_of_embedded` compares the two: in place of an embedded attribute of a definition that can
be built, the entity has a bag of the embeddable (`Definition.withElements`).

If the embeddable has no formulas, the definition can still be built, and the elements of the bag
are stored in the same slots as the attribute was, on the table of the collection. A formula is
lost where the slots of the elements are listed: its slot then has neither a column nor a formula,
and the definition cannot be built. The error gives the number of the first such slot.
-/

set_option autoImplicit false

namespace EntityQuery

/-! ## Slots without formulas -/

/-- Slots without formulas are described by their columns. -/
theorem describes_plain {slots : List Column}
    (h : ∀ slot ∈ slots, slot.expression.formula? = none) :
    Describes (slots.map (·.expression.column?)) none (slots.map (·.sqlCode)) slots := by
  refine ⟨rfl, ?_, rfl⟩
  rw [Option.getD_none, List.map_map]
  exact List.map_congr_left fun slot hslot => (h slot hslot).symm

/-- Columns alone describe no formula. -/
theorem Describes.plain {slots slots' : List Column} {codes : List SqlCode}
    (hd : Describes (slots.map (·.expression.column?)) none codes slots') :
    ∀ slot ∈ slots, slot.expression.formula? = none := by
  intro slot hslot
  have hmem := List.mem_map_of_mem (f := fun s : Column => s.expression.column?) hslot
  rw [hd.named] at hmem
  obtain ⟨⟨e', code'⟩, hslot', heq⟩ := List.mem_map.1 hmem
  have hnone := List.mem_map_of_mem (f := fun s : Column => s.expression.formula?) hslot'
  rw [← hd.computed, Option.getD_none] at hnone
  obtain ⟨_, -, hnone⟩ := List.mem_map.1 hnone
  obtain ⟨e, code⟩ := slot
  cases e with
  | column name => rfl
  | formula text =>
    -- the slot would have neither a column nor a formula
    cases e' with
    | column name => cases heq
    | formula text' => cases hnone

namespace Database

variable {role : String} {id : TableId} {code : SqlCode}

theorem fillSlots_empty (rest : List (Option String × Option String × SqlCode)) :
    ∀ {plain : List Column} {n : Nat} {db : Database},
      (∀ slot ∈ plain, slot.expression.formula? = none) → db.Has id →
      (fillSlots role id n (plain.map (fun c => (c.expression.column?, none, c.sqlCode)) ++
        (none, none, code) :: rest) db).FailsWith
          (· = .malformed role (.emptySlot (n + plain.length)))
  | [], n, db, _, _ => by
    rw [List.map_nil, List.nil_append, fillSlots]
    refine .bind (.of_error rfl) fun hfill => ?_
    cases hfill
  | slot :: plain, n, db, hplain, h => by
    obtain ⟨hslot, hplain⟩ := List.forall_mem_cons.1 hplain
    obtain ⟨place, db', hfill, hg⟩ := fillSlot_of role h n slot
    rw [hslot] at hfill
    rw [List.map_cons, List.cons_append, fillSlots]
    refine .bind (.of_ok hfill) fun hrun => ?_
    cases hfill.symm.trans hrun
    have hrest := fillSlots_empty rest (n := n + 1) hplain (h.grows hg)
    rw [Nat.add_right_comm, Nat.add_assoc, ← List.length_cons] at hrest
    exact .bind hrest fun _ => .of_ok rfl

/-- The first formula is missed. -/
theorem values_formula {slots plain rest : List Column} {text : String} {db : Database}
    (hslots : slots = plain ++ ⟨.formula text, code⟩ :: rest)
    (hplain : ∀ slot ∈ plain, slot.expression.formula? = none) (h : db.Has id) :
    (values role id (slots.map (·.expression.column?)) none (slots.map (·.sqlCode)) db).FailsWith
      (· = .malformed role (.emptySlot plain.length)) := by
  have hrow : slotRow (slots.map (·.expression.column?)) none (slots.map (·.sqlCode)) =
      slots.map fun c => (c.expression.column?, none, c.sqlCode) := by
    rw [slotRow, Option.getD_none, List.map_map, List.zip_map', List.zip_map']
    rfl
  have hfault :
      rowFault? (slots.map (·.expression.column?)) none (slots.map (·.sqlCode)) = none := by
    simp [rowFault?]
  unfold values
  refine .bind (.of_ok rfl) fun hget => ?_
  obtain ⟨rfl, rfl⟩ := EStateM.get_eq_ok.1 hget
  refine .pass ?_ ?_
  · obtain ⟨table, ht⟩ := h
    simp [ht]
  · rw [hfault, hrow, hslots, List.map_append, List.map_cons]
    refine (fillSlots_empty _ hplain h).mono fun e he => ?_
    rw [he, Nat.zero_add]

end Database

/-! ## Elements -/

namespace Build

variable {P : MetamodelError → Prop} {entities : List Entity} {owner : Owner} {r : Registry}
  {name role table : String}

/-- The build of a bag of components, apart from the columns of its elements. -/
theorem plural_of_component {keys : List String} {keyCodes codes : List SqlCode}
    {columns : List (Option String)} {c : ComponentMapping} (hp : Prepared entities owner r)
    (hkeys : keys.length = keyCodes.length) (hkeyed : keys ≠ []) (hcolumns : columns ≠ [])
    (hcomponent : ∀ {owner : Owner} {role : String} {r : Registry}, Prepared entities owner r →
      0 < owner.tables.length → (component entities owner role c r).FailsWith P)
    (hvalues : ∀ {id : TableId} {db : Database}, db.Has id →
      (Database.values role id columns none codes db).FailsWith P) :
    (plural entities owner name ⟨role, .bag, some table, keys, keyCodes,
      ⟨.component c, columns, none, codes⟩, none⟩ r).FailsWith P := by
  unfold plural
  refine .bind (x := ownTable (some table)) (.of_ok rfl) fun {link r1} ht => ?_
  have hp1 := hp.grows (ownTable_grows (P := fun _ => True) ht)
  obtain ⟨id, rfl, hshows⟩ := ownTable_shows hp.named ht
  refine .bind (.of_ok rfl) fun hs => ?_
  obtain ⟨hs, rfl⟩ := ofExcept_ok hs
  cases hs
  refine .bind (filled_fails
    (database_fails (Database.values_of (describes_columns hkeys) hshows.has)) ?_) fun hk => ?_
  · intro ids _ hv
    rw [← List.length_pos_iff, values_length hv, List.length_map, List.length_pos_iff]
    exact hkeyed
  have hp2 := hp1.grows (keyColumns_grows (P := fun _ => True) hk)
  have hid2 := hshows.has.grows (keyColumns_grows (P := fun _ => True) hk).database
  refine .bind (elementType_component hp2 hid2 hcomponent) fun hy => ?_
  have hid3 := hid2.grows (elementType_grows hy).database
  refine .bind ?_ fun _ => .bind (.of_ok rfl) fun _ => .bind (.of_ok rfl) fun _ => .of_ok rfl
  refine .bind (database_fails (hvalues hid3)) fun {ids _} hv => .pass ?_ (.of_ok rfl)
  cases ids with
  | nil => exact absurd (List.length_eq_zero_iff.1 (values_length hv).symm) hcolumns
  | cons id ids => simp

end Build

/-! ## Definitions -/

/-- The bag of the embeddable that an attribute embeds, under the name of the attribute. -/
def EmbeddedDefinition.elements (x : EmbeddedDefinition) (table : String) (keys : List String) :
    AttributeDefinition :=
  .elementCollection ⟨x.name, table, keys, .embeddable x.embeddable, .bag, none⟩

/-- An embedded attribute of one entity becomes a bag; every other attribute stays what it is. -/
def elementsFor (entity : String) (x : EmbeddedDefinition) (table : String) (keys : List String) :
    String → AttributeDefinition → AttributeDefinition :=
  fun owner a => if owner = entity ∧ a = .embedded x then x.elements table keys else a

namespace Definition

/-- The definition in which an entity has a bag of an embeddable in place of an embedded
attribute. -/
def withElements (d : Definition) (D : EntityDefinition) (x : EmbeddedDefinition) (table : String)
    (keys : List String) : Definition :=
  d.redeclared (elementsFor D.name x table keys)

variable {d : Definition} {m m' : Metamodel} {e D : EntityDefinition} {x : EmbeddedDefinition}
  {table : String} {keys : List String} {slots : List Column} {codes : List SqlCode}

theorem elementsFor_keepsNames : KeepsNames (elementsFor D.name x table keys) := by
  intro owner a
  unfold elementsFor
  split
  · rename_i h
    rw [h.2]
    rfl
  · rfl

/-- A component describes the slots that are declared. -/
theorem component_slots {context : String} {n : Nat} {c : ComponentMapping}
    (hslots : d.slots (.embedded x) = some slots)
    (h : d.component context x.embeddable n = .ok c) : ComponentDescribes c slots := by
  obtain ⟨slots', hslots', hdescribes⟩ := componentMapper_agrees _ _ _ _ _ h
  cases hslots.symm.trans hslots'
  exact hdescribes

/-- The first table of an entity is among those of every line it is in. -/
theorem primary_mem_tableOrder (hv : d.Valid) (he : e ∈ d.entities) (hline : d.InLine e D)
    {order tables : List String} (ho : d.tableOrder e = .ok order)
    (ht : d.ownTables D = .ok tables) :
    ∃ primary secondary, tables = primary :: secondary ∧ primary ∈ order := by
  simp only [tableOrder, Except.bind_eq_ok, Except.pure_eq_ok] at ho
  obtain ⟨members, hl, own, hown, rfl⟩ := ho
  obtain ⟨tables', hmem, ht'⟩ :=
    (Except.mapM_ok hown).exists_right ((mem_line_iff hv he hl).2 hline)
  cases ht.symm.trans ht'
  simp only [ownTables, Except.bind_eq_ok, Except.pure_eq_ok] at ht
  obtain ⟨_, -, primary, -, rfl⟩ := ht
  refine ⟨primary, D.secondaryTables, rfl, ?_⟩
  rw [firstsAfter_eq, List.filter_eq_self.2 (by simp), List.mem_eraseDups]
  exact List.mem_flatten_of_mem hmem List.mem_cons_self

/-- The bag can be mapped wherever the embedded attribute is. -/
theorem elementsFor_remaps (hv : d.Valid)
    (hcodes : d.identifierCodes d.component D.name = .ok codes)
    (hkeys : codes.length = keys.length) : d.Remaps (elementsFor D.name x table keys) := by
  intro e he owner hline order tables ho ht a ha am ham
  unfold elementsFor
  split
  · rename_i hreplaced
    obtain ⟨hname, rfl⟩ := hreplaced
    obtain ⟨_, n, -, -, hm⟩ := inheritedMapping_ok ht ham
    obtain ⟨c, hc, -⟩ := Except.bind_eq_ok.1 hm
    obtain ⟨c', hc'⟩ := componentMapper_number hc 0
    obtain ⟨primary, secondary, rfl, hprimary⟩ := primary_mem_tableOrder hv he hline ho ht
    obtain ⟨number, hnumber⟩ : ∃ number, order.idxOf? primary = some number :=
      Option.isSome_iff_exists.1 (List.isSome_idxOf?.2 hprimary)
    have hkeyCodes :
        d.keyCodes d.component owner.name keys s!"{owner.name}.{x.name}" = .ok codes := by
      rw [hname]
      exact Except.bind_eq_ok.2 ⟨codes, hcodes, Except.guard_eq_ok.2 ⟨not_not.2 hkeys, rfl⟩⟩
    obtain ⟨am', ham'⟩ : ∃ am',
        d.attributeMapping d.component owner.name number (x.elements table keys) = .ok am' :=
      ⟨_, Except.bind_eq_ok.2 ⟨_, Except.bind_eq_ok.2 ⟨c', hc', rfl⟩,
        Except.bind_eq_ok.2 ⟨codes, hkeyCodes, rfl⟩⟩⟩
    refine ⟨am', Except.bind_eq_ok.2 ⟨primary, rfl, ?_⟩⟩
    simpa only [hnumber] using ham'
  · exact ⟨am, ham⟩

/-- The bag can be built wherever the embedded attribute has been, apart from the columns of its
elements. -/
theorem elementsFor_rebuilds {P : MetamodelError → Prop}
    (hslots : d.slots (.embedded x) = some slots) (hne : slots ≠ []) (hkeyed : keys ≠ [])
    (hvalues : ∀ {id : TableId} {db : Database}, db.Has id →
      (Database.values s!"{D.name}.{x.name}" id (slots.map (·.expression.column?)) none
        (slots.map (·.sqlCode)) db).FailsWith P) :
    Build.Rebuilds d (elementsFor D.name x table keys) P := by
  refine ⟨fun {entities owner am am' b r r' r2} hreplaces h hp => ?_⟩
  obtain ⟨D', n, n', a, -, -, hm, hm', hn'⟩ := hreplaces.mapped
  have hagain := Build.componentMapper_again (d := d) entities d.embeddables.length
  unfold elementsFor at hm'
  split at hm'
  · rename_i hreplaced
    obtain ⟨hname, rfl⟩ := hreplaced
    rw [hname] at hm hm'
    simp only [attributeMapping, embeddedMapping, Except.bind_eq_ok, Except.pure_eq_ok] at hm
    obtain ⟨c, hc, rfl⟩ := hm
    simp only [attributeMapping, EmbeddedDefinition.elements, elementCollectionMapping,
      elementMapping, Except.bind_eq_ok, Except.pure_eq_ok] at hm'
    obtain ⟨_, ⟨c', hc', rfl⟩, codes, hcodes, index, hindex, rfl⟩ := hm'
    cases hindex
    obtain ⟨_, -, _, _, -, hbuilt, -⟩ := Build.stored_ok h
    have hrow := (component_slots hslots hc').row
    obtain ⟨id, hid, -⟩ := hp.exists_table hn'
    rw [hrow.named, hrow.typed]
    simp only [Build.attributeOf, collectionMapping, Build.stored, hid]
    refine .bind (Build.plural_of_component hp (keyCodes_ok hcodes).2.symm hkeyed
      (by simpa using hne) (fun hp' hpos => hagain.run hc hc' hbuilt hp' hpos) hvalues)
      fun _ => .of_ok rfl
  · exact Build.attributeOf_again (componentMapper_agrees _) hagain hm hm' h hp hn'

/-- With the bag, the definition fails only where the columns of the elements are missed. -/
theorem withElements_fails {P : MetamodelError → Prop} {E : Entity} (table : String)
    (h : d.metamodel = .ok m) (hE : m.entity D.name = .ok E)
    (hkeys : keys.length = E.identifier.columns.length)
    (hslots : d.slots (.embedded x) = some slots) (hne : slots ≠ [])
    (hvalues : ∀ {id : TableId} {db : Database}, db.Has id →
      (Database.values s!"{D.name}.{x.name}" id (slots.map (·.expression.column?)) none
        (slots.map (·.sqlCode)) db).FailsWith P) :
    (d.withElements D x table keys).metamodel.FailsWith P := by
  obtain ⟨ems, ps, bare, r, r1, r2, hb⟩ := builds h
  obtain ⟨codes, hcodes, hlength⟩ := hb.identifier_codes hE
  have hkeyed : keys ≠ [] := by
    rintro rfl
    exact (hb.identifier_isKey hE).columns (List.length_eq_zero_iff.1 hkeys.symm)
  exact metamodel_redeclared h elementsFor_keepsNames
    (elementsFor_remaps hb.valid hcodes (hlength.symm.trans hkeys.symm))
    (elementsFor_rebuilds hslots hne hkeyed hvalues)

/-- An embedded attribute of a line is found by its name, and has the slots that it declares. -/
theorem find_embedded (h : d.metamodel = .ok m) (he : e ∈ d.entities) (hline : d.InLine e D)
    (hx : .embedded x ∈ D.attributes) (hslots : d.slots (.embedded x) = some slots) :
    ∃ s, m.find (.entity e.name) x.name = .ok (.singular s) ∧ s.kind = .embedded ∧
      m.HasColumns s.columns slots := by
  obtain ⟨ems, ps, bare, r, r1, r2, hb⟩ := builds h
  obtain ⟨em, p, E, hmap, -, hof, hbuilt, hE⟩ := hb.entity he
  obtain ⟨am, ham, hin⟩ := exists_inherits hb.valid he hmap hline hx
  obtain ⟨found, hfind, _, _, hstored, hgrows⟩ := find_declared hb.valid he hmap hof hbuilt hin ham
  obtain ⟨_, _, n, -, -, -, hmapping⟩ := hin.mapped
  simp only [attributeMapping, embeddedMapping, Except.bind_eq_ok, Except.pure_eq_ok] at hmapping
  obtain ⟨c, hc, rfl⟩ := hmapping
  obtain ⟨_, -, ids, _, hv, hcomponent, rfl⟩ := Build.stored_ok hstored
  obtain ⟨db, hvalues, rfl⟩ := Build.database_ok hv
  have hg := (Build.component_grows hcomponent).database.trans hgrows
  have hholds := Database.values_hold (component_slots hslots hc).row hvalues
  exact ⟨_, Metamodel.find_entity hE hfind, rfl,
    Metamodel.hasColumns_of_holds (hholds.imp fun _ _ hh => hh.grows hg)⟩

/-- A collection that a line declares is found by its name, and is what its mapping describes. -/
theorem Builds.declared_collection {ems : List EntityMapping} {ps : List PendingEntity}
    {bare : List Entity} {r r1 r2 : Registry} (hb : d.Builds m ems ps bare r r1 r2)
    (he : e ∈ d.entities) (hline : d.InLine e D) {a : AttributeDefinition} (ha : a ∈ D.attributes)
    (hplural : a.isPlural = true) :
    ∃ p c, m.find (.entity e.name) a.name = .ok (.plural p) ∧ d.Collects D a c ∧
      Build.CollectionOf m.database c p := by
  obtain ⟨p, hf, -⟩ := hb.find_declared_plural he hline ha hplural
  obtain ⟨E, hE, hmem, hname⟩ := Metamodel.find_plural hf
  obtain ⟨-, -, -, -, -, -, -, -, -, hEm⟩ := hb.entity_of hE
  obtain ⟨e', D', a', am, c, he', hename, hin, hc, hof, hpname⟩ := hb.collectionOf hEm hmem
  cases hb.valid.eq_of_name he' he (by rw [hename, Metamodel.entity_name hE])
  obtain ⟨rfl, rfl⟩ := declared_unique hb.valid he hin.line hline hin.declared ha
    (hpname.symm.trans hname)
  exact ⟨p, c, hf, hin.collects he hc, hof⟩

theorem InLine.redeclared {f : String → AttributeDefinition → AttributeDefinition} (hv : d.Valid)
    (hv' : (d.redeclared f).Valid) (he : e ∈ d.entities) (h : d.InLine e D) :
    (d.redeclared f).InLine (e.redeclared f) (D.redeclared f) := by
  obtain ⟨above, habove⟩ := hv.ancestors he
  have hl := line_of_ancestors habove
  have hl' := line_redeclared (f := f) e (d := d)
  rw [hl] at hl'
  refine (mem_line_iff hv' (List.mem_map_of_mem he) hl').1 ?_
  exact List.mem_map_of_mem ((mem_line_iff hv he hl).2 h)

/-- The elements of the bag have the slots that the embeddable declares, none of which is a
formula. -/
theorem find_elements (hv : d.Valid) (h : (d.withElements D x table keys).metamodel = .ok m')
    (he : e ∈ d.entities) (hline : d.InLine e D) (hx : .embedded x ∈ D.attributes)
    (hslots : d.slots (.embedded x) = some slots) :
    (∀ slot ∈ slots, slot.expression.formula? = none) ∧
      ∃ p, m'.find (.entity e.name) x.name = .ok (.plural p) ∧ p.element.kind = .embeddable ∧
        m'.HasColumns p.element.columns slots := by
  obtain ⟨ems, ps, bare, r, r1, r2, hb⟩ := builds h
  have hx' :
      x.elements table keys ∈ (D.redeclared (elementsFor D.name x table keys)).attributes := by
    refine List.mem_map.2 ⟨_, hx, ?_⟩
    rw [elementsFor, if_pos ⟨rfl, rfl⟩]
  obtain ⟨p, c, hf, hcollects, hof⟩ := hb.declared_collection (List.mem_map_of_mem he)
    (hline.redeclared hv hb.valid he) hx' rfl
  obtain ⟨-, helement⟩ := hcollects.mapped
  simp only [elementMapping, Except.bind_eq_ok, Except.pure_eq_ok] at helement
  obtain ⟨element, hcomponent, helement⟩ := helement
  rw [withElements, component_redeclared] at hcomponent
  have hrow := (component_slots hslots hcomponent).row
  have hkind : p.element.kind = .embeddable := by
    rw [hof.kind, ← helement]
    rfl
  obtain ⟨id, slots', -, hd, hholds⟩ := hof.slots (by rw [hkind]; decide)
  rw [← helement] at hd
  simp only [hrow.named, hrow.typed] at hd
  have hplain := hd.plain
  cases (describes_plain hplain).unique hd
  exact ⟨hplain, p, hf, hkind, Metamodel.hasColumns_of_holds hholds⟩

end Definition

/-- An embeddable has the same slots as the element of a collection as where it is embedded, unless
one of them is a formula: then the definition cannot be built with the collection. -/
theorem elements_of_embedded {d : Definition} {m : Metamodel} {D : EntityDefinition}
    {x : EmbeddedDefinition} {E : Entity} {slots : List Column} (table : String)
    (keys : List String) (h : d.metamodel = .ok m) (hD : D ∈ d.entities)
    (hx : .embedded x ∈ D.attributes) (hE : m.entity D.name = .ok E)
    (hkeys : keys.length = E.identifier.columns.length)
    (hslots : d.slots (.embedded x) = some slots) (hne : slots ≠ []) :
    ((∀ slot ∈ slots, slot.expression.formula? = none) →
      ∃ m', (d.withElements D x table keys).metamodel = .ok m' ∧
        ∀ e ∈ d.entities, d.InLine e D →
          ∃ s p, m.find (.entity e.name) x.name = .ok (.singular s) ∧ s.kind = .embedded ∧
            m'.find (.entity e.name) x.name = .ok (.plural p) ∧ p.element.kind = .embeddable ∧
            m.HasColumns s.columns slots ∧ m'.HasColumns p.element.columns slots) ∧
    ∀ plain text code rest, slots = plain ++ ⟨.formula text, code⟩ :: rest →
      (∀ slot ∈ plain, slot.expression.formula? = none) →
      (d.withElements D x table keys).metamodel =
        .error (.malformed s!"{D.name}.{x.name}" (.emptySlot plain.length)) := by
  obtain ⟨ems, ps, bare, r, r1, r2, hb⟩ := Definition.builds h
  constructor
  · intro hplain
    obtain ⟨m', hm'⟩ := (Definition.withElements_fails table h hE hkeys hslots hne fun hid =>
      Database.values_of (describes_plain hplain) hid).exists_ok
    refine ⟨m', hm', fun e he hline => ?_⟩
    obtain ⟨s, hs, hkind, hcolumns⟩ := Definition.find_embedded h he hline hx hslots
    obtain ⟨-, p, hp, hpkind, hpcolumns⟩ :=
      Definition.find_elements hb.valid hm' he hline hx hslots
    exact ⟨s, p, hs, hkind, hp, hpkind, hcolumns, hpcolumns⟩
  · intro plain text code rest hsplit hplain
    have hfails := Definition.withElements_fails table h hE hkeys hslots hne fun hid =>
      Database.values_formula hsplit hplain hid
    cases hm' : (d.withElements D x table keys).metamodel with
    | ok m' =>
      have hnone := (Definition.find_elements hb.valid hm' hD (.inl rfl) hx hslots).1
      cases hnone ⟨.formula text, code⟩ (by rw [hsplit]; simp)
    | error e => rw [hfails.error hm']

/-- Items with a size whose area is computed. -/
def measuredItem : EntityDefinition :=
  ⟨"Item", none, some "item", [], none, some ⟨"id", ["id"], some "long", none⟩, none,
    [.embedded ⟨"sizes", "Size", none⟩]⟩

def measured : Definition := ⟨none, [measuredItem], [archiveSize]⟩

/-- The size can be embedded, but it cannot be collected. -/
theorem computed_size_not_collected : ∃ m slots, measured.metamodel = .ok m ∧
    measured.slots (.embedded ⟨"sizes", "Size", none⟩) = some slots ∧ slots ≠ [] ∧
    (measured.withElements measuredItem ⟨"sizes", "Size", none⟩ "item_sizes"
        ["item_id"]).metamodel =
      .error (.malformed "Item.sizes" (.emptySlot 1)) := by
  obtain ⟨m, hm⟩ := Option.isSome_iff_exists.1
    (by decide +kernel : measured.metamodel.toOption.isSome)
  refine ⟨m, [⟨.column "width", SqlCode.integer⟩, ⟨.formula "w * h", SqlCode.integer⟩],
    Except.toOption_eq_some.1 hm, ?_, ?_, ?_⟩
  all_goals decide +kernel

/-- A pallet, and where it was seen. -/
def pallet : EntityDefinition :=
  ⟨"Pallet", none, some "pallet", [], none, some ⟨"id", [], none, none⟩, none,
    [.embedded ⟨"seen", "Sighting", none⟩]⟩

/-- Pallets, some of which are sealed. One is seen in a position, beside another one. -/
def pallets : Definition :=
  ⟨none, [pallet, ⟨"Sealed", some "Pallet", some "sealed", [], none, none, none, []⟩],
   [⟨"Sighting", [.embedded ⟨"at", "Position", none⟩,
      .manyToOne ⟨"beside", "Pallet", none, [], false, none⟩]⟩,
    ⟨"Position", [plainPart "aisle" "string" none, plainPart "bay" "integer" (some "bay_number")]⟩]⟩

/-- The sightings of a pallet can be collected, and a sealed one has their slots too. The size of a
book has a formula. -/
theorem sightings_collected :
    (∃ m m' s p, pallets.metamodel = .ok m ∧
      (pallets.withElements pallet ⟨"seen", "Sighting", none⟩ "sighting" ["pallet_id"]).metamodel =
        .ok m' ∧
      m.find (.entity "Sealed") "seen" = .ok (.singular s) ∧
      m'.find (.entity "Sealed") "seen" = .ok (.plural p) ∧
      m.HasColumns s.columns [⟨.column "aisle", SqlCode.varchar⟩,
        ⟨.column "bay_number", SqlCode.integer⟩, ⟨.column "beside_id", SqlCode.bigint⟩] ∧
      m'.HasColumns p.element.columns [⟨.column "aisle", SqlCode.varchar⟩,
        ⟨.column "bay_number", SqlCode.integer⟩, ⟨.column "beside_id", SqlCode.bigint⟩]) ∧
    (archive.withElements archiveBook ⟨"size", "Size", some "scan"⟩ "book_size"
        ["series", "number"]).metamodel = .error (.malformed "Book.size" (.emptySlot 1)) := by
  constructor
  · have hrun : (pallets.metamodel.toOption.bind fun m => (m.entity "Pallet").toOption.map fun E =>
        decide (E.identifier.columns.length = 1)) = some true := by
      decide +kernel
    obtain ⟨m, hm, hrun⟩ := Option.bind_eq_some_iff.1 hrun
    obtain ⟨E, hE, hrun⟩ := Option.map_eq_some_iff.1 hrun
    obtain ⟨hplain, -⟩ := elements_of_embedded (d := pallets) (D := pallet)
      (x := ⟨"seen", "Sighting", none⟩) "sighting" ["pallet_id"] (Except.toOption_eq_some.1 hm)
      (by decide) (by decide) (Except.toOption_eq_some.1 hE) (of_decide_eq_true hrun).symm
      (by decide +kernel : _ = some [⟨.column "aisle", SqlCode.varchar⟩,
        ⟨.column "bay_number", SqlCode.integer⟩, ⟨.column "beside_id", SqlCode.bigint⟩]) (by decide)
    obtain ⟨m', hm', hfound⟩ := hplain (by decide)
    obtain ⟨s, p, hs, -, hp, -, hcolumns, hcolumns'⟩ :=
      hfound ⟨"Sealed", some "Pallet", some "sealed", [], none, none, none, []⟩ (by decide)
        (.inr (.inl (.single ⟨by decide, rfl⟩)))
    exact ⟨m, m', s, p, Except.toOption_eq_some.1 hm, hm', hs, hp, hcolumns, hcolumns'⟩
  · obtain ⟨E, hE⟩ := Option.isSome_iff_exists.1
      (by decide +kernel : (archived.entity archiveBook.name).toOption.isSome)
    have hkeys : (archived.entity archiveBook.name).toOption.map (·.identifier.columns.length) =
        some 2 := by
      decide +kernel
    rw [hE] at hkeys
    obtain ⟨-, hformula⟩ := elements_of_embedded (x := ⟨"size", "Size", some "scan"⟩) "book_size"
      ["series", "number"] archive_metamodel (D := archiveBook) (by decide) (by decide)
      (Except.toOption_eq_some.1 hE) (Option.some.inj hkeys).symm
      (by decide +kernel : _ = some [⟨.column "width", SqlCode.integer⟩,
        ⟨.formula "w * h", SqlCode.integer⟩]) (by decide)
    exact hformula [⟨.column "width", SqlCode.integer⟩] "w * h" SqlCode.integer [] rfl (by decide)

end EntityQuery
