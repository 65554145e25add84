import EntityQuery.Proofs.Embeddables

/-!
# Where embeddables and collections come from

Every embeddable that a build keeps has been built for some attribute: for an embedded attribute,
for the elements of a collection, or for a composite identifier, and then for the attribute itself
or for one nested in it (`Nests`). `component_adds` says so of the build of one embeddable, and
`attributes_origin`, `identified_origin` and `completed_origin` of the build of all entities. Every
collection that is kept is an attribute of some entity (`Gathers`).

`Definition.Builds.origin` and `Definition.Builds.collection` put the parts together.
-/

set_option autoImplicit false

namespace EntityQuery

namespace Build

variable {entities : List Entity} {owner : Owner} {r r1 r' : Registry}

/-! ## Embeddables within embeddables -/

/-- The components that are built along with a component, each under its role: the component itself,
and those nested in its attributes. -/
inductive Nests : String → ComponentMapping → String → ComponentMapping → Prop
  | self (role : String) (c : ComponentMapping) : Nests role c role c
  | nested {role role' : String} {c c' c'' : ComponentMapping} {m : AttributeMapping}
      (mem : m ∈ c.attributes) (mapped : m.mappedType = .component c')
      (inner : Nests (role ++ "." ++ m.name) c' role' c'') : Nests role c role' c''

theorem Nests.under {role role' : String} {c c' : ComponentMapping} (h : Nests role c role' c') :
    Under role role' := by
  induction h with
  | self => exact .inl rfl
  | nested _ _ _ ih => exact .inr ih.of_child

/-- A build grows by embeddables of the given components only, and leaves collections alone. -/
structure Adds (entities : List Entity) (owner : Owner) (N : String → ComponentMapping → Prop)
    (r r' : Registry) : Prop where
  grows : r.Grows (fun _ => True) r'
  collections : r'.collections = r.collections
  embeddables : ∀ role e, r'.embeddables.lookup role = some e →
    r.embeddables.lookup role = some e ∨ ∃ c, N role c ∧ Kept r' entities owner role c

variable {N N' : String → ComponentMapping → Prop}

theorem Adds.refl (r : Registry) : Adds entities owner N r r := ⟨.refl r, rfl, fun _ _ h => .inl h⟩

theorem Adds.trans (h : Adds entities owner N r r1) (h' : Adds entities owner N r1 r') :
    Adds entities owner N r r' := by
  refine ⟨h.grows.trans h'.grows, h'.collections.trans h.collections, fun role e he => ?_⟩
  rcases h'.embeddables role e he with he | hnew
  · rcases h.embeddables role e he with he | ⟨c, hc, hkept⟩
    · exact .inl he
    · exact .inr ⟨c, hc, hkept.grows h'.grows⟩
  · exact .inr hnew

theorem Adds.mono (h : Adds entities owner N r r') (hN : ∀ role c, N role c → N' role c) :
    Adds entities owner N' r r' := by
  refine ⟨h.grows, h.collections, fun role e he => ?_⟩
  rcases h.embeddables role e he with he | ⟨c, hc, hkept⟩
  · exact .inl he
  · exact .inr ⟨c, hN role c hc, hkept⟩

/-- What is added depends on the tables and the identifier of the owner only. -/
theorem Adds.of_type {type : ManagedType} (h : Adds entities { owner with type } N r r') :
    Adds entities owner N r r' :=
  ⟨h.grows, h.collections, h.embeddables⟩

theorem values_adds {role : String} {table : TableId} {columns : List (Option String)}
    {formulas : Option (List (Option String))} {codes : List SqlCode} {ids : List ColumnId}
    (h : database (Database.values role table columns formulas codes) r = .ok ids r') :
    Adds entities owner N r r' := by
  have hg : r.Grows (fun _ => True) r' := values_grows h
  obtain ⟨db, -, rfl⟩ := database_ok h
  exact ⟨hg, rfl, fun _ _ he => .inl he⟩

mutual
theorem stored_adds {entities : List Entity} : ∀ {mapped : MappedType} {owner : Owner}
    {name : String} {n : Nat} {columns : List (Option String)}
    {formulas : Option (List (Option String))} {codes : List SqlCode} {r r' : Registry}
    {s : SingularAttribute},
    stored entities owner name n columns formulas codes mapped r = .ok (.singular s) r' →
    Adds entities owner (fun role c => ∃ c', mapped = .component c' ∧
      Nests (owner.roleOf name) c' role c) r r'
  | .basic _, _, _, _, _, _, _, _, _, _, h => by
    obtain ⟨_, -, _, hv, -⟩ := stored_ok h
    exact values_adds hv
  | .component c, _, _, _, _, _, _, _, _, _, h => by
    obtain ⟨_, -, _, _, hv, hc, -⟩ := stored_ok h
    refine (values_adds hv).trans ((component_adds hc).mono ?_)
    exact fun role c' hn => ⟨c, rfl, hn⟩
  | .any _, _, _, _, _, _, _, _, _, _, h => by
    obtain ⟨_, -, _, hv, -⟩ := stored_ok h
    exact values_adds hv
  | .association _ _, _, _, _, _, _, _, _, _, _, h => by
    obtain ⟨_, -, _, _, -, hv, -⟩ := stored_ok h
    obtain ⟨-, -, -, -, rfl⟩ | ⟨-, -, hv⟩ := associationColumns_ok hv
    · exact .refl _
    · exact values_adds hv
  | .collection _, _, _, _, _, _, _, _, _, _, h => by
    obtain ⟨_, -, _, -, heq⟩ := stored_ok h
    cases heq
theorem component_adds {entities : List Entity} : ∀ {c : ComponentMappingOf MappedType}
    {owner : Owner} {role : String} {r r' : Registry} {u : Unit},
    component entities owner role c r = .ok u r' → Adds entities owner (Nests role c) r r'
  | ⟨name, ms⟩, owner, role, r, r', _, h => by
    simp only [component, EStateM.bind_eq_ok] at h
    obtain ⟨subs, r1, hs, hk⟩ := h
    have hadds : Adds entities owner (Nests role ⟨name, ms⟩) r r1 := by
      refine (subAttributes_adds hs).of_type.mono ?_
      rintro role' c ⟨m, hm, c', hc', hn⟩
      exact .nested hm hc' hn
    have hgrows := (keepEmbeddable_grows hk).mono fun _ _ => trivial
    refine hadds.trans ⟨hgrows, ?_, fun role' e he => ?_⟩
    · have hk := EStateM.modify_eq_ok.1 hk
      rw [← hk]
    · have hkept := EStateM.modify_eq_ok.1 hk
      rw [← hkept] at he
      rcases lookup_keepFirst_cases he with hold | ⟨rfl, hnew, -⟩
      · exact .inl hold
      · exact .inr ⟨⟨name, ms⟩, .self _ _, subs, r, r1, hs, hgrows.database,
          keepEmbeddable_new hk hnew⟩
theorem subAttributes_adds {entities : List Entity} :
    ∀ {ms : List (AttributeMappingOf MappedType)} {owner : Owner} {r r' : Registry}
    {as : List Attribute}, subAttributes entities owner ms r = .ok as r' →
    Adds entities owner (fun role c => ∃ m ∈ ms, ∃ c', m.mappedType = .component c' ∧
      Nests (owner.roleOf m.name) c' role c) r r'
  | [], _, _, _, _, h => by
    simp only [subAttributes, EStateM.pure_eq_ok] at h
    obtain ⟨-, rfl⟩ := h
    exact .refl _
  | ⟨name, _, _, _, _, mapped⟩ :: ms, _, _, _, _, h => by
    simp only [subAttributes, EStateM.bind_eq_ok] at h
    obtain ⟨found, _, hs, h⟩ := h
    cases found with
    | plural p => exact absurd h EStateM.throw_ne_ok
    | singular s =>
      simp only [EStateM.bind_eq_ok, EStateM.pure_eq_ok] at h
      obtain ⟨_, _, hrest, -, rfl⟩ := h
      refine ((stored_adds hs).mono ?_).trans ((subAttributes_adds hrest).mono ?_)
      · rintro role c ⟨c', hc', hn⟩
        exact ⟨_, List.mem_cons_self, c', hc', hn⟩
      · rintro role c ⟨m, hm, hc⟩
        exact ⟨m, List.mem_cons_of_mem _ hm, hc⟩
end

/-! ## Slots of embeddables -/

/-- The attributes of an embeddable are singular, each built from its mapping. -/
theorem subAttributes_ok : ∀ {ms : List AttributeMapping} {owner : Owner} {r r' : Registry}
    {as : List Attribute}, subAttributes entities owner ms r = .ok as r' →
    List.Forall₂ (fun (m : AttributeMapping) a => ∃ s r0 r1, a = .singular s ∧
      attributeOf entities owner m r0 = .ok (.singular s) r1 ∧ r1.database.Grows r'.database) ms as
  | [], _, _, _, _, h => by
    simp only [subAttributes, EStateM.pure_eq_ok] at h
    obtain ⟨rfl, -⟩ := h
    exact .nil
  | ⟨name, _, _, _, _, mapped⟩ :: ms, _, r, _, _, h => by
    simp only [subAttributes, EStateM.bind_eq_ok] at h
    obtain ⟨found, r1, hs, h⟩ := h
    cases found with
    | plural p => exact absurd h EStateM.throw_ne_ok
    | singular s =>
      simp only [EStateM.bind_eq_ok, EStateM.pure_eq_ok] at h
      obtain ⟨_, _, hrest, rfl, rfl⟩ := h
      exact .cons ⟨s, r, r1, rfl, hs, (subAttributes_grows hrest).database⟩ (subAttributes_ok hrest)

/-- An attribute of its own slots is stored in those that its mapping describes, and one without
shares the key of the owner, on the first table. -/
theorem attributeOf_stores {m : AttributeMapping} {s : SingularAttribute}
    (h : attributeOf entities owner m r = .ok (.singular s) r') :
    (m.mappedType.ownsSlots = true ∧ ∃ slots, Describes m.columns m.formulas m.sqlCodes slots ∧
      Stores r'.database owner.tables m.tableNumber slots s) ∨
    (s.kind = .oneToOne ∧ s.columns = owner.identifierColumns ∧ s.tablePosition = 0) := by
  have described {role : String} {table : TableId} {ids : List ColumnId} {r1 : Registry}
      (hv : database (Database.values role table m.columns m.formulas m.sqlCodes) r = .ok ids r1) :
      ∃ slots, Describes m.columns m.formulas m.sqlCodes slots := by
    obtain ⟨_, hvalues, -⟩ := database_ok hv
    exact Database.values_describes hvalues
  have own {slots : List Column} (ho : m.mappedType.ownsSlots = true)
      (hd : Describes m.columns m.formulas m.sqlCodes slots) :
      Stores r'.database owner.tables m.tableNumber slots s := by
    obtain ⟨_, heq, -, hstores⟩ := stored_stores hd ho h
    cases heq
    exact hstores
  unfold attributeOf at h
  cases hm : m.mappedType with
  | basic t | any t =>
    rw [hm] at h own
    obtain ⟨_, -, _, hv, -⟩ := stored_ok h
    obtain ⟨slots, hd⟩ := described hv
    exact .inl ⟨rfl, slots, hd, own rfl hd⟩
  | component c =>
    rw [hm] at h own
    obtain ⟨_, -, _, _, hv, -, -⟩ := stored_ok h
    obtain ⟨slots, hd⟩ := described hv
    exact .inl ⟨rfl, slots, hd, own rfl hd⟩
  | association target kind =>
    rw [hm] at h own
    obtain ⟨_, -, ids, position, -, hv, heq⟩ := stored_ok h
    obtain ⟨rfl, -, rfl, rfl, -⟩ | ⟨hk, -, hvalues⟩ := associationColumns_ok hv
    · cases heq
      exact .inr ⟨rfl, rfl, rfl⟩
    · obtain ⟨slots, hd⟩ := described hvalues
      have ho : (MappedType.association target kind).ownsSlots = true := by
        cases kind with
        | primaryKeyOneToOne => exact absurd rfl hk
        | manyToOne | uniqueKeyOneToOne => rfl
      exact .inl ⟨ho, slots, hd, own ho hd⟩
  | collection c =>
    rw [hm] at h
    obtain ⟨_, -, _, -, heq⟩ := stored_ok h
    cases heq

/-- The slots of a component: those of its attributes, and of the components nested in them. -/
inductive HasSlot : ComponentMapping → Column → Prop
  | own {c : ComponentMapping} {m : AttributeMapping} {slots : List Column} {slot : Column}
      (mem : m ∈ c.attributes) (owns : m.mappedType.ownsSlots = true)
      (described : Describes m.columns m.formulas m.sqlCodes slots) (inRow : slot ∈ slots) :
      HasSlot c slot
  | nested {c c' : ComponentMapping} {m : AttributeMapping} {slot : Column}
      (mem : m ∈ c.attributes) (mapped : m.mappedType = .component c') (inner : HasSlot c' slot) :
      HasSlot c slot

theorem Nests.hasSlot {role role' : String} {c c' : ComponentMapping} (h : Nests role c role' c')
    {slot : Column} (hs : HasSlot c' slot) : HasSlot c slot := by
  induction h with
  | self => exact hs
  | nested mem mapped _ ih => exact .nested mem mapped (ih hs)

theorem component_attribute {role : String} {m : AttributeMapping} {u : Unit} :
    ∀ {c : ComponentMapping}, component entities owner role c r = .ok u r' → m ∈ c.attributes →
    ∃ s r0 r1, attributeOf entities { owner with type := .embeddable role } m r0 =
      .ok (.singular s) r1 ∧ r1.database.Grows r'.database
  | ⟨_, _⟩, h, hm => by
    simp only [component, EStateM.bind_eq_ok] at h
    obtain ⟨subs, r1, hsubs, hk⟩ := h
    obtain ⟨_, -, s, r2, r3, -, hstored, hg⟩ := (subAttributes_ok hsubs).exists_right hm
    exact ⟨s, r2, r3, hstored, hg.trans (keepEmbeddable_grows hk).database⟩

/-- The build of a component puts all its slots on the tables of the owner. -/
theorem component_holds {c : ComponentMapping} {slot : Column} (hs : HasSlot c slot) :
    ∀ {owner : Owner} {role : String} {r r' : Registry} {u : Unit},
      component entities owner role c r = .ok u r' →
      ∃ table ∈ owner.tables, ∃ place, r'.database.Holds table slot place := by
  induction hs with
  | own mem owns described inRow =>
    intro owner role r r' u h
    obtain ⟨s, r0, r1, hstored, hg⟩ := component_attribute h mem
    obtain ⟨_, -, -, hstores⟩ := stored_stores described owns hstored
    obtain ⟨table, ht, hholds⟩ := hstores.columns
    obtain ⟨place, -, hplace⟩ := hholds.exists_right inRow
    exact ⟨table, List.mem_of_getElem? ht, place, hplace.grows hg⟩
  | nested mem mapped _ ih =>
    intro owner role r r' u h
    obtain ⟨s, r0, r1, hstored, hg⟩ := component_attribute h mem
    unfold attributeOf at hstored
    rw [mapped] at hstored
    obtain ⟨_, -, _, _, -, hc, -⟩ := stored_ok hstored
    obtain ⟨table, ht, place, hplace⟩ := ih hc
    exact ⟨table, ht, place, hplace.grows hg⟩

/-! ## Collections -/

/-- The type of the elements of a collection in the given role. -/
def elementDomain (role : String) : ElementType → DomainType
  | .basic t => .basic t
  | .component _ => .embeddable (elementRole role)
  | .any t => .any t
  | .entity target _ => .entity target

theorem elementType_ok {role : String} {table : TableId} : ∀ {type : ElementType} {t : DomainType},
    elementType entities owner role table type r = .ok t r' →
    t = elementDomain role type ∧
      match type with
      | .component c =>
        component entities { owner with tables := [table] } (elementRole role) c r = .ok () r'
      | _ => r' = r
  | .basic _, _, h | .any _, _, h | .entity _ _, _, h => by
    simp only [elementType, EStateM.pure_eq_ok] at h
    exact ⟨h.1.symm, h.2.symm⟩
  | .component _, _, h => by
    simp only [elementType, EStateM.bind_eq_ok, EStateM.pure_eq_ok] at h
    obtain ⟨_, _, hc, rfl, rfl⟩ := h
    exact ⟨rfl, hc⟩

theorem keyColumns_ok {role : String} {table : TableId} {columns : List String}
    {codes : List SqlCode} {ids : List ColumnId}
    (h : keyColumns role table columns codes r = .ok ids r') :
    database (Database.namedValues role table columns codes) r = .ok ids r' := by
  simp only [keyColumns, EStateM.bind_eq_ok, EStateM.guard_eq_ok, EStateM.pure_eq_ok] at h
  obtain ⟨_, _, hv, -, rfl, rfl⟩ := h
  exact hv

/-- The columns of elements that do not refer back to the owner are those of their slots. -/
theorem elementColumns_ok {role : String} {type : ElementType}
    {values : Database.Action (List ColumnId)} {ids : List ColumnId}
    (h : elementColumns entities role type values r = .ok ids r') :
    ∃ found, database values r = .ok found r' ∧ (type.elementClass ≠ .oneToMany → ids = found) := by
  simp only [elementColumns, EStateM.bind_eq_ok, EStateM.guard_eq_ok, EStateM.pure_eq_ok] at h
  obtain ⟨found, _, hv, -, hids, rfl⟩ := h
  refine ⟨found, hv, fun hk => ?_⟩
  rw [← hids]
  split
  · exact absurd rfl hk
  · rfl

theorem slotTable_ok {role : String} {type : ElementType} {table : Option TableId} {id : TableId}
    (h : slotTable entities role type table = .ok id) (hk : type.elementClass ≠ .oneToMany) :
    table = some id := by
  cases type with
  | entity target viaLinkTable =>
    simp only [slotTable, Except.bind_eq_ok] at h
    obtain ⟨e, -, h⟩ := h
    cases viaLinkTable with
    | false => exact absurd rfl hk
    | true =>
      cases table with
      | none => cases h
      | some link =>
        cases h
        rfl
  | basic t | component c | any t =>
    cases table with
    | none => cases h
    | some table =>
      cases h
      rfl

theorem indexOf_adds {role : String} {table : TableId} {collection : CollectionClass}
    {index : Option IndexMapping} {found : Option Index}
    (h : indexOf role table collection index r = .ok found r') : Adds entities owner N r r' := by
  unfold indexOf at h
  cases index with
  | some m =>
    simp only [EStateM.bind_eq_ok, EStateM.pure_eq_ok] at h
    obtain ⟨_, _, hv, -, rfl⟩ := h
    exact values_adds hv
  | none =>
    cases collection with
    | list | map => exact absurd h EStateM.throw_ne_ok
    | bag | set =>
      obtain ⟨-, rfl⟩ := EStateM.pure_eq_ok.1 h
      exact .refl r

theorem ownTable_adds {expression : Option String} {table : Option TableId}
    (h : ownTable expression r = .ok table r') : Adds entities owner N r r' := by
  cases expression with
  | none =>
    obtain ⟨-, rfl⟩ := EStateM.pure_eq_ok.1 h
    exact .refl r
  | some expression =>
    have hg : r.Grows (fun _ => True) r' := ownTable_grows h
    obtain ⟨id, hx, -⟩ := EStateM.map_eq_ok.1 h
    cases hx
    exact ⟨hg, rfl, fun _ _ he => .inl he⟩

theorem ownTable_shows {expression : String} {table : Option TableId}
    (hn : r.database.Named) (h : ownTable (some expression) r = .ok table r') :
    ∃ id, table = some id ∧ r'.database.Shows expression id := by
  obtain ⟨id, hx, rfl⟩ := EStateM.map_eq_ok.1 h
  cases hx
  exact ⟨_, rfl, (Database.tableFor_shows expression hn).2⟩

/-- A collection is what a mapping describes: its role, the kind and the type of its elements, and
its table. Elements that do not refer back to the owner are stored in the slots that the mapping
describes, on that table, and so are the parts of embeddable elements. -/
structure CollectionOf (db : Database) (c : CollectionMapping) (p : PluralAttribute) : Prop where
  role : p.role = c.role
  kind : p.element.kind = c.element.elementType.elementClass
  type : p.element.elementType = elementDomain c.role c.element.elementType
  table : ∀ expression, c.collectionTable = some expression →
    ∃ id, p.collectionTable = some id ∧ db.Shows expression id
  slots : p.element.kind ≠ .oneToMany → ∃ id slots, p.collectionTable = some id ∧
    Describes c.element.columns c.element.formulas c.element.sqlCodes slots ∧
    List.Forall₂ (db.Holds id) slots p.element.columns
  parts : ∀ element, c.element.elementType = .component element → ∃ id, p.collectionTable = some id ∧
    ∀ slot, HasSlot element slot → ∃ place, db.Holds id slot place

theorem CollectionOf.grows {db db' : Database} {c : CollectionMapping} {p : PluralAttribute}
    (h : CollectionOf db c p) (hg : db.Grows db') : CollectionOf db' c p := by
  refine ⟨h.role, h.kind, h.type, fun expression he => ?_, fun hk => ?_, fun element he => ?_⟩
  · obtain ⟨id, hid, hs⟩ := h.table expression he
    exact ⟨id, hid, hs.grows hg⟩
  · obtain ⟨id, slots, hid, hd, hs⟩ := h.slots hk
    exact ⟨id, slots, hid, hd, hs.imp fun _ _ hh => hh.grows hg⟩
  · obtain ⟨id, hid, hs⟩ := h.parts element he
    refine ⟨id, hid, fun slot hslot => ?_⟩
    obtain ⟨place, hplace⟩ := hs slot hslot
    exact ⟨place, hplace.grows hg⟩

theorem plural_collectionOf {name : String} {c : CollectionMapping} {p : PluralAttribute}
    (hn : r.database.Named) (h : plural entities owner name c r = .ok p r') :
    CollectionOf r'.database c p := by
  obtain ⟨table, keys, type, ids, index, id, r1, r2, r3, r4, r5, ht, hs, hk, hy, he, hi, hkeep, rfl⟩ :=
    plural_ok h
  obtain ⟨htype, hcomponent⟩ := elementType_ok hy
  have hg5 := (keepCollection_grows (P := fun _ => True) hkeep).database
  have hg4 := (indexOf_grows (P := fun _ => True) hi).database.trans hg5
  have hg3 := (elementColumns_grows (P := fun _ => True) he).database.trans hg4
  refine ⟨rfl, rfl, htype, fun expression hx => ?_, fun hkind => ?_, fun element hc => ?_⟩
  · rw [hx] at ht
    obtain ⟨found, hfound, hshows⟩ := ownTable_shows hn ht
    have hg1 := (keyColumns_grows (P := fun _ => True) hk).database.trans
      ((elementType_grows hy).database.trans hg3)
    exact ⟨found, hfound, hshows.grows hg1⟩
  · obtain ⟨found, hv, heq⟩ := elementColumns_ok he
    obtain ⟨db, hvalues, rfl⟩ := database_ok hv
    obtain ⟨slots, hd⟩ := Database.values_describes hvalues
    refine ⟨id, slots, slotTable_ok hs hkind, hd, ?_⟩
    rw [heq hkind]
    exact (Database.values_hold hd hvalues).imp fun _ _ hh => hh.grows hg4
  · rw [hc] at hcomponent hs
    refine ⟨id, slotTable_ok hs nofun, fun slot hslot => ?_⟩
    obtain ⟨table, htable, place, hplace⟩ := component_holds hslot hcomponent
    cases List.mem_singleton.1 htable
    exact ⟨place, hplace.grows hg3⟩

/-- What the build of a collection adds: the collection, and the embeddables of its elements. -/
theorem plural_adds {name : String} {c : CollectionMapping} {p : PluralAttribute}
    (h : plural entities owner name c r = .ok p r') :
    r'.collections = keepFirst r.collections p.role p ∧
      ∀ role e, r'.embeddables.lookup role = some e → r.embeddables.lookup role = some e ∨
        ∃ element c' id, c.element.elementType = .component element ∧ p.collectionTable = some id ∧
          Nests (elementRole c.role) element role c' ∧
          Kept r' entities { owner with tables := [id] } role c' := by
  obtain ⟨table, keys, type, ids, index, id, r1, r2, r3, r4, r5, ht, hs, hk, hy, he, hi, hkeep, rfl⟩ :=
    plural_ok h
  obtain ⟨found, hv, -⟩ := elementColumns_ok he
  have helement : Adds entities { owner with tables := [id] } (fun role c' =>
      ∃ element, c.element.elementType = .component element ∧
        Nests (elementRole c.role) element role c') r2 r3 := by
    obtain ⟨-, hy⟩ := elementType_ok hy
    cases hc : c.element.elementType with
    | component element =>
      rw [hc] at hy
      exact (component_adds hy).mono fun role c' hn => ⟨element, rfl, hn⟩
    | basic t | any t | entity target viaLinkTable =>
      rw [hc] at hy
      exact hy ▸ .refl _
  have hadds := (ownTable_adds ht).trans ((values_adds (keyColumns_ok hk)).trans (helement.trans
    ((values_adds hv).trans (indexOf_adds hi))))
  have hlast := EStateM.modify_eq_ok.1 hkeep
  refine ⟨by rw [← hlast, ← hadds.collections], fun role e hr => ?_⟩
  rw [← hlast] at hr
  rcases hadds.embeddables role e hr with hr | ⟨c', ⟨element, hc, hn⟩, hkept⟩
  · exact .inl hr
  · refine .inr ⟨element, c', id, hc, slotTable_ok hs (by rw [hc]; nofun), hn, ?_⟩
    exact hkept.grows (keepCollection_grows (P := fun _ => True) hkeep)

/-! ## Attributes -/

theorem stored_plural {name : String} {n : Nat} {columns : List (Option String)}
    {formulas : Option (List (Option String))} {codes : List SqlCode} {mapped : MappedType}
    {p : PluralAttribute}
    (h : stored entities owner name n columns formulas codes mapped r = .ok (.plural p) r') :
    ∃ c, mapped = .collection c ∧ plural entities owner name c r = .ok p r' := by
  cases mapped with
  | collection c =>
    obtain ⟨_, -, _, hp, heq⟩ := stored_ok h
    cases heq
    exact ⟨c, rfl, hp⟩
  | basic t | any t =>
    obtain ⟨_, -, _, -, heq⟩ := stored_ok h
    cases heq
  | component c | association target kind =>
    obtain ⟨_, -, _, _, -, -, heq⟩ := stored_ok h
    cases heq

/-- An embeddable has been built for an attribute: for one that is embedded, or for the elements of
a collection on its table. -/
inductive Origin (r : Registry) (entities : List Entity) (owner : Owner) (m : AttributeMapping)
    (role : String) : Prop
  | embedded {c c' : ComponentMapping} (mapped : m.mappedType = .component c)
      (nests : Nests (owner.roleOf m.name) c role c') (kept : Kept r entities owner role c')
  | element {c : CollectionMapping} {element c' : ComponentMapping} {id : TableId}
      (mapped : m.mappedType = .collection c) (elements : c.element.elementType = .component element)
      (nests : Nests (elementRole c.role) element role c')
      (kept : Kept r entities { owner with tables := [id] } role c')

theorem Origin.grows {P : String → Prop} {m : AttributeMapping} {role : String}
    (h : Origin r entities owner m role) (hg : r.Grows P r') : Origin r' entities owner m role := by
  cases h with
  | embedded mapped nests kept => exact .embedded mapped nests (kept.grows hg)
  | element mapped elements nests kept => exact .element mapped elements nests (kept.grows hg)

theorem attributeOf_origin {m : AttributeMapping} {a : Attribute}
    (h : attributeOf entities owner m r = .ok a r') {role : String} {e : Embeddable}
    (he : r'.embeddables.lookup role = some e) :
    r.embeddables.lookup role = some e ∨ Origin r' entities owner m role := by
  cases a with
  | singular s =>
    rcases (stored_adds h).embeddables role e he with he | ⟨c', ⟨c, hc, hn⟩, hkept⟩
    · exact .inl he
    · exact .inr (.embedded hc hn hkept)
  | plural p =>
    obtain ⟨c, hc, hp⟩ := stored_plural h
    rcases (plural_adds hp).2 role e he with he | ⟨element, c', id, helement, -, hn, hkept⟩
    · exact .inl he
    · exact .inr (.element hc helement hn hkept)

theorem attributes_origin : ∀ {ms : List AttributeMapping} {r r' : Registry} {as : List Attribute},
    attributes entities owner ms r = .ok as r' → ∀ {role : String} {e : Embeddable},
    r'.embeddables.lookup role = some e →
    r.embeddables.lookup role = some e ∨ ∃ m ∈ ms, Origin r' entities owner m role
  | [], _, _, _, h, _, _, he => by
    obtain ⟨-, rfl⟩ := EStateM.pure_eq_ok.1 h
    exact .inl he
  | m :: ms, _, _, _, h, _, _, he => by
    simp only [attributes, EStateM.bind_eq_ok, EStateM.pure_eq_ok] at h
    obtain ⟨_, _, hm, _, _, hrest, -, rfl⟩ := h
    rcases attributes_origin hrest he with he | ⟨m', hm', ho⟩
    · rcases attributeOf_origin hm he with he | ho
      · exact .inl he
      · exact .inr ⟨m, List.mem_cons_self, ho.grows (attributes_grows hrest)⟩
    · exact .inr ⟨m', List.mem_cons_of_mem m hm', ho⟩

/-- The collections that are kept anew are among the given attributes, and all of these are found.
-/
structure Gathers (r r' : Registry) (as : List Attribute) : Prop where
  kept : ∀ role q, r.collections.lookup role = some q → r'.collections.lookup role = some q
  new : ∀ role q, r'.collections.lookup role = some q →
    r.collections.lookup role = some q ∨ q.role = role ∧ .plural q ∈ as
  found : ∀ p, .plural p ∈ as → ∃ q, r'.collections.lookup p.role = some q

theorem Gathers.append {as bs : List Attribute} (h : Gathers r r1 as) (h' : Gathers r1 r' bs) :
    Gathers r r' (as ++ bs) := by
  refine ⟨fun role q hq => h'.kept role q (h.kept role q hq), fun role q hq => ?_, fun p hp => ?_⟩
  · rcases h'.new role q hq with hq | ⟨hrole, hmem⟩
    · rcases h.new role q hq with hq | ⟨hrole, hmem⟩
      · exact .inl hq
      · exact .inr ⟨hrole, List.mem_append_left _ hmem⟩
    · exact .inr ⟨hrole, List.mem_append_right _ hmem⟩
  · rcases List.mem_append.1 hp with hp | hp
    · obtain ⟨q, hq⟩ := h.found p hp
      exact ⟨q, h'.kept _ q hq⟩
    · exact h'.found p hp

theorem attributeOf_gathers {m : AttributeMapping} {a : Attribute}
    (h : attributeOf entities owner m r = .ok a r') : Gathers r r' [a] := by
  cases a with
  | singular s =>
    have hc := (stored_adds h).collections
    exact ⟨fun role q hq => by rw [hc, hq], fun role q hq => .inl (by rw [← hc, hq]), by simp⟩
  | plural p =>
    obtain ⟨c, -, hp⟩ := stored_plural h
    have hkept := (plural_adds hp).1
    refine ⟨fun role q hq => ?_, fun role q hq => ?_, fun p' hp' => ?_⟩
    · rw [hkept]
      exact lookup_keepFirst_of_some hq
    · rw [hkept] at hq
      rcases lookup_keepFirst_cases hq with hold | ⟨rfl, -, rfl⟩
      · exact .inl hold
      · exact .inr ⟨rfl, List.mem_cons_self⟩
    · cases List.mem_singleton.1 hp'
      exact ⟨_, by rw [hkept, lookup_keepFirst_self]⟩

theorem attributes_gather : ∀ {ms : List AttributeMapping} {r r' : Registry} {as : List Attribute},
    attributes entities owner ms r = .ok as r' → Gathers r r' as
  | [], _, _, _, h => by
    obtain ⟨rfl, rfl⟩ := EStateM.pure_eq_ok.1 h
    exact ⟨fun _ _ hq => hq, fun _ _ hq => .inl hq, by simp⟩
  | m :: ms, _, _, _, h => by
    simp only [attributes, EStateM.bind_eq_ok, EStateM.pure_eq_ok] at h
    obtain ⟨a, _, hm, _, _, hrest, rfl, rfl⟩ := h
    exact (attributeOf_gathers hm).append (attributes_gather hrest)

/-- Every collection among the attributes is what some mapping describes. -/
theorem attributes_collections : ∀ {ms : List AttributeMapping} {r r' : Registry}
    {as : List Attribute}, r.database.Named → attributes entities owner ms r = .ok as r' →
    ∀ p, .plural p ∈ as → ∃ m ∈ ms, ∃ c, m.mappedType = .collection c ∧
      CollectionOf r'.database c p ∧ p.name = m.name
  | [], _, _, _, _, h, _, hp => by
    obtain ⟨rfl, -⟩ := EStateM.pure_eq_ok.1 h
    simp at hp
  | m :: ms, _, _, _, hn, h, p, hp => by
    simp only [attributes, EStateM.bind_eq_ok, EStateM.pure_eq_ok] at h
    obtain ⟨a, _, hm, _, _, hrest, rfl, rfl⟩ := h
    rcases List.mem_cons.1 hp with rfl | hp
    · obtain ⟨c, hc, hplural⟩ := stored_plural hm
      exact ⟨m, List.mem_cons_self, c, hc,
        (plural_collectionOf hn hplural).grows (attributes_grows hrest).database, plural_name hplural⟩
    · obtain ⟨m', hm', hc⟩ := attributes_collections ((stored_grows hm).named hn) hrest p hp
      exact ⟨m', List.mem_cons_of_mem m hm', hc⟩

/-! ## Entities -/

/-- An embeddable has been built for a composite identifier. -/
def IdentifierOrigin (r : Registry) (p : PendingEntity) (role : String) : Prop :=
  ∃ b c c', Identified r.database p b ∧ p.identifier.idType = .component c ∧
    Nests p.identifierRole c role c' ∧ Kept r [] (p.owner b.identifier.columns) role c'

theorem identified_origin : ∀ {ps : List PendingEntity} {r r' : Registry} {bare : List Entity},
    identified ps r = .ok bare r' → r'.collections = r.collections ∧
    ∀ {role : String} {e : Embeddable}, r'.embeddables.lookup role = some e →
      r.embeddables.lookup role = some e ∨ ∃ p ∈ ps, IdentifierOrigin r' p role
  | [], _, _, _, h => by
    obtain ⟨-, rfl⟩ := EStateM.pure_eq_ok.1 h
    exact ⟨rfl, .inl⟩
  | p :: ps, r, _, _, h => by
    simp only [identified, EStateM.bind_eq_ok, EStateM.pure_eq_ok] at h
    obtain ⟨id, r1, hid, _, _, hrest, -, rfl⟩ := h
    obtain ⟨hcollections, hrest'⟩ := identified_origin hrest
    have hfirst : r1.collections = r.collections ∧ ∀ {role : String} {e : Embeddable},
        r1.embeddables.lookup role = some e →
        r.embeddables.lookup role = some e ∨ IdentifierOrigin r1 p role := by
      obtain ⟨columns, r2, hv, ⟨t, -, rfl, -⟩ | ⟨c, hc, hcomponent, heq⟩⟩ := identifier_ok hid
      · have hadds : Adds [] (p.owner columns) (fun _ _ => False) r r1 := values_adds hv
        refine ⟨hadds.collections, fun he => ?_⟩
        rcases hadds.embeddables _ _ he with he | ⟨_, hf, -⟩
        · exact .inl he
        · exact hf.elim
      · have hadds := (values_adds hv).trans (component_adds hcomponent)
        refine ⟨hadds.collections, fun he => ?_⟩
        rcases hadds.embeddables _ _ he with he | ⟨c', hn, hkept⟩
        · exact .inl he
        · have hkey : id.columns = columns := by rw [heq]
          rw [← hkey] at hkept
          exact .inr ⟨⟨p.name, p.parent, p.primaryTable, p.moreTables, id, []⟩, c, c',
            ⟨rfl, rfl, r, r1, hid, .refl _⟩, hc, hn, hkept⟩
    refine ⟨hcollections.trans hfirst.1, fun he => ?_⟩
    have hg := identified_grows hrest
    rcases hrest' he with he | ⟨q, hq, ho⟩
    · rcases hfirst.2 he with he | ⟨b, c, c', hb, hc, hn, hkept⟩
      · exact .inl he
      · exact .inr ⟨p, List.mem_cons_self, b, c, c', hb.grows hg.database, hc, hn, hkept.grows hg⟩
    · exact .inr ⟨q, List.mem_cons_of_mem p hq, ho⟩

theorem completed_origin : ∀ {ps : List PendingEntity} {bare es : List Entity} {r r' : Registry},
    List.Forall₂ (Identified r.database) ps bare → completed entities ps bare r = .ok es r' →
    ∀ {role : String} {e : Embeddable}, r'.embeddables.lookup role = some e →
    r.embeddables.lookup role = some e ∨ ∃ p ∈ ps, ∃ b, Identified r'.database p b ∧
      ∃ m ∈ p.attributes, Origin r' entities (p.owner b.identifier.columns) m role
  | _, _, _, _, _, .nil, h, _, _, he => by
    obtain ⟨-, rfl⟩ := EStateM.pure_eq_ok.1 h
    exact .inl he
  | p :: ps, b :: bare, _, _, _, .cons hb hbare, h, _, _, he => by
    simp only [completed, EStateM.bind_eq_ok, EStateM.pure_eq_ok] at h
    obtain ⟨_, _, has, _, _, hrest, -, rfl⟩ := h
    have hg := (attributes_grows has).database
    rcases completed_origin (hbare.imp fun _ _ hi => hi.grows hg) hrest he with he | ⟨q, hq, ho⟩
    · rcases attributes_origin has he with he | ⟨m, hm, ho⟩
      · exact .inl he
      · have hg' := completed_grows hrest
        exact .inr ⟨p, List.mem_cons_self, b, hb.grows (hg.trans hg'.database), m, hm, ho.grows hg'⟩
    · exact .inr ⟨q, List.mem_cons_of_mem p hq, ho⟩

theorem completed_gather : ∀ {ps : List PendingEntity} {bare es : List Entity} {r r' : Registry},
    completed entities ps bare r = .ok es r' → Gathers r r' (es.flatMap (·.attributes))
  | [], _, _, _, _, h | _ :: _, [], _, _, _, h => by
    obtain ⟨rfl, rfl⟩ := EStateM.pure_eq_ok.1 h
    exact ⟨fun _ _ hq => hq, fun _ _ hq => .inl hq, by simp⟩
  | p :: ps, b :: bare, _, _, _, h => by
    simp only [completed, EStateM.bind_eq_ok, EStateM.pure_eq_ok] at h
    obtain ⟨_, _, has, _, _, hrest, rfl, rfl⟩ := h
    exact (attributes_gather has).append (completed_gather hrest)

theorem completed_collections : ∀ {ps : List PendingEntity} {bare es : List Entity}
    {r r' : Registry}, r.database.Named → List.Forall₂ (Identified r.database) ps bare →
    completed entities ps bare r = .ok es r' → ∀ E ∈ es, ∀ p, .plural p ∈ E.attributes →
    ∃ q ∈ ps, E.name = q.name ∧ ∃ m ∈ q.attributes, ∃ c, m.mappedType = .collection c ∧
      CollectionOf r'.database c p ∧ p.name = m.name
  | _, _, _, _, _, _, .nil, h, _, hE, _, _ => by
    obtain ⟨rfl, -⟩ := EStateM.pure_eq_ok.1 h
    simp at hE
  | q :: ps, b :: bare, _, _, _, hn, .cons hb hbare, h, E, hE, p, hp => by
    simp only [completed, EStateM.bind_eq_ok, EStateM.pure_eq_ok] at h
    obtain ⟨_, _, has, _, _, hrest, rfl, rfl⟩ := h
    have hg := attributes_grows has
    rcases List.mem_cons.1 hE with rfl | hE
    · obtain ⟨m, hm, c, hc, hof, hname⟩ := attributes_collections hn has p hp
      exact ⟨q, List.mem_cons_self, hb.name, m, hm, c, hc,
        hof.grows (completed_grows hrest).database, hname⟩
    · obtain ⟨q', hq', hrest'⟩ := completed_collections (hg.named hn)
        (hbare.imp fun _ _ hi => hi.grows hg.database) hrest E hE p hp
      exact ⟨q', List.mem_cons_of_mem q hq', hrest'⟩

/-! ## Attributes of embeddables -/

/-- An attribute of an embeddable that is kept is singular, and is built from one of its
mappings. -/
theorem Kept.attribute {role : String} {c : ComponentMapping} {e : Embeddable} {a : Attribute}
    (h : Kept r entities owner role c) (he : r.embeddables.lookup role = some e)
    (ha : a ∈ e.attributes) :
    ∃ m ∈ c.attributes, ∃ s r0 r1, a = .singular s ∧
      attributeOf entities { owner with type := .embeddable role } m r0 = .ok (.singular s) r1 ∧
      r1.database.Grows r.database := by
  obtain ⟨subs, r0, r1, hs, hg, hl⟩ := h
  cases he.symm.trans hl
  obtain ⟨m, hm, s, r2, r3, rfl, hstored, hg'⟩ := (subAttributes_ok hs).exists_left ha
  exact ⟨m, hm, s, r2, r3, rfl, hstored, hg'.trans hg⟩

end Build

/-! ## Definitions -/

theorem Metamodel.embeddable_ok {m : Metamodel} {role : String} {e : Embeddable} :
    m.embeddable role = .ok e ↔ m.embeddables.lookup role = some e := by
  unfold embeddable
  cases m.embeddables.lookup role <;> simp

theorem Metamodel.collection_ok {m : Metamodel} {role : String} {p : PluralAttribute} :
    m.collection role = .ok p ↔ m.collections.lookup role = some p := by
  unfold collection
  cases m.collections.lookup role <;> simp

namespace Definition.Builds

variable {d : Definition} {m : Metamodel} {ems : List EntityMapping} {ps : List PendingEntity}
  {bare : List Entity} {r r1 r2 : Registry}

/-- Every embeddable of a metamodel has been built for an identifier or for an attribute. -/
theorem origin (h : d.Builds m ems ps bare r r1 r2) {role : String} {e : Embeddable}
    (he : m.embeddable role = .ok e) :
    ∃ p ∈ ps, Build.IdentifierOrigin r2 p role ∨
      ∃ b, Build.Identified m.database p b ∧ ∃ am ∈ p.attributes,
        Build.Origin r2 bare (p.owner b.identifier.columns) am role := by
  rw [Metamodel.embeddable_ok, h.result] at he
  rcases Build.completed_origin (Build.identified_ok h.identified) h.completed he with
    he | ⟨p, hp, b, hb, ho⟩
  · rcases (Build.identified_origin h.identified).2 he with he | ⟨p, hp, b, c, c', hb, hc, hn, hkept⟩
    · simp [h.start] at he
    · have hg := Build.completed_grows h.completed
      exact ⟨p, hp, .inl ⟨b, c, c', hb.grows hg.database, hc, hn, hkept.grows hg⟩⟩
  · refine ⟨p, hp, .inr ⟨b, ?_, ho⟩⟩
    rw [h.result]
    exact hb

/-- The attributes of embeddables are singular. -/
theorem singular (h : d.Builds m ems ps bare r r1 r2) {role : String} {e : Embeddable}
    (he : m.embeddable role = .ok e) {a : Attribute} (ha : a ∈ e.attributes) :
    ∃ s, a = .singular s := by
  have of_kept {entities : List Entity} {owner : Owner} {c : ComponentMapping}
      (hk : Build.Kept r2 entities owner role c) : ∃ s, a = .singular s := by
    rw [Metamodel.embeddable_ok, h.result] at he
    obtain ⟨_, -, s, _, _, hs, -⟩ := hk.attribute he ha
    exact ⟨s, hs⟩
  obtain ⟨p, -, ⟨_, _, _, -, -, -, hk⟩ | ⟨_, -, _, -, ho⟩⟩ := h.origin he
  · exact of_kept hk
  · cases ho with
    | embedded _ _ hk => exact of_kept hk
    | element _ _ _ hk => exact of_kept hk

/-- A collection that is found by its role is an attribute of some entity. -/
theorem collection (h : d.Builds m ems ps bare r r1 r2) {role : String} {q : PluralAttribute}
    (hq : m.collection role = .ok q) : q.role = role ∧ ∃ E ∈ m.entities, .plural q ∈ E.attributes := by
  rw [Metamodel.collection_ok, h.result] at hq
  rcases (Build.completed_gather h.completed).new role q hq with hq | ⟨hrole, hmem⟩
  · rw [(Build.identified_origin h.identified).1, h.uncollected] at hq
    cases hq
  · exact ⟨hrole, List.mem_flatMap.1 hmem⟩

/-- Every collection of an entity has one under its role. -/
theorem exists_collection (h : d.Builds m ems ps bare r r1 r2) {E : Entity} {p : PluralAttribute}
    (hE : E ∈ m.entities) (hp : .plural p ∈ E.attributes) : ∃ q, m.collection p.role = .ok q := by
  obtain ⟨q, hq⟩ := (Build.completed_gather h.completed).found p (List.mem_flatMap.2 ⟨E, hE, hp⟩)
  refine ⟨q, ?_⟩
  rw [Metamodel.collection_ok, h.result]
  exact hq

/-- A collection of an entity is what its line declares. -/
theorem collectionOf (h : d.Builds m ems ps bare r r1 r2) {E : Entity} {p : PluralAttribute}
    (hE : E ∈ m.entities) (hp : .plural p ∈ E.attributes) :
    ∃ e D a am c, e ∈ d.entities ∧ e.name = E.name ∧ d.Inherits e D a am ∧
      am.mappedType = .collection c ∧ Build.CollectionOf m.database c p ∧ p.name = a.name := by
  have hn := (Build.identified_grows h.identified).named h.named
  obtain ⟨q, hq, hname, am, ham, c, hc, hof, hpname⟩ := Build.completed_collections hn
    (Build.identified_ok h.identified) h.completed E hE p hp
  obtain ⟨e, em, he, hmap, hofem, hqname⟩ := h.pending hq
  rw [hofem.attributes] at ham
  obtain ⟨D, a, hin⟩ := inherits_of_mem h.valid he hmap ham
  refine ⟨e, D, a, am, c, he, (hname.trans hqname).symm, hin, hc, ?_, hpname.trans hin.name⟩
  rw [h.result]
  exact hof

end Definition.Builds

end EntityQuery
