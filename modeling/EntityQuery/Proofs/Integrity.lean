import EntityQuery.Proofs.ForeignKeys
import EntityQuery.Proofs.Origins

/-!
# What a metamodel refers to is there

A metamodel refers to tables and columns by their places, to entities by their names, and to
embeddables and collections by their roles. `built_metamodel_sound`: whatever has been registered and
built, all of these lead somewhere, and the columns of an entity's own attributes are on the tables
that their positions name. The type of an index is the exception: it is taken over from the mapping
as it stands (`index_type_unresolved`).

What a build has found so far is a metamodel too, once the entities are added
(`Registry.metamodel`). Each step of the build keeps it sound and keeps what it refers to
(`Build.Extends`), so that what one step has found still holds at the end.
-/

set_option autoImplicit false

namespace EntityQuery

/-! ## Soundness -/

/-- All columns are in the database. -/
def Database.Contains (db : Database) (ids : List ColumnId) : Prop :=
  ∀ id ∈ ids, ∃ column, db.column? id = some column

/-- What a type refers to is in the metamodel. -/
def Metamodel.Resolves (m : Metamodel) : DomainType → Prop
  | .basic _ => True
  | .entity name => ∃ e, m.entity name = .ok e
  | .embeddable role => ∃ e, m.embeddable role = .ok e
  | .any _ => True
  | .collection role => ∃ p, m.collection role = .ok p

/-- The columns of an attribute are there, and so is its type. A basic attribute or an association
has a column. -/
structure SingularAttribute.Sound (m : Metamodel) (a : SingularAttribute) : Prop where
  columns : m.database.Contains a.columns
  filled : a.kind ≠ .any → a.kind ≠ .embedded → a.columns ≠ []
  type : m.Resolves a.attributeType

/-- The columns of a collection are there, those of its key and of its elements are not missing, and
the type of its elements and its role lead somewhere. -/
structure PluralAttribute.Sound (m : Metamodel) (p : PluralAttribute) : Prop where
  keyColumns : m.database.Contains p.keyColumns
  keyed : p.keyColumns ≠ []
  elementColumns : m.database.Contains p.element.columns
  filled : p.element.columns ≠ []
  indexColumns : ∀ index, p.index = some index → m.database.Contains index.columns
  elementType : m.Resolves p.element.elementType
  role : m.Resolves (.collection p.role)

def Attribute.Sound (m : Metamodel) : Attribute → Prop
  | .singular a => a.Sound m
  | .plural p => p.Sound m

/-- The tables of an entity are there, and so is its parent. Its identifier and its attributes are
sound, and the columns of each are on the table at its position. -/
structure Entity.Sound (m : Metamodel) (E : Entity) : Prop where
  hasTable : E.tables ≠ []
  tables : ∀ id ∈ E.tables, ∃ table, m.database.table? id = some table
  parent : ∀ name, E.parent = some name → ∃ e, m.entity name = .ok e
  identifier : E.identifier.Sound m
  keyed : E.identifier.columns ≠ []
  attributes : ∀ a ∈ E.attributes, a.Sound m
  placed : ∀ a, a = E.identifier ∨ .singular a ∈ E.attributes →
    ∃ table, E.tables[a.tablePosition]? = some table ∧ ∀ id ∈ a.columns, id.table = table

structure Metamodel.Sound (m : Metamodel) : Prop where
  entities : ∀ E ∈ m.entities, E.Sound m
  embeddables : ∀ role e, m.embeddable role = .ok e → ∀ a ∈ e.attributes, a.Sound m
  collections : ∀ role p, m.collection role = .ok p → p.Sound m

/-! ## Growth -/

theorem Database.Contains.grows {db db' : Database} {ids : List ColumnId} (h : db.Contains ids)
    (hg : db.Grows db') : db'.Contains ids := by
  intro id hid
  obtain ⟨column, hcolumn⟩ := h id hid
  exact ⟨column, hg.column? hcolumn⟩

/-- Columns stay, and what was referred to still is. -/
structure Metamodel.Grows (m m' : Metamodel) : Prop where
  database : m.database.Grows m'.database
  resolves : ∀ type, m.Resolves type → m'.Resolves type

section

variable {m m' m'' : Metamodel}

theorem Metamodel.Grows.refl (m : Metamodel) : m.Grows m := ⟨.refl _, fun _ h => h⟩

theorem Metamodel.Grows.trans (h : m.Grows m') (h' : m'.Grows m'') : m.Grows m'' :=
  ⟨h.database.trans h'.database, fun type ht => h'.resolves type (h.resolves type ht)⟩

theorem SingularAttribute.Sound.grows {a : SingularAttribute} (h : a.Sound m) (hg : m.Grows m') :
    a.Sound m' :=
  ⟨h.columns.grows hg.database, h.filled, hg.resolves _ h.type⟩

theorem PluralAttribute.Sound.grows {p : PluralAttribute} (h : p.Sound m) (hg : m.Grows m') :
    p.Sound m' where
  keyColumns := h.keyColumns.grows hg.database
  keyed := h.keyed
  elementColumns := h.elementColumns.grows hg.database
  filled := h.filled
  indexColumns index hi := (h.indexColumns index hi).grows hg.database
  elementType := hg.resolves _ h.elementType
  role := hg.resolves _ h.role

theorem Attribute.Sound.grows {a : Attribute} (h : a.Sound m) (hg : m.Grows m') : a.Sound m' := by
  cases a with
  | singular a => exact SingularAttribute.Sound.grows h hg
  | plural p => exact PluralAttribute.Sound.grows h hg

end

/-- What a build has found, with the entities of the metamodel. -/
def Registry.metamodel (r : Registry) (es : List Entity) : Metamodel :=
  ⟨r.database, es, r.embeddables, r.collections⟩

/-- The embeddables and collections that have been kept are sound. -/
structure Registry.Sound (es : List Entity) (r : Registry) : Prop where
  embeddables : ∀ role e, r.embeddables.lookup role = some e →
    ∀ a ∈ e.attributes, a.Sound (r.metamodel es)
  collections : ∀ role p, r.collections.lookup role = some p → p.Sound (r.metamodel es)

namespace Build

variable {es entities : List Entity} {owner : Owner} {r r1 r' : Registry}

/-- A part of a build loses nothing, and keeps what it has found sound. -/
structure Extends (es : List Entity) (r r' : Registry) : Prop where
  grows : (r.metamodel es).Grows (r'.metamodel es)
  sound : r.Sound es → r'.Sound es

theorem Extends.refl (r : Registry) : Extends es r r := ⟨.refl _, id⟩

theorem Extends.trans (h : Extends es r r1) (h' : Extends es r1 r') : Extends es r r' :=
  ⟨h.grows.trans h'.grows, fun hr => h'.sound (h.sound hr)⟩

/-- Nothing is lost if every role still leads somewhere. -/
theorem grows_of_lookup (hdb : r.database.Grows r'.database)
    (he : ∀ role e, r.embeddables.lookup role = some e →
      ∃ e', r'.embeddables.lookup role = some e')
    (hc : ∀ role p, r.collections.lookup role = some p →
      ∃ p', r'.collections.lookup role = some p') :
    (r.metamodel es).Grows (r'.metamodel es) := by
  refine ⟨hdb, fun type ht => ?_⟩
  cases type with
  | basic t | entity name | any t => exact ht
  | embeddable role =>
    obtain ⟨e, hrole⟩ := ht
    obtain ⟨e', hrole'⟩ := he role e (Metamodel.embeddable_ok.1 hrole)
    exact ⟨e', Metamodel.embeddable_ok.2 hrole'⟩
  | collection role =>
    obtain ⟨p, hrole⟩ := ht
    obtain ⟨p', hrole'⟩ := hc role p (Metamodel.collection_ok.1 hrole)
    exact ⟨p', Metamodel.collection_ok.2 hrole'⟩

/-- What is kept anew has to be sound; what was kept before stays so. -/
theorem extends_of_kept (hg : (r.metamodel es).Grows (r'.metamodel es))
    (he : ∀ role e, r'.embeddables.lookup role = some e → r.embeddables.lookup role = some e ∨
      ∀ a ∈ e.attributes, a.Sound (r'.metamodel es))
    (hc : ∀ role p, r'.collections.lookup role = some p → r.collections.lookup role = some p ∨
      p.Sound (r'.metamodel es)) : Extends es r r' := by
  refine ⟨hg, fun hr => ⟨fun role e hrole a ha => ?_, fun role p hrole => ?_⟩⟩
  · rcases he role e hrole with hold | hnew
    · exact (hr.embeddables role e hold a ha).grows hg
    · exact hnew a ha
  · rcases hc role p hrole with hold | hnew
    · exact (hr.collections role p hold).grows hg
    · exact hnew

theorem extends_of_database {db : Database} (h : r.database.Grows db) :
    Extends es r { r with database := db } :=
  extends_of_kept (grows_of_lookup h (fun _ e he => ⟨e, he⟩) fun _ p hp => ⟨p, hp⟩)
    (fun _ _ he => .inl he) fun _ _ hp => .inl hp

/-- An embeddable with sound attributes may be kept, and its role then leads to one. -/
theorem keepEmbeddable_extends {e : Embeddable} {u : Unit} (h : keepEmbeddable e r = .ok u r')
    (he : ∀ a ∈ e.attributes, a.Sound (r.metamodel es)) :
    Extends es r r' ∧ (r'.metamodel es).Resolves (.embeddable e.role) := by
  have hkeep := EStateM.modify_eq_ok.1 h
  have hlookup (role : String) : r'.embeddables.lookup role =
      (keepFirst r.embeddables e.role e).lookup role := by rw [← hkeep]
  have hg : (r.metamodel es).Grows (r'.metamodel es) := by
    refine grows_of_lookup (by rw [← hkeep]; exact .refl _) (fun role found hf => ?_) ?_
    · exact ⟨found, (hlookup role).trans (lookup_keepFirst_of_some hf)⟩
    · intro role p hp
      exact ⟨p, by rw [← hkeep]; exact hp⟩
  constructor
  · refine extends_of_kept hg (fun role found hf => ?_) fun role p hp => ?_
    · rw [hlookup] at hf
      refine (lookup_keepFirst_cases hf).imp id ?_
      rintro ⟨-, -, rfl⟩ a ha
      exact (he a ha).grows hg
    · rw [← hkeep] at hp
      exact .inl hp
  · exact ⟨_, Metamodel.embeddable_ok.2 ((hlookup e.role).trans (lookup_keepFirst_self _ _ _))⟩

/-! ## Columns -/

theorem values_sound (es : List Entity) {role : String} {table : TableId} {columns : List (Option String)}
    {formulas : Option (List (Option String))} {codes : List SqlCode} {ids : List ColumnId}
    (h : database (Database.values role table columns formulas codes) r = .ok ids r') :
    Extends es r r' ∧ r'.database.Contains ids ∧ ∀ id ∈ ids, id.table = table := by
  obtain ⟨db, hv, rfl⟩ := database_ok h
  obtain ⟨slots, hd⟩ := Database.values_describes hv
  have hholds := Database.values_hold hd hv
  refine ⟨extends_of_database (Database.values_grows hv), fun id hid => ?_, fun id hid => ?_⟩
  · obtain ⟨slot, -, hslot⟩ := hholds.exists_left hid
    exact ⟨slot, hslot.column?⟩
  · obtain ⟨slot, -, hslot⟩ := hholds.exists_left hid
    exact hslot.1

theorem associationColumns_filled {role : String} {kind : AssociationKind} {declares : Bool}
    {n position : Nat} {values : Database.Action (List ColumnId)} {ids : List ColumnId}
    (h : associationColumns owner role kind declares n values r = .ok (ids, position) r') :
    ids ≠ [] := by
  unfold associationColumns at h
  cases kind with
  | primaryKeyOneToOne =>
    simp only [EStateM.guard_eq_ok, EStateM.bind_eq_ok, EStateM.pure_eq_ok, Prod.mk.injEq] at h
    obtain ⟨-, _, _, -, hne, ⟨rfl, -⟩, -⟩ := h
    simpa using hne
  | manyToOne | uniqueKeyOneToOne =>
    simp only [EStateM.guard_eq_ok, EStateM.bind_eq_ok, EStateM.pure_eq_ok, Prod.mk.injEq] at h
    obtain ⟨_, _, -, _, _, -, hne, ⟨rfl, -⟩, -⟩ := h
    simpa using hne

/-- A basic attribute or an association has a column. -/
theorem stored_filled {name : String} {n : Nat} {columns : List (Option String)}
    {formulas : Option (List (Option String))} {codes : List SqlCode} {mapped : MappedType}
    {s : SingularAttribute}
    (h : stored entities owner name n columns formulas codes mapped r = .ok (.singular s) r')
    (hany : s.kind ≠ .any) (hembedded : s.kind ≠ .embedded) : s.columns ≠ [] := by
  unfold stored at h
  cases ht : owner.tables[n]? with
  | none =>
    simp only [ht] at h
    exact absurd h EStateM.throw_ne_ok
  | some table =>
    simp only [ht] at h
    cases mapped with
    | basic t =>
      simp only [basicColumns, EStateM.bind_eq_ok, EStateM.guard_eq_ok, EStateM.pure_eq_ok] at h
      obtain ⟨_, _, ⟨_, _, -, hne, rfl, rfl⟩, heq, -⟩ := h
      cases heq
      simpa using hne
    | component c =>
      simp only [EStateM.bind_eq_ok, EStateM.pure_eq_ok] at h
      obtain ⟨_, _, -, _, _, -, heq, -⟩ := h
      cases heq
      exact absurd rfl hembedded
    | any t =>
      simp only [EStateM.bind_eq_ok, EStateM.pure_eq_ok] at h
      obtain ⟨_, _, -, heq, -⟩ := h
      cases heq
      exact absurd rfl hany
    | association target kind =>
      simp only [EStateM.bind_eq_ok, EStateM.pure_eq_ok] at h
      obtain ⟨_, _, -, _, _, hv, heq, -⟩ := h
      cases heq
      exact associationColumns_filled hv
    | collection c =>
      simp only [EStateM.bind_eq_ok, EStateM.pure_eq_ok] at h
      obtain ⟨_, _, -, heq, -⟩ := h
      cases heq

theorem keyColumns_sound (es : List Entity) {role : String} {table : TableId} {columns : List String}
    {codes : List SqlCode} {ids : List ColumnId}
    (h : keyColumns role table columns codes r = .ok ids r') :
    Extends es r r' ∧ r'.database.Contains ids ∧ ids ≠ [] := by
  obtain ⟨hextends, hcontains, -⟩ := values_sound es (keyColumns_ok h)
  simp only [keyColumns, EStateM.bind_eq_ok, EStateM.guard_eq_ok, EStateM.pure_eq_ok] at h
  obtain ⟨_, _, -, hne, rfl, rfl⟩ := h
  exact ⟨hextends, hcontains, by simpa using hne⟩

theorem indexOf_sound (es : List Entity) {role : String} {table : TableId} {collection : CollectionClass}
    {index : Option IndexMapping} {found : Option Index}
    (h : indexOf role table collection index r = .ok found r') :
    Extends es r r' ∧ ∀ i, found = some i → r'.database.Contains i.columns := by
  unfold indexOf at h
  cases index with
  | some m =>
    simp only [EStateM.bind_eq_ok, EStateM.pure_eq_ok] at h
    obtain ⟨_, _, hv, rfl, rfl⟩ := h
    obtain ⟨hextends, hcontains, -⟩ := values_sound _ hv
    refine ⟨hextends, fun i hi => ?_⟩
    cases hi
    exact hcontains
  | none =>
    cases collection with
    | list | map => exact absurd h EStateM.throw_ne_ok
    | bag | set =>
      obtain ⟨rfl, rfl⟩ := EStateM.pure_eq_ok.1 h
      exact ⟨.refl r, by simp⟩

theorem ownTable_extends {expression : Option String} {table : Option TableId}
    (h : ownTable expression r = .ok table r') : Extends es r r' := by
  cases expression with
  | none =>
    obtain ⟨-, rfl⟩ := EStateM.pure_eq_ok.1 h
    exact .refl r
  | some expression =>
    obtain ⟨id, hx, -⟩ := EStateM.map_eq_ok.1 h
    cases hx
    exact extends_of_database (Database.tableFor_grows expression r.database)

/-! ## Attributes -/

theorem known_ok {name : String} {e : Entity} (h : known entities name = .ok e) :
    e ∈ entities ∧ e.name = name := by
  have hf := known_eq_ok.1 h
  exact ⟨List.mem_of_find?_eq_some hf, by simpa using List.find?_some hf⟩

/-- Attributes can be built for an owner: the columns of its identifier are there, and the entities
that they may refer to are in the metamodel, with the columns of their identifiers. -/
structure Ready (entities : List Entity) (owner : Owner) (m : Metamodel) : Prop where
  identifier : m.database.Contains owner.identifierColumns
  entities : ∀ e ∈ entities, m.Resolves (.entity e.name) ∧ m.database.Contains e.identifier.columns

theorem Ready.grows {m m' : Metamodel} (h : Ready entities owner m) (hg : m.Grows m') :
    Ready entities owner m' := by
  refine ⟨h.identifier.grows hg.database, fun e he => ?_⟩
  obtain ⟨hresolves, hcontains⟩ := h.entities e he
  exact ⟨hg.resolves _ hresolves, hcontains.grows hg.database⟩

theorem Ready.resolves {m : Metamodel} (h : Ready entities owner m) {name : String} {e : Entity}
    (he : known entities name = .ok e) : m.Resolves (.entity name) := by
  obtain ⟨hmem, rfl⟩ := known_ok he
  exact (h.entities e hmem).1

mutual
/-- An attribute that is not a collection is sound. -/
theorem stored_sound {es entities : List Entity} : ∀ {mapped : MappedType} {owner : Owner}
    {name : String} {n : Nat} {columns : List (Option String)}
    {formulas : Option (List (Option String))} {codes : List SqlCode} {r r' : Registry}
    {s : SingularAttribute}, Ready entities owner (r.metamodel es) →
    stored entities owner name n columns formulas codes mapped r = .ok (.singular s) r' →
    Extends es r r' ∧ s.Sound (r'.metamodel es)
  | .basic _, _, _, _, _, _, _, _, _, _, _, h => by
    have hfilled := stored_filled h
    obtain ⟨_, -, _, hv, heq⟩ := stored_ok h
    cases heq
    obtain ⟨hextends, hcontains, -⟩ := values_sound _ hv
    exact ⟨hextends, hcontains, hfilled, trivial⟩
  | .component c, _, _, _, _, _, _, _, _, _, hready, h => by
    have hfilled := stored_filled h
    obtain ⟨_, -, _, _, hv, hc, heq⟩ := stored_ok h
    cases heq
    obtain ⟨hvalues, hcontains, -⟩ := values_sound _ hv
    obtain ⟨hcomponent, hresolves⟩ := component_sound (hready.grows hvalues.grows) hc
    exact ⟨hvalues.trans hcomponent, hcontains.grows hcomponent.grows.database, hfilled, hresolves⟩
  | .any _, _, _, _, _, _, _, _, _, _, _, h => by
    have hfilled := stored_filled h
    obtain ⟨_, -, _, hv, heq⟩ := stored_ok h
    cases heq
    obtain ⟨hextends, hcontains, -⟩ := values_sound _ hv
    exact ⟨hextends, hcontains, hfilled, trivial⟩
  | .association _ _, _, _, _, _, _, _, _, _, _, hready, h => by
    have hfilled := stored_filled h
    obtain ⟨_, -, _, _, ⟨e, he⟩, hv, heq⟩ := stored_ok h
    cases heq
    have hresolves := hready.resolves he
    obtain ⟨-, -, rfl, -, rfl⟩ | ⟨-, -, hv⟩ := associationColumns_ok hv
    · exact ⟨.refl _, hready.identifier, hfilled, hresolves⟩
    · obtain ⟨hextends, hcontains, -⟩ := values_sound _ hv
      exact ⟨hextends, hcontains, hfilled, hextends.grows.resolves _ hresolves⟩
  | .collection _, _, _, _, _, _, _, _, _, _, _, h => by
    obtain ⟨_, -, _, -, heq⟩ := stored_ok h
    cases heq
/-- A component keeps its embeddable, so that its role leads to one. -/
theorem component_sound {es entities : List Entity} : ∀ {c : ComponentMappingOf MappedType}
    {owner : Owner} {role : String} {r r' : Registry} {u : Unit},
    Ready entities owner (r.metamodel es) → component entities owner role c r = .ok u r' →
    Extends es r r' ∧ (r'.metamodel es).Resolves (.embeddable role)
  | ⟨_, _⟩, owner, role, _, _, _, hready, h => by
    simp only [component, EStateM.bind_eq_ok] at h
    obtain ⟨_, _, hs, hk⟩ := h
    have hready' : Ready entities { owner with type := .embeddable role } _ :=
      ⟨hready.identifier, hready.entities⟩
    obtain ⟨hsubs, hsound⟩ := subAttributes_sound hready' hs
    obtain ⟨hkeep, hresolves⟩ := keepEmbeddable_extends hk hsound
    exact ⟨hsubs.trans hkeep, hresolves⟩
theorem subAttributes_sound {es entities : List Entity} :
    ∀ {ms : List (AttributeMappingOf MappedType)} {owner : Owner} {r r' : Registry}
    {as : List Attribute}, Ready entities owner (r.metamodel es) →
    subAttributes entities owner ms r = .ok as r' →
    Extends es r r' ∧ ∀ a ∈ as, a.Sound (r'.metamodel es)
  | [], _, _, _, _, _, h => by
    simp only [subAttributes, EStateM.pure_eq_ok] at h
    obtain ⟨rfl, rfl⟩ := h
    exact ⟨.refl _, by simp⟩
  | ⟨_, _, _, _, _, _⟩ :: _, _, _, _, _, hready, h => by
    simp only [subAttributes, EStateM.bind_eq_ok] at h
    obtain ⟨found, _, hs, h⟩ := h
    cases found with
    | plural p => exact absurd h EStateM.throw_ne_ok
    | singular s =>
      simp only [EStateM.bind_eq_ok, EStateM.pure_eq_ok] at h
      obtain ⟨_, _, hrest, rfl, rfl⟩ := h
      obtain ⟨hextends, hsound⟩ := stored_sound hready hs
      obtain ⟨hextends', hsounds⟩ := subAttributes_sound (hready.grows hextends.grows) hrest
      refine ⟨hextends.trans hextends', List.forall_mem_cons.2 ⟨?_, hsounds⟩⟩
      exact hsound.grows hextends'.grows
end

/-! ## Collections -/

theorem slotTable_known {role : String} {target : String} {viaLinkTable : Bool}
    {table : Option TableId} {id : TableId}
    (h : slotTable entities role (.entity target viaLinkTable) table = .ok id) :
    ∃ e, known entities target = .ok e := by
  simp only [slotTable, Except.bind_eq_ok] at h
  obtain ⟨e, he, -⟩ := h
  exact ⟨e, he⟩

theorem elementType_sound {role : String} {table : Option TableId} {id : TableId}
    {type : ElementType} {t : DomainType} (hready : Ready entities owner (r.metamodel es))
    (hs : slotTable entities role type table = .ok id)
    (h : elementType entities owner role id type r = .ok t r') :
    Extends es r r' ∧ (r'.metamodel es).Resolves t := by
  obtain ⟨rfl, hrun⟩ := elementType_ok h
  cases type with
  | basic t | any t =>
    cases hrun
    exact ⟨.refl r, trivial⟩
  | entity target viaLinkTable =>
    cases hrun
    obtain ⟨e, he⟩ := slotTable_known hs
    exact ⟨.refl r, hready.resolves he⟩
  | component c =>
    have hready' : Ready entities { owner with tables := [id] } (r.metamodel es) :=
      ⟨hready.identifier, hready.entities⟩
    exact component_sound hready' hrun

/-- The elements of a collection have columns: those of their slots, or those of the identifier of
their entity. -/
theorem elementColumns_sound {role : String} {type : ElementType} {table : TableId}
    {columns : List (Option String)} {formulas : Option (List (Option String))}
    {codes : List SqlCode} {ids : List ColumnId} (hready : Ready entities owner (r.metamodel es))
    (h : elementColumns entities role type (Database.values role table columns formulas codes) r =
      .ok ids r') : Extends es r r' ∧ r'.database.Contains ids ∧ ids ≠ [] := by
  simp only [elementColumns, EStateM.bind_eq_ok, EStateM.guard_eq_ok, EStateM.pure_eq_ok] at h
  obtain ⟨found, _, hv, hne, hids, rfl⟩ := h
  obtain ⟨hextends, hcontains, -⟩ := values_sound es hv
  rw [hids] at hne
  refine ⟨hextends, ?_, by simpa using hne⟩
  rw [← hids]
  split
  · split
    · rename_i e he
      have hmem := List.mem_of_find?_eq_some he
      exact (hready.entities e hmem).2.grows hextends.grows.database
    · exact List.forall_mem_nil _
  · exact hcontains

/-- A collection is kept without loss, and its role then leads to one. -/
theorem keepCollection_resolves (es : List Entity) {p : PluralAttribute} {u : Unit}
    (h : keepCollection p r = .ok u r') :
    (r.metamodel es).Grows (r'.metamodel es) ∧ (r'.metamodel es).Resolves (.collection p.role) := by
  have hkeep := EStateM.modify_eq_ok.1 h
  have hlookup (role : String) : r'.collections.lookup role =
      (keepFirst r.collections p.role p).lookup role := by rw [← hkeep]
  constructor
  · refine grows_of_lookup (by rw [← hkeep]; exact .refl _) (fun role e he => ?_) fun role q hq => ?_
    · exact ⟨e, by rw [← hkeep]; exact he⟩
    · exact ⟨q, (hlookup role).trans (lookup_keepFirst_of_some hq)⟩
  · exact ⟨_, Metamodel.collection_ok.2 ((hlookup p.role).trans (lookup_keepFirst_self _ _ _))⟩

theorem keepCollection_extends {p : PluralAttribute} {u : Unit} (h : keepCollection p r = .ok u r')
    (hp : p.Sound (r'.metamodel es)) : Extends es r r' := by
  have hkeep := EStateM.modify_eq_ok.1 h
  refine extends_of_kept (keepCollection_resolves _ h).1 (fun role e he => ?_) fun role q hq => ?_
  · rw [← hkeep] at he
    exact .inl he
  · have hq' : (keepFirst r.collections p.role p).lookup role = some q := by
      rw [← hkeep] at hq
      exact hq
    rcases lookup_keepFirst_cases hq' with hold | ⟨-, -, rfl⟩
    · exact .inl hold
    · exact .inr hp

theorem plural_sound {name : String} {c : CollectionMapping} {p : PluralAttribute}
    (hready : Ready entities owner (r.metamodel es))
    (h : plural entities owner name c r = .ok p r') :
    Extends es r r' ∧ p.Sound (r'.metamodel es) := by
  obtain ⟨table, keys, type, ids, index, id, r1, r2, r3, r4, r5, ht, hs, hk, hy, he, hi, hkeep, hp⟩ :=
    plural_ok h
  have htable : Extends es r r1 := ownTable_extends ht
  have hready1 := hready.grows htable.grows
  obtain ⟨hkey, hkeys, hkeyed⟩ := keyColumns_sound es hk
  have hready2 := hready1.grows hkey.grows
  obtain ⟨htype, hresolves⟩ := elementType_sound hready2 hs hy
  obtain ⟨helement, hids, hfilled⟩ := elementColumns_sound (hready2.grows htype.grows) he
  obtain ⟨hindex, hpositions⟩ := indexOf_sound es hi
  obtain ⟨hg5, hrole⟩ := keepCollection_resolves es hkeep
  -- what each part has found is still there once the collection is kept
  have hg4 := hindex.grows.trans hg5
  have hg3 := helement.grows.trans hg4
  have hg2 := htype.grows.trans hg3
  have hsound : p.Sound (r'.metamodel es) := by
    subst hp
    exact
      { keyColumns := hkeys.grows hg2.database
        keyed := hkeyed
        elementColumns := hids.grows hg4.database
        filled := hfilled
        indexColumns := fun i hi => (hpositions i hi).grows hg5.database
        elementType := hg3.resolves _ hresolves
        role := hrole }
  refine ⟨?_, hsound⟩
  exact htable.trans (hkey.trans (htype.trans (helement.trans (hindex.trans
    (keepCollection_extends hkeep hsound)))))

/-! ## Entities -/

theorem attributeOf_sound {m : AttributeMapping} {a : Attribute}
    (hready : Ready entities owner (r.metamodel es))
    (h : attributeOf entities owner m r = .ok a r') :
    Extends es r r' ∧ a.Sound (r'.metamodel es) := by
  cases a with
  | singular s => exact stored_sound hready h
  | plural p =>
    obtain ⟨c, -, hp⟩ := stored_plural h
    exact plural_sound hready hp

theorem attributes_sound : ∀ {ms : List AttributeMapping} {r r' : Registry} {as : List Attribute},
    Ready entities owner (r.metamodel es) → attributes entities owner ms r = .ok as r' →
    Extends es r r' ∧ ∀ a ∈ as, a.Sound (r'.metamodel es)
  | [], _, _, _, _, h => by
    obtain ⟨rfl, rfl⟩ := EStateM.pure_eq_ok.1 h
    exact ⟨.refl _, by simp⟩
  | m :: ms, _, _, _, hready, h => by
    simp only [attributes, EStateM.bind_eq_ok, EStateM.pure_eq_ok] at h
    obtain ⟨a, _, hm, _, _, hrest, rfl, rfl⟩ := h
    obtain ⟨hextends, hsound⟩ := attributeOf_sound hready hm
    obtain ⟨hextends', hsounds⟩ := attributes_sound (hready.grows hextends.grows) hrest
    exact ⟨hextends.trans hextends',
      List.forall_mem_cons.2 ⟨hsound.grows hextends'.grows, hsounds⟩⟩

theorem identifier_sound (es : List Entity) {p : PendingEntity} {id : SingularAttribute}
    (h : identifier p r = .ok id r') :
    Extends es r r' ∧ id.Sound (r'.metamodel es) ∧ ∀ c ∈ id.columns, c.table = p.primaryTable := by
  have hkey := (identifier_isKey h).columns
  obtain ⟨columns, r1, hv, ⟨t, -, rfl, rfl⟩ | ⟨c, -, hc, rfl⟩⟩ := identifier_ok h
  · obtain ⟨hextends, hcontains, hplaced⟩ := values_sound _ hv
    exact ⟨hextends, ⟨hcontains, fun _ _ => hkey, trivial⟩, hplaced⟩
  · obtain ⟨hextends, hcontains, hplaced⟩ := values_sound _ hv
    have hready : Ready [] (p.owner columns) (r1.metamodel es) := ⟨hcontains, by simp⟩
    obtain ⟨hcomponent, hresolves⟩ := component_sound hready hc
    exact ⟨hextends.trans hcomponent,
      ⟨hcontains.grows hcomponent.grows.database, fun _ _ => hkey, hresolves⟩, hplaced⟩

theorem identified_sound (es : List Entity) : ∀ {ps : List PendingEntity} {r r' : Registry} {bare : List Entity},
    identified ps r = .ok bare r' →
    Extends es r r' ∧ ∀ b ∈ bare, b.identifier.Sound (r'.metamodel es)
  | [], _, _, _, h => by
    obtain ⟨rfl, rfl⟩ := EStateM.pure_eq_ok.1 h
    exact ⟨.refl _, by simp⟩
  | p :: ps, _, _, _, h => by
    simp only [identified, EStateM.bind_eq_ok, EStateM.pure_eq_ok] at h
    obtain ⟨id, _, hid, _, _, hrest, rfl, rfl⟩ := h
    obtain ⟨hextends, hsound, -⟩ := identifier_sound es hid
    obtain ⟨hextends', hsounds⟩ := identified_sound es hrest
    exact ⟨hextends.trans hextends',
      List.forall_mem_cons.2 ⟨hsound.grows hextends'.grows, hsounds⟩⟩

/-- The attributes of all entities are built with the identifiers of all entities at hand. -/
theorem completed_sound : ∀ {ps : List PendingEntity} {bare out : List Entity} {r r' : Registry},
    (∀ e ∈ entities, (r.metamodel es).Resolves (.entity e.name) ∧
      e.identifier.Sound (r.metamodel es)) →
    (∀ b ∈ bare, b.identifier.Sound (r.metamodel es)) →
    completed entities ps bare r = .ok out r' →
    Extends es r r' ∧ ∀ E ∈ out, E.identifier.Sound (r'.metamodel es) ∧
      ∀ a ∈ E.attributes, a.Sound (r'.metamodel es)
  | [], _, _, _, _, _, _, h | _ :: _, [], _, _, _, _, _, h => by
    obtain ⟨rfl, rfl⟩ := EStateM.pure_eq_ok.1 h
    exact ⟨.refl _, by simp⟩
  | p :: ps, b :: bare, _, r, _, hentities, hbare, h => by
    simp only [completed, EStateM.bind_eq_ok, EStateM.pure_eq_ok] at h
    obtain ⟨as, _, has, _, _, hrest, rfl, rfl⟩ := h
    obtain ⟨hb, hbare⟩ := List.forall_mem_cons.1 hbare
    have hready : Ready entities ⟨.entity p.name, p.tables, b.identifier.columns⟩ (r.metamodel es) :=
      ⟨hb.columns, fun e he => ⟨(hentities e he).1, (hentities e he).2.columns⟩⟩
    obtain ⟨hextends, hattributes⟩ := attributes_sound hready has
    have hg := hextends.grows
    obtain ⟨hextends', hrest'⟩ := completed_sound
      (fun e he => ⟨hg.resolves _ (hentities e he).1, (hentities e he).2.grows hg⟩)
      (fun b hb => (hbare b hb).grows hg) hrest
    have hg' := hextends'.grows
    refine ⟨hextends.trans hextends', List.forall_mem_cons.2 ⟨⟨?_, fun a ha => ?_⟩, hrest'⟩⟩
    · exact (hb.grows hg).grows hg'
    · exact (hattributes a ha).grows hg'

/-! ## Parents -/

theorem identified_parents : ∀ {ps : List PendingEntity} {r r' : Registry} {bare : List Entity},
    identified ps r = .ok bare r' → bare.map (·.parent) = ps.map (·.parent)
  | [], _, _, _, h => by
    obtain ⟨rfl, -⟩ := EStateM.pure_eq_ok.1 h
    rfl
  | p :: ps, _, _, _, h => by
    simp only [identified, EStateM.bind_eq_ok, EStateM.pure_eq_ok] at h
    obtain ⟨id, _, -, _, _, hrest, rfl, -⟩ := h
    simp only [List.map_cons, identified_parents hrest]

/-- The second phase of the build adds attributes to the entities and leaves them as they are
otherwise. -/
theorem completed_keeps : ∀ {ps : List PendingEntity} {bare es : List Entity} {r r' : Registry},
    ps.length = bare.length → completed entities ps bare r = .ok es r' →
    List.Forall₂ (fun b e : Entity => ∃ attributes, e = { b with attributes }) bare es
  | [], bare, _, _, _, hl, h => by
    obtain ⟨rfl, -⟩ := EStateM.pure_eq_ok.1 h
    rw [List.length_eq_zero_iff.1 hl.symm]
    exact .nil
  | _ :: _, [], _, _, _, hl, _ => by cases hl
  | p :: ps, b :: bare, _, _, _, hl, h => by
    simp only [completed, EStateM.bind_eq_ok, EStateM.pure_eq_ok] at h
    obtain ⟨attributes, _, -, _, _, hrest, rfl, -⟩ := h
    exact .cons ⟨attributes, rfl⟩ (completed_keeps (Nat.succ.inj hl) hrest)

theorem completed_parents {ps : List PendingEntity} {bare out : List Entity} {r r' : Registry}
    (hl : ps.length = bare.length) (h : completed entities ps bare r = .ok out r') :
    out.map (·.parent) = bare.map (·.parent) := by
  have hkeeps := completed_keeps hl h
  clear hl h
  induction hkeeps with
  | nil => rfl
  | cons hb _ ih =>
    obtain ⟨_, rfl⟩ := hb
    simp only [List.map_cons, ih]

theorem orphan?_eq_none {ps : List PendingEntity} (h : orphan? ps = none) {p : PendingEntity}
    (hp : p ∈ ps) {parent : String} (hparent : p.parent = some parent) :
    ∃ q ∈ ps, q.name = parent := by
  have hfound := List.findSome?_eq_none_iff.1 h p hp
  simp only [hparent] at hfound
  split at hfound
  · rename_i hany
    simpa using hany
  · cases hfound

theorem entities_orphan? {ps : List PendingEntity} {out : List Entity}
    (h : Build.entities ps r = .ok out r') : orphan? ps = none := by
  unfold Build.entities at h
  cases ho : orphan? ps with
  | some orphan =>
    rw [ho] at h
    exact absurd h EStateM.throw_ne_ok
  | none => rfl

/-! ## Metamodels -/

/-- The columns of an entity's own attributes are on the tables at their positions. -/
theorem EntityOf.placed {db : Database} {p : PendingEntity} {E : Entity} {a : SingularAttribute}
    (h : EntityOf db entities p E) (ha : a = E.identifier ∨ .singular a ∈ E.attributes) :
    ∃ table, E.tables[a.tablePosition]? = some table ∧ ∀ id ∈ a.columns, id.table = table := by
  obtain ⟨_, _, hid, -⟩ := h.identifier
  have hposition := (identifier_isKey hid).position
  obtain ⟨-, -, hprimary⟩ := identifier_sound entities hid
  rw [h.tables]
  rcases ha with rfl | ha
  · exact ⟨p.primaryTable, by rw [hposition]; rfl, hprimary⟩
  · obtain ⟨am, -, _, _, hattribute, -⟩ := h.attributes.exists_left ha
    rcases attributeOf_stores hattribute with ⟨-, slots, -, hstores⟩ | ⟨-, hcolumns, hzero⟩
    · obtain ⟨table, ht, hholds⟩ := hstores.columns
      refine ⟨table, by rw [hstores.position]; exact ht, fun id hid => ?_⟩
      obtain ⟨_, -, hslot⟩ := hholds.exists_left hid
      exact hslot.1
    · refine ⟨p.primaryTable, by rw [hzero]; rfl, fun id hid => hprimary id ?_⟩
      rw [hcolumns] at hid
      exact hid

/-- A reference that shares the identifier of its entity has the columns of the identifier, on the
first table. -/
theorem AttributeOf.primaryKey {db : Database} {am : AttributeMapping} {a : Attribute}
    {target : String} (h : AttributeOf db entities owner am a)
    (hm : am.mappedType = .association target .primaryKeyOneToOne) :
    ∃ s, a = .singular s ∧ s.kind = .oneToOne ∧ s.attributeType = .entity target ∧
      s.columns = owner.identifierColumns ∧ s.tablePosition = 0 := by
  obtain ⟨r, r', hstored, -⟩ := h
  unfold attributeOf at hstored
  rw [hm] at hstored
  obtain ⟨_, -, ids, position, -, hv, rfl⟩ := stored_ok hstored
  obtain ⟨-, -, rfl, rfl, -⟩ | ⟨hk, -⟩ := associationColumns_ok hv
  · exact ⟨_, rfl, rfl, rfl, rfl, rfl⟩
  · exact absurd rfl hk

end Build

theorem Metamodel.exists_entity {m : Metamodel} {E : Entity} (h : E ∈ m.entities) :
    ∃ e, m.entity E.name = .ok e := by
  unfold entity entity?
  cases hf : m.entities.find? (·.name = E.name) with
  | some e => exact ⟨e, rfl⟩
  | none => simpa using List.find?_eq_none.1 hf E h

namespace Registration

variable {r : Registration} {m : Metamodel}

theorem build_parents (h : r.build = .ok m) :
    m.entities.map (·.parent) = r.pending.map (·.parent) ∧ Build.orphan? r.pending = none := by
  obtain ⟨bare, r1, r2, hi, hc, -⟩ := build_ok h
  have hlength := (Build.identified_ok hi).length_eq
  refine ⟨(Build.completed_parents hlength hc).trans (Build.identified_parents hi), ?_⟩
  unfold build at h
  split at h
  · rename_i hb
    exact Build.entities_orphan? hb
  · cases h

theorem build_entities (h : r.build = .ok m) :
    ∃ bare, List.Forall₂ (Build.EntityOf m.database bare) r.pending m.entities := by
  obtain ⟨bare, r1, r2, hi, hc, hm⟩ := build_ok h
  refine ⟨bare, ?_⟩
  rw [hm]
  exact Build.completed_ok (Build.identified_ok hi) hc

theorem build_grows (h : r.build = .ok m) : r.database.Grows m.database := by
  obtain ⟨_, r1, r2, hi, hc, hm⟩ := build_ok h
  rw [hm]
  exact (Build.identified_grows hi).database.trans (Build.completed_grows hc).database

/-- The parent of an entity has been registered, and hence built. -/
theorem build_parent (h : r.build = .ok m) {E : Entity} (hE : E ∈ m.entities) {name : String}
    (hparent : E.parent = some name) : ∃ e, m.entity name = .ok e := by
  obtain ⟨hparents, horphan⟩ := build_parents h
  have hmem : some name ∈ r.pending.map (·.parent) := by
    rw [← hparents, ← hparent]
    exact List.mem_map_of_mem hE
  obtain ⟨p, hp, hpparent⟩ := List.mem_map.1 hmem
  obtain ⟨q, hq, rfl⟩ := Build.orphan?_eq_none horphan hp hpparent
  obtain ⟨bare, hbuilt⟩ := build_entities h
  obtain ⟨E', hE', hof⟩ := hbuilt.exists_right hq
  rw [← hof.name]
  exact Metamodel.exists_entity hE'

theorem registerAll_parents : ∀ {ms : List EntityMapping} {r r' : Registration},
    r.registerAll ms = .ok r' →
    r'.pending.map (·.parent) = r.pending.map (·.parent) ++ ms.map (·.parent)
  | [], _, _, h => by
    cases h
    simp
  | em :: ms, r, _, h => by
    simp only [registerAll, Except.bind_eq_ok] at h
    obtain ⟨r1, h1, hrest⟩ := h
    have hfirst : r1.pending.map (·.parent) = r.pending.map (·.parent) ++ [em.parent] := by
      unfold register at h1
      split at h1
      · cases h1
      · split at h1
        · cases h1
        · cases h1
          simp
    rw [registerAll_parents hrest, hfirst]
    simp

/-- Whatever is kept by a build is sound at its end, and so are the attributes of the entities. -/
theorem build_keeps (h : r.build = .ok m) :
    (∀ E ∈ m.entities, E.identifier.Sound m ∧ ∀ a ∈ E.attributes, a.Sound m) ∧
    (∀ role e, m.embeddable role = .ok e → ∀ a ∈ e.attributes, a.Sound m) ∧
    ∀ role p, m.collection role = .ok p → p.Sound m := by
  obtain ⟨bare, r1, r2, hi, hc, hm⟩ := build_ok h
  have hmodel : r2.metamodel m.entities = m := hm.symm
  have hstart : Registry.Sound m.entities ⟨r.database, [], []⟩ := ⟨by simp, by simp⟩
  obtain ⟨hidentifiers, hbare⟩ := Build.identified_sound m.entities hi
  -- an entity that an attribute may refer to is one of the metamodel by its name
  have hentities : ∀ e ∈ bare, (r1.metamodel m.entities).Resolves (.entity e.name) ∧
      e.identifier.Sound (r1.metamodel m.entities) := by
    intro e he
    refine ⟨?_, hbare e he⟩
    obtain ⟨p, hp, hidentified⟩ := (Build.identified_ok hi).exists_left he
    obtain ⟨E, hE, hof⟩ := (Build.completed_ok (Build.identified_ok hi) hc).exists_right hp
    rw [hidentified.name, ← hof.name]
    exact Metamodel.exists_entity (m := r1.metamodel m.entities) hE
  obtain ⟨hattributes, hsound⟩ := Build.completed_sound hentities hbare hc
  have hend := hattributes.sound (hidentifiers.sound hstart)
  obtain ⟨hembeddables, hcollections⟩ := hend
  rw [hmodel] at hsound hembeddables hcollections
  refine ⟨hsound, fun role e he => hembeddables role e ?_, fun role p hp => hcollections role p ?_⟩
  · rw [Metamodel.embeddable_ok, hm] at he
    exact he
  · rw [Metamodel.collection_ok, hm] at hp
    exact hp

end Registration

/-- An entity is what its mapping describes: it has the same tables, and one attribute for each that
is mapped. One that shares the identifier has its columns, on the first table. -/
structure Entity.Of (m : Metamodel) (em : EntityMapping) (E : Entity) : Prop where
  name : E.name = em.name
  tables : List.Forall₂ m.database.Shows em.tables E.tables
  attributes : List.Forall₂ (fun am a => a.name = am.name ∧
    ∀ target, am.mappedType = .association target .primaryKeyOneToOne →
      ∃ s, a = .singular s ∧ s.kind = .oneToOne ∧ s.attributeType = .entity target ∧
        s.columns = E.identifier.columns ∧ s.tablePosition = 0) em.attributes E.attributes

theorem Build.EntityOf.of {m : Metamodel} {db : Database} {entities : List Entity}
    {em : EntityMapping} {p : PendingEntity} {E : Entity}
    (h : Build.EntityOf m.database entities p E) (hp : p.Of db em)
    (hg : db.Grows m.database) : E.Of m em := by
  refine ⟨h.name.trans hp.name, ?_, ?_⟩
  · rw [h.tables]
    exact (hp.grows hg).tables
  · rw [← hp.attributes]
    refine h.attributes.imp fun am a ha => ⟨?_, fun target hm => ha.primaryKey hm⟩
    obtain ⟨_, _, hstored, -⟩ := ha
    exact Build.stored_name hstored

/-- Every metamodel that is built of mappings is sound, and its entities are what the mappings
describe. -/
theorem built_metamodel_sound {ms : List EntityMapping} {r : Registration} {m : Metamodel}
    (hr : Registration.empty.registerAll ms = .ok r) (hb : r.build = .ok m) :
    m.Sound ∧ List.Forall₂ (Entity.Of m) ms m.entities ∧
      m.entities.map (·.parent) = ms.map (·.parent) := by
  obtain ⟨ps, hps, -, -, hof⟩ := Registration.registerAll_ok (r := .empty) nofun hr
  obtain ⟨bare, hbuilt⟩ := Registration.build_entities hb
  obtain ⟨hentities, hembeddables, hcollections⟩ := Registration.build_keeps hb
  have hall : List.Forall₂ (Entity.Of m) ms m.entities := by
    rw [hps] at hbuilt
    exact hof.comp (fun hp hE => hE.of hp (Registration.build_grows hb)) hbuilt
  refine ⟨⟨fun E hE => ?_, hembeddables, hcollections⟩, hall, ?_⟩
  · obtain ⟨p, -, hp⟩ := hbuilt.exists_left hE
    obtain ⟨em, -, hem⟩ := hall.exists_left hE
    obtain ⟨hidentifier, hattributes⟩ := hentities E hE
    refine ⟨by simp [Entity.tables], fun id hid => ?_, fun _ => Registration.build_parent hb hE,
      hidentifier, (Registration.build_identifier hb hE).columns, hattributes, fun _ => hp.placed⟩
    obtain ⟨_, -, table, ht, -⟩ := hem.tables.exists_left hid
    exact ⟨table, ht⟩
  · rw [(Registration.build_parents hb).1, Registration.registerAll_parents hr]
    rfl

/-- People with their passports, which share their keys, and with the stages of their lives; students
are people who are enrolled. -/
def people : List EntityMapping :=
  let long : BasicType := .standard .long
  let string : BasicType := .standard .string
  let id : IdentifierMapping := ⟨"id", ["id"], [long.sqlCode], .basic long⟩
  let address : AttributeMapping :=
    ⟨"address", 0, [some "city"], none, [string.sqlCode],
      .component ⟨"Address", [⟨"city", 0, [some "city"], none, [string.sqlCode], .basic string⟩]⟩⟩
  let passport : AttributeMapping :=
    ⟨"passport", 0, [], none, [], .association "Passport" .primaryKeyOneToOne⟩
  let stages : AttributeMapping :=
    ⟨"stages", 0, [], none, [], .collection ⟨"Person.stages", .list, some "stage", ["person_id"],
      [long.sqlCode], ⟨.basic string, [some "name"], none, [string.sqlCode]⟩,
      some ⟨.basic long, ["number"], [long.sqlCode]⟩⟩⟩
  let enrolled : AttributeMapping :=
    ⟨"enrolled", 1, [some "year"], none, [long.sqlCode], .basic long⟩
  [⟨"Person", none, ["person"], id, [address, passport, stages]⟩,
    ⟨"Passport", none, ["passport"], id, []⟩,
    ⟨"Student", some "Person", ["person", "student"], id, [address, passport, stages, enrolled]⟩]

theorem built_metamodel_sound_of_people :
    ∃ r m, Registration.empty.registerAll people = .ok r ∧ r.build = .ok m ∧
      m.Sound ∧ List.Forall₂ (Entity.Of m) people m.entities := by
  obtain ⟨m, hm⟩ := Except.exists_ok_of_isSome
    (by decide +kernel :
      (Registration.empty.registerAll people >>= Registration.build).toOption.isSome)
  obtain ⟨r, hr, hb⟩ := Except.bind_eq_ok.1 hm
  obtain ⟨hsound, hall, -⟩ := built_metamodel_sound hr hb
  exact ⟨r, m, hr, hb, hsound, hall⟩

/-- A list whose positions are said to be embeddables that nothing describes. -/
def numbered : EntityMapping :=
  let long : BasicType := .standard .long
  ⟨"E", none, ["e"], ⟨"id", ["id"], [long.sqlCode], .basic long⟩,
    [⟨"xs", 0, [], none, [], .collection ⟨"E.xs", .list, some "e_xs", ["e_id"], [long.sqlCode],
      ⟨.basic long, [some "x"], none, [long.sqlCode]⟩,
      some ⟨.embeddable "Nowhere", ["pos"], [long.sqlCode]⟩⟩⟩]⟩

/-- The type of an index is not looked up, and may lead nowhere. -/
theorem index_type_unresolved :
    ∃ r m p index, Registration.empty.registerAll [numbered] = .ok r ∧ r.build = .ok m ∧
      m.collection "E.xs" = .ok p ∧ p.index = some index ∧ ¬ m.Resolves index.indexType := by
  have hindex : ((Registration.empty.registerAll [numbered] >>= Registration.build).toOption.bind
      fun m => (m.collections.lookup "E.xs").bind fun p => p.index.map fun index =>
        (index.indexType, m.embeddables.lookup "Nowhere")) =
      some (.embeddable "Nowhere", none) := by decide +kernel
  simp only [Option.bind_eq_some_iff, Option.map_eq_some_iff, Except.toOption_eq_some,
    Except.bind_eq_ok, Prod.mk.injEq] at hindex
  obtain ⟨m, ⟨r, hr, hb⟩, p, hp, index, hi, htype, hnone⟩ := hindex
  refine ⟨r, m, p, index, hr, hb, Metamodel.collection_ok.2 hp, hi, ?_⟩
  rw [htype]
  rintro ⟨e, he⟩
  rw [Metamodel.embeddable_ok, hnone] at he
  cases he

end EntityQuery
