import EntityQuery.Proofs.CollectionLowering

/-!
# The collection that is kept under a role

A collection is built once for every entity of the line that has it, and the first result is kept
under its role. `registered_collection_agrees`: whatever entity a collection is taken from, the one
that is kept under its role agrees with it in everything that is read off a collection. Their tables
may be two, as every mention of a derived table is a table of its own, but they have the same
expression, and the columns of the two have the same texts and types.

The reason is that the mapping of a collection does not depend on the entity it is made for
(`attributeMapping_number`), and that a build puts into the collection what the mapping says and
nothing of the owner but its name (`Build.Laid`).
-/

set_option autoImplicit false

namespace EntityQuery

/-! ## Agreement -/

/-- The columns at two lists of places are the same, one by one. -/
def Metamodel.SameSlots (m : Metamodel) (ids ids' : List ColumnId) : Prop :=
  ∃ slots, m.HasColumns ids slots ∧ m.HasColumns ids' slots

/-- The tables at two places have the same expression. -/
def Metamodel.SameExpression (m : Metamodel) (id id' : TableId) : Prop :=
  ∃ table table', m.database.table? id = some table ∧ m.database.table? id' = some table' ∧
    table.reference.expression = table'.reference.expression

/-- Two collections are read in the same way: they differ at most in the entity that they are
attributes of, and in the places of their table and columns. -/
structure PluralAttribute.Agrees (m : Metamodel) (c p : PluralAttribute) : Prop where
  name : c.name = p.name
  role : c.role = p.role
  collectionClass : c.collectionClass = p.collectionClass
  elementClass : c.element.kind = p.element.kind
  elementType : c.element.elementType = p.element.elementType
  table : Option.Rel m.SameExpression c.collectionTable p.collectionTable
  keyColumns : m.SameSlots c.keyColumns p.keyColumns
  elementColumns : m.SameSlots c.element.columns p.element.columns
  index : Option.Rel (fun i j => i.indexType = j.indexType ∧ m.SameSlots i.columns j.columns)
    c.index p.index

theorem Metamodel.hasColumns_of_holds {m : Metamodel} {id : TableId} {slots : List Column}
    {ids : List ColumnId} (h : List.Forall₂ (m.database.Holds id) slots ids) :
    m.HasColumns ids slots :=
  h.flip.imp fun _ _ hh => Database.Holds.column? hh

theorem Metamodel.sameSlots_of_contains {m : Metamodel} {ids : List ColumnId}
    (h : m.database.Contains ids) : m.SameSlots ids ids := by
  obtain ⟨slots, hslots⟩ := List.exists_forall₂ h
  exact ⟨slots, hslots, hslots⟩

/-! ## One mapping for all entities -/

namespace Definition

variable {d : Definition} {component : ComponentMapper} {owner : String} {n : Nat}
  {a : AttributeDefinition} {am : AttributeMapping}

/-- What has no parts is mapped in the same way whatever table it is stored in. A collection is
among it. -/
theorem attributeMapping_number (hx : ∀ x, a ≠ .embedded x)
    (h : d.attributeMapping component owner n a = .ok am) (n' : Nat) :
    d.attributeMapping component owner n' a = .ok { am with tableNumber := n' } := by
  cases a with
  | basic a =>
    simp only [attributeMapping, basicMapping, Except.bind_eq_ok] at h ⊢
    obtain ⟨type, ht, h⟩ := h
    refine ⟨type, ht, ?_⟩
    cases hf : a.formula <;> simp only [hf] at h ⊢ <;> cases h <;> rfl
  | embedded x => exact absurd rfl (hx x)
  | any a =>
    simp only [attributeMapping, anyMapping, Except.bind_eq_ok, Except.pure_eq_ok] at h ⊢
    obtain ⟨type, ht, rfl⟩ := h
    exact ⟨type, ht, rfl⟩
  | manyToOne a | oneToOne a =>
    simp only [attributeMapping, toOneMapping, Except.bind_eq_ok] at h ⊢
    obtain ⟨kind, hk, codes, hcodes, h⟩ := h
    refine ⟨kind, hk, codes, hcodes, ?_⟩
    split at h
    · rename_i hempty
      rw [if_pos hempty]
      cases h
      rfl
    · rename_i hempty
      rw [if_neg hempty]
      obtain ⟨hlength, h⟩ := Except.guard_eq_ok.1 h
      cases h
      exact Except.guard_eq_ok.2 ⟨hlength, rfl⟩
  | oneToMany a =>
    simp only [attributeMapping, oneToManyMapping, Except.bind_eq_ok, Except.pure_eq_ok] at h ⊢
    obtain ⟨target, ht, codes, hcodes, index, hi, rfl⟩ := h
    exact ⟨target, ht, codes, hcodes, index, hi, rfl⟩
  | manyToMany a =>
    simp only [attributeMapping, manyToManyMapping, Except.bind_eq_ok, Except.guard_eq_ok,
      Except.pure_eq_ok] at h ⊢
    obtain ⟨elements, he, hlength, codes, hcodes, index, hi, rfl⟩ := h
    exact ⟨elements, he, hlength, codes, hcodes, index, hi, rfl⟩
  | elementCollection a =>
    simp only [attributeMapping, elementCollectionMapping, Except.bind_eq_ok,
      Except.pure_eq_ok] at h ⊢
    obtain ⟨element, he, codes, hcodes, index, hi, rfl⟩ := h
    exact ⟨element, he, codes, hcodes, index, hi, rfl⟩

/-- The collections of one role are one declared collection, mapped in one way. -/
theorem Inherits.collection_eq (hv : d.Valid) (hd : d.PlainAttributes)
    {e e' D D' : EntityDefinition} {a' : AttributeDefinition} {am' : AttributeMapping}
    {c c' : CollectionMapping} (he : e ∈ d.entities) (he' : e' ∈ d.entities)
    (h : d.Inherits e D a am) (h' : d.Inherits e' D' a' am') (hc : am.mappedType = .collection c)
    (hc' : am'.mappedType = .collection c') (hrole : c.role = c'.role) : a = a' ∧ c = c' := by
  have hcollects := h.collects he hc
  have hcollects' := h'.collects he' hc'
  obtain ⟨hname, haname⟩ := plainRole_inj (hd D hcollects.entity a h.declared)
    (hd D' hcollects'.entity a' h'.declared) (by rw [← hcollects.role, ← hcollects'.role, hrole])
  cases hv.eq_of_name hcollects.entity hcollects'.entity hname
  obtain ⟨-, rfl⟩ := declared_unique hv hcollects.entity (.inl rfl) (.inl rfl) h.declared
    h'.declared haname
  obtain ⟨_, _, n, -, -, -, hmap⟩ := h.mapped
  obtain ⟨_, _, n', -, -, -, hmap'⟩ := h'.mapped
  refine ⟨rfl, ?_⟩
  have hx : ∀ x, a ≠ .embedded x := by
    rintro x rfl
    cases hcollects.mapped.isPlural
  cases (attributeMapping_number hx hmap n').symm.trans hmap'
  exact MappedType.collection.inj (hc.symm.trans hc')

end Definition

/-! ## What a build puts into a collection -/

namespace Build

variable {entities : List Entity} {owner : Owner} {name : String} {c : CollectionMapping}
  {p : PluralAttribute} {r r' : Registry}

/-- Places are those of named columns of some table. -/
def Names (db : Database) (columns : List String) (codes : List SqlCode) (ids : List ColumnId) :
    Prop :=
  ∃ id slots, Describes (columns.map some) none codes slots ∧ List.Forall₂ (db.Holds id) slots ids

theorem Names.grows {db db' : Database} {columns : List String} {codes : List SqlCode}
    {ids : List ColumnId} (h : Names db columns codes ids) (hg : db.Grows db') :
    Names db' columns codes ids := by
  obtain ⟨id, slots, hd, hs⟩ := h
  exact ⟨id, slots, hd, hs.imp fun _ _ hh => hh.grows hg⟩

theorem Names.sameSlots {m : Metamodel} {columns : List String} {codes : List SqlCode}
    {ids ids' : List ColumnId} (h : Names m.database columns codes ids)
    (h' : Names m.database columns codes ids') : m.SameSlots ids ids' := by
  obtain ⟨_, slots, hd, hs⟩ := h
  obtain ⟨_, slots', hd', hs'⟩ := h'
  cases hd.unique hd'
  exact ⟨slots, Metamodel.hasColumns_of_holds hs, Metamodel.hasColumns_of_holds hs'⟩

theorem namedValues_names {role : String} {table : TableId} {columns : List String}
    {codes : List SqlCode} {ids : List ColumnId}
    (h : database (Database.namedValues role table columns codes) r = .ok ids r') :
    Names r'.database columns codes ids := by
  obtain ⟨db, hvalues, rfl⟩ := database_ok h
  obtain ⟨slots, hd⟩ := Database.values_describes hvalues
  exact ⟨table, slots, hd, Database.values_hold hd hvalues⟩

/-- An index is the one that is mapped. -/
def IndexOf (db : Database) (im : IndexMapping) (i : Index) : Prop :=
  i.indexType = im.indexType ∧ Names db im.columns im.sqlCodes i.columns

theorem IndexOf.agree {m : Metamodel} {index : Option IndexMapping} {i j : Option Index}
    (h : Option.Rel (IndexOf m.database) index i) (h' : Option.Rel (IndexOf m.database) index j) :
    Option.Rel (fun i j => i.indexType = j.indexType ∧ m.SameSlots i.columns j.columns) i j := by
  cases h with
  | none =>
    cases h'
    exact .none
  | some h =>
    cases h' with
    | some h' => exact .some ⟨h.1.trans h'.1.symm, h.2.sameSlots h'.2⟩

/-- What a collection has of its mapping: its class, the places of its key and of its index, and
elements without columns of their own at those of the identifier of their entity. -/
structure Laid (db : Database) (entities : List Entity) (c : CollectionMapping)
    (p : PluralAttribute) : Prop where
  collectionClass : p.collectionClass = c.shape.collectionClass
  tableless : c.collectionTable = none → p.collectionTable = none
  keys : Names db c.keyColumns c.keySqlCodes p.keyColumns
  elements : ∀ target, c.element = ⟨.entity target false, [], none, []⟩ →
    ∃ b, known entities target = .ok b ∧ p.element.columns = b.identifier.columns
  index : Option.Rel (IndexOf db) c.index p.index

theorem indexOf_laid {role : String} {table : TableId} {collection : CollectionClass}
    {index : Option IndexMapping} {found : Option Index}
    (h : indexOf role table collection index r = .ok found r') {db : Database}
    (hg : r'.database.Grows db) : Option.Rel (IndexOf db) index found := by
  unfold indexOf at h
  cases index with
  | some im =>
    simp only [EStateM.bind_eq_ok, EStateM.pure_eq_ok] at h
    obtain ⟨ids, _, hv, rfl, rfl⟩ := h
    exact .some ⟨rfl, (namedValues_names hv).grows hg⟩
  | none =>
    cases collection with
    | list | map => exact absurd h EStateM.throw_ne_ok
    | bag | set =>
      obtain ⟨rfl, -⟩ := EStateM.pure_eq_ok.1 h
      exact .none

theorem plural_laid (h : plural entities owner name c r = .ok p r') {db : Database}
    (hg : r'.database.Grows db) : Laid db entities c p := by
  obtain ⟨table, keys, type, ids, index, id, r1, r2, r3, r4, r5, ht, -, hk, hy, he, hi, hkeep, rfl⟩ :=
    plural_ok h
  have hg5 := (keepCollection_grows (P := fun _ => True) hkeep).database.trans hg
  have hg4 := (indexOf_grows (P := fun _ => True) hi).database.trans hg5
  have hg3 := (elementColumns_grows (P := fun _ => True) he).database.trans hg4
  have hg2 := (elementType_grows hy).database.trans hg3
  refine ⟨rfl, fun hnone => ?_, (namedValues_names (keyColumns_ok hk)).grows hg2,
    fun target helement => plural_elements h helement, indexOf_laid hi hg5⟩
  rw [hnone] at ht
  exact (EStateM.pure_eq_ok.1 ht).1.symm

end Build

namespace Definition.Builds

variable {d : Definition} {m : Metamodel} {ems : List EntityMapping} {ps : List PendingEntity}
  {bare : List Entity} {r r1 r2 : Registry} {E E' : Entity} {p q : PluralAttribute}

theorem entity_eq (h : d.Builds m ems ps bare r r1 r2) (hE : E ∈ m.entities) :
    m.entity E.name = .ok E := by
  have hnames : (m.entities.map (·.name)).Nodup := h.names ▸ h.valid.names
  rw [Metamodel.entity, Metamodel.entity?, List.find?_of_nodup hnames hE]

/-- A collection of an entity is what the mapping of a declared collection says. -/
theorem collection_laid (h : d.Builds m ems ps bare r r1 r2) (hd : d.PlainAttributes)
    (hE : E ∈ m.entities) (hp : .plural p ∈ E.attributes) :
    ∃ e D a am c, e ∈ d.entities ∧ d.Inherits e D a am ∧ am.mappedType = .collection c ∧
      p.name = a.name ∧ Build.CollectionOf m.database c p ∧ Build.Laid m.database bare c p := by
  obtain ⟨e, D, a, am, c, he, -, hin, hc, hof, hname⟩ := h.collectionOf hE hp
  obtain ⟨e', D', a', am', c', _, _, _, he', -, hin', hc', hplural, hgrows⟩ :=
    h.plural_built (h.entity_eq hE) hp
  have hlaid := Build.plural_laid hplural hgrows
  have hrole : p.role = c'.role := by
    obtain ⟨_, _, _, _, _, _, _, _, _, _, _, -, -, -, -, -, -, -, rfl⟩ := Build.plural_ok hplural
    rfl
  obtain ⟨rfl, rfl⟩ := hin.collection_eq h.valid hd he he' hin' hc hc' (hof.role.symm.trans hrole)
  exact ⟨e, D, a, am, c, he, hin, hc, hname, hof, hlaid⟩

/-- Collections of one role agree. -/
theorem collections_agree (h : d.Builds m ems ps bare r r1 r2) (hd : d.PlainAttributes)
    (hE : E ∈ m.entities) (hp : .plural p ∈ E.attributes) (hE' : E' ∈ m.entities)
    (hq : .plural q ∈ E'.attributes) (hsound : p.Sound m) (hrole : p.role = q.role) :
    p.Agrees m q := by
  obtain ⟨e, D, a, am, c, he, hin, hc, hname, hof, hlaid⟩ := h.collection_laid hd hE hp
  obtain ⟨e', D', a', am', c', he', hin', hc', hname', hof', hlaid'⟩ := h.collection_laid hd hE' hq
  obtain ⟨rfl, rfl⟩ := hin.collection_eq h.valid hd he he' hin' hc hc'
    (by rw [← hof.role, hrole, hof'.role])
  have hclass : p.element.kind = q.element.kind := by rw [hof.kind, hof'.kind]
  refine ⟨hname.trans hname'.symm, hrole, hlaid.collectionClass.trans hlaid'.collectionClass.symm,
    hclass, hof.type.trans hof'.type.symm, ?_, hlaid.keys.sameSlots hlaid'.keys, ?_,
    Build.IndexOf.agree hlaid.index hlaid'.index⟩
  · cases hx : c.collectionTable with
    | none =>
      rw [hlaid.tableless hx, hlaid'.tableless hx]
      exact .none
    | some expression =>
      obtain ⟨id, hid, table, ht, htext⟩ := hof.table expression hx
      obtain ⟨id', hid', table', ht', htext'⟩ := hof'.table expression hx
      rw [hid, hid']
      exact .some ⟨table, table', ht, ht', htext.trans htext'.symm⟩
  · by_cases hk : p.element.kind = .oneToMany
    · -- elements that refer back are known by the identifier of their entity
      obtain ⟨_, _, _, -, -, -, hmapped⟩ := hin.mapped
      have helement := MapsCollection.elementClass (attributeMapping_collection hmapped hc)
      rw [← hof.kind, hk] at helement
      obtain ⟨target, helement⟩ := helement
      obtain ⟨b, hb, hcolumns⟩ := hlaid.elements target helement
      obtain ⟨b', hb', hcolumns'⟩ := hlaid'.elements target helement
      cases hb.symm.trans hb'
      rw [hcolumns', ← hcolumns]
      exact Metamodel.sameSlots_of_contains hsound.elementColumns
    · obtain ⟨_, slots, -, hslots, hholds⟩ := hof.slots hk
      obtain ⟨_, slots', -, hslots', hholds'⟩ := hof'.slots (hclass ▸ hk)
      cases hslots.unique hslots'
      exact ⟨slots, Metamodel.hasColumns_of_holds hholds, Metamodel.hasColumns_of_holds hholds'⟩

end Definition.Builds

/-- The collection that is kept under the role of a collection of an entity agrees with it, although
it may have been built for another entity: in its names, its classes, the types of its elements and
of its index, the expression of its table, and column by column in its key, its elements and its
index. -/
theorem registered_collection_agrees {d : Definition} {m : Metamodel} {E : Entity}
    {p : PluralAttribute} (h : d.metamodel = .ok m) (hd : d.PlainAttributes) (hE : E ∈ m.entities)
    (hp : .plural p ∈ E.attributes) : ∃ c, m.collection p.role = .ok c ∧ c.Agrees m p := by
  obtain ⟨ems, ps, bare, r, r1, r2, hb⟩ := Definition.builds h
  obtain ⟨c, hc⟩ := hb.exists_collection hE hp
  obtain ⟨hrole, E', hE', hc'⟩ := hb.collection hc
  have hsound := (Definition.complete h).collections hc
  exact ⟨c, hc, hb.collections_agree hd hE' hc' hE hp hsound hrole⟩

/-- Depots, and yards among them, which have their shifts in the order of a derived table. -/
def depots : Definition :=
  ⟨none,
   [⟨"Depot", none, some "depot", [], none, some ⟨"id", [], none, none⟩, none, []⟩,
    ⟨"Yard", some "Depot", some "yard", [], none, none, none,
      [.elementCollection ⟨"shifts", "select * from shift", ["yard_id"],
        .basic "string" none none none, .list, some ⟨["place"], "integer"⟩⟩]⟩],
   []⟩

/-- The shifts of yards are kept as those of depots, on a table of their own. -/
theorem registered_shifts_agree : ∃ m E p c, depots.metamodel = .ok m ∧ m.entity "Yard" = .ok E ∧
    .plural p ∈ E.attributes ∧ m.collection "Yard.shifts" = .ok c ∧ c.Agrees m p ∧
    c.declaringType = .entity "Depot" ∧ c.collectionTable ≠ p.collectionTable := by
  have hrun : (depots.metamodel.toOption.bind fun m =>
      (m.find (.entity "Yard") "shifts").toOption.bind fun found =>
      found.plural?.bind fun p => (m.collection "Yard.shifts").toOption.map fun c =>
        (p.role, c.declaringType, decide (c.collectionTable = p.collectionTable))) =
        some ("Yard.shifts", .entity "Depot", false) := by
    decide +kernel
  obtain ⟨m, hm, hrun⟩ := Option.bind_eq_some_iff.1 hrun
  obtain ⟨found, hfound, hrun⟩ := Option.bind_eq_some_iff.1 hrun
  obtain ⟨p, hp, hrun⟩ := Option.bind_eq_some_iff.1 hrun
  obtain ⟨c, hc, hrun⟩ := Option.map_eq_some_iff.1 hrun
  simp only [Prod.mk.injEq, decide_eq_false_iff_not] at hrun
  obtain ⟨hrole, hdeclaring, hne⟩ := hrun
  have hm := Except.toOption_eq_some.1 hm
  have hc := Except.toOption_eq_some.1 hc
  obtain rfl : found = .plural p := by
    cases found with
    | singular s => cases hp
    | plural q => exact congrArg Attribute.plural (Option.some.inj hp)
  obtain ⟨E, hE, hmem, -⟩ := Metamodel.find_plural (Except.toOption_eq_some.1 hfound)
  have hplain : depots.PlainAttributes := by
    unfold Definition.PlainAttributes
    decide +kernel
  obtain ⟨c', hc', hagrees⟩ :=
    registered_collection_agrees hm hplain (Metamodel.mem_of_entity hE) hmem
  rw [hrole] at hc'
  cases hc.symm.trans hc'
  exact ⟨m, E, p, c, hm, hE, hmem, hc, hagrees, hdeclaring, hne⟩

end EntityQuery
