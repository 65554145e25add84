import EntityQuery.Proofs.DottedPaths
import EntityQuery.Proofs.TableOrder

/-!
# Joins of collections and subqueries over them

A collection is joined onto the from clause, or tested by a subquery of its own. The two go separate
ways: a subquery has the collection that the path reaches, while a reference to a joined element
finds the collection by its role, under which the first one of the hierarchy is kept; and they look
for the owner and for the group in another order.

They agree all the same (`collection_join_agrees`). The owner of a collection always has a value
(`Builds.owner_value`), so the order of the look-ups does not matter, and all collections of one
role have the same elements (`Builds.elementValue_eq`), as a role tells the entity that declares the
collection and its name there (`plainRole_inj`).
-/

set_option autoImplicit false

namespace EntityQuery

/-! ## Names without dots -/

/-- What comes behind the last dot of a role is the name. -/
theorem plainRole_inj {entity name other name' : String} (hn : '.' ∉ name.toList)
    (hn' : '.' ∉ name'.toList) (h : entity ++ "." ++ name = other ++ "." ++ name') :
    entity = other ∧ name = name' := by
  have ho : ¬ (other ++ ".").toList <+: entity.toList := by
    rintro ⟨rest, hrest⟩
    have h' := congrArg String.toList h
    have hdot : ".".toList = ['.'] := rfl
    simp only [String.toList_append, hdot, ← hrest, List.append_assoc, List.append_cancel_left_eq,
      List.cons_append, List.nil_append, List.cons.injEq, true_and] at h'
    exact hn' (h' ▸ by simp)
  obtain ⟨rfl, rfl⟩ := role_inj hn ho h
  exact ⟨rfl, rfl⟩

/-- The attributes that entities declare have names without dots. -/
def Definition.PlainAttributes (d : Definition) : Prop :=
  ∀ e ∈ d.entities, ∀ a ∈ e.attributes, '.' ∉ a.name.toList

/-! ## Elements of a mapping -/

theorem Describes.unique {columns : List (Option String)} {formulas : Option (List (Option String))}
    {codes : List SqlCode} {slots slots' : List Column} (h : Describes columns formulas codes slots)
    (h' : Describes columns formulas codes slots') : slots = slots' := by
  have hinj : Function.Injective fun c : Column =>
      (c.expression.column?, c.expression.formula?, c.sqlCode) := by
    rintro ⟨e, code⟩ ⟨e', code'⟩ heq
    cases e <;> cases e' <;>
      simp_all [ColumnExpression.column?, ColumnExpression.formula?]
  exact List.map_injective_iff.2 hinj (h.slotRow.symm.trans h'.slotRow)

/-- The elements of a collection do not depend on the number of the table that its owner is stored
in. -/
theorem Definition.MapsCollection.element_unique {d : Definition} {component : ComponentMapper}
    {context : String} {a : AttributeDefinition} {c c' : CollectionMapping}
    (h : d.MapsCollection component context a c) (h' : d.MapsCollection component context a c') :
    c.element = c'.element := by
  cases a with
  | oneToMany a => exact h.2.trans h'.2.symm
  | manyToMany a =>
    obtain ⟨-, codes, hcodes, -, helement⟩ := h
    obtain ⟨-, codes', hcodes', -, helement'⟩ := h'
    cases hcodes.symm.trans hcodes'
    exact helement.trans helement'.symm
  | elementCollection a => exact Except.ok.inj (h.2.symm.trans h'.2)
  | basic a | embedded a | any a | manyToOne a | oneToOne a => exact h.elim

/-- A collection is mapped from an attribute that an entity declares, under the role of the two
names. -/
structure Definition.Collects (d : Definition) (D : EntityDefinition) (a : AttributeDefinition)
    (c : CollectionMapping) : Prop where
  entity : D ∈ d.entities
  declared : a ∈ D.attributes
  role : c.role = D.name ++ "." ++ a.name
  mapped : d.MapsCollection d.component c.role a c

namespace Definition

variable {d : Definition} {e D : EntityDefinition} {a : AttributeDefinition} {c : CollectionMapping}

theorem Inherits.collects {am : AttributeMapping} (h : d.Inherits e D a am) (he : e ∈ d.entities)
    (hc : am.mappedType = .collection c) : d.Collects D a c := by
  obtain ⟨_, _, number, -, -, -, hmap⟩ := h.mapped
  have hrole := attributeMapping_type (componentMapper_agrees _) hmap
  rw [hc] at hrole
  refine ⟨h.line.mem he, h.declared, hrole, ?_⟩
  rw [hrole]
  exact attributeMapping_collection hmap hc

/-- An attribute is mapped to one collection, up to the table that its owner is stored in. -/
theorem Collects.unique (hv : d.Valid) (h : d.Collects D a c) {D' : EntityDefinition}
    {a' : AttributeDefinition} {c' : CollectionMapping} (h' : d.Collects D' a' c')
    (hname : D.name = D'.name) (haname : a.name = a'.name) :
    c.role = c'.role ∧ c.element = c'.element := by
  have hroles : c.role = c'.role := by rw [h.role, h'.role, hname, haname]
  cases hv.eq_of_name h.entity h'.entity hname
  obtain ⟨-, rfl⟩ := declared_unique hv h.entity (.inl rfl) (.inl rfl) h.declared h'.declared haname
  exact ⟨hroles, h.mapped.element_unique (by rw [hroles]; exact h'.mapped)⟩

end Definition

namespace Metamodel

variable {m : Metamodel} {base : String} {g : Sql.TableGroup} {p q : PluralAttribute}

theorem columnsAt_of_holds {position : Nat} {use : Sql.TableUse} {id : TableId} {slots : List Column}
    {places : List ColumnId} (type : Option DomainType) (hu : g.table? position = some use)
    (h : List.Forall₂ (m.database.Holds id) slots places) :
    m.columnsAt g position places type =
      .ok (.ofColumns (slotReferences use.variableName slots) type) := by
  simp only [columnsAt, hu, Except.bind_eq_ok, Except.pure_eq_ok]
  exact ⟨_, columnReferences_of_holds use.variableName h, rfl⟩

/-- Collections of one mapping have elements of one value, in every group. -/
theorem elementValue_eq {c c' : CollectionMapping} (hp : Build.CollectionOf m.database c p)
    (hq : Build.CollectionOf m.database c' q) (hrole : c.role = c'.role)
    (helement : c.element = c'.element) : m.elementValue p g = m.elementValue q g := by
  have hkind : p.element.kind = q.element.kind := by rw [hp.kind, hq.kind, helement]
  have htype : p.element.elementType = q.element.elementType := by
    rw [hp.type, hq.type, helement, hrole]
  have hroles : p.role = q.role := by rw [hp.role, hq.role, hrole]
  have hentity : m.elementEntity p = m.elementEntity q := by
    simp only [elementEntity, PluralAttribute.elementEntity?, htype, hroles]
  unfold elementValue
  rw [← hkind, hentity, htype, hroles]
  -- only elements that are not entities are read off columns of their own
  have columns (hk : p.element.kind ≠ .oneToMany) :
      m.columnsAt g 0 p.element.columns (some q.element.elementType) =
        m.columnsAt g 0 q.element.columns (some q.element.elementType) := by
    obtain ⟨_, slots, -, hd, hholds⟩ := hp.slots hk
    obtain ⟨_, slots', -, hd', hholds'⟩ := hq.slots (hkind ▸ hk)
    rw [← helement] at hd'
    cases hd.unique hd'
    simp only [columnsAt]
    split
    · rw [columnReferences_of_holds _ hholds, columnReferences_of_holds _ hholds']
    · rfl
  cases hk : p.element.kind with
  | basic | embeddable => exact columns (by rw [hk]; rintro ⟨⟩)
  | manyToMany | oneToMany | any => rfl

/-- The group of a collection has the table that its elements start at. -/
theorem collectionGroup_offset (h : m.collectionGroup p base = .ok g) :
    ∃ use, g.table? g.elementOffset = some use := by
  obtain ⟨-, e, -, hg⟩ | ⟨-, link, e, -, -, hg⟩ | ⟨-, table, root, -, -, rfl⟩ := collectionGroup_ok h
  · obtain ⟨hcovers, -, hoffset, -⟩ := entityGroup_ok hg
    obtain ⟨use, huse, -⟩ := hcovers.table? (show e.tables[0]? = some e.primaryTable from rfl)
    exact ⟨use, by rw [hoffset, huse]⟩
  · obtain ⟨hcovers, -, hoffset, -⟩ := linkGroup_ok hg
    obtain ⟨use, huse, -⟩ :=
      hcovers.table? (show (link :: e.tables)[1]? = some e.primaryTable from rfl)
    exact ⟨use, by rw [hoffset, huse]⟩
  · exact ⟨root, rfl⟩

end Metamodel

/-- Where a path starts: at an entity, at the elements of a collection of entities, behind the link
table if there is one, or at embeddable elements. -/
theorem Scope.start_ok {s : Scope} {m : Metamodel} {ref : GroupRef} {path : String}
    {type : ManagedType} {offset : Nat} (h : s.start m ref path = .ok (type, offset)) :
    (∃ name, ref.source = .entity name ∧ type = .entity name ∧ offset = 0) ∨
    ∃ role q, ref.source = .collection role ∧ m.collection role = .ok q ∧
      ((∃ name g, q.element.kind = .manyToMany ∧ q.element.elementType = .entity name ∧
          s.group ref = .ok g ∧ type = .entity name ∧ offset = g.elementOffset) ∨
        (∃ name, q.element.kind = .oneToMany ∧ q.element.elementType = .entity name ∧
          type = .entity name ∧ offset = 0) ∨
        ∃ elements, q.element.kind = .embeddable ∧ q.element.elementType = .embeddable elements ∧
          type = .embeddable elements ∧ offset = 0) := by
  unfold start at h
  split at h
  · rename_i name hsource
    rw [Except.ok.injEq, Prod.mk.injEq] at h
    exact .inl ⟨name, hsource, h.1.symm, h.2.symm⟩
  · rename_i role hsource
    obtain ⟨q, hq, h⟩ := Except.bind_eq_ok.1 h
    refine .inr ⟨role, q, hsource, lookedUp_ok hq, ?_⟩
    split at h
    · rename_i name hk ht
      simp only [Except.bind_eq_ok, Except.pure_eq_ok, Prod.mk.injEq] at h
      obtain ⟨g, hg, htype, hoffset⟩ := h
      exact .inl ⟨name, g, hk, ht, hg, htype.symm, hoffset.symm⟩
    · rename_i name hk ht
      rw [Except.pure_eq_ok, Prod.mk.injEq] at h
      exact .inr (.inl ⟨name, hk, ht, h.1.symm, h.2.symm⟩)
    · rename_i elements hk ht
      rw [Except.pure_eq_ok, Prod.mk.injEq] at h
      exact .inr (.inr ⟨elements, hk, ht, h.1.symm, h.2.symm⟩)
    · cases h
    · cases h

/-! ## Values that are always there -/

namespace Definition.Builds

variable {d : Definition} {m : Metamodel} {ems : List EntityMapping} {ps : List PendingEntity}
  {bare : List Entity} {r r1 r2 : Registry} {base : String} {g : Sql.TableGroup} {E : Entity}
  {p q : PluralAttribute}

theorem identifier_value (h : d.Builds m ems ps bare r r1 r2) {name : String}
    (hE : m.entity name = .ok E) {position : Nat} {use : Sql.TableUse}
    (hu : g.table? position = some use) (type : Option DomainType) :
    ∃ v, m.columnsAt g position E.identifier.columns type = .ok v := by
  obtain ⟨_, _, _, -, -, -, -, -, -, hstores⟩ := h.entity_tables hE
  obtain ⟨_, -, hholds⟩ := hstores.columns
  exact ⟨_, Metamodel.columnsAt_of_holds type hu hholds⟩

/-- The elements of a collection have a value in its group. -/
theorem element_value (h : d.Builds m ems ps bare r r1 r2) (hE : E ∈ m.entities)
    (hp : .plural p ∈ E.attributes) (hg : m.collectionGroup p base = .ok g) :
    ∃ v, m.elementValue p g = .ok v := by
  obtain ⟨use, huse⟩ := Metamodel.collectionGroup_offset hg
  have entity {e : Entity} (he : m.elementEntity p = .ok e) : ∃ v, (do
      let element ← m.elementEntity p
      m.columnsAt g g.elementOffset element.identifier.columns (some (.entity element.name))) =
        .ok v := by
    obtain ⟨v, hv⟩ := h.identifier_value (Metamodel.elementEntity_ok he).2 huse (some (.entity e.name))
    exact ⟨v, Except.bind_eq_ok.2 ⟨e, he, hv⟩⟩
  unfold Metamodel.elementValue
  obtain ⟨hk, e, he, -⟩ | ⟨hk, _, e, -, he, -⟩ | ⟨hk, _, root, -, -, rfl⟩ :=
    Metamodel.collectionGroup_ok hg
  · rw [hk]
    exact entity he
  · rw [hk]
    exact entity he
  · obtain ⟨_, _, _, _, c, -, -, -, -, hof, -⟩ := h.collectionOf hE hp
    obtain ⟨_, slots, -, -, hholds⟩ := hof.slots (by rcases hk with hk | hk <;> rw [hk] <;> rintro ⟨⟩)
    rcases hk with hk | hk <;>
    · rw [hk]
      exact ⟨_, Metamodel.columnsAt_of_holds _ huse hholds⟩

/-- The from-element that a collection is reached from has a value. -/
theorem owner_value (h : d.Builds m ems ps bare r r1 r2) {s : Scope} {stem : String}
    {joins : List Nat} {elements : List (Option String)} (hs : s.Registers m stem joins elements)
    {path : AttributePath} {x : ResolvedPath} (hx : s.resolve m path = .ok x)
    (hp : x.target = .attributeOf (.plural p)) : ∃ owner, s.elementValue m x.ref = .ok owner := by
  obtain ⟨type, hr, hstart, hw, -⟩ := Scope.resolve_ok hx
  rw [hp] at hw
  obtain ⟨entity, name, rfl, -, hf⟩ := h.walk_plural hw
  obtain ⟨E, hE, -, -⟩ := Metamodel.find_plural hf
  obtain ⟨g, hg, -, hstands⟩ := hs.stands _ (FromIndex.mem_of_find? (FromIndex.resolve_ok.1 hr))
  simp only at hg hstands
  have hgroup := Scope.group_ok.2 hg
  unfold Scope.elementValue
  -- elements that have collections are entities
  have element {role : String} {q : PluralAttribute} (hsource : x.ref.source = .collection role)
      (hq : m.collection role = .ok q) (htype : q.element.elementType = .entity entity)
      (hkind : q.element.kind = .manyToMany ∨ q.element.kind = .oneToMany) :
      ∃ v, m.elementValue q g = .ok v := by
    rw [hsource] at hstands
    obtain ⟨_, _, _, -, -, hcollection⟩ := hstands
    obtain ⟨use, huse⟩ := Metamodel.collectionGroup_offset hcollection
    obtain ⟨v, hv⟩ := h.identifier_value hE huse (some (.entity E.name))
    have he : m.elementEntity q = .ok E := by
      simp only [Metamodel.elementEntity, PluralAttribute.elementEntity?, htype, hE]
    refine ⟨v, ?_⟩
    unfold Metamodel.elementValue
    rcases hkind with hk | hk <;>
    · rw [hk]
      exact Except.bind_eq_ok.2 ⟨E, he, hv⟩
  rcases Scope.start_ok hstart with ⟨_, hsource, htype, -⟩ | ⟨role, q, hsource, hq, hcases⟩
  · cases htype
    rw [hsource] at hstands ⊢
    obtain ⟨E', hE', hentity⟩ := hstands
    cases hE.symm.trans hE'
    obtain ⟨use, huse, -⟩ :=
      (Metamodel.entityGroup_ok hentity).1.table? (show E.tables[0]? = some E.primaryTable from rfl)
    obtain ⟨v, hv⟩ := h.identifier_value hE huse (some (.entity E.name))
    exact ⟨v, Except.bind_eq_ok.2 ⟨g, hgroup, Except.bind_eq_ok.2
      ⟨E, lookedUp_of hE, lookedUp_of hv⟩⟩⟩
  · obtain ⟨v, hv⟩ : ∃ v, m.elementValue q g = .ok v := by
      obtain ⟨_, _, hk, ht, -, htype, -⟩ | ⟨_, hk, ht, htype, -⟩ | ⟨_, -, -, htype, -⟩ := hcases
      · cases htype
        exact element hsource hq ht (.inl hk)
      · cases htype
        exact element hsource hq ht (.inr hk)
      · cases htype
    rw [hsource]
    exact ⟨v, Except.bind_eq_ok.2 ⟨g, hgroup, Except.bind_eq_ok.2
      ⟨q, lookedUp_of hq, lookedUp_of hv⟩⟩⟩

/-! ## One collection under a role -/

/-- A collection of an entity is one that some entity declares. -/
theorem declares_collection (h : d.Builds m ems ps bare r r1 r2) (hE : E ∈ m.entities)
    (hp : .plural p ∈ E.attributes) :
    ∃ D a c, d.Collects D a c ∧ p.name = a.name ∧ Build.CollectionOf m.database c p := by
  obtain ⟨e, D, a, am, c, he, -, hin, hc, hof, hname⟩ := h.collectionOf hE hp
  exact ⟨D, a, c, hin.collects he hc, hname, hof⟩

/-- Collections of one role are the same one of the definition, and have the same elements. -/
theorem collection_unique (h : d.Builds m ems ps bare r r1 r2) (hd : d.PlainAttributes)
    {E' : Entity} (hE : E ∈ m.entities) (hp : .plural p ∈ E.attributes) (hE' : E' ∈ m.entities)
    (hq : .plural q ∈ E'.attributes) (hrole : p.role = q.role) :
    ∃ D a c c', d.Collects D a c ∧ Build.CollectionOf m.database c p ∧
      Build.CollectionOf m.database c' q ∧ c.role = c'.role ∧ c.element = c'.element := by
  obtain ⟨D, a, c, hc, -, hof⟩ := h.declares_collection hE hp
  obtain ⟨D', a', c', hc', -, hof'⟩ := h.declares_collection hE' hq
  obtain ⟨hname, haname⟩ := plainRole_inj (hd D hc.entity a hc.declared)
    (hd D' hc'.entity a' hc'.declared) (by rw [← hc.role, ← hc'.role, ← hof.role, hrole, hof'.role])
  exact ⟨D, a, c, c', hc, hof, hof', hc.unique h.valid hc' hname haname⟩

/-- The collection that is found under the role of another one has elements of the same value. -/
theorem elementValue_eq (h : d.Builds m ems ps bare r r1 r2) (hd : d.PlainAttributes)
    (hE : E ∈ m.entities) (hp : .plural p ∈ E.attributes) (hq : m.collection p.role = .ok q) :
    m.elementValue q g = m.elementValue p g := by
  obtain ⟨hrole, E', hE', hq'⟩ := h.collection hq
  obtain ⟨_, _, c, c', -, hof, hof', hroles, helement⟩ :=
    h.collection_unique hd hE' hq' hE hp hrole
  exact Metamodel.elementValue_eq hof hof' hroles helement

end Definition.Builds

/-! ## A group and the subqueries over it -/

theorem Sql.Expression.parts_ofColumns : ∀ columns : List Sql.ColumnReference,
    (ofColumns columns none).parts = columns.map .column
  | [] | _ :: _ :: _ => rfl
  | [reference] => by simp [ofColumns, parts]

/-- What a subquery over a collection selects, in its group. -/
def Selected.value (m : Metamodel) (p : PluralAttribute) (g : Sql.TableGroup) :
    Selected → Except MetamodelError Sql.Expression
  | .key => m.keyValue p g
  | .element => m.elementValue p g

theorem collectionQuery_of {m : Metamodel} {p : PluralAttribute} {owner : Sql.Expression}
    {base : String} {g : Sql.TableGroup} {tie : Option Sql.Predicate} (selected : Selected)
    {v : Sql.Expression} (hg : m.collectionGroup p base = .ok g)
    (ht : m.keyPredicate p g owner = .ok tie) (hv : selected.value m p g = .ok v) :
    collectionQuery m p owner selected base =
      .ok ⟨false, [⟨.expression v, none⟩], ⟨[⟨g, []⟩]⟩, tie, []⟩ := by
  simp only [collectionQuery, Except.bind_eq_ok]
  refine ⟨g, hg, tie, ht, ?_⟩
  cases selected <;> exact Except.bind_eq_ok.2 ⟨v, hv, rfl⟩

/-- The group of a collection with what ties it to an owner, or the error that there is none. -/
def Metamodel.tiedGroup (m : Metamodel) (p : PluralAttribute) (owner : Sql.Expression)
    (base : String) : Except MetamodelError (Sql.TableGroup × Option Sql.Predicate) := do
  let g ← m.collectionGroup p base
  return (g, ← m.keyPredicate p g owner)

theorem Metamodel.tiedGroup_ok {m : Metamodel} {p : PluralAttribute} {owner : Sql.Expression}
    {base : String} {g : Sql.TableGroup} {tie : Option Sql.Predicate}
    (h : m.tiedGroup p owner base = .ok (g, tie)) :
    m.collectionGroup p base = .ok g ∧ m.keyPredicate p g owner = .ok tie ∧
      ∃ keys, m.keyValue p g = .ok (.ofColumns keys none) ∧ keys.length = owner.parts.length ∧
        tie = Sql.Predicate.equality (keys.map .column) owner.parts := by
  simp only [tiedGroup, Except.bind_eq_ok, Except.pure_eq_ok, Prod.mk.injEq] at h
  obtain ⟨_, hg, _, ht, rfl, rfl⟩ := h
  refine ⟨hg, ht, ?_⟩
  simp only [keyPredicate, keyValue, Except.bind_eq_ok, Except.pure_eq_ok] at ht
  obtain ⟨_, ⟨keys, hkeys, rfl⟩, ht⟩ := ht
  rw [matching, Sql.Expression.parts_ofColumns] at ht
  split at ht
  · rename_i hlength
    cases ht
    exact ⟨keys, Except.bind_eq_ok.2 ⟨keys, hkeys, rfl⟩, by simpa using hlength, rfl⟩
  · cases ht

theorem collectionQuery_error {m : Metamodel} {p : PluralAttribute} {owner : Sql.Expression}
    {base : String} {e : MetamodelError} (h : m.tiedGroup p owner base = .error e)
    (selected : Selected) : collectionQuery m p owner selected base = .error e := by
  unfold Metamodel.tiedGroup at h
  unfold collectionQuery
  cases hg : m.collectionGroup p base with
  | error e' =>
    rw [hg] at h
    cases h
    rfl
  | ok g =>
    rw [hg] at h
    cases ht : m.keyPredicate p g owner with
    | error e' =>
      simp only [bind, Except.bind, ht] at h ⊢
      cases h
      rfl
    | ok tie =>
      simp only [bind, Except.bind, ht] at h
      cases h

namespace Scope

variable {s : Scope} {m : Metamodel} {path : AttributePath} {x : ResolvedPath} {p : PluralAttribute}
  {owner : Sql.Expression}

/-- A collection whose name has no dot is joined by that name. -/
theorem joinedGroup_plural {start name : String} (base : String) (hn : '.' ∉ name.toList)
    (hx : s.resolve m ⟨start, [name]⟩ = .ok x) (hp : x.target = .attributeOf (.plural p))
    (ho : s.elementValue m x.ref = .ok owner) :
    s.joinedGroup m (.attributeOf start name) base =
      match m.tiedGroup p owner base with
      | .ok (g, tie) => .ok ⟨g, .collection p.role, tie⟩
      | .error e => .error (.metamodel e) := by
  simp only [joinedGroup, splitDots_of_notMem hn, attributeGroup, hx, hp, pluralGroup, ho, bind,
    Except.bind, Metamodel.tiedGroup]
  cases hg : m.collectionGroup p base with
  | error e => rfl
  | ok g =>
    cases ht : m.keyPredicate p g owner <;>
      simp [MonadLift.monadLift, monadLift, liftM, MonadLiftT.monadLift, lookedUp, ht, pure, Except.pure]

theorem owned_plural (hx : s.resolve m path = .ok x) (hp : x.target = .attributeOf (.plural p))
    (ho : s.elementValue m x.ref = .ok owner) : s.owned m path = .ok (p, owner) := by
  simp only [owned, Except.bind_eq_ok]
  refine ⟨x, hx, ?_⟩
  rw [hp]
  exact Except.bind_eq_ok.2 ⟨owner, ho, rfl⟩

theorem subquery_eq (ho : s.owned m path = .ok (p, owner)) (selected : Selected) (supply : Supply) :
    s.subquery m path selected supply =
      match collectionQuery m p owner selected supply.aliasBases.next.1 with
      | .ok q => .ok q { supply with aliasBases := supply.aliasBases.next.2 }
      | .error e => .error (.metamodel e) { supply with aliasBases := supply.aliasBases.next.2 } := by
  simp only [subquery, ho, settled, bind, EStateM.bind, pure, EStateM.pure, newAliasBase]
  cases collectionQuery m p owner selected supply.aliasBases.next.1 <;> rfl

end Scope

/-! ## A join, run -/

theorem groupAt?_joinedOnto {spaces : List Sql.TableSpace} {space : Nat} (j : Sql.GroupJoin)
    (h : spaces.length = space + 1) :
    groupAt? (joinedOnto space j spaces) ⟨space, .join (Step.joinCount spaces space)⟩ =
        some j.group ∧
      tieAt? (joinedOnto space j spaces) ⟨space, .join (Step.joinCount spaces space)⟩ =
        j.predicate := by
  obtain ⟨before, s, hspaces, rfl, hjoined⟩ := joinedOnto_last j h
  have hcount : Step.joinCount spaces before.length = s.joins.length := by
    simp [Step.joinCount, hspaces]
  rw [hjoined, hcount]
  exact ⟨by simp [groupAt?_append], by rw [tieAt?_join, if_pos rfl]⟩

namespace Step

variable {m : Metamodel} {pass : Pass} {j : Join} {joinType : Sql.JoinType} {space : Nat}
  {base : String} {bases : AliasBases}

theorem join_error {e : LoweringError} (ht : j.joinType.lower = .ok joinType)
    (hl : pass.scope.spaces.length = space + 1)
    (hb : pass.supply.aliasBases.baseFor (nameFor j.aliasName pass.generated) = (base, bases))
    (hj : pass.scope.joinedGroup m j.source base = .error e) :
    ∃ pass', join m j pass = .error e pass' := by
  simp only [join, bind, EStateM.bind, lookup, ht, openSpace, hl, aliasFor_eq, aliasBaseFor, hb, hj]
  exact ⟨_, rfl⟩

/-- A join whose group can be built is registered under its name, if that is free. -/
theorem join_of {joined : JoinedGroup} (ht : j.joinType.lower = .ok joinType)
    (hl : pass.scope.spaces.length = space + 1)
    (hb : pass.supply.aliasBases.baseFor (nameFor j.aliasName pass.generated) = (base, bases))
    (hj : pass.scope.joinedGroup m j.source base = .ok joined)
    (hn : pass.scope.index.find? (nameFor j.aliasName pass.generated) = none) :
    ∃ pass' l, join m j pass = .ok () pass' ∧
      pass'.scope.index.find? (nameFor j.aliasName pass.generated) = some ⟨l, base, joined.source⟩ ∧
      groupAt? pass'.scope.spaces l = some joined.group ∧
      tieAt? pass'.scope.spaces l = joined.predicate := by
  obtain ⟨index, hi⟩ : ∃ index, pass.scope.index.add (nameFor j.aliasName pass.generated)
      ⟨⟨space, .join (joinCount pass.scope.spaces space)⟩, base, joined.source⟩ = .ok index :=
    ⟨_, by rw [FromIndex.add, hn]⟩
  obtain ⟨hgroup, htie⟩ :=
    groupAt?_joinedOnto ⟨joinType, joined.group, joined.predicate, j.fetch⟩ hl
  have hfound : index.find? (nameFor j.aliasName pass.generated) =
      some ⟨⟨space, .join (joinCount pass.scope.spaces space)⟩, base, joined.source⟩ :=
    FromIndex.find?_of_mem ((FromIndex.add_ok hi).2.mem_iff.2 List.mem_cons_self)
  have hrun : join m j pass = .ok () ⟨{ pass.supply with aliasBases := bases },
      ⟨index, joinedOnto space ⟨joinType, joined.group, joined.predicate, j.fetch⟩
        pass.scope.spaces⟩,
      generatedAfter j.aliasName pass.generated,
      pass.pending ++ (j.condition.map
        (⟨space, joinCount pass.scope.spaces space, ·⟩)).toList⟩ := by
    refine EStateM.bind_eq_ok.2 ⟨joinType, pass, by simp only [lookup, ht], ?_⟩
    refine EStateM.bind_eq_ok.2 ⟨space, pass, by simp only [openSpace, hl], ?_⟩
    refine EStateM.bind_eq_ok.2 ⟨_, _, aliasFor_eq j.aliasName pass, ?_⟩
    refine EStateM.bind_eq_ok.2 ⟨base, _, by simp only [aliasBaseFor, hb]; rfl, ?_⟩
    refine EStateM.bind_eq_ok.2 ⟨joined, _, by simp only [lookup, hj]; rfl, ?_⟩
    refine EStateM.bind_eq_ok.2 ⟨_, _, EStateM.get_eq_ok.2 ⟨rfl, rfl⟩, ?_⟩
    refine EStateM.bind_eq_ok.2 ⟨(), _, by simp only [register, hi]; rfl, ?_⟩
    refine EStateM.bind_eq_ok.2 ⟨(), _, rfl, ?_⟩
    cases j.condition with
    | none => exact EStateM.pure_eq_ok.2 ⟨rfl, by simp [joinedOnto]⟩
    | some condition => exact EStateM.modify_eq_ok.2 rfl
  exact ⟨_, _, hrun, hfound, hgroup, htie⟩

end Step

/-! ## Alias bases of a registered from clause -/

theorem Scope.Answers.assigned {s : Scope} {m : Metamodel} {bases bases' : AliasBases}
    {ts : List CollectionTest} {qs : List Sql.Query} (h : s.Answers m bases ts qs bases') :
    bases'.assigned = bases.assigned := by
  induction h with
  | nil => rfl
  | cons _ _ ih => exact ih

/-- No name that is free in the index of a registered from clause has an alias base. -/
theorem Step.fromClause_unassigned {m : Metamodel} {settings : Settings} {f : FromClause} {u : Unit}
    {pass : Pass} (h : fromClause m f (.start settings) = .ok u pass) {name : String}
    (hn : pass.scope.index.find? name = none) : pass.supply.aliasBases.assigned? name = none := by
  obtain ⟨-, _, p, hs, hp⟩ := fromClause_ok h
  have hkeeps : pass.scope.index = p.scope.index ∧
      pass.supply.aliasBases.assigned = p.supply.aliasBases.assigned := by
    refine EStateM.forM_inv (fun _ pass => pass.scope.index = p.scope.index ∧
      pass.supply.aliasBases.assigned = p.supply.aliasBases.assigned) ?_ ⟨rfl, rfl⟩ hp
    rintro _ q _ _ _ ⟨hindex, hassigned⟩ hq
    obtain ⟨_, _, _, hc, -, rfl⟩ := pendingCondition_ok hq
    exact ⟨hindex, (Scope.predicate_answers hc).assigned.trans hassigned⟩
  have hr := spaces_registers (Pass.registers_start settings m) hs
  rw [AliasBases.assigned?, hkeeps.2, ← AliasBases.assigned?, ← Option.not_isSome_iff_eq_none,
    hr.assigned]
  intro hmem
  obtain ⟨⟨_, ref⟩, he, rfl⟩ := List.mem_map.1 hmem
  rw [hkeeps.1, FromIndex.find?_of_mem he] at hn
  cases hn

/-! ## Joins and tests -/

namespace Scope

variable {s : Scope} {m : Metamodel} {path : AttributePath} {value : Expression} {v : Sql.Expression}
  {supply supply' : Supply}

theorem isEmpty_eq (negated : Bool) : s.predicate m (.isEmpty path negated) supply =
    match s.subquery m path .key supply with
    | .ok q t => .ok (.nonempty q (!negated)) t
    | .error e t => .error e t := by
  simp only [predicate_eq, predicateOfParts, bind, EStateM.bind, pure, EStateM.pure]
  cases s.subquery m path .key supply <;> rfl

theorem memberOf_eq (hv : s.expression m value supply = .ok v supply') (negated : Bool) :
    s.predicate m (.memberOf value path negated) supply =
      match s.subquery m path .element supply' with
      | .ok q t => .ok (.among v q negated) t
      | .error e t => .error e t := by
  simp only [predicate_eq, predicateOfParts, bind, EStateM.bind, hv, pure, EStateM.pure]
  cases s.subquery m path .element supply' <;> rfl

end Scope

/-- A collection is joined exactly when it can be tested, and otherwise for the same error. The
joined group is that of the subqueries and is tied to the owner by their condition, under the same
alias base. The test for emptiness selects the key columns that the condition compares with the
owner, and the test for a member what a reference to the joined element stands for. -/
theorem collection_join_agrees {d : Definition} {m : Metamodel} {settings : Settings}
    {f : FromClause} {u : Unit} {pass : Pass} {path : AttributePath} {x : ResolvedPath}
    {p : PluralAttribute} {j : Join} {joinType : Sql.JoinType} {value : Expression}
    {v : Sql.Expression} {supply : Supply} (hm : d.metamodel = .ok m) (hd : d.PlainAttributes)
    (hf : Step.fromClause m f (.start settings) = .ok u pass)
    (hx : pass.scope.resolve m path = .ok x) (hp : x.target = .attributeOf (.plural p))
    (hj : j.source = .attributeOf path.start (".".intercalate path.segments))
    (ht : j.joinType.lower = .ok joinType)
    (hn : pass.scope.index.find? (nameFor j.aliasName pass.generated) = none)
    (hv : pass.scope.expression m value pass.supply = .ok v supply) (negated : Bool) :
    (∃ error pass' s s', Step.join m j pass = .error error pass' ∧
      pass.scope.predicate m (.isEmpty path negated) pass.supply = .error error s ∧
      pass.scope.predicate m (.memberOf value path negated) pass.supply = .error error s') ∨
    ∃ pass' ref g tie keys owner element s s', Step.join m j pass = .ok () pass' ∧
      pass'.scope.index.find? (nameFor j.aliasName pass.generated) = some ref ∧
      groupAt? pass'.scope.spaces ref.locator = some g ∧
      tieAt? pass'.scope.spaces ref.locator = tie ∧
      tie = Sql.Predicate.equality (keys.map .column) owner ∧ keys.length = owner.length ∧
      pass.scope.predicate m (.isEmpty path negated) pass.supply =
        .ok (.nonempty ⟨false, [⟨.expression (.ofColumns keys none), none⟩], ⟨[⟨g, []⟩]⟩, tie, []⟩
          (!negated)) s ∧
      pass.scope.predicate m (.memberOf value path negated) pass.supply =
        .ok (.among v ⟨false, [⟨.expression element, none⟩], ⟨[⟨g, []⟩]⟩, tie, []⟩ negated) s' ∧
      ∀ t, pass'.scope.expression m (.element (nameFor j.aliasName pass.generated)) t =
        .ok element t := by
  obtain ⟨ems, ps, bare, r, r1, r2, hb⟩ := Definition.builds hm
  have hregisters := Step.fromClause_registers (Pass.registers_start settings m) hf
  obtain ⟨owner, ho⟩ := hb.owner_value hregisters hx hp
  have howned := Scope.owned_plural hx hp ho
  -- the path is one name, which has no dot
  obtain ⟨type, hr, -, hw, -⟩ := Scope.resolve_ok hx
  rw [hp] at hw
  obtain ⟨entity, name, -, hsegments, hfind⟩ := hb.walk_plural hw
  obtain ⟨E, hE, hmem, hname⟩ := Metamodel.find_plural hfind
  obtain ⟨-, -, -, -, -, -, -, -, -, hEm⟩ := hb.entity_of hE
  obtain ⟨D, a, _, hcollects, haname, -⟩ := hb.declares_collection hEm hmem
  have hdot : '.' ∉ name.toList := by
    rw [← hname, haname]
    exact hd D hcollects.entity a hcollects.declared
  obtain ⟨start, segments⟩ := path
  obtain rfl : segments = [name] := hsegments
  have hjoined := Scope.joinedGroup_plural pass.supply.aliasBases.next.1 hdot hx hp ho
  have hbase := AliasBases.baseFor_new (Step.fromClause_unassigned hf hn)
  have hsource : j.source = .attributeOf start name := hj
  rw [← hsource] at hjoined
  -- the place of the owner is in a space
  obtain ⟨space, hspace⟩ : ∃ space, pass.scope.spaces.length = space + 1 := by
    obtain ⟨g, hg, -⟩ := hregisters.stands _ (FromIndex.mem_of_find? (FromIndex.resolve_ok.1 hr))
    refine Nat.exists_eq_add_one.2 (List.length_pos_iff.2 fun hnil => ?_)
    simp [hnil, groupAt?] at hg
  rw [Scope.isEmpty_eq, Scope.memberOf_eq hv, Scope.subquery_eq howned, Scope.subquery_eq howned,
    Scope.expression_keeps hv]
  cases htied : m.tiedGroup p owner pass.supply.aliasBases.next.1 with
  | error e =>
    rw [htied] at hjoined
    obtain ⟨pass', hrun⟩ := Step.join_error ht hspace hbase hjoined
    rw [collectionQuery_error htied, collectionQuery_error htied]
    exact .inl ⟨_, pass', _, _, hrun, rfl, rfl⟩
  | ok group =>
    obtain ⟨g, tie⟩ := group
    rw [htied] at hjoined
    obtain ⟨hg, htie, keys, hkeys, hlength, heq⟩ := Metamodel.tiedGroup_ok htied
    obtain ⟨element, helement⟩ := hb.element_value hEm hmem hg
    obtain ⟨pass', l, hrun, hfound, hat, hties⟩ := Step.join_of ht hspace hbase hjoined hn
    rw [collectionQuery_of .key hg htie hkeys,
      collectionQuery_of .element hg htie helement]
    refine .inr ⟨pass', _, g, tie, keys, owner.parts, element, _, _, hrun, hfound, hat, hties, heq,
      hlength, rfl, rfl, fun t => ?_⟩
    -- the element is found by the role of the collection
    obtain ⟨q, hq⟩ := hb.exists_collection hEm hmem
    rw [← hb.elementValue_eq hd hEm hmem hq] at helement
    rw [Scope.expression_eq]
    refine settled_ok.2 ⟨Except.bind_eq_ok.2 ⟨_, FromIndex.resolve_ok.2 hfound, ?_⟩, rfl⟩
    exact Except.bind_eq_ok.2 ⟨g, Scope.group_ok.2 hat, Except.bind_eq_ok.2
      ⟨q, lookedUp_of hq, lookedUp_of helement⟩⟩

/-- People with their clubs. -/
def memberships : FromClause :=
  ⟨[⟨⟨"Person", some "p"⟩, [⟨some "c", .inner, .attributeOf "p" "clubs", false, none⟩]⟩]⟩

/-- The officers of these clubs, joined under a name that is made up. -/
def officersOfClubs : Join := ⟨none, .left, .attributeOf "c" "officers", true, none⟩

theorem officers_join_agrees : ∃ m pass pass' ref g tie keys owner v element s s',
    clubs.metamodel = .ok m ∧ Step.fromClause m memberships (.start .default) = .ok () pass ∧
    Step.join m officersOfClubs pass = .ok () pass' ∧
    pass'.scope.index.find? "<generated_1>" = some ref ∧
    groupAt? pass'.scope.spaces ref.locator = some g ∧ tieAt? pass'.scope.spaces ref.locator = tie ∧
    tie = Sql.Predicate.equality (keys.map .column) owner ∧ keys.length = owner.length ∧
    pass.scope.predicate m (.isEmpty ⟨"c", ["officers"]⟩ false) pass.supply =
      .ok (.nonempty ⟨false, [⟨.expression (.ofColumns keys none), none⟩], ⟨[⟨g, []⟩]⟩, tie, []⟩ true)
        s ∧
    pass.scope.predicate m (.memberOf (.parameter (.named "who") none) ⟨"c", ["officers"]⟩ false)
        pass.supply =
      .ok (.among v ⟨false, [⟨.expression element, none⟩], ⟨[⟨g, []⟩]⟩, tie, []⟩ false) s' ∧
    ∀ t, pass'.scope.expression m (.element "<generated_1>") t = .ok element t := by
  have hrun : (clubs.metamodel.toOption.bind fun m =>
      ((do Step.fromClause m memberships; get : Step Pass).run' (.start .default)).bind fun pass =>
      (pass.scope.resolve m ⟨"c", ["officers"]⟩).toOption.bind fun x =>
      (m.collection "Club.officers").toOption.map fun p =>
        (decide (x.target = .attributeOf (.plural p)), pass.generated,
          pass.scope.index.find? "<generated_1>", ((Step.join m officersOfClubs).run' pass).isSome)) =
        some (true, 0, none, true) := by
    decide +kernel
  obtain ⟨m, hm, hrun⟩ := Option.bind_eq_some_iff.1 hrun
  obtain ⟨pass, hf, hrun⟩ := Option.bind_eq_some_iff.1 hrun
  obtain ⟨x, hx, hrun⟩ := Option.bind_eq_some_iff.1 hrun
  obtain ⟨p, -, hrun⟩ := Option.map_eq_some_iff.1 hrun
  simp only [Prod.mk.injEq, decide_eq_true_eq] at hrun
  obtain ⟨hp, hgenerated, hfree, hjoin⟩ := hrun
  obtain ⟨_, hf⟩ := EStateM.exists_ok_of_run' hf
  obtain ⟨u, _, hf, hget⟩ := EStateM.bind_eq_ok.1 hf
  rw [(EStateM.get_eq_ok.1 hget).1] at hf
  have hname : nameFor officersOfClubs.aliasName pass.generated = "<generated_1>" := by
    rw [hgenerated]
    rfl
  have hplain : clubs.PlainAttributes := by
    unfold Definition.PlainAttributes
    decide +kernel
  have hvalue : pass.scope.expression m (.parameter (.named "who") none) pass.supply = .ok _ _ := rfl
  have hagrees := collection_join_agrees (Except.toOption_eq_some.1 hm) hplain hf
    (Except.toOption_eq_some.1 hx) hp (j := officersOfClubs) rfl rfl (by rw [hname, hfree]) hvalue
    false
  rw [hname] at hagrees
  obtain ⟨_, _, _, _, herror, -⟩ | ⟨pass', ref, g, tie, keys, owner, element, s, s', hagrees⟩ := hagrees
  · obtain ⟨_, hjoin⟩ := Option.isSome_iff_exists.1 hjoin
    obtain ⟨_, hjoin⟩ := EStateM.exists_ok_of_run' hjoin
    cases herror.symm.trans hjoin
  · exact ⟨m, pass, pass', ref, g, tie, keys, owner, _, element, s, s',
      Except.toOption_eq_some.1 hm, hf, hagrees⟩

end EntityQuery
