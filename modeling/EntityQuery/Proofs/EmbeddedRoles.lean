import EntityQuery.Proofs.CollectionJoins

/-!
# Embeddables by their roles

A role tells what its embeddable has been built for, where names are plain (`PlainRoles`):
attributes and identifiers of entities have names without dots, and no entity's name continues
another's behind a dot. Then the embeddables under the role of an attribute are that of the
attribute and those nested in it (`Under.unique`), whichever are built first.

`Metamodel.Embeds m base P` says that the attributes of these embeddables satisfy `P`.
`Builds.embeds_entity` is for embedded attributes and identifiers, whose parts are stored in the
tables of the entity. `Builds.embeds_element` is for the elements of a collection, whose parts are
stored in slots of the collection table or share the key of an entity.
-/

set_option autoImplicit false

namespace EntityQuery

/-! ## Roles under a role -/

theorem Under.of_under {base name role : String} (h : Under (base ++ "." ++ name) role) :
    Under base role := .inr h.of_child

theorem Under.child {base role : String} (h : Under base role) (name : String) :
    Under base (role ++ "." ++ name) := by
  obtain rfl | ⟨rest, rfl⟩ := h
  · exact .inr ⟨name, rfl⟩
  · exact .inr ⟨rest ++ "." ++ name, by simp only [String.append_assoc]⟩

/-- Up to its first dot, a role that is a name without dots or continues one is that name. -/
theorem takeWhile_of_under {name role : String} (hn : '.' ∉ name.toList) (h : Under name role) :
    role.toList.takeWhile (· ≠ '.') = name.toList := by
  have hplain : ∀ c ∈ name.toList, decide (c ≠ '.') = true := by
    intro c hc
    exact decide_eq_true fun heq => hn (heq ▸ hc)
  obtain rfl | ⟨rest, rfl⟩ := h
  · have htake : (role.toList ++ []).takeWhile (· ≠ '.') = role.toList ++ [].takeWhile (· ≠ '.') :=
      List.takeWhile_append_of_pos hplain
    simpa using htake
  · have hdot : ".".toList = ['.'] := rfl
    rw [String.toList_append, String.toList_append, hdot, List.append_assoc,
      List.takeWhile_append_of_pos hplain]
    simp

/-- Roles that begin with entities of which none continues the other behind a dot begin with the
same one. -/
theorem entity_of_role {entity rest other rest' : String}
    (ho : ¬ (other ++ ".").toList <+: entity.toList)
    (ho' : ¬ (entity ++ ".").toList <+: other.toList)
    (h : entity ++ "." ++ rest = other ++ "." ++ rest') : entity = other ∧ rest = rest' := by
  have h' := congrArg String.toList h
  have hdot : ".".toList = ['.'] := rfl
  simp only [String.toList_append, hdot, List.append_assoc, List.singleton_append] at h' ho ho'
  rcases List.append_eq_append_iff.1 h' with ⟨as, hother, hrest⟩ | ⟨bs, hentity, hrest⟩
  · cases as with
    | nil =>
      simp only [List.append_nil, List.nil_append, List.cons.injEq, true_and] at hother hrest
      exact ⟨String.toList_inj.1 hother.symm, String.toList_inj.1 hrest⟩
    | cons c as =>
      simp only [List.cons_append, List.cons.injEq] at hrest
      exact absurd ⟨as, by rw [hother, hrest.1]; simp⟩ ho'
  · cases bs with
    | nil =>
      simp only [List.append_nil, List.nil_append, List.cons.injEq, true_and] at hentity hrest
      exact ⟨String.toList_inj.1 hentity, String.toList_inj.1 hrest.symm⟩
    | cons c bs =>
      simp only [List.cons_append, List.cons.injEq] at hrest
      exact absurd ⟨bs, by rw [hentity, hrest.1]; simp⟩ ho

/-- A role belongs to one attribute of one entity. -/
theorem Under.unique {entity name other name' role : String} (hn : '.' ∉ name.toList)
    (hn' : '.' ∉ name'.toList) (ho : ¬ (other ++ ".").toList <+: entity.toList)
    (ho' : ¬ (entity ++ ".").toList <+: other.toList) (h : Under (entity ++ "." ++ name) role)
    (h' : Under (other ++ "." ++ name') role) : entity = other ∧ name = name' := by
  have split {entity name : String} (h : Under (entity ++ "." ++ name) role) :
      ∃ rest, role = entity ++ "." ++ rest ∧ Under name rest := by
    obtain rfl | ⟨rest, rfl⟩ := h
    · exact ⟨name, rfl, .inl rfl⟩
    · exact ⟨name ++ "." ++ rest, by simp only [String.append_assoc], .inr ⟨rest, rfl⟩⟩
  obtain ⟨rest, hrole, hrest⟩ := split h
  obtain ⟨rest', hrole', hrest'⟩ := split h'
  obtain ⟨rfl, rfl⟩ := entity_of_role ho ho' (hrole.symm.trans hrole')
  refine ⟨rfl, String.toList_inj.1 ?_⟩
  rw [← takeWhile_of_under hn hrest, takeWhile_of_under hn' hrest']

/-- Roles are made of plain names: attributes and identifiers of entities have no dots in their
names, and no entity's name continues another's behind a dot. -/
structure Definition.PlainRoles (d : Definition) : Prop where
  attributes : d.PlainAttributes
  identifiers : ∀ e ∈ d.entities, ∀ id ∈ e.identifier, '.' ∉ id.name.toList
  entities : ∀ e ∈ d.entities, ∀ o ∈ d.entities, ¬ (o.name ++ ".").toList <+: e.name.toList

theorem Definition.PlainRoles.unique {d : Definition} (hd : d.PlainRoles) {e o : EntityDefinition}
    (he : e ∈ d.entities) (ho : o ∈ d.entities) {name name' role : String} (hn : '.' ∉ name.toList)
    (hn' : '.' ∉ name'.toList) (h : Under (e.name ++ "." ++ name) role)
    (h' : Under (o.name ++ "." ++ name') role) : e.name = o.name ∧ name = name' :=
  Under.unique hn hn' (hd.entities e he o ho) (hd.entities o ho e he) h h'

/-! ## Parts of embeddables -/

namespace Build

variable {entities : List Entity} {owner : Owner} {r : Registry} {db : Database}

/-- An attribute is stored in one of the tables, at its place among them. -/
def StoredIn (db : Database) (tables : List TableId) (s : SingularAttribute) : Prop :=
  ∃ n slots, Stores db tables n slots s

/-- How an attribute of an embeddable is stored: in slots of its component on a table of the owner,
or in the key of the owner. -/
inductive Sits (db : Database) (owner : Owner) (c : ComponentMapping) (s : SingularAttribute) : Prop
  | own {n : Nat} {slots : List Column} (stores : Stores db owner.tables n slots s)
      (within : ∀ slot ∈ slots, HasSlot c slot)
  | shared (kind : s.kind = .oneToOne) (columns : s.columns = owner.identifierColumns)
      (position : s.tablePosition = 0)

theorem attributeOf_embedded {m : AttributeMapping} {s : SingularAttribute} {r' : Registry}
    (h : attributeOf entities owner m r = .ok (.singular s) r') (hk : s.kind = .embedded) :
    (∃ c, m.mappedType = .component c) ∧ s.attributeType = .embeddable (owner.roleOf m.name) := by
  unfold attributeOf at h
  cases hm : m.mappedType with
  | component c =>
    rw [hm] at h
    obtain ⟨_, -, _, _, -, -, heq⟩ := stored_ok h
    cases heq
    exact ⟨⟨c, rfl⟩, rfl⟩
  | basic t | any t =>
    rw [hm] at h
    obtain ⟨_, -, _, -, heq⟩ := stored_ok h
    cases heq
    cases hk
  | collection c =>
    rw [hm] at h
    obtain ⟨_, -, _, -, heq⟩ := stored_ok h
    cases heq
  | association target kind =>
    rw [hm] at h
    obtain ⟨_, -, _, _, -, -, heq⟩ := stored_ok h
    cases heq
    cases kind <;> cases hk

/-- The attributes of an embeddable that is kept. -/
theorem Kept.sits {role : String} {c : ComponentMapping} {e : Embeddable} {a : Attribute}
    (h : Kept r entities owner role c) (he : r.embeddables.lookup role = some e)
    (ha : a ∈ e.attributes) :
    ∃ s, a = .singular s ∧ Sits r.database owner c s ∧
      (s.kind = .embedded → s.attributeType = .embeddable (role ++ "." ++ s.name)) := by
  obtain ⟨m, hm, s, r0, r1, rfl, hs, hg⟩ := h.attribute he ha
  refine ⟨s, rfl, ?_, fun hk => ?_⟩
  · obtain ⟨ho, slots, hd, hstores⟩ | ⟨hkind, hcolumns, hposition⟩ := attributeOf_stores hs
    · exact .own (hstores.grows hg) fun slot hslot => .own hm ho hd hslot
    · exact .shared hkind hcolumns hposition
  · have hname : s.name = m.name := stored_name hs
    rw [hname]
    exact (attributeOf_embedded hs hk).2

/-- The key of an entity is stored in its first table. -/
theorem Identified.stores {p : PendingEntity} {b : Entity} (h : Identified db p b) :
    ∃ slots, Stores db p.tables 0 slots b.identifier := by
  obtain ⟨_, _, hid, hg⟩ := h.identifier
  exact ⟨_, (identifier_stores hid).grows hg⟩

theorem Identified.columns_unique {p : PendingEntity} {b b' : Entity} (h : Identified db p b)
    (h' : Identified db p b') : b.identifier.columns = b'.identifier.columns := by
  obtain ⟨_, _, hid, hg⟩ := h.identifier
  obtain ⟨_, _, hid', hg'⟩ := h'.identifier
  exact identifier_columns_unique hid hg hid' hg'

theorem AttributeOf.collection {m : AttributeMapping} {a : Attribute} {c : CollectionMapping}
    (h : AttributeOf db entities owner m a) (hc : m.mappedType = .collection c) :
    ∃ p, a = .plural p ∧ p.role = c.role := by
  obtain ⟨_, _, hs, -⟩ := h
  rw [attributeOf, hc] at hs
  obtain ⟨p, -, _, hp, rfl⟩ := stored_ok hs
  obtain ⟨_, _, _, _, _, _, _, _, _, _, _, -, -, -, -, -, -, -, rfl⟩ := plural_ok hp
  exact ⟨_, rfl, rfl⟩

theorem Identified.shares {p : PendingEntity} {b : Entity} (h : Identified db p b)
    {s : SingularAttribute} (hc : s.columns = b.identifier.columns) (hp : s.tablePosition = 0) :
    StoredIn db p.tables s := by
  obtain ⟨slots, hstores⟩ := h.stores
  exact ⟨0, slots, hp, by rw [hc]; exact hstores.columns⟩

end Build

/-- The embeddables under a role have singular attributes that satisfy `P`, and those that are
embedded lead to embeddables under the role again. -/
def Metamodel.Embeds (m : Metamodel) (base : String) (P : SingularAttribute → Prop) : Prop :=
  ∀ role e, Under base role → m.embeddable role = .ok e → ∀ a ∈ e.attributes, ∃ s, a = .singular s ∧
    P s ∧ (s.kind = .embedded → s.attributeType = .embeddable (role ++ "." ++ s.name))

/-! ## Embeddables of a definition -/

/-- A name without dots that no collection which the entity declares has. -/
structure EntityDefinition.SingularName (e : EntityDefinition) (name : String) : Prop where
  plain : '.' ∉ name.toList
  singular : ∀ a ∈ e.attributes, a.name = name → a.isPlural = false

namespace Definition

theorem MapsCollection.isPlural {d : Definition} {component : ComponentMapper} {context : String}
    {a : AttributeDefinition} {c : CollectionMapping} (h : d.MapsCollection component context a c) :
    a.isPlural = true := by
  cases a with
  | oneToMany a | manyToMany a | elementCollection a => rfl
  | basic a | embedded a | any a | manyToOne a | oneToOne a => exact h.elim

/-- The elements of a collection are under the role of the attribute. -/
theorem Collects.under {d : Definition} {D : EntityDefinition} {a : AttributeDefinition}
    {c : CollectionMapping} (h : d.Collects D a c) {role : String}
    (hu : Under (Build.elementRole c.role) role) : Under (D.name ++ "." ++ a.name) role := by
  rw [Build.elementRole_eq, h.role] at hu
  exact hu.of_under

namespace PlainRoles

variable {d : Definition} {e D : EntityDefinition} {a : AttributeDefinition} {c : CollectionMapping}

theorem plain (hd : d.PlainRoles) (h : d.Collects D a c) : '.' ∉ a.name.toList :=
  hd.attributes D h.entity a h.declared

/-- The role of a collection is that of no other name. -/
theorem not_collects (hd : d.PlainRoles) (hv : d.Valid) (he : e ∈ d.entities) {name role : String}
    (hn : e.SingularName name) (hu : Under (e.name ++ "." ++ name) role)
    (hu' : Under (D.name ++ "." ++ a.name) role) : ¬ d.Collects D a c := by
  intro h
  obtain ⟨heD, hname⟩ := hd.unique he h.entity hn.plain (hd.plain h) hu hu'
  cases hv.eq_of_name he h.entity heD
  have hplural := h.mapped.isPlural
  rw [hn.singular a h.declared hname.symm] at hplural
  cases hplural

end PlainRoles

namespace Builds

variable {d : Definition} {m : Metamodel} {ems : List EntityMapping} {ps : List PendingEntity}
  {bare : List Entity} {r r1 r2 : Registry} {e D : EntityDefinition} {a : AttributeDefinition}
  {p : PendingEntity} {c : CollectionMapping} {element : ComponentMapping}

theorem database_eq (h : d.Builds m ems ps bare r r1 r2) : m.database = r2.database := by
  rw [h.result]

/-- The name of an identifier has no dots, and no attribute has it. -/
theorem identifier_singularName (h : d.Builds m ems ps bare r r1 r2) (hd : d.PlainRoles)
    {em : EntityMapping} (he : e ∈ d.entities) (hmap : d.entityMapping e = .ok em) {db : Database}
    (hof : p.Of db em) : e.SingularName p.identifier.name := by
  obtain ⟨id, -, hroot, hname, -⟩ := identifierMapping_ok (entityMapping_ok hmap).2.2.1
  obtain ⟨root, hr, hid⟩ := rootIdentifier_ok hroot
  rw [hof.identifier, hname]
  refine ⟨hd.identifiers root (root_ok h.valid he hr).1 id hid, fun a ha heq => ?_⟩
  exact absurd heq (declared_ne_identifier h.valid he hr hid (.inl rfl) ha)

/-- The name of an embedded attribute has no dots, and no other attribute has it. -/
theorem embedded_singularName (h : d.Builds m ems ps bare r r1 r2) (hd : d.PlainRoles)
    (he : e ∈ d.entities) {am : AttributeMapping} (hin : d.Inherits e D a am)
    {component : ComponentMapping} (hc : am.mappedType = .component component) :
    e.SingularName am.name := by
  obtain ⟨_, _, _, -, -, -, hm⟩ := hin.mapped
  have htype := attributeMapping_type (componentMapper_agrees _) hm
  rw [hc] at htype
  obtain ⟨x, rfl, -⟩ := htype
  rw [hin.name]
  refine ⟨hd.attributes D (hin.line.mem he) _ hin.declared, fun a' ha' heq => ?_⟩
  obtain ⟨-, rfl⟩ := declared_unique h.valid he (.inl rfl) hin.line ha' hin.declared heq
  rfl

/-- What an embeddable has been built for: for a name of an entity that is no collection, on the
tables of the entity, or for the elements of a collection, on one table. -/
theorem origin_named (h : d.Builds m ems ps bare r r1 r2) (hd : d.PlainRoles) {role : String}
    {emb : Embeddable} (hemb : m.embeddable role = .ok emb) :
    ∃ p ∈ ps, ∃ e ∈ d.entities, p.name = e.name ∧ ∃ b, Build.Identified m.database p b ∧
      ((∃ entities name c, e.SingularName name ∧ Under (e.name ++ "." ++ name) role ∧
          Build.Kept r2 entities (p.owner b.identifier.columns) role c) ∨
        ∃ D a am c element c' id, d.Collects D a c ∧ am ∈ p.attributes ∧
          am.mappedType = .collection c ∧ c.element.elementType = .component element ∧
          Build.Nests (Build.elementRole c.role) element role c' ∧
          Build.Kept r2 bare { p.owner b.identifier.columns with tables := [id] } role c') := by
  obtain ⟨p, hp, ho⟩ := h.origin hemb
  obtain ⟨e, em, he, hmap, hof, hname⟩ := h.pending hp
  refine ⟨p, hp, e, he, hname, ?_⟩
  rcases ho with ⟨b, c, c', hb, -, hnests, hkept⟩ | ⟨b, hb, am, ham, ho⟩
  · rw [h.database_eq]
    exact ⟨b, hb, .inl ⟨[], p.identifier.name, c', h.identifier_singularName hd he hmap hof,
      hname ▸ hnests.under, hkept⟩⟩
  · refine ⟨b, hb, ?_⟩
    have hmem := ham
    rw [hof.attributes] at hmem
    obtain ⟨D, a, hin⟩ := inherits_of_mem h.valid he hmap hmem
    cases ho with
    | embedded hc hnests hkept =>
      exact .inl ⟨bare, am.name, _, h.embedded_singularName hd he hin hc, hname ▸ hnests.under,
        hkept⟩
    | @element c element c' id hc helement hnests hkept =>
      exact .inr ⟨D, a, am, c, element, c', id, hin.collects he hc, ham, hc, helement, hnests,
        hkept⟩

/-- What is embedded under a name of an entity that is no collection is stored in the tables of the
entity. -/
theorem embeds_entity (h : d.Builds m ems ps bare r r1 r2) (hd : d.PlainRoles) (he : e ∈ d.entities)
    (hp : p ∈ ps) (hpe : p.name = e.name) {name : String} (hn : e.SingularName name) :
    m.Embeds (e.name ++ "." ++ name) (Build.StoredIn m.database p.tables) := by
  intro role emb hu hemb a ha
  obtain ⟨q, hq, o, ho, hqo, b, hb, ⟨entities, name', c, hn', hu', hkept⟩ |
    ⟨D, a', _, c, _, _, _, hcollects, -, -, -, hnests, -⟩⟩ := h.origin_named hd hemb
  · obtain ⟨heo, -⟩ := hd.unique he ho hn.plain hn'.plain hu hu'
    cases h.pending_unique hp hq (hqo.trans (heo.symm.trans hpe.symm))
    rw [Metamodel.embeddable_ok, h.result] at hemb
    obtain ⟨s, rfl, hs, htype⟩ := hkept.sits hemb ha
    refine ⟨s, rfl, ?_, htype⟩
    rw [h.database_eq] at hb ⊢
    cases hs with
    | own stores _ => exact ⟨_, _, stores⟩
    | shared _ columns position => exact hb.shares columns position
  · exact absurd hcollects (hd.not_collects h.valid he hn hu (hcollects.under hnests.under))

/-- How a part of an embeddable element is stored: in slots of the element, or in the key of an
entity that has the collection. -/
inductive ElementPart (m : Metamodel) (role : String) (element : ComponentMapping)
    (s : SingularAttribute) : Prop
  | own {id : TableId} {slots : List Column}
      (holds : List.Forall₂ (m.database.Holds id) slots s.columns)
      (within : ∀ slot ∈ slots, Build.HasSlot element slot)
  | shared {E : Entity} {q : PluralAttribute} (kind : s.kind = .oneToOne) (entity : E ∈ m.entities)
      (collection : .plural q ∈ E.attributes) (role : q.role = role)
      (columns : s.columns = E.identifier.columns)

/-- The parts of embeddable elements are in the one table that the elements have, or share a key. -/
theorem embeds_element (h : d.Builds m ems ps bare r r1 r2) (hd : d.PlainRoles)
    (hcollects : d.Collects D a c) (helement : c.element.elementType = .component element) :
    m.Embeds (Build.elementRole c.role) fun s =>
      s.tablePosition = 0 ∧ ElementPart m c.role element s := by
  intro role emb hu hemb x hx
  have hu := hcollects.under hu
  obtain ⟨p, hp, e, he, hpe, b, hb, ⟨_, name, _, hn, hunder, -⟩ |
    ⟨D', a', am, c', element', inner, id, hcollects', ham, hc', helement', hnests, hkept⟩⟩ :=
    h.origin_named hd hemb
  · exact absurd hcollects (hd.not_collects h.valid he hn hunder hu)
  · obtain ⟨hname, haname⟩ := hd.unique hcollects.entity hcollects'.entity (hd.plain hcollects)
      (hd.plain hcollects') hu (hcollects'.under hnests.under)
    obtain ⟨hroles, hsame⟩ := hcollects.unique h.valid hcollects' hname haname
    rw [hsame, helement'] at helement
    cases helement
    rw [Metamodel.embeddable_ok, h.result] at hemb
    obtain ⟨s, rfl, hs, htype⟩ := hkept.sits hemb hx
    refine ⟨s, rfl, ?_, htype⟩
    cases hs with
    | own stores within =>
      obtain ⟨table, hat, hholds⟩ := stores.columns
      have hzero := (List.getElem?_eq_some_iff.1 hat).1
      rw [← h.database_eq] at hholds
      exact ⟨by rw [stores.position]; exact Nat.lt_one_iff.1 hzero,
        .own hholds fun slot hslot => hnests.hasSlot (within slot hslot)⟩
    | shared kind columns position =>
      obtain ⟨E, hE, hbuilt⟩ := h.entitiesOf.exists_right hp
      obtain ⟨_, hq, hof⟩ := hbuilt.attributes.exists_right ham
      obtain ⟨q, rfl, hqrole⟩ := hof.collection hc'
      refine ⟨position, .shared kind hE hq (hqrole.trans hroles.symm) ?_⟩
      exact columns.trans (hb.columns_unique hbuilt.toIdentified)

end Builds

end Definition

end EntityQuery
