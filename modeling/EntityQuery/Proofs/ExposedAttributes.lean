import EntityQuery.Proofs.DeclaringTable
import EntityQuery.Proofs.Lineage

/-!
# The attributes of an entity, and what a name stands for

`names_resolve_exactly`: an entity has the attributes that it declares, then those of its ancestors
from the nearest on, then those of its descendants, each child before its own children. All of them
have names of their own. A name stands for the attribute that has it, else for the identifier if it
is the name of that or `id`, and for nothing otherwise.

`Definition.Realizes` says when an attribute of an entity is the one that a member of its line
declares: its name, its class and its type are those of the declaration, and it is stored where the
member says.
-/

set_option autoImplicit false

namespace EntityQuery

/-! ## What a declaration asks for -/

def ElementDefinition.elementClass : ElementDefinition → ElementClass
  | .basic .. => .basic
  | .embeddable _ => .embeddable
  | .any .. => .any

def AttributeDefinition.attributeClass : AttributeDefinition → AttributeClass
  | .basic _ => .singular .basic
  | .embedded _ => .singular .embedded
  | .any _ => .singular .any
  | .manyToOne _ => .singular .manyToOne
  | .oneToOne _ => .singular .oneToOne
  | .oneToMany a => .plural a.shape.collectionClass .oneToMany
  | .manyToMany a => .plural a.shape.collectionClass .manyToMany
  | .elementCollection a => .plural a.shape.collectionClass a.element.elementClass

namespace Definition

/-- The type of an attribute that `declarer` declares, as one of `entity`: an embeddable is known by
the entity that has it, a collection by the one that declares it. -/
def typeOf (entity declarer : String) (a : AttributeDefinition) : Except MetamodelError DomainType :=
  let context := s!"{declarer}.{a.name}"
  match a with
  | .basic b => .basic <$> basicType b.typeName b.enumStorage b.sqlType b.converter context
  | .embedded _ => .ok (.embeddable s!"{entity}.{a.name}")
  | .any a => .any <$> anyType a.discriminatorType a.identifierType context
  | .manyToOne a | .oneToOne a => .ok (.entity a.target)
  | .oneToMany _ | .manyToMany _ | .elementCollection _ => .ok (.collection context)

/-- An attribute of the entity `E` is the one that `D` declares as `a`. Slots of its own are those
that are declared, on the table that `D` designates; without them it shares the identifier of `E`. -/
structure Realizes (d : Definition) (m : Metamodel) (E : Entity) (D : EntityDefinition)
    (a : AttributeDefinition) (x : Attribute) : Prop where
  owner : x.declaringType = .entity E.name
  name : x.name = a.name
  attributeClass : x.attributeClass = a.attributeClass
  type : typeOf E.name D.name a = .ok x.attributeType
  stored : a.ownsSlots = true → ∃ s slots table id, x = .singular s ∧ d.slots a = some slots ∧
    d.Designates D a table ∧ E.tables[s.tablePosition]? = some id ∧ m.database.Shows table id ∧
    List.Forall₂ (m.database.Holds id) slots s.columns
  shared : a.ownsSlots = false → ∀ s, x = .singular s → s.columns = E.identifier.columns

/-- The attributes that entities declare, one entity after the other. -/
def declarations (members : List EntityDefinition) :
    List (EntityDefinition × AttributeDefinition) :=
  members.flatMap fun D => D.attributes.map (D, ·)

theorem mem_declarations {members : List EntityDefinition} {D : EntityDefinition}
    {a : AttributeDefinition} : (D, a) ∈ declarations members ↔ D ∈ members ∧ a ∈ D.attributes := by
  simp [declarations]

end Definition

/-! ## Attributes of declarations -/

namespace Build

open Definition (elementMapping typeOf)

variable {d : Definition} {component : ComponentMapper} {entities : List Entity} {owner : Owner}
  {declarer : String} {n : Nat} {a : AttributeDefinition} {am : AttributeMapping} {x : Attribute}
  {r r' : Registry}

theorem elementMapping_class {context : String} {element : ElementDefinition} {em : ElementMapping}
    (h : elementMapping component context element = .ok em) :
    em.elementType.elementClass = element.elementClass := by
  have htype := Definition.elementMapping_type h
  cases element with
  | basic | any =>
    obtain ⟨_, heq⟩ := htype
    rw [heq]
    rfl
  | embeddable =>
    obtain ⟨_, heq, -⟩ := htype
    rw [heq]
    rfl

/-- What the build of a collection keeps of its mapping. -/
theorem plural_of_mapping {name : String} {c : CollectionMapping} {p : PluralAttribute}
    (h : plural entities owner name c r = .ok p r') :
    p.declaringType = owner.type ∧ p.name = name ∧ p.role = c.role ∧
      p.collectionClass = c.shape.collectionClass ∧
      p.element.kind = c.element.elementType.elementClass := by
  obtain ⟨_, _, _, _, _, _, _, _, _, _, _, -, -, -, -, -, -, -, rfl⟩ := plural_ok h
  exact ⟨rfl, rfl, rfl, rfl, rfl⟩

/-- An attribute has the class and the type that its declaration asks for. -/
theorem attributeOf_declared {entity : String} (ho : owner.type = .entity entity)
    (hm : d.attributeMapping d.component declarer n a = .ok am)
    (h : attributeOf entities owner am r = .ok x r') :
    x.declaringType = .entity entity ∧ x.attributeClass = a.attributeClass ∧
      typeOf entity declarer a = .ok x.attributeType := by
  rw [← ho]
  have hrole (name : String) : owner.roleOf name = s!"{entity}.{name}" := by
    rw [Owner.roleOf, ho]
    rfl
  unfold attributeOf at h
  cases a with
  | basic b =>
    simp only [Definition.attributeMapping, Definition.basicMapping, Except.bind_eq_ok] at hm
    obtain ⟨t, ht, hm⟩ := hm
    split at hm <;>
    · cases hm
      obtain ⟨_, -, _, -, rfl⟩ := stored_ok h
      exact ⟨rfl, rfl, by simp only [typeOf, ht]; rfl⟩
  | embedded b =>
    simp only [Definition.attributeMapping, Definition.embeddedMapping, Except.bind_eq_ok,
      Except.pure_eq_ok] at hm
    obtain ⟨_, -, rfl⟩ := hm
    obtain ⟨_, -, _, _, -, -, rfl⟩ := stored_ok h
    exact ⟨rfl, rfl, by rw [hrole]; rfl⟩
  | any b =>
    simp only [Definition.attributeMapping, Definition.anyMapping, Except.bind_eq_ok,
      Except.pure_eq_ok] at hm
    obtain ⟨t, ht, rfl⟩ := hm
    obtain ⟨_, -, _, -, rfl⟩ := stored_ok h
    exact ⟨rfl, rfl, by simp only [typeOf, ht]; rfl⟩
  | manyToOne b =>
    obtain ⟨kind, _, hk, -, -, -, -, htype⟩ :=
      Definition.toOneMapping_ok (Definition.componentMapper_agrees _) hm
    rw [htype] at h
    obtain ⟨_, -, _, _, -, -, rfl⟩ := stored_ok h
    refine ⟨rfl, ?_, rfl⟩
    cases hp : b.primaryKey <;> rw [hp] at hk <;> cases hk
    rfl
  | oneToOne b =>
    obtain ⟨kind, _, hk, -, -, -, -, htype⟩ :=
      Definition.toOneMapping_ok (Definition.componentMapper_agrees _) hm
    rw [htype] at h
    obtain ⟨_, -, _, _, -, -, rfl⟩ := stored_ok h
    refine ⟨rfl, ?_, rfl⟩
    cases hp : b.primaryKey <;> rw [hp] at hk <;> cases hk <;> rfl
  | oneToMany b =>
    simp only [Definition.attributeMapping, Definition.oneToManyMapping, Except.bind_eq_ok,
      Except.pure_eq_ok] at hm
    obtain ⟨_, -, _, -, _, -, rfl⟩ := hm
    obtain ⟨_, -, p, hp, rfl⟩ := stored_ok h
    obtain ⟨howner, -, hprole, hclass, hkind⟩ := plural_of_mapping hp
    exact ⟨howner, by rw [Attribute.attributeClass, hclass, hkind]; rfl,
      by rw [Attribute.attributeType, hprole]; rfl⟩
  | manyToMany b =>
    simp only [Definition.attributeMapping, Definition.manyToManyMapping, Except.bind_eq_ok,
      Except.guard_eq_ok, Except.pure_eq_ok] at hm
    obtain ⟨_, -, -, _, -, _, -, rfl⟩ := hm
    obtain ⟨_, -, p, hp, rfl⟩ := stored_ok h
    obtain ⟨howner, -, hprole, hclass, hkind⟩ := plural_of_mapping hp
    exact ⟨howner, by rw [Attribute.attributeClass, hclass, hkind]; rfl,
      by rw [Attribute.attributeType, hprole]; rfl⟩
  | elementCollection b =>
    simp only [Definition.attributeMapping, Definition.elementCollectionMapping, Except.bind_eq_ok,
      Except.pure_eq_ok] at hm
    obtain ⟨_, helement, _, -, _, -, rfl⟩ := hm
    obtain ⟨_, -, p, hp, rfl⟩ := stored_ok h
    obtain ⟨howner, -, hprole, hclass, hkind⟩ := plural_of_mapping hp
    refine ⟨howner, ?_, by rw [Attribute.attributeType, hprole]; rfl⟩
    rw [Attribute.attributeClass, hclass, hkind, elementMapping_class helement]
    rfl

end Build

namespace Definition

variable {d : Definition} {m : Metamodel} {e D : EntityDefinition} {a : AttributeDefinition}
  {am : AttributeMapping} {em : EntityMapping} {p : PendingEntity} {E : Entity} {bare : List Entity}
  {x : Attribute}

theorem Inherits.realizes (hin : d.Inherits e D a am) (hmap : d.entityMapping e = .ok em)
    (hof : p.Of m.database em) (hbuilt : Build.EntityOf m.database bare p E)
    (hx : Build.AttributeOf m.database bare (p.owner E.identifier.columns) am x) :
    d.Realizes m E D a x := by
  obtain ⟨r, r', hstored, hgrows⟩ := hx
  obtain ⟨order, table, number, horder, hdes, hnumber, hmapping⟩ := hin.mapped
  have hentity : (p.owner E.identifier.columns).type = .entity E.name := by
    rw [hbuilt.name]
    rfl
  obtain ⟨howner, hclass, htype⟩ := Build.attributeOf_declared hentity hmapping hstored
  refine ⟨howner, (Build.stored_name hstored).trans hin.name, hclass, htype, fun ho => ?_,
    fun ho s hs => ?_⟩
  · obtain ⟨slots, hmaps⟩ := attributeMapping_maps (componentMapper_agrees _)
      (AttributeDefinition.isPlural_of_ownsSlots ho) hmapping
    obtain ⟨s, rfl, -, hstores⟩ := Build.stored_stores hmaps.described (hmaps.ownsSlots.trans ho)
      hstored
    obtain ⟨hposition, id, hid, hholds⟩ := hstores.grows hgrows
    rw [hmaps.tableNumber] at hposition hid
    -- the number of the table among those of the entity is that of its expression
    have hshows : m.database.Shows table id := by
      cases horder.symm.trans (entityMapping_ok hmap).2.1
      obtain ⟨hlt, heq, -⟩ := List.idxOf?_eq_some_iff.1 hnumber
      obtain ⟨hlt', hid⟩ := List.getElem?_eq_some_iff.1 hid
      have hshow := List.Forall₂.get hof.tables hlt hlt'
      rw [List.get_eq_getElem, List.get_eq_getElem, heq] at hshow
      exact hid ▸ hshow
    refine ⟨s, slots, table, id, rfl, hmaps.declared, hdes, ?_, hshows, hholds⟩
    rw [hbuilt.tables, hposition]
    exact hid
  · subst hs
    cases hp : a.isPlural with
    | true =>
      obtain ⟨c, rfl, -⟩ := attributeMapping_plural hp hmapping
      obtain ⟨_, -, _, -, heq⟩ := Build.stored_ok hstored
      cases heq
    | false =>
      obtain ⟨slots, hmaps⟩ := attributeMapping_maps (componentMapper_agrees _) hp hmapping
      exact (Build.stored_shares (hmaps.ownsSlots.trans ho) hstored).2

/-- The mappings of an entity are those of the attributes that its line declares, in order. -/
theorem entityMapping_declarations (hv : d.Valid) (he : e ∈ d.entities)
    (hmap : d.entityMapping e = .ok em) {members : List EntityDefinition}
    (hl : d.line e = .ok members) :
    List.Forall₂ (fun declared am => d.Inherits e declared.1 declared.2 am) (declarations members)
      em.attributes := by
  obtain ⟨-, ho, -, members', rows, hl', hrows, hall⟩ := entityMapping_ok hmap
  cases hl.symm.trans hl'
  have hline : ∀ D ∈ members, d.InLine e D := fun D hD => (mem_line_iff hv he hl).1 hD
  have hmembers := (List.forall₂_and_left _ _).2 ⟨hline, hall⟩
  rw [hrows, ← List.flatMap_id]
  refine List.rel_flatMap hmembers ?_
  rintro D row ⟨hD, tables, ht, hrow⟩
  rw [List.forall₂_map_left_iff]
  refine ((List.forall₂_and_left _ _).2 ⟨fun a ha => ha, hrow⟩).imp ?_
  rintro a am ⟨ha, hm⟩
  obtain ⟨table, number, hd, hn, hm⟩ := inheritedMapping_ok ht hm
  exact ⟨hD, ha, _, table, number, ho, hd, hn, hm⟩

/-- The attributes of an entity are those that its line declares, in order. -/
theorem attributes_realize (hv : d.Valid) (he : e ∈ d.entities) (hmap : d.entityMapping e = .ok em)
    (hof : p.Of m.database em) (hbuilt : Build.EntityOf m.database bare p E)
    {members : List EntityDefinition} (hl : d.line e = .ok members) :
    List.Forall₂ (fun declared x => d.Realizes m E declared.1 declared.2 x) (declarations members)
      E.attributes := by
  have hmappings := entityMapping_declarations hv he hmap hl
  rw [← hof.attributes] at hmappings
  exact hmappings.comp (fun hin hx => hin.realizes hmap hof hbuilt hx) hbuilt.attributes

/-- The identifier of an entity is that of its hierarchy. -/
theorem identifier_of (hmap : d.entityMapping e = .ok em) (hof : p.Of m.database em)
    (hbuilt : Build.EntityOf m.database bare p E) :
    ∃ id, d.rootIdentifier e = .ok id ∧ E.identifier.name = id.name ∧
      E.identifier.declaringType = .entity e.name := by
  obtain ⟨hname, -, hidentifier, -⟩ := entityMapping_ok hmap
  obtain ⟨id, -, hid, hidname, -⟩ := identifierMapping_ok hidentifier
  obtain ⟨_, _, hkey, -⟩ := hbuilt.identifier
  refine ⟨id, hid, ?_⟩
  rw [← hidname, ← hof.identifier, ← hname, ← hof.name]
  obtain ⟨_, _, -, ⟨_, -, -, heq⟩ | ⟨_, -, -, heq⟩⟩ := Build.identifier_ok hkey <;>
    exact heq ▸ ⟨rfl, rfl⟩

/-- An entity is in the line of its root. -/
theorem inLine_root (hv : d.Valid) (he : e ∈ d.entities) {r : EntityDefinition}
    (hr : d.root e = .ok r) : d.InLine r e := by
  obtain ⟨-, -, hup⟩ := root_ok hv he hr
  rcases Relation.reflTransGen_iff_eq_or_transGen.1 hup with rfl | hup
  · exact .inl rfl
  · exact .inr (.inr ⟨he, hup⟩)

/-- The attributes that a line declares have names of their own. -/
theorem declarations_nodup (hv : d.Valid) (he : e ∈ d.entities) {members : List EntityDefinition}
    (hl : d.line e = .ok members) : ((declarations members).map (·.2.name)).Nodup := by
  have hline (D : EntityDefinition) : D ∈ members ↔ d.InLine e D := mem_line_iff hv he hl
  simp only [line, Except.bind_eq_ok, Except.pure_eq_ok] at hl
  obtain ⟨above, habove, rfl⟩ := hl
  obtain ⟨r, hr⟩ := hv.root he
  obtain ⟨hmem, hnone, -⟩ := root_ok hv he hr
  obtain ⟨hnames, -⟩ := checkNames_ok (hv.roots r hmem hnone)
  rw [declarations, List.map_flatMap]
  refine List.nodup_flatMap.2 ⟨fun D hD => ?_, ?_⟩
  · rw [List.map_map]
    exact names_nodup_of_declared (((hline D).1 hD).mem_hierarchy hv he hr) hnames
  · -- two members that declare the same name are one
    refine (line_nodup hv.rooted he habove).imp_of_mem fun {D D'} hD hD' hne => ?_
    intro name hname hname'
    simp only [List.map_map, List.mem_map, Function.comp_apply] at hname hname'
    obtain ⟨a, ha, rfl⟩ := hname
    obtain ⟨a', ha', heq⟩ := hname'
    exact hne (declared_unique hv he ((hline D).1 hD) ((hline D').1 hD') ha ha' heq.symm).1

/-- A line declares no name that the rest of its hierarchy declares. -/
theorem name_ne_of_not_inLine (hv : d.Valid) (he : e ∈ d.entities) {r D D' : EntityDefinition}
    {a a' : AttributeDefinition} (hr : d.root e = .ok r) (hD : D ∈ d.entities)
    (hDr : d.root D = .ok r) (hout : ¬ d.InLine e D) (ha : a ∈ D.attributes) (hD' : d.InLine e D')
    (ha' : a' ∈ D'.attributes) : a'.name ≠ a.name := by
  intro hname
  -- in the line of the root, both would declare the name
  have hD'r : d.root D' = .ok r := (hD'.root_eq hv he).trans hr
  obtain ⟨rfl, -⟩ := declared_unique hv (root_ok hv he hr).1 (inLine_root hv (hD'.mem he) hD'r)
    (inLine_root hv hD hDr) ha' ha hname
  exact hout hD'

end Definition

/-! ## Names -/

namespace Entity

variable {E : Entity}

theorem find?_of_mem (hn : (E.attributes.map (·.name)).Nodup) {x : Attribute}
    (hx : x ∈ E.attributes) : E.find? x.name = some x := by
  have hreverse : (E.attributes.reverse.map (·.name)).Nodup := by
    rw [List.map_reverse, List.nodup_reverse]
    exact hn
  rw [find?, List.find?_of_nodup hreverse (List.mem_reverse.2 hx)]

theorem find?_of_notMem {name : String} (hn : ∀ x ∈ E.attributes, x.name ≠ name) :
    E.find? name =
      if name = E.identifier.name ∨ name = "id" then some (.singular E.identifier) else none := by
  have hnone : E.attributes.reverse.find? (·.name = name) = none := by
    rw [List.find?_eq_none]
    intro x hx
    simpa using hn x (List.mem_reverse.1 hx)
  rw [find?, hnone]

end Entity

theorem Metamodel.find_eq {m : Metamodel} {name : String} {E : Entity} (hE : m.entity name = .ok E)
    (n : String) : m.find (.entity name) n = match E.find? n with
      | some x => .ok x
      | none => .error (.unknownAttribute name n) := by
  simp only [find, hE]
  rfl

/-- An entity has the attributes of its line in order: its own, those of its ancestors from the
nearest on, and those of its descendants, each child before its own. They have names of their own,
none of them that of the identifier. A name stands for the attribute that has it, otherwise for the
identifier if it is its name or `id`, and otherwise for nothing. What a name stands for is therefore
the identifier or declared by the line, and a name that the rest of the hierarchy declares stands
for nothing unless it is `id`. -/
theorem names_resolve_exactly {d : Definition} {m : Metamodel} {e : EntityDefinition}
    (h : d.metamodel = .ok m) (he : e ∈ d.entities) :
    ∃ E id above below, m.entity e.name = .ok E ∧ d.rootIdentifier e = .ok id ∧
      E.identifier.name = id.name ∧ E.identifier.declaringType = .entity e.name ∧
      d.Ascends e above ∧ d.Descends (d.children e) below ∧
      List.Forall₂ (fun declared x => d.Realizes m E declared.1 declared.2 x)
        (Definition.declarations (e :: above ++ below)) E.attributes ∧
      (E.attributes.map (·.name)).Nodup ∧ (∀ x ∈ E.attributes, x.name ≠ id.name) ∧
      (∀ x ∈ E.attributes, m.find (.entity e.name) x.name = .ok x) ∧
      (∀ name, (∀ x ∈ E.attributes, x.name ≠ name) → m.find (.entity e.name) name =
        if name = id.name ∨ name = "id" then .ok (.singular E.identifier)
        else .error (.unknownAttribute e.name name)) ∧
      (∀ name x, m.find (.entity e.name) name = .ok x → x = .singular E.identifier ∨
        ∃ D a, d.InLine e D ∧ a ∈ D.attributes ∧ a.name = name ∧ d.Realizes m E D a x) ∧
      ∀ D ∈ d.entities, ¬ d.InLine e D → d.root D = d.root e → ∀ a ∈ D.attributes, a.name ≠ "id" →
        m.find (.entity e.name) a.name = .error (.unknownAttribute e.name a.name) := by
  obtain ⟨ems, ps, bare, r, r1, r2, hb⟩ := Definition.builds h
  have hv := hb.valid
  obtain ⟨em, p, E, hmap, -, hof, hbuilt, hE⟩ := hb.entity he
  obtain ⟨above, habove⟩ := hv.ancestors he
  have hline := Definition.line_of_ancestors habove
  obtain ⟨id, hid, hidname, hidowner⟩ := Definition.identifier_of hmap hof hbuilt
  obtain ⟨root, hroot, hrootid⟩ := Definition.rootIdentifier_ok hid
  have hrealized := Definition.attributes_realize hv he hmap hof hbuilt hline
  have hdeclared {x : Attribute} (hx : x ∈ E.attributes) :
      ∃ D a, d.InLine e D ∧ a ∈ D.attributes ∧ d.Realizes m E D a x := by
    obtain ⟨⟨D, a⟩, hmem, hreal⟩ := hrealized.exists_left hx
    obtain ⟨hD, ha⟩ := Definition.mem_declarations.1 hmem
    exact ⟨D, a, (Definition.mem_line_iff hv he hline).1 hD, ha, hreal⟩
  have hnodup : (E.attributes.map (·.name)).Nodup := by
    rw [← (hrealized.imp fun _ _ hreal => hreal.name.symm).map_eq]
    exact Definition.declarations_nodup hv he hline
  have hown : ∀ x ∈ E.attributes, m.find (.entity e.name) x.name = .ok x := fun x hx => by
    rw [Metamodel.find_eq hE, Entity.find?_of_mem hnodup hx]
  have hother : ∀ name, (∀ x ∈ E.attributes, x.name ≠ name) → m.find (.entity e.name) name =
      if name = id.name ∨ name = "id" then .ok (.singular E.identifier)
      else .error (.unknownAttribute e.name name) := by
    intro name hnone
    rw [Metamodel.find_eq hE, Entity.find?_of_notMem hnone, hidname]
    split_ifs <;> rfl
  refine ⟨E, id, above, d.descendants e, hE, hid, hidname, hidowner,
    Definition.ascends_ancestorsFrom habove, Definition.descends_descendants hv.rooted he, hrealized,
    hnodup, fun x hx => ?_, hown, hother, fun name x hx => ?_, fun D hD hout hsame a ha hne => ?_⟩
  · obtain ⟨D, a, hD, ha, hreal⟩ := hdeclared hx
    rw [hreal.name]
    exact Definition.declared_ne_identifier hv he hroot hrootid hD ha
  · by_cases hmem : ∃ y ∈ E.attributes, y.name = name
    · obtain ⟨y, hy, rfl⟩ := hmem
      cases (hown y hy).symm.trans hx
      obtain ⟨D, a, hD, ha, hreal⟩ := hdeclared hy
      exact .inr ⟨D, a, hD, ha, hreal.name.symm, hreal⟩
    · rw [hother name fun y hy hyname => hmem ⟨y, hy, hyname⟩] at hx
      split_ifs at hx
      cases hx
      exact .inl rfl
  · rw [hroot] at hsame
    rw [hother a.name fun x hx => ?_, if_neg]
    · exact not_or.2 ⟨Definition.declared_ne_identifier hv hD hsame hrootid (.inl rfl) ha, hne⟩
    · obtain ⟨D', a', hD', ha', hreal⟩ := hdeclared hx
      rw [hreal.name]
      exact Definition.name_ne_of_not_inLine hv he hroot hD hsame hout ha hD' ha'

/-! ### Two branches -/

/-- An attribute that holds a text. -/
def ofText (name : String) : AttributeDefinition :=
  .basic ⟨name, "string", none, [], none, none, none, none, none⟩

def stockItem : EntityDefinition :=
  ⟨"Item", none, some "item", [], none, some ⟨"code", [], none, none⟩, none, [ofText "title"]⟩

def stockChart : EntityDefinition :=
  ⟨"Chart", some "Item", some "chart", [], none, none, none, [ofText "scale"]⟩

def stockBook : EntityDefinition :=
  ⟨"Book", some "Item", some "book", [], none, none, none, [ofText "isbn"]⟩

/-- An atlas has an attribute of the name by which other identifiers are known. -/
def stockAtlas : EntityDefinition :=
  ⟨"Atlas", some "Book", some "atlas", [], none, none, none, [ofText "id"]⟩

/-- Charts and books below items, atlases below books, and readers, which have a scale as charts
do. -/
def stock : Definition :=
  ⟨none, [stockAtlas, stockChart, stockBook, stockItem,
    ⟨"Reader", none, some "reader", [], none, some ⟨"id", [], none, none⟩, none, [ofText "scale"]⟩],
    []⟩

/-- To a book, `id` is an attribute of atlases, and the scale of charts is unknown; to a chart `id` is
the identifier. -/
theorem names_resolve_in_stock : ∃ m E C, stock.metamodel = .ok m ∧ m.entity "Book" = .ok E ∧
    m.entity "Chart" = .ok C ∧
    (∃ x, m.find (.entity "Book") "id" = .ok x ∧ stock.Realizes m E stockAtlas (ofText "id") x) ∧
    m.find (.entity "Book") "scale" = .error (.unknownAttribute "Book" "scale") ∧
    m.find (.entity "Chart") "id" = .ok (.singular C.identifier) := by
  obtain ⟨m, hm⟩ := Except.exists_ok_of_isSome
    (by decide +kernel : stock.metamodel.toOption.isSome)
  have hv : stock.Valid := Definition.validate_ok (by decide +kernel)
  obtain ⟨E, _, above, below, hE, -, -, -, -, hbelow, hbook, -, -, hown, -, -, hother⟩ :=
    names_resolve_exactly (e := stockBook) hm (by decide)
  obtain ⟨C, _, above', below', hC, -, -, -, hup, hleaf, hchart, -, -, -, hnone, -⟩ :=
    names_resolve_exactly (e := stockChart) hm (by decide)
  refine ⟨m, E, C, hm, hE, hC, ?_, ?_, ?_⟩
  · have hatlas : (stockAtlas, ofText "id") ∈
        Definition.declarations (stockBook :: above ++ below) := by
      rw [show stock.children stockBook = [stockAtlas] by decide] at hbelow
      cases hbelow
      simp [Definition.mem_declarations, stockAtlas]
    obtain ⟨x, hx, hreal⟩ := hbook.exists_right hatlas
    have hfound := hown x hx
    rw [hreal.name] at hfound
    exact ⟨x, hfound, hreal⟩
  · have hline : stock.line stockBook = .ok [stockBook, stockItem, stockAtlas] := by decide +kernel
    refine hother stockChart (by decide) (fun hin => ?_) (by decide +kernel) (ofText "scale")
      (by decide) (by decide)
    exact absurd ((Definition.mem_line_iff hv (by decide) hline).2 hin) (by decide)
  · have habove : above' = [stockItem] :=
      hup.unique hv.names (.step ⟨by decide, rfl⟩ (.root rfl))
    rw [show stock.children stockChart = [] by decide] at hleaf
    cases hleaf
    subst habove
    refine (hnone "id" fun x hx => ?_).trans (if_pos (.inr rfl))
    have hnames := (hchart.imp fun _ _ hreal => hreal.name.symm).map_eq
    have hmem : x.name ∈ C.attributes.map (·.name) := List.mem_map_of_mem hx
    intro hid
    rw [← hnames, hid] at hmem
    exact absurd hmem (by decide)

end EntityQuery
