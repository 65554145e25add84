import EntityQuery.Proofs.AssociationWidths
import EntityQuery.Proofs.Failures

/-!
# Unknown entities

A build fails with an unknown entity only for a name that a mapping mentions. Attributes are built
when all registered entities are known, so an attribute can only be at fault with a name that is
not registered. Identifiers are built when no entity is known: a composite identifier that mentions
an entity never builds, be the entity registered or not (`unknown_entity_explained`).
-/

set_option autoImplicit false

namespace EntityQuery

/-! ## Mentions -/

/-- The storage of an attribute refers to the entity `name`, directly, as the entity of its
elements, or in an attribute of a component. -/
inductive MappedType.Mentions (name : String) : MappedType → Prop
  | association (kind : AssociationKind) : Mentions name (.association name kind)
  | component {c : ComponentMapping} {a : AttributeMapping} (mem : a ∈ c.attributes)
      (inner : Mentions name a.mappedType) : Mentions name (.component c)
  | elements {c : CollectionMapping} {viaLinkTable : Bool}
      (entity : c.element.elementType = .entity name viaLinkTable) : Mentions name (.collection c)
  | elementComponent {c : CollectionMapping} {element : ComponentMapping} {a : AttributeMapping}
      (elements : c.element.elementType = .component element) (mem : a ∈ element.attributes)
      (inner : Mentions name a.mappedType) : Mentions name (.collection c)

/-- The identifier is composite, and an attribute of its component refers to the entity `name`. -/
def IdentifierMapping.Mentions (id : IdentifierMapping) (name : String) : Prop :=
  ∃ c, id.idType = .component c ∧ (MappedType.component c).Mentions name

/-- An error that an entity is unknown is about one that is mentioned and not among `entities`. -/
def MetamodelError.Explained (entities : List Entity) (mentioned : String → Prop)
    (e : MetamodelError) : Prop :=
  ∀ name, e = .unknownEntity name → mentioned name ∧ ∀ x ∈ entities, x.name ≠ name

section
variable {entities : List Entity} {mentioned mentioned' : String → Prop}

theorem MetamodelError.Explained.mono {e : MetamodelError} (h : e.Explained entities mentioned)
    (hm : ∀ name, mentioned name → mentioned' name) : e.Explained entities mentioned' :=
  fun name he => (h name he).imp_left (hm name)

theorem MetamodelError.Explained.malformed (role : String) (reason : Malformation) :
    (MetamodelError.malformed role reason).Explained entities mentioned := nofun

theorem MetamodelError.Explained.unsupported (role : String) (reason : Unsupported) :
    (MetamodelError.unsupported role reason).Explained entities mentioned := nofun

end

/-! ## Attributes -/

namespace Database

variable {P : MetamodelError → Prop} {role : String} {id : TableId}

theorem fillSlots_fails (hP : ∀ reason, P (.malformed role reason)) :
    ∀ {row : List (Option String × Option String × SqlCode)} {slot : Nat} {db : Database},
      (fillSlots role id slot row db).FailsWith P
  | [], _, _ => .of_ok rfl
  | (column, formula, code) :: rest, slot, db => by
    unfold fillSlots
    refine .bind ?_ fun _ => .bind (fillSlots_fails hP) fun _ => .of_ok rfl
    unfold fillSlot
    split
    · exact .of_error (hP _)
    · split
      · exact .of_error (hP _)
      · exact .of_ok rfl

theorem values_fails {columns : List (Option String)} {formulas : Option (List (Option String))}
    {codes : List SqlCode} {db : Database} (hP : ∀ reason, P (.malformed role reason)) :
    (values role id columns formulas codes db).FailsWith P := by
  unfold values
  refine .bind (.of_ok rfl) fun _ => .guard (hP _) fun _ => ?_
  split
  · exact .of_error (hP _)
  · exact fillSlots_fails hP

end Database

namespace Build

variable {P : MetamodelError → Prop} {entities : List Entity} {owner : Owner} {r : Registry}
  {role name : String} {table : TableId} {columns : List (Option String)}
  {formulas : Option (List (Option String))} {codes : List SqlCode}

theorem database_fails {α : Type} {act : Database.Action α} (h : (act r.database).FailsWith P) :
    (database act r).FailsWith P := by
  unfold database
  split
  · exact .of_ok rfl
  · rename_i hact
    exact .of_error (h.error hact)

theorem ofExcept_fails {α : Type} {x : Except MetamodelError α} (h : x.FailsWith P) :
    (ofExcept x r).FailsWith P := by
  cases x with
  | ok a => exact .of_ok rfl
  | error e => exact .of_error (h.error rfl)

theorem known_error {e : MetamodelError} (h : known entities name = .error e) :
    e = .unknownEntity name ∧ ∀ x ∈ entities, x.name ≠ name := by
  unfold known at h
  split at h
  · cases h
  · rename_i hnone
    cases h
    exact ⟨rfl, by simpa using hnone⟩

theorem known_fails {mentioned : String → Prop} (h : mentioned name) :
    (known entities name).FailsWith (·.Explained entities mentioned) := by
  refine ⟨fun he => ?_⟩
  obtain ⟨rfl, hn⟩ := known_error he
  rintro _ ⟨⟩
  exact ⟨h, hn⟩

section Slots
variable (hP : ∀ reason, P (.malformed role reason))
include hP

theorem values_fails :
    (database (Database.values role table columns formulas codes) r).FailsWith P :=
  database_fails (Database.values_fails hP)

theorem basicColumns_fails :
    (basicColumns role (Database.values role table columns formulas codes) r).FailsWith P := by
  unfold basicColumns
  exact .bind (values_fails hP) fun _ => .guard (hP _) fun _ => .of_ok rfl

theorem associationColumns_fails {kind : AssociationKind} {declares : Bool} {n : Nat} :
    (associationColumns owner role kind declares n
      (Database.values role table columns formulas codes) r).FailsWith P := by
  unfold associationColumns
  split
  · split
    · exact .bind (.of_error (hP _)) nofun
    · exact .bind (.of_ok rfl) fun _ => .guard (hP _) fun _ => .of_ok rfl
  · exact .bind (values_fails hP) fun _ => .bind (.of_ok rfl) fun _ =>
      .guard (hP _) fun _ => .of_ok rfl

theorem keyColumns_fails {names : List String} :
    (keyColumns role table names codes r).FailsWith P := by
  unfold keyColumns
  exact .bind (values_fails hP) fun _ => .guard (hP _) fun _ => .of_ok rfl

theorem elementColumns_fails {type : ElementType} :
    (elementColumns entities role type (Database.values role table columns formulas codes)
      r).FailsWith P := by
  unfold elementColumns
  exact .bind (values_fails hP) fun _ => .guard (hP _) fun _ => .of_ok rfl

theorem indexOf_fails {collection : CollectionClass} {index : Option IndexMapping} :
    (indexOf role table collection index r).FailsWith P := by
  unfold indexOf
  split
  · exact .bind (values_fails hP) fun _ => .of_ok rfl
  · split
    · exact .of_error (hP _)
    · exact .of_error (hP _)
    · exact .of_ok rfl

end Slots

theorem slotTable_fails {mentioned : String → Prop} {type : ElementType} {table : Option TableId}
    (h : ∀ target link, type = .entity target link → mentioned target) :
    (slotTable entities role type table).FailsWith (·.Explained entities mentioned) := by
  unfold slotTable
  split
  · refine .bind (known_fails (h _ _ rfl)) fun _ => ?_
    split
    · exact .of_ok rfl
    · exact .of_error (.malformed _ _)
    · exact .of_ok rfl
    · exact .of_error (.malformed _ _)
  · exact .of_ok rfl
  · exact .of_error (.malformed _ _)

-- The recursion is that of the mappings: an attribute, a component with its attributes, a
-- collection with its elements.
mutual
theorem stored_fails {entities : List Entity} : ∀ {mapped : MappedType} {owner : Owner}
    {name : String} {n : Nat} {columns : List (Option String)}
    {formulas : Option (List (Option String))} {codes : List SqlCode} {r : Registry},
    (stored entities owner name n columns formulas codes mapped r).FailsWith
      (·.Explained entities (mapped.Mentions ·))
  | mapped, owner, name, n, columns, formulas, codes, r => by
    unfold stored
    split
    · cases mapped with
      | basic t =>
        exact .bind (basicColumns_fails fun _ => .malformed _ _) fun _ => .of_ok rfl
      | component c =>
        exact .bind (values_fails fun _ => .malformed _ _) fun _ =>
          .bind component_fails fun _ => .of_ok rfl
      | any t => exact .bind (values_fails fun _ => .malformed _ _) fun _ => .of_ok rfl
      | association target kind =>
        exact .bind (ofExcept_fails (known_fails (.association kind))) fun _ =>
          .bind (associationColumns_fails fun _ => .malformed _ _) fun _ => .of_ok rfl
      | collection c => exact .bind plural_fails fun _ => .of_ok rfl
    · exact .of_error (.malformed _ _)
theorem component_fails {entities : List Entity} : ∀ {c : ComponentMappingOf MappedType}
    {owner : Owner} {role : String} {r : Registry},
    (component entities owner role c r).FailsWith
      (·.Explained entities ((MappedType.component c).Mentions ·))
  | ⟨_, _⟩, _, _, _ => by
    unfold component
    refine .bind (subAttributes_fails.mono fun _ he => he.mono ?_) fun _ => .of_ok rfl
    rintro _ ⟨a, ha, hmentions⟩
    exact .component ha hmentions
theorem subAttributes_fails {entities : List Entity} :
    ∀ {ms : List (AttributeMappingOf MappedType)} {owner : Owner} {r : Registry},
    (subAttributes entities owner ms r).FailsWith
      (·.Explained entities fun name => ∃ m ∈ ms, m.mappedType.Mentions name)
  | [], _, _ => .of_ok rfl
  | ⟨name, n, columns, formulas, codes, mapped⟩ :: rest, owner, r => by
    unfold subAttributes
    refine .bind (stored_fails.mono fun _ he => he.mono fun _ hm => ⟨_, .head _, hm⟩) fun _ => ?_
    split
    · exact .of_error (.unsupported _ _)
    · refine .bind (subAttributes_fails.mono fun _ he => he.mono ?_) fun _ => .of_ok rfl
      rintro _ ⟨m, hm, hmentions⟩
      exact ⟨m, .tail _ hm, hmentions⟩
theorem elementType_fails {entities : List Entity} : ∀ {type : ElementTypeOf MappedType}
    {owner : Owner} {role : String} {table : TableId} {r : Registry},
    (elementType entities owner role table type r).FailsWith (·.Explained entities fun name =>
      ∃ c, type = .component c ∧ (MappedType.component c).Mentions name)
  | .basic _, _, _, _, _ => .of_ok rfl
  | .any _, _, _, _, _ => .of_ok rfl
  | .entity _ _, _, _, _, _ => .of_ok rfl
  | .component c, _, _, _, _ => by
    unfold elementType
    exact .bind (component_fails.mono fun _ he => he.mono fun _ hm => ⟨c, rfl, hm⟩) fun _ =>
      .of_ok rfl
theorem plural_fails {entities : List Entity} : ∀ {c : CollectionMappingOf MappedType}
    {owner : Owner} {name : String} {r : Registry},
    (plural entities owner name c r).FailsWith
      (·.Explained entities ((MappedType.collection c).Mentions ·))
  | ⟨role, shape, expression, keys, keyCodes, ⟨type, columns, formulas, codes⟩, index⟩, owner, name,
      r => by
    unfold plural
    have htype : ∀ {table r}, (elementType entities owner role table type r).FailsWith
        (·.Explained entities ((MappedType.collection ⟨role, shape, expression, keys, keyCodes,
          ⟨type, columns, formulas, codes⟩, index⟩).Mentions ·)) := by
      refine elementType_fails.mono fun _ he => he.mono ?_
      rintro _ ⟨c, rfl, hm⟩
      cases hm with
      | component ha hm => exact .elementComponent rfl ha hm
    have hslot : ∀ target link, type = .entity target link → (MappedType.collection ⟨role, shape,
        expression, keys, keyCodes, ⟨type, columns, formulas, codes⟩, index⟩).Mentions target :=
      fun _ _ h => .elements h
    cases expression with
    | some expression | none =>
      exact .bind (.of_ok rfl) fun _ => .bind (ofExcept_fails (slotTable_fails hslot)) fun _ =>
        .bind (keyColumns_fails fun _ => .malformed _ _) fun _ => .bind htype fun _ =>
        .bind (elementColumns_fails fun _ => .malformed _ _) fun _ =>
        .bind (indexOf_fails fun _ => .malformed _ _) fun _ =>
        .bind (.of_ok rfl) fun _ => .of_ok rfl
end

/-- What a singular attribute mentions is known where it is built. -/
theorem stored_mentions {mapped : MappedType} (hm : mapped.Mentions name) :
    ∀ {owner : Owner} {label : String} {n : Nat} {columns : List (Option String)}
      {formulas : Option (List (Option String))} {codes : List SqlCode} {r r' : Registry}
      {s : SingularAttribute},
      stored entities owner label n columns formulas codes mapped r = .ok (.singular s) r' →
      ∃ e, known entities name = .ok e := by
  induction hm with
  | association kind =>
    intro owner label n columns formulas codes r r' s h
    obtain ⟨_, -, _, _, hknown, -⟩ := stored_ok h
    exact hknown
  | component mem _ ih =>
    intro owner label n columns formulas codes r r' s h
    obtain ⟨_, -, _, _, -, hc, -⟩ := stored_ok h
    obtain ⟨_, _, _, ha, -⟩ := component_attribute hc mem
    exact ih ha
  | elements | elementComponent =>
    intro owner label n columns formulas codes r r' s h
    obtain ⟨_, -, _, -, ha⟩ := stored_ok h
    cases ha

/-! ## Entities -/

theorem identifier_fails {p : PendingEntity} :
    (identifier p r).FailsWith (·.Explained [] (p.identifier.Mentions ·)) := by
  unfold identifier IdentifierMapping.Mentions
  refine .bind (values_fails fun _ => .malformed _ _) fun _ => .guard (.malformed _ _) fun _ => ?_
  cases p.identifier.idType with
  | basic t => exact .bind (.of_ok rfl) fun _ => .of_ok rfl
  | component c =>
    exact .bind (component_fails.mono fun _ he => he.mono fun _ hm => ⟨c, rfl, hm⟩) fun _ =>
      .bind (.of_ok rfl) fun _ => .of_ok rfl
  | any | association | collection => exact .bind (.of_error (.unsupported _ _)) nofun

/-- No entity is known where identifiers are built. -/
theorem identifier_mentions {p : PendingEntity} {id : SingularAttribute} {r' : Registry}
    (h : identifier p r = .ok id r') (name : String) : ¬ p.identifier.Mentions name := by
  rintro ⟨c, hc, hm⟩
  obtain ⟨_, _, -, ⟨t, ht, -⟩ | ⟨c', hc', hcomponent, -⟩⟩ := identifier_ok h
  · cases hc.symm.trans ht
  · cases hc.symm.trans hc'
    cases hm with
    | component mem inner =>
      obtain ⟨_, _, _, ha, -⟩ := component_attribute hcomponent mem
      obtain ⟨_, hknown⟩ := stored_mentions inner ha
      cases hknown

theorem identified_fails : ∀ {ps : List PendingEntity} {r : Registry},
    (identified ps r).FailsWith
      (·.Explained [] fun name => ∃ p ∈ ps, p.identifier.Mentions name)
  | [], _ => .of_ok rfl
  | p :: rest, r => by
    unfold identified
    refine .bind (identifier_fails.mono fun _ he => he.mono fun _ hm => ⟨p, .head _, hm⟩) fun _ =>
      .bind (identified_fails.mono fun _ he => he.mono ?_) fun _ => .of_ok rfl
    rintro _ ⟨q, hq, hm⟩
    exact ⟨q, .tail _ hq, hm⟩

theorem attributes_fails : ∀ {ms : List AttributeMapping} {r : Registry},
    (attributes entities owner ms r).FailsWith
      (·.Explained entities fun name => ∃ m ∈ ms, m.mappedType.Mentions name)
  | [], _ => .of_ok rfl
  | m :: rest, r => by
    unfold attributes
    refine .bind (stored_fails.mono fun _ he => he.mono fun _ hm => ⟨m, .head _, hm⟩) fun _ =>
      .bind (attributes_fails.mono fun _ he => he.mono ?_) fun _ => .of_ok rfl
    rintro _ ⟨a, ha, hm⟩
    exact ⟨a, .tail _ ha, hm⟩

theorem completed_fails : ∀ {ps : List PendingEntity} {bare : List Entity} {r : Registry},
    (completed entities ps bare r).FailsWith (·.Explained entities fun name =>
      ∃ p ∈ ps, ∃ m ∈ p.attributes, m.mappedType.Mentions name)
  | [], _, _ => .of_ok rfl
  | _ :: _, [], _ => .of_ok rfl
  | p :: ps, b :: bare, r => by
    unfold completed
    refine .bind (attributes_fails.mono fun _ he => he.mono fun _ hm => ⟨p, .head _, hm⟩) fun _ =>
      .bind (completed_fails.mono fun _ he => he.mono ?_) fun _ => .of_ok rfl
    rintro _ ⟨q, hq, hm⟩
    exact ⟨q, .tail _ hq, hm⟩

/-- The two ways in which the build can miss an entity: an identifier mentions it, or it is not
registered and an attribute mentions it. -/
theorem entities_unknown {ps : List PendingEntity} {r' : Registry}
    (h : Build.entities ps r = .error (.unknownEntity name) r') :
    (∃ p ∈ ps, p.identifier.Mentions name) ∨
      (∃ p ∈ ps, ∃ m ∈ p.attributes, m.mappedType.Mentions name) ∧ ∀ p ∈ ps, p.name ≠ name := by
  unfold Build.entities at h
  cases ho : orphan? ps with
  | some found =>
    simp only [ho] at h
    cases h
  | none =>
    simp only [ho] at h
    obtain h | ⟨bare, _, hbare, h⟩ := EStateM.bind_eq_error.1 h
    · exact .inl (identified_fails.error h name rfl).1
    · obtain ⟨hmentions, hnew⟩ := completed_fails.error h name rfl
      refine .inr ⟨hmentions, fun p hp => ?_⟩
      obtain ⟨b, hb, hid⟩ := (identified_ok hbare).exists_right hp
      rw [← hid.name]
      exact hnew b hb

end Build

namespace Registration

variable {ms : List EntityMapping} {r : Registration} {name : String}

theorem registerAll_fails : ∀ {ms : List EntityMapping} {r : Registration},
    (r.registerAll ms).FailsWith (· ≠ .unknownEntity name)
  | [], _ => .of_ok rfl
  | em :: _, r => by
    unfold registerAll
    refine .bind ?_ fun _ => registerAll_fails
    unfold register
    split
    · exact .of_error (by simp)
    · split
      · exact .of_error (by simp)
      · exact .of_ok rfl

theorem build_unknown (hr : empty.registerAll ms = .ok r)
    (hb : r.build = .error (.unknownEntity name)) :
    (∃ em ∈ ms, em.identifier.Mentions name) ∨
      (∃ em ∈ ms, ∃ am ∈ em.attributes, am.mappedType.Mentions name) ∧
        ∀ em ∈ ms, em.name ≠ name := by
  have hof := registered hr
  unfold build at hb
  split at hb
  · cases hb
  · rename_i e _ he
    cases hb
    obtain ⟨p, hp, hm⟩ | ⟨⟨p, hp, am, ham, hm⟩, hnew⟩ := Build.entities_unknown he
    · obtain ⟨em, hem, h⟩ := hof.exists_left hp
      exact .inl ⟨em, hem, h.identifier ▸ hm⟩
    · obtain ⟨em, hem, h⟩ := hof.exists_left hp
      refine .inr ⟨⟨em, hem, am, h.attributes ▸ ham, hm⟩, fun em' hem' => ?_⟩
      obtain ⟨q, hq, h'⟩ := hof.exists_right hem'
      rw [← h'.name]
      exact hnew q hq

theorem build_mentions {m : Metamodel} (hr : empty.registerAll ms = .ok r) (hb : r.build = .ok m)
    {em : EntityMapping} (hem : em ∈ ms) (name : String) : ¬ em.identifier.Mentions name := by
  obtain ⟨p, hp, h⟩ := (registered hr).exists_right hem
  obtain ⟨_, _, _, hi, -⟩ := build_ok hb
  obtain ⟨_, -, hid⟩ := (Build.identified_ok hi).exists_right hp
  obtain ⟨_, _, hid, -⟩ := hid.identifier
  rw [← h.identifier]
  exact Build.identifier_mentions hid name

end Registration

/-! ## Definitions -/

namespace Definition

variable {d : Definition} {component : ComponentMapper} {owner name context : String} {n : Nat}
  {a : AttributeDefinition} {am : AttributeMapping}

/-- The definition has an entity of that name. -/
def HasEntity (d : Definition) (name : String) : Prop := ∃ e ∈ d.entities, e.name = name

theorem hasEntity_of_entity {e : EntityDefinition} (h : d.entity name = .ok e) : d.HasEntity name :=
  ⟨e, mem_of_entity? (entity_ok h)⟩

theorem hasEntity_of_identifierCodes {codes : List SqlCode}
    (h : d.identifierCodes component name = .ok codes) : d.HasEntity name := by
  simp only [identifierCodes, Except.bind_eq_ok] at h
  obtain ⟨e, he, -⟩ := h
  exact hasEntity_of_entity he

section Attributes
variable (hc : ∀ {context embeddable n c}, component context embeddable n = .ok c →
  (MappedType.component c).Mentions name → d.HasEntity name)
include hc

theorem elementMapping_mentions {element : ElementDefinition} {em : ElementMapping}
    (h : elementMapping component context element = .ok em) :
    (∀ target link, em.elementType ≠ .entity target link) ∧
      ∀ {c}, em.elementType = .component c → (MappedType.component c).Mentions name →
        d.HasEntity name := by
  cases element with
  | basic | any =>
    obtain ⟨t, ht⟩ := elementMapping_type h
    simp [ht]
  | embeddable label =>
    obtain ⟨c, ht, hcomponent⟩ := elementMapping_type h
    refine ⟨by simp [ht], fun hc' hm => ?_⟩
    cases ht.symm.trans hc'
    exact hc hcomponent hm

theorem attributeMapping_mentions
    (h : d.attributeMapping component owner n a = .ok am) (hm : am.mappedType.Mentions name) :
    d.HasEntity name := by
  cases a with
  | basic b =>
    simp only [attributeMapping, basicMapping, Except.bind_eq_ok] at h
    obtain ⟨type, -, h⟩ := h
    split at h <;> (cases h; cases hm)
  | embedded x =>
    simp only [attributeMapping, embeddedMapping, Except.bind_eq_ok, Except.pure_eq_ok] at h
    obtain ⟨c, hcomponent, rfl⟩ := h
    exact hc hcomponent hm
  | any x =>
    simp only [attributeMapping, anyMapping, Except.bind_eq_ok, Except.pure_eq_ok] at h
    obtain ⟨_, -, rfl⟩ := h
    cases hm
  | manyToOne x | oneToOne x =>
    obtain ⟨kind, codes, -, hcodes, -, htype, -⟩ := toOneMapping_width h
    rw [htype] at hm
    cases hm
    exact hasEntity_of_identifierCodes hcodes
  | oneToMany x =>
    simp only [attributeMapping, oneToManyMapping, Except.bind_eq_ok, Except.pure_eq_ok] at h
    obtain ⟨_, he, _, -, _, -, rfl⟩ := h
    cases hm with
    | elements entity =>
      cases entity
      exact hasEntity_of_entity he
    | elementComponent elements => cases elements
  | manyToMany x =>
    simp only [attributeMapping, manyToManyMapping, Except.bind_eq_ok, Except.guard_eq_ok,
      Except.pure_eq_ok] at h
    obtain ⟨codes, hcodes, -, _, -, _, -, rfl⟩ := h
    cases hm with
    | elements entity =>
      cases entity
      exact hasEntity_of_identifierCodes hcodes
    | elementComponent elements => cases elements
  | elementCollection x =>
    simp only [attributeMapping, elementCollectionMapping, Except.bind_eq_ok,
      Except.pure_eq_ok] at h
    obtain ⟨element, helement, _, -, _, -, rfl⟩ := h
    obtain ⟨hentity, hcomponent⟩ := elementMapping_mentions hc helement
    cases hm with
    | elements entity => exact absurd entity (hentity _ _)
    | elementComponent elements mem inner => exact hcomponent elements (.component mem inner)

end Attributes

theorem componentMapper_mentions : ∀ {depth : Nat} {context embeddable : String} {n : Nat}
    {c : ComponentMapping}, d.componentMapper depth context embeddable n = .ok c →
    (MappedType.component c).Mentions name → d.HasEntity name
  | 0, _, _, _, _, h, _ => by
    obtain ⟨_, _, hd, -⟩ := componentMapper_ok h
    cases hd
  | depth + 1, _, _, _, _, h, hm => by
    obtain ⟨_, _, hd, -, -, hms⟩ := componentMapper_ok h
    cases hd
    cases hm with
    | component mem inner =>
      obtain ⟨a, -, ha⟩ := hms.exists_left mem
      exact attributeMapping_mentions componentMapper_mentions (subMapping_ok ha).2 inner

/-- A mapping of a definition mentions no other entities than those of the definition. -/
theorem entityMappings_mention {ems : List EntityMapping} (h : d.entityMappings = .ok ems)
    {em : EntityMapping} (hem : em ∈ ems) (ham : am ∈ em.attributes)
    (hm : am.mappedType.Mentions name) : ∃ em ∈ ems, em.name = name := by
  simp only [entityMappings, Except.bind_eq_ok] at h
  obtain ⟨_, hvalid, hems⟩ := h
  have hmapped := Except.mapM_ok hems
  obtain ⟨e, he, hmapping⟩ := hmapped.exists_left hem
  obtain ⟨D, a, hinherits⟩ := inherits_of_mem (validate_ok hvalid) he hmapping ham
  obtain ⟨_, _, _, -, -, -, ha⟩ := hinherits.mapped
  obtain ⟨x, hx, rfl⟩ := attributeMapping_mentions componentMapper_mentions ha hm
  obtain ⟨em', hem', hmapping'⟩ := hmapped.exists_right hx
  exact ⟨em', hem', (entityMapping_ok hmapping').1⟩

theorem metamodel_eq {ems : List EntityMapping} {r : Registration} (h : d.entityMappings = .ok ems)
    (hr : Registration.empty.registerAll ems = .ok r) : d.metamodel = r.build := by
  simp only [metamodel, h, bind, Except.bind, hr]

end Definition

/-! ## The build -/

/-- A registered entity is reported unknown only where a composite identifier mentions it. Such an
identifier never builds; and nothing else makes a definition whose mappings are found fail with an
unknown entity. -/
theorem unknown_entity_explained (ms : List EntityMapping) :
    (∀ r name, Registration.empty.registerAll ms = .ok r →
      r.build = .error (.unknownEntity name) →
      (∀ em ∈ ms, em.name ≠ name) ∨ ∃ em ∈ ms, em.identifier.Mentions name) ∧
    (∀ (d : Definition) name, d.entityMappings = .ok ms →
      d.metamodel = .error (.unknownEntity name) → ∃ em ∈ ms, em.identifier.Mentions name) ∧
    (∀ r m, Registration.empty.registerAll ms = .ok r → r.build = .ok m →
      ∀ em ∈ ms, ∀ name, ¬ em.identifier.Mentions name) := by
  refine ⟨fun r name hr hb => ?_, fun d name hms hd => ?_,
    fun r m hr hb em hem => Registration.build_mentions hr hb hem⟩
  · obtain hid | ⟨-, hnew⟩ := Registration.build_unknown hr hb
    · exact .inr hid
    · exact .inl hnew
  · simp only [Definition.metamodel, hms, Except.bind_eq_error] at hd
    obtain hd | ⟨_, hok, hr | ⟨r, hr, hb⟩⟩ := hd
    · cases hd
    · exact absurd rfl (Registration.registerAll_fails.error hr)
    · cases hok
      obtain hid | ⟨⟨em, hem, am, ham, hm⟩, hnew⟩ := Registration.build_unknown hr hb
      · exact hid
      · obtain ⟨em', hem', hname⟩ := Definition.entityMappings_mention hms hem ham hm
        exact absurd hname (hnew em' hem')

/-- Orders with lines: the key of a line is its order and a number. -/
def ledger : Definition :=
  ⟨none,
   [⟨"Order", none, some "orders", [], none, some ⟨"id", ["id"], some "long", none⟩, none, []⟩,
    ⟨"Line", none, some "line", [], none, some ⟨"key", [], none, some "LineKey"⟩, none, []⟩],
   [⟨"LineKey", [.manyToOne ⟨"order", "Order", none, [], false, none⟩,
      .basic ⟨"number", "integer", none, [], none, none, none, none, none⟩]⟩]⟩

theorem ledger_metamodel : ledger.metamodel = .error (.unknownEntity "Order") := by
  decide +kernel

theorem ledger_registered :
    ∃ ms r, ledger.entityMappings = .ok ms ∧ Registration.empty.registerAll ms = .ok r ∧
      ms.map (·.name) = ["Order", "Line"] := by
  have hnames : ledger.entityMappings.toOption.map (·.map (·.name)) = some ["Order", "Line"] := by
    decide +kernel
  obtain ⟨ms, hms, hnames⟩ := Option.map_eq_some_iff.1 hnames
  have hms := Except.toOption_eq_some.1 hms
  have hsome : (ledger.entityMappings >>= Registration.empty.registerAll).toOption.isSome := by
    decide +kernel
  rw [hms] at hsome
  obtain ⟨r, hr⟩ := Except.exists_ok_of_isSome hsome
  exact ⟨ms, r, hms, hr, hnames⟩

/-- The mappings of a ledger are found and registered, that of the orders among them, and yet the
build does not know the orders. -/
theorem registered_order_unknown :
    ∃ ms r, ledger.entityMappings = .ok ms ∧ Registration.empty.registerAll ms = .ok r ∧
      (∃ em ∈ ms, em.name = "Order") ∧ r.build = .error (.unknownEntity "Order") ∧
      ledger.metamodel = .error (.unknownEntity "Order") := by
  obtain ⟨ms, r, hms, hr, hnames⟩ := ledger_registered
  have horder : "Order" ∈ ms.map (·.name) := by simp [hnames]
  exact ⟨ms, r, hms, hr, List.mem_map.1 horder, Definition.metamodel_eq hms hr ▸ ledger_metamodel,
    ledger_metamodel⟩

/-- The line's key is at fault in a ledger; the archive has no such key. -/
theorem ledger_unknown_explained :
    (∃ ms r, Registration.empty.registerAll ms = .ok r ∧
      r.build = .error (.unknownEntity "Order") ∧
      ((∀ em ∈ ms, em.name ≠ "Order") ∨ ∃ em ∈ ms, em.identifier.Mentions "Order")) ∧
    (∃ ems, ledger.entityMappings = .ok ems ∧
      ledger.metamodel = .error (.unknownEntity "Order") ∧
      ∃ em ∈ ems, em.identifier.Mentions "Order") ∧
    (∃ ms r m, Registration.empty.registerAll ms = .ok r ∧ r.build = .ok m ∧ ms ≠ [] ∧
      ∀ em ∈ ms, ∀ name, ¬ em.identifier.Mentions name) := by
  obtain ⟨ms, r, hms, hr, -⟩ := ledger_registered
  obtain ⟨explained, declared, -⟩ := unknown_entity_explained ms
  have hd := ledger_metamodel
  have hb : r.build = .error (.unknownEntity "Order") := Definition.metamodel_eq hms hr ▸ hd
  refine ⟨⟨ms, r, hr, hb, explained r _ hr hb⟩, ⟨ms, hms, hd, declared ledger _ hms hd⟩, ?_⟩
  have harchive := archive_metamodel
  simp only [Definition.metamodel, Except.bind_eq_ok] at harchive
  obtain ⟨ems, hems, r, hr, hb⟩ := harchive
  obtain ⟨-, -, mentionless⟩ := unknown_entity_explained ems
  refine ⟨ems, r, _, hr, hb, ?_, mentionless r _ hr hb⟩
  rintro rfl
  cases hr
  cases hb

end EntityQuery
