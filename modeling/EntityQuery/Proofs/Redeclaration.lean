import EntityQuery.Proofs.Rebuilding
import EntityQuery.Proofs.TwoRuns

/-!
# Definitions that differ in their attributes

`Definition.redeclared f d` is the definition with other attributes: `f` says what becomes of each
attribute of each entity. As long as attributes keep their names, nothing else changes: the
hierarchies and their checks, the tables, the identifiers and the embeddables are the same, and so
is the mapping of an attribute that both definitions have.

If a definition can be built, so can it be with the other attributes, up to what can go wrong where
these are built themselves (`Definition.metamodel_redeclared`).
-/

set_option autoImplicit false

namespace EntityQuery

/-- The entity with other attributes. -/
def EntityDefinition.redeclared (f : String → AttributeDefinition → AttributeDefinition)
    (e : EntityDefinition) : EntityDefinition :=
  { e with attributes := e.attributes.map (f e.name) }

/-- The definition with other attributes. -/
def Definition.redeclared (f : String → AttributeDefinition → AttributeDefinition)
    (d : Definition) : Definition :=
  { d with entities := d.entities.map (·.redeclared f) }

namespace Definition

variable {f : String → AttributeDefinition → AttributeDefinition} {d : Definition}
  {component : ComponentMapper}

/-! ## Hierarchies -/

theorem entity?_redeclared (name : String) :
    (d.redeclared f).entity? name = (d.entity? name).map (·.redeclared f) := by
  rw [entity?, redeclared, List.find?_map]
  rfl

theorem ancestorsFrom_redeclared (e : EntityDefinition) : ∀ (budget : Nat) (parent : Option String),
    (d.redeclared f).ancestorsFrom (e.redeclared f) budget parent =
      List.map (·.redeclared f) <$> d.ancestorsFrom e budget parent
  | _, none => by
    rw [ancestorsFrom, ancestorsFrom]
    rfl
  | budget, some name => by
    rw [ancestorsFrom, ancestorsFrom, entity?_redeclared]
    cases d.entity? name with
    | none => rfl
    | some p =>
      simp only [Option.map_some]
      by_cases hp : p.name = e.name
      · have hp' : (p.redeclared f).name = (e.redeclared f).name := hp
        rw [if_pos hp', if_pos hp]
        rfl
      · have hp' : ¬ (p.redeclared f).name = (e.redeclared f).name := hp
        rw [if_neg hp', if_neg hp]
        cases budget with
        | zero => rfl
        | succ budget =>
          have ih := ancestorsFrom_redeclared e budget (p.redeclared f).parent
          simp only [ih, bind_map_left, map_bind, map_pure, List.map_cons]
          rfl

theorem ancestors_redeclared (e : EntityDefinition) :
    (d.redeclared f).ancestors (e.redeclared f) = List.map (·.redeclared f) <$> d.ancestors e := by
  rw [ancestors, ancestors, ← ancestorsFrom_redeclared]
  simp only [redeclared, List.length_map]
  rfl

theorem root_redeclared (e : EntityDefinition) :
    (d.redeclared f).root (e.redeclared f) = (·.redeclared f) <$> d.root e := by
  rw [root, root, ancestors_redeclared, bind_map_left, map_bind]
  refine bind_congr fun as => ?_
  rw [List.getLast?_map]
  cases as.getLast? <;> rfl

theorem children_redeclared (e : EntityDefinition) :
    (d.redeclared f).children (e.redeclared f) = (d.children e).map (·.redeclared f) := by
  rw [children, redeclared, List.filter_map]
  rfl

theorem descendantsWithin_redeclared : ∀ (n : Nat) (e : EntityDefinition),
    (d.redeclared f).descendantsWithin n (e.redeclared f) =
      (d.descendantsWithin n e).map (·.redeclared f)
  | 0, _ => rfl
  | n + 1, e => by
    rw [descendantsWithin, descendantsWithin, children_redeclared, List.flatMap_map,
      List.map_flatMap]
    simp only [descendantsWithin_redeclared n, List.map_cons]

theorem descendants_redeclared (e : EntityDefinition) :
    (d.redeclared f).descendants (e.redeclared f) = (d.descendants e).map (·.redeclared f) := by
  rw [descendants, descendants, ← descendantsWithin_redeclared]
  simp only [redeclared, List.length_map]

theorem line_redeclared (e : EntityDefinition) :
    (d.redeclared f).line (e.redeclared f) = List.map (·.redeclared f) <$> d.line e := by
  rw [line, line, ancestors_redeclared, bind_map_left, map_bind]
  refine bind_congr fun as => ?_
  rw [descendants_redeclared, map_pure, List.map_append, List.map_cons]

/-! ## Tables -/

theorem ownTables_redeclared (e : EntityDefinition) :
    (d.redeclared f).ownTables (e.redeclared f) = d.ownTables e := by
  rw [ownTables, ownTables, root_redeclared, bind_map_left]
  rfl

theorem tableOrder_redeclared (e : EntityDefinition) :
    (d.redeclared f).tableOrder (e.redeclared f) = d.tableOrder e := by
  rw [tableOrder, tableOrder, line_redeclared, bind_map_left]
  simp only [List.mapM_map, Function.comp_def, ownTables_redeclared]

/-! ## Checks -/

theorem checkEntity_redeclared (e : EntityDefinition) :
    (d.redeclared f).checkEntity (e.redeclared f) = d.checkEntity e := by
  rw [checkEntity, checkEntity, root_redeclared, bind_map_left]
  simp only [ownTables_redeclared]
  rfl

/-- Attributes keep their names. -/
def KeepsNames (f : String → AttributeDefinition → AttributeDefinition) : Prop :=
  ∀ owner a, (f owner a).name = a.name

theorem declared_redeclared (hf : KeepsNames f) (members : List EntityDefinition) :
    declared (members.map (·.redeclared f)) =
      (declared members).map fun x => (x.1.redeclared f, x.2) := by
  simp only [declared, List.flatMap_map, List.map_flatMap, List.map_map,
    EntityDefinition.redeclared, Function.comp_def, hf _ _]

theorem firstCollision_redeclared (f : String → AttributeDefinition → AttributeDefinition) :
    ∀ (seen : List String) (xs : List (EntityDefinition × String)),
    firstCollision seen (xs.map fun x => (x.1.redeclared f, x.2)) =
      (firstCollision seen xs).map fun x => (x.1.redeclared f, x.2)
  | _, [] => rfl
  | seen, (e, name) :: xs => by
    rw [List.map_cons, firstCollision, firstCollision, firstCollision_redeclared f]
    split_ifs <;> rfl

theorem checkNames_redeclared (hf : KeepsNames f) (e : EntityDefinition) :
    (d.redeclared f).checkNames (e.redeclared f) = d.checkNames e := by
  simp only [checkNames, descendants_redeclared, ← List.map_cons, declared_redeclared hf,
    firstCollision_redeclared]
  rw [show (e.redeclared f).identifier = e.identifier from rfl]
  cases firstCollision [(e.identifier.map (·.name)).getD "id"] (declared (e :: d.descendants e)) <;>
    rfl

theorem validate_redeclared (hf : KeepsNames f) : (d.redeclared f).validate = d.validate := by
  have hnames : (d.redeclared f).entities.map (·.name) = d.entities.map (·.name) :=
    List.map_map
  have hroots : (d.redeclared f).entities.filter (·.parent.isNone) =
      (d.entities.filter (·.parent.isNone)).map (·.redeclared f) :=
    List.filter_map
  have hempty : (d.redeclared f).entities.isEmpty = d.entities.isEmpty := List.isEmpty_map
  simp only [validate, hempty, hnames, hroots]
  have hentities : (d.redeclared f).entities.forM (d.redeclared f).checkEntity =
      d.entities.forM d.checkEntity := by
    refine (List.forM_map (m := Except MetamodelError)).trans ?_
    simp only [checkEntity_redeclared]
    rfl
  have hroots' : ((d.entities.filter (·.parent.isNone)).map (·.redeclared f)).forM
      (d.redeclared f).checkNames = (d.entities.filter (·.parent.isNone)).forM d.checkNames := by
    refine (List.forM_map (m := Except MetamodelError)).trans ?_
    simp only [checkNames_redeclared hf]
    rfl
  rw [hentities, hroots']
  rfl

/-! ## Mappings -/

theorem rootIdentifier_redeclared (e : EntityDefinition) :
    (d.redeclared f).rootIdentifier (e.redeclared f) = d.rootIdentifier e := by
  rw [rootIdentifier, rootIdentifier, root_redeclared, bind_map_left]
  rfl

theorem identifierSlots_redeclared (e : EntityDefinition) :
    (d.redeclared f).identifierSlots component (e.redeclared f) =
      d.identifierSlots component e := by
  rw [identifierSlots, identifierSlots, rootIdentifier_redeclared]
  rfl

theorem entity_redeclared (name : String) :
    (d.redeclared f).entity name = (·.redeclared f) <$> d.entity name := by
  rw [entity, entity, entity?_redeclared]
  cases d.entity? name <;> rfl

theorem identifierCodes_redeclared (name : String) :
    (d.redeclared f).identifierCodes component name = d.identifierCodes component name := by
  rw [identifierCodes, identifierCodes, entity_redeclared, bind_map_left]
  simp only [identifierSlots_redeclared]

theorem attributeMapping_redeclared (owner : String) (n : Nat) (a : AttributeDefinition) :
    (d.redeclared f).attributeMapping component owner n a =
      d.attributeMapping component owner n a := by
  cases a with
  | basic a | embedded a | any a => rfl
  | manyToOne a | oneToOne a =>
    simp only [attributeMapping, toOneMapping, identifierCodes_redeclared]
  | oneToMany a =>
    simp only [attributeMapping, oneToManyMapping, keyCodes, identifierCodes_redeclared,
      entity_redeclared, bind_map_left]
  | manyToMany a =>
    simp only [attributeMapping, manyToManyMapping, keyCodes, identifierCodes_redeclared]
  | elementCollection a =>
    simp only [attributeMapping, elementCollectionMapping, keyCodes, identifierCodes_redeclared]

theorem subMapping_redeclared (owner : String) (n : Nat) :
    (d.redeclared f).subMapping component owner n = d.subMapping component owner n := by
  funext a
  rw [subMapping, subMapping, attributeMapping_redeclared]

theorem componentMapper_redeclared : ∀ depth : Nat,
    (d.redeclared f).componentMapper depth = d.componentMapper depth
  | 0 => by
    funext context name n
    rw [componentMapper, componentMapper]
    rfl
  | depth + 1 => by
    funext context name n
    unfold componentMapper
    simp only [componentMapper_redeclared depth, subMapping_redeclared]
    rfl

theorem component_redeclared : (d.redeclared f).component = d.component :=
  componentMapper_redeclared d.embeddables.length

theorem identifierMapping_redeclared (e : EntityDefinition) :
    (d.redeclared f).identifierMapping component (e.redeclared f) =
      d.identifierMapping component e := by
  rw [identifierMapping, identifierMapping, rootIdentifier_redeclared, identifierSlots_redeclared]
  rfl

theorem inheritedMapping_redeclared (name : String) (order : List String) (D : EntityDefinition)
    (tables : List String) (a : AttributeDefinition) :
    (d.redeclared f).inheritedMapping name order (D.redeclared f) tables a =
      d.inheritedMapping name order D tables a := by
  simp only [inheritedMapping, component_redeclared, attributeMapping_redeclared]
  rfl

/-- A mapping takes the place of another: the two are those of an attribute and of what becomes of
it, and the new one is in one of so many tables. -/
structure Replaces (d : Definition) (f : String → AttributeDefinition → AttributeDefinition)
    (width : Nat) (am am' : AttributeMapping) : Prop where
  mapped : ∃ D n n' a, D ∈ d.entities ∧ a ∈ D.attributes ∧
    d.attributeMapping d.component D.name n a = .ok am ∧
    d.attributeMapping d.component D.name n' (f D.name a) = .ok am' ∧ n' < width

/-- What becomes of an attribute can be mapped wherever the attribute is. -/
def Remaps (d : Definition) (f : String → AttributeDefinition → AttributeDefinition) : Prop :=
  ∀ e ∈ d.entities, ∀ D, d.InLine e D → ∀ order tables, d.tableOrder e = .ok order →
    d.ownTables D = .ok tables → ∀ a ∈ D.attributes, ∀ am,
    d.inheritedMapping e.name order D tables a = .ok am →
    ∃ am', d.inheritedMapping e.name order D tables (f D.name a) = .ok am'

theorem attributes_redeclared (hmap : d.Remaps f) {e D : EntityDefinition} (he : e ∈ d.entities)
    (hline : d.InLine e D) {order tables : List String} (ho : d.tableOrder e = .ok order)
    (ht : d.ownTables D = .ok tables) {ams : List AttributeMapping}
    (h : D.attributes.mapM (d.inheritedMapping e.name order D tables) = .ok ams) :
    ∃ ams', (D.redeclared f).attributes.mapM
        ((d.redeclared f).inheritedMapping e.name order (D.redeclared f) tables) = .ok ams' ∧
      List.Forall₂ (d.Replaces f order.length) ams ams' := by
  have hnew : (D.redeclared f).attributes.mapM
      ((d.redeclared f).inheritedMapping e.name order (D.redeclared f) tables) =
        D.attributes.mapM fun a => d.inheritedMapping e.name order D tables (f D.name a) := by
    rw [EntityDefinition.redeclared, List.mapM_map]
    exact congrArg (D.attributes.mapM ·) (funext fun a => inheritedMapping_redeclared _ _ D _ _)
  rw [hnew]
  refine Except.mapM_of_ok h fun a ha am ham => ?_
  obtain ⟨am', ham'⟩ := hmap e he D hline order tables ho ht a ha am ham
  obtain ⟨_, n, -, -, hm⟩ := inheritedMapping_ok ht ham
  obtain ⟨_, n', -, hn', hm'⟩ := inheritedMapping_ok ht ham'
  obtain ⟨hlt, -⟩ := List.idxOf?_eq_some_iff.1 hn'
  exact ⟨am', ham', ⟨D, n, n', a, hline.mem he, ha, hm, hm', hlt⟩⟩

/-- The mapping of an entity with other attributes differs in the mappings of attributes only. -/
theorem entityMapping_redeclared (hv : d.Valid) (hmap : d.Remaps f) {e : EntityDefinition}
    (he : e ∈ d.entities) {em : EntityMapping} (h : d.entityMapping e = .ok em) :
    ∃ ams, (d.redeclared f).entityMapping (e.redeclared f) = .ok { em with attributes := ams } ∧
      List.Forall₂ (d.Replaces f em.tables.length) em.attributes ams := by
  simp only [entityMapping, Except.bind_eq_ok, Except.pure_eq_ok] at h
  obtain ⟨order, ho, identifier, hi, members, hl, rows, hrows, rfl⟩ := h
  have hrow : ∀ D ∈ members, ∀ row, (do
        let tables ← d.ownTables D
        D.attributes.mapM (d.inheritedMapping e.name order D tables)) = .ok row →
      ∃ row', (do
        let tables ← (d.redeclared f).ownTables (D.redeclared f)
        (D.redeclared f).attributes.mapM
          ((d.redeclared f).inheritedMapping e.name order (D.redeclared f) tables)) = .ok row' ∧
        List.Forall₂ (d.Replaces f order.length) row row' := by
    intro D hD row hrow
    obtain ⟨tables, ht, hrow⟩ := Except.bind_eq_ok.1 hrow
    obtain ⟨row', hrow', hall⟩ :=
      attributes_redeclared hmap he ((mem_line_iff hv he hl).1 hD) ho ht hrow
    rw [ownTables_redeclared]
    exact ⟨row', Except.bind_eq_ok.2 ⟨tables, ht, hrow'⟩, hall⟩
  obtain ⟨rows', hrows', hall⟩ := Except.mapM_of_ok hrows hrow
  refine ⟨rows'.flatten, ?_, List.rel_flatten hall⟩
  simp only [entityMapping, tableOrder_redeclared, component_redeclared,
    identifierMapping_redeclared, line_redeclared, Except.bind_eq_ok, Except.pure_eq_ok]
  refine ⟨order, ho, identifier, hi, members.map (·.redeclared f), by rw [hl]; rfl, rows', ?_, rfl⟩
  rw [List.mapM_map]
  exact hrows'

end Definition

/-! ## Registration -/

section

variable {d : Definition} {f : String → AttributeDefinition → AttributeDefinition}

/-- Two mappings of an entity differ in the mappings of attributes only. -/
structure EntityMapping.Redeclared (d : Definition)
    (f : String → AttributeDefinition → AttributeDefinition) (em em' : EntityMapping) : Prop where
  others : em' = { em with attributes := em'.attributes }
  attributes : List.Forall₂ (d.Replaces f em.tables.length) em.attributes em'.attributes

/-- Two registered entities differ in the mappings of attributes only. -/
structure PendingEntity.Redeclared (d : Definition)
    (f : String → AttributeDefinition → AttributeDefinition) (p p' : PendingEntity) : Prop where
  others : p' = { p with attributes := p'.attributes }
  attributes : List.Forall₂ (d.Replaces f p.tables.length) p.attributes p'.attributes

theorem PendingEntity.Redeclared.name {p p' : PendingEntity} (h : p.Redeclared d f p') :
    p'.name = p.name := by
  rw [h.others]

theorem PendingEntity.Redeclared.parent {p p' : PendingEntity} (h : p.Redeclared d f p') :
    p'.parent = p.parent := by
  rw [h.others]

/-- Two registrations differ in the mappings of attributes only. -/
structure Registration.Redeclared (d : Definition)
    (f : String → AttributeDefinition → AttributeDefinition) (r r' : Registration) : Prop where
  database : r'.database = r.database
  pending : List.Forall₂ (PendingEntity.Redeclared d f) r.pending r'.pending

theorem any_redeclared {ps ps' : List PendingEntity}
    (h : List.Forall₂ (PendingEntity.Redeclared d f) ps ps') (name : String) :
    ps'.any (·.name = name) = ps.any (·.name = name) := by
  induction h with
  | nil => rfl
  | cons hp _ ih => rw [List.any_cons, List.any_cons, hp.name, ih]

theorem Database.length_tablesFor : ∀ (expressions : List String) (db : Database),
    (tablesFor expressions db).1.length = expressions.length
  | [], _ => rfl
  | _ :: rest, _ => congrArg (· + 1) (length_tablesFor rest _)

theorem Registration.register_redeclared {r r' r1 : Registration} {em em' : EntityMapping}
    (hr : r.Redeclared d f r') (hem : em.Redeclared d f em') (h : r.register em = .ok r1) :
    ∃ r1', r'.register em' = .ok r1' ∧ r1.Redeclared d f r1' := by
  obtain ⟨hothers, hattributes⟩ := hem
  rw [hothers]
  unfold register at h ⊢
  rw [any_redeclared hr.pending]
  split at h
  · cases h
  · rename_i hnew
    rw [if_neg hnew]
    split at h
    · cases h
    · rename_i first rest htables
      cases h
      simp only [htables, hr.database]
      refine ⟨_, rfl, rfl, List.rel_append hr.pending (.cons ⟨rfl, ?_⟩ .nil)⟩
      rw [htables] at hattributes
      simpa [PendingEntity.tables, Database.length_tablesFor] using hattributes

theorem Registration.registerAll_redeclared {ems ems' : List EntityMapping}
    {r r' r1 : Registration} (hems : List.Forall₂ (EntityMapping.Redeclared d f) ems ems')
    (hr : r.Redeclared d f r') (h : r.registerAll ems = .ok r1) :
    ∃ r1', r'.registerAll ems' = .ok r1' ∧ r1.Redeclared d f r1' := by
  induction hems generalizing r r' with
  | nil =>
    cases h
    exact ⟨r', rfl, hr⟩
  | cons hem _ ih =>
    simp only [registerAll, Except.bind_eq_ok] at h ⊢
    obtain ⟨r2, h2, h⟩ := h
    obtain ⟨r2', h2', hr2⟩ := register_redeclared hr hem h2
    obtain ⟨r1', h1', hr1⟩ := ih hr2 h
    exact ⟨r1', ⟨r2', h2', h1'⟩, hr1⟩

/-! ## The build -/

namespace Build

variable {P : MetamodelError → Prop} {entities bare : List Entity} {owner : Owner}
  {ps ps' : List PendingEntity} {r r' r2 : Registry}

theorem orphan?_redeclared (h : List.Forall₂ (PendingEntity.Redeclared d f) ps ps') :
    orphan? ps' = orphan? ps := by
  unfold orphan?
  simp only [any_redeclared h]
  generalize ps.any = among
  induction h with
  | nil => rfl
  | cons hp _ ih => rw [List.findSome?_cons, List.findSome?_cons, hp.name, hp.parent, ih]

/-- Identifiers are built alike. -/
theorem identified_redeclared (h : List.Forall₂ (PendingEntity.Redeclared d f) ps ps') :
    identified ps' = identified ps := by
  induction h with
  | nil => rfl
  | cons hp _ ih =>
    rw [hp.others, identified, identified, ih]
    rfl

/-- What becomes of an attribute can be built wherever the attribute has been built, or else fails
with one of the given errors. -/
structure Rebuilds (d : Definition) (f : String → AttributeDefinition → AttributeDefinition)
    (P : MetamodelError → Prop) : Prop where
  run : ∀ {entities : List Entity} {owner : Owner} {am am' : AttributeMapping} {a : Attribute}
    {r r' r2 : Registry}, d.Replaces f owner.tables.length am am' →
    attributeOf entities owner am r = .ok a r' → Prepared entities owner r2 →
    (attributeOf entities owner am' r2).FailsWith P

theorem attributes_redeclared (hf : Rebuilds d f P) {ams ams' : List AttributeMapping}
    {as : List Attribute} {r r' r2 : Registry}
    (hams : List.Forall₂ (d.Replaces f owner.tables.length) ams ams')
    (h : attributes entities owner ams r = .ok as r') (hp : Prepared entities owner r2) :
    (attributes entities owner ams' r2).FailsWith P := by
  induction hams generalizing as r r' r2 with
  | nil => exact .of_ok rfl
  | cons ham _ ih =>
    simp only [attributes, EStateM.bind_eq_ok] at h
    obtain ⟨_, _, ha, _, _, hrest, -⟩ := h
    refine .bind (hf.run ham ha hp) fun ha' => ?_
    exact .bind (ih hrest (hp.grows (stored_grows ha'))) fun _ => .of_ok rfl

theorem completed_redeclared (hf : Rebuilds d f P) : ∀ {ps ps' : List PendingEntity}
    {bare es : List Entity} {r r' r2 : Registry},
    List.Forall₂ (PendingEntity.Redeclared d f) ps ps' →
    List.Forall₂ (fun p b => Prepared entities (p.owner b.identifier.columns) r2) ps bare →
    completed entities ps bare r = .ok es r' → (completed entities ps' bare r2).FailsWith P
  | _, _, _, _, _, _, _, .nil, .nil, _ => .of_ok rfl
  | p :: _, p' :: _, b :: _, _, _, _, _, .cons hp hps, .cons hb hbare, h => by
    simp only [completed, EStateM.bind_eq_ok] at h
    obtain ⟨_, _, ha, _, _, hrest, -⟩ := h
    have howner : p'.owner b.identifier.columns = p.owner b.identifier.columns := by
      rw [hp.others]
      rfl
    refine .bind (x := attributes entities (p'.owner b.identifier.columns) p'.attributes) ?_ ?_
    · rw [howner]
      exact attributes_redeclared hf hp.attributes ha hb
    · intro _ _ ha'
      have hg := attributes_grows ha'
      exact .bind (completed_redeclared hf hps (hbare.imp fun _ _ hb => hb.grows hg) hrest)
        fun _ => .of_ok rfl

/-- Once identifiers are built, every registered entity can be built for. -/
theorem identified_prepared {ems : List EntityMapping} {reg : Registration}
    (hreg : Registration.empty.registerAll ems = .ok reg) {r : Registry}
    (hr : r.database = reg.database) (h : identified reg.pending r = .ok bare r') :
    List.Forall₂ (fun p b => Prepared bare (p.owner b.identifier.columns) r') reg.pending bare := by
  have hnamed : r.database.Named := by
    obtain ⟨_, -, -, hnamed, -⟩ := Registration.registerAll_ok (r := .empty) nofun hreg
    rw [hr]
    exact hnamed
  have hg := identified_grows h
  have htables : ∀ p ∈ reg.pending, ∀ id ∈ p.tables, r'.database.Has id := by
    intro p hp id hid
    obtain ⟨em, -, hof⟩ := (Registration.registered hreg).exists_left hp
    obtain ⟨_, -, hshows⟩ := hof.tables.exists_left hid
    rw [← hr] at hshows
    exact hshows.has.grows hg.database
  have hids := identified_ok h
  have hknown : ∀ b ∈ bare, r'.database.Has b.primaryTable := by
    intro b hb
    obtain ⟨p, hp, hi⟩ := hids.exists_left hb
    refine htables p hp _ ?_
    rw [← hi.tables]
    exact List.mem_cons_self
  refine ((List.forall₂_and_left _ _).2 ⟨htables, hids⟩).imp ?_
  rintro p b ⟨ht, hi⟩
  obtain ⟨_, _, hid, -⟩ := hi.identifier
  exact ⟨hg.named hnamed, ht, hknown, (identifier_isKey hid).columns⟩

theorem entities_redeclared (hf : Rebuilds d f P) {ems : List EntityMapping} {reg : Registration}
    (hreg : Registration.empty.registerAll ems = .ok reg)
    (hps : List.Forall₂ (PendingEntity.Redeclared d f) reg.pending ps') {es : List Entity}
    (h : Build.entities reg.pending ⟨reg.database, [], []⟩ = .ok es r') :
    (Build.entities ps' ⟨reg.database, [], []⟩).FailsWith P := by
  obtain ⟨bare, r1, hi, hc⟩ := entities_ok h
  unfold Build.entities
  rw [orphan?_redeclared hps, entities_orphan? h, identified_redeclared hps]
  refine .bind (.of_ok hi) fun hi' => ?_
  cases hi.symm.trans hi'
  exact completed_redeclared hf hps (identified_prepared hreg rfl hi) hc

end Build

/-- A definition can be built with other attributes, if these can be mapped and built where the old
ones are. -/
theorem Definition.metamodel_redeclared {P : MetamodelError → Prop} {m : Metamodel}
    (h : d.metamodel = .ok m) (hnames : KeepsNames f) (hmap : d.Remaps f)
    (hbuild : Build.Rebuilds d f P) : (d.redeclared f).metamodel.FailsWith P := by
  simp only [metamodel, entityMappings, Except.bind_eq_ok] at h
  obtain ⟨ems, ⟨_, hv, hems⟩, reg, hreg, h⟩ := h
  obtain ⟨ems', hems', hall⟩ : ∃ ems', (d.redeclared f).entities.mapM
      (d.redeclared f).entityMapping = .ok ems' ∧
      List.Forall₂ (EntityMapping.Redeclared d f) ems ems' := by
    rw [redeclared, List.mapM_map]
    refine Except.mapM_of_ok hems fun e he em hem => ?_
    obtain ⟨ams, hnew, hall⟩ := entityMapping_redeclared (validate_ok hv) hmap he hem
    exact ⟨_, hnew, rfl, hall⟩
  have hmappings : (d.redeclared f).entityMappings = .ok ems' := by
    simp only [entityMappings, validate_redeclared hnames, hv]
    exact hems'
  obtain ⟨reg', hreg', hredeclared⟩ := Registration.registerAll_redeclared hall ⟨rfl, .nil⟩ hreg
  rw [metamodel_eq hmappings hreg', Registration.build, hredeclared.database]
  unfold Registration.build at h
  split at h
  · rename_i es found hentities
    have hnew := Build.entities_redeclared hbuild hreg hredeclared.pending hentities
    split
    · exact .of_ok rfl
    · rename_i herror
      exact .of_error (hnew.error herror)
  · cases h

end

end EntityQuery
