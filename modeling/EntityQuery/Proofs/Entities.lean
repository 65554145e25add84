import EntityQuery.Definition.Mapping
import EntityQuery.Query.Statement
import EntityQuery.Proofs.Build
import EntityQuery.Proofs.Hierarchy
import EntityQuery.Proofs.Keys

/-!
# The entities of a metamodel

Where the entities of a metamodel come from. `registerAll_ok` follows the registration of their
mappings, and `identified_ok`, `attributes_ok` and `completed_ok` the build of identifiers and
attributes. The mappings of an entity are those of the attributes of its line
(`inherits_of_mem`, `exists_inherits`), each in the table that the declaring entity designates for
it, by the number of that table among those of the entity (`Definition.Inherits`).

`Definition.Builds` puts the parts together: it holds for the metamodel of every definition
(`builds`), and every entity of the definition is found by its name (`Builds.entity`).
-/

set_option autoImplicit false

namespace EntityQuery

/-! ## Registration -/

/-- A registered entity has the identifier and the attributes of its mapping, and its tables are
shown by the expressions there. -/
structure PendingEntity.Of (db : Database) (m : EntityMapping) (p : PendingEntity) : Prop where
  name : p.name = m.name
  identifier : p.identifier = m.identifier
  attributes : p.attributes = m.attributes
  tables : List.Forall₂ db.Shows m.tables p.tables

theorem PendingEntity.Of.grows {db db' : Database} {m : EntityMapping} {p : PendingEntity}
    (h : p.Of db m) (hg : db.Grows db') : p.Of db' m :=
  ⟨h.name, h.identifier, h.attributes, h.tables.imp fun _ _ hs => hs.grows hg⟩

namespace Registration

theorem register_ok {r r' : Registration} {m : EntityMapping} (hn : r.database.Named)
    (h : r.register m = .ok r') :
    ∃ p, r'.pending = r.pending ++ [p] ∧ r.database.Grows r'.database ∧ r'.database.Named ∧
      p.Of r'.database m := by
  unfold register at h
  split at h
  · cases h
  · split at h
    · cases h
    · rename_i first rest htables
      cases h
      obtain ⟨hfirst, hs⟩ := Database.tableFor_shows first hn
      obtain ⟨hg, hrest, hshow⟩ := Database.tablesFor_show rest hfirst
      refine ⟨_, rfl, (Database.tableFor_grows first r.database).trans hg, hrest, rfl, rfl, rfl, ?_⟩
      rw [htables]
      exact .cons (hs.grows hg) hshow

theorem registerAll_ok : ∀ {ms : List EntityMapping} {r r' : Registration}, r.database.Named →
    r.registerAll ms = .ok r' →
    ∃ ps, r'.pending = r.pending ++ ps ∧ r.database.Grows r'.database ∧ r'.database.Named ∧
      List.Forall₂ (fun m p => p.Of r'.database m) ms ps
  | [], r, _, hn, h => by
    cases h
    exact ⟨[], by simp, .refl _, hn, .nil⟩
  | m :: ms, r, r', hn, h => by
    simp only [registerAll, Except.bind_eq_ok] at h
    obtain ⟨r1, h1, h⟩ := h
    obtain ⟨p, hp, hg, hn1, hof⟩ := register_ok hn h1
    obtain ⟨ps, hps, hg', hn', hall⟩ := registerAll_ok hn1 h
    exact ⟨p :: ps, by simp [hps, hp], hg.trans hg', hn', .cons (hof.grows hg') hall⟩

theorem registered {ms : List EntityMapping} {r : Registration} (h : empty.registerAll ms = .ok r) :
    List.Forall₂ (fun m p => p.Of r.database m) ms r.pending := by
  have hempty : Registration.empty.database.Named := by
    intro _ _ hl
    cases hl
  obtain ⟨ps, hps, -, -, hall⟩ := registerAll_ok hempty h
  rw [hps]
  exact hall

end Registration

/-! ## Identifiers -/

/-- The role of the identifier of a registered entity. -/
def PendingEntity.identifierRole (p : PendingEntity) : String :=
  s!"{p.name}.{p.identifier.name}"

/-- The type that the attributes of a registered entity are built for. -/
def PendingEntity.owner (p : PendingEntity) (identifierColumns : List ColumnId) : Owner :=
  ⟨.entity p.name, p.tables, identifierColumns⟩

namespace Build

variable {r r' : Registry} {entities : List Entity}

/-- An identifier is built on the primary table; it is of a basic type, or an embeddable that is
built before any entity is known. -/
theorem identifier_ok {p : PendingEntity} {id : SingularAttribute}
    (h : identifier p r = .ok id r') :
    ∃ columns r1, database (Database.namedValues p.identifierRole p.primaryTable
        p.identifier.columns p.identifier.sqlCodes) r = .ok columns r1 ∧
      ((∃ t, p.identifier.idType = .basic t ∧ r' = r1 ∧
          id = ⟨.entity p.name, p.identifier.name, .basic, .basic t, columns, 0, true⟩) ∨
        ∃ c, p.identifier.idType = .component c ∧
          component [] (p.owner columns) p.identifierRole c r1 = .ok () r' ∧
          id = ⟨.entity p.name, p.identifier.name, .embedded, .embeddable p.identifierRole, columns,
            0, true⟩) := by
  simp only [identifier, EStateM.bind_eq_ok, EStateM.guard_eq_ok] at h
  obtain ⟨columns, r1, hv, -, h⟩ := h
  refine ⟨columns, r1, hv, ?_⟩
  cases hi : p.identifier.idType with
  | basic t =>
    simp only [hi, EStateM.bind_eq_ok, EStateM.pure_eq_ok] at h
    obtain ⟨_, _, ⟨rfl, rfl⟩, rfl, rfl⟩ := h
    exact .inl ⟨t, rfl, rfl, rfl⟩
  | component c =>
    simp only [hi, EStateM.bind_eq_ok, EStateM.pure_eq_ok] at h
    obtain ⟨_, _, hc, _, _, ⟨rfl, rfl⟩, rfl, rfl⟩ := h
    exact .inr ⟨c, rfl, hc, rfl⟩
  | any t | association target kind | collection c =>
    simp only [hi, EStateM.bind_eq_ok] at h
    obtain ⟨_, _, ht, -⟩ := h
    exact absurd ht EStateM.throw_ne_ok

theorem identifier_grows {p : PendingEntity} {id : SingularAttribute}
    (h : identifier p r = .ok id r') : r.Grows (Under p.identifierRole) r' := by
  obtain ⟨columns, r1, hv, ⟨t, -, rfl, -⟩ | ⟨c, -, hc, -⟩⟩ := identifier_ok h
  · exact values_grows hv
  · exact (values_grows hv).trans (component_grows hc)

/-- What the identifiers add. -/
theorem identified_grows : ∀ {ps : List PendingEntity} {r r' : Registry} {bare : List Entity},
    identified ps r = .ok bare r' →
    r.Grows (fun role => ∃ p ∈ ps, Under p.identifierRole role) r'
  | [], _, _, _, h => by
    obtain ⟨-, rfl⟩ := EStateM.pure_eq_ok.1 h
    exact .refl _
  | p :: ps, _, _, _, h => by
    simp only [identified, EStateM.bind_eq_ok, EStateM.pure_eq_ok] at h
    obtain ⟨id, _, hid, _, _, hrest, -, rfl⟩ := h
    refine ((identifier_grows hid).mono fun role hr => ⟨p, List.mem_cons_self, hr⟩).trans ?_
    refine (identified_grows hrest).mono ?_
    rintro role ⟨q, hq, hr⟩
    exact ⟨q, List.mem_cons_of_mem p hq, hr⟩

/-- An entity with its identifier only. -/
structure Identified (db : Database) (p : PendingEntity) (b : Entity) : Prop where
  name : b.name = p.name
  tables : b.tables = p.tables
  identifier : ∃ r r', identifier p r = .ok b.identifier r' ∧ r'.database.Grows db

theorem Identified.grows {db db' : Database} {p : PendingEntity} {b : Entity}
    (h : Identified db p b) (hg : db.Grows db') : Identified db' p b := by
  obtain ⟨r, r', hid, hr⟩ := h.identifier
  exact ⟨h.name, h.tables, r, r', hid, hr.trans hg⟩

theorem identified_ok : ∀ {ps : List PendingEntity} {r r' : Registry} {bare : List Entity},
    identified ps r = .ok bare r' → List.Forall₂ (Identified r'.database) ps bare
  | [], _, _, _, h => by
    obtain ⟨rfl, -⟩ := EStateM.pure_eq_ok.1 h
    exact .nil
  | p :: ps, r, _, _, h => by
    simp only [identified, EStateM.bind_eq_ok, EStateM.pure_eq_ok] at h
    obtain ⟨id, r1, hid, rest, _, hrest, rfl, rfl⟩ := h
    exact .cons ⟨rfl, rfl, r, r1, hid, (identified_grows hrest).database⟩ (identified_ok hrest)

/-! ## Attributes -/

/-- What the attributes of an entity add. -/
theorem attributes_grows : ∀ {owner : Owner} {ms : List AttributeMapping} {r r' : Registry}
    {as : List Attribute}, attributes entities owner ms r = .ok as r' →
    r.Grows (fun role => ∃ m ∈ ms, Roles (owner.roleOf m.name) m.mappedType role) r'
  | _, [], _, _, _, h => by
    obtain ⟨-, rfl⟩ := EStateM.pure_eq_ok.1 h
    exact .refl _
  | _, m :: ms, _, _, _, h => by
    simp only [attributes, EStateM.bind_eq_ok, EStateM.pure_eq_ok] at h
    obtain ⟨_, _, hm, _, _, hrest, -, rfl⟩ := h
    refine ((stored_grows hm).mono fun role hr => ⟨m, List.mem_cons_self, hr⟩).trans ?_
    refine (attributes_grows hrest).mono ?_
    rintro role ⟨q, hq, hr⟩
    exact ⟨q, List.mem_cons_of_mem m hq, hr⟩

/-- An attribute is built from a mapping. -/
def AttributeOf (db : Database) (entities : List Entity) (owner : Owner) (m : AttributeMapping)
    (a : Attribute) : Prop :=
  ∃ r r', attributeOf entities owner m r = .ok a r' ∧ r'.database.Grows db

theorem attributes_ok : ∀ {owner : Owner} {ms : List AttributeMapping} {r r' : Registry}
    {as : List Attribute}, attributes entities owner ms r = .ok as r' →
    List.Forall₂ (AttributeOf r'.database entities owner) ms as
  | _, [], _, _, _, h => by
    obtain ⟨rfl, -⟩ := EStateM.pure_eq_ok.1 h
    exact .nil
  | _, m :: ms, r, _, _, h => by
    simp only [attributes, EStateM.bind_eq_ok, EStateM.pure_eq_ok] at h
    obtain ⟨a, r1, hm, rest, _, hrest, rfl, rfl⟩ := h
    exact .cons ⟨r, r1, hm, (attributes_grows hrest).database⟩ (attributes_ok hrest)

/-! ## Entities -/

/-- What the attributes of all entities add. -/
theorem completed_grows : ∀ {ps : List PendingEntity} {bare es : List Entity} {r r' : Registry},
    completed entities ps bare r = .ok es r' →
    r.Grows (fun role => ∃ p ∈ ps, ∃ m ∈ p.attributes,
      Roles s!"{p.name}.{m.name}" m.mappedType role) r'
  | [], _, _, _, _, h | _ :: _, [], _, _, _, h => by
    obtain ⟨-, rfl⟩ := EStateM.pure_eq_ok.1 h
    exact .refl _
  | p :: ps, b :: bare, _, _, _, h => by
    simp only [completed, EStateM.bind_eq_ok, EStateM.pure_eq_ok] at h
    obtain ⟨_, _, has, _, _, hrest, -, rfl⟩ := h
    refine ((attributes_grows has).mono fun role hr => ⟨p, List.mem_cons_self, hr⟩).trans ?_
    refine (completed_grows hrest).mono ?_
    rintro role ⟨q, hq, hr⟩
    exact ⟨q, List.mem_cons_of_mem p hq, hr⟩

/-- An entity is built from a registered one. -/
structure EntityOf (db : Database) (entities : List Entity) (p : PendingEntity) (e : Entity) :
    Prop extends Identified db p e where
  attributes : List.Forall₂ (AttributeOf db entities (p.owner e.identifier.columns)) p.attributes
    e.attributes

theorem completed_ok : ∀ {ps : List PendingEntity} {bare es : List Entity} {r r' : Registry},
    List.Forall₂ (Identified r.database) ps bare → completed entities ps bare r = .ok es r' →
    List.Forall₂ (EntityOf r'.database entities) ps es
  | _, _, _, _, _, .nil, h => by
    obtain ⟨rfl, -⟩ := EStateM.pure_eq_ok.1 h
    exact .nil
  | p :: ps, b :: bare, _, r, r', .cons hb hbare, h => by
    simp only [completed, EStateM.bind_eq_ok, EStateM.pure_eq_ok] at h
    obtain ⟨as, r1, has, rest, r2, hrest, rfl, rfl⟩ := h
    have hg := (attributes_grows has).database
    have hg' := (completed_grows hrest).database
    have hids := hb.grows (hg.trans hg')
    refine .cons ⟨⟨hids.name, hids.tables, hids.identifier⟩, ?_⟩
      (completed_ok (hbare.imp fun _ _ hi => hi.grows hg) hrest)
    refine (attributes_ok has).imp ?_
    rintro am a ⟨s, s', hs, hg1⟩
    exact ⟨s, s', hs, hg1.trans hg'⟩

/-- All registered entities: identifiers first, then attributes. -/
theorem entities_ok {ps : List PendingEntity} {es : List Entity}
    (h : Build.entities ps r = .ok es r') :
    ∃ bare r1, identified ps r = .ok bare r1 ∧ completed bare ps bare r1 = .ok es r' := by
  unfold Build.entities at h
  cases ho : orphan? ps with
  | some orphan =>
    rw [ho] at h
    exact absurd h EStateM.throw_ne_ok
  | none =>
    rw [ho] at h
    exact EStateM.bind_eq_ok.1 h

end Build

/-! ## Mappings of entities -/

namespace Definition

variable {d : Definition} {e D : EntityDefinition} {a : AttributeDefinition} {am : AttributeMapping}

/-- The table that an entity designates for an attribute: the one the attribute asks for, or the
primary table of the entity. -/
def Designates (d : Definition) (D : EntityDefinition) (a : AttributeDefinition) (table : String) :
    Prop :=
  ∃ root primary, d.root D = .ok root ∧ primaryTable D root = .ok primary ∧
    table = a.table?.getD primary

/-- The mapping of an attribute of `D` as one of `e`: it is stored in the table that `D` designates
for it, by the number that the table has among those of `e`. -/
structure Inherits (d : Definition) (e D : EntityDefinition) (a : AttributeDefinition)
    (am : AttributeMapping) : Prop where
  line : d.InLine e D
  declared : a ∈ D.attributes
  mapped : ∃ order table number, d.tableOrder e = .ok order ∧ d.Designates D a table ∧
    order.idxOf? table = some number ∧ d.attributeMapping d.component D.name number a = .ok am

theorem Designates.unique {table table' : String} (h : d.Designates D a table)
    (h' : d.Designates D a table') : table = table' := by
  obtain ⟨root, primary, hr, hp, rfl⟩ := h
  obtain ⟨root', primary', hr', hp', rfl⟩ := h'
  cases hr.symm.trans hr'
  cases hp.symm.trans hp'
  rfl

theorem inheritedMapping_ok {name : String} {order tables : List String}
    (ht : d.ownTables D = .ok tables) (h : d.inheritedMapping name order D tables a = .ok am) :
    ∃ table number, d.Designates D a table ∧ order.idxOf? table = some number ∧
      d.attributeMapping d.component D.name number a = .ok am := by
  simp only [ownTables, Except.bind_eq_ok, Except.pure_eq_ok] at ht
  obtain ⟨root, hr, primary, hp, rfl⟩ := ht
  simp only [inheritedMapping, Except.bind_eq_ok] at h
  obtain ⟨table, ht, h⟩ := h
  have hd : d.Designates D a table := by
    refine ⟨root, primary, hr, hp, ?_⟩
    unfold tableOf at ht
    cases ha : a.table? with
    | some asked =>
      simp only [ha] at ht
      split at ht
      · cases ht
        rfl
      · cases ht
    | none =>
      simp only [ha] at ht
      cases ht
      rfl
  cases hn : order.idxOf? table with
  | some number => exact ⟨table, number, hd, hn, by simpa only [hn] using h⟩
  | none =>
    simp only [hn] at h
    exact absurd h Except.throw_ne_ok

/-- The mapping of an entity: its tables, its identifier, and the attributes of its line. -/
theorem entityMapping_ok {em : EntityMapping} (h : d.entityMapping e = .ok em) :
    em.name = e.name ∧ d.tableOrder e = .ok em.tables ∧
      d.identifierMapping d.component e = .ok em.identifier ∧
      ∃ members rows, d.line e = .ok members ∧ em.attributes = rows.flatten ∧
        List.Forall₂ (fun D row => ∃ tables, d.ownTables D = .ok tables ∧
          List.Forall₂ (fun a am => d.inheritedMapping e.name em.tables D tables a = .ok am)
            D.attributes row) members rows := by
  simp only [entityMapping, Except.bind_eq_ok, Except.pure_eq_ok] at h
  obtain ⟨order, ho, identifier, hi, members, hl, rows, hrows, rfl⟩ := h
  refine ⟨rfl, ho, hi, members, rows, hl, rfl, (Except.mapM_ok hrows).imp fun D row hD => ?_⟩
  obtain ⟨tables, ht, hrow⟩ := Except.bind_eq_ok.1 hD
  exact ⟨tables, ht, Except.mapM_ok hrow⟩

theorem Inherits.unique (hv : d.Valid) (he : e ∈ d.entities) {D' : EntityDefinition}
    {a' : AttributeDefinition} {am' : AttributeMapping} (h : d.Inherits e D a am)
    (h' : d.Inherits e D' a' am') (hname : a.name = a'.name) : D = D' ∧ a = a' ∧ am = am' := by
  obtain ⟨rfl, rfl⟩ := declared_unique hv he h.line h'.line h.declared h'.declared hname
  obtain ⟨order, table, number, ho, ht, hn, hm⟩ := h.mapped
  obtain ⟨order', table', number', ho', ht', hn', hm'⟩ := h'.mapped
  cases ho.symm.trans ho'
  cases ht.unique ht'
  cases hn.symm.trans hn'
  cases hm.symm.trans hm'
  exact ⟨rfl, rfl, rfl⟩

theorem Inherits.name (h : d.Inherits e D a am) : am.name = a.name := by
  obtain ⟨order, table, number, -, -, -, hm⟩ := h.mapped
  exact attributeMapping_name (componentMapper_agrees _) hm

/-- Every mapping of an entity is that of an attribute of its line. -/
theorem inherits_of_mem (hv : d.Valid) (he : e ∈ d.entities) {em : EntityMapping}
    (h : d.entityMapping e = .ok em) (ham : am ∈ em.attributes) : ∃ D a, d.Inherits e D a am := by
  obtain ⟨-, ho, -, members, rows, hl, hrows, hall⟩ := entityMapping_ok h
  rw [hrows] at ham
  obtain ⟨row, hrow, ham⟩ := List.mem_flatten.1 ham
  obtain ⟨D, hD, tables, ht, hD'⟩ := hall.exists_left hrow
  obtain ⟨a, ha, hm⟩ := hD'.exists_left ham
  obtain ⟨table, number, hd, hn, hm⟩ := inheritedMapping_ok ht hm
  exact ⟨D, a, (mem_line_iff hv he hl).1 hD, ha, _, table, number, ho, hd, hn, hm⟩

/-- Every attribute of the line has a mapping. -/
theorem exists_inherits (hv : d.Valid) (he : e ∈ d.entities) {em : EntityMapping}
    (h : d.entityMapping e = .ok em) (hD : d.InLine e D) (ha : a ∈ D.attributes) :
    ∃ am ∈ em.attributes, d.Inherits e D a am := by
  obtain ⟨-, ho, -, members, rows, hl, hrows, hall⟩ := entityMapping_ok h
  obtain ⟨row, hrow, tables, ht, hD'⟩ := hall.exists_right ((mem_line_iff hv he hl).2 hD)
  obtain ⟨am, ham, hm⟩ := hD'.exists_right ha
  obtain ⟨table, number, hd, hn, hm⟩ := inheritedMapping_ok ht hm
  refine ⟨am, ?_, hD, ha, _, table, number, ho, hd, hn, hm⟩
  rw [hrows]
  exact List.mem_flatten_of_mem hrow ham

/-! ## Metamodels -/

/-- What the metamodel of a definition is built by: the registration of its mappings, the build of
the identifiers, and that of the attributes. -/
structure Builds (d : Definition) (m : Metamodel) (ems : List EntityMapping)
    (ps : List PendingEntity) (bare : List Entity) (r r1 r2 : Registry) : Prop where
  valid : d.Valid
  mapped : List.Forall₂ (fun e em => d.entityMapping e = .ok em) d.entities ems
  registered : List.Forall₂ (fun em p => p.Of r.database em) ems ps
  named : r.database.Named
  start : r.embeddables = []
  uncollected : r.collections = []
  identified : Build.identified ps r = .ok bare r1
  completed : Build.completed bare ps bare r1 = .ok m.entities r2
  result : m = ⟨r2.database, m.entities, r2.embeddables, r2.collections⟩

theorem builds {m : Metamodel} (h : d.metamodel = .ok m) :
    ∃ ems ps bare r r1 r2, d.Builds m ems ps bare r r1 r2 := by
  simp only [metamodel, entityMappings, Except.bind_eq_ok] at h
  obtain ⟨ems, ⟨_, hv, hems⟩, r, hr, h⟩ := h
  have hempty : Registration.empty.database.Named := by
    intro _ _ hl
    cases hl
  obtain ⟨ps, hps, -, hnamed, hall⟩ := Registration.registerAll_ok hempty hr
  unfold Registration.build at h
  split at h
  · rename_i es found hb
    cases h
    rw [hps] at hb
    obtain ⟨bare, r1, hi, hc⟩ := Build.entities_ok hb
    exact ⟨ems, ps, bare, _, r1, found, validate_ok hv, Except.mapM_ok hems, hall, hnamed, rfl, rfl,
      hi, hc, rfl⟩
  · cases h

namespace Builds

variable {m : Metamodel} {ems : List EntityMapping} {ps : List PendingEntity} {bare : List Entity}
  {r r1 r2 : Registry}

theorem database_grows (h : d.Builds m ems ps bare r r1 r2) : r.database.Grows m.database := by
  rw [h.result]
  exact (Build.identified_grows h.identified).database.trans
    (Build.completed_grows h.completed).database

theorem entitiesOf (h : d.Builds m ems ps bare r r1 r2) :
    List.Forall₂ (Build.EntityOf m.database bare) ps m.entities := by
  rw [h.result]
  exact Build.completed_ok (Build.identified_ok h.identified) h.completed

theorem names (h : d.Builds m ems ps bare r r1 r2) :
    m.entities.map (·.name) = d.entities.map (·.name) :=
  calc m.entities.map (·.name)
      = ps.map (·.name) := (h.entitiesOf.imp fun _ _ he => he.name.symm).map_eq.symm
    _ = ems.map (·.name) := (h.registered.imp fun _ _ hp => hp.name.symm).map_eq.symm
    _ = d.entities.map (·.name) :=
      (h.mapped.imp fun _ _ hm => (entityMapping_ok hm).1.symm).map_eq.symm

/-- Every entity of the definition is found by its name. -/
theorem entity (h : d.Builds m ems ps bare r r1 r2) (he : e ∈ d.entities) :
    ∃ em p E, d.entityMapping e = .ok em ∧ p ∈ ps ∧ p.Of m.database em ∧
      Build.EntityOf m.database bare p E ∧ m.entity e.name = .ok E := by
  obtain ⟨em, hem, hmap⟩ := h.mapped.exists_right he
  obtain ⟨p, hp, hof⟩ := h.registered.exists_right hem
  obtain ⟨E, hE, hbuilt⟩ := h.entitiesOf.exists_right hp
  have hname : E.name = e.name := by rw [hbuilt.name, hof.name, (entityMapping_ok hmap).1]
  have hnodup : (m.entities.map (·.name)).Nodup := by
    rw [h.names]
    exact h.valid.names
  refine ⟨em, p, E, hmap, hp, hof.grows h.database_grows, hbuilt, ?_⟩
  rw [Metamodel.entity, Metamodel.entity?, ← hname, List.find?_of_nodup hnodup hE]

/-- Every entity that is found by a name is one of the definition. -/
theorem entity_of (h : d.Builds m ems ps bare r r1 r2) {name : String} {E : Entity}
    (hE : m.entity name = .ok E) :
    ∃ e em p, e ∈ d.entities ∧ e.name = name ∧ d.entityMapping e = .ok em ∧ p ∈ ps ∧
      p.Of m.database em ∧ Build.EntityOf m.database bare p E ∧ E ∈ m.entities := by
  unfold Metamodel.entity at hE
  split at hE
  · rename_i found hf
    cases hE
    have hmem : E ∈ m.entities := List.mem_of_find?_eq_some hf
    have hname : E.name = name := by simpa using List.find?_some hf
    have hnames : E.name ∈ d.entities.map (·.name) := h.names ▸ List.mem_map_of_mem hmem
    obtain ⟨e, he, hen⟩ := List.mem_map.1 hnames
    obtain ⟨em, p, E', hmap, hp, hof, hbuilt, hE'⟩ := h.entity he
    have heq : m.entity e.name = .ok E := by rw [hen, hname, Metamodel.entity, hf]
    cases hE'.symm.trans heq
    exact ⟨e, em, p, he, hen.trans hname, hmap, hp, hof, hbuilt, hmem⟩
  · cases hE

end Builds

end Definition

/-! ## An archive -/

/-- The size of a book, which is kept with its scan. -/
def bookSize : AttributeDefinition := .embedded ⟨"size", "Size", some "scan"⟩

/-- Items of an archive, known by a series and a number. -/
def archiveItem : EntityDefinition :=
  ⟨"Item", none, some "item", [], none, some ⟨"code", [], none, some "Code"⟩, none, []⟩

/-- Books are items. -/
def archiveBook : EntityDefinition :=
  ⟨"Book", some "Item", some " book ", ["scan"], none, none, none, [bookSize]⟩

/-- The width of a book, and its area, which is computed. -/
def archiveSize : EmbeddableDefinition :=
  ⟨"Size", [.basic ⟨"width", "integer", none, [], none, none, none, none, none⟩,
    .basic ⟨"area", "integer", none, [], some "w * h", none, none, none, none⟩]⟩

def archive : Definition :=
  ⟨none, [archiveItem, archiveBook],
   [⟨"Code", [.basic ⟨"series", "string", none, [], none, none, none, none, none⟩,
      .basic ⟨"number", "integer", none, [], none, none, none, none, none⟩]⟩, archiveSize]⟩

/-- The metamodel of the archive. -/
def archived : Metamodel :=
  let int : DomainType := .basic (.standard .integer)
  let key : List Column := [⟨.column "series", SqlCode.varchar⟩, ⟨.column "number", SqlCode.integer⟩]
  let plain role name type place position : Attribute :=
    .singular ⟨.embeddable role, name, .basic, type, [place], position, false⟩
  let code entity (table : TableId) : SingularAttribute :=
    ⟨.entity entity, "code", .embedded, .embeddable (entity ++ ".code"),
      [⟨table, 0⟩, ⟨table, 1⟩], 0, true⟩
  let size entity position : Attribute :=
    .singular ⟨.entity entity, "size", .embedded, .embeddable (entity ++ ".size"),
      [⟨⟨2⟩, 0⟩, ⟨⟨2⟩, 1⟩], position, false⟩
  let codes role (table : TableId) : String × Embeddable :=
    (role, ⟨role, "Code", [plain role "series" (.basic (.standard .string)) ⟨table, 0⟩ 0,
      plain role "number" int ⟨table, 1⟩ 0]⟩)
  let sizes role position : String × Embeddable :=
    (role, ⟨role, "Size", [plain role "width" int ⟨⟨2⟩, 0⟩ position,
      plain role "area" int ⟨⟨2⟩, 1⟩ position]⟩)
  ⟨⟨[⟨.physical "item", key⟩, ⟨.physical "book", key⟩,
      ⟨.physical "scan", [⟨.column "width", SqlCode.integer⟩, ⟨.formula "w * h", SqlCode.integer⟩]⟩],
    [("scan", ⟨2⟩), ("book", ⟨1⟩), ("item", ⟨0⟩)]⟩,
   [⟨"Item", none, ⟨0⟩, [⟨1⟩, ⟨2⟩], code "Item" ⟨0⟩, [size "Item" 2]⟩,
    ⟨"Book", some "Item", ⟨1⟩, [⟨2⟩, ⟨0⟩], code "Book" ⟨1⟩, [size "Book" 1]⟩],
   [codes "Item.code" ⟨0⟩, codes "Book.code" ⟨1⟩, sizes "Item.size" 2, sizes "Book.size" 1], []⟩

theorem archive_metamodel : archive.metamodel = .ok archived := by decide +kernel

/-- Books beside items. -/
def booksAndItems : Statement :=
  .select ⟨⟨[⟨⟨"Book", some "b"⟩, [⟨some "i", .inner, .entity "Item", false, none⟩]⟩]⟩, none, none,
    none⟩

end EntityQuery
