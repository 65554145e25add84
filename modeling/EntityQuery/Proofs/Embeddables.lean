import EntityQuery.Proofs.Entities

/-!
# The embeddables of a metamodel

An embeddable is kept under the role of the attribute that uses it, and the first one kept under a
role stays there. A role that no other attribute can give (`role_inj`) is that of the embeddable
which is built for its attribute: `identified_kept` for identifiers, `completed_kept` for
attributes.

The attributes of an embeddable are its parts (`Parts`): each is stored in its own row of slots, on
the table of the attribute that uses the embeddable, or shares the identifier of the entity
(`subAttributes_parts`).
-/

set_option autoImplicit false

namespace EntityQuery

/-! ## Roles -/

theorem ne_append_dot (role rest : String) : role ≠ role ++ "." ++ rest := by
  intro h
  have := congrArg String.length h
  simp only [String.length_append] at this
  have hdot : ".".length = 1 := rfl
  omega

/-- A role is made of one entity and one name, where the name has no dot and no other entity's name
is the beginning of the entity's up to a dot. -/
theorem role_inj {entity name other rest : String} (hn : '.' ∉ name.toList)
    (ho : ¬ (other ++ ".").toList <+: entity.toList)
    (h : entity ++ "." ++ name = other ++ "." ++ rest) : other = entity ∧ rest = name := by
  have h' := congrArg String.toList h
  have hdot : ".".toList = ['.'] := rfl
  simp only [String.toList_append, hdot, List.append_assoc, List.singleton_append] at h' ho
  rcases List.append_eq_append_iff.1 h' with ⟨as, hother, hrest⟩ | ⟨bs, hentity, hrest⟩
  · cases as with
    | nil =>
      simp only [List.append_nil, List.nil_append, List.cons.injEq, true_and] at hother hrest
      exact ⟨String.toList_inj.1 hother, String.toList_inj.1 hrest.symm⟩
    | cons c as =>
      simp only [List.cons_append, List.cons.injEq] at hrest
      exact absurd (by rw [hrest.2]; simp) hn
  · cases bs with
    | nil =>
      simp only [List.append_nil, List.nil_append, List.cons.injEq, true_and] at hentity hrest
      exact ⟨String.toList_inj.1 hentity.symm, String.toList_inj.1 hrest⟩
    | cons c bs =>
      simp only [List.cons_append, List.cons.injEq] at hrest
      refine absurd ⟨bs, ?_⟩ ho
      rw [hentity, hrest.1]
      simp

theorem ne_continued {entity name other name' rest : String} (hn : '.' ∉ name.toList)
    (ho : ¬ (other ++ ".").toList <+: entity.toList) :
    entity ++ "." ++ name ≠ other ++ "." ++ name' ++ "." ++ rest := by
  intro h
  have hrest : other ++ "." ++ name' ++ "." ++ rest = other ++ "." ++ (name' ++ "." ++ rest) := by
    simp only [String.append_assoc]
  obtain ⟨-, rfl⟩ := role_inj hn ho (h.trans hrest)
  exact hn (by simp)

theorem Under.eq {entity name other name' : String} (hn : '.' ∉ name.toList)
    (ho : ¬ (other ++ ".").toList <+: entity.toList)
    (h : Under (other ++ "." ++ name') (entity ++ "." ++ name)) : other = entity ∧ name' = name := by
  obtain h | ⟨rest, h⟩ := h
  · exact role_inj hn ho h
  · exact absurd h (ne_continued hn ho)

namespace Build

variable {entities : List Entity} {owner : Owner} {r r' : Registry}

/-! ## What is kept -/

/-- The embeddable of a component is kept under a role: the one that was built there first. -/
def Kept (r : Registry) (entities : List Entity) (owner : Owner) (role : String)
    (c : ComponentMapping) : Prop :=
  ∃ subs r0 r1, subAttributes entities { owner with type := .embeddable role } c.attributes r0 =
      .ok subs r1 ∧ r1.database.Grows r.database ∧
    r.embeddables.lookup role = some ⟨role, c.embeddableName, subs⟩

theorem Kept.grows {P : String → Prop} {role : String} {c : ComponentMapping}
    (h : Kept r entities owner role c) (hg : r.Grows P r') : Kept r' entities owner role c := by
  obtain ⟨subs, r0, r1, hs, hr, hl⟩ := h
  exact ⟨subs, r0, r1, hs, hr.trans hg.database, hg.kept role _ hl⟩

theorem component_kept {role : String} {u : Unit} : ∀ {c : ComponentMapping},
    component entities owner role c r = .ok u r' → r.embeddables.lookup role = none →
    Kept r' entities owner role c
  | ⟨name, ms⟩, h, hn => by
    simp only [component, EStateM.bind_eq_ok] at h
    obtain ⟨subs, r1, hs, hk⟩ := h
    have hn1 : r1.embeddables.lookup role = none := by
      rw [(subAttributes_grows hs).others role]
      · exact hn
      · rintro ⟨rest, hrest⟩
        exact ne_append_dot role rest hrest
    exact ⟨subs, r, r1, hs, (keepEmbeddable_grows hk).database, keepEmbeddable_new hk hn1⟩

/-- The embeddable of an attribute is kept under its role if that role is free, and no attribute of
another name can give it. -/
theorem attributes_kept {m : AttributeMapping} {c : ComponentMapping}
    (hc : m.mappedType = .component c) : ∀ {ms : List AttributeMapping} {r r' : Registry}
    {as : List Attribute}, attributes entities owner ms r = .ok as r' → m ∈ ms →
    (∀ m' ∈ ms, m'.name = m.name → m' = m) →
    (∀ m' ∈ ms, m'.name ≠ m.name →
      ¬ Roles (owner.roleOf m'.name) m'.mappedType (owner.roleOf m.name)) →
    r.embeddables.lookup (owner.roleOf m.name) = none →
    Kept r' entities owner (owner.roleOf m.name) c
  | m' :: ms, r, r', as, h, hm, hone, hother, hn => by
    simp only [attributes, EStateM.bind_eq_ok, EStateM.pure_eq_ok] at h
    obtain ⟨a, r1, ha, rest, r2, hrest, -, rfl⟩ := h
    by_cases hname : m'.name = m.name
    · obtain rfl := hone m' List.mem_cons_self hname
      have ha : stored entities owner m'.name m'.tableNumber m'.columns m'.formulas m'.sqlCodes
        m'.mappedType r = .ok a r1 := ha
      rw [hc] at ha
      obtain ⟨table, -, ids, r3, hv, hcomponent, -⟩ := stored_ok ha
      have hn3 : r3.embeddables.lookup (owner.roleOf m'.name) = none := by
        rw [(values_grows (P := fun _ => False) hv).others _ id]
        exact hn
      exact (component_kept hcomponent hn3).grows (attributes_grows hrest)
    · have hmem : m ∈ ms := List.mem_of_ne_of_mem (fun heq => hname (by rw [heq])) hm
      have hn1 : r1.embeddables.lookup (owner.roleOf m.name) = none := by
        rw [(stored_grows ha).others _ (hother m' List.mem_cons_self hname)]
        exact hn
      exact attributes_kept hc hrest hmem (fun q hq => hone q (List.mem_cons_of_mem m' hq))
        (fun q hq => hother q (List.mem_cons_of_mem m' hq)) hn1

/-- The embeddable of a composite identifier is kept under its role if no other identifier can give
that role. -/
theorem identified_kept {p : PendingEntity} {c : ComponentMapping}
    (hc : p.identifier.idType = .component c) : ∀ {ps : List PendingEntity} {r r' : Registry}
    {bare : List Entity}, p ∈ ps → (∀ q ∈ ps, q.name = p.name → q = p) →
    (∀ q ∈ ps, q.name ≠ p.name → ¬ Under q.identifierRole p.identifierRole) →
    r.embeddables.lookup p.identifierRole = none → identified ps r = .ok bare r' →
    ∃ id r0 r1, identifier p r0 = .ok id r1 ∧ r1.database.Grows r'.database ∧
      Kept r' [] (p.owner id.columns) p.identifierRole c
  | q :: ps, r, r', bare, hp, hone, hother, hn, h => by
    simp only [identified, EStateM.bind_eq_ok, EStateM.pure_eq_ok] at h
    obtain ⟨id, r1, hid, rest, r2, hrest, -, rfl⟩ := h
    by_cases hname : q.name = p.name
    · obtain rfl := hone q List.mem_cons_self hname
      refine ⟨id, r, r1, hid, (identified_grows hrest).database, ?_⟩
      obtain ⟨columns, r3, hv, ⟨t, ht, -⟩ | ⟨c', hc', hcomponent, rfl⟩⟩ := identifier_ok hid
      · cases hc.symm.trans ht
      · cases hc.symm.trans hc'
        have hn3 : r3.embeddables.lookup q.identifierRole = none := by
          rw [(values_grows (P := fun _ => False) hv).others _ id]
          exact hn
        exact (component_kept hcomponent hn3).grows (identified_grows hrest)
    · have hmem : p ∈ ps := List.mem_of_ne_of_mem (fun heq => hname (by rw [heq])) hp
      have hn1 : r1.embeddables.lookup p.identifierRole = none := by
        rw [(identifier_grows hid).others _ (hother q List.mem_cons_self hname)]
        exact hn
      exact identified_kept hc hmem (fun s hs => hone s (List.mem_cons_of_mem q hs))
        (fun s hs => hother s (List.mem_cons_of_mem q hs)) hn1 hrest

/-- The embeddable of an attribute is kept under its role if that role is free, and no other
attribute of any entity can give it. -/
theorem completed_kept {p : PendingEntity} {m : AttributeMapping} {c : ComponentMapping}
    (hc : m.mappedType = .component c) (hm : m ∈ p.attributes)
    (hnames : ∀ m' ∈ p.attributes, m'.name = m.name → m' = m) :
    ∀ {ps : List PendingEntity} {bare es : List Entity} {r r' : Registry}, p ∈ ps →
    (∀ q ∈ ps, q.name = p.name → q = p) →
    (∀ q ∈ ps, ∀ k ∈ q.attributes, ¬ (q.name = p.name ∧ k.name = m.name) →
      ¬ Roles s!"{q.name}.{k.name}" k.mappedType s!"{p.name}.{m.name}") →
    r.embeddables.lookup s!"{p.name}.{m.name}" = none →
    List.Forall₂ (Identified r.database) ps bare → completed entities ps bare r = .ok es r' →
    ∃ id r0 r1, identifier p r0 = .ok id r1 ∧ r1.database.Grows r'.database ∧
      Kept r' entities (p.owner id.columns) s!"{p.name}.{m.name}" c
  | q :: ps, b :: bare, es, r, r', hp, hone, hother, hn, .cons hb hbare, h => by
    simp only [completed, EStateM.bind_eq_ok, EStateM.pure_eq_ok] at h
    obtain ⟨as, r1, has, rest, r2, hrest, -, rfl⟩ := h
    have hg := attributes_grows has
    by_cases hname : q.name = p.name
    · obtain rfl := hone q List.mem_cons_self hname
      obtain ⟨r3, r4, hid, hg4⟩ := hb.identifier
      refine ⟨b.identifier, r3, r4, hid,
        hg4.trans (hg.database.trans (completed_grows hrest).database), ?_⟩
      refine (attributes_kept hc has hm hnames (fun m' hm' hne => ?_) hn).grows
        (completed_grows hrest)
      exact hother q List.mem_cons_self m' hm' fun hboth => hne hboth.2
    · have hmem : p ∈ ps := List.mem_of_ne_of_mem (fun heq => hname (by rw [heq])) hp
      have hn1 : r1.embeddables.lookup s!"{p.name}.{m.name}" = none := by
        rw [hg.others]
        · exact hn
        · rintro ⟨k, hk, hr⟩
          exact hother q List.mem_cons_self k hk (fun hboth => hname hboth.1) hr
      exact completed_kept hc hm hnames hmem (fun s hs => hone s (List.mem_cons_of_mem q hs))
        (fun s hs => hother s (List.mem_cons_of_mem q hs)) hn1
        (hbare.imp fun _ _ hi => hi.grows hg.database) hrest

/-! ## Identifiers -/

theorem identifier_length {p : PendingEntity} {id : SingularAttribute}
    (h : identifier p r = .ok id r') :
    p.identifier.columns.length = p.identifier.sqlCodes.length := by
  obtain ⟨columns, r1, hv, -⟩ := identifier_ok h
  obtain ⟨db, hvalues, -⟩ := database_ok hv
  simpa using (Database.rowFault?_eq_none (Database.values_ok hvalues).1).1

/-- An identifier is stored in the columns that its mapping names, on the primary table. -/
theorem identifier_stores {p : PendingEntity} {id : SingularAttribute}
    (h : identifier p r = .ok id r') :
    Stores r'.database p.tables 0
      (List.zipWith (fun name code => ⟨.column name, code⟩) p.identifier.columns
        p.identifier.sqlCodes) id := by
  have hlength := identifier_length h
  obtain ⟨columns, r1, hv, hcases⟩ := identifier_ok h
  obtain ⟨db, hvalues, rfl⟩ := database_ok hv
  have hholds := Database.values_hold (describes_columns hlength) hvalues
  obtain ⟨t, -, rfl, rfl⟩ | ⟨c, -, hc, rfl⟩ := hcases
  · exact ⟨rfl, p.primaryTable, rfl, hholds⟩
  · have hg := (component_grows hc).database
    exact ⟨rfl, p.primaryTable, rfl, hholds.imp fun _ _ hh => hh.grows hg⟩

/-- The columns of an identifier are settled by its mapping. -/
theorem identifier_columns_unique {db : Database} {p : PendingEntity} {r0 r1 : Registry}
    {id id' : SingularAttribute} (h : identifier p r = .ok id r') (hg : r'.database.Grows db)
    (h' : identifier p r0 = .ok id' r1) (hg' : r1.database.Grows db) : id.columns = id'.columns :=
  ((identifier_stores h).grows hg).unique ((identifier_stores h').grows hg')

/-! ## Parts -/

/-- The attributes of an embeddable: each is stored in a row of slots of its own, in the table of a
number, or shares the key of the entity and has no slots. -/
inductive Parts (db : Database) (tables : List TableId) (key : List ColumnId) (n : Nat) :
    List AttributeDefinition → List SingularAttribute → List (List Column) → Prop
  | nil : Parts db tables key n [] [] []
  | own {a : AttributeDefinition} {s : SingularAttribute} {row : List Column}
      {as : List AttributeDefinition} {parts : List SingularAttribute} {rows : List (List Column)}
      (owns : a.ownsSlots = true) (name : s.name = a.name) (kind : s.kind = .any ↔ a.isAny = true)
      (stores : Stores db tables n row s) (rest : Parts db tables key n as parts rows) :
      Parts db tables key n (a :: as) (s :: parts) (row :: rows)
  | shared {a : AttributeDefinition} {s : SingularAttribute} {as : List AttributeDefinition}
      {parts : List SingularAttribute} {rows : List (List Column)} (owns : a.ownsSlots = false)
      (name : s.name = a.name) (columns : s.columns = key)
      (rest : Parts db tables key n as parts rows) :
      Parts db tables key n (a :: as) (s :: parts) ([] :: rows)

variable {d : Definition} {embeddable : String → Option (List Column)} {n : Nat} {db : Database}

theorem subAttributes_parts {as : List AttributeDefinition} {ms : List AttributeMapping}
    (hm : List.Forall₂ (fun a m => ∃ slots, d.Maps embeddable n a m slots) as ms) :
    ∀ {r r' : Registry} {subs : List Attribute}, subAttributes entities owner ms r = .ok subs r' →
    r'.database.Grows db → ∃ parts rows, subs = parts.map .singular ∧
      as.mapM (d.slotsWith embeddable) = some rows ∧
      Parts db owner.tables owner.identifierColumns n as parts rows := by
  induction hm with
  | nil =>
    intro r r' subs h hg
    simp only [subAttributes, EStateM.pure_eq_ok] at h
    obtain ⟨rfl, -⟩ := h
    exact ⟨[], [], rfl, rfl, .nil⟩
  | @cons a m as ms hm _ ih =>
    intro r r' subs h hg
    obtain ⟨slots, hm⟩ := hm
    obtain ⟨name, number, columns, formulas, codes, mapped⟩ := m
    simp only [subAttributes, EStateM.bind_eq_ok] at h
    obtain ⟨found, r1, hs, h⟩ := h
    cases found with
    | plural p => exact absurd h EStateM.throw_ne_ok
    | singular s =>
      simp only [EStateM.bind_eq_ok, EStateM.pure_eq_ok] at h
      obtain ⟨rest, r2, hrest, rfl, rfl⟩ := h
      obtain ⟨parts, rows, rfl, hrows, hparts⟩ := ih hrest hg
      have hrows' : (a :: as).mapM (d.slotsWith embeddable) = some (slots :: rows) := by
        simp [List.mapM_cons, hm.declared, hrows]
      have hname : s.name = a.name := (stored_name hs).trans hm.name
      refine ⟨s :: parts, slots :: rows, rfl, hrows', ?_⟩
      cases ho : a.ownsSlots with
      | true =>
        obtain ⟨s', heq, hkind, hstores⟩ := stored_stores hm.described (hm.ownsSlots.trans ho) hs
        cases heq
        obtain rfl : number = n := hm.tableNumber
        have hgrows := (subAttributes_grows hrest).database.trans hg
        exact .own ho hname (by rw [hkind, hm.isAny]) (hstores.grows hgrows) hparts
      | false =>
        obtain ⟨rfl, hcolumns⟩ := stored_shares (hm.ownsSlots.trans ho) hs
        obtain rfl : slots = [] := List.map_eq_nil_iff.1 hm.described.named.symm
        exact .shared ho hname hcolumns hparts

/-- The parts of an embeddable that is kept. -/
theorem Kept.parts {role context name : String} {c : ComponentMapping}
    (h : Kept r entities owner role c) (hc : d.component context name n = .ok c) :
    ∃ ed parts rows, d.embeddable? ed.name = some ed ∧
      d.embeddableSlots d.embeddables.length name = some rows.flatten ∧
      r.embeddables.lookup role = some ⟨role, ed.name, parts.map .singular⟩ ∧
      Parts r.database owner.tables owner.identifierColumns n ed.attributes parts rows := by
  obtain ⟨subs, r0, r1, hs, hg, hl⟩ := h
  obtain ⟨depth, ed, hdepth, hed, hname, hms⟩ := Definition.componentMapper_ok hc
  have hmaps := hms.imp fun a m hm =>
    Definition.attributeMapping_maps (Definition.componentMapper_agrees depth)
      (Definition.subMapping_ok hm).1 (Definition.subMapping_ok hm).2
  obtain ⟨parts, rows, rfl, hrows, hparts⟩ := subAttributes_parts hmaps hs hg
  have hedname : ed.name = name := by simpa using List.find?_some hed
  refine ⟨ed, parts, rows, by rw [hedname, hed], ?_, by rw [hl, hname], hparts⟩
  simp [hdepth, Definition.embeddableSlots, hed, hrows]

end Build

/-! ## Embeddables of a definition -/

namespace Definition.Builds

variable {d : Definition} {m : Metamodel} {ems : List EntityMapping} {ps : List PendingEntity}
  {bare : List Entity} {r r1 r2 : Registry} {e D : EntityDefinition} {a : AttributeDefinition}
  {em : EntityMapping} {am : AttributeMapping} {p q : PendingEntity} {c : ComponentMapping}

theorem pending (h : d.Builds m ems ps bare r r1 r2) (hp : p ∈ ps) :
    ∃ e em, e ∈ d.entities ∧ d.entityMapping e = .ok em ∧ p.Of r.database em ∧ p.name = e.name := by
  obtain ⟨em, hem, hof⟩ := h.registered.exists_left hp
  obtain ⟨e, he, hmap⟩ := h.mapped.exists_left hem
  exact ⟨e, em, he, hmap, hof, hof.name.trans (entityMapping_ok hmap).1⟩

theorem pending_unique (h : d.Builds m ems ps bare r r1 r2) (hp : p ∈ ps) (hq : q ∈ ps)
    (hname : q.name = p.name) : q = p := by
  have hnames : ps.map (·.name) = d.entities.map (·.name) :=
    (h.entitiesOf.imp fun _ _ hE => hE.name.symm).map_eq.trans h.names
  exact List.inj_on_of_nodup_map (hnames ▸ h.valid.names) hq hp hname

/-- A role that is made of an entity and a name is given by that attribute only. -/
theorem roles_eq (h : d.Builds m ems ps bare r r1 r2) (hq : q ∈ ps) (ham : am ∈ q.attributes)
    {entity name : String} (hn : '.' ∉ name.toList)
    (ho : ∀ other ∈ d.entities, ¬ (other.name ++ ".").toList <+: entity.toList)
    (hr : Build.Roles s!"{q.name}.{am.name}" am.mappedType s!"{entity}.{name}") :
    q.name = entity ∧ am.name = name := by
  obtain ⟨e, em, he, hmap, hof, hname⟩ := h.pending hq
  rw [hof.attributes] at ham
  obtain ⟨D, a, hin⟩ := inherits_of_mem h.valid he hmap ham
  obtain ⟨order, table, number, -, -, -, hm⟩ := hin.mapped
  have htype := attributeMapping_type (componentMapper_agrees _) hm
  cases hmapped : am.mappedType with
  | component c =>
    rw [hmapped] at hr
    exact Under.eq hn (by rw [hname]; exact ho e he) hr
  | collection c =>
    rw [hmapped] at hr htype
    obtain ⟨rest, hr⟩ := hr
    rw [show c.role = D.name ++ "." ++ a.name from htype] at hr
    exact absurd hr (ne_continued hn (ho D (hin.line.mem he)))
  | basic t | any t | association target kind =>
    rw [hmapped] at hr
    exact hr.elim

/-- The embeddable of an attribute is the one that is kept under its role. -/
theorem attribute_kept (h : d.Builds m ems ps bare r r1 r2) (he : e ∈ d.entities)
    (hmap : d.entityMapping e = .ok em) (hp : p ∈ ps) (hof : p.Of m.database em)
    (hin : d.Inherits e D a am) (ham : am ∈ em.attributes) (hc : am.mappedType = .component c)
    (hn : '.' ∉ am.name.toList)
    (ho : ∀ other ∈ d.entities, ¬ (other.name ++ ".").toList <+: p.name.toList) :
    ∃ id r3 r4, Build.identifier p r3 = .ok id r4 ∧ r4.database.Grows r2.database ∧
      Build.Kept r2 bare (p.owner id.columns) s!"{p.name}.{am.name}" c := by
  have hfree : r1.embeddables.lookup s!"{p.name}.{am.name}" = none := by
    rw [(Build.identified_grows h.identified).others, h.start]
    · rfl
    rintro ⟨q, hq, hu⟩
    obtain ⟨e', em', he', hmap', hof', hname'⟩ := h.pending hq
    obtain ⟨hqp, hid⟩ := Under.eq hn (by rw [hname']; exact ho e' he') hu
    cases h.pending_unique hp hq hqp
    -- the identifier has a name of its own
    obtain ⟨id, -, hroot, hidname, -⟩ := identifierMapping_ok (entityMapping_ok hmap).2.2.1
    obtain ⟨root, hr, hri⟩ := rootIdentifier_ok hroot
    refine declared_ne_identifier h.valid he hr hri hin.line hin.declared ?_
    rw [← hin.name, ← hidname, ← hof.identifier]
    exact hid.symm
  refine Build.completed_kept hc (hof.attributes ▸ ham) ?_ hp (fun q hq => h.pending_unique hp hq) ?_
    hfree (Build.identified_ok h.identified) h.completed
  · intro am' ham' hname
    rw [hof.attributes] at ham'
    obtain ⟨D', a', hin'⟩ := inherits_of_mem h.valid he hmap ham'
    exact (hin'.unique h.valid he hin (by rw [← hin'.name, hname, hin.name])).2.2
  · exact fun q hq am' ham' hne hr => hne (h.roles_eq hq ham' hn ho hr)

/-- The embeddable of a composite identifier is the one that is kept under its role. -/
theorem identifier_kept (h : d.Builds m ems ps bare r r1 r2) (hp : p ∈ ps)
    (hc : p.identifier.idType = .component c) (hn : '.' ∉ p.identifier.name.toList)
    (ho : ∀ other ∈ d.entities, ¬ (other.name ++ ".").toList <+: p.name.toList) :
    ∃ id r3 r4, Build.identifier p r3 = .ok id r4 ∧ r4.database.Grows r2.database ∧
      Build.Kept r2 [] (p.owner id.columns) p.identifierRole c := by
  have hother : ∀ q ∈ ps, q.name ≠ p.name → ¬ Under q.identifierRole p.identifierRole := by
    intro q hq hne hu
    obtain ⟨e, em, he, -, -, hname⟩ := h.pending hq
    exact hne (Under.eq hn (by rw [hname]; exact ho e he) hu).1
  have hfree : r.embeddables.lookup p.identifierRole = none := by
    rw [h.start]
    rfl
  obtain ⟨id, r3, r4, hid, hg, hkept⟩ := Build.identified_kept hc hp
    (fun q hq => h.pending_unique hp hq) hother hfree h.identified
  have hgrows := Build.completed_grows h.completed
  exact ⟨id, r3, r4, hid, hg.trans hgrows.database, hkept.grows hgrows⟩

end Definition.Builds

end EntityQuery
