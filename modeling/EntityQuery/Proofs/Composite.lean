import EntityQuery.Proofs.DeclaringTable
import EntityQuery.Proofs.Embeddables

/-!
# Composite values and their parts

The columns of an embedded attribute, or of a composite identifier, are those of its parts one
after the other, and the paths to the parts stand for the same columns as the path to the whole
(`embedded_agrees_with_parts`). Parts that share the key of the entity have no slots and do not
count (`embedded_columns_ne_all_parts`).

`Composed` says how an attribute is made of parts. It holds for the attributes of an entity
(`attribute_composed`) and for its identifier (`identifier_composed`), as far as the embeddable that
is kept under the role of the attribute is its own.
-/

set_option autoImplicit false

namespace EntityQuery

/-! ## Parts with slots of their own -/

/-- The parts of an embeddable that have slots of their own. -/
def ownParts (as : List AttributeDefinition) (parts : List SingularAttribute) :
    List SingularAttribute :=
  ((as.zip parts).filter (·.1.ownsSlots)).map (·.2)

theorem ownParts_cons (a : AttributeDefinition) (s : SingularAttribute)
    (as : List AttributeDefinition) (parts : List SingularAttribute) :
    ownParts (a :: as) (s :: parts) =
      if a.ownsSlots then s :: ownParts as parts else ownParts as parts := by
  cases ho : a.ownsSlots <;> simp [ownParts, ho]

/-- A column without the type of its value. -/
def Sql.ColumnReference.untyped (c : Sql.ColumnReference) : Sql.ColumnReference :=
  { c with type := none }

theorem Sql.Expression.columnsOfAll_map_column : ∀ (cs : List Sql.ColumnReference),
    columnsOfAll (cs.map .column) = cs
  | [] => rfl
  | c :: cs => by
    rw [List.map_cons, columnsOfAll, columnsOfAll_map_column cs]
    rfl

/-- The value that slots make up has their columns. -/
theorem columns_slotReferences (variableName : String) (slots : List Column)
    (type : Option DomainType) :
    (Sql.Expression.ofColumns (slotReferences variableName slots) type).columns.map (·.untyped) =
      slotReferences variableName slots := by
  match slots with
  | [] => rfl
  | [slot] => rfl
  | first :: second :: rest =>
    have huntyped : ∀ slots : List Column,
        (slotReferences variableName slots).map (·.untyped) = slotReferences variableName slots := by
      intro slots
      simp [slotReferences, Sql.ColumnReference.untyped]
    show (Sql.Expression.columnsOfAll ((slotReferences variableName
      (first :: second :: rest)).map .column)).map (·.untyped) = _
    rw [Sql.Expression.columnsOfAll_map_column, huntyped]

namespace Build.Parts

variable {db : Database} {tables : List TableId} {key : List ColumnId} {n : Nat}
  {as : List AttributeDefinition} {parts : List SingularAttribute} {rows : List (List Column)}

theorem names (h : Parts db tables key n as parts rows) :
    parts.map (·.name) = as.map (·.name) := by
  induction h with
  | nil => rfl
  | own _ hname _ _ _ ih | shared _ hname _ _ ih => rw [List.map_cons, List.map_cons, hname, ih]

/-- The columns of the parts are the places of their rows, one after the other. -/
theorem holds (h : Parts db tables key n as parts rows) {table : TableId}
    (ht : tables[n]? = some table) :
    List.Forall₂ (db.Holds table) rows.flatten ((ownParts as parts).flatMap (·.columns)) := by
  induction h with
  | nil => exact .nil
  | own owns _ _ stores _ ih =>
    obtain ⟨table', ht', hc⟩ := stores.columns
    cases ht.symm.trans ht'
    rw [ownParts_cons, if_pos owns, List.flatten_cons, List.flatMap_cons]
    exact List.rel_append hc ih
  | shared owns _ _ _ ih =>
    rw [ownParts_cons, owns]
    exact ih

/-- A part without slots has the columns of the key. -/
theorem shares (h : Parts db tables key n as parts rows) {a : AttributeDefinition}
    {s : SingularAttribute} (hs : (a, s) ∈ as.zip parts) (ho : a.ownsSlots = false) :
    s.columns = key := by
  induction h with
  | nil => simp at hs
  | own owns _ _ _ _ ih =>
    rcases List.mem_cons.1 hs with heq | hs
    · cases heq
      cases owns.symm.trans ho
    · exact ih hs
  | shared _ _ columns _ ih =>
    rcases List.mem_cons.1 hs with heq | hs
    · cases heq
      exact columns
    · exact ih hs

/-- If the parts stand for their rows, their values have the columns of all rows. -/
theorem values (h : Parts db tables key n as parts rows) {variableName : String}
    {path : SingularAttribute → Except LoweringError Sql.Expression}
    (hpath : ∀ s ∈ parts, ∀ row, s.kind ≠ .any → Stores db tables n row s →
      ∃ type, path s = .ok (.ofColumns (slotReferences variableName row) type))
    (hany : ∀ a ∈ as, a.isAny = false) :
    ∃ values, (ownParts as parts).mapM path = .ok values ∧
      values.flatMap (·.columns.map (·.untyped)) = slotReferences variableName rows.flatten := by
  induction h with
  | nil => exact ⟨[], rfl, rfl⟩
  | @own a s row as parts rows owns _ kind stores _ ih =>
    have hkind : s.kind ≠ .any := by
      rw [Ne, kind, hany a List.mem_cons_self]
      simp
    obtain ⟨type, hs⟩ := hpath s List.mem_cons_self row hkind stores
    obtain ⟨values, hv, hc⟩ := ih (fun q hq => hpath q (List.mem_cons_of_mem s hq))
      (fun b hb => hany b (List.mem_cons_of_mem a hb))
    refine ⟨.ofColumns (slotReferences variableName row) type :: values, ?_, ?_⟩
    · rw [ownParts_cons, if_pos owns, List.mapM_cons, hs, hv]
      rfl
    · rw [List.flatMap_cons, columns_slotReferences, hc]
      simp [slotReferences]
  | @shared a s as parts rows owns _ _ _ ih =>
    obtain ⟨values, hv, hc⟩ := ih (fun q hq => hpath q (List.mem_cons_of_mem s hq))
      (fun b hb => hany b (List.mem_cons_of_mem a hb))
    exact ⟨values, by rw [ownParts_cons, owns]; exact hv, hc⟩

end Build.Parts

/-! ## Attributes made of parts -/

/-- An embedded attribute of an entity is made of the parts of an embeddable, which is kept under
its role. The attribute that is found by its name is stored in the same slots. -/
structure Composed (d : Definition) (m : Metamodel) (E : Entity) (x : SingularAttribute) (n : Nat)
    (ed : EmbeddableDefinition) (parts : List SingularAttribute) (rows : List (List Column)) :
    Prop where
  type : x.attributeType = .embeddable s!"{E.name}.{x.name}"
  kept : m.embeddables.lookup s!"{E.name}.{x.name}" =
    some ⟨s!"{E.name}.{x.name}", ed.name, parts.map .singular⟩
  embeddable : d.embeddable? ed.name = some ed
  whole : Build.Stores m.database E.tables n rows.flatten x
  parts : Build.Parts m.database E.tables E.identifier.columns n ed.attributes parts rows
  found : ∃ y, E.find? x.name = some (.singular y) ∧ y.kind = .embedded ∧
    y.attributeType = x.attributeType ∧ Build.Stores m.database E.tables n rows.flatten y

namespace Composed

variable {d : Definition} {m : Metamodel} {E : Entity} {x : SingularAttribute} {n : Nat}
  {ed : EmbeddableDefinition} {parts : List SingularAttribute} {rows : List (List Column)}

theorem columns_eq (h : Composed d m E x n ed parts rows) :
    x.columns = (ownParts ed.attributes parts).flatMap (·.columns) := by
  obtain ⟨table, ht, hc⟩ := h.whole.columns
  exact List.right_unique_forall₂' (m.database.holds_rightUnique table) hc (h.parts.holds ht)

/-- A path through the attribute leads to its parts, which are known by their names. -/
theorem walk_part (h : Composed d m E x n ed parts rows) (hE : m.entity E.name = .ok E)
    (hnames : (ed.attributes.map (·.name)).Nodup) {s : SingularAttribute} (hs : s ∈ parts)
    (path : String) :
    walk m path (.entity E.name) [x.name, s.name] = .ok (.attributeOf (.singular s)) := by
  obtain ⟨y, hfind, hkind, htype, -⟩ := h.found
  have hy : m.find (.entity E.name) x.name = .ok (.singular y) := Metamodel.find_entity hE hfind
  have hpart : (parts.map Attribute.singular).find? (·.name = s.name) = some (.singular s) := by
    refine List.find?_of_nodup (f := Attribute.name) (x := .singular s) ?_ (List.mem_map_of_mem hs)
    rw [List.map_map]
    exact h.parts.names ▸ hnames
  have hsub : m.find (.embeddable s!"{E.name}.{x.name}") s.name = .ok (.singular s) := by
    simp only [Metamodel.find, Except.bind_eq_ok, Except.pure_eq_ok]
    exact ⟨⟨s!"{E.name}.{x.name}", ed.name, parts.map .singular⟩,
      by rw [Metamodel.embeddable, h.kept], some (.singular s), hpart, rfl⟩
  simp only [walk, Except.bind_eq_ok]
  refine ⟨.singular y, by rw [hy]; rfl, ?_⟩
  simp only [hkind, htype.trans h.type, Except.bind_eq_ok, Except.pure_eq_ok]
  exact ⟨_, by rw [hsub]; rfl, rfl⟩

/-- In a group of the entity, the paths to the parts stand for the same columns as the path to the
whole. -/
theorem paths_agree (h : Composed d m E x n ed parts rows) (hE : m.entity E.name = .ok E)
    (hnames : (ed.attributes.map (·.name)).Nodup) (hany : ∀ a ∈ ed.attributes, a.isAny = false)
    {s : Scope} {name base : String} {ref : GroupRef} {g : Sql.TableGroup}
    (hr : s.index.find? name = some ref) (hs : ref.source = .entity E.name)
    (hg : groupAt? s.spaces ref.locator = some g) (hc : m.Covers base E.tables g) :
    ∃ whole values, s.path m ⟨name, [x.name]⟩ = .ok whole ∧
      (ownParts ed.attributes parts).mapM (fun part => s.path m ⟨name, [x.name, part.name]⟩) =
        .ok values ∧
      whole.columns.map (·.untyped) = values.flatMap (·.columns.map (·.untyped)) := by
  obtain ⟨y, hfind, hkind, -, hy⟩ := h.found
  obtain ⟨use, huse, hwhole⟩ := Scope.path_of_stores hr hs hg hc (walk_entity hE hfind)
    (by simp [hkind]) hy
  have hpath : ∀ part ∈ parts, ∀ row, part.kind ≠ .any →
      Build.Stores m.database E.tables n row part →
      ∃ type, s.path m ⟨name, [x.name, part.name]⟩ =
        .ok (.ofColumns (slotReferences use.variableName row) type) := by
    intro part hpart row hk hstores
    obtain ⟨use', huse', hp⟩ := Scope.path_of_stores hr hs hg hc (h.walk_part hE hnames hpart _) hk
      hstores
    cases huse.symm.trans huse'
    exact ⟨_, hp⟩
  obtain ⟨values, hv, hcolumns⟩ := h.parts.values hpath hany
  exact ⟨_, values, hwhole, hv, by rw [columns_slotReferences, hcolumns]⟩

end Composed

/-! ## Attributes of entities -/

namespace Build.AttributeOf

variable {db : Database} {entities : List Entity} {owner : Owner} {am : AttributeMapping}

theorem component {x : SingularAttribute} (h : AttributeOf db entities owner am (.singular x))
    (hk : x.kind = .embedded) : ∃ c, am.mappedType = .component c := by
  obtain ⟨r, r', hs, -⟩ := h
  unfold attributeOf at hs
  cases hm : am.mappedType with
  | component c => exact ⟨c, rfl⟩
  | basic t | any t =>
    rw [hm] at hs
    obtain ⟨_, -, _, -, heq⟩ := stored_ok hs
    cases heq
    cases hk
  | association target kind =>
    rw [hm] at hs
    obtain ⟨_, -, _, _, -, -, heq⟩ := stored_ok hs
    cases heq
    cases kind <;> cases hk
  | collection c =>
    rw [hm] at hs
    obtain ⟨_, -, _, -, heq⟩ := stored_ok hs
    cases heq

theorem embedded {y : Attribute} {c : ComponentMapping} {slots : List Column}
    (h : AttributeOf db entities owner am y) (hc : am.mappedType = .component c)
    (hd : Describes am.columns am.formulas am.sqlCodes slots) :
    ∃ s, y = .singular s ∧ s.name = am.name ∧ s.kind = .embedded ∧
      s.attributeType = .embeddable (owner.roleOf am.name) ∧
      Stores db owner.tables am.tableNumber slots s := by
  obtain ⟨r, r', hs, hg⟩ := h
  unfold attributeOf at hs
  rw [hc] at hs
  obtain ⟨s, rfl, -, hstores⟩ := stored_stores hd rfl hs
  obtain ⟨_, -, _, _, -, -, heq⟩ := stored_ok hs
  cases heq
  exact ⟨_, rfl, rfl, rfl, rfl, hstores.grows hg⟩

end Build.AttributeOf

namespace Definition.Builds

variable {d : Definition} {m : Metamodel} {ems : List EntityMapping} {ps : List PendingEntity}
  {bare : List Entity} {r r1 r2 : Registry} {e : EntityDefinition} {E : Entity}
  {x : SingularAttribute}

/-- The parts of an embeddable that is kept, over the tables and the key of its entity. -/
theorem kept_parts (h : d.Builds m ems ps bare r r1 r2) {p : PendingEntity} {entities : List Entity}
    {id : SingularAttribute} {r3 r4 : Registry} {role context name : String} {n : Nat}
    {c : ComponentMapping} (hbuilt : Build.EntityOf m.database bare p E)
    (hid : Build.identifier p r3 = .ok id r4) (hg : r4.database.Grows r2.database)
    (hkept : Build.Kept r2 entities (p.owner id.columns) role c)
    (hc : d.component context name n = .ok c) :
    ∃ ed parts rows, d.embeddable? ed.name = some ed ∧
      d.embeddableSlots d.embeddables.length name = some rows.flatten ∧
      m.embeddables.lookup role = some ⟨role, ed.name, parts.map .singular⟩ ∧
      Build.Parts m.database E.tables E.identifier.columns n ed.attributes parts rows := by
  obtain ⟨ed, parts, rows, hed, hrows, hl, hparts⟩ := hkept.parts hc
  have hdb : m.database = r2.database := congrArg Metamodel.database h.result
  have hembeddables : m.embeddables = r2.embeddables := congrArg Metamodel.embeddables h.result
  obtain ⟨r5, r6, hid', hg'⟩ := hbuilt.identifier
  have hkey : id.columns = E.identifier.columns :=
    Build.identifier_columns_unique hid (hdb ▸ hg) hid' hg'
  refine ⟨ed, parts, rows, hed, hrows, by rw [hembeddables, hl], ?_⟩
  rw [hdb, hbuilt.tables, ← hkey]
  exact hparts

theorem attribute_composed (h : d.Builds m ems ps bare r r1 r2) (he : e ∈ d.entities)
    (hE : m.entity e.name = .ok E) (hx : .singular x ∈ E.attributes) (hk : x.kind = .embedded)
    (hn : '.' ∉ x.name.toList)
    (ho : ∀ other ∈ d.entities, ¬ (other.name ++ ".").toList <+: e.name.toList) :
    ∃ n ed parts rows, Composed d m E x n ed parts rows := by
  obtain ⟨em, p, E', hmap, hp, hof, hbuilt, hE'⟩ := h.entity he
  cases hE.symm.trans hE'
  obtain ⟨am, ham, hx⟩ := hbuilt.attributes.exists_left hx
  rw [hof.attributes] at ham
  obtain ⟨D, a, hin⟩ := inherits_of_mem h.valid he hmap ham
  -- the mapping is that of an embedded attribute
  obtain ⟨c, hc⟩ := hx.component hk
  obtain ⟨order, table, number, -, -, -, hmapping⟩ := hin.mapped
  have htype := attributeMapping_type (componentMapper_agrees _) hmapping
  rw [hc] at htype
  obtain ⟨ad, rfl, hcomponent⟩ := htype
  obtain ⟨slots, hmaps⟩ := attributeMapping_maps (componentMapper_agrees _) rfl hmapping
  obtain ⟨s, heq, hname, -, hrole, hstores⟩ := hx.embedded hc hmaps.described
  cases heq
  -- and its embeddable is kept
  have hpname : p.name = e.name := hof.name.trans (entityMapping_ok hmap).1
  obtain ⟨id, r3, r4, hid, hg, hkept⟩ := h.attribute_kept he hmap hp hof hin ham hc
    (by rw [← hname]; exact hn) (by rw [hpname]; exact ho)
  obtain ⟨ed, parts, rows, hed, hrows, hl, hparts⟩ := h.kept_parts hbuilt hid hg hkept hcomponent
  cases hmaps.declared.symm.trans hrows
  obtain ⟨y, hfind, hy⟩ := find_declared h.valid he hmap hof hbuilt hin ham
  obtain ⟨y, rfl, -, hkind, hytype, hystores⟩ := hy.embedded hc hmaps.described
  rw [hmaps.tableNumber] at hstores hystores
  refine ⟨number, ed, parts, rows, ?_, ?_, hed, ?_, hparts, y, ?_, hkind, ?_, ?_⟩
  · rw [hrole, hbuilt.name, hname]
    rfl
  · rw [hbuilt.name, hname]
    exact hl
  · rw [hbuilt.tables]
    exact hstores
  · rw [hname, hin.name]
    exact hfind
  · rw [hytype, hrole]
  · rw [hbuilt.tables]
    exact hystores

/-- No attribute has the name of the identifier. -/
theorem find_identifier (h : d.Builds m ems ps bare r r1 r2) {name : String}
    (hE : m.entity name = .ok E) :
    E.find? E.identifier.name = some (.singular E.identifier) := by
  obtain ⟨e, em, p, he, -, hmap, -, hof, hbuilt, -⟩ := h.entity_of hE
  have hname : E.identifier.name = em.identifier.name := by
    obtain ⟨_, _, hid, -⟩ := hbuilt.identifier
    rw [← hof.identifier]
    obtain ⟨_, _, -, ⟨_, -, -, heq⟩ | ⟨_, -, -, heq⟩⟩ := Build.identifier_ok hid <;> rw [heq]
  have hnone : E.attributes.reverse.find? (·.name = E.identifier.name) = none := by
    rw [List.find?_eq_none]
    intro y hy heq
    obtain ⟨am, ham, r3, r4, hs, -⟩ := hbuilt.attributes.exists_left (List.mem_reverse.1 hy)
    rw [hof.attributes] at ham
    obtain ⟨D, a, hin⟩ := inherits_of_mem h.valid he hmap ham
    obtain ⟨id, -, hroot, hid, -⟩ := identifierMapping_ok (entityMapping_ok hmap).2.2.1
    obtain ⟨root, hr, hri⟩ := rootIdentifier_ok hroot
    refine declared_ne_identifier h.valid he hr hri hin.line hin.declared ?_
    rw [← hin.name, ← Build.stored_name hs, of_decide_eq_true heq, hname, hid]
  rw [Entity.find?, hnone, if_pos (.inl rfl)]

theorem identifier_composed (h : d.Builds m ems ps bare r r1 r2) (he : e ∈ d.entities)
    (hE : m.entity e.name = .ok E) (hk : E.identifier.kind = .embedded)
    (hn : '.' ∉ E.identifier.name.toList)
    (ho : ∀ other ∈ d.entities, ¬ (other.name ++ ".").toList <+: e.name.toList)
    (hkeeps : d.KeepsKeyNames e) :
    ∃ n ed parts rows, Composed d m E E.identifier n ed parts rows := by
  obtain ⟨em, p, E', hmap, hp, hof, hbuilt, hE'⟩ := h.entity he
  cases hE.symm.trans hE'
  obtain ⟨r3, r4, hid, hg⟩ := hbuilt.identifier
  obtain ⟨columns, r5, -, ⟨t, -, -, heq⟩ | ⟨c, hc, -, heq⟩⟩ := Build.identifier_ok hid
  · rw [heq] at hk
    cases hk
  have hname : E.identifier.name = p.identifier.name := by rw [heq]
  have htype : E.identifier.attributeType = .embeddable p.identifierRole := by rw [heq]
  have hpname : p.name = e.name := hof.name.trans (entityMapping_ok hmap).1
  obtain ⟨id, name, own, hroot, -, hembeddable, hcomponent, hown, hcolumns, hcodes⟩ :=
    identifierMapping_component (entityMapping_ok hmap).2.2.1 (hof.identifier ▸ hc)
  obtain ⟨id', r6, r7, hid', hg', hkept⟩ := h.identifier_kept hp hc (hname ▸ hn)
    (by rw [hpname]; exact ho)
  obtain ⟨ed, parts, rows, hed, hrows, hl, hparts⟩ := h.kept_parts hbuilt hid' hg' hkept hcomponent
  -- the slots of the identifier are those of the embeddable
  obtain ⟨slots, hslots, hdescribes⟩ := componentMapper_agrees _ _ _ _ _ hcomponent
  cases hslots.symm.trans hrows
  have hnames : em.identifier.columns.map some = rows.flatten.map (·.expression.column?) := by
    rw [hcolumns]
    split
    · rw [← hown, hdescribes.zipped, List.map_map]
      rfl
    · rename_i hgiven
      exact (hkeeps id name _ hroot hembeddable hrows).resolve_left hgiven
  have hcodes : em.identifier.sqlCodes = rows.flatten.map (·.sqlCode) := by
    rw [hcodes, hdescribes.zipped, List.map_map]
    rfl
  have hstores := (Build.identifier_stores hid).grows hg
  rw [hof.identifier, hcodes, slots_of_names hnames] at hstores
  rw [← hbuilt.tables] at hstores
  refine ⟨0, ed, parts, rows, ?_, ?_, hed, hstores, hparts, E.identifier, ?_, hk, rfl, hstores⟩
  · rw [htype, hbuilt.name, hname]
    rfl
  · rw [hbuilt.name, hname]
    exact hl
  · exact h.find_identifier hE

end Definition.Builds

/-! ## Composite values -/

/-- The columns of an embedded attribute, or of a composite identifier under the column names of its
embeddable, are those of the parts that have slots of their own, in order; the other parts have
those of the identifier. The paths to the former stand for the same columns as the path to the
whole, where the parts have distinct names and none is a reference of any kind. -/
theorem embedded_agrees_with_parts {d : Definition} {m : Metamodel} {e : EntityDefinition}
    {E : Entity} {x : SingularAttribute} (hm : d.metamodel = .ok m) (he : e ∈ d.entities)
    (hE : m.entity e.name = .ok E)
    (hx : .singular x ∈ E.attributes ∨ x = E.identifier ∧ d.KeepsKeyNames e)
    (hk : x.kind = .embedded) (hn : '.' ∉ x.name.toList)
    (ho : ∀ other ∈ d.entities, ¬ (other.name ++ ".").toList <+: e.name.toList) :
    ∃ role emb ed parts, x.attributeType = .embeddable role ∧ m.embeddable role = .ok emb ∧
      emb.attributes = parts.map .singular ∧ d.embeddable? emb.name = some ed ∧
      parts.map (·.name) = ed.attributes.map (·.name) ∧
      x.columns = (ownParts ed.attributes parts).flatMap (·.columns) ∧
      (∀ a s, (a, s) ∈ ed.attributes.zip parts → a.ownsSlots = false →
        s.columns = E.identifier.columns) ∧
      ∀ settings s l name ref, lowerWith settings m s = .ok l → l.index.find? name = some ref →
        ref.source = .entity e.name → (ed.attributes.map (·.name)).Nodup →
        (∀ a ∈ ed.attributes, a.isAny = false) →
        ∃ whole values, l.scope.path m ⟨name, [x.name]⟩ = .ok whole ∧
          (ownParts ed.attributes parts).mapM
            (fun part => l.scope.path m ⟨name, [x.name, part.name]⟩) = .ok values ∧
          whole.columns.map (·.untyped) = values.flatMap (·.columns.map (·.untyped)) := by
  obtain ⟨ems, ps, bare, r, r1, r2, h⟩ := Definition.builds hm
  have hname := Metamodel.entity_name hE
  obtain ⟨n, ed, parts, rows, hc⟩ : ∃ n ed parts rows, Composed d m E x n ed parts rows := by
    obtain hx | ⟨rfl, hkeeps⟩ := hx
    · exact h.attribute_composed he hE hx hk hn ho
    · exact h.identifier_composed he hE hk hn ho hkeeps
  refine ⟨_, _, ed, parts, hc.type, by rw [Metamodel.embeddable, hc.kept], rfl, hc.embeddable,
    hc.parts.names, hc.columns_eq, fun a s => hc.parts.shares, ?_⟩
  intro settings s l name ref hl hr hs hnames hany
  obtain ⟨g, hg, hcovers⟩ := lowerWith_entity_group hl hr hs hE
  rw [← hname] at hE hs
  exact hc.paths_agree hE hnames hany hr hs hg hcovers

/-- The size of a book as an attribute of items. -/
def itemSize : SingularAttribute :=
  ⟨.entity "Item", "size", .embedded, .embeddable "Item.size", [⟨⟨2⟩, 0⟩, ⟨⟨2⟩, 1⟩], 2, false⟩

/-- Seen from items, the width and the area of a book are columns of its scan. -/
theorem size_agrees_with_parts : ∃ (parts : List SingularAttribute) (l : Lowered)
    (whole : Sql.Expression) (values : List Sql.Expression),
    archived.embeddable "Item.size" = .ok ⟨"Item.size", "Size", parts.map .singular⟩ ∧
    parts.map (·.name) = ["width", "area"] ∧ itemSize.columns = parts.flatMap (·.columns) ∧
    lowerWith .default archived booksAndItems = .ok l ∧
    l.scope.path archived ⟨"i", ["size"]⟩ = .ok whole ∧
    parts.mapM (fun part => l.scope.path archived ⟨"i", ["size", part.name]⟩) = .ok values ∧
    whole.columns.map (·.untyped) = values.flatMap (·.columns.map (·.untyped)) := by
  obtain ⟨l, ref, hl, hr, hs⟩ := booksAndItems_lowered
  obtain ⟨E, hE⟩ := Except.exists_ok_of_isSome
    (by decide +kernel : (archived.entity archiveItem.name).toOption.isSome)
  have hattributes : (archived.entity archiveItem.name).toOption.map (·.attributes) =
      some [.singular itemSize] := by
    decide +kernel
  rw [hE] at hattributes
  have hx : .singular itemSize ∈ E.attributes := by
    rw [show E.attributes = [.singular itemSize] from Option.some.inj hattributes]
    exact List.mem_singleton_self _
  obtain ⟨role, emb, ed, parts, hrole, hemb, hparts, hed, hnames, hcolumns, -, hlowered⟩ :=
    embedded_agrees_with_parts archive_metamodel (e := archiveItem) (by decide) hE (.inl hx) rfl
      (by decide) (by decide)
  cases hrole
  have hnamed : (archived.embeddable "Item.size").toOption.map (fun e => (e.role, e.name)) =
      some ("Item.size", "Size") := by
    decide +kernel
  rw [hemb] at hnamed
  obtain ⟨_, _, _⟩ := emb
  cases hnamed
  cases hparts
  have hsize : archive.embeddable? "Size" = some archiveSize := by decide +kernel
  cases hed.symm.trans hsize
  have hown : ownParts archiveSize.attributes parts = parts := by
    have hlength : parts.length = 2 := by simpa [archiveSize] using congrArg List.length hnames
    obtain ⟨p, q, rfl⟩ := List.length_eq_two.1 hlength
    rfl
  obtain ⟨whole, values, hwhole, hvalues, hagree⟩ :=
    hlowered _ _ l "i" ref hl hr hs (by decide) (by decide)
  rw [hown] at hcolumns hvalues
  exact ⟨parts, l, whole, values, hemb, hnames, hcolumns, hl, hwhole, hvalues, hagree⟩

/-! ## Parts that share the key -/

/-- A person, whose twin is known by the same key. -/
def person : EntityDefinition :=
  ⟨"Person", none, some "person", [], none, some ⟨"id", [], none, none⟩, none,
    [.embedded ⟨"bond", "Bond", none⟩]⟩

def twins : Definition :=
  ⟨none, [person],
   [⟨"Bond", [.oneToOne ⟨"twin", "Person", none, [], true, none⟩,
      .basic ⟨"since", "integer", none, [], none, none, none, none, none⟩]⟩]⟩

/-- The bond of a person takes one column. -/
def bond : SingularAttribute :=
  ⟨.entity "Person", "bond", .embedded, .embeddable "Person.bond", [⟨⟨0⟩, 1⟩], 0, false⟩

/-- The parts of the bond take two, that of the key among them. -/
def bondParts : List SingularAttribute :=
  [⟨.embeddable "Person.bond", "twin", .oneToOne, .entity "Person", [⟨⟨0⟩, 0⟩], 0, false⟩,
   ⟨.embeddable "Person.bond", "since", .basic, .basic (.standard .integer), [⟨⟨0⟩, 1⟩], 0, false⟩]

/-- The metamodel of twins. -/
def twinned : Metamodel :=
  ⟨⟨[⟨.physical "person", [⟨.column "id", SqlCode.bigint⟩, ⟨.column "since", SqlCode.integer⟩]⟩],
    [("person", ⟨0⟩)]⟩,
   [⟨"Person", none, ⟨0⟩, [],
      ⟨.entity "Person", "id", .basic, .basic (.standard .long), [⟨⟨0⟩, 0⟩], 0, true⟩,
      [.singular bond]⟩],
   [("Person.bond", ⟨"Person.bond", "Bond", bondParts.map .singular⟩)], []⟩

/-- The columns of an embedded attribute are not those of all its parts. -/
theorem embedded_columns_ne_all_parts :
    ¬ ∀ (d : Definition) (m : Metamodel) (E : Entity) (x : SingularAttribute) (role : String)
      (emb : Embeddable) (parts : List SingularAttribute), d.metamodel = .ok m → E ∈ m.entities →
      .singular x ∈ E.attributes → x.kind = .embedded → x.attributeType = .embeddable role →
      m.embeddable role = .ok emb → emb.attributes = parts.map .singular →
      x.columns = parts.flatMap (·.columns) := by
  intro h
  have hm : twins.metamodel = .ok twinned := by decide +kernel
  have hcolumns := h twins twinned _ bond "Person.bond" _ bondParts hm (List.mem_singleton_self _)
    (List.mem_singleton_self _) rfl rfl rfl rfl
  exact absurd hcolumns (by decide)

end EntityQuery
