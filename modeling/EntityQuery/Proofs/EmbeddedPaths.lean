import EntityQuery.Proofs.EmbeddedRoles

/-!
# Paths read the tables they are qualified by

A path may lead through embedded attributes or a composite identifier, or start at embeddable
elements of a collection. The columns that it stands for are qualified by the table at a place of
the group that it starts from. `path_reads_qualified_table`: they are columns of that table.

The place is counted among the tables of the entity that the path starts at, and everything embedded
in the entity is stored in these (`Builds.walk_entity_stores`). Elements have the one table of their
collection, which has the slots of all their parts (`Builds.start_elements`). There is one
exception: a one-to-one that shares the key of its owner and is part of an element
(`Scope.SharesKey`). Its columns are those of the entity that has the collection, and the table of
the collection need not have them. That and what goes wrong where roles are not made of plain names
is in `embedded_paths_misread`.
-/

set_option autoImplicit false

namespace EntityQuery

/-! ## Columns of a group -/

/-- A column is one of the table of the group that it is qualified by. -/
def Metamodel.Reads (m : Metamodel) (g : Sql.TableGroup) (c : Sql.ColumnReference) : Prop :=
  ∃ use ∈ g.tables, use.variableName = c.variableName ∧
    ∃ table ∈ m.database.table? use.id, ⟨c.expression, c.sqlCode⟩ ∈ table.columns

instance (m : Metamodel) (g : Sql.TableGroup) (c : Sql.ColumnReference) : Decidable (m.Reads g c) :=
  inferInstanceAs (Decidable (∃ use ∈ g.tables, _ ∧ ∃ table ∈ m.database.table? use.id, _ ∈ _))

/-- Slots that are all on a table of a group are read off it. -/
theorem Metamodel.reads_slots {m : Metamodel} {g : Sql.TableGroup} {use : Sql.TableUse}
    {slots : List Column} {type : Option DomainType} (hu : use ∈ g.tables)
    (hs : ∀ slot ∈ slots, ∃ place, m.database.Holds use.id slot place) :
    ∀ c ∈ (Sql.Expression.ofColumns (slotReferences use.variableName slots) type).references,
      m.Reads g c := by
  intro c hc
  have hmem := List.mem_map_of_mem (f := fun c => (c.variableName, c.expression, c.sqlCode)) hc
  rw [Sql.Expression.slots_ofColumns, slotReferences, List.map_map] at hmem
  obtain ⟨slot, hslot, heq⟩ := List.mem_map.1 hmem
  simp only [Function.comp_apply, Prod.mk.injEq] at heq
  obtain ⟨hvariable, hexpression, hcode⟩ := heq
  obtain ⟨place, -, table, htable, hat⟩ := hs slot hslot
  obtain ⟨hlt, hget, -⟩ := List.idxOf?_eq_some_iff.1 hat
  refine ⟨use, hu, hvariable, table, htable, ?_⟩
  rw [← hexpression, ← hcode]
  exact hget ▸ List.getElem_mem hlt

/-! ## Values of paths -/

/-- The attribute whose columns a path stands for. -/
def PathTarget.stored? : PathTarget → Option SingularAttribute
  | .attributeOf (.singular a) => some a
  | .attributeOf (.plural _) => none
  | .foreignKey association _ => some association

/-- A path stands for the columns of an attribute, at its place behind the offset. -/
theorem Scope.pathValue_ok {s : Scope} {m : Metamodel} {x : ResolvedPath} {v : Sql.Expression}
    (h : s.pathValue m x = .ok v) :
    ∃ g a type, groupAt? s.spaces x.ref.locator = some g ∧ x.target.stored? = some a ∧
      m.columnsAt g (a.tablePosition + x.elementOffset) a.columns type = .ok v := by
  obtain ⟨g, hg, h⟩ := Except.bind_eq_ok.1 h
  have hg := Scope.group_ok.1 hg
  split at h
  · cases h
  · rename_i a htarget
    split at h
    · cases h
    · exact ⟨g, a, _, hg, by rw [htarget]; rfl, lookedUp_ok h⟩
  · rename_i association identifier htarget
    exact ⟨g, association, _, hg, by rw [htarget]; rfl, lookedUp_ok h⟩

/-- A path on from an embeddable ends at an attribute of one under the same role. -/
theorem Metamodel.Embeds.walk {m : Metamodel} {base path : String} {P : SingularAttribute → Prop}
    (h : m.Embeds base P) {segments : List String} {target : PathTarget} {a : SingularAttribute}
    (ha : target.stored? = some a) : ∀ {role : String}, Under base role →
      EntityQuery.walk m path (.embeddable role) segments = .ok target → P a := by
  induction segments with
  | nil => intro role hu hw; simp [EntityQuery.walk] at hw
  | cons name rest ih =>
    intro role hu hw
    have found {name : String} {x : Attribute} (hf : m.find (.embeddable role) name = .ok x) :
        ∃ s, x = .singular s ∧ P s ∧
          (s.kind = .embedded → s.attributeType = .embeddable (role ++ "." ++ s.name)) := by
      obtain ⟨e, he, hx, -⟩ := Metamodel.find_embeddable hf
      exact h role e hu he x hx
    obtain ⟨_, _, -, hf, rfl⟩ | ⟨_, _, s, heq, hf, hon⟩ := walk_ok hw
    · obtain ⟨s, rfl, hs, -⟩ := found hf
      cases ha
      exact hs
    · cases heq
      obtain ⟨_, hsame, hs, htype⟩ := found hf
      cases hsame
      obtain ⟨inner, hk, hinner, hw⟩ | ⟨_, rfl⟩ := hon
      · rw [htype hk] at hinner
        cases hinner
        exact ih (hu.child s.name) hw
      · cases ha
        exact hs

/-! ## Where paths start -/

namespace Definition.Builds

variable {d : Definition} {m : Metamodel} {ems : List EntityMapping} {ps : List PendingEntity}
  {bare : List Entity} {r r1 r2 : Registry} {E : Entity} {s : Scope} {ref : GroupRef}
  {path : String}

/-- A singular attribute of an entity is stored in the tables of the entity, with all that is
embedded in it. -/
theorem find_singular (h : d.Builds m ems ps bare r r1 r2) (hd : d.PlainRoles)
    {entity name : String} (hE : m.entity entity = .ok E) {a : SingularAttribute}
    (hf : m.find (.entity entity) name = .ok (.singular a)) :
    Build.StoredIn m.database E.tables a ∧
      (a.kind = .embedded → ∃ role, a.attributeType = .embeddable role ∧
        m.Embeds role (Build.StoredIn m.database E.tables)) := by
  obtain ⟨e, em, p, he, -, hmap, hp, hof, hbuilt, -⟩ := h.entity_of hE
  have hpe : p.name = e.name := by rw [hof.name, (entityMapping_ok hmap).1]
  have embeds {name : String} (hn : e.SingularName name) :
      m.Embeds (p.name ++ "." ++ name) (Build.StoredIn m.database p.tables) := by
    rw [hpe]
    exact h.embeds_entity hd he hp hpe hn
  rw [hbuilt.tables]
  obtain ⟨E', hE', ⟨hmem, -⟩ | heq⟩ := Metamodel.find_entity_ok hf <;> cases hE.symm.trans hE'
  · obtain ⟨am, ham, _, _, hs, hg⟩ := hbuilt.attributes.exists_left hmem
    refine ⟨?_, fun hk => ?_⟩
    · obtain ⟨-, slots, -, hstores⟩ | ⟨-, hcolumns, hposition⟩ := Build.attributeOf_stores hs
      · exact ⟨_, slots, hstores.grows hg⟩
      · exact hbuilt.toIdentified.shares hcolumns hposition
    · obtain ⟨⟨c, hc⟩, htype⟩ := Build.attributeOf_embedded hs hk
      rw [hof.attributes] at ham
      obtain ⟨D, x, hin⟩ := inherits_of_mem h.valid he hmap ham
      exact ⟨_, htype, embeds (h.embedded_singularName hd he hin hc)⟩
  · cases heq
    refine ⟨⟨0, hbuilt.toIdentified.stores⟩, fun hk => ?_⟩
    obtain ⟨_, _, hid, -⟩ := hbuilt.identifier
    obtain ⟨_, _, -, ⟨_, -, -, heq⟩ | ⟨_, -, -, heq⟩⟩ := Build.identifier_ok hid
    · rw [heq] at hk
      cases hk
    · rw [heq]
      exact ⟨_, rfl, embeds (h.identifier_singularName hd he hmap hof)⟩

/-- A path from an entity ends at an attribute that is stored in the tables of the entity. -/
theorem walk_entity_stores (h : d.Builds m ems ps bare r r1 r2) (hd : d.PlainRoles)
    {entity : String} (hE : m.entity entity = .ok E) {segments : List String} {target : PathTarget}
    {a : SingularAttribute} (ha : target.stored? = some a)
    (hw : walk m path (.entity entity) segments = .ok target) :
    Build.StoredIn m.database E.tables a := by
  obtain ⟨_, found, -, hf, rfl⟩ | ⟨_, _, found, -, hf, hon⟩ := walk_ok hw
  · cases found with
    | plural p => cases ha
    | singular s =>
      cases ha
      exact (h.find_singular hd hE hf).1
  · obtain ⟨hstores, hembeds⟩ := h.find_singular hd hE hf
    obtain ⟨role, hk, htype, hw⟩ | ⟨_, rfl⟩ := hon
    · obtain ⟨role', htype', hembeds⟩ := hembeds hk
      cases htype.symm.trans htype'
      exact hembeds.walk ha (.inl rfl) hw
    · cases ha
      exact hstores

/-- A collection that is found is one of an entity. -/
theorem find_collection (h : d.Builds m ems ps bare r r1 r2) {type : ManagedType} {name : String}
    {p : PluralAttribute} (hf : m.find type name = .ok (.plural p)) :
    ∃ E ∈ m.entities, .plural p ∈ E.attributes := by
  cases type with
  | entity entity =>
    obtain ⟨E, hE, hp, -⟩ := Metamodel.find_plural hf
    obtain ⟨-, -, -, -, -, -, -, -, -, hmem⟩ := h.entity_of hE
    exact ⟨E, hmem, hp⟩
  | embeddable role =>
    obtain ⟨e, he, hp, -⟩ := Metamodel.find_embeddable hf
    obtain ⟨_, heq⟩ := h.singular he hp
    cases heq

/-- The group of a from-element over a collection is that of a collection of the definition, with
the elements of the one that is kept under the role. -/
theorem stands_collection (h : d.Builds m ems ps bare r r1 r2) (hd : d.PlainAttributes)
    {role : String} {g : Sql.TableGroup} {q : PluralAttribute} (hs : m.Stands g (.collection role))
    (hq : m.collection role = .ok q) :
    ∃ p base D a c, m.collectionGroup p base = .ok g ∧ p.element.kind = q.element.kind ∧
      p.element.elementType = q.element.elementType ∧ c.role = role ∧ d.Collects D a c ∧
      Build.CollectionOf m.database c p := by
  obtain ⟨_, _, p, hf, hrole, hg⟩ := hs
  obtain ⟨E, hE, hp⟩ := h.find_collection hf
  obtain ⟨hqrole, E', hE', hq'⟩ := h.collection hq
  obtain ⟨D, a, c, c', hcollects, hof, hof', hroles, helement⟩ :=
    h.collection_unique hd hE hp hE' hq' (hrole.trans hqrole.symm)
  refine ⟨p, _, D, a, c, hg, ?_, ?_, hof.role.symm.trans hrole, hcollects, hof⟩
  · rw [hof.kind, hof'.kind, helement]
  · rw [hof.type, hof'.type, helement, hroles]

/-- A path that starts at an entity has the tables of the entity in its group, behind the offset. -/
theorem start_entity (h : d.Builds m ems ps bare r r1 r2) (hd : d.PlainAttributes) {entity : String}
    {offset : Nat} {g : Sql.TableGroup} (hgroup : groupAt? s.spaces ref.locator = some g)
    (hs : m.Stands g ref.source) (hstart : s.start m ref path = .ok (.entity entity, offset)) :
    ∃ E, m.entity entity = .ok E ∧ ∀ n id, E.tables[n]? = some id →
      ∃ use, g.table? (n + offset) = some use ∧ use ∈ g.tables ∧ use.id = id := by
  have covered (before : List TableId) {base : String} {E : Entity}
      (hc : m.Covers base (before ++ E.tables) g) {n : Nat} {id : TableId}
      (hid : E.tables[n]? = some id) :
      ∃ use, g.table? (n + before.length) = some use ∧ use ∈ g.tables ∧ use.id = id := by
    have hat : (before ++ E.tables)[n + before.length]? = some id := by
      rw [List.getElem?_append_right (Nat.le_add_left _ _), Nat.add_sub_cancel, hid]
    obtain ⟨use, huse, hmem, hid, -⟩ := hc.table? hat
    exact ⟨use, huse, hmem, hid⟩
  rcases Scope.start_ok hstart with ⟨_, hsource, htype, rfl⟩ | ⟨role, q, hsource, hq, hcases⟩
  · cases htype
    rw [hsource] at hs
    obtain ⟨E, hE, hg⟩ := hs
    exact ⟨E, hE, fun n id => covered [] (Metamodel.entityGroup_ok hg).1⟩
  · rw [hsource] at hs
    obtain ⟨p, _, _, _, _, hg, hkind, htype, -⟩ := h.stands_collection hd hs hq
    obtain ⟨_, g', hk, ht, hg', heq, rfl⟩ | ⟨_, hk, ht, heq, rfl⟩ | ⟨_, -, -, heq, -⟩ := hcases
    · cases heq
      cases hgroup.symm.trans (Scope.group_ok.1 hg')
      have hg := Metamodel.collectionGroup_ok hg
      simp only [hkind, hk, reduceCtorEq, false_and, or_false, false_or, true_and] at hg
      obtain ⟨link, e, -, he, hg⟩ := hg
      obtain ⟨hcovers, -, hoffset, -⟩ := Metamodel.linkGroup_ok hg
      rw [hoffset]
      exact ⟨e, Metamodel.entity_of_elements he (htype.trans ht),
        fun n id => covered [link] hcovers⟩
    · cases heq
      have hg := Metamodel.collectionGroup_ok hg
      simp only [hkind, hk, reduceCtorEq, false_and, or_false, true_and] at hg
      obtain ⟨e, he, hg⟩ := hg
      exact ⟨e, Metamodel.entity_of_elements he (htype.trans ht),
        fun n id => covered [] (Metamodel.entityGroup_ok hg).1⟩
    · cases heq

/-- A path that starts at embeddable elements has the one table of their collection in its group,
with the slots of all parts of the elements. -/
theorem start_elements (h : d.Builds m ems ps bare r r1 r2) (hd : d.PlainAttributes)
    {elements : String} {offset : Nat} {g : Sql.TableGroup} (hs : m.Stands g ref.source)
    (hstart : s.start m ref path = .ok (.embeddable elements, offset)) :
    ∃ D a c q element use, d.Collects D a c ∧ c.element.elementType = .component element ∧
      elements = Build.elementRole c.role ∧ offset = 0 ∧ ref.source = .collection c.role ∧
      m.collection c.role = .ok q ∧ q.element.kind = .embeddable ∧
      g.table? 0 = some use ∧ use ∈ g.tables ∧
      ∀ slot, Build.HasSlot element slot → ∃ place, m.database.Holds use.id slot place := by
  rcases Scope.start_ok hstart with ⟨_, -, heq, -⟩ | ⟨role, q, hsource, hq,
    ⟨_, _, -, -, -, heq, -⟩ | ⟨_, -, -, heq, -⟩ | ⟨_, hk, ht, heq, rfl⟩⟩
  · cases heq
  · cases heq
  · cases heq
  · cases heq
    rw [hsource] at hs
    obtain ⟨p, _, D, a, c, hg, hkind, htype, rfl, hcollects, hof⟩ := h.stands_collection hd hs hq
    obtain ⟨element, helement, rfl⟩ : ∃ element, c.element.elementType = .component element ∧
        elements = Build.elementRole c.role := by
      have hdomain := hof.type
      rw [htype, ht] at hdomain
      cases hc : c.element.elementType with
      | component element =>
        rw [hc] at hdomain
        exact ⟨element, rfl, DomainType.embeddable.inj hdomain⟩
      | basic t | any t | entity target n =>
        rw [hc] at hdomain
        cases hdomain
    obtain ⟨id, hid, hparts⟩ := hof.parts element helement
    have hg := Metamodel.collectionGroup_ok hg
    simp only [hkind, hk, reduceCtorEq, false_and, false_or, or_true, true_and] at hg
    obtain ⟨table, root, htable, hroot, rfl⟩ := hg
    cases hid.symm.trans htable
    refine ⟨D, a, c, q, element, root, hcollects, helement, rfl, rfl, hsource, hq, hk, rfl,
      List.mem_cons_self, ?_⟩
    rw [(Metamodel.tableUse_ok hroot).1]
    exact hparts

end Definition.Builds

/-! ## Paths -/

/-- A path leads from embeddable elements to a one-to-one that has the columns of the key of an
entity with the collection. -/
def Scope.SharesKey (s : Scope) (m : Metamodel) (path : AttributePath) : Prop :=
  ∃ x role q a, s.resolve m path = .ok x ∧ x.ref.source = .collection role ∧
    m.collection role = .ok q ∧ q.element.kind = .embeddable ∧ x.target.stored? = some a ∧
    a.kind = .oneToOne ∧ ∃ E ∈ m.entities, ∃ p, .plural p ∈ E.attributes ∧ p.role = role ∧
      a.columns = E.identifier.columns

/-- The columns that a path stands for are columns of the table that they are qualified by, in the
group of the from-element that the path starts from, unless the path leads from an element to a
one-to-one that shares a key. -/
theorem path_reads_qualified_table {d : Definition} {m : Metamodel} {settings : Settings}
    {s : Statement} {l : Lowered} {path : AttributePath} {v : Sql.Expression}
    (hm : d.metamodel = .ok m) (hd : d.PlainRoles) (hl : lowerWith settings m s = .ok l)
    (hv : l.scope.path m path = .ok v) (hk : ¬ l.scope.SharesKey m path) :
    ∃ ref g, l.index.find? path.start = some ref ∧ l.statement.group? ref = some g ∧
      ∀ c ∈ v.references, m.Reads g c := by
  obtain ⟨ems, ps, bare, r, r1, r2, hb⟩ := Definition.builds hm
  obtain ⟨x, hx, hv⟩ := Except.bind_eq_ok.1 hv
  obtain ⟨g, a, type, hg, ha, hv⟩ := Scope.pathValue_ok hv
  obtain ⟨start, hr, hstart, hw, -⟩ := Scope.resolve_ok hx
  have hr := FromIndex.resolve_ok.1 hr
  obtain ⟨g', hg', -, hstands⟩ := (lowerWith_registers hl).stands _ (FromIndex.mem_of_find? hr)
  cases hg.symm.trans hg'
  refine ⟨x.ref, g, hr, hg, ?_⟩
  cases start with
  | entity entity =>
    obtain ⟨E, hE, htables⟩ := hb.start_entity hd.attributes hg hstands hstart
    obtain ⟨n, slots, hposition, id, hid, hholds⟩ := hb.walk_entity_stores hd hE ha hw
    obtain ⟨use, huse, hmem, rfl⟩ := htables n id hid
    rw [hposition, Metamodel.columnsAt_of_holds type huse hholds] at hv
    cases hv
    refine Metamodel.reads_slots hmem fun slot hslot => ?_
    obtain ⟨place, -, hplace⟩ := hholds.exists_right hslot
    exact ⟨place, hplace⟩
  | embeddable elements =>
    obtain ⟨_, _, c, q, element, use, hcollects, helement, rfl, hoffset, hsource, hq, hkind, huse,
      hmem, hparts⟩ := hb.start_elements hd.attributes hstands hstart
    obtain ⟨hposition, hpart⟩ := (hb.embeds_element hd hcollects helement).walk ha (.inl rfl) hw
    cases hpart with
    | own holds within =>
      rw [hposition, hoffset, Metamodel.columnsAt_of_holds type huse holds] at hv
      cases hv
      exact Metamodel.reads_slots hmem fun slot hslot => hparts slot (within slot hslot)
    | @shared E p hone hE hp hprole hcolumns =>
      refine absurd ?_ hk
      exact ⟨x, c.role, q, a, hx, hsource, hq, hkind, ha, hone, E, hE, p, hp, hprole, hcolumns⟩

/-- A part of a basic type, in a column of its own name unless another one is given. -/
def plainPart (name typeName : String) (column : Option String) : AttributeDefinition :=
  .basic ⟨name, typeName, column, [], none, none, none, none, none⟩

/-- Crates, known by their place in a store. The shape of a crate is kept with its lid, and its
labels in a table of their own. -/
def crates : Definition :=
  ⟨none,
   [⟨"Crate", none, some "crate", ["lid"], none, some ⟨"place", [], none, some "Place"⟩, none,
      [.embedded ⟨"shape", "Shape", some "lid"⟩,
       .elementCollection ⟨"labels", "label", ["aisle", "bay"], .embeddable "Label", .bag, none⟩]⟩],
   [⟨"Place", [plainPart "aisle" "string" none, plainPart "bay" "integer" none]⟩,
    ⟨"Shape", [.embedded ⟨"size", "Size", none⟩]⟩, archiveSize,
    ⟨"Label", [plainPart "text" "string" none, .embedded ⟨"at", "Position", none⟩]⟩,
    ⟨"Position", [plainPart "side" "integer" none, plainPart "height" "integer" none]⟩]⟩

/-- Crates with their labels. -/
def cratesAndLabels : Statement :=
  .select ⟨⟨[⟨⟨"Crate", some "c"⟩, [⟨some "l", .inner, .attributeOf "c" "labels", false, none⟩]⟩]⟩,
    none, none, none⟩

/-- From a crate to a part of its place and to one of its shape, and from a label to a part of
its position. -/
def cratePaths : List AttributePath :=
  [⟨"c", ["place", "bay"]⟩, ⟨"c", ["shape", "size", "area"]⟩, ⟨"l", ["at", "height"]⟩]

theorem path_reads_crates_and_labels : ∃ m l, crates.metamodel = .ok m ∧ crates.PlainRoles ∧
    lowerWith .default m cratesAndLabels = .ok l ∧ ∀ path ∈ cratePaths,
      ∃ v ref g, l.scope.path m path = .ok v ∧ ¬ l.scope.SharesKey m path ∧
        l.index.find? path.start = some ref ∧ l.statement.group? ref = some g ∧
        ∀ c ∈ v.references, m.Reads g c := by
  have hrun : (crates.metamodel.toOption.bind fun m =>
      (lowerWith .default m cratesAndLabels).toOption.map fun l => decide (∀ path ∈ cratePaths,
        (l.scope.path m path).toOption.isSome ∧ ∀ x ∈ (l.scope.resolve m path).toOption,
          ∀ a ∈ x.target.stored?, a.kind ≠ .oneToOne)) = some true := by
    decide +kernel
  obtain ⟨m, hm, hrun⟩ := Option.bind_eq_some_iff.1 hrun
  obtain ⟨l, hl, hpaths⟩ := Option.map_eq_some_iff.1 hrun
  have hm := Except.toOption_eq_some.1 hm
  have hl := Except.toOption_eq_some.1 hl
  have hplain : crates.PlainRoles :=
    ⟨by unfold Definition.PlainAttributes; decide +kernel, by decide +kernel, by decide +kernel⟩
  refine ⟨m, l, hm, hplain, hl, fun path hpath => ?_⟩
  obtain ⟨hvalue, hkinds⟩ := of_decide_eq_true hpaths path hpath
  obtain ⟨v, hv⟩ := Except.exists_ok_of_isSome hvalue
  have hk : ¬ l.scope.SharesKey m path := by
    rintro ⟨x, _, _, a, hx, -, -, -, ha, hone, -⟩
    exact hkinds x (Except.toOption_eq_some.2 hx) a ha hone
  obtain ⟨ref, g, hr, hg, hreads⟩ := path_reads_qualified_table hm hplain hl hv hk
  exact ⟨v, ref, g, hv, hk, hr, hg, hreads⟩

/-! ## Paths that read other tables -/

/-- A path of a statement stands for a column that is not one of the table it is qualified by. -/
def Misreads (d : Definition) (s : Statement) (path : AttributePath) : Prop :=
  ∃ m l v ref g, d.metamodel = .ok m ∧ lowerWith .default m s = .ok l ∧
    l.scope.path m path = .ok v ∧ l.index.find? path.start = some ref ∧ l.statement.group? ref = some g ∧
    ∃ c ∈ v.references, ¬ m.Reads g c

instance (d : Definition) (s : Statement) (path : AttributePath) : Decidable (Misreads d s path) :=
  decidable_of_iff ((d.metamodel.toOption.bind fun m =>
    (lowerWith .default m s).toOption.bind fun l => (l.scope.path m path).toOption.bind fun v =>
    (l.index.find? path.start).bind fun ref => (l.statement.group? ref).map fun g =>
    decide (∃ c ∈ v.references, ¬ m.Reads g c)) = some true) (by
      simp only [Misreads, Option.bind_eq_some_iff, Option.map_eq_some_iff, Except.toOption_eq_some,
        decide_eq_true_eq, exists_and_left])

/-- Books with notes of the given parts. -/
def noted (identifier : IdentifierDefinition) (more parts : List AttributeDefinition) :
    Definition :=
  ⟨none,
   [⟨"Book", none, some "book", [], none, some identifier, none,
      .elementCollection ⟨"notes", "note", ["book_id"], .embeddable "Note", .bag, none⟩ :: more⟩],
   [⟨"Note", parts⟩, ⟨"Mark", [plainPart "text" "string" (some "mark")]⟩]⟩

/-- Notes that share the key of the book. -/
def sharedNotes : Definition :=
  noted ⟨"id", [], none, none⟩ []
    [.oneToOne ⟨"about", "Book", none, [], true, none⟩, plainPart "text" "string" none]

/-- A mark that is called by the role of the notes. -/
def notesAndMark : Definition :=
  noted ⟨"id", [], none, none⟩ [.embedded ⟨"notes.\x7belement\x7d", "Mark", none⟩]
    [plainPart "text" "string" none]

/-- A key that is called by the role of the notes. -/
def notesByMark : Definition :=
  noted ⟨"notes.\x7belement\x7d", [], none, some "Mark"⟩ [] [plainPart "text" "string" none]

def booksAndNotes : Statement :=
  .select ⟨⟨[⟨⟨"Book", some "b"⟩, [⟨some "n", .inner, .attributeOf "b" "notes", false, none⟩]⟩]⟩,
    none, none, none⟩

/-- Books with covers, and covers that are called like those of the books. -/
def covers : Definition :=
  let key : IdentifierDefinition := ⟨"id", [], none, none⟩
  ⟨none,
   [⟨"Book", none, some "book", [], none, some key, none, [.embedded ⟨"cover", "Cover", none⟩]⟩,
    ⟨"Book.cover", none, some "cover", [], none, some key, none,
      [.embedded ⟨"title", "Mark", none⟩]⟩],
   [⟨"Cover", [.embedded ⟨"title", "Title", none⟩]⟩, ⟨"Title", [plainPart "text" "string" none]⟩,
    ⟨"Mark", [plainPart "text" "string" (some "mark")]⟩]⟩

/-- A one-to-one of an element that shares a key is read off the collection table, which does not
have the key. Other paths too read tables that do not have their columns where roles are not made of
plain names: from an attribute, a key or an entity that is called by the role of something embedded.
-/
theorem embedded_paths_misread :
    (sharedNotes.PlainRoles ∧ Misreads sharedNotes booksAndNotes ⟨"n", ["about"]⟩) ∧
    Misreads notesAndMark booksAndNotes ⟨"b", ["notes.\x7belement\x7d", "text"]⟩ ∧
    Misreads notesByMark booksAndNotes ⟨"n", ["text"]⟩ ∧
    Misreads covers (.select ⟨⟨[⟨⟨"Book.cover", some "c"⟩, []⟩]⟩, none, none, none⟩)
      ⟨"c", ["title", "text"]⟩ := by
  refine ⟨⟨⟨?_, ?_, ?_⟩, ?_⟩, ?_, ?_, ?_⟩
  · unfold Definition.PlainAttributes
    decide +kernel
  all_goals decide +kernel

end EntityQuery
