import EntityQuery.Proofs.AliasBases
import EntityQuery.Proofs.Pass

/-!
# From-elements and their groups

What a pass has registered when the from-elements of a statement have been gone through, and what
stays so until its end (`Scope.Registers`): the index has one entry for each from-element, at the
place of its group; the group stands for what the entry ranges over; and the alias bases of the
groups are numbered in order.

`Pass.Registers.enter` says that one more from-element keeps this, `lowerWith_registers` that every
lowered statement has it.
-/

set_option autoImplicit false

namespace EntityQuery

/-! ## The index -/

theorem insertEntry_perm {name : String} {ref : GroupRef} {entries : List (String × GroupRef)}
    (h : name ∉ aliases entries) : (insertEntry name ref entries).Perm ((name, ref) :: entries) := by
  induction entries with
  | nil => exact .refl _
  | cons entry rest ih =>
    simp only [aliases, List.map_cons, List.mem_cons, not_or] at h
    rw [insertEntry]
    split
    · exact .refl _
    · rw [if_neg h.1]
      exact ((ih h.2).cons entry).trans (.swap ..)

namespace FromIndex

theorem find?_eq_none {index : FromIndex} {name : String} :
    index.find? name = none ↔ name ∉ aliases index.entries := by
  simp only [find?, List.lookup_eq_none_iff, aliases, List.mem_map, not_exists, not_and, bne_iff_ne,
    ne_eq]
  exact ⟨fun h e he hn => h e he hn.symm, fun h e he hn => h e he hn.symm⟩

theorem add_ok {index index' : FromIndex} {name : String} {ref : GroupRef}
    (h : index.add name ref = .ok index') :
    name ∉ aliases index.entries ∧ index'.entries.Perm ((name, ref) :: index.entries) := by
  unfold add at h
  split at h
  · cases h
  · rename_i hf
    cases h
    have hn := find?_eq_none.1 hf
    exact ⟨hn, insertEntry_perm hn⟩

theorem aliases_nodup (index : FromIndex) : (aliases index.entries).Nodup :=
  index.sorted.imp fun h => Std.ne_of_lt h

/-- Every entry is found by its alias. -/
theorem find?_of_mem {index : FromIndex} {entry : String × GroupRef} (h : entry ∈ index.entries) :
    index.find? entry.1 = some entry.2 := by
  rw [find?, List.lookup_eq_find?, List.find?_of_nodup (f := Prod.fst) index.aliases_nodup h]
  rfl

theorem mem_of_find? {index : FromIndex} {name : String} {ref : GroupRef}
    (h : index.find? name = some ref) : (name, ref) ∈ index.entries := by
  obtain ⟨before, after, he, -⟩ := List.lookup_eq_some_iff.1 h
  rw [he]
  simp

end FromIndex

/-! ## Names of from-elements -/

/-- The names of from-elements in order, when `generated` names have been made up before. -/
def namesFrom : Nat → List (Option String) → List String
  | _, [] => []
  | generated, e :: es => nameFor e generated :: namesFrom (generatedAfter e generated) es

/-- The number of made-up names after from-elements. -/
def generatedFrom : Nat → List (Option String) → Nat
  | generated, [] => generated
  | generated, e :: es => generatedFrom (generatedAfter e generated) es

theorem generatedFrom_snoc (e : Option String) : ∀ (generated : Nat) (es : List (Option String)),
    generatedFrom generated (es ++ [e]) = generatedAfter e (generatedFrom generated es)
  | _, [] => rfl
  | _, _ :: es => generatedFrom_snoc e _ es

theorem namesFrom_snoc (e : Option String) : ∀ (generated : Nat) (es : List (Option String)),
    namesFrom generated (es ++ [e]) =
      namesFrom generated es ++ [nameFor e (generatedFrom generated es)]
  | _, [] => rfl
  | generated, x :: es => congrArg (nameFor x generated :: ·) (namesFrom_snoc e _ es)

theorem namesFrom_sublist {es fs : List (Option String)} (h : es <+: fs) :
    ∀ {generated : Nat}, (namesFrom generated es).Sublist (namesFrom generated fs) := by
  obtain ⟨rest, rfl⟩ := h
  induction es with
  | nil => exact List.nil_sublist _
  | cons e es ih => exact ih.cons_cons _

theorem length_namesFrom : ∀ (generated : Nat) (es : List (Option String)),
    (namesFrom generated es).length = es.length
  | _, [] => rfl
  | _, _ :: es => congrArg (· + 1) (length_namesFrom _ es)

/-! ## What groups stand for -/

/-- A group is the one that is built for what a from-element ranges over, under its own alias
base. -/
def Metamodel.Stands (m : Metamodel) (g : Sql.TableGroup) : GroupSource → Prop
  | .entity name => ∃ e, m.entity name = .ok e ∧ m.entityGroup e g.aliasBase = .ok g
  | .collection role => ∃ type name p, m.find type name = .ok (.plural p) ∧ p.role = role ∧
      m.collectionGroup p g.aliasBase = .ok g

theorem Metamodel.Stands.covers {m : Metamodel} {g : Sql.TableGroup} :
    ∀ {source : GroupSource}, m.Stands g source → ∃ ids, m.Covers g.aliasBase ids g
  | .entity _, ⟨_, _, hg⟩ => ⟨_, (entityGroup_ok hg).1⟩
  | .collection _, ⟨_, _, _, _, _, hg⟩ => collectionGroup_covers hg

/-- One segment of a path: the last one finds an attribute, and one before it leads on from an embedded
attribute or to the identifier behind an association. -/
theorem walk_ok {m : Metamodel} {path : String} {type : ManagedType} {segments : List String}
    {target : PathTarget} (h : walk m path type segments = .ok target) :
    (∃ name a, segments = [name] ∧ m.find type name = .ok a ∧ target = .attributeOf a) ∨
    ∃ name rest a, segments = name :: rest ∧ m.find type name = .ok (.singular a) ∧
      ((∃ role, a.kind = .embedded ∧ a.attributeType = .embeddable role ∧
          walk m path (.embeddable role) rest = .ok target) ∨
        ∃ identifier, target = .foreignKey a identifier) := by
  match segments with
  | [] => simp [walk] at h
  | [name] =>
    simp only [walk, Except.bind_eq_ok, Except.pure_eq_ok] at h
    obtain ⟨a, hf, rfl⟩ := h
    exact .inl ⟨name, a, rfl, lookedUp_ok hf, rfl⟩
  | name :: next :: rest =>
    simp only [walk, Except.bind_eq_ok] at h
    obtain ⟨found, hf, h⟩ := h
    cases found with
    | plural p => cases h
    | singular a =>
      refine .inr ⟨name, next :: rest, a, rfl, lookedUp_ok hf, ?_⟩
      cases hk : a.kind with
      | embedded =>
        simp only [hk] at h
        split at h
        · rename_i role htype
          exact .inl ⟨role, rfl, htype, h⟩
        · cases h
      | manyToOne | oneToOne =>
        simp only [hk] at h
        split at h
        all_goals
          obtain ⟨identifier?, -, h⟩ := Except.bind_eq_ok.1 h
          split at h <;> cases h
          exact .inr ⟨_, rfl⟩
      | any | basic =>
        simp only [hk] at h
        cases h

/-- The attribute at the end of a path is one of a type of the metamodel. -/
theorem walk_attribute {m : Metamodel} {path : String} {segments : List String} :
    ∀ {type : ManagedType} {a : Attribute},
      walk m path type segments = .ok (.attributeOf a) → ∃ type' name, m.find type' name = .ok a := by
  induction segments with
  | nil => intro type a h; simp [walk] at h
  | cons name rest ih =>
    intro type a h
    obtain ⟨_, _, -, hf, heq⟩ | ⟨_, _, _, heq, -, ⟨_, -, -, hw⟩ | ⟨_, heq'⟩⟩ := walk_ok h
    · cases heq
      exact ⟨type, _, hf⟩
    · cases heq
      exact ih hw
    · cases heq'

namespace Scope

variable {s : Scope} {m : Metamodel} {base : String} {joined : JoinedGroup}

theorem resolve_ok {path : AttributePath} {r : ResolvedPath} (h : s.resolve m path = .ok r) :
    ∃ start, s.index.resolve path.start = .ok r.ref ∧
      s.start m r.ref path.dotted = .ok (start, r.elementOffset) ∧
      walk m path.dotted start path.segments = .ok r.target ∧ r.path = path.dotted := by
  simp only [resolve, Except.bind_eq_ok, Except.pure_eq_ok] at h
  obtain ⟨ref, hr, ⟨start, offset⟩, hs, target, hw, rfl⟩ := h
  exact ⟨start, hr, hs, hw, rfl⟩

theorem associationGroup_stands {r : ResolvedPath} {a : SingularAttribute}
    (h : s.associationGroup m r a base = .ok joined) :
    joined.group.aliasBase = base ∧ m.Stands joined.group joined.source := by
  simp only [associationGroup, Except.bind_eq_ok, Except.pure_eq_ok] at h
  obtain ⟨name, -, target, ht, group, hg, owner, -, lhs, -, rhs, -, predicate, -, rfl⟩ := h
  have ht := lookedUp_ok ht
  have hg := lookedUp_ok hg
  have hb := (Metamodel.entityGroup_ok hg).1.aliasBase
  exact ⟨hb, target, by rw [Metamodel.entity_name ht]; exact ht, by rw [hb]; exact hg⟩

theorem pluralGroup_stands {r : ResolvedPath} {p : PluralAttribute} {type : ManagedType}
    {name : String} (hf : m.find type name = .ok (.plural p))
    (h : s.pluralGroup m r p base = .ok joined) :
    joined.group.aliasBase = base ∧ m.Stands joined.group joined.source := by
  simp only [pluralGroup, Except.bind_eq_ok, Except.pure_eq_ok] at h
  obtain ⟨group, hg, owner, -, predicate, -, rfl⟩ := h
  have hg := lookedUp_ok hg
  obtain ⟨ids, hc⟩ := Metamodel.collectionGroup_covers hg
  exact ⟨hc.aliasBase, type, name, p, hf, rfl, by rw [hc.aliasBase]; exact hg⟩

/-- A joined group is built under the alias base given, for what its from-element ranges over. -/
theorem joinedGroup_stands {source : JoinSource} (h : s.joinedGroup m source base = .ok joined) :
    joined.group.aliasBase = base ∧ m.Stands joined.group joined.source := by
  cases source with
  | entity name =>
    simp only [joinedGroup, Except.bind_eq_ok, Except.pure_eq_ok] at h
    obtain ⟨e, he, group, hg, rfl⟩ := h
    have he := lookedUp_ok he
    have hg := lookedUp_ok hg
    have hb := (Metamodel.entityGroup_ok hg).1.aliasBase
    exact ⟨hb, e, by rw [Metamodel.entity_name he]; exact he, by rw [hb]; exact hg⟩
  | attributeOf start dotted =>
    simp only [joinedGroup, attributeGroup, Except.bind_eq_ok] at h
    obtain ⟨r, hr, h⟩ := h
    obtain ⟨type, -, -, hw, -⟩ := resolve_ok hr
    split at h
    · split at h
      · exact associationGroup_stands h
      · exact associationGroup_stands h
      · cases h
      · cases h
      · cases h
    · rename_i p hp
      rw [hp] at hw
      obtain ⟨type', name, hf⟩ := walk_attribute hw
      exact pluralGroup_stands hf h
    · cases h

end Scope

/-! ## What is registered -/

namespace Scope

/-- From-elements are registered: the entries of the index are at the places of the groups, under
the names of the from-elements; the group at the place of an entry has its alias base and stands
for what it ranges over; and the alias bases of the groups are numbered in order. -/
structure Registers (s : Scope) (m : Metamodel) (stem : String) (joins : List Nat)
    (elements : List (Option String)) : Prop where
  shaped : shape s.spaces = joins
  named : (s.index.entries.map fun e => (e.2.locator, e.1)).Perm
    ((places s.spaces).zip (namesFrom 0 elements))
  stands : ∀ e ∈ s.index.entries, ∃ g, groupAt? s.spaces e.2.locator = some g ∧
    g.aliasBase = e.2.aliasBase ∧ m.Stands g e.2.source
  bases : (groupsOf s.spaces).map (·.aliasBase) =
    (List.range' 1 elements.length).map (AliasBases.base stem)

variable {s : Scope} {m : Metamodel} {stem : String} {joins : List Nat}
  {elements : List (Option String)}

theorem Registers.length_groups (h : s.Registers m stem joins elements) :
    (groupsOf s.spaces).length = elements.length := by
  simpa using congrArg List.length h.bases

theorem Registers.length_places (h : s.Registers m stem joins elements) :
    (places s.spaces).length = (namesFrom 0 elements).length := by
  rw [EntityQuery.length_places, h.length_groups, length_namesFrom]

/-- The places of the entries are those of the groups. -/
theorem Registers.locators (h : s.Registers m stem joins elements) :
    (s.index.entries.map (·.2.locator)).Perm (places s.spaces) := by
  have := h.named.map Prod.fst
  rwa [List.map_map, List.map_fst_zip (Nat.le_of_eq h.length_places)] at this

/-- The aliases in the index are the names of the from-elements. -/
theorem Registers.names (h : s.Registers m stem joins elements) :
    (aliases s.index.entries).Perm (namesFrom 0 elements) := by
  have := h.named.map Prod.snd
  rwa [List.map_map, List.map_snd_zip (Nat.le_of_eq h.length_places.symm)] at this

/-- Every place of the spaces is in the index. -/
theorem Registers.entry_of_place (h : s.Registers m stem joins elements) {l : GroupLocator}
    (hl : l ∈ places s.spaces) : ∃ e ∈ s.index.entries, e.2.locator = l := by
  simpa using h.locators.mem_iff.2 hl

/-- Every group stands for something. -/
theorem Registers.group_stands (h : s.Registers m stem joins elements) {g : Sql.TableGroup}
    (hg : g ∈ groupsOf s.spaces) : ∃ source, m.Stands g source := by
  have hg' : some g ∈ (places s.spaces).map (groupAt? s.spaces) := by
    rw [places_map_groupAt]
    exact List.mem_map_of_mem hg
  obtain ⟨l, hl, hat⟩ := List.mem_map.1 hg'
  obtain ⟨e, he, rfl⟩ := h.entry_of_place hl
  obtain ⟨g', hg', -, hs⟩ := h.stands e he
  cases hat.symm.trans hg'
  exact ⟨_, hs⟩

end Scope

/-- From-elements are registered and nothing else has been asked for: a name has an alias base
when it is in the index. -/
structure Pass.Registers (pass : Pass) (m : Metamodel) (stem : String) (joins : List Nat)
    (elements : List (Option String)) : Prop where
  scope : pass.scope.Registers m stem joins elements
  generated : pass.generated = generatedFrom 0 elements
  stem : pass.supply.aliasBases.stem = stem
  count : pass.supply.aliasBases.count = elements.length
  assigned : ∀ name, (pass.supply.aliasBases.assigned? name).isSome ↔
    name ∈ aliases pass.scope.index.entries

theorem Pass.registers_start (settings : Settings) (m : Metamodel) :
    (Pass.start settings).Registers m settings.aliasStem [] [] := by
  refine ⟨⟨rfl, .refl _, ?_, rfl⟩, rfl, rfl, rfl, ?_⟩
  · simp [Pass.start, FromIndex.empty]
  · simp [Pass.start, FromIndex.empty, AliasBases.start, AliasBases.assigned?, aliases]

theorem groupAt?_eq_of_groupsOf {spaces spaces' : List Sql.TableSpace} {l : GroupLocator}
    {g : Sql.TableGroup} (hp : places spaces' = places spaces ++ [l])
    (hg : groupsOf spaces' = groupsOf spaces ++ [g]) :
    (∀ k ∈ places spaces, groupAt? spaces' k = groupAt? spaces k) ∧ groupAt? spaces' l = some g := by
  have h := places_map_groupAt spaces'
  rw [hp, hg, List.map_append, List.map_append, ← places_map_groupAt spaces] at h
  obtain ⟨h1, h2⟩ := List.append_inj h (by simp)
  exact ⟨List.map_inj_left.1 h1, by simpa using h2⟩

/-- One more from-element: its group comes at a new place behind all others. -/
theorem Pass.Registers.enter {pass : Pass} {m : Metamodel} {stem : String} {joins joins' : List Nat}
    {elements : List (Option String)} (h : pass.Registers m stem joins elements)
    {element : Option String} {l : GroupLocator} {g : Sql.TableGroup} {source : GroupSource}
    {base : String} {bases : AliasBases} {index : FromIndex} {spaces : List Sql.TableSpace}
    {pending : List PendingCondition}
    (hb : pass.supply.aliasBases.baseFor (nameFor element pass.generated) = (base, bases))
    (hi : pass.scope.index.add (nameFor element pass.generated) ⟨l, base, source⟩ = .ok index)
    (hj : shape spaces = joins') (hp : places spaces = places pass.scope.spaces ++ [l])
    (hg : groupsOf spaces = groupsOf pass.scope.spaces ++ [g]) (ha : g.aliasBase = base)
    (hs : m.Stands g source) :
    Pass.Registers ⟨{ pass.supply with aliasBases := bases }, ⟨index, spaces⟩,
      generatedAfter element pass.generated, pending⟩ m stem joins' (elements ++ [element]) := by
  obtain ⟨hn, hperm⟩ := FromIndex.add_ok hi
  have hnew : pass.supply.aliasBases.assigned? (nameFor element pass.generated) = none := by
    rw [← Option.not_isSome_iff_eq_none, h.assigned]
    exact hn
  rw [AliasBases.baseFor_new hnew] at hb
  obtain ⟨rfl, rfl⟩ := Prod.mk.inj hb
  obtain ⟨hkept, hat⟩ := groupAt?_eq_of_groupsOf hp hg
  refine ⟨⟨hj, ?_, ?_, ?_⟩, ?_, h.stem, by simp [h.count], ?_⟩
  · rw [hp, namesFrom_snoc, List.zip_append h.scope.length_places, ← h.generated]
    refine (hperm.map _).trans ?_
    exact (h.scope.named.cons _).trans (List.perm_append_singleton _ _).symm
  · intro e he
    rcases List.mem_cons.1 (hperm.mem_iff.1 he) with rfl | he
    · exact ⟨g, hat, ha, hs⟩
    · obtain ⟨g', hg', hrest⟩ := h.scope.stands e he
      refine ⟨g', ?_, hrest⟩
      have hmem : e.2.locator ∈ places pass.scope.spaces :=
        h.scope.locators.mem_iff.1 (List.mem_map_of_mem (f := fun e => e.2.locator) he)
      rw [hkept _ hmem, hg']
  · rw [hg, List.map_append, h.scope.bases]
    simp [List.range'_1_concat, ha, h.stem, h.count, Nat.add_comm]
  · simp [generatedFrom_snoc, h.generated]
  · intro name
    have hmem : name ∈ aliases index.entries ↔
        name = nameFor element pass.generated ∨ name ∈ aliases pass.scope.index.entries := by
      simpa [aliases] using (hperm.map Prod.fst).mem_iff (a := name)
    rw [AliasBases.isSome_assigned?_cons, hmem, ← h.assigned]
    rfl

/-! ## From-elements of statements -/

/-- The from-elements of a space, by their explicit aliases: the root, then the joins. -/
def Space.elements (s : Space) : List (Option String) :=
  s.root.aliasName :: s.joins.map (·.aliasName)

namespace Statement

/-- The from-elements of a statement, by their explicit aliases: those of a query from left to
right, or the one target of an update or deletion. -/
def elements : Statement → List (Option String)
  | .select q => q.fromClause.spaces.flatMap (·.elements)
  | .update u => [u.target.aliasName]
  | .delete d => [d.target.aliasName]

/-- The numbers of joins of the spaces of a statement. -/
def joins : Statement → List Nat
  | .select q => q.fromClause.spaces.map (·.joins.length)
  | .update _ | .delete _ => [0]

end Statement

namespace Step

variable {m : Metamodel} {pass pass' : Pass} {u : Unit} {stem : String} {joins : List Nat}
  {elements : List (Option String)}

theorem root_registers {r : Root} (hr : pass.Registers m stem joins elements)
    (h : root m r pass = .ok u pass') :
    pass'.Registers m stem (joins ++ [0]) (elements ++ [r.aliasName]) := by
  obtain ⟨e, base, bases, g, index, he, hb, hg, hi, rfl⟩ := root_ok h
  have ha := (Metamodel.entityGroup_ok hg).1.aliasBase
  refine hr.enter hb hi ?_ (places_open _ g) (groupsOf_open _ g) ha ?_
  · simpa [shape] using hr.scope.shaped
  · exact ⟨e, by rw [Metamodel.entity_name he]; exact he, by rw [ha]; exact hg⟩

theorem join_registers {j : Join} {count : Nat}
    (hr : pass.Registers m stem (joins ++ [count]) elements) (h : join m j pass = .ok u pass') :
    pass'.Registers m stem (joins ++ [count + 1]) (elements ++ [j.aliasName]) := by
  obtain ⟨joinType, space, base, bases, joined, index, -, hl, hb, hj, hi, rfl⟩ := join_ok h
  obtain ⟨ha, hs⟩ := Scope.joinedGroup_stands hj
  have hshape := hr.scope.shaped
  obtain ⟨before, s, hspaces, rfl, hjoined⟩ :=
    joinedOnto_last ⟨joinType, joined.group, joined.predicate, j.fetch⟩ hl
  have hcount : joinCount pass.scope.spaces before.length = s.joins.length := by
    simp [joinCount, hspaces]
  rw [hcount] at hi
  rw [hjoined]
  refine hr.enter hb hi ?_ ?_ ?_ ha hs
  · rw [hspaces] at hshape
    simp only [shape, List.map_append, List.map_cons, List.map_nil] at hshape ⊢
    obtain ⟨h1, h2⟩ := List.append_inj' hshape rfl
    simp [h1, List.singleton_inj.1 h2]
  · rw [hspaces]
    exact places_join before s _
  · rw [hspaces]
    exact groupsOf_join before s _

theorem space_registers {s : Space} (hr : pass.Registers m stem joins elements)
    (h : space m s pass = .ok u pass') :
    pass'.Registers m stem (joins ++ [s.joins.length]) (elements ++ s.elements) := by
  obtain ⟨v, p, hroot, hjoins⟩ := space_ok h
  have hloop := EStateM.forM_inv
    (fun done pass => Pass.Registers pass m stem (joins ++ [done.length])
      (elements ++ s.root.aliasName :: done.map (·.aliasName)))
    (fun hi hj => by simpa using join_registers hi hj) (by simpa using root_registers hr hroot) hjoins
  simpa [Space.elements] using hloop

theorem spaces_registers {spaces : List Space} (hr : pass.Registers m stem [] [])
    (h : spaces.forM (space m) pass = .ok u pass') :
    pass'.Registers m stem (spaces.map (·.joins.length)) (spaces.flatMap (·.elements)) := by
  have hloop := EStateM.forM_inv
    (fun done pass => Pass.Registers pass m stem (done.map (·.joins.length))
      (done.flatMap (·.elements)))
    (fun hi hs => by simpa using space_registers hi hs) hr h
  simpa using hloop

/-! ## Conditions of joins leave groups alone -/

theorem shape_tied (space position : Nat) (condition : Sql.Predicate)
    (spaces : List Sql.TableSpace) : shape (tied space position condition spaces) = shape spaces := by
  apply List.ext_getElem?
  intro i
  simp only [shape, tied, List.getElem?_map, List.getElem?_modify]
  split
  · cases spaces[i]? <;> simp
  · simp

theorem groupAt?_tied (space position : Nat) (condition : Sql.Predicate)
    (spaces : List Sql.TableSpace) :
    groupAt? (tied space position condition spaces) = groupAt? spaces := by
  funext l
  simp only [groupAt?, tied, List.getElem?_modify]
  cases hs : spaces[l.space]? with
  | none => simp
  | some s =>
    by_cases h : space = l.space
    · cases l.position with
      | root => simp [h]
      | join i =>
        by_cases hi : position = i <;> simp [h, hi, Function.comp_def]
    · simp [h]

end Step

theorem groupsOf_eq_of_groupAt {spaces spaces' : List Sql.TableSpace}
    (hs : shape spaces' = shape spaces) (hg : groupAt? spaces' = groupAt? spaces) :
    groupsOf spaces' = groupsOf spaces := by
  have h := places_map_groupAt spaces'
  rw [places, hs, hg] at h
  exact List.map_injective_iff.2 (fun _ _ => Option.some.inj)
    (h.symm.trans (places_map_groupAt spaces))

theorem Scope.Registers.tie {s : Scope} {m : Metamodel} {stem : String} {joins : List Nat}
    {elements : List (Option String)} (h : s.Registers m stem joins elements)
    (space position : Nat) (condition : Sql.Predicate) :
    Scope.Registers ⟨s.index, Step.tied space position condition s.spaces⟩ m stem joins elements := by
  have hs := Step.shape_tied space position condition s.spaces
  have hg := Step.groupAt?_tied space position condition s.spaces
  refine ⟨hs.trans h.shaped, ?_, ?_, ?_⟩
  · simpa only [places, hs] using h.named
  · simpa only [hg] using h.stands
  · simpa only [groupsOf_eq_of_groupAt hs hg] using h.bases

/-! ## Statements -/

namespace Step

variable {m : Metamodel} {pass pass' : Pass} {u : Unit} {stem : String} {joins : List Nat}
  {elements : List (Option String)}

theorem pendingConditions_register {pending : List PendingCondition}
    (h : pending.forM (pendingCondition m) pass = .ok u pass')
    (hr : pass.scope.Registers m stem joins elements) :
    pass'.scope.Registers m stem joins elements := by
  refine EStateM.forM_inv (fun _ pass => pass.scope.Registers m stem joins elements)
    (fun hi hp => ?_) hr h
  obtain ⟨condition, supply, group, -, -, rfl⟩ := pendingCondition_ok hp
  exact hi.tie _ _ condition

theorem fromClause_registers {f : FromClause} (hr : pass.Registers m stem [] [])
    (h : fromClause m f pass = .ok u pass') :
    pass'.scope.Registers m stem (f.spaces.map (·.joins.length))
      (f.spaces.flatMap (·.elements)) := by
  obtain ⟨-, v, p, hs, hp⟩ := fromClause_ok h
  exact pendingConditions_register hp (spaces_registers hr hs).scope

theorem fromElements_register {s : Statement} (hr : pass.Registers m stem [] [])
    (h : fromElements m s pass = .ok u pass') :
    pass'.scope.Registers m stem s.joins s.elements := by
  cases s with
  | select q => exact fromClause_registers hr h
  | update x => exact (root_registers hr h).scope
  | delete x => exact (root_registers hr h).scope

end Step

/-- Every lowered statement registers its from-elements. -/
theorem lowerWith_registers {settings : Settings} {m : Metamodel} {s : Statement} {l : Lowered}
    (h : lowerWith settings m s = .ok l) :
    l.scope.Registers m settings.aliasStem s.joins s.elements := by
  obtain ⟨-, u, p, s1, s2, hf, hscope, -, -⟩ := lowerWith_ok h
  rw [hscope]
  exact Step.fromElements_register (Pass.registers_start settings m) hf

/-! ## A library -/

/-- Authors with their books, which refer back to them, and books with tags in a table of their
own. -/
def library : Metamodel :=
  let id : BasicType := .standard .long
  let books : PluralAttribute :=
    ⟨.entity "Author", "books", "Author.books", .bag, ⟨.oneToMany, .entity "Book", []⟩, none,
      [⟨⟨1⟩, 1⟩], none⟩
  let tags : PluralAttribute :=
    ⟨.entity "Book", "tags", "Book.tags", .set,
      ⟨.basic, .basic (.standard .string), [⟨⟨2⟩, 1⟩]⟩, none, [⟨⟨2⟩, 0⟩], some ⟨2⟩⟩
  ⟨⟨[⟨.physical "author", [⟨.column "id", id.sqlCode⟩]⟩,
      ⟨.physical "book", [⟨.column "id", id.sqlCode⟩, ⟨.column "author_id", id.sqlCode⟩]⟩,
      ⟨.physical "book_tags", [⟨.column "book_id", id.sqlCode⟩, ⟨.column "tag", .varchar⟩]⟩],
    [("book_tags", ⟨2⟩), ("book", ⟨1⟩), ("author", ⟨0⟩)]⟩,
   [⟨"Author", none, ⟨0⟩, [], ⟨.entity "Author", "id", .basic, .basic id, [⟨⟨0⟩, 0⟩], 0, true⟩,
      [.plural books]⟩,
    ⟨"Book", none, ⟨1⟩, [], ⟨.entity "Book", "id", .basic, .basic id, [⟨⟨1⟩, 0⟩], 0, true⟩,
      [.plural tags]⟩],
   [], [("Author.books", books), ("Book.tags", tags)]⟩

/-- Authors with their tagged books, beside all books, where the author has books at all. -/
def shelves : Statement :=
  .select ⟨⟨[⟨⟨"Author", some "a"⟩, [⟨some "b", .left, .attributeOf "a" "books", false,
      some (.isEmpty ⟨"b", ["tags"]⟩ true)⟩]⟩, ⟨⟨"Book", none⟩, []⟩]⟩,
    none, some (.isEmpty ⟨"a", ["books"]⟩ true), none⟩

end EntityQuery
