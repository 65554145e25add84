import EntityQuery.Proofs.Registration

/-!
# The index and the from clause

The index of a lowered statement and its from clause say the same: there is one entry for each
from-element, the references of the entries lead to the groups of the from clause, each to one, and
an entry is known by the alias base of its group (`index_mirrors_fromClause`).
-/

set_option autoImplicit false

namespace EntityQuery

/-! ## Kinds of groups -/

/-- The kind of a group fits what its from-element ranges over: that entity, or that collection,
where a collection whose elements refer back to the owner has the kind of its elements. -/
def Metamodel.Fits (m : Metamodel) (kind : Sql.GroupKind) : GroupSource → Prop
  | .entity name => kind = .entity name
  | .collection role => ∃ type name p, m.find type name = .ok (.plural p) ∧ p.role = role ∧
      if p.element.kind = .oneToMany then ∃ e, p.elementEntity? = some e ∧ kind = .entity e
      else kind = .collection role

theorem Metamodel.Stands.fits {m : Metamodel} {g : Sql.TableGroup} :
    ∀ {source : GroupSource}, m.Stands g source → m.Fits g.kind source
  | .entity name, ⟨e, he, hg⟩ => by rw [(entityGroup_ok hg).2.1, entity_name he]; rfl
  | .collection role, ⟨type, name, p, hf, hr, hg⟩ => by
    refine ⟨type, name, p, hf, hr, ?_⟩
    obtain ⟨hk, e, he, hg⟩ | ⟨hk, link, e, -, -, hg⟩ | ⟨hk, table, root, -, -, hg⟩ :=
      collectionGroup_ok hg
    · rw [if_pos hk]
      exact ⟨e.name, (elementEntity_ok he).1, (entityGroup_ok hg).2.1⟩
    · rw [if_neg (by simp [hk]), (linkGroup_ok hg).2.1, hr]
    · rw [if_neg (by rcases hk with hk | hk <;> simp [hk]), hg, hr]

/-! ## Entries and groups -/

namespace Scope.Registers

variable {s : Scope} {m : Metamodel} {stem : String} {joins : List Nat}
  {elements : List (Option String)}

theorem size (h : s.Registers m stem joins elements) : s.index.size = elements.length := by
  rw [FromIndex.size, ← List.length_map, h.locators.length_eq, EntityQuery.length_places,
    h.length_groups]

/-- The references of the entries lead to the groups, each to one. -/
theorem groups_perm (h : s.Registers m stem joins elements) :
    (s.index.entries.map fun e => groupAt? s.spaces e.2.locator).Perm
      ((groupsOf s.spaces).map some) := by
  rw [← places_map_groupAt]
  simpa [Function.comp_def] using h.locators.map (groupAt? s.spaces)

theorem bases_nodup (h : s.Registers m stem joins elements) :
    ((groupsOf s.spaces).map (·.aliasBase)).Nodup := by
  rw [h.bases]
  exact List.Nodup.map (fun i k hik => AliasBases.base_inj hik) List.nodup_range'

theorem entry_bases_nodup (h : s.Registers m stem joins elements) :
    (s.index.entries.map (·.2.aliasBase)).Nodup := by
  have hbase : (s.index.entries.map fun e => some e.2.aliasBase) =
      s.index.entries.map fun e => (groupAt? s.spaces e.2.locator).map (·.aliasBase) := by
    refine List.map_congr_left fun e he => ?_
    obtain ⟨g, hg, hb, -⟩ := h.stands e he
    rw [hg, Option.map_some, hb]
  have hperm := h.groups_perm.map (Option.map (·.aliasBase))
  simp only [List.map_map, Function.comp_def, Option.map_some] at hperm
  rw [← hbase] at hperm
  have hn : ((groupsOf s.spaces).map fun g => some g.aliasBase).Nodup := by
    simpa [Function.comp_def] using h.bases_nodup.map (f := some) fun _ _ => Option.some.inj
  refine List.Nodup.of_map some ?_
  simpa [Function.comp_def] using hperm.nodup_iff.2 hn

/-- An entry is known by the alias base of its group. -/
theorem findByBase? (h : s.Registers m stem joins elements) {e : String × GroupRef}
    (he : e ∈ s.index.entries) : s.index.findByBase? e.2.aliasBase = some e :=
  List.find?_of_nodup (f := fun e : String × GroupRef => e.2.aliasBase) h.entry_bases_nodup he

end Scope.Registers

/-! ## Explicit aliases -/

theorem mem_zip_namesFrom {α : Type} {x : α} {name : String} :
    ∀ (generated : Nat) {xs : List α} {elements : List (Option String)},
      (x, some name) ∈ xs.zip elements → (x, name) ∈ xs.zip (namesFrom generated elements)
  | _, [], _, h => by simp at h
  | _, _ :: _, [], h => by simp at h
  | generated, y :: ys, e :: es, h => by
    simp only [List.zip_cons_cons, List.mem_cons, Prod.mk.injEq, namesFrom] at h ⊢
    rcases h with ⟨rfl, rfl⟩ | h
    · exact .inl ⟨rfl, rfl⟩
    · exact .inr (mem_zip_namesFrom _ h)

namespace Space

theorem length_elements (s : Space) (space : Nat) :
    (spacePlaces space s.joins.length).length = s.elements.length := by
  simp [spacePlaces, elements]

theorem calls_iff_mem (s : Space) (name : String) : s.calls name ↔ some name ∈ s.elements := by
  simp [calls, elements, @eq_comm _ (some name) s.root.aliasName]

/-- A space calls a from-element by a name when one of its places bears it. -/
theorem calls_iff (s : Space) (space : Nat) (name : String) :
    s.calls name ↔
      ∃ l, l.space = space ∧ (l, some name) ∈ (spacePlaces space s.joins.length).zip s.elements := by
  simp only [calls, Bool.or_eq_true, decide_eq_true_eq, List.any_eq_true, spacePlaces, elements,
    List.zip_cons_cons, List.mem_cons, Prod.mk.injEq]
  constructor
  · rintro (h | ⟨j, hj, hn⟩)
    · exact ⟨_, rfl, .inl ⟨rfl, h.symm⟩⟩
    · obtain ⟨i, hi, rfl⟩ := List.getElem_of_mem hj
      refine ⟨⟨space, .join i⟩, rfl, .inr (List.mem_iff_getElem.2 ⟨i, by simpa using hi, ?_⟩)⟩
      simp [hn]
  · rintro ⟨l, -, ⟨-, h⟩ | h⟩
    · exact .inl h.symm
    · exact .inr (by simpa using (List.of_mem_zip h).2)

theorem space_of_mem_zip {s : Space} {space : Nat} {l : GroupLocator} {element : Option String}
    (h : (l, element) ∈ (spacePlaces space s.joins.length).zip s.elements) : l.space = space := by
  have := (List.of_mem_zip h).1
  simp only [spacePlaces, List.mem_cons, List.mem_map] at this
  rcases this with rfl | ⟨i, -, rfl⟩ <;> rfl

end Space

/-- The space with a given number calls a from-element by a name when a place in it bears it. -/
theorem calls_at_iff {name : String} : ∀ (first : Nat) {spaces : List Space} {k : Nat},
    (∃ s, spaces[k]? = some s ∧ s.calls name) ↔
      ∃ l, l.space = first + k ∧ (l, some name) ∈
        (placesFrom first (spaces.map (·.joins.length))).zip (spaces.flatMap (·.elements))
  | _, [], _ => by simp [placesFrom]
  | first, s :: spaces, k => by
    simp only [List.map_cons, placesFrom, List.flatMap_cons,
      List.zip_append (s.length_elements first), List.mem_append]
    cases k with
    | zero =>
      rw [List.getElem?_cons_zero, Nat.add_zero]
      simp only [Option.some.injEq, exists_eq_left', s.calls_iff first name]
      constructor
      · rintro ⟨l, hl, hz⟩
        exact ⟨l, hl, .inl hz⟩
      · rintro ⟨l, hl, hz | hz⟩
        · exact ⟨l, hl, hz⟩
        · -- the places of the spaces after the first are further on
          have := le_space_of_mem_placesFrom (List.of_mem_zip hz).1
          omega
    | succ k =>
      rw [List.getElem?_cons_succ, calls_at_iff (first + 1)]
      constructor
      · rintro ⟨l, hl, hz⟩
        exact ⟨l, by omega, .inr hz⟩
      · rintro ⟨l, hl, hz | hz⟩
        · have := Space.space_of_mem_zip hz
          omega
        · exact ⟨l, by omega, hz⟩

/-- An explicit alias is in the index, at a place of the space that calls a from-element so. -/
theorem Scope.Registers.spaceOf? {s : Scope} {m : Metamodel} {stem : String} {f : FromClause}
    (h : s.Registers m stem (f.spaces.map (·.joins.length)) (f.spaces.flatMap (·.elements)))
    {name : String} (hn : some name ∈ f.spaces.flatMap (·.elements)) :
    ∃ ref, s.index.find? name = some ref ∧ f.spaceOf? name = some ref.locator.space := by
  have bears {l : GroupLocator} (hl : (l, some name) ∈
      (placesFrom 0 (f.spaces.map (·.joins.length))).zip (f.spaces.flatMap (·.elements))) :
      ∃ ref, s.index.find? name = some ref ∧ ref.locator = l := by
    have hmem := mem_zip_namesFrom 0 hl
    rw [← h.shaped] at hmem
    obtain ⟨e, he, heq⟩ := List.mem_map.1 (h.named.mem_iff.2 hmem)
    cases heq
    exact ⟨e.2, FromIndex.find?_of_mem he, rfl⟩
  obtain ⟨space, hspace, hname⟩ := List.mem_flatMap.1 hn
  have hsome : (f.spaceOf? name).isSome := by
    rw [FromClause.spaceOf?, List.findIdx?_isSome, List.any_eq_true]
    exact ⟨space, hspace, (space.calls_iff_mem name).2 hname⟩
  obtain ⟨k, hk⟩ := Option.isSome_iff_exists.1 hsome
  obtain ⟨hlt, hcalls, -⟩ := List.findIdx?_eq_some_iff_getElem.1 hk
  obtain ⟨l, hl, hz⟩ := (calls_at_iff 0).1 ⟨_, List.getElem?_eq_getElem hlt, hcalls⟩
  obtain ⟨ref, href, rfl⟩ := bears hz
  exact ⟨ref, href, by rw [hk, hl, Nat.zero_add]⟩

/-! ## Lowered statements -/

/-- The index of a lowered statement mirrors its from clause: there is one entry for each
from-element, at its place and under its name; the references lead to the groups, each to one, which
has the alias base of the entry and the kind of what it ranges over, and by which the entry is
found; and an explicit alias of a query leads into the space that calls a from-element so. -/
theorem index_mirrors_fromClause {settings : Settings} {m : Metamodel} {s : Statement} {l : Lowered}
    (h : lowerWith settings m s = .ok l) :
    l.index.size = s.elements.length ∧
    (l.index.entries.map fun e => (e.2.locator, e.1)).Perm
      ((placesFrom 0 s.joins).zip (namesFrom 0 s.elements)) ∧
    (l.index.entries.map fun e => l.statement.group? e.2).Perm
      (l.statement.fromClause.groups.map some) ∧
    (l.statement.fromClause.groups.map (·.aliasBase)).Nodup ∧
    (∀ e ∈ l.index.entries, ∃ g, l.statement.group? e.2 = some g ∧
      g.aliasBase = e.2.aliasBase ∧ m.Fits g.kind e.2.source ∧
      l.index.findByBase? e.2.aliasBase = some e) ∧
    ∀ q name, s = .select q → some name ∈ s.elements →
      ∃ ref, l.index.find? name = some ref ∧ q.fromClause.spaceOf? name = some ref.locator.space := by
  have hr := lowerWith_registers h
  refine ⟨hr.size, ?_, hr.groups_perm, hr.bases_nodup, fun e he => ?_, ?_⟩
  · rw [← hr.shaped]
    exact hr.named
  · obtain ⟨g, hg, hb, hs⟩ := hr.stands e he
    exact ⟨g, hg, hb, hs.fits, hr.findByBase? he⟩
  · rintro q name rfl hn
    exact hr.spaceOf? hn

theorem index_mirrors_library : ∃ l, lowerWith .default library shelves = .ok l ∧
    l.index.size = 3 ∧
    (l.index.entries.map fun e => (e.2.locator, e.1)).Perm
      [(⟨0, .root⟩, "a"), (⟨0, .join 0⟩, "b"), (⟨1, .root⟩, "<generated_1>")] ∧
    (l.index.entries.map fun e => l.statement.group? e.2).Perm
      (l.statement.fromClause.groups.map some) ∧
    ∃ ref, l.index.find? "b" = some ref ∧ l.index.findByBase? ref.aliasBase = some ("b", ref) := by
  obtain ⟨l, hl⟩ := Except.exists_ok_of_isSome
    (by decide +kernel : (lowerWith .default library shelves).toOption.isSome)
  obtain ⟨hsize, hnames, hgroups, -, hentries, hspaces⟩ := index_mirrors_fromClause hl
  obtain ⟨ref, hb, -⟩ := hspaces _ "b" rfl (by decide +kernel)
  obtain ⟨g, -, -, -, hfound⟩ := hentries _ (FromIndex.mem_of_find? hb)
  exact ⟨l, hl, hsize, hnames, hgroups, ref, hb, hfound⟩

end EntityQuery
