import EntityQuery.Proofs.Subqueries

/-!
# The numbering of alias bases

Alias bases are numbered through a whole statement: the from-elements come first, then the tests of
collections in the conditions of the joins and in the condition of the statement, in the order in
which they are written. All identification variables of a statement are pairwise distinct
(`alias_bases_numbered`).

The conditions of joins are lowered when all from-elements are registered (`Pass.Defers`), and each
goes to its own join (`Step.pendingConditions_answer`), so they stand in the order of the joins.
-/

set_option autoImplicit false

namespace EntityQuery

/-! ## Tests of statements -/

/-- The tests of collections in the conditions of the joins of a space. -/
def Space.tests (s : Space) : List CollectionTest := s.joins.flatMap (testsOf ·.condition)

theorem Space.tests_eq (s : Space) :
    s.tests = (s.joins.filterMap (·.condition)).flatMap (·.tests) := by
  rw [Space.tests]
  induction s.joins with
  | nil => rfl
  | cons j js ih =>
    rw [List.flatMap_cons, ih]
    cases hc : j.condition <;> simp [testsOf, hc]

namespace Statement

/-- The tests of collections in the conditions of the joins of a statement. -/
def joinTests : Statement → List CollectionTest
  | .select q => q.fromClause.spaces.flatMap (·.tests)
  | .update _ | .delete _ => []

/-- The tests of collections in a statement: those of its joins, then those of its condition. -/
def tests (s : Statement) : List CollectionTest := s.joinTests ++ testsOf s.condition

end Statement

/-! ## Conditions at their joins -/

/-- The subqueries in the condition of the join at a place. -/
def subqueriesAt (spaces : List Sql.TableSpace) (l : GroupLocator) : List Sql.Query :=
  (joinAt? spaces l).elim [] fun j => Sql.Predicate.subqueriesOf j.predicate

theorem mem_joins_of_joinAt {spaces : List Sql.TableSpace} {l : GroupLocator} {j : Sql.GroupJoin}
    (h : joinAt? spaces l = some j) : j ∈ spaces.flatMap (·.joins) := by
  simp only [joinAt?, Option.bind_eq_bind, Option.bind_eq_some_iff] at h
  obtain ⟨s, hs, hj⟩ := h
  split at hj
  · cases hj
  · exact List.mem_flatMap.2 ⟨s, List.mem_of_getElem? hs, List.mem_of_getElem? hj⟩

/-- The subqueries of a from clause whose groups hold none are those in the conditions of its
joins. -/
theorem subqueries_eq_flatMap_places {spaces : List Sql.TableSpace}
    (h : ∀ g ∈ groupsOf spaces, Sql.TableGroup.subqueries g = []) :
    Sql.FromClause.subqueries ⟨spaces⟩ = (places spaces).flatMap (subqueriesAt spaces) := by
  have hjoins : (places spaces).flatMap (subqueriesAt spaces) =
      (spaces.flatMap (·.joins)).flatMap fun j => Sql.Predicate.subqueriesOf j.predicate :=
    (flatMap_joins_eq _ spaces).symm
  rw [hjoins, Sql.FromClause.subqueries, List.flatMap_assoc]
  refine List.flatMap_congr fun s hs => ?_
  have hroot := h s.root (List.mem_flatMap.2 ⟨s, hs, List.mem_cons_self⟩)
  rw [Sql.TableSpace.subqueries, hroot, List.nil_append]
  refine List.flatMap_congr fun j hj => ?_
  have hgroup := h j.group
    (List.mem_flatMap.2 ⟨s, hs, List.mem_cons_of_mem _ (List.mem_map_of_mem hj)⟩)
  rw [Sql.GroupJoin.subqueries, hgroup, List.nil_append]

theorem Metamodel.Stands.plain {m : Metamodel} {g : Sql.TableGroup} :
    ∀ {source : GroupSource}, m.Stands g source → Sql.TableGroup.subqueries g = []
  | .entity _, ⟨_, _, hg⟩ => entityGroup_plain hg
  | .collection _, ⟨_, _, _, _, _, hg⟩ => collectionGroup_plain hg

theorem joinAt?_tied (space position : Nat) (condition : Sql.Predicate)
    (spaces : List Sql.TableSpace) (l : GroupLocator) :
    joinAt? (Step.tied space position condition spaces) l =
      if l = ⟨space, .join position⟩ then
        (joinAt? spaces l).map fun j =>
          { j with predicate := Sql.Predicate.conjunction (j.predicate.toList ++ [condition]) }
      else joinAt? spaces l := by
  obtain ⟨k, place⟩ := l
  simp only [joinAt?, Step.tied, List.getElem?_modify, GroupLocator.mk.injEq]
  cases hs : spaces[k]? with
  | none => simp
  | some s =>
    cases place with
    | root => by_cases hk : space = k <;> simp [hk]
    | join i =>
      by_cases hk : space = k
      · by_cases hi : position = i
        · simp [hk, hi]
        · simp [hk, hi, Ne.symm hi]
      · simp [hk, Ne.symm hk]

theorem subqueriesAt_tied {space position : Nat} {condition : Sql.Predicate}
    {spaces : List Sql.TableSpace} {g : Sql.TableGroup}
    (h : groupAt? spaces ⟨space, .join position⟩ = some g) (l : GroupLocator) :
    subqueriesAt (Step.tied space position condition spaces) l =
      subqueriesAt spaces l ++ if l = ⟨space, .join position⟩ then condition.subqueries else [] := by
  rw [subqueriesAt, joinAt?_tied]
  split
  · rename_i hl
    subst hl
    obtain ⟨j, hj⟩ : ∃ j, joinAt? spaces ⟨space, .join position⟩ = some j := by
      simp only [groupAt?, Option.bind_eq_bind, Option.bind_eq_some_iff, Option.map_eq_some_iff] at h
      obtain ⟨s, hs, j, hj, -⟩ := h
      exact ⟨j, by simp [joinAt?, hs, hj]⟩
    simp only [subqueriesAt, hj, Option.map_some, Option.elim_some,
      Sql.Predicate.subqueriesOf_conjunction]
    cases j.predicate <;> simp [Sql.Predicate.subqueriesOf]
  · simp [subqueriesAt]

/-! ## Conditions that are left for later -/

/-- The place of the join that a condition belongs to. -/
def PendingCondition.place (p : PendingCondition) : GroupLocator := ⟨p.space, .join p.position⟩

/-- The conditions of joins are left for later, in the order of the joins, and what ties the joins
so far holds no subqueries. -/
structure Pass.Defers (pass : Pass) (conditions : List Predicate) : Prop where
  plain : ∀ j ∈ pass.scope.spaces.flatMap (·.joins), Sql.Predicate.subqueriesOf j.predicate = []
  conditions : pass.pending.map (·.condition) = conditions
  ordered : (pass.pending.map (·.place)).Sublist (places pass.scope.spaces)

theorem Pass.defers_start (settings : Settings) : (Pass.start settings).Defers [] :=
  ⟨by simp [Pass.start], rfl, .slnil⟩

namespace Step

variable {m : Metamodel} {pass pass' : Pass} {u : Unit} {conditions : List Predicate}

theorem root_defers {r : Root} (hd : pass.Defers conditions) (h : root m r pass = .ok u pass') :
    pass'.Defers conditions := by
  obtain ⟨e, base, bases, g, index, -, -, -, -, rfl⟩ := root_ok h
  refine ⟨by simpa using hd.plain, hd.conditions, ?_⟩
  rw [places_open]
  exact hd.ordered.trans (List.sublist_append_left _ _)

theorem join_defers {j : Join} (hd : pass.Defers conditions) (h : join m j pass = .ok u pass') :
    pass'.Defers (conditions ++ j.condition.toList) := by
  obtain ⟨joinType, space, base, bases, joined, index, -, hl, -, hj, -, rfl⟩ := join_ok h
  obtain ⟨before, s, hspaces, rfl, hjoined⟩ :=
    joinedOnto_last ⟨joinType, joined.group, joined.predicate, j.fetch⟩ hl
  have hcount : joinCount pass.scope.spaces before.length = s.joins.length := by
    simp [joinCount, hspaces]
  have hplain := hd.plain
  have hordered := hd.ordered
  rw [hspaces] at hplain hordered
  rw [hjoined, hcount]
  refine ⟨fun k hk => ?_, ?_, ?_⟩
  · have hk : k ∈ (before ++ [s]).flatMap (·.joins) ∨
        k = ⟨joinType, joined.group, joined.predicate, j.fetch⟩ := by
      simpa [or_assoc] using hk
    rcases hk with hk | rfl
    · exact hplain k hk
    · exact (Scope.joinedGroup_plain hj).2
  · cases j.condition <;> simp [hd.conditions]
  · rw [places_join, List.map_append]
    refine hordered.append ?_
    cases j.condition <;> simp [PendingCondition.place]

theorem space_defers {s : Space} (hd : pass.Defers conditions) (h : space m s pass = .ok u pass') :
    pass'.Defers (conditions ++ s.joins.filterMap (·.condition)) := by
  obtain ⟨v, p, hroot, hjoins⟩ := space_ok h
  refine EStateM.forM_inv
    (fun done pass => Pass.Defers pass (conditions ++ done.filterMap (·.condition)))
    (fun {done j _ _ _} hi hj => ?_) (by simpa using root_defers hd hroot) hjoins
  have hj := join_defers hi hj
  cases hc : j.condition <;> simpa [hc] using hj

theorem spaces_defer {spaces : List Space} (hd : pass.Defers [])
    (h : spaces.forM (space m) pass = .ok u pass') :
    pass'.Defers (spaces.flatMap fun s => s.joins.filterMap (·.condition)) := by
  refine EStateM.forM_inv
    (fun done pass => Pass.Defers pass (done.flatMap fun s => s.joins.filterMap (·.condition)))
    (fun hi hs => ?_) hd h
  simpa using space_defers hi hs

end Step

/-- Conditions have been tied to their joins since `start`: other joins hold no subqueries yet, and
these hold the subqueries of their tests. -/
structure Pass.Ties (pass start : Pass) (m : Metamodel) (done : List PendingCondition) : Prop where
  index : pass.scope.index = start.scope.index
  shaped : shape pass.scope.spaces = shape start.scope.spaces
  groups : groupAt? pass.scope.spaces = groupAt? start.scope.spaces
  others : ∀ l ∉ done.map (·.place), subqueriesAt pass.scope.spaces l = []
  answered : start.scope.Answers m start.supply.aliasBases (done.flatMap (·.condition.tests))
    ((done.map (·.place)).flatMap (subqueriesAt pass.scope.spaces)) pass.supply.aliasBases

theorem Step.pendingCondition_ties {m : Metamodel} {start pass pass' : Pass} {u : Unit}
    {done : List PendingCondition} {p : PendingCondition} (ht : pass.Ties start m done)
    (hn : p.place ∉ done.map (·.place)) (h : pendingCondition m p pass = .ok u pass') :
    pass'.Ties start m (done ++ [p]) := by
  obtain ⟨condition, supply, group, hc, hg, rfl⟩ := pendingCondition_ok h
  have hat (l : GroupLocator) :
      subqueriesAt (tied p.space p.position condition pass.scope.spaces) l =
        subqueriesAt pass.scope.spaces l ++ if l = p.place then condition.subqueries else [] :=
    subqueriesAt_tied hg l
  have hdone : (done.map (·.place)).flatMap
      (subqueriesAt (tied p.space p.position condition pass.scope.spaces)) =
      (done.map (·.place)).flatMap (subqueriesAt pass.scope.spaces) := by
    refine List.flatMap_congr fun l hl => ?_
    have hne : l ≠ p.place := fun heq => hn (heq ▸ hl)
    rw [hat l, if_neg hne, List.append_nil]
  have hnew : subqueriesAt (tied p.space p.position condition pass.scope.spaces) p.place =
      condition.subqueries := by
    rw [hat, ht.others _ hn, if_pos rfl, List.nil_append]
  refine ⟨ht.index, (shape_tied ..).trans ht.shaped, (groupAt?_tied ..).trans ht.groups, ?_, ?_⟩
  · intro l hl
    simp only [List.map_append, List.map_cons, List.map_nil, List.mem_append, List.mem_singleton,
      not_or] at hl
    rw [hat l, ht.others l hl.1, if_neg hl.2]
    rfl
  · have hanswered := (Scope.predicate_answers hc).congr ht.index ht.groups
    simpa [hdone, hnew] using ht.answered.append hanswered

theorem Step.pendingConditions_tie {m : Metamodel} {start pass' : Pass} {u : Unit}
    {pending : List PendingCondition} (h : pending.forM (pendingCondition m) start = .ok u pass')
    (hn : (pending.map (·.place)).Nodup) (hp : ∀ l, subqueriesAt start.scope.spaces l = []) :
    pass'.Ties start m pending := by
  have hinitial : start.Ties start m [] := ⟨rfl, rfl, rfl, fun l _ => hp l, .nil _⟩
  refine EStateM.forM_inv (fun done pass => (done.map (·.place)).Nodup → Pass.Ties pass start m done)
    (fun {done p _ _ _} hi hp hn => ?_) (fun _ => hinitial) h hn
  rw [List.map_append, List.nodup_append] at hn
  refine pendingCondition_ties (hi hn.1) (fun hmem => ?_) hp
  exact hn.2.2 _ hmem p.place (by simp) rfl

theorem flatMap_eq_of_sublist {α β : Type} {f : α → List β} {xs ys : List α} (h : xs.Sublist ys)
    (hn : ys.Nodup) (hf : ∀ y ∈ ys, y ∉ xs → f y = []) : ys.flatMap f = xs.flatMap f := by
  induction h with
  | slnil => rfl
  | cons y hxs ih =>
    obtain ⟨hy, hn⟩ := List.nodup_cons.1 hn
    have hfy := hf y List.mem_cons_self fun hx => hy (hxs.subset hx)
    have hrest := ih hn fun z hz => hf z (List.mem_cons_of_mem y hz)
    rw [List.flatMap_cons, hfy, List.nil_append, hrest]
  | cons_cons y hxs ih =>
    obtain ⟨hy, hn⟩ := List.nodup_cons.1 hn
    have hrest := ih hn fun z hz hzx => hf z (List.mem_cons_of_mem y hz) fun hmem => by
      rcases List.mem_cons.1 hmem with rfl | hmem
      · exact hy hz
      · exact hzx hmem
    rw [List.flatMap_cons, List.flatMap_cons, hrest]

/-! ## Statements -/

namespace Step

variable {m : Metamodel} {settings : Settings} {pass : Pass} {u : Unit}

theorem root_answers {r : Root} (h : root m r (.start settings) = .ok u pass) :
    Sql.FromClause.subqueries ⟨pass.scope.spaces⟩ = [] := by
  obtain ⟨e, base, bases, g, index, -, -, hg, -, rfl⟩ := root_ok h
  simp [Pass.start, Sql.FromClause.subqueries, Sql.TableSpace.subqueries,
    Metamodel.entityGroup_plain hg]

theorem fromClause_answers {f : FromClause} (h : fromClause m f (.start settings) = .ok u pass) :
    ∃ bases, bases.stem = settings.aliasStem ∧
      bases.count = (f.spaces.flatMap (·.elements)).length ∧
      pass.scope.Answers m bases (f.spaces.flatMap (·.tests))
        (Sql.FromClause.subqueries ⟨pass.scope.spaces⟩) pass.supply.aliasBases := by
  have hstart := Pass.registers_start settings m
  have hregisters := fromClause_registers hstart h
  obtain ⟨-, v, p, hspaces, hpending⟩ := fromClause_ok h
  have hr := spaces_registers hstart hspaces
  have hd := spaces_defer (Pass.defers_start settings) hspaces
  have hnone (l : GroupLocator) : subqueriesAt p.scope.spaces l = [] := by
    cases hj : joinAt? p.scope.spaces l with
    | none => simp [subqueriesAt, hj]
    | some j => simpa [subqueriesAt, hj] using hd.plain j (mem_joins_of_joinAt hj)
  have ht := pendingConditions_tie hpending (hd.ordered.nodup (places_nodup _)) hnone
  have htests : p.pending.flatMap (·.condition.tests) = f.spaces.flatMap (·.tests) := by
    rw [← List.flatMap_map, hd.conditions, List.flatMap_assoc]
    exact List.flatMap_congr fun s _ => s.tests_eq.symm
  have hplaces : places pass.scope.spaces = places p.scope.spaces := by
    rw [places, ht.shaped, places]
  have hsubqueries : Sql.FromClause.subqueries ⟨pass.scope.spaces⟩ =
      (p.pending.map (·.place)).flatMap (subqueriesAt pass.scope.spaces) := by
    rw [subqueries_eq_flatMap_places, hplaces]
    · exact flatMap_eq_of_sublist hd.ordered (places_nodup _) fun l _ hl => ht.others l hl
    · intro g hg
      obtain ⟨source, hs⟩ := hregisters.group_stands hg
      exact hs.plain
  refine ⟨p.supply.aliasBases, hr.stem, hr.count, ?_⟩
  rw [← htests, hsubqueries]
  exact ht.answered.congr ht.index.symm ht.groups.symm

/-- The conditions of the joins of a statement hold the subqueries of their tests, which are
numbered behind the from-elements. -/
theorem fromElements_answer {s : Statement} (h : fromElements m s (.start settings) = .ok u pass) :
    ∃ bases, bases.stem = settings.aliasStem ∧ bases.count = s.elements.length ∧
      pass.scope.Answers m bases s.joinTests (Sql.FromClause.subqueries ⟨pass.scope.spaces⟩)
        pass.supply.aliasBases := by
  have hstart := Pass.registers_start settings m
  cases s with
  | select q => exact fromClause_answers h
  | update x =>
    have hr := root_registers hstart h
    exact ⟨_, hr.stem, hr.count, by rw [root_answers h]; exact .nil _⟩
  | delete x =>
    have hr := root_registers hstart h
    exact ⟨_, hr.stem, hr.count, by rw [root_answers h]; exact .nil _⟩

end Step

/-- The subqueries of a lowered statement are those of its tests, numbered behind its
from-elements. -/
theorem lowerWith_answers {settings : Settings} {m : Metamodel} {s : Statement} {l : Lowered}
    (h : lowerWith settings m s = .ok l) :
    ∃ bases bases', bases.stem = settings.aliasStem ∧ bases.count = s.elements.length ∧
      l.scope.Answers m bases s.tests (Sql.Statement.subqueries l.statement) bases' := by
  obtain ⟨-, u, p, s1, s2, hf, hscope, hv, hc⟩ := lowerWith_ok h
  obtain ⟨bases, hstem, hcount, hjoins⟩ := Step.fromElements_answer hf
  have hcondition := Scope.condition_answers hc
  rw [Scope.values_keep hv] at hcondition
  refine ⟨bases, s2.aliasBases, hstem, hcount, ?_⟩
  rw [← hscope] at hjoins hcondition
  exact hjoins.append hcondition

/-! ## Identification variables -/

/-- The identification variables of the tables of groups, in order. -/
def variablesOf (groups : List Sql.TableGroup) : List String :=
  (groups.flatMap (·.tables)).map (·.variableName)

theorem mem_variablesOf {m : Metamodel} {stem : String} {groups : List Sql.TableGroup}
    {numbers : List Nat} {name : String}
    (h : List.Forall₂ (m.Numbered stem) groups numbers)
    (hn : name ∈ variablesOf groups) :
    ∃ n ∈ numbers, ∃ i, name = variableAt (AliasBases.base stem n) i := by
  induction h with
  | nil => simp [variablesOf] at hn
  | @cons g n gs ns hg _ ih =>
    simp only [variablesOf, List.flatMap_cons, List.map_append, List.mem_append] at hn
    rcases hn with hn | hn
    · obtain ⟨ids, hc⟩ := hg
      rw [hc.named, List.mem_map] at hn
      obtain ⟨i, -, rfl⟩ := hn
      exact ⟨n, List.mem_cons_self, i, rfl⟩
    · obtain ⟨k, hk, hi⟩ := ih hn
      exact ⟨k, List.mem_cons_of_mem n hk, hi⟩

/-- Groups with distinct alias bases have distinct identification variables. -/
theorem variablesOf_nodup {m : Metamodel} {stem : String} {groups : List Sql.TableGroup}
    {numbers : List Nat}
    (h : List.Forall₂ (m.Numbered stem) groups numbers)
    (hn : numbers.Nodup) : (variablesOf groups).Nodup := by
  induction h with
  | nil => exact List.nodup_nil
  | @cons g n gs ns hg hgs ih =>
    obtain ⟨hnot, hn⟩ := List.nodup_cons.1 hn
    obtain ⟨ids, hc⟩ := hg
    simp only [variablesOf, List.flatMap_cons, List.map_append]
    rw [hc.named]
    refine List.nodup_append.2 ⟨?_, ih hn, ?_⟩
    · exact List.Nodup.map (fun i k hik => (variableAt_inj hik).2) List.nodup_range
    · rintro name hname _ hrest rfl
      obtain ⟨i, -, rfl⟩ := List.mem_map.1 hname
      obtain ⟨k, hk, j, heq⟩ := mem_variablesOf hgs hrest
      exact hnot ((variableAt_inj heq).1 ▸ hk)

theorem bases_of_numbered {m : Metamodel} {stem : String} {groups : List Sql.TableGroup}
    {numbers : List Nat} (h : List.Forall₂ (m.Numbered stem) groups numbers) :
    groups.map (·.aliasBase) = numbers.map (AliasBases.base stem) := by
  induction h with
  | nil => rfl
  | cons hg _ ih =>
    obtain ⟨ids, hc⟩ := hg
    rw [List.map_cons, List.map_cons, hc.aliasBase, ih]

theorem Scope.Registers.numbered {s : Scope} {m : Metamodel} {stem : String} {joins : List Nat}
    {elements : List (Option String)} (h : s.Registers m stem joins elements) :
    List.Forall₂ (m.Numbered stem) (groupsOf s.spaces) (List.range' 1 elements.length) := by
  have hbases : List.Forall₂ (fun (g : Sql.TableGroup) n => g.aliasBase = AliasBases.base stem n)
      (groupsOf s.spaces) (List.range' 1 elements.length) := by
    have hb := h.bases
    rwa [← List.forall₂_eq_eq_eq, List.forall₂_map_left_iff, List.forall₂_map_right_iff] at hb
  have hcovers : ∀ g ∈ groupsOf s.spaces, ∃ ids, m.Covers g.aliasBase ids g := by
    intro g hg
    obtain ⟨source, hs⟩ := h.group_stands hg
    exact hs.covers
  refine ((List.forall₂_and_left _ _).2 ⟨hcovers, hbases⟩).imp fun g n ⟨⟨ids, hc⟩, hb⟩ => ?_
  exact ⟨ids, hb ▸ hc⟩

/-- The alias bases of a lowered statement are numbered from one: those of its from-elements in
order, then those of the subqueries of its tests in order. Each subquery has one group and no
subqueries of its own, and all identification variables are distinct. -/
theorem alias_bases_numbered {settings : Settings} {m : Metamodel} {s : Statement} {l : Lowered}
    (h : lowerWith settings m s = .ok l) :
    l.statement.fromClause.groups.map (·.aliasBase) =
      (List.range' 1 s.elements.length).map (AliasBases.base settings.aliasStem) ∧
    (Sql.Statement.subqueries l.statement).map (·.fromClause.groups.map (·.aliasBase)) =
      (List.range' (s.elements.length + 1) s.tests.length).map
        (fun n => [AliasBases.base settings.aliasStem n]) ∧
    (∀ k test, s.tests[k]? = some test → ∃ q, (Sql.Statement.subqueries l.statement)[k]? = some q ∧
      l.scope.Opens m test
        (AliasBases.base settings.aliasStem (s.elements.length + k + 1)) q) ∧
    (∀ q ∈ Sql.Statement.subqueries l.statement, Sql.Query.subqueries q = []) ∧
    (variablesOf (l.statement.fromClause.groups ++
      (Sql.Statement.subqueries l.statement).flatMap (·.fromClause.groups))).Nodup := by
  have hr := lowerWith_registers h
  obtain ⟨bases, bases', hstem, hcount, ha⟩ := lowerWith_answers h
  obtain ⟨gs, hgs, hnumbered⟩ := ha.groups
  rw [hstem, hcount] at hnumbered
  refine ⟨hr.bases, ?_, fun k test ht => ?_, ha.plain, ?_⟩
  · have hmap := congrArg (List.map (List.map (·.aliasBase))) hgs
    have hbases := congrArg (List.map ([·])) (bases_of_numbered hnumbered)
    simp only [List.map_map, Function.comp_def, List.map_cons, List.map_nil] at hmap hbases
    rw [hmap, hbases]
  · have hopens := ha.opens ht
    rwa [hstem, hcount] at hopens
  · have hflat : (Sql.Statement.subqueries l.statement).flatMap (·.fromClause.groups) = gs := by
      rw [List.flatMap_def, hgs, ← List.flatMap_def, List.flatMap_singleton']
    have hnodup : (List.range' 1 s.elements.length ++
        List.range' (s.elements.length + 1) s.tests.length).Nodup := by
      rw [Nat.add_comm s.elements.length 1, List.range'_append_1]
      exact List.nodup_range'
    rw [hflat]
    exact variablesOf_nodup (List.rel_append hr.numbered hnumbered) hnodup

theorem alias_bases_numbered_in_library : ∃ l, lowerWith ⟨"p", true⟩ library shelves = .ok l ∧
    l.statement.fromClause.groups.map (·.aliasBase) = ["p1", "p2", "p3"] ∧
    (Sql.Statement.subqueries l.statement).map (·.fromClause.groups.map (·.aliasBase)) =
      [["p4"], ["p5"]] ∧
    (variablesOf (l.statement.fromClause.groups ++
      (Sql.Statement.subqueries l.statement).flatMap (·.fromClause.groups))).Nodup := by
  obtain ⟨l, hl⟩ := Except.exists_ok_of_isSome
    (by decide +kernel : (lowerWith ⟨"p", true⟩ library shelves).toOption.isSome)
  obtain ⟨hgroups, hsubqueries, -, -, hvariables⟩ := alias_bases_numbered hl
  refine ⟨l, hl, hgroups.trans (by decide +kernel), hsubqueries.trans (by decide +kernel), ?_⟩
  exact hvariables

end EntityQuery
