import EntityQuery.Proofs.AliasNumbering

/-!
# From-elements, one after the other

What each from-element of a statement has added to the from clause. A from-element is entered into a
scope that knows the from-elements before it only (`Scope.Enters`), and that scope stays a part of
every later one (`Scope.Grows`). So the group of a from-element and what ties it to the groups
before it stand in the lowered statement as they were made when its turn came, and the condition of
its join comes behind them (`Scope.HasElement`).

`lowerWith_elements` says so of all from-elements of a lowered statement.
-/

set_option autoImplicit false

namespace EntityQuery

theorem FromIndex.resolve_ok {index : FromIndex} {name : String} {ref : GroupRef} :
    index.resolve name = .ok ref ↔ index.find? name = some ref := by
  unfold FromIndex.resolve
  cases index.find? name <;> simp

/-! ## Scopes that grow -/

namespace Scope

/-- A scope has the from-elements of another one, at the same places, and perhaps more. -/
structure Grows (s t : Scope) : Prop where
  index : ∀ {name ref}, s.index.find? name = some ref → t.index.find? name = some ref
  group : ∀ {l g}, groupAt? s.spaces l = some g → groupAt? t.spaces l = some g

variable {s t u : Scope} {m : Metamodel}

theorem Grows.refl (s : Scope) : s.Grows s := ⟨id, id⟩

theorem Grows.trans (h : s.Grows t) (h' : t.Grows u) : s.Grows u :=
  ⟨fun hn => h'.index (h.index hn), fun hg => h'.group (h.group hg)⟩

theorem group_ok {ref : GroupRef} {g : Sql.TableGroup} :
    s.group ref = .ok g ↔ groupAt? s.spaces ref.locator = some g := by
  unfold group
  cases groupAt? s.spaces ref.locator <;> simp

theorem Grows.start (h : s.Grows t) {ref : GroupRef} {path : String} {r : ManagedType × Nat}
    (hs : s.start m ref path = .ok r) : t.start m ref path = .ok r := by
  unfold Scope.start at hs ⊢
  split at hs
  · exact hs
  · obtain ⟨p, hp, hs⟩ := Except.bind_eq_ok.1 hs
    refine Except.bind_eq_ok.2 ⟨p, hp, ?_⟩
    split at hs
    · obtain ⟨g, hg, hs⟩ := Except.bind_eq_ok.1 hs
      exact Except.bind_eq_ok.2 ⟨g, group_ok.2 (h.group (group_ok.1 hg)), hs⟩
    all_goals exact hs

/-- What a path reaches, it reaches in every scope with more from-elements. -/
theorem Grows.resolve (h : s.Grows t) {path : AttributePath} {r : ResolvedPath}
    (hr : s.resolve m path = .ok r) : t.resolve m path = .ok r := by
  simp only [Scope.resolve, Except.bind_eq_ok] at hr ⊢
  obtain ⟨ref, href, start, hs, hrest⟩ := hr
  exact ⟨ref, FromIndex.resolve_ok.2 (h.index (FromIndex.resolve_ok.1 href)), start, h.start hs, hrest⟩

/-! ## Scopes with the same groups

Clauses depend on the index and on the groups only. -/

theorem group_congr (hg : groupAt? s.spaces = groupAt? t.spaces) : s.group = t.group := by
  funext ref
  simp only [group, hg]

theorem path_congr (hi : s.index = t.index) (hg : groupAt? s.spaces = groupAt? t.spaces) :
    s.path m = t.path m := by
  funext path
  simp only [Scope.path, resolve, start, pathValue, hi, group_congr hg]

theorem elementValue_congr (hg : groupAt? s.spaces = groupAt? t.spaces) :
    s.elementValue m = t.elementValue m := by
  funext ref
  simp only [elementValue, group_congr hg]

mutual
theorem expression_congr (hi : s.index = t.index) (hg : groupAt? s.spaces = groupAt? t.spaces) :
    ∀ e : Expression, s.expression m e = t.expression m e
  | .parameter .. | .entityType _ | .literal _ | .enumConstant .. | .fieldConstant .. => rfl
  | .unary _ operand => by
    simp only [expression_eq (.unary ..), expressionOfParts, expression_congr hi hg operand]
  | .path p => by simp only [expression_eq, expressionOfParts, path_congr hi hg]
  | .element name => by simp only [expression_eq, expressionOfParts, hi, elementValue_congr hg]
  | .function _ arguments _ => by
    simp only [expression_eq, expressionOfParts, expressions_congr hi hg arguments]
  | .concatenation lhs rhs _ => by
    simp only [expression_eq (.concatenation ..), expressionOfParts, expression_congr hi hg lhs,
      expression_congr hi hg rhs]
  | .arithmetic lhs _ rhs _ => by
    simp only [expression_eq (.arithmetic ..), expressionOfParts, expression_congr hi hg lhs,
      expression_congr hi hg rhs]
theorem expressions_congr (hi : s.index = t.index) (hg : groupAt? s.spaces = groupAt? t.spaces) :
    ∀ es : List Expression, s.expressions m es = t.expressions m es
  | [] => rfl
  | e :: es => by
    simp only [expressions_cons, expression_congr hi hg e, expressions_congr hi hg es]
end

theorem predicate_congr (hi : s.index = t.index) (hg : groupAt? s.spaces = groupAt? t.spaces) :
    ∀ p : Predicate, s.predicate m p = t.predicate m p
  | .grouped p => by
    simp only [predicate_eq (.grouped p), predicateOfParts, predicate_congr hi hg p]
  | .and l r => by
    simp only [predicate_eq (.and l r), predicateOfParts, predicate_congr hi hg l,
      predicate_congr hi hg r]
  | .or l r => by
    simp only [predicate_eq (.or l r), predicateOfParts, predicate_congr hi hg l,
      predicate_congr hi hg r]
  | .negated p => by
    simp only [predicate_eq (.negated p), predicateOfParts, predicate_congr hi hg p]
  | .relational .. | .isNull .. | .between .. | .like .. => by
    simp only [predicate_eq, predicateOfParts, expression_congr hi hg]
  | .isEmpty collection _ => by
    simp only [predicate_eq, predicateOfParts, subquery, owned_congr hi hg collection]
  | .memberOf _ collection _ => by
    simp only [predicate_eq, predicateOfParts, subquery, expression_congr hi hg,
      owned_congr hi hg collection]

end Scope

/-! ## Ties

What ties a group to the groups before it is the predicate of its join. -/

/-- The predicate of the join at a place; the root of a space has none. -/
def tieAt? (spaces : List Sql.TableSpace) (l : GroupLocator) : Option Sql.Predicate :=
  (joinAt? spaces l).bind (·.predicate)

theorem tieAt?_open (spaces : List Sql.TableSpace) (g : Sql.TableGroup) (l : GroupLocator) :
    tieAt? (spaces ++ [⟨g, []⟩]) l = tieAt? spaces l := by
  obtain ⟨k, position⟩ := l
  unfold tieAt? joinAt?
  simp only [List.getElem?_append]
  split
  · rfl
  · rename_i hk
    rw [List.getElem?_eq_none (l := spaces) (Nat.le_of_not_lt hk)]
    cases k - spaces.length <;> cases position <;> simp

theorem tieAt?_join (before : List Sql.TableSpace) (s : Sql.TableSpace) (j : Sql.GroupJoin)
    (l : GroupLocator) :
    tieAt? (before ++ [{ s with joins := s.joins ++ [j] }]) l =
      if l = ⟨before.length, .join s.joins.length⟩ then j.predicate
      else tieAt? (before ++ [s]) l := by
  obtain ⟨k, position⟩ := l
  unfold tieAt? joinAt?
  simp only [List.getElem?_append, GroupLocator.mk.injEq]
  by_cases hk : k < before.length
  · simp [hk, Nat.ne_of_lt hk]
  · obtain ⟨d, rfl⟩ := Nat.exists_eq_add_of_le (Nat.le_of_not_lt hk)
    cases d with
    | succ d => simp
    | zero =>
      cases position with
      | root => simp
      | join i =>
        rcases Nat.lt_trichotomy i s.joins.length with hi | rfl | hi
        · simp [List.getElem?_append_left hi, Nat.ne_of_lt hi]
        · simp
        · have hnone : (s.joins ++ [j])[i]? = none := List.getElem?_eq_none (by simp; omega)
          simp [Nat.ne_of_gt hi, hnone, List.getElem?_eq_none (Nat.le_of_lt hi)]

theorem groupAt?_open {spaces : List Sql.TableSpace} {l : GroupLocator} {g : Sql.TableGroup}
    (h : groupAt? spaces l = some g) (s : Sql.TableSpace) :
    groupAt? (spaces ++ [s]) l = some g := by
  simp only [groupAt?, Option.bind_eq_bind, Option.bind_eq_some_iff] at h ⊢
  obtain ⟨space, hs, hg⟩ := h
  refine ⟨space, ?_, hg⟩
  rw [List.getElem?_append_left (List.getElem?_eq_some_iff.1 hs).1, hs]

theorem groupAt?_join {before : List Sql.TableSpace} {s : Sql.TableSpace} {l : GroupLocator}
    {g : Sql.TableGroup} (h : groupAt? (before ++ [s]) l = some g) (j : Sql.GroupJoin) :
    groupAt? (before ++ [{ s with joins := s.joins ++ [j] }]) l = some g := by
  obtain ⟨k, position⟩ := l
  by_cases hk : k < before.length
  · simpa only [groupAt?, List.getElem?_append_left hk] using h
  · obtain ⟨d, rfl⟩ := Nat.exists_eq_add_of_le (Nat.le_of_not_lt hk)
    cases d with
    | succ d => simp [groupAt?] at h
    | zero =>
      rw [Nat.add_zero, groupAt?_append] at h ⊢
      cases position with
      | root => exact h
      | join i =>
        obtain ⟨j', hj, hg⟩ := Option.map_eq_some_iff.1 h
        refine Option.map_eq_some_iff.2 ⟨j', ?_, hg⟩
        rw [List.getElem?_append_left (List.getElem?_eq_some_iff.1 hj).1, hj]

/-! ## What a from-element adds -/

/-- A from-element, by what it ranges over and the condition of its join. A root ranges over an
entity, like an entity that is joined, and has no condition. -/
structure FromElement where
  source : JoinSource
  condition : Option Predicate

/-- The from-elements of a space: the root, then the joins. -/
def Space.fromElements (s : Space) : List FromElement :=
  ⟨.entity s.root.entity, none⟩ :: s.joins.map fun j => ⟨j.source, j.condition⟩

/-- The from-elements of a statement: those of a query from left to right, or the one target of an
update or deletion. -/
def Statement.fromElements : Statement → List FromElement
  | .select q => q.fromClause.spaces.flatMap (·.fromElements)
  | .update u => [⟨.entity u.target.entity, none⟩]
  | .delete d => [⟨.entity d.target.entity, none⟩]

namespace Scope

/-- A from-element has been entered at a place of `t`, behind those of `s`, with the group that was
built for it from `s`. -/
structure Enters (s : Scope) (m : Metamodel) (t : Scope) (source : JoinSource) (l : GroupLocator)
    (joined : JoinedGroup) : Prop where
  grows : s.Grows t
  built : s.joinedGroup m source joined.group.aliasBase = .ok joined
  places : EntityQuery.places s.spaces ++ [l] <+: EntityQuery.places t.spaces
  groups : groupsOf s.spaces ++ [joined.group] <+: groupsOf t.spaces

variable {s t : Scope} {m : Metamodel} {source : JoinSource} {l : GroupLocator}
  {joined : JoinedGroup}

theorem Enters.mono (h : s.Enters m t source l joined) {t' : Scope} (hg : t.Grows t')
    (hp : EntityQuery.places t.spaces <+: EntityQuery.places t'.spaces)
    (hs : groupsOf t.spaces <+: groupsOf t'.spaces) : s.Enters m t' source l joined :=
  ⟨h.grows.trans hg, h.built, h.places.trans hp, h.groups.trans hs⟩

/-- The place of a from-element among all places is that of its group among all groups. -/
theorem Enters.position (h : s.Enters m t source l joined) {k : Nat}
    (hk : (EntityQuery.places t.spaces)[k]? = some l) :
    (groupsOf t.spaces)[k]? = some joined.group ∧ groupsOf s.spaces = (groupsOf t.spaces).take k := by
  obtain ⟨rest, hrest⟩ := h.places
  obtain ⟨more, hmore⟩ := h.groups
  have hl : (EntityQuery.places t.spaces)[(EntityQuery.places s.spaces).length]? = some l := by
    simp [← hrest]
  obtain ⟨hlt, hkl⟩ := List.getElem?_eq_some_iff.1 hk
  obtain ⟨hlt', hl'⟩ := List.getElem?_eq_some_iff.1 hl
  have : k = (groupsOf s.spaces).length := by
    rw [← length_places]
    exact (places_nodup t.spaces).getElem_inj_iff.1 (hkl.trans hl'.symm)
  subst this
  simp [← hmore]

theorem Enters.mem_places (h : s.Enters m t source l joined) : l ∈ EntityQuery.places t.spaces :=
  h.places.subset (by simp)

theorem Enters.groupAt (h : s.Enters m t source l joined) :
    groupAt? t.spaces l = some joined.group := by
  obtain ⟨rest, hrest⟩ := h.places
  have hk : (EntityQuery.places t.spaces)[(EntityQuery.places s.spaces).length]? = some l := by
    simp [← hrest]
  rw [groupAt?_of_place hk, (h.position hk).1]

/-- A from-element of a statement stands at a place: its group and what ties it are as they were
built, with its condition behind. -/
def HasElement (t : Scope) (m : Metamodel) (e : FromElement) (l : GroupLocator) : Prop :=
  ∃ (s : Scope) (joined : JoinedGroup) (condition : Option Sql.Predicate) (supply supply' : Supply),
    s.Enters m t e.source l joined ∧
    t.condition m e.condition supply = .ok condition supply' ∧
    tieAt? t.spaces l = Sql.Predicate.conjunction (joined.predicate.toList ++ condition.toList)

end Scope

/-! ## Registration -/

/-- A from-element has been registered at a place, and its condition is left for later. -/
def Pass.Awaits (pass : Pass) (m : Metamodel) (e : FromElement) (l : GroupLocator) : Prop :=
  ∃ (s : Scope) (joined : JoinedGroup), s.Enters m pass.scope e.source l joined ∧
    tieAt? pass.scope.spaces l = joined.predicate ∧
    (pass.pending.filter (·.place = l)).map (·.condition) = e.condition.toList

/-- From-elements have been registered at the places of the spaces, in order. -/
structure Pass.Collects (pass : Pass) (m : Metamodel) (elements : List FromElement) : Prop where
  elements : List.Forall₂ (pass.Awaits m) elements (places pass.scope.spaces)
  pending : ∀ p ∈ pass.pending, p.place ∈ places pass.scope.spaces

theorem Pass.collects_start (settings : Settings) (m : Metamodel) :
    (Pass.start settings).Collects m [] :=
  ⟨.nil, by simp [Pass.start]⟩

/-- One more from-element: its group and its tie come at a new place, and the others stay. -/
theorem Pass.Collects.enter {pass : Pass} {m : Metamodel} {elements : List FromElement}
    (h : pass.Collects m elements) {e : FromElement} {l : GroupLocator} {joined : JoinedGroup}
    {name : String} {ref : GroupRef} {supply : Supply} {index : FromIndex}
    {spaces : List Sql.TableSpace} {generated : Nat} {pending : List PendingCondition}
    (hi : pass.scope.index.add name ref = .ok index)
    (hj : pass.scope.joinedGroup m e.source joined.group.aliasBase = .ok joined)
    (hp : places spaces = places pass.scope.spaces ++ [l])
    (hg : groupsOf spaces = groupsOf pass.scope.spaces ++ [joined.group])
    (hkeep : ∀ {k g}, groupAt? pass.scope.spaces k = some g → groupAt? spaces k = some g)
    (hties : ∀ k, k ≠ l → tieAt? spaces k = tieAt? pass.scope.spaces k)
    (htie : tieAt? spaces l = joined.predicate)
    (hplace : ∀ p ∈ pending, p.place = l)
    (hcondition : pending.map (·.condition) = e.condition.toList) :
    Pass.Collects ⟨supply, ⟨index, spaces⟩, generated, pass.pending ++ pending⟩ m
      (elements ++ [e]) := by
  obtain ⟨hn, hperm⟩ := FromIndex.add_ok hi
  have hgrows : pass.scope.Grows ⟨index, spaces⟩ := by
    refine ⟨fun hf => ?_, hkeep⟩
    exact FromIndex.find?_of_mem
      (hperm.mem_iff.2 (List.mem_cons_of_mem _ (FromIndex.mem_of_find? hf)))
  have hfresh : l ∉ places pass.scope.spaces := by
    have hnodup := places_nodup spaces
    rw [hp, List.nodup_append] at hnodup
    exact fun hl => hnodup.2.2 l hl l (by simp) rfl
  have hpre : places pass.scope.spaces <+: places spaces := ⟨[l], hp.symm⟩
  have hgpre : groupsOf pass.scope.spaces <+: groupsOf spaces := ⟨[joined.group], hg.symm⟩
  constructor
  · show List.Forall₂ _ (elements ++ [e]) (places spaces)
    rw [hp]
    refine List.rel_append ?_ (.cons ?_ .nil)
    · refine h.elements.imp ?_
      rintro e' k ⟨s, joined', he, ht, hc⟩
      have hne : k ≠ l := fun heq => hfresh (heq ▸ he.mem_places)
      refine ⟨s, joined', he.mono hgrows hpre hgpre, (hties k hne).trans ht, ?_⟩
      have hnone : pending.filter (·.place = k) = [] := by
        rw [List.filter_eq_nil_iff]
        intro p hpm hpk
        exact hne ((of_decide_eq_true hpk).symm.trans (hplace p hpm))
      rw [List.filter_append, hnone, List.append_nil, hc]
    · refine ⟨pass.scope, joined, ⟨hgrows, hj, ?_, ?_⟩, htie, ?_⟩
      · exact ⟨[], by simp [hp]⟩
      · exact ⟨[], by simp [hg]⟩
      · have hnone : pass.pending.filter (·.place = l) = [] := by
          rw [List.filter_eq_nil_iff]
          intro p hpm hpl
          exact hfresh (of_decide_eq_true hpl ▸ h.pending p hpm)
        have hall : pending.filter (·.place = l) = pending := by
          rw [List.filter_eq_self]
          exact fun p hpm => decide_eq_true (hplace p hpm)
        rw [List.filter_append, hnone, hall, List.nil_append, hcondition]
  · intro p hpm
    show p.place ∈ places spaces
    rw [hp]
    rcases List.mem_append.1 hpm with hpm | hpm
    · exact List.mem_append_left _ (h.pending p hpm)
    · simp [hplace p hpm]

namespace Step

variable {m : Metamodel} {pass pass' : Pass} {u : Unit} {elements : List FromElement}

theorem root_collects {r : Root} (hc : pass.Collects m elements) (h : root m r pass = .ok u pass') :
    pass'.Collects m (elements ++ [⟨.entity r.entity, none⟩]) := by
  obtain ⟨e, base, bases, g, index, he, -, hg, hi, rfl⟩ := root_ok h
  have hb := (Metamodel.entityGroup_ok hg).1.aliasBase
  obtain ⟨joined, rfl, hnone, hj⟩ : ∃ joined : JoinedGroup, joined.group = g ∧
      joined.predicate = none ∧
      pass.scope.joinedGroup m (.entity r.entity) joined.group.aliasBase = .ok joined := by
    refine ⟨⟨g, .entity e.name, none⟩, rfl, rfl, ?_⟩
    rw [hb]
    exact Except.bind_eq_ok.2 ⟨e, lookedUp_of he, Except.bind_eq_ok.2 ⟨g, lookedUp_of hg, rfl⟩⟩
  rw [← List.append_nil pass.pending]
  refine hc.enter (e := ⟨.entity r.entity, none⟩) hi hj (places_open _ _) (groupsOf_open _ _)
    (fun hk => groupAt?_open hk _) (fun k _ => tieAt?_open _ _ k) ?_ (by simp) rfl
  -- the place of the new root is that of no join
  rw [tieAt?_open, hnone]
  simp [tieAt?, joinAt?]

theorem join_collects {j : Join} (hc : pass.Collects m elements) (h : join m j pass = .ok u pass') :
    pass'.Collects m (elements ++ [⟨j.source, j.condition⟩]) := by
  obtain ⟨joinType, space, base, bases, joined, index, -, hl, -, hj, hi, rfl⟩ := join_ok h
  rw [← (Scope.joinedGroup_stands hj).1] at hj
  obtain ⟨before, s, hspaces, rfl, hjoined⟩ :=
    joinedOnto_last ⟨joinType, joined.group, joined.predicate, j.fetch⟩ hl
  have hcount : joinCount pass.scope.spaces before.length = s.joins.length := by
    simp [joinCount, hspaces]
  rw [hjoined, hcount]
  rw [hcount] at hi
  refine hc.enter (e := ⟨j.source, j.condition⟩) (l := ⟨before.length, .join s.joins.length⟩) hi hj
    ?_ ?_ ?_ ?_ ?_ ?_ ?_
  · rw [hspaces]
    exact places_join before s _
  · rw [hspaces]
    exact groupsOf_join before s _
  · rw [hspaces]
    exact fun hk => groupAt?_join hk _
  · intro k hk
    rw [tieAt?_join, if_neg hk, hspaces]
  · rw [tieAt?_join, if_pos rfl]
  · cases j.condition <;> simp [PendingCondition.place]
  · cases j.condition <;> rfl

theorem space_collects {s : Space} (hc : pass.Collects m elements)
    (h : space m s pass = .ok u pass') : pass'.Collects m (elements ++ s.fromElements) := by
  obtain ⟨v, p, hroot, hjoins⟩ := space_ok h
  have hloop := EStateM.forM_inv
    (fun done pass => Pass.Collects pass m (elements ++ ⟨.entity s.root.entity, none⟩ ::
      done.map fun j => ⟨j.source, j.condition⟩))
    (fun hi hj => by simpa using join_collects hi hj) (by simpa using root_collects hc hroot) hjoins
  simpa [Space.fromElements] using hloop

theorem spaces_collect {spaces : List Space} (hc : pass.Collects m [])
    (h : spaces.forM (space m) pass = .ok u pass') :
    pass'.Collects m (spaces.flatMap (·.fromElements)) := by
  refine EStateM.forM_inv (fun done pass => Pass.Collects pass m (done.flatMap (·.fromElements)))
    (fun hi hs => ?_) hc h
  simpa using space_collects hi hs

end Step

/-! ## Conditions of joins -/

/-- Conditions have been tied to their joins since `start`, each to its own. -/
structure Pass.Conditions (pass start : Pass) (m : Metamodel) (done : List PendingCondition) :
    Prop where
  index : pass.scope.index = start.scope.index
  shaped : shape pass.scope.spaces = shape start.scope.spaces
  groups : groupAt? pass.scope.spaces = groupAt? start.scope.spaces
  others : ∀ l ∉ done.map (·.place), tieAt? pass.scope.spaces l = tieAt? start.scope.spaces l
  tied : ∀ p ∈ done, ∃ condition supply supply',
    start.scope.predicate m p.condition supply = .ok condition supply' ∧
    tieAt? pass.scope.spaces p.place =
      Sql.Predicate.conjunction ((tieAt? start.scope.spaces p.place).toList ++ [condition])

theorem tieAt?_tied {space position : Nat} {condition : Sql.Predicate}
    {spaces : List Sql.TableSpace} {g : Sql.TableGroup}
    (h : groupAt? spaces ⟨space, .join position⟩ = some g) (l : GroupLocator) :
    tieAt? (Step.tied space position condition spaces) l =
      if l = ⟨space, .join position⟩ then
        Sql.Predicate.conjunction ((tieAt? spaces l).toList ++ [condition])
      else tieAt? spaces l := by
  rw [tieAt?, joinAt?_tied]
  split
  · rename_i hl
    subst hl
    obtain ⟨j, hj⟩ : ∃ j, joinAt? spaces ⟨space, .join position⟩ = some j := by
      simp only [groupAt?, Option.bind_eq_bind, Option.bind_eq_some_iff, Option.map_eq_some_iff] at h
      obtain ⟨s, hs, j, hj, -⟩ := h
      exact ⟨j, by simp [joinAt?, hs, hj]⟩
    simp [tieAt?, hj]
  · rfl

theorem Step.pendingCondition_conditions {m : Metamodel} {start pass pass' : Pass} {u : Unit}
    {done : List PendingCondition} {p : PendingCondition} (hc : pass.Conditions start m done)
    (hn : p.place ∉ done.map (·.place)) (h : pendingCondition m p pass = .ok u pass') :
    pass'.Conditions start m (done ++ [p]) := by
  obtain ⟨condition, supply, group, hp, hg, rfl⟩ := pendingCondition_ok h
  have htie (l : GroupLocator) :
      tieAt? (tied p.space p.position condition pass.scope.spaces) l =
        if l = p.place then
          Sql.Predicate.conjunction ((tieAt? pass.scope.spaces l).toList ++ [condition])
        else tieAt? pass.scope.spaces l := tieAt?_tied hg l
  refine ⟨hc.index, (shape_tied ..).trans hc.shaped, (groupAt?_tied ..).trans hc.groups, ?_, ?_⟩
  · intro l hl
    simp only [List.map_append, List.map_cons, List.map_nil, List.mem_append, List.mem_singleton,
      not_or] at hl
    rw [htie, if_neg hl.2, hc.others l hl.1]
  · intro p' hp'
    rcases List.mem_append.1 hp' with hp' | hp'
    · obtain ⟨c, s1, s2, hc', ht⟩ := hc.tied p' hp'
      refine ⟨c, s1, s2, hc', ?_⟩
      have hne : p'.place ≠ p.place := fun heq => hn (heq ▸ List.mem_map_of_mem hp')
      rw [htie, if_neg hne, ht]
    · obtain rfl := List.mem_singleton.1 hp'
      rw [Scope.predicate_congr hc.index hc.groups] at hp
      refine ⟨condition, _, _, hp, ?_⟩
      rw [htie, if_pos rfl, hc.others _ hn]

theorem Step.pendingConditions_conditions {m : Metamodel} {start pass' : Pass} {u : Unit}
    {pending : List PendingCondition} (h : pending.forM (pendingCondition m) start = .ok u pass')
    (hn : (pending.map (·.place)).Nodup) : pass'.Conditions start m pending := by
  have hinitial : start.Conditions start m [] := ⟨rfl, rfl, rfl, fun l _ => rfl, by simp⟩
  refine EStateM.forM_inv
    (fun done pass => (done.map (·.place)).Nodup → Pass.Conditions pass start m done)
    (fun {done p _ _ _} hi hp hn => ?_) (fun _ => hinitial) h hn
  rw [List.map_append, List.nodup_append] at hn
  refine pendingCondition_conditions (hi hn.1) (fun hmem => ?_) hp
  exact hn.2.2 _ hmem p.place (by simp) rfl

/-! ## Statements -/

/-- A from-element whose condition was left for later stands at its place when all conditions have
been tied to their joins. -/
theorem Pass.Conditions.hasElement {pass start : Pass} {m : Metamodel}
    (h : pass.Conditions { start with pending := [] } m start.pending) {e : FromElement}
    {l : GroupLocator} (ha : start.Awaits m e l) : pass.scope.HasElement m e l := by
  obtain ⟨s, joined, he, ht, hc⟩ := ha
  have hgrows : start.scope.Grows pass.scope :=
    ⟨fun hf => by rw [h.index]; exact hf, fun hg => by rw [h.groups]; exact hg⟩
  have hplaces : places pass.scope.spaces = places start.scope.spaces := by
    rw [places, h.shaped, places]
  have hgroups := groupsOf_eq_of_groupAt h.shaped h.groups
  have he' := he.mono hgrows ⟨[], by simp [hplaces]⟩ ⟨[], by simp [hgroups]⟩
  cases hcond : e.condition with
  | none =>
    rw [hcond, Option.toList_none, List.map_eq_nil_iff, List.filter_eq_nil_iff] at hc
    have hl : l ∉ start.pending.map (·.place) := by
      intro hmem
      obtain ⟨p, hp, hpl⟩ := List.mem_map.1 hmem
      exact hc p hp (decide_eq_true hpl)
    refine ⟨s, joined, none, pass.supply, pass.supply, he', by rw [hcond]; rfl, ?_⟩
    rw [h.others l hl, ht]
    cases joined.predicate <;> rfl
  | some c =>
    have hmem : c ∈ (start.pending.filter (·.place = l)).map (·.condition) := by
      rw [hc, hcond]
      simp
    obtain ⟨p, hfilter, rfl⟩ := List.mem_map.1 hmem
    obtain ⟨hp, hpl⟩ := List.mem_filter.1 hfilter
    obtain rfl := of_decide_eq_true hpl
    obtain ⟨condition, s1, s2, hs, htied⟩ := h.tied p hp
    refine ⟨s, joined, some condition, s1, s2, he', ?_, ?_⟩
    · rw [hcond, Scope.condition, Scope.predicate_congr h.index h.groups]
      exact EStateM.bind_eq_ok.2 ⟨condition, s2, hs, rfl⟩
    · rw [htied, ht]
      rfl

/-- The from-elements of a lowered statement stand at the places of its from clause, in order. -/
theorem lowerWith_elements {settings : Settings} {m : Metamodel} {s : Statement} {l : Lowered}
    (h : lowerWith settings m s = .ok l) :
    List.Forall₂ (l.scope.HasElement m) s.fromElements (places l.scope.spaces) := by
  obtain ⟨-, u, p, s1, s2, hf, hscope, -, -⟩ := lowerWith_ok h
  rw [hscope]
  have hstart := Pass.collects_start settings m
  have target {r : Root} (hr : Step.root m r (.start settings) = .ok u p) :
      List.Forall₂ (p.scope.HasElement m) [⟨.entity r.entity, none⟩] (places p.scope.spaces) := by
    have hpending : p.pending = [] := by
      obtain ⟨e, base, bases, g, index, -, -, -, -, rfl⟩ := Step.root_ok hr
      rfl
    have hnone : p.Conditions { p with pending := [] } m p.pending := by
      rw [hpending]
      exact ⟨rfl, rfl, rfl, fun l _ => rfl, by simp⟩
    exact (Step.root_collects hstart hr).elements.imp fun _ _ ha => hnone.hasElement ha
  cases s with
  | select q =>
    obtain ⟨-, v, p', hspaces, hpending⟩ := Step.fromClause_ok hf
    have hc := Step.spaces_collect hstart hspaces
    have hd := Step.spaces_defer (Pass.defers_start settings) hspaces
    have hconditions := Step.pendingConditions_conditions hpending
      (hd.ordered.nodup (places_nodup _))
    have hplaces : places p.scope.spaces = places p'.scope.spaces := by
      rw [places, hconditions.shaped, places]
    rw [hplaces]
    exact hc.elements.imp fun _ _ ha => hconditions.hasElement ha
  | update x => exact target hf
  | delete x => exact target hf

end EntityQuery
