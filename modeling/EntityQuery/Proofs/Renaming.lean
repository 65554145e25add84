import EntityQuery.Proofs.ClausePairs
import EntityQuery.Proofs.Correspondence
import EntityQuery.Proofs.Parameters
import Mathlib.Data.Set.Function

/-!
# Names of from-elements do not matter

A statement whose from-elements are called otherwise is lowered to the same statement, and the index
has the same entries under the other names (`names_do_not_matter`). It makes no difference either
whether a from-element goes by an alias of its own or by a name that is made up for it.

Clauses that read corresponding from-elements come to the same (`Clause.Same`), and so do the steps
of a pass once the from-elements are registered (`Step.Same`).
-/

set_option autoImplicit false

namespace EntityQuery

/-! ## Clauses -/

variable {N : String → String → Prop}

/-- From supplies that match, two clauses both fail or both come to the same value. -/
abbrev Clause.Same (N : String → String → Prop) {α : Type} (x y : Clause α) : Prop :=
  EStateM.Coupled (Supply.Matches N) (fun _ _ => True) Eq x y

theorem settled_same {α : Type} {x y : Except LoweringError α} (h : Except.Agree Eq x y) :
    Clause.Same N (settled x) (settled y) := by
  cases h with
  | ok related => exact .pure related
  | error => exact ⟨fun _ => .error trivial⟩

theorem newParameter_same (binding : Binding) (expected : Option DomainType) :
    Clause.Same N (newParameter binding expected) (newParameter binding expected) := by
  refine ⟨fun hst => .ok ⟨?_, hst.aliasBases, ?_⟩⟩ <;> simp only [hst.parameters]

theorem newAliasBase_same : Clause.Same N newAliasBase newAliasBase := by
  refine ⟨fun hst => ?_⟩
  obtain ⟨hbase, hnext⟩ := hst.aliasBases.next
  exact .ok ⟨hbase, hnext, hst.parameters⟩

namespace Scope

variable {s t : Scope} {m : Metamodel} {f : String → String}

theorem path_agrees (hN : Relator.BiUnique N) (h : s.Matches N t) {p : AttributePath}
    (hp : N p.start (f p.start)) : Except.Agree Eq (s.path m p) (t.path m (p.rename f)) := by
  refine (h.resolve hN hp p.segments).bind fun r r' hr => ?_
  obtain ⟨href, htarget, hoffset⟩ := hr
  simp only [pathValue, h.group, href, htarget, hoffset]
  refine (Except.Agree.refl _).bind fun group _ hgroup => ?_
  subst hgroup
  split
  · exact .error
  · exact .refl _
  · exact .refl _

theorem owned_agrees (hN : Relator.BiUnique N) (h : s.Matches N t) {p : AttributePath}
    (hp : N p.start (f p.start)) : Except.Agree Eq (s.owned m p) (t.owned m (p.rename f)) := by
  refine (h.resolve hN hp p.segments).bind fun r r' hr => ?_
  obtain ⟨href, htarget, -⟩ := hr
  simp only [h.elementValue, href, htarget]
  split
  · exact .refl _
  · exact .error

theorem subquery_same (hN : Relator.BiUnique N) (h : s.Matches N t) {p : AttributePath}
    (hp : N p.start (f p.start)) (selected : Selected) :
    Clause.Same N (s.subquery m p selected) (t.subquery m (p.rename f) selected) :=
  .bind_eq (settled_same (owned_agrees hN h hp)) fun _ =>
    .bind_eq newAliasBase_same fun _ => settled_same (.refl _)

/-- Clauses that read corresponding from-elements come to the same. -/
theorem clauses_same (hN : Relator.BiUnique N) (h : s.Matches N t) :
    PredicatePairs (Supply.Matches N) (fun _ _ => True) (fun a => N a (f a)) f m s t Eq Eq Eq where
  parameter binding expected := (newParameter_same binding expected).imp fun _ _ hp => by rw [hp]
  entityType _ := (settled_same (.refl _)).imp fun _ _ hd => by rw [hd]
  unary hv := by rw [hv]
  path hp := settled_same (path_agrees hN h hp)
  element hname := by
    refine settled_same ((h.index.resolve hN hname).bind fun ref _ href => ?_)
    subst href
    exact .of_eq (by rw [h.elementValue])
  function hvs := by
    rw [List.forall₂_eq_eq_eq] at hvs
    rw [hvs]
  literal _ := rfl
  concatenation hl hr := by rw [hl, hr]
  enumConstant _ _ := rfl
  arithmetic hl hr := by rw [hl, hr]
  subquery hp := subquery_same hN h hp _
  grouped hp := by rw [hp]
  junction hl hr := by rw [hl, hr]
  negated hp := by rw [hp]
  comparison hl hr := by rw [hl, hr]
  nullness hv := by rw [hv]
  nonempty hq := by rw [hq]
  between hs hl hu := by rw [hs, hl, hu]
  like hs hp he := by
    cases he with
    | none => rw [hs, hp]
    | some he => rw [hs, hp, he]
  among hv hq := by rw [hv, hq]

theorem condition_same (hN : Relator.BiUnique N) (h : s.Matches N t) {p : Option Predicate}
    (hp : ∀ a ∈ p.elim [] (·.aliases), N a (f a)) :
    Clause.Same N (s.condition m p) (t.condition m (p.map (·.rename f))) := by
  refine ((clauses_same hN h).condition hp).imp fun _ _ hq => ?_
  cases hq with
  | none => rfl
  | some hq => rw [hq]

theorem selectClause_same (hN : Relator.BiUnique N) (h : s.Matches N t) {c : SelectClause}
    (hc : ∀ a ∈ (SelectionOf.itemValues c.items).flatMap (·.aliases), N a (f a)) :
    Clause.Same N (s.selectClause m c) (t.selectClause m (c.rename f)) := by
  have hitems : ItemPairs Eq Eq :=
    ⟨rfl, fun hv hvs => by rw [hv, hvs], fun has hvs => by rw [has, hvs]⟩
  rw [selectClause_eq, selectClause_eq]
  exact .bind_eq (hitems.items (clauses_same hN h).toExpressionPairs c.items hc) fun _ => .pure rfl

theorem sortKeys_same (hN : Relator.BiUnique N) (h : s.Matches N t) {ks : List SortKey}
    (hks : ∀ a ∈ ks.flatMap (·.expression.aliases), N a (f a)) :
    Clause.Same N (s.sortKeys m ks) (t.sortKeys m (ks.map (·.rename f))) := by
  refine ((clauses_same hN h).sortKeys ks hks).imp fun vs ws hvs => ?_
  rw [← List.forall₂_eq_eq_eq]
  exact hvs.imp fun v w hv => congrArg₂ Sql.SortKey.mk hv.1 hv.2

theorem assignments_same (hN : Relator.BiUnique N) (h : s.Matches N t) {as : List Assignment}
    (has : ∀ x ∈ as.flatMap fun a => a.target.start :: a.value.aliases, N x (f x)) :
    Clause.Same N (as.mapM (s.assignment m)) ((as.map (·.rename f)).mapM (t.assignment m)) := by
  refine ((clauses_same hN h).assignments as has).imp fun vs ws hvs => ?_
  rw [← List.forall₂_eq_eq_eq]
  refine hvs.imp fun v w hv => ?_
  obtain ⟨⟨_, _, rfl, hv, hw⟩, hvalue⟩ := hv
  exact congrArg₂ Sql.Assignment.mk (hv.trans hw.symm) hvalue

end Scope

/-! ## Steps -/

/-- Two passes that have registered their from-elements: the same ones, under corresponding names. -/
structure Pass.Ready (N : String → String → Prop) (p q : Pass) : Prop where
  supply : p.supply.Matches N q.supply
  scope : p.scope.Matches N q.scope
  distinct : (p.scope.index.entries.map (·.2.locator)).Nodup

/-- From passes that are ready, two steps both fail or both come to the same value. -/
abbrev Step.Same (N : String → String → Prop) {α : Type} (x y : Step α) : Prop :=
  EStateM.Coupled (Pass.Ready N) (fun _ _ => True) Eq x y

/-- What a query selects by default is found at its place, whatever its name. -/
theorem Scope.defaultSelection_agrees {s t : Scope} {m : Metamodel} (h : s.Matches N t)
    (hd : (s.index.entries.map (·.2.locator)).Nodup) :
    Except.Agree Eq (s.defaultSelection m) (t.defaultSelection m) := by
  obtain ⟨shared, -, hs, ht⟩ := h.index
  have hshared : (shared.map (·.2.2.locator)).Nodup := by
    simpa [Function.comp_def] using (hs.map (·.2.locator)).nodup_iff.1 hd
  have hd' : (t.index.entries.map (·.2.locator)).Nodup := by
    rw [(ht.map (·.2.locator)).nodup_iff]
    simpa [Function.comp_def] using hshared
  unfold defaultSelection
  cases hfind : s.index.entries.find? (·.2.locator = ⟨0, .root⟩) with
  | some e =>
    have he : e.2.locator = ⟨0, .root⟩ := by simpa using List.find?_some hfind
    obtain ⟨x, hx, rfl⟩ := List.mem_map.1 (hs.mem_iff.1 (List.mem_of_find?_eq_some hfind))
    have hmem : (x.2.1, x.2.2) ∈ t.index.entries := ht.mem_iff.2 (List.mem_map_of_mem hx)
    have hfind' := List.find?_of_nodup (f := fun e : String × GroupRef => e.2.locator) hd' hmem
    simp only at he hfind'
    rw [he] at hfind'
    rw [hfind']
    exact .of_eq (by rw [h.elementValue])
  | none =>
    have hfind' : t.index.entries.find? (·.2.locator = ⟨0, .root⟩) = none := by
      rw [List.find?_eq_none] at hfind ⊢
      intro e he
      obtain ⟨x, hx, rfl⟩ := List.mem_map.1 (ht.mem_iff.1 he)
      exact hfind (x.1, x.2.2) (hs.mem_iff.2 (List.mem_map_of_mem hx))
    rw [hfind']
    exact .error

namespace Step

theorem clause_same {α : Type} {f g : Scope → Clause α}
    (h : ∀ {s t : Scope}, s.Matches N t → Clause.Same N (f s) (g t)) :
    Step.Same N (clause f) (clause g) := by
  refine ⟨fun {p q} hpq => ?_⟩
  have hclause := (h hpq.scope).run hpq.supply
  unfold clause
  generalize f p.scope p.supply = x at hclause
  generalize g q.scope q.supply = y at hclause
  cases hclause with
  | ok related => exact .ok ⟨related.1, related.2, hpq.scope, hpq.distinct⟩
  | error => exact .error trivial

theorem defaultSelection_same (m : Metamodel) :
    Step.Same N (lookup fun scope => scope.defaultSelection m)
      (lookup fun scope => scope.defaultSelection m) := by
  refine ⟨fun {p q} hpq => ?_⟩
  have hdefault := Scope.defaultSelection_agrees (m := m) hpq.scope hpq.distinct
  simp only [lookup]
  generalize p.scope.defaultSelection m = x at hdefault
  generalize q.scope.defaultSelection m = y at hdefault
  cases hdefault with
  | ok related => exact .ok ⟨related, hpq⟩
  | error => exact .error trivial

theorem addCondition_same (space position : Nat) (condition : Sql.Predicate) :
    Step.Same N (addCondition space position condition)
      (addCondition space position condition) := by
  refine ⟨fun {p q} hpq => ?_⟩
  unfold addCondition
  rw [hpq.scope.spaces]
  split
  · exact .error trivial
  · refine .ok ⟨rfl, hpq.supply, ⟨hpq.scope.index, ?_⟩, hpq.distinct⟩
    simp only [hpq.scope.spaces]

theorem takeSpaces_same : Step.Same N takeSpaces takeSpaces :=
  ⟨fun hpq => .ok ⟨hpq.scope.spaces, hpq.supply, ⟨hpq.scope.index, rfl⟩, hpq.distinct⟩⟩

theorem takeParameters_same : Step.Same N takeParameters takeParameters :=
  ⟨fun hpq => .ok ⟨hpq.supply.parameters, ⟨hpq.supply.aliasBases, rfl⟩, hpq.scope, hpq.distinct⟩⟩

end Step

/-! ## From-elements and conditions of joins -/

def PendingCondition.rename (f : String → String) (p : PendingCondition) : PendingCondition :=
  { p with condition := p.condition.rename f }

/-- Two statements that range over the same. Their from-elements may be called otherwise, and are
read accordingly. -/
inductive Statement.Alike (N : String → String → Prop) (f : String → String) :
    Statement → Statement → Prop
  | select {q : Query} {spaces : List Space}
      (elements : List.Forall₂ (Space.Alike N) q.fromClause.spaces spaces)
      (conditions : pendingOf spaces = (pendingOf q.fromClause.spaces).map (·.rename f)) :
      Alike N f (.select q) (.select ⟨⟨spaces⟩, q.select.map (·.rename f),
        q.condition.map (·.rename f), q.order.map (·.map (·.rename f))⟩)
  | update {u : Update} {target : Root} (entity : u.target.entity = target.entity) :
      Alike N f (.update u) (.update ⟨target, u.assignments.map (·.rename f),
        u.condition.map (·.rename f)⟩)
  | delete {d : Delete} {target : Root} (entity : d.target.entity = target.entity) :
      Alike N f (.delete d) (.delete ⟨target, d.condition.map (·.rename f)⟩)

theorem Scope.Registers.distinct {s : Scope} {m : Metamodel} {stem : String} {joins : List Nat}
    {elements : List (Option String)} (h : s.Registers m stem joins elements) :
    (s.index.entries.map (·.2.locator)).Nodup :=
  h.locators.nodup_iff.2 (places_nodup _)

theorem aliases_of_mem_pendingOf {spaces : List Space} {p : PendingCondition}
    (h : p ∈ pendingOf spaces) : ∀ a ∈ p.condition.aliases, a ∈ spaces.flatMap (·.aliases) := by
  obtain ⟨s, j, hs, hj, hc⟩ := mem_pendingOf.1 h
  intro a ha
  refine List.mem_flatMap.2 ⟨s, List.mem_of_getElem? hs, List.mem_append_right _ ?_⟩
  refine List.mem_flatMap.2 ⟨j, List.mem_of_getElem? hj, List.mem_append_right _ ?_⟩
  rwa [hc]

namespace Step

variable {m : Metamodel} {settings : Settings} {f : String → String}

theorem pendingCondition_same (hN : Relator.BiUnique N) {p : PendingCondition}
    (hp : ∀ a ∈ p.condition.aliases, N a (f a)) :
    Step.Same N (pendingCondition m p) (pendingCondition m (p.rename f)) :=
  .bind_eq (clause_same fun h => (Scope.clauses_same hN h).predicate hp) fun _ =>
    addCondition_same _ _ _

theorem fromClause_agrees (hN : Relator.BiUnique N) {from1 from2 : FromClause}
    (hspaces : List.Forall₂ (Space.Alike N) from1.spaces from2.spaces)
    (hconditions : pendingOf from2.spaces = (pendingOf from1.spaces).map (·.rename f))
    (hnames : List.Forall₂ N (namesFrom 0 (from1.spaces.flatMap (·.elements)))
      (namesFrom 0 (from2.spaces.flatMap (·.elements))))
    (haliases : ∀ a ∈ from1.spaces.flatMap (·.aliases), N a (f a)) :
    EStateM.Agree (fun _ p _ q => p.Ready N q) (fromClause m from1 (.start settings))
      (fromClause m from2 (.start settings)) := by
  rw [fromClause_eq, fromClause_eq]
  have hempty : from1.spaces.isEmpty = from2.spaces.isEmpty := by
    rw [Bool.eq_iff_iff, List.isEmpty_iff_length_eq_zero, List.isEmpty_iff_length_eq_zero,
      hspaces.length_eq]
  rw [hempty]
  split
  · exact .error
  · have hagree := spaces_agree (m := m) hN hspaces (Pass.matches_start settings hnames)
    refine hagree.with_runs.bind fun _ p _ q hpq => ?_
    obtain ⟨hmatches, hp, hq⟩ := hpq
    have hdistinct := (spaces_registers (Pass.registers_start settings m) hp).scope.distinct
    refine EStateM.Agree.get_bind ?_
    have hready : Pass.Ready N { p with pending := [] } { q with pending := [] } :=
      ⟨hmatches.supply, hmatches.scope, hdistinct⟩
    have hpending : List.Forall₂ (fun x y => y = x.rename f ∧ ∀ a ∈ x.condition.aliases, N a (f a))
        p.pending q.pending := by
      rw [spaces_pending hp, spaces_pending hq, hconditions, List.forall₂_map_right_iff,
        List.forall₂_same]
      exact fun x hx => ⟨rfl, fun a ha => haliases a (aliases_of_mem_pendingOf hx a ha)⟩
    have hloop : EStateM.Coupled (Pass.Ready N) (fun _ _ => True) (fun _ _ => True)
        (p.pending.forM (pendingCondition m)) (q.pending.forM (pendingCondition m)) := by
      refine .forM (R := Eq) hpending fun {x y} hxy => ?_
      obtain ⟨rfl, hx⟩ := hxy
      exact pendingCondition_same hN hx
    exact (hloop.run hready).agree.imp fun _ _ _ _ h => h.2

theorem target_agrees (hN : Relator.BiUnique N) {r r' : Root} (he : r.entity = r'.entity)
    (hnames : List.Forall₂ N (namesFrom 0 [r.aliasName]) (namesFrom 0 [r'.aliasName])) :
    EStateM.Agree (fun _ p _ q => p.Ready N q) (root m r (.start settings))
      (root m r' (.start settings)) := by
  have hagree := root_agrees (m := m) hN he (Pass.matches_start settings hnames)
  refine hagree.with_runs.imp fun _ p _ q hpq => ?_
  obtain ⟨hmatches, hp, -⟩ := hpq
  exact ⟨hmatches.supply, hmatches.scope,
    (root_registers (Pass.registers_start settings m) hp).scope.distinct⟩

/-! ## Statements -/

theorem selections_same (hN : Relator.BiUnique N) {c : Option SelectClause}
    (hc : ∀ a ∈ c.elim [] (fun c => (SelectionOf.itemValues c.items).flatMap (·.aliases)),
      N a (f a)) :
    Step.Same N (selections m c) (selections m (c.map (·.rename f))) := by
  cases c with
  | none => exact .bind_eq (defaultSelection_same m) fun _ => .pure rfl
  | some c => exact clause_same fun h => Scope.selectClause_same hN h hc

theorem order_same (hN : Relator.BiUnique N) {ks : Option (List SortKey)}
    (hks : ∀ a ∈ (ks.getD []).flatMap (·.expression.aliases), N a (f a)) :
    Step.Same N (order m ks) (order m (ks.map (·.map (·.rename f)))) := by
  cases ks with
  | none => exact .pure rfl
  | some ks => exact clause_same fun h => Scope.sortKeys_same hN h hks

/-- Statements that range over the same come to the same. -/
theorem statement_agrees (hN : Relator.BiUnique N) {s t : Statement} (hst : s.Alike N f t)
    (hnames : List.Forall₂ N (namesFrom 0 s.elements) (namesFrom 0 t.elements))
    (haliases : ∀ a ∈ s.aliases, N a (f a)) :
    EStateM.Agree (fun a p b q => a = b ∧ p.Ready N q) (statement m s (.start settings))
      (statement m t (.start settings)) := by
  cases hst with
  | select elements conditions =>
    simp only [Statement.aliases, List.forall_mem_append] at haliases
    obtain ⟨⟨⟨hfrom, hselect⟩, hcondition⟩, horder⟩ := haliases
    simp only [statement_select, query_eq, bind_assoc, pure_bind]
    refine (fromClause_agrees hN elements conditions hnames hfrom).bind fun _ p _ q hpq => ?_
    refine (EStateM.Coupled.run (.bind_eq (selections_same hN hselect) fun _ => ?_) hpq).agree
    refine .bind_eq (clause_same fun h => Scope.condition_same hN h hcondition) fun _ => ?_
    refine .bind_eq (order_same hN horder) fun _ => ?_
    exact .bind_eq takeSpaces_same fun _ => .bind_eq takeParameters_same fun _ => .pure rfl
  | update entity =>
    simp only [Statement.aliases, List.forall_mem_append] at haliases
    obtain ⟨⟨-, hassignments⟩, hcondition⟩ := haliases
    simp only [statement_update, update, expecting_visitRoot, bind_assoc, pure_bind]
    refine (target_agrees hN entity hnames).bind fun _ p _ q hpq => ?_
    refine (EStateM.Coupled.run (.bind_eq
      (clause_same fun h => Scope.assignments_same hN h hassignments) fun _ => ?_) hpq).agree
    refine .bind_eq (clause_same fun h => Scope.condition_same hN h hcondition) fun _ => ?_
    exact .bind_eq takeSpaces_same fun _ => .bind_eq takeParameters_same fun _ => .pure rfl
  | delete entity =>
    simp only [Statement.aliases, List.forall_mem_append] at haliases
    simp only [statement_delete, delete, expecting_visitRoot, bind_assoc, pure_bind]
    refine (target_agrees hN entity hnames).bind fun _ p _ q hpq => ?_
    refine (EStateM.Coupled.run (.bind_eq
      (clause_same fun h => Scope.condition_same hN h haliases.2) fun _ => ?_) hpq).agree
    exact .bind_eq takeSpaces_same fun _ => .bind_eq takeParameters_same fun _ => .pure rfl

end Step

theorem lowerWith_agrees {settings : Settings} {m : Metamodel} {f : String → String}
    (hN : Relator.BiUnique N) {s t : Statement} (hst : s.Alike N f t)
    (hnames : List.Forall₂ N (namesFrom 0 s.elements) (namesFrom 0 t.elements))
    (haliases : ∀ a ∈ s.aliases, N a (f a)) :
    Except.Agree (fun l l' => l.statement = l'.statement ∧ l.index.Matches N l'.index)
      (lowerWith settings m s) (lowerWith settings m t) := by
  have hagree : EStateM.Agree _ (Step.statement m s (.start settings))
      (Step.statement m t (.start settings)) := Step.statement_agrees hN hst hnames haliases
  unfold lowerWith
  split
  · generalize Step.statement m s (.start settings) = x at hagree
    generalize Step.statement m t (.start settings) = y at hagree
    cases hagree with
    | ok related => exact .ok ⟨related.1, related.2.scope.index⟩
    | error => exact .error
  · exact .error

/-! ## Names that are made up -/

/-- The name that is made up for a from-element without an alias. -/
def madeUp (number : Nat) : String := s!"<generated_{number}>"

def IsMadeUp (name : String) : Prop := ∃ number, name = madeUp number

theorem madeUp_inj {n k : Nat} (h : madeUp n = madeUp k) : n = k := by
  have hlist := congrArg String.toList h
  simp only [madeUp, String.toList_append, Nat.toString_eq_repr, Nat.toList_repr,
    List.append_cancel_left_eq, List.append_cancel_right_eq] at hlist
  exact toDigits_inj hlist

theorem head_of_isMadeUp {name : String} (h : IsMadeUp name) : name.toList.head? = some '<' := by
  obtain ⟨number, rfl⟩ := h
  simp [madeUp, toString]

theorem mem_aliases_of_elements {s : Statement} {a : String} (h : some a ∈ s.elements) :
    a ∈ s.aliases := by
  cases s with
  | select q =>
    simp only [Statement.elements, Space.elements, List.mem_flatMap, List.mem_cons,
      List.mem_map] at h
    obtain ⟨s, hs, hroot | ⟨j, hj, halias⟩⟩ := h
    · have ha : a ∈ s.aliases := by simp [Space.aliases, ← hroot]
      simp only [Statement.aliases, List.mem_append, List.mem_flatMap]
      exact .inl (.inl (.inl ⟨s, hs, ha⟩))
    · have ha : a ∈ s.aliases := by
        refine List.mem_append_right _ (List.mem_flatMap.2 ⟨j, hj, ?_⟩)
        simp [Join.aliases, halias]
      simp only [Statement.aliases, List.mem_append, List.mem_flatMap]
      exact .inl (.inl (.inl ⟨s, hs, ha⟩))
  | update u =>
    simp only [Statement.elements, List.mem_singleton] at h
    simp [Statement.aliases, ← h]
  | delete d =>
    simp only [Statement.elements, List.mem_singleton] at h
    simp [Statement.aliases, ← h]

/-- What is left for later depends on the conditions of the joins only. -/
theorem pendingOf_eq (spaces : List Space) : pendingOf spaces =
    (spaces.map fun s => s.joins.map (·.condition)).zipIdx.flatMap fun x =>
      x.1.zipIdx.filterMap fun c => c.1.map (⟨x.2, c.2, ·⟩) := by
  simp [pendingOf, conditionsOf, List.zipIdx_map, List.flatMap_map, List.filterMap_map]

/-! ## Other aliases -/

section

variable {f : String → String}

theorem pendingOf_rename (spaces : List Space) :
    pendingOf (spaces.map (·.rename f)) = (pendingOf spaces).map (·.rename f) := by
  simp only [pendingOf, conditionsOf, List.zipIdx_map, List.flatMap_map, List.map_flatMap]
  refine List.flatMap_congr fun s _ => ?_
  simp only [Space.rename, Prod.map_fst, Prod.map_snd, id, List.zipIdx_map, List.filterMap_map,
    List.map_filterMap]
  refine List.filterMap_congr fun j _ => ?_
  simp only [Function.comp_def, Prod.map_fst, Prod.map_snd, Join.rename, id]
  cases j.1.condition <;> rfl

theorem Space.source_alike {s : Space} (h : ∀ a ∈ s.aliases, N a (f a)) {j : Join}
    (hj : j ∈ s.joins) : JoinSource.Alike N j.source (j.source.rename f) := by
  have hsource : ∀ a ∈ j.source.aliases, N a (f a) := by
    intro a ha
    refine h a (List.mem_append_right _ (List.mem_flatMap.2 ⟨j, hj, ?_⟩))
    exact List.mem_append_left _ (List.mem_append_right _ ha)
  cases hj : j.source with
  | entity name => exact .entity name
  | attributeOf start dotted =>
    rw [hj] at hsource
    exact .attributeOf (hsource start (by simp [JoinSource.aliases])) dotted

theorem Space.alike_rename {s : Space} (h : ∀ a ∈ s.aliases, N a (f a)) :
    s.Alike N (s.rename f) :=
  ⟨rfl, List.forall₂_map_right_iff.2 (List.forall₂_same.2 fun _ hj => ⟨rfl, source_alike h hj, rfl⟩)⟩

theorem Statement.alike_rename {s : Statement} (h : ∀ a ∈ s.aliases, N a (f a)) :
    s.Alike N f (s.rename f) := by
  cases s with
  | select q =>
    simp only [Statement.aliases, List.forall_mem_append] at h
    refine .select ?_ (pendingOf_rename _)
    refine List.forall₂_map_right_iff.2 (List.forall₂_same.2 fun s hs => Space.alike_rename ?_)
    exact fun a ha => h.1.1.1 a (List.mem_flatMap.2 ⟨s, hs, ha⟩)
  | update u => exact .update rfl
  | delete d => exact .delete rfl

theorem Statement.elements_rename (s : Statement) :
    (s.rename f).elements = s.elements.map (Option.map f) := by
  cases s with
  | select q =>
    simp [Statement.rename, Statement.elements, Space.elements, Space.rename, Root.rename,
      Join.rename, List.flatMap_map, List.map_flatMap, Function.comp_def]
  | update u => rfl
  | delete d => rfl

/-- Names that are made up stay as they are. -/
theorem namesFrom_rename (hmade : ∀ number, N (madeUp number) (madeUp number)) :
    ∀ (generated : Nat) (elements : List (Option String)), (∀ a, some a ∈ elements → N a (f a)) →
      List.Forall₂ N (namesFrom generated elements)
        (namesFrom generated (elements.map (Option.map f)))
  | _, [], _ => .nil
  | generated, none :: es, h =>
    .cons (hmade (generated + 1)) (namesFrom_rename hmade _ es fun a ha => h a (by simp [ha]))
  | generated, some a :: es, h =>
    .cons (h a (by simp)) (namesFrom_rename hmade _ es fun a ha => h a (by simp [ha]))

/-- The names of a statement correspond to those of the renamed one. -/
def Statement.Renamed (s : Statement) (f : String → String) (a b : String) : Prop :=
  (a ∈ s.aliases ∧ b = f a) ∨ (IsMadeUp a ∧ b = a)

theorem Statement.names_renamed (s : Statement) (f : String → String) :
    List.Forall₂ (s.Renamed f) (namesFrom 0 s.elements) (namesFrom 0 (s.rename f).elements) := by
  rw [Statement.elements_rename]
  refine namesFrom_rename (fun number => .inr ⟨⟨number, rfl⟩, rfl⟩) 0 s.elements fun a ha => ?_
  exact .inl ⟨mem_aliases_of_elements ha, rfl⟩

/-- The index of the renamed statement has the same entries under the other names. -/
theorem FromIndex.Matches.renamed {i j : FromIndex} {s : Statement}
    (hforms : ∀ a ∈ s.aliases, ¬ IsMadeUp a) (h : i.Matches (s.Renamed f) j) :
    j.entries.Perm (i.entries.map fun e => (if e.1 ∈ s.aliases then f e.1 else e.1, e.2)) := by
  obtain ⟨shared, hshared, hi, hj⟩ := h
  refine hj.trans ((List.Perm.of_eq ?_).trans (hi.map _).symm)
  rw [List.map_map]
  refine List.map_congr_left fun e he => ?_
  rcases hshared e he with ⟨ha, hb⟩ | ⟨ha, hb⟩
  · simp [ha, hb]
  · have hnot : e.1 ∉ s.aliases := fun h => hforms e.1 h ha
    simp [hnot, hb]

theorem Statement.renamed_biUnique {s : Statement} (hforms : ∀ a ∈ s.aliases, ¬ IsMadeUp a)
    (hinj : Set.InjOn f {a | a ∈ s.aliases}) (hf : ∀ a ∈ s.aliases, ¬ IsMadeUp (f a)) :
    Relator.BiUnique (s.Renamed f) := by
  constructor
  · intro a b c hac hbc
    rcases hac with ⟨ha, hca⟩ | ⟨ha, hca⟩ <;> rcases hbc with ⟨hb, hcb⟩ | ⟨hb, hcb⟩
    · exact hinj ha hb (hca.symm.trans hcb)
    · exact absurd (hcb.symm.trans hca ▸ hb) (hf a ha)
    · exact absurd (hca.symm.trans hcb ▸ ha) (hf b hb)
    · exact hca.symm.trans hcb
  · intro a b c hab hac
    rcases hab with ⟨ha, hb⟩ | ⟨ha, hb⟩ <;> rcases hac with ⟨ha', hc⟩ | ⟨ha', hc⟩
    · exact hb.trans hc.symm
    · exact absurd ha' (hforms a ha)
    · exact absurd ha (hforms a ha')
    · exact hb.trans hc.symm

end

/-! ## Aliases that are given -/

/-- The alias of a from-element is kept, or one is given where there was none. -/
inductive AliasGiven : Option String → Option String → Prop
  | kept (aliasName : Option String) : AliasGiven aliasName aliasName
  | given (name : String) : AliasGiven none (some name)

/-- A join with its alias kept or given, and otherwise the same. -/
structure Join.AliasGiven (j k : Join) : Prop where
  aliasName : EntityQuery.AliasGiven j.aliasName k.aliasName
  others : k = { j with aliasName := k.aliasName }

structure Space.AliasesGiven (s t : Space) : Prop where
  root : AliasGiven s.root.aliasName t.root.aliasName
  entity : s.root.entity = t.root.entity
  joins : List.Forall₂ Join.AliasGiven s.joins t.joins

/-- A statement with aliases given to some from-elements that have none, and otherwise the same. -/
inductive Statement.AliasesGiven : Statement → Statement → Prop
  | select {q : Query} {spaces : List Space}
      (elements : List.Forall₂ Space.AliasesGiven q.fromClause.spaces spaces) :
      AliasesGiven (.select q) (.select { q with fromClause := ⟨spaces⟩ })
  | update {u : Update} {aliasName : Option String}
      (target : AliasGiven u.target.aliasName aliasName) :
      AliasesGiven (.update u) (.update { u with target := { u.target with aliasName } })
  | delete {d : Delete} {aliasName : Option String}
      (target : AliasGiven d.target.aliasName aliasName) :
      AliasesGiven (.delete d) (.delete { d with target := { d.target with aliasName } })

/-- The aliases that stand where there were none. -/
def givenIn : List (Option String × Option String) → List String
  | [] => []
  | (none, some name) :: rest => name :: givenIn rest
  | (none, none) :: rest => givenIn rest
  | (some _, _) :: rest => givenIn rest

/-- The aliases that are given in one statement to from-elements of another. -/
def givenAliases (s t : Statement) : List String := givenIn (s.elements.zip t.elements)

/-- The names of the from-elements without an alias, when `generated` and `generated'` names have
been made up before, beside their names where some of them have been given one. -/
def counterparts : Nat → Nat → List (Option String × Option String) → List (String × String)
  | _, _, [] => []
  | generated, generated', (none, b) :: rest =>
    (madeUp (generated + 1), nameFor b generated') ::
      counterparts (generated + 1) (generatedAfter b generated') rest
  | generated, generated', (some _, _) :: rest => counterparts generated generated' rest

theorem counterparts_fst : ∀ {g h : Nat} {ps : List (Option String × Option String)}
    {e : String × String}, e ∈ counterparts g h ps → ∃ k, g < k ∧ e.1 = madeUp k
  | _, _, [], _, he => by simp [counterparts] at he
  | g, h, (none, b) :: ps, e, he => by
    rcases List.mem_cons.1 he with rfl | he
    · exact ⟨g + 1, Nat.lt_succ_self g, rfl⟩
    · obtain ⟨k, hk, heq⟩ := counterparts_fst he
      exact ⟨k, Nat.lt_of_succ_lt hk, heq⟩
  | _, _, (some _, _) :: _, _, he => counterparts_fst (by simpa [counterparts] using he)

theorem counterparts_fst_nodup : ∀ (g h : Nat) (ps : List (Option String × Option String)),
    ((counterparts g h ps).map Prod.fst).Nodup
  | _, _, [] => List.nodup_nil
  | g, h, (none, b) :: ps => by
    refine List.nodup_cons.2 ⟨fun hmem => ?_, counterparts_fst_nodup _ _ ps⟩
    obtain ⟨e, he, hname⟩ := List.mem_map.1 hmem
    obtain ⟨k, hk, heq⟩ := counterparts_fst he
    have := madeUp_inj (heq.symm.trans hname)
    omega
  | _, _, (some _, _) :: ps => by
    simp only [counterparts]
    exact counterparts_fst_nodup _ _ ps

/-- A counterpart is an alias that is given, or a name made up for one of the from-elements that have
none. -/
theorem counterparts_snd : ∀ {g h : Nat} {ps : List (Option String × Option String)}
    {e : String × String}, e ∈ counterparts g h ps →
    e.2 ∈ givenIn ps ∨ ∃ k, h < k ∧ k ≤ h + (ps.map Prod.fst).count none ∧ e.2 = madeUp k
  | _, _, [], _, he => by simp [counterparts] at he
  | g, h, (none, none) :: ps, e, he => by
    simp only [List.map_cons, List.count_cons_self]
    rcases List.mem_cons.1 he with rfl | he
    · exact .inr ⟨h + 1, by omega, by omega, rfl⟩
    · refine (counterparts_snd he).imp id ?_
      rintro ⟨k, hk, hle, heq⟩
      simp only [generatedAfter] at hk hle
      exact ⟨k, by omega, by omega, heq⟩
  | g, h, (none, some name) :: ps, e, he => by
    simp only [givenIn, List.map_cons, List.count_cons_self]
    rcases List.mem_cons.1 he with rfl | he
    · exact .inl List.mem_cons_self
    · refine (counterparts_snd he).imp (List.mem_cons_of_mem _) ?_
      rintro ⟨k, hk, hle, heq⟩
      simp only [generatedAfter] at hk hle
      exact ⟨k, by omega, by omega, heq⟩
  | _, _, (some _, _) :: ps, _, he => by
    simp only [givenIn, List.map_cons, ne_eq, reduceCtorEq, not_false_eq_true,
      List.count_cons_of_ne]
    exact counterparts_snd (by simpa [counterparts] using he)

theorem counterparts_snd_nodup : ∀ {g h : Nat} {ps : List (Option String × Option String)},
    (givenIn ps).Nodup →
    (∀ y ∈ givenIn ps, ∀ k, h < k → k ≤ h + (ps.map Prod.fst).count none → y ≠ madeUp k) →
    ((counterparts g h ps).map Prod.snd).Nodup
  | _, _, [], _, _ => List.nodup_nil
  | g, h, (none, none) :: ps, hn, hf => by
    simp only [givenIn, List.map_cons, List.count_cons_self] at hn hf
    refine List.nodup_cons.2 ⟨fun hmem => ?_, counterparts_snd_nodup hn fun y hy k hk hle => ?_⟩
    · obtain ⟨e, he, hname⟩ := List.mem_map.1 hmem
      rcases counterparts_snd he with hy | ⟨k, hk, -, heq⟩
      · exact hf _ hy (h + 1) (by omega) (by omega) hname
      · have := madeUp_inj (heq.symm.trans hname)
        simp only [generatedAfter] at hk
        omega
    · simp only [generatedAfter] at hk hle
      exact hf y hy k (by omega) (by omega)
  | g, h, (none, some name) :: ps, hn, hf => by
    simp only [givenIn, List.map_cons, List.count_cons_self, List.nodup_cons,
      List.forall_mem_cons] at hn hf
    refine List.nodup_cons.2 ⟨fun hmem => ?_, counterparts_snd_nodup hn.2 fun y hy k hk hle => ?_⟩
    · obtain ⟨e, he, (hname : e.2 = name)⟩ := List.mem_map.1 hmem
      rcases counterparts_snd he with hy | ⟨k, hk, hle, heq⟩
      · exact hn.1 (hname ▸ hy)
      · simp only [generatedAfter] at hk hle
        exact hf.1 k hk (by omega) (hname.symm.trans heq)
    · simp only [generatedAfter] at hk hle
      exact hf.2 y hy k hk (by omega)
  | _, _, (some _, _) :: ps, hn, hf => by
    simp only [givenIn, List.map_cons, ne_eq, reduceCtorEq, not_false_eq_true,
      List.count_cons_of_ne] at hn hf
    simp only [counterparts]
    exact counterparts_snd_nodup hn hf

/-- A statement makes up names with all numbers up to that of its from-elements without aliases. -/
theorem madeUp_mem_namesFrom : ∀ {g k : Nat} {elements : List (Option String)}, g < k →
    k ≤ g + elements.count none → madeUp k ∈ namesFrom g elements
  | g, k, [], hk, hle => by
    simp only [List.count_nil] at hle
    omega
  | g, k, none :: es, hk, hle => by
    simp only [List.count_cons_self] at hle
    rcases Nat.lt_or_eq_of_le (Nat.succ_le_of_lt hk) with hlt | rfl
    · refine List.mem_cons_of_mem _ (madeUp_mem_namesFrom hlt ?_)
      simp only [generatedAfter]
      omega
    · exact List.mem_cons_self
  | g, k, some _ :: es, hk, hle => by
    simp only [ne_eq, reduceCtorEq, not_false_eq_true, List.count_cons_of_ne] at hle
    exact List.mem_cons_of_mem _ (madeUp_mem_namesFrom hk hle)

/-- The names of a statement correspond to those where some aliases have been given. -/
def Statement.Given (s t : Statement) (a b : String) : Prop :=
  (a ∈ s.aliases ∧ b = a) ∨ (a, b) ∈ counterparts 0 0 (s.elements.zip t.elements)

theorem Statement.given_biUnique {s t : Statement} (hforms : ∀ a ∈ s.aliases, ¬ IsMadeUp a)
    (hl : s.elements.length = t.elements.length) (hn : (givenAliases s t).Nodup)
    (hfresh : ∀ y ∈ givenAliases s t, y ∉ s.aliases ∧ y ∉ namesFrom 0 s.elements) :
    Relator.BiUnique (s.Given t) := by
  have hfst : (s.elements.zip t.elements).map Prod.fst = s.elements :=
    List.map_fst_zip (Nat.le_of_eq hl)
  have hsnd : ((counterparts 0 0 (s.elements.zip t.elements)).map Prod.snd).Nodup := by
    refine counterparts_snd_nodup hn fun y hy k hk hle heq => ?_
    rw [hfst] at hle
    exact (hfresh y hy).2 (heq ▸ madeUp_mem_namesFrom hk hle)
  -- what is made up or given is no alias of the statement
  have hleft {a b : String} (h : (a, b) ∈ counterparts 0 0 (s.elements.zip t.elements)) :
      a ∉ s.aliases := by
    obtain ⟨k, -, heq⟩ := counterparts_fst h
    exact fun ha => hforms a ha ⟨k, heq⟩
  have hright {a b : String} (h : (a, b) ∈ counterparts 0 0 (s.elements.zip t.elements)) :
      b ∉ s.aliases := by
    rcases counterparts_snd h with hy | ⟨k, -, -, heq⟩
    · exact (hfresh b hy).1
    · exact fun hb => hforms b hb ⟨k, heq⟩
  constructor
  · intro a b c hac hbc
    rcases hac with ⟨ha, rfl⟩ | hac <;> rcases hbc with ⟨hb, hcb⟩ | hbc
    · exact hcb
    · exact absurd ha (hright hbc)
    · exact absurd (hcb ▸ hb) (hright hac)
    · exact congrArg Prod.fst (List.inj_on_of_nodup_map hsnd hac hbc rfl)
  · intro a b c hab hac
    rcases hab with ⟨ha, rfl⟩ | hab <;> rcases hac with ⟨ha', hc⟩ | hac
    · exact hc.symm
    · exact absurd ha (hleft hac)
    · exact absurd ha' (hleft hab)
    · exact congrArg Prod.snd (List.inj_on_of_nodup_map (counterparts_fst_nodup 0 0 _) hab hac rfl)

theorem namesFrom_given {elements elements' : List (Option String)}
    (h : List.Forall₂ AliasGiven elements elements') : ∀ (g g' : Nat),
    List.Forall₂ (fun a b => (some a ∈ elements ∧ b = a) ∨
      (a, b) ∈ counterparts g g' (elements.zip elements'))
      (namesFrom g elements) (namesFrom g' elements') := by
  induction h with
  | nil => exact fun _ _ => .nil
  | @cons e e' es es' he _ ih =>
    intro g g'
    cases e with
    | none =>
      refine .cons (.inr List.mem_cons_self) ((ih _ _).imp fun a b hab => ?_)
      exact hab.imp (fun ha => ⟨List.mem_cons_of_mem _ ha.1, ha.2⟩) (List.mem_cons_of_mem _)
    | some name =>
      cases he with
      | kept =>
        refine .cons (.inl ⟨List.mem_cons_self, rfl⟩) ((ih _ _).imp fun a b hab => ?_)
        exact hab.imp (fun ha => ⟨List.mem_cons_of_mem _ ha.1, ha.2⟩) id

theorem PendingCondition.rename_id (p : PendingCondition) : p.rename id = p := by
  simp only [PendingCondition.rename, Predicate.rename_id]

theorem Space.AliasesGiven.elements {s t : Space} (h : s.AliasesGiven t) :
    List.Forall₂ AliasGiven s.elements t.elements := by
  refine .cons h.root ?_
  rw [List.forall₂_map_left_iff, List.forall₂_map_right_iff]
  exact h.joins.imp fun _ _ hj => hj.aliasName

theorem Space.AliasesGiven.alike {s t : Space} (h : s.AliasesGiven t)
    (hs : ∀ a ∈ s.aliases, N a a) : s.Alike N t := by
  refine ⟨h.entity, ((List.forall₂_and_left _ _).2 ⟨fun j hj => hj, h.joins⟩).imp fun j k hjk => ?_⟩
  obtain ⟨hj, hk⟩ := hjk
  rw [hk.others]
  refine ⟨rfl, ?_, rfl⟩
  simpa only [JoinSource.rename_id] using Space.source_alike (f := id) hs hj

theorem pendingOf_given {spaces spaces' : List Space}
    (h : List.Forall₂ Space.AliasesGiven spaces spaces') : pendingOf spaces' = pendingOf spaces := by
  have hconditions : spaces.map (fun s => s.joins.map (·.condition)) =
      spaces'.map fun s => s.joins.map (·.condition) := by
    refine List.Forall₂.map_eq (h.imp fun s t hst => ?_)
    exact List.Forall₂.map_eq (hst.joins.imp fun j k hjk => by rw [hjk.others])
  rw [pendingOf_eq, pendingOf_eq, hconditions]

theorem Statement.AliasesGiven.elements {s t : Statement} (h : s.AliasesGiven t) :
    List.Forall₂ AliasGiven s.elements t.elements := by
  cases h with
  | select elements => exact List.rel_flatMap elements fun _ _ hst => hst.elements
  | update target => exact .cons target .nil
  | delete target => exact .cons target .nil

theorem Statement.AliasesGiven.names {s t : Statement} (h : s.AliasesGiven t) :
    List.Forall₂ (s.Given t) (namesFrom 0 s.elements) (namesFrom 0 t.elements) := by
  refine (namesFrom_given h.elements 0 0).imp fun a b hab => ?_
  exact hab.imp (fun ha => ⟨mem_aliases_of_elements ha.1, ha.2⟩) id

theorem Statement.AliasesGiven.alike {s t : Statement} (h : s.AliasesGiven t)
    (hs : ∀ a ∈ s.aliases, N a a) : s.Alike N id t := by
  cases h with
  | @select q spaces elements =>
    simp only [Statement.aliases, List.forall_mem_append] at hs
    have halike : List.Forall₂ (Space.Alike N) q.fromClause.spaces spaces := by
      refine ((List.forall₂_and_left _ _).2 ⟨fun s hs => hs, elements⟩).imp fun s t hst => ?_
      exact hst.2.alike fun a ha => hs.1.1.1 a (List.mem_flatMap.2 ⟨s, hst.1, ha⟩)
    have hsame := Statement.Alike.select (f := id) halike
      (by simp [pendingOf_given elements, PendingCondition.rename_id])
    simpa [SelectClause.rename_id, Predicate.rename_id, SortKey.rename_id] using hsame
  | @update u aliasName target =>
    have hsame : Statement.Alike N id (.update u) (.update ⟨⟨u.target.entity, aliasName⟩, _, _⟩) :=
      .update rfl
    simpa [Assignment.rename_id, Predicate.rename_id] using hsame
  | @delete d aliasName target =>
    have hsame : Statement.Alike N id (.delete d) (.delete ⟨⟨d.target.entity, aliasName⟩, _⟩) :=
      .delete rfl
    simpa [Predicate.rename_id] using hsame

/-- Renaming and giving aliases make no difference to what a statement is lowered to. A renaming
tells the aliases of the statement apart and keeps clear of names that are made up, and an alias
that is given is not in use yet. -/
theorem names_do_not_matter {settings : Settings} {m : Metamodel} {s : Statement}
    (hforms : ∀ a ∈ s.aliases, ¬ IsMadeUp a) :
    (∀ f : String → String, Set.InjOn f {a | a ∈ s.aliases} →
      (∀ a ∈ s.aliases, ¬ IsMadeUp (f a)) →
      Except.Agree (fun l l' => l.statement = l'.statement ∧
          l'.index.entries.Perm (l.index.entries.map fun e =>
            (if e.1 ∈ s.aliases then f e.1 else e.1, e.2)))
        (lowerWith settings m s) (lowerWith settings m (s.rename f))) ∧
    ∀ t, s.AliasesGiven t → (givenAliases s t).Nodup →
      (∀ a ∈ givenAliases s t, a ∉ s.aliases ∧ a ∉ namesFrom 0 s.elements) →
      Except.Agree (fun l l' => l.statement = l'.statement ∧
          (∀ a ∈ s.aliases, l.index.find? a = l'.index.find? a) ∧
          (l.index.entries.map Prod.snd).Perm (l'.index.entries.map Prod.snd))
        (lowerWith settings m s) (lowerWith settings m t) := by
  constructor
  · intro f hinj hf
    have hN := s.renamed_biUnique hforms hinj hf
    have haliases (a : String) (ha : a ∈ s.aliases) : s.Renamed f a (f a) := .inl ⟨ha, rfl⟩
    refine (lowerWith_agrees hN (Statement.alike_rename haliases) (s.names_renamed f)
      haliases).imp fun l l' h => ?_
    obtain ⟨hstatement, hindex⟩ := h
    exact ⟨hstatement, hindex.renamed hforms⟩
  · intro t ht hnodup hfresh
    have hN := Statement.given_biUnique hforms ht.elements.length_eq hnodup hfresh
    have haliases (a : String) (ha : a ∈ s.aliases) : s.Given t a (id a) := .inl ⟨ha, rfl⟩
    refine (lowerWith_agrees hN (ht.alike haliases) ht.names haliases).imp fun l l' h => ?_
    obtain ⟨hstatement, hindex⟩ := h
    exact ⟨hstatement, fun a ha => hindex.find? hN (haliases a ha), hindex.refs⟩

/-- The statement `shelves` with an alias for all books. -/
def namedShelves : Statement :=
  .select ⟨⟨[⟨⟨"Author", some "a"⟩, [⟨some "b", .left, .attributeOf "a" "books", false,
      some (.isEmpty ⟨"b", ["tags"]⟩ true)⟩]⟩, ⟨⟨"Book", some "c"⟩, []⟩]⟩,
    none, some (.isEmpty ⟨"a", ["books"]⟩ true), none⟩

theorem names_do_not_matter_in_library :
    ∃ l l' l'', lowerWith .default library shelves = .ok l ∧
      lowerWith .default library (shelves.rename ("my" ++ ·)) = .ok l' ∧
      lowerWith .default library namedShelves = .ok l'' ∧
      l.statement = l'.statement ∧ l.statement = l''.statement := by
  obtain ⟨l, hl⟩ := Except.exists_ok_of_isSome
    (by decide +kernel : (lowerWith .default library shelves).toOption.isSome)
  have hforms : ∀ a ∈ shelves.aliases, ¬ IsMadeUp a := fun a ha h =>
    (by decide +kernel : ∀ a ∈ shelves.aliases, a.toList.head? ≠ some '<') a ha (head_of_isMadeUp h)
  have hmine : ∀ a ∈ shelves.aliases, ¬ IsMadeUp ("my" ++ a) := fun a ha h =>
    (by decide +kernel : ∀ a ∈ shelves.aliases, ("my" ++ a).toList.head? ≠ some '<') a ha
      (head_of_isMadeUp h)
  have hgiven : shelves.AliasesGiven namedShelves :=
    .select (.cons ⟨.kept _, rfl, .cons ⟨.kept _, rfl⟩ .nil⟩ (.cons ⟨.given "c", rfl, .nil⟩ .nil))
  obtain ⟨hrenamed, haliased⟩ := @names_do_not_matter .default library shelves hforms
  obtain ⟨l', hl', heq, -⟩ := (hrenamed ("my" ++ ·) (fun a _ b _ h => by simpa using h) hmine).of_ok hl
  obtain ⟨l'', hl'', heq', -⟩ :=
    (haliased namedShelves hgiven (by decide +kernel) (by decide +kernel)).of_ok hl
  exact ⟨l, l', l'', hl, hl', hl'', heq, heq'⟩

end EntityQuery
