import EntityQuery.Lowering
import EntityQuery.Proofs.Places
import EntityQuery.Proofs.Run
import EntityQuery.Proofs.Visits

/-!
# The steps of a pass, taken apart

For every step of a pass, what a successful run of it has done: the look-ups it made and the state
it left (`root_ok`, `join_ok`, `pendingCondition_ok`, `fromClause_ok`, `query_ok`, …). Other modules
speak of passes through these lemmas only.
-/

set_option autoImplicit false

namespace EntityQuery

/-! ## Names of from-elements -/

/-- The name of a from-element when `generated` names have been made up before. -/
def nameFor : Option String → Nat → String
  | some name, _ => name
  | none, generated => s!"<generated_{generated + 1}>"

/-- The number of made-up names after a from-element. -/
def generatedAfter : Option String → Nat → Nat
  | some _, generated => generated
  | none, generated => generated + 1

namespace Step

theorem aliasFor_eq (aliasName : Option String) (pass : Pass) :
    aliasFor aliasName pass = .ok (nameFor aliasName pass.generated)
      { pass with generated := generatedAfter aliasName pass.generated } := by
  cases aliasName <;> rfl

/-! ## Small steps -/

variable {α : Type} {pass pass' : Pass}

theorem lookup_ok {f : Scope → Except LoweringError α} {a : α}
    (h : lookup f pass = .ok a pass') : f pass.scope = .ok a ∧ pass' = pass := by
  unfold lookup at h
  split at h
  · rename_i a' ha
    cases h
    exact ⟨ha, rfl⟩
  · cases h

theorem clause_ok {f : Scope → Clause α} {a : α} (h : clause f pass = .ok a pass') :
    ∃ supply, f pass.scope pass.supply = .ok a supply ∧ pass' = { pass with supply } := by
  unfold clause at h
  split at h
  · rename_i a' supply ha
    cases h
    exact ⟨supply, ha, rfl⟩
  · cases h

theorem aliasBaseFor_ok {name base : String} (h : aliasBaseFor name pass = .ok base pass') :
    ∃ bases, pass.supply.aliasBases.baseFor name = (base, bases) ∧
      pass' = { pass with supply := { pass.supply with aliasBases := bases } } := by
  unfold aliasBaseFor at h
  cases h
  exact ⟨_, rfl, rfl⟩

theorem register_ok {name : String} {ref : GroupRef} {u : Unit}
    (h : register name ref pass = .ok u pass') :
    ∃ index, pass.scope.index.add name ref = .ok index ∧
      pass' = { pass with scope := { pass.scope with index } } := by
  unfold register at h
  split at h
  · rename_i index hi
    cases h
    exact ⟨index, hi, rfl⟩
  · cases h

theorem openSpace_ok {space : Nat} (h : openSpace pass = .ok space pass') :
    pass.scope.spaces.length = space + 1 ∧ pass' = pass := by
  unfold openSpace at h
  split at h
  · cases h
  · rename_i count hc
    cases h
    exact ⟨hc, rfl⟩

end Step

theorem lookedUp_ok {α : Type} {x : Except MetamodelError α} {a : α} (h : lookedUp x = .ok a) :
    x = .ok a := by
  cases x <;> simp_all [lookedUp]

theorem lookedUp_of {α : Type} {x : Except MetamodelError α} {a : α} (h : x = .ok a) :
    lookedUp x = .ok a := by
  rw [h, lookedUp]

namespace Step

variable {m : Metamodel} {pass pass' : Pass} {u : Unit}

/-! ## From-elements -/

/-- A root: its entity is known, and a space with the group of the entity has been opened under
its name. -/
theorem root_ok {r : Root} (h : root m r pass = .ok u pass') :
    ∃ e base bases g index, m.entity r.entity = .ok e ∧
      pass.supply.aliasBases.baseFor (nameFor r.aliasName pass.generated) = (base, bases) ∧
      m.entityGroup e base = .ok g ∧
      pass.scope.index.add (nameFor r.aliasName pass.generated)
        ⟨⟨pass.scope.spaces.length, .root⟩, base, .entity e.name⟩ = .ok index ∧
      pass' = ⟨{ pass.supply with aliasBases := bases }, ⟨index, pass.scope.spaces ++ [⟨g, []⟩]⟩,
        generatedAfter r.aliasName pass.generated, pass.pending⟩ := by
  simp only [root, EStateM.bind_eq_ok, aliasFor_eq, EStateM.Result.ok.injEq] at h
  obtain ⟨_, _, ⟨rfl, rfl⟩, e, p1, he, base, p2, hb, g, p3, hg, p4, p5, hp, _, p6, hr, hc⟩ := h
  obtain ⟨entity, rfl⟩ := lookup_ok he
  obtain ⟨bases, hbases, rfl⟩ := aliasBaseFor_ok hb
  obtain ⟨group, rfl⟩ := lookup_ok hg
  obtain ⟨rfl, rfl⟩ := EStateM.get_eq_ok.1 hp
  obtain ⟨index, hi, rfl⟩ := register_ok hr
  simp only [changeSpaces, EStateM.Result.ok.injEq] at hc
  obtain ⟨-, rfl⟩ := hc
  exact ⟨e, base, bases, g, index, lookedUp_ok entity, hbases, lookedUp_ok group, hi, rfl⟩

/-- A join: its group has been joined onto the last space under its name, and its condition is
left for later. -/
theorem join_ok {j : Join} (h : join m j pass = .ok u pass') :
    ∃ joinType space base bases joined index, j.joinType.lower = .ok joinType ∧
      pass.scope.spaces.length = space + 1 ∧
      pass.supply.aliasBases.baseFor (nameFor j.aliasName pass.generated) = (base, bases) ∧
      pass.scope.joinedGroup m j.source base = .ok joined ∧
      pass.scope.index.add (nameFor j.aliasName pass.generated)
        ⟨⟨space, .join (joinCount pass.scope.spaces space)⟩, base, joined.source⟩ = .ok index ∧
      pass' = ⟨{ pass.supply with aliasBases := bases },
        ⟨index, joinedOnto space ⟨joinType, joined.group, joined.predicate, j.fetch⟩
          pass.scope.spaces⟩,
        generatedAfter j.aliasName pass.generated,
        pass.pending ++ (j.condition.map
          (⟨space, joinCount pass.scope.spaces space, ·⟩)).toList⟩ := by
  simp only [join, EStateM.bind_eq_ok, aliasFor_eq, EStateM.Result.ok.injEq] at h
  obtain ⟨joinType, p1, ht, space, p2, hs, _, _, ⟨rfl, rfl⟩, base, p3, hb, joined, p4, hj, p5, p6,
    hp, _, p7, hr, _, p8, hc, hm⟩ := h
  obtain ⟨lowered, rfl⟩ := lookup_ok ht
  obtain ⟨count, rfl⟩ := openSpace_ok hs
  obtain ⟨bases, hbases, rfl⟩ := aliasBaseFor_ok hb
  obtain ⟨group, rfl⟩ := lookup_ok hj
  obtain ⟨rfl, rfl⟩ := EStateM.get_eq_ok.1 hp
  obtain ⟨index, hi, rfl⟩ := register_ok hr
  simp only [changeSpaces, EStateM.Result.ok.injEq] at hc
  obtain ⟨-, rfl⟩ := hc
  refine ⟨joinType, space, base, bases, joined, index, lowered, count, hbases, group, hi, ?_⟩
  cases hcond : j.condition with
  | none =>
    rw [hcond] at hm
    obtain ⟨-, rfl⟩ := EStateM.pure_eq_ok.1 hm
    simp [joinedOnto]
  | some condition =>
    rw [hcond] at hm
    rw [← EStateM.modify_eq_ok.1 hm]
    rfl

theorem space_ok {s : Space} (h : space m s pass = .ok u pass') :
    ∃ v p, root m s.root pass = .ok v p ∧ s.joins.forM (join m) p = .ok u pass' := by
  rw [space_eq] at h
  obtain ⟨v, p, hr, hj⟩ := EStateM.bind_eq_ok.1 h
  exact ⟨v, p, hr, hj⟩

/-! ## Conditions of joins -/

/-- The spaces with a further predicate tied to the join at a place. -/
def tied (space position : Nat) (condition : Sql.Predicate) (spaces : List Sql.TableSpace) :
    List Sql.TableSpace :=
  spaces.modify space fun s =>
    { s with joins := s.joins.modify position fun j =>
        { j with predicate := Sql.Predicate.conjunction (j.predicate.toList ++ [condition]) } }

theorem pendingCondition_ok {p : PendingCondition} (h : pendingCondition m p pass = .ok u pass') :
    ∃ condition supply group,
      pass.scope.predicate m p.condition pass.supply = .ok condition supply ∧
      groupAt? pass.scope.spaces ⟨p.space, .join p.position⟩ = some group ∧
      pass' = { pass with
        supply
        scope := ⟨pass.scope.index, tied p.space p.position condition pass.scope.spaces⟩ } := by
  simp only [pendingCondition, EStateM.bind_eq_ok] at h
  obtain ⟨condition, p1, hc, ha⟩ := h
  obtain ⟨supply, hs, rfl⟩ := clause_ok hc
  unfold addCondition at ha
  split at ha
  · cases ha
  · rename_i group hg
    cases ha
    exact ⟨condition, supply, group, hs, hg, rfl⟩

theorem fromClause_ok {f : FromClause} (h : fromClause m f pass = .ok u pass') :
    f.spaces ≠ [] ∧ ∃ v p, f.spaces.forM (space m) pass = .ok v p ∧
      p.pending.forM (pendingCondition m) { p with pending := [] } = .ok u pass' := by
  rw [fromClause_eq] at h
  obtain ⟨hf, h⟩ := EStateM.guard_eq_ok.1 h
  simp only [EStateM.bind_eq_ok] at h
  obtain ⟨v, p, hs, _, _, hg, _, _, hm, hp⟩ := h
  obtain ⟨rfl, rfl⟩ := EStateM.get_eq_ok.1 hg
  rw [← EStateM.modify_eq_ok.1 hm] at hp
  exact ⟨by simpa using hf, v, p, hs, hp⟩

end Step

/-! ## Statements -/

namespace Scope

/-- What a query selects, from the scope of its from clause. -/
def selected (s : Scope) (m : Metamodel) : Option SelectClause → Clause (Bool × List Sql.SelectItem)
  | some c => do return (c.distinct, ← s.items m c.items)
  | none => do return (false, [← settled (s.defaultSelection m)])

/-- The sort keys of a query, from the scope of its from clause. -/
def ordered (s : Scope) (m : Metamodel) : Option (List SortKey) → Clause (List Sql.SortKey)
  | none => pure []
  | some keys => s.sortKeys m keys

end Scope

theorem settled_ok {α : Type} {x : Except LoweringError α} {a : α} {supply supply' : Supply} :
    settled x supply = .ok a supply' ↔ x = .ok a ∧ supply = supply' := by
  cases x with
  | ok b => simp only [settled, EStateM.pure_eq_ok, Except.ok.injEq]
  | error e =>
    simp only [reduceCtorEq, false_and, iff_false]
    exact EStateM.throw_ne_ok

namespace Step

variable {m : Metamodel} {pass pass' : Pass}

theorem selections_ok {c : Option SelectClause} {r : Bool × List Sql.SelectItem}
    (h : selections m c pass = .ok r pass') :
    ∃ supply, pass.scope.selected m c pass.supply = .ok r supply ∧ pass' = { pass with supply } := by
  cases c with
  | none =>
    simp only [selections, EStateM.bind_eq_ok, EStateM.pure_eq_ok] at h
    obtain ⟨item, p, hi, rfl, rfl⟩ := h
    obtain ⟨hd, rfl⟩ := lookup_ok hi
    refine ⟨p.supply, ?_, rfl⟩
    simp only [Scope.selected, EStateM.bind_eq_ok, EStateM.pure_eq_ok]
    exact ⟨item, p.supply, settled_ok.2 ⟨hd, rfl⟩, rfl, rfl⟩
  | some c =>
    simp only [selections, Scope.selectClause_eq] at h
    exact clause_ok h

theorem order_ok {keys : Option (List SortKey)} {r : List Sql.SortKey}
    (h : order m keys pass = .ok r pass') :
    ∃ supply, pass.scope.ordered m keys pass.supply = .ok r supply ∧ pass' = { pass with supply } := by
  cases keys with
  | none =>
    obtain ⟨rfl, rfl⟩ := EStateM.pure_eq_ok.1 h
    exact ⟨pass.supply, rfl, rfl⟩
  | some keys =>
    simp only [order] at h
    exact clause_ok h

/-- A query: its clauses are lowered in the scope that the from clause leaves, the select clause
first and the sort keys last. -/
theorem query_ok {q : Query} {out : Sql.Query} (h : query m q pass = .ok out pass') :
    ∃ u p selected predicate order s1 s2 s3, fromClause m q.fromClause pass = .ok u p ∧
      p.scope.selected m q.select p.supply = .ok selected s1 ∧
      p.scope.condition m q.condition s1 = .ok predicate s2 ∧
      p.scope.ordered m q.order s2 = .ok order s3 ∧
      out = ⟨selected.1, selected.2, ⟨p.scope.spaces⟩, predicate, order⟩ ∧
      pass' = { p with supply := s3, scope := ⟨p.scope.index, []⟩ } := by
  rw [query_eq] at h
  simp only [EStateM.bind_eq_ok, EStateM.pure_eq_ok] at h
  obtain ⟨u, p, hf, selected, _, hs, predicate, _, hc, order, _, ho, spaces, _, ht, rfl, rfl⟩ := h
  obtain ⟨s1, hs1, rfl⟩ := selections_ok hs
  obtain ⟨s2, hs2, rfl⟩ := clause_ok hc
  obtain ⟨s3, hs3, rfl⟩ := order_ok ho
  cases ht
  exact ⟨u, p, selected, predicate, order, s1, s2, s3, hf, hs1, hs2, hs3, rfl, rfl⟩

/-- An update: its clauses are lowered in the scope that its target leaves. -/
theorem update_ok {x : Update} {out : Sql.Update} (h : update m x pass = .ok out pass') :
    ∃ u p assignments predicate s1 s2, root m x.target pass = .ok u p ∧
      x.assignments.mapM (p.scope.assignment m) p.supply = .ok assignments s1 ∧
      p.scope.condition m x.condition s1 = .ok predicate s2 ∧
      out = ⟨⟨p.scope.spaces⟩, assignments, predicate, s2.parameters⟩ ∧
      pass'.scope.index = p.scope.index := by
  simp only [update, expecting_visitRoot, EStateM.bind_eq_ok, EStateM.pure_eq_ok] at h
  obtain ⟨u, p, hr, assignments, _, ha, predicate, _, hc, spaces, _, ht, parameters, _, hp, rfl,
    rfl⟩ := h
  obtain ⟨s1, hs1, rfl⟩ := clause_ok ha
  obtain ⟨s2, hs2, rfl⟩ := clause_ok hc
  cases ht
  cases hp
  exact ⟨u, p, assignments, predicate, s1, s2, hr, hs1, hs2, rfl, rfl⟩

/-- A deletion: its condition is lowered in the scope that its target leaves. -/
theorem delete_ok {x : Delete} {out : Sql.Delete} (h : delete m x pass = .ok out pass') :
    ∃ u p predicate s1, root m x.target pass = .ok u p ∧
      p.scope.condition m x.condition p.supply = .ok predicate s1 ∧
      out = ⟨⟨p.scope.spaces⟩, predicate, s1.parameters⟩ ∧ pass'.scope.index = p.scope.index := by
  simp only [delete, expecting_visitRoot, EStateM.bind_eq_ok, EStateM.pure_eq_ok] at h
  obtain ⟨u, p, hr, predicate, _, hc, spaces, _, ht, parameters, _, hp, rfl, rfl⟩ := h
  obtain ⟨s1, hs1, rfl⟩ := clause_ok hc
  cases ht
  cases hp
  exact ⟨u, p, predicate, s1, hr, hs1, rfl, rfl⟩

end Step

/-! ## Whole passes -/

/-- The condition of a statement. -/
def Statement.condition : Statement → Option Predicate
  | .select q => q.condition
  | .update u => u.condition
  | .delete d => d.condition

/-- The condition of a lowered statement. -/
def Sql.Statement.predicate : Sql.Statement → Option Sql.Predicate
  | .select s => s.query.predicate
  | .update u => u.predicate
  | .delete d => d.predicate

/-- Registers the from-elements of a statement, with the conditions of its joins. -/
def Step.fromElements (m : Metamodel) : Statement → Step Unit
  | .select q => fromClause m q.fromClause
  | .update u => root m u.target
  | .delete d => root m d.target

/-- What a statement lowers between its from-elements and its condition. -/
def Scope.values (s : Scope) (m : Metamodel) : Statement → Clause Unit
  | .select q => do let _ ← s.selected m q.select
  | .update u => do let _ ← u.assignments.mapM (s.assignment m)
  | .delete _ => pure ()

/-- The from-elements of a lowered statement, with the tables they stand for. -/
def Lowered.scope (l : Lowered) : Scope := ⟨l.index, l.statement.fromClause.spaces⟩

/-- The clauses of a lowered statement behind its from clause are those of the statement, lowered one
after the other in the given scope. -/
def Scope.Clauses (s : Scope) (m : Metamodel) : Statement → Sql.Statement → Prop
  | .select q, .select out => ∃ s0 s1 s2 s3,
    s.selected m q.select s0 = .ok (out.query.distinct, out.query.selections) s1 ∧
    s.condition m q.condition s1 = .ok out.query.predicate s2 ∧
    s.ordered m q.order s2 = .ok out.query.order s3
  | .update u, .update out => ∃ s0 s1 s2,
    u.assignments.mapM (s.assignment m) s0 = .ok out.assignments s1 ∧
    s.condition m u.condition s1 = .ok out.predicate s2
  | .delete d, .delete out => ∃ s0 s1, s.condition m d.condition s0 = .ok out.predicate s1
  | _, _ => False

theorem lowerWith_run {settings : Settings} {m : Metamodel} {s : Statement} {l : Lowered}
    (h : lowerWith settings m s = .ok l) :
    settings.faults = [] ∧ ∃ pass, Step.statement m s (.start settings) = .ok l.statement pass ∧
      l.index = pass.scope.index := by
  unfold lowerWith at h
  split at h
  case h_2 => cases h
  rename_i hfaults
  split at h
  case h_2 => cases h
  rename_i statement pass hs
  cases h
  exact ⟨hfaults, pass, hs, rfl⟩

/-- A statement of any kind is lowered in the scope that its from-elements leave, which is the
scope it is lowered to. -/
theorem lowerWith_ok {settings : Settings} {m : Metamodel} {s : Statement} {l : Lowered}
    (h : lowerWith settings m s = .ok l) :
    settings.faults = [] ∧ ∃ u p s1 s2, Step.fromElements m s (.start settings) = .ok u p ∧
      l.scope = p.scope ∧ p.scope.values m s p.supply = .ok () s1 ∧
      p.scope.condition m s.condition s1 = .ok l.statement.predicate s2 := by
  obtain ⟨statement, index⟩ := l
  obtain ⟨hfaults, pass, hs, rfl⟩ := lowerWith_run h
  refine ⟨hfaults, ?_⟩
  cases s with
  | select q =>
    simp only [Step.statement_select, EStateM.bind_eq_ok, EStateM.pure_eq_ok] at hs
    obtain ⟨out, _, hq, _, _, ht, rfl, rfl⟩ := hs
    obtain ⟨u, p, selected, _, _, s1, s2, _, hf, hsel, hc, -, rfl, rfl⟩ := Step.query_ok hq
    cases ht
    exact ⟨u, p, s1, s2, hf, rfl, EStateM.bind_eq_ok.2 ⟨selected, s1, hsel, rfl⟩, hc⟩
  | update x =>
    simp only [Step.statement_update, EStateM.bind_eq_ok, EStateM.pure_eq_ok] at hs
    obtain ⟨out, _, hu, rfl, rfl⟩ := hs
    obtain ⟨u, p, assignments, _, s1, s2, hr, ha, hc, rfl, hi⟩ := Step.update_ok hu
    refine ⟨u, p, s1, s2, hr, ?_, EStateM.bind_eq_ok.2 ⟨assignments, s1, ha, rfl⟩, hc⟩
    simp only [Lowered.scope, hi, Sql.Statement.fromClause]
  | delete x =>
    simp only [Step.statement_delete, EStateM.bind_eq_ok, EStateM.pure_eq_ok] at hs
    obtain ⟨out, _, hd, rfl, rfl⟩ := hs
    obtain ⟨u, p, _, s1, hr, hc, rfl, hi⟩ := Step.delete_ok hd
    refine ⟨u, p, p.supply, s1, hr, ?_, rfl, hc⟩
    simp only [Lowered.scope, hi, Sql.Statement.fromClause]

theorem lowerWith_clauses {settings : Settings} {m : Metamodel} {s : Statement} {l : Lowered}
    (h : lowerWith settings m s = .ok l) : l.scope.Clauses m s l.statement := by
  obtain ⟨statement, index⟩ := l
  obtain ⟨-, pass, hs, rfl⟩ := lowerWith_run h
  cases s with
  | select q =>
    simp only [Step.statement_select, EStateM.bind_eq_ok, EStateM.pure_eq_ok] at hs
    obtain ⟨out, _, hq, _, _, ht, rfl, rfl⟩ := hs
    obtain ⟨u, p, selected, _, _, s1, s2, s3, -, hsel, hc, ho, rfl, rfl⟩ := Step.query_ok hq
    cases ht
    exact ⟨p.supply, s1, s2, s3, hsel, hc, ho⟩
  | update x =>
    simp only [Step.statement_update, EStateM.bind_eq_ok, EStateM.pure_eq_ok] at hs
    obtain ⟨out, _, hu, rfl, rfl⟩ := hs
    obtain ⟨u, p, assignments, _, s1, s2, -, ha, hc, rfl, hi⟩ := Step.update_ok hu
    simp only [Lowered.scope, hi, Sql.Statement.fromClause]
    exact ⟨p.supply, s1, s2, ha, hc⟩
  | delete x =>
    simp only [Step.statement_delete, EStateM.bind_eq_ok, EStateM.pure_eq_ok] at hs
    obtain ⟨out, _, hd, rfl, rfl⟩ := hs
    obtain ⟨u, p, _, s1, -, hc, rfl, hi⟩ := Step.delete_ok hd
    simp only [Lowered.scope, hi, Sql.Statement.fromClause]
    exact ⟨p.supply, s1, hc⟩

end EntityQuery
