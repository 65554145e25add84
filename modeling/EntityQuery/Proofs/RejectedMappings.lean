import EntityQuery.Proofs.Entities
import EntityQuery.Proofs.Failures

/-!
# Mappings that are refused

Entities may be offered for registration one after the other, and those that are refused passed over.
`Registration.enter` is the registration of one entity step by step, as it changes the database under
way: what it has done before it fails would stay. It looks at the name and at the tables of a mapping
before it adds anything, so that it fails without a trace (`enter_eq`).

`rejected_leave_no_trace`: after any mappings have been offered, what is built is what the accepted ones
alone give. A mapping is accepted exactly if it has a table and a name that no accepted one has.
-/

set_option autoImplicit false

namespace EntityQuery

namespace Registration

/-! ## Registration step by step -/

/-- Steps of a registration; a failing step keeps the changes made so far. -/
abbrev Step := EStateM MetamodelError Registration

/-- The table that an expression stands for. -/
def placed (expression : String) : Step TableId := fun r =>
  let (id, database) := r.database.tableFor expression
  .ok id { r with database }

/-- One more entity. -/
def enter (m : EntityMapping) : Step Unit := do
  if (← get).pending.any (·.name = m.name) then throw (.invalid (.registeredTwice m.name))
  match m.tables with
  | [] => throw (.malformed m.name .noTables)
  | first :: rest =>
    let primary ← placed first
    let more ← rest.mapM placed
    let entity := ⟨m.name, m.parent, primary, more, m.identifier, m.attributes⟩
    modify fun r => { r with pending := r.pending ++ [entity] }

/-- Entities offered one after the other: those that are accepted, and what is registered in the end.
Those that are refused are passed over, with what they have changed. -/
def offer (r : Registration) : List EntityMapping → List EntityMapping × Registration
  | [] => ([], r)
  | m :: ms =>
    match enter m r with
    | .ok _ r' =>
      let (accepted, r'') := r'.offer ms
      (m :: accepted, r'')
    | .error _ r' => r'.offer ms

/-- The entities that are accepted of those offered. -/
def accepted (ms : List EntityMapping) : List EntityMapping := (empty.offer ms).1

/-- What is registered when entities have been offered. -/
def offered (ms : List EntityMapping) : Registration := (empty.offer ms).2

/-! ## Nothing is changed before it is accepted -/

theorem mapM_placed (expressions : List String) (r : Registration) :
    expressions.mapM placed r = .ok (Database.tablesFor expressions r.database).1
      { r with database := (Database.tablesFor expressions r.database).2 } := by
  induction expressions generalizing r with
  | nil => rfl
  | cons expression rest ih =>
    rw [List.mapM_cons, EStateM.bind_eq_ok]
    refine ⟨_, _, rfl, ?_⟩
    rw [EStateM.bind_eq_ok]
    exact ⟨_, _, ih _, rfl⟩

/-- The steps of a registration come to the registration as a whole, and leave nothing behind where it
fails. -/
theorem enter_eq (m : EntityMapping) (r : Registration) :
    enter m r = match r.register m with
      | .ok r' => .ok () r'
      | .error e => .error e r := by
  unfold enter register
  by_cases hname : r.pending.any (·.name = m.name)
  · rw [if_pos hname, EStateM.bind_eq_error]
    refine .inr ⟨r, r, rfl, ?_⟩
    rw [if_pos hname]
    rfl
  · rw [if_neg hname]
    cases m.tables with
    | nil =>
      rw [EStateM.bind_eq_error]
      refine .inr ⟨r, r, rfl, ?_⟩
      rw [if_neg hname]
      rfl
    | cons first rest =>
      rw [EStateM.bind_eq_ok]
      refine ⟨r, r, rfl, ?_⟩
      rw [if_neg hname, EStateM.bind_eq_ok]
      refine ⟨_, _, rfl, ?_⟩
      rw [EStateM.bind_eq_ok]
      exact ⟨_, _, mapM_placed rest _, rfl⟩

theorem enter_ok {m : EntityMapping} {r r' : Registration} :
    enter m r = .ok () r' ↔ r.register m = .ok r' := by
  rw [enter_eq]
  cases r.register m <;> simp

theorem enter_error {m : EntityMapping} {r r' : Registration} {e : MetamodelError}
    (h : enter m r = .error e r') : r' = r := by
  rw [enter_eq] at h
  cases hr : r.register m with
  | ok _ => simp [hr] at h
  | error _ =>
    rw [hr] at h
    cases h
    rfl

/-- An entity is accepted if it has a table, and its name is new. -/
theorem register_ok_iff {m : EntityMapping} {r : Registration} :
    (∃ r', r.register m = .ok r') ↔ m.tables ≠ [] ∧ ∀ p ∈ r.pending, p.name ≠ m.name := by
  unfold register
  by_cases hname : r.pending.any (·.name = m.name)
  · rw [if_pos hname]
    obtain ⟨p, hp, heq⟩ := List.any_eq_true.1 hname
    refine ⟨nofun, fun ⟨_, hnew⟩ => ?_⟩
    exact absurd (of_decide_eq_true heq) (hnew p hp)
  · rw [if_neg hname]
    have hnew : ∀ p ∈ r.pending, p.name ≠ m.name := by simpa using hname
    cases m.tables with
    | nil => exact ⟨nofun, fun ⟨hne, _⟩ => absurd rfl hne⟩
    | cons first rest => exact ⟨fun _ => ⟨by simp, hnew⟩, fun _ => ⟨_, rfl⟩⟩

/-! ## Offers -/

/-- What is registered after an offer is what the accepted entities alone give. -/
theorem registerAll_offer (ms : List EntityMapping) (r : Registration) :
    r.registerAll (r.offer ms).1 = .ok (r.offer ms).2 := by
  induction ms generalizing r with
  | nil => rfl
  | cons m ms ih =>
    rw [offer]
    cases hm : enter m r with
    | ok _ r' =>
      rw [registerAll, enter_ok.1 hm]
      exact ih r'
    | error e r' =>
      cases enter_error hm
      exact ih r

theorem registerAll_accepted (ms : List EntityMapping) :
    empty.registerAll (accepted ms) = .ok (offered ms) := registerAll_offer ms empty

/-- The names that are taken are those of the accepted entities. -/
theorem offered_free_iff {ms : List EntityMapping} {name : String} :
    (∀ p ∈ (offered ms).pending, p.name ≠ name) ↔ ∀ a ∈ accepted ms, a.name ≠ name := by
  have hof := registered (registerAll_accepted ms)
  constructor
  · intro hfree a ha
    obtain ⟨p, hp, hpa⟩ := hof.exists_right ha
    rw [← hpa.name]
    exact hfree p hp
  · intro hfree p hp
    obtain ⟨a, ha, hpa⟩ := hof.exists_left hp
    rw [hpa.name]
    exact hfree a ha

end Registration

open Registration in
/-- Whatever entities are offered, what is registered in the end is what the accepted ones alone give,
and so is what is built from it, or the error. Each of them is accepted exactly if it has a table and no
entity accepted before it has its name, and otherwise changes nothing. -/
theorem rejected_leave_no_trace (ms : List EntityMapping) :
    empty.registerAll (accepted ms) = .ok (offered ms) ∧
    (offered ms).build = (do (← empty.registerAll (accepted ms)).build) ∧
    ∀ before m after, ms = before ++ m :: after →
      ((∃ r, enter m (offered before) = .ok () r) ↔
        m.tables ≠ [] ∧ ∀ a ∈ accepted before, a.name ≠ m.name) ∧
      ∀ e r, enter m (offered before) = .error e r → r = offered before := by
  refine ⟨registerAll_accepted ms, ?_, fun before m after _ => ⟨?_, fun e r => enter_error⟩⟩
  · rw [registerAll_accepted]
    rfl
  · simp only [enter_ok, register_ok_iff, offered_free_iff]

end EntityQuery
