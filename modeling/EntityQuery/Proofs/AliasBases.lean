import EntityQuery.Proofs.Keys
import EntityQuery.Proofs.TableGroup

/-!
# Calls for alias bases

Alias bases are asked for one after the other and in any order: for a from-element, which keeps the one
that it was given, and for none, which gives a new one each time. So some calls make an alias base and the
others repeat one (`AliasBases.Call.makes`).

`AliasBases.Tracks` says how the answers so far and the alias bases that are kept belong together. A call
preserves it (`Tracks.step`), so a run does (`Tracks.run`). `alias_bases_repeat_by_name` reads off it what
the answers of a run are.
-/

set_option autoImplicit false

namespace EntityQuery

namespace AliasBases

/-! ## Assigned alias bases -/

theorem assigned?_cons (stem : String) (count : Nat) (assigned : List (String × String))
    (name other base : String) :
    assigned? ⟨stem, count, (name, base) :: assigned⟩ other =
      if other = name then some base else assigned? ⟨stem, count, assigned⟩ other := by
  rw [assigned?, List.lookup_cons, beq_eq_decide]
  by_cases h : other = name
  · simp [h]
  · simp [h, assigned?]

theorem isSome_assigned?_cons (stem : String) (count : Nat) (assigned : List (String × String))
    (name other base : String) :
    (assigned? ⟨stem, count, (name, base) :: assigned⟩ other).isSome ↔
      other = name ∨ (assigned? ⟨stem, count, assigned⟩ other).isSome := by
  rw [assigned?_cons]
  by_cases h : other = name
  · simp [h]
  · simp [h]

theorem baseFor_old {bases : AliasBases} {name base : String} (h : bases.assigned? name = some base) :
    bases.baseFor name = (base, bases) := by
  rw [baseFor, h]

theorem baseFor_new {bases : AliasBases} {name : String} (h : bases.assigned? name = none) :
    bases.baseFor name = (base bases.stem (bases.count + 1),
      ⟨bases.stem, bases.count + 1, (name, base bases.stem (bases.count + 1)) :: bases.assigned⟩) := by
  rw [baseFor, h]
  rfl

/-! ## Calls and runs -/

/-- What may be asked for: the alias base of a from-element, or one that belongs to none. -/
inductive Call
  | baseFor (name : String)
  | next
deriving DecidableEq

namespace Call

/-- The answer to a call, and the alias bases after it. -/
def run (bases : AliasBases) : Call → String × AliasBases
  | .baseFor name => bases.baseFor name
  | .next => bases.next

/-- Whether a call makes an alias base when earlier ones have been made: the first one for a from-element
does, and every one for none. -/
def makes (earlier : List Call) : Call → Bool
  | .baseFor name => decide (.baseFor name ∉ earlier)
  | .next => true

end Call

/-- The answers to calls made one after the other, and the alias bases after the last one. -/
def run (bases : AliasBases) : List Call → List String × AliasBases
  | [] => ([], bases)
  | call :: calls =>
    let (answer, bases) := call.run bases
    let (answers, bases) := bases.run calls
    (answer :: answers, bases)

/-- The answers to calls that start without alias bases. -/
def answers (stem : String) (calls : List Call) : List String := ((start stem).run calls).1

/-- The alias bases after calls that start without any. -/
def after (stem : String) (calls : List Call) : AliasBases := ((start stem).run calls).2

/-- The places of the calls that make an alias base, in order. -/
def makings (calls : List Call) : List Nat :=
  (List.range calls.length).filter fun i => calls[i]?.any (·.makes (calls.take i))

/-! ## Calls that make an alias base -/

variable {stem : String} {calls : List Call} {call : Call} {bases : AliasBases} {given : List String}
  {i k : Nat}

theorem mem_makings :
    i ∈ makings calls ↔ ∃ call, calls[i]? = some call ∧ call.makes (calls.take i) = true := by
  rw [makings, List.mem_filter, List.mem_range, Option.any_eq_true]
  constructor
  · rintro ⟨-, h⟩
    exact h
  · rintro ⟨call, hcall, hmakes⟩
    exact ⟨(List.getElem?_eq_some_iff.1 hcall).1, call, hcall, hmakes⟩

theorem makings_concat (calls : List Call) (call : Call) :
    makings (calls ++ [call]) =
      makings calls ++ if call.makes calls then [calls.length] else [] := by
  rw [makings, List.length_append, List.length_singleton, List.range_succ, List.filter_append]
  congr 1
  · refine List.filter_congr fun i hi => ?_
    have hlt := List.mem_range.1 hi
    rw [List.getElem?_append_left hlt, List.take_append_of_le_length (Nat.le_of_lt hlt)]
  · simp [List.filter_singleton]

/-- Behind every call is one that made its alias base: the first one for its from-element, or itself. -/
theorem exists_making (hcall : calls[i]? = some call) :
    ∃ j ∈ makings calls, calls[j]? = some call ∧ (call = .next → j = i) := by
  cases call with
  | next => exact ⟨i, mem_makings.2 ⟨.next, hcall, rfl⟩, hcall, fun _ => rfl⟩
  | baseFor name =>
    have hmem := List.mem_of_getElem? hcall
    have hfirst := List.getElem?_idxOf hmem
    have hnew : Call.baseFor name ∉ calls.take (calls.idxOf (.baseFor name)) := by
      rw [List.mem_take_iff_idxOf_lt hmem]
      exact Nat.lt_irrefl _
    exact ⟨_, mem_makings.2 ⟨_, hfirst, decide_eq_true hnew⟩, hfirst, by simp⟩

/-! ## What a run keeps -/

/-- The answers that calls were given, and the alias bases after them. As many alias bases have been made
as there are calls that make one, each has the number of its call among these, and all calls for a
from-element were given the alias base that it has. -/
structure Tracks (stem : String) (calls : List Call) (given : List String) (bases : AliasBases) :
    Prop where
  stem_eq : bases.stem = stem
  length : given.length = calls.length
  count : bases.count = (makings calls).length
  made : ∀ {k i : Nat}, (makings calls)[k]? = some i → given[i]? = some (base stem (k + 1))
  assigned : ∀ {i : Nat} {name : String}, calls[i]? = some (.baseFor name) →
    given[i]? = bases.assigned? name
  unassigned : ∀ {name : String}, .baseFor name ∉ calls → bases.assigned? name = none

theorem tracks_start (stem : String) : Tracks stem [] [] (start stem) :=
  ⟨rfl, rfl, rfl, by simp [makings], by simp, fun _ => rfl⟩

namespace Tracks

theorem given_old (h : Tracks stem calls given bases) (hcall : calls[i]? = some call)
    (answer : String) : (given ++ [answer])[i]? = given[i]? :=
  List.getElem?_append_left (h.length ▸ (List.getElem?_eq_some_iff.1 hcall).1)

theorem given_last (h : Tracks stem calls given bases) (answer : String) :
    (given ++ [answer])[calls.length]? = some answer := by
  rw [← h.length, List.getElem?_concat_length]

theorem made_old (h : Tracks stem calls given bases) (hk : (makings calls)[k]? = some i)
    (answer : String) : (given ++ [answer])[i]? = some (base stem (k + 1)) := by
  obtain ⟨call, hcall, -⟩ := mem_makings.1 (List.mem_of_getElem? hk)
  rw [h.given_old hcall, h.made hk]

theorem isSome_assigned?_iff (h : Tracks stem calls given bases) (name : String) :
    (bases.assigned? name).isSome ↔ .baseFor name ∈ calls := by
  constructor
  · intro hsome
    by_contra hnot
    rw [h.unassigned hnot] at hsome
    cases hsome
  · intro hmem
    obtain ⟨i, hi⟩ := List.mem_iff_getElem?.1 hmem
    have hlt := (List.getElem?_eq_some_iff.1 hi).1
    rw [← h.length] at hlt
    rw [← h.assigned hi, List.getElem?_eq_getElem hlt]
    rfl

/-- A call for a from-element that has an alias base. -/
theorem repeats (h : Tracks stem calls given bases) {name answer : String}
    (hname : bases.assigned? name = some answer) :
    Tracks stem (calls ++ [.baseFor name]) (given ++ [answer]) bases := by
  have hmem : .baseFor name ∈ calls := by
    rw [← h.isSome_assigned?_iff, hname]
    rfl
  have hmakings : makings (calls ++ [.baseFor name]) = makings calls := by
    simp [makings_concat, Call.makes, hmem]
  refine ⟨h.stem_eq, by simp [h.length], by rw [hmakings, h.count], fun hk => ?_, fun hi => ?_,
    fun hother => h.unassigned fun hold => hother (List.mem_append_left _ hold)⟩
  · rw [hmakings] at hk
    exact h.made_old hk answer
  · rcases List.getElem?_concat_cases hi with hold | ⟨rfl, hlast⟩
    · rw [h.given_old hold, h.assigned hold]
    · cases hlast
      rw [h.given_last, hname]

/-- A call that makes an alias base. -/
theorem makes (h : Tracks stem calls given bases) (hmakes : call.makes calls = true)
    {bases' : AliasBases} (hstem : bases'.stem = bases.stem) (hcount : bases'.count = bases.count + 1)
    (hassigned : ∀ name, bases'.assigned? name =
      if call = .baseFor name then some (base bases.stem (bases.count + 1)) else bases.assigned? name) :
    Tracks stem (calls ++ [call]) (given ++ [base bases.stem (bases.count + 1)]) bases' := by
  have hmakings : makings (calls ++ [call]) = makings calls ++ [calls.length] := by
    rw [makings_concat, if_pos hmakes]
  refine ⟨hstem.trans h.stem_eq, by simp [h.length], by simp [hmakings, hcount, h.count],
    fun hk => ?_, fun {i name} hi => ?_, fun {name} hname => ?_⟩
  · rw [hmakings] at hk
    rcases List.getElem?_concat_cases hk with hold | ⟨rfl, rfl⟩
    · exact h.made_old hold _
    · rw [h.given_last, h.stem_eq, h.count]
  · rcases List.getElem?_concat_cases hi with hold | ⟨rfl, rfl⟩
    · -- a from-element that was asked for before is not the one of this call
      have hne : call ≠ .baseFor name := by
        rintro rfl
        exact of_decide_eq_true hmakes (List.mem_of_getElem? hold)
      rw [h.given_old hold, h.assigned hold, hassigned, if_neg hne]
    · rw [h.given_last, hassigned, if_pos rfl]
  · have hne : call ≠ .baseFor name := by
      rintro rfl
      exact hname (List.mem_append_right _ (List.mem_singleton_self _))
    rw [hassigned, if_neg hne]
    exact h.unassigned fun hold => hname (List.mem_append_left _ hold)

theorem step (h : Tracks stem calls given bases) (call : Call) :
    Tracks stem (calls ++ [call]) (given ++ [(call.run bases).1]) (call.run bases).2 := by
  cases call with
  | next => exact h.makes rfl rfl rfl fun name => by simp [Call.run, next, assigned?]
  | baseFor name =>
    cases hname : bases.assigned? name with
    | some answer =>
      rw [Call.run, baseFor_old hname]
      exact h.repeats hname
    | none =>
      have hnew : .baseFor name ∉ calls := by
        rw [← h.isSome_assigned?_iff, hname]
        exact Bool.false_ne_true
      have hmakes : (Call.baseFor name).makes calls = true := decide_eq_true hnew
      rw [Call.run, baseFor_new hname]
      refine h.makes hmakes rfl rfl fun other => ?_
      rw [assigned?_cons]
      simp [eq_comm, assigned?]

theorem run (h : Tracks stem calls given bases) (later : List Call) :
    Tracks stem (calls ++ later) (given ++ (bases.run later).1) (bases.run later).2 := by
  induction later generalizing calls given bases with
  | nil => simpa [AliasBases.run] using h
  | cons call later ih => simpa [AliasBases.run] using ih (h.step call)

/-- Every call was given an alias base that a call like it made. -/
theorem given_base (h : Tracks stem calls given bases) (hcall : calls[i]? = some call) :
    ∃ k j, (makings calls)[k]? = some j ∧ calls[j]? = some call ∧ (call = .next → j = i) ∧
      given[i]? = some (base stem (k + 1)) := by
  obtain ⟨j, hmem, hj, hnext⟩ := exists_making hcall
  obtain ⟨k, hk⟩ := List.mem_iff_getElem?.1 hmem
  refine ⟨k, j, hk, hj, hnext, ?_⟩
  rw [← h.made hk]
  cases call with
  | next => rw [hnext rfl]
  | baseFor name => rw [h.assigned hcall, h.assigned hj]

theorem assigned?_eq (h : Tracks stem calls given bases) (name : String) :
    bases.assigned? name = (calls.idxOf? (.baseFor name)).bind (given[·]?) := by
  cases hfirst : calls.idxOf? (.baseFor name) with
  | none => exact h.unassigned (List.idxOf?_eq_none_iff.1 hfirst)
  | some i =>
    obtain ⟨hlt, hi, -⟩ := List.idxOf?_eq_some_iff.1 hfirst
    exact (h.assigned (List.getElem?_eq_some_iff.2 ⟨hlt, hi⟩)).symm

end Tracks

theorem tracks (stem : String) (calls : List Call) :
    Tracks stem calls (answers stem calls) (after stem calls) :=
  (tracks_start stem).run calls

end AliasBases

open AliasBases in
/-- Every run of calls that starts without alias bases. The alias bases are counted by the calls that make
one, and the one made by the `k`-th of these is the stem with the number `k`. Two calls are given the same
alias base exactly if both are for the same from-element. A from-element has the alias base that the first
call for it was given, and none if there was no call for it. -/
theorem alias_bases_repeat_by_name (stem : String) (calls : List Call) :
    (after stem calls).count = (makings calls).length ∧
    (∀ (k i : Nat), (makings calls)[k]? = some i →
      (answers stem calls)[i]? = some (stem ++ toString (k + 1))) ∧
    (∀ (i j : Nat) call call', i ≠ j → calls[i]? = some call → calls[j]? = some call' →
      ∃ answer answer', (answers stem calls)[i]? = some answer ∧
        (answers stem calls)[j]? = some answer' ∧
        (answer = answer' ↔ ∃ name, call = .baseFor name ∧ call' = .baseFor name)) ∧
    ∀ name, (after stem calls).assigned? name =
      (calls.idxOf? (.baseFor name)).bind fun i => (answers stem calls)[i]? := by
  have h := tracks stem calls
  refine ⟨h.count, fun k i hk => h.made hk, fun i j call call' hij hi hj => ?_, h.assigned?_eq⟩
  obtain ⟨k, p, hk, hp, hnext, hgiven⟩ := h.given_base hi
  obtain ⟨k', p', hk', hp', hnext', hgiven'⟩ := h.given_base hj
  refine ⟨_, _, hgiven, hgiven', fun heq => ?_, ?_⟩
  · -- equal alias bases have the same number, so the same call made them
    obtain rfl : k = k' := Nat.succ.inj (base_inj heq)
    obtain rfl : p = p' := Option.some.inj (hk.symm.trans hk')
    obtain rfl : call = call' := Option.some.inj (hp.symm.trans hp')
    cases call with
    | next => exact absurd ((hnext rfl).symm.trans (hnext' rfl)) hij
    | baseFor name => exact ⟨name, rfl, rfl⟩
  · rintro ⟨name, rfl, rfl⟩
    rw [← Option.some.injEq, ← hgiven, ← hgiven', h.assigned hi, h.assigned hj]

open AliasBases in
/-- A stem that ends in a digit, and a call that repeats an alias base between those that make one. -/
theorem bases_under_digit_stem :
    makings [.baseFor "p", .next, .baseFor "p", .baseFor "q"] = [0, 1, 3] ∧
    (answers "j1" [.baseFor "p", .next, .baseFor "p", .baseFor "q"])[3]? = some "j13" := by
  obtain ⟨-, hmade, -, -⟩ :=
    alias_bases_repeat_by_name "j1" [.baseFor "p", .next, .baseFor "p", .baseFor "q"]
  exact ⟨by decide, hmade 2 3 (by decide)⟩

end EntityQuery
