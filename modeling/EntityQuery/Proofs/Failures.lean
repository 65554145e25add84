import EntityQuery.Proofs.Run

/-!
# Runs that fail

What a run may fail with is found from its steps, like what it does when it succeeds: a run whose
steps fail only with errors of some kind fails only with these (`FailsWith.bind`). A later step is
looked at where the steps before it have succeeded.

A failing run has a state as well (`EStateM.Result.state`).
-/

set_option autoImplicit false

namespace Except

variable {ε α β : Type} {P Q : ε → Prop}

/-- If the computation fails, then with one of the given errors. -/
structure FailsWith (P : ε → Prop) (x : Except ε α) : Prop where
  error : ∀ {e}, x = .error e → P e

namespace FailsWith

theorem of_ok {x : Except ε α} {a : α} (h : x = .ok a) : x.FailsWith P := by
  subst h
  exact ⟨nofun⟩

theorem of_error {e : ε} (h : P e) : (.error e : Except ε α).FailsWith P := by
  refine ⟨fun he => ?_⟩
  cases he
  exact h

theorem bind {x : Except ε α} {f : α → Except ε β} (hx : x.FailsWith P)
    (hf : ∀ {a}, x = .ok a → (f a).FailsWith P) : (x >>= f).FailsWith P := by
  refine ⟨fun he => ?_⟩
  obtain he | ⟨a, ha, he⟩ := bind_eq_error.1 he
  · exact hx.error he
  · exact (hf ha).error he

/-- What fails with no error succeeds. -/
theorem exists_ok {x : Except ε α} (h : x.FailsWith fun _ => False) : ∃ a, x = .ok a := by
  cases x with
  | ok a => exact ⟨a, rfl⟩
  | error e => exact (h.error rfl).elim

end FailsWith

end Except

namespace EStateM

variable {ε σ α β : Type} {P Q : ε → Prop} {s : σ}

/-- If the run fails, then with one of the given errors. -/
structure Result.FailsWith (P : ε → Prop) (r : Result ε σ α) : Prop where
  error : ∀ {e t}, r = .error e t → P e

namespace Result.FailsWith

theorem of_ok {r : Result ε σ α} {a : α} {t : σ} (h : r = .ok a t) : r.FailsWith P := by
  subst h
  exact ⟨nofun⟩

theorem of_error {e : ε} {t : σ} (h : P e) : (.error e t : Result ε σ α).FailsWith P := by
  refine ⟨fun he => ?_⟩
  cases he
  exact h

theorem mono {r : Result ε σ α} (h : r.FailsWith P) (hPQ : ∀ e, P e → Q e) : r.FailsWith Q :=
  ⟨fun he => hPQ _ (h.error he)⟩

/-- What fails with no error succeeds. -/
theorem exists_ok {r : Result ε σ α} (h : r.FailsWith fun _ => False) : ∃ a t, r = .ok a t := by
  cases r with
  | ok a t => exact ⟨a, t, rfl⟩
  | error e t => exact (h.error rfl).elim

theorem bind {x : EStateM ε σ α} {f : α → EStateM ε σ β} (hx : (x s).FailsWith P)
    (hf : ∀ {a t}, x s = .ok a t → (f a t).FailsWith P) : ((x >>= f) s).FailsWith P := by
  refine ⟨fun he => ?_⟩
  obtain he | ⟨a, t, ha, he⟩ := bind_eq_error.1 he
  · exact hx.error he
  · exact (hf ha).error he

/-- A check that is followed by more. -/
theorem guard {p : Prop} [Decidable p] {e : ε} {f : α → EStateM ε σ β} {x : EStateM ε σ β}
    (he : P e) (hx : ¬ p → (x s).FailsWith P) :
    ((if p then throw e >>= f else x) s).FailsWith P := by
  by_cases hp : p
  · rw [if_pos hp]
    exact of_error he
  · rw [if_neg hp]
    exact hx hp

/-- A check that is passed. -/
theorem pass {p : Prop} [Decidable p] {e : ε} {f : α → EStateM ε σ β} {x : EStateM ε σ β}
    (hp : ¬ p) (hx : (x s).FailsWith P) : ((if p then throw e >>= f else x) s).FailsWith P := by
  rw [if_neg hp]
  exact hx

theorem forM_from {f : α → EStateM ε σ PUnit} {I : List α → σ → Prop} {all : List α}
    (step : ∀ {done a s t u}, I done s → f a s = .ok u t → I (done ++ [a]) t)
    (fails : ∀ {done a rest s}, all = done ++ a :: rest → I done s → (f a s).FailsWith P) :
    ∀ (done xs : List α) {s : σ}, all = done ++ xs → I done s → (xs.forM f s).FailsWith P
  | _, [], _, _, _ => .of_ok rfl
  | done, x :: xs, _, hall, hi => .bind (fails hall hi) fun hx =>
      forM_from (I := I) step fails (done ++ [x]) xs (by simp [hall]) (step hi hx)

/-- A loop fails as one of its steps may, in the states that the invariant allows. -/
theorem forM {f : α → EStateM ε σ PUnit} (I : List α → σ → Prop) {xs : List α}
    (step : ∀ {done a s t u}, I done s → f a s = .ok u t → I (done ++ [a]) t)
    (fails : ∀ {done a rest s}, xs = done ++ a :: rest → I done s → (f a s).FailsWith P)
    (start : I [] s) : (xs.forM f s).FailsWith P :=
  forM_from (I := I) step fails [] xs rfl start

end Result.FailsWith

/-! ## How runs end -/

/-- The state that a run ends in, whether it succeeds or fails. -/
def Result.state : Result ε σ α → σ
  | .ok _ s => s
  | .error _ s => s

/-- A run of two steps ends where the first one fails, or where the second one ends. -/
theorem state_bind {R : σ → Prop} {x : EStateM ε σ α} {f : α → EStateM ε σ β}
    (herror : ∀ {e t}, x s = .error e t → R t)
    (hok : ∀ {a t}, x s = .ok a t → R (f a t).state) : R ((x >>= f) s).state := by
  simp only [Bind.bind, EStateM.bind]
  cases hx : x s with
  | ok a t => exact hok hx
  | error e t => exact herror hx

end EStateM
