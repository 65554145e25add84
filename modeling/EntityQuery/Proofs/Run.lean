import Mathlib.Data.List.Forall2

/-!
# Runs that succeed

What the model computes may fail, in `Except` or in `EStateM`. A run that succeeds is taken apart
into the runs of its parts (`bind_eq_ok`), and what each step of a loop keeps, the loop keeps
(`EStateM.forM_inv`).
-/

set_option autoImplicit false

namespace Except

variable {ε α β : Type}

theorem bind_eq_ok {x : Except ε α} {f : α → Except ε β} {b : β} :
    (x >>= f) = .ok b ↔ ∃ a, x = .ok a ∧ f a = .ok b := by
  cases x <;> simp [bind, Except.bind]

theorem bind_eq_error {x : Except ε α} {f : α → Except ε β} {e : ε} :
    (x >>= f) = .error e ↔ x = .error e ∨ ∃ a, x = .ok a ∧ f a = .error e := by
  cases x <;> simp [bind, Except.bind]

theorem pure_eq_ok {a b : α} : (pure a : Except ε α) = .ok b ↔ a = b := by
  simp [pure, Except.pure]

theorem map_eq_ok {x : Except ε α} {f : α → β} {b : β} :
    (f <$> x) = .ok b ↔ ∃ a, x = .ok a ∧ f a = b := by
  cases x <;> simp [Functor.map, Except.map]

theorem throw_ne_ok {e : ε} {a : α} : (throw e : Except ε α) ≠ .ok a := nofun

/-- A run that goes on past a check has passed it. -/
theorem guard_eq_ok {p : Prop} [Decidable p] {e : ε} {f : α → Except ε β} {x : Except ε β} {b : β} :
    (if p then throw e >>= f else x) = .ok b ↔ ¬ p ∧ x = .ok b := by
  split <;> simp [*, bind, Except.bind, throw, throwThe, MonadExceptOf.throw]

theorem exists_ok_of_isSome {x : Except ε α} (h : x.toOption.isSome) : ∃ a, x = .ok a := by
  cases x with
  | ok a => exact ⟨a, rfl⟩
  | error e => simp [Except.toOption] at h

theorem toOption_eq_some {x : Except ε α} {a : α} : x.toOption = some a ↔ x = .ok a := by
  cases x <;> simp [Except.toOption]

/-- The results of a list of runs, each beside what it was run on. -/
theorem mapM_ok {f : α → Except ε β} :
    ∀ {xs : List α} {ys : List β}, xs.mapM f = .ok ys → List.Forall₂ (fun x y => f x = .ok y) xs ys
  | [], ys, h => by
    simp only [List.mapM_nil, pure_eq_ok] at h
    subst h
    exact .nil
  | x :: xs, ys, h => by
    simp only [List.mapM_cons, bind_eq_ok, pure_eq_ok] at h
    obtain ⟨y, hy, ys', hys, rfl⟩ := h
    exact .cons hy (mapM_ok hys)

theorem mapM_of {f : α → Except ε β} {xs : List α} {ys : List β}
    (h : List.Forall₂ (fun x y => f x = .ok y) xs ys) : xs.mapM f = .ok ys := by
  induction h with
  | nil => rfl
  | cons hx _ ih => simp only [List.mapM_cons, hx, ih]; rfl

/-- A list of runs fails as one of them does. -/
theorem mapM_error {f : α → Except ε β} {e : ε} :
    ∀ {xs : List α}, xs.mapM f = .error e → ∃ x ∈ xs, f x = .error e
  | [], h => by cases h
  | x :: xs, h => by
    simp only [List.mapM_cons, bind_eq_error] at h
    obtain hx | ⟨_, -, hxs | ⟨_, -, h⟩⟩ := h
    · exact ⟨x, List.mem_cons_self, hx⟩
    · obtain ⟨y, hy, hf⟩ := mapM_error hxs
      exact ⟨y, List.mem_cons_of_mem x hy, hf⟩
    · cases h

theorem forM_ok {f : α → Except ε PUnit} :
    ∀ {xs : List α}, xs.forM f = .ok () → ∀ x ∈ xs, f x = .ok ()
  | [], _ => by simp
  | x :: xs, h => by
    simp only [List.forM, bind_eq_ok] at h
    obtain ⟨_, hx, hxs⟩ := h
    intro y hy
    rcases List.mem_cons.1 hy with rfl | hy
    · exact hx
    · exact forM_ok hxs y hy

end Except

namespace EStateM

variable {ε σ α β : Type}

theorem bind_eq_ok {x : EStateM ε σ α} {f : α → EStateM ε σ β} {s t : σ} {b : β} :
    (x >>= f) s = .ok b t ↔ ∃ a s', x s = .ok a s' ∧ f a s' = .ok b t := by
  simp only [bind, EStateM.bind]
  cases x s <;> simp

theorem bind_eq_error {x : EStateM ε σ α} {f : α → EStateM ε σ β} {s t : σ} {e : ε} :
    (x >>= f) s = .error e t ↔ x s = .error e t ∨ ∃ a s', x s = .ok a s' ∧ f a s' = .error e t := by
  simp only [bind, EStateM.bind]
  cases x s <;> simp

theorem pure_eq_ok {a b : α} {s t : σ} : (pure a : EStateM ε σ α) s = .ok b t ↔ a = b ∧ s = t := by
  simp [pure, EStateM.pure]

theorem map_eq_ok {x : EStateM ε σ α} {f : α → β} {s t : σ} {b : β} :
    (f <$> x) s = .ok b t ↔ ∃ a, x s = .ok a t ∧ f a = b := by
  simp only [Functor.map, EStateM.map]
  cases x s <;> simp [and_comm]

theorem throw_ne_ok {e : ε} {s t : σ} {a : α} : (throw e : EStateM ε σ α) s ≠ .ok a t := nofun

/-- A run that goes on past a check has passed it. -/
theorem guard_eq_ok {p : Prop} [Decidable p] {e : ε} {f : α → EStateM ε σ β} {x : EStateM ε σ β}
    {s t : σ} {b : β} :
    (if p then throw e >>= f else x) s = .ok b t ↔ ¬ p ∧ x s = .ok b t := by
  by_cases hp : p
  · rw [if_pos hp, bind_eq_ok]
    simp [hp, throw_ne_ok]
  · simp [hp]

theorem get_eq_ok {s t u : σ} : (get : EStateM ε σ σ) s = .ok u t ↔ s = u ∧ s = t := by
  show Result.ok s s = .ok u t ↔ _
  rw [Result.ok.injEq]

theorem modify_eq_ok {f : σ → σ} {s t : σ} {u : PUnit} :
    (modify f : EStateM ε σ PUnit) s = .ok u t ↔ f s = t := by
  show Result.ok PUnit.unit (f s) = .ok u t ↔ _
  simp

theorem exists_ok_of_run' {x : EStateM ε σ α} {s : σ} {a : α} (h : x.run' s = some a) :
    ∃ t, x s = .ok a t := by
  delta EStateM.run' EStateM.run at h
  split at h
  · rename_i b t hx
    cases h
    exact ⟨t, hx⟩
  · cases h

/-- The state that a run ends in is the one that it is asked for behind it. -/
theorem exists_ok_of_get {x : EStateM ε σ PUnit} {s t : σ}
    (h : (do x; get : EStateM ε σ σ).run' s = some t) : ∃ u, x s = .ok u t := by
  obtain ⟨_, h⟩ := exists_ok_of_run' h
  obtain ⟨u, _, hx, hget⟩ := bind_eq_ok.1 h
  rw [(get_eq_ok.1 hget).1] at hx
  exact ⟨u, hx⟩

/-- What holds of a list of runs, together with their results and the states before and behind them:
it is seen run by run. -/
theorem mapM_cases {f : α → EStateM ε σ β} {P : List α → σ → List β → σ → Prop}
    (nil : ∀ {s}, P [] s [] s)
    (cons : ∀ {a as b bs s t u}, f a s = .ok b t → P as t bs u → P (a :: as) s (b :: bs) u) :
    ∀ {as : List α} {bs : List β} {s t : σ}, as.mapM f s = .ok bs t → P as s bs t
  | [], bs, s, t, h => by
    simp only [List.mapM_nil, pure_eq_ok] at h
    obtain ⟨rfl, rfl⟩ := h
    exact nil
  | a :: as, bs, s, t, h => by
    simp only [List.mapM_cons, bind_eq_ok, pure_eq_ok] at h
    obtain ⟨b, _, hb, bs', _, hbs, rfl, rfl⟩ := h
    exact cons hb (mapM_cases nil cons hbs)

theorem forM_inv_from {f : α → EStateM ε σ PUnit} {I : List α → σ → Prop}
    (step : ∀ {done a s t u}, I done s → f a s = .ok u t → I (done ++ [a]) t) :
    ∀ {xs done : List α} {s t : σ} {u : PUnit}, I done s → xs.forM f s = .ok u t → I (done ++ xs) t
  | [], done, s, t, u, hi, h => by
    simp only [List.forM, pure_eq_ok] at h
    obtain ⟨-, rfl⟩ := h
    simpa using hi
  | x :: xs, done, s, t, u, hi, h => by
    simp only [List.forM, bind_eq_ok] at h
    obtain ⟨_, s', hx, hxs⟩ := h
    simpa using forM_inv_from step (step hi hx) hxs

/-- What every step of a loop keeps, the loop keeps. The invariant may speak of the part of the
list that has been gone through. -/
theorem forM_inv {f : α → EStateM ε σ PUnit} (I : List α → σ → Prop)
    (step : ∀ {done a s t u}, I done s → f a s = .ok u t → I (done ++ [a]) t)
    {xs : List α} {s t : σ} {u : PUnit} (start : I [] s) (h : xs.forM f s = .ok u t) : I xs t :=
  forM_inv_from step start h

end EStateM
