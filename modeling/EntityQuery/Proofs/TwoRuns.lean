import EntityQuery.Proofs.Run

/-!
# Two runs side by side

Two runs agree when both fail, or when both succeed with related results (`Except.Agree`,
`EStateM.Agree`). What they fail with is not compared, unless it is said how (`Except.Related`,
`EStateM.Coupled`). Runs that are put together from runs that agree do so too (`bind`).
-/

set_option autoImplicit false

namespace Except

variable {ε α β γ δ : Type}

/-- Both fail, or both succeed with related values. -/
inductive Agree (R : α → β → Prop) : Except ε α → Except ε β → Prop
  | ok {a : α} {b : β} (related : R a b) : Agree R (.ok a) (.ok b)
  | error {e e' : ε} : Agree R (.error e) (.error e')

theorem Agree.refl (x : Except ε α) : Agree Eq x x := by
  cases x with
  | ok a => exact .ok rfl
  | error e => exact .error

theorem Agree.of_eq {x y : Except ε α} (h : x = y) : Agree Eq x y := h ▸ .refl x

theorem Agree.imp {R Q : α → β → Prop} {x : Except ε α} {y : Except ε β} (h : Agree R x y)
    (hRQ : ∀ a b, R a b → Q a b) : Agree Q x y := by
  cases h with
  | ok related => exact .ok (hRQ _ _ related)
  | error => exact .error

theorem Agree.bind {R : α → β → Prop} {Q : γ → δ → Prop} {x : Except ε α} {y : Except ε β}
    {f : α → Except ε γ} {g : β → Except ε δ} (h : Agree R x y)
    (hf : ∀ a b, R a b → Agree Q (f a) (g b)) : Agree Q (x >>= f) (y >>= g) := by
  cases h with
  | ok related => exact hf _ _ related
  | error => exact .error

theorem Agree.of_ok {R : α → β → Prop} {x : Except ε α} {y : Except ε β} {a : α}
    (h : Agree R x y) (hx : x = .ok a) : ∃ b, y = .ok b ∧ R a b := by
  subst hx
  cases h with
  | ok related => exact ⟨_, rfl, related⟩

/-- Both fail with related errors, or both succeed with related values. -/
inductive Related (E : ε → ε → Prop) (R : α → β → Prop) : Except ε α → Except ε β → Prop
  | ok {a : α} {b : β} (related : R a b) : Related E R (.ok a) (.ok b)
  | error {e e' : ε} (related : E e e') : Related E R (.error e) (.error e')

theorem Related.of_eq {E : ε → ε → Prop} (hE : ∀ e, E e e) {x y : Except ε α} (h : x = y) :
    Related E Eq x y := by
  subst h
  cases x with
  | ok a => exact .ok rfl
  | error e => exact .error (hE e)

theorem Related.bind {E : ε → ε → Prop} {R : α → β → Prop} {Q : γ → δ → Prop} {x : Except ε α}
    {y : Except ε β} {f : α → Except ε γ} {g : β → Except ε δ} (h : Related E R x y)
    (hf : ∀ {a b}, x = .ok a → R a b → Related E Q (f a) (g b)) :
    Related E Q (x >>= f) (y >>= g) := by
  cases h with
  | ok related => exact hf rfl related
  | error related => exact .error related

/-- Runs on a list succeed with related results, where those on its elements do. -/
theorem mapM_of_ok {R : β → γ → Prop} {f : α → Except ε β} {g : α → Except ε γ} :
    ∀ {xs : List α} {ys : List β}, xs.mapM f = .ok ys →
      (∀ x ∈ xs, ∀ y, f x = .ok y → ∃ z, g x = .ok z ∧ R y z) →
      ∃ zs, xs.mapM g = .ok zs ∧ List.Forall₂ R ys zs
  | [], ys, h, _ => by
    cases h
    exact ⟨[], rfl, .nil⟩
  | x :: xs, ys, h, hstep => by
    simp only [List.mapM_cons, bind_eq_ok, pure_eq_ok] at h ⊢
    obtain ⟨y, hy, ys', hys, rfl⟩ := h
    obtain ⟨z, hz, hyz⟩ := hstep x List.mem_cons_self y hy
    obtain ⟨zs, hzs, hall⟩ := mapM_of_ok hys fun x' hx' => hstep x' (List.mem_cons_of_mem x hx')
    exact ⟨z :: zs, ⟨z, hz, zs, hzs, rfl⟩, .cons hyz hall⟩

variable {ε' : Type}

/-- The outcome under other errors and values. -/
def bimap (e : ε → ε') (r : α → β) : Except ε α → Except ε' β
  | .ok a => .ok (r a)
  | .error x => .error (e x)

theorem bind_bimap {e : ε → ε'} {r : α → β} {r' : γ → δ} {x : Except ε α} {y : Except ε' β}
    {f : α → Except ε γ} {g : β → Except ε' δ} (h : y = x.bimap e r)
    (hf : ∀ a, x = .ok a → g (r a) = (f a).bimap e r') : (y >>= g) = (x >>= f).bimap e r' := by
  subst h
  cases x with
  | ok a => exact hf a rfl
  | error _ => rfl

theorem mapM_bimap {e : ε → ε'} {r : β → γ} {f : α → Except ε β} {g : α → Except ε' γ}
    (h : ∀ a, g a = (f a).bimap e r) : ∀ xs : List α, xs.mapM g = (xs.mapM f).bimap e (List.map r)
  | [] => rfl
  | a :: xs => by
    rw [List.mapM_cons, List.mapM_cons]
    exact bind_bimap (h a) fun _ _ => bind_bimap (mapM_bimap h xs) fun _ _ => rfl

end Except

namespace EStateM

variable {ε σ τ α β γ δ : Type}

/-- Both fail, or both succeed with related values in related states. -/
inductive Agree (R : α → σ → β → τ → Prop) : Result ε σ α → Result ε τ β → Prop
  | ok {a : α} {s : σ} {b : β} {t : τ} (related : R a s b t) : Agree R (.ok a s) (.ok b t)
  | error {e : ε} {s : σ} {e' : ε} {t : τ} : Agree R (.error e s) (.error e' t)

variable {R : α → σ → β → τ → Prop}

theorem Agree.imp {Q : α → σ → β → τ → Prop} {x : Result ε σ α} {y : Result ε τ β}
    (h : Agree R x y) (hRQ : ∀ a s b t, R a s b t → Q a s b t) : Agree Q x y := by
  cases h with
  | ok related => exact .ok (hRQ _ _ _ _ related)
  | error => exact .error

theorem Agree.bind {Q : γ → σ → δ → τ → Prop} {x : EStateM ε σ α} {y : EStateM ε τ β}
    {f : α → EStateM ε σ γ} {g : β → EStateM ε τ δ} {s : σ} {t : τ} (h : Agree R (x s) (y t))
    (hf : ∀ a s' b t', R a s' b t' → Agree Q (f a s') (g b t')) :
    Agree Q ((x >>= f) s) ((y >>= g) t) := by
  simp only [Bind.bind, EStateM.bind]
  generalize x s = rx at h
  generalize y t = ry at h
  cases h with
  | ok related => exact hf _ _ _ _ related
  | error => exact .error

theorem Agree.get_bind {Q : γ → σ → δ → τ → Prop} {f : σ → EStateM ε σ γ} {g : τ → EStateM ε τ δ}
    {s : σ} {t : τ} (h : Agree Q (f s s) (g t t)) : Agree Q ((get >>= f) s) ((get >>= g) t) :=
  h

/-- Where both succeed, they do so with their own results. -/
theorem Agree.with_runs {x : Result ε σ α} {y : Result ε τ β} (h : Agree R x y) :
    Agree (fun a s b t => R a s b t ∧ x = .ok a s ∧ y = .ok b t) x y := by
  cases h with
  | ok related => exact .ok ⟨related, rfl, rfl⟩
  | error => exact .error

theorem Agree.of_ok {x : Result ε σ α} {y : Result ε τ β} {a : α} {s : σ} (h : Agree R x y)
    (hx : x = .ok a s) : ∃ b t, y = .ok b t ∧ R a s b t := by
  subst hx
  cases h with
  | ok related => exact ⟨_, _, rfl, related⟩

variable {ε' : Type}

/-- Both fail with related errors, or both succeed with related values in related states. -/
inductive Related (E : ε → ε' → Prop) (R : α → σ → β → τ → Prop) :
    Result ε σ α → Result ε' τ β → Prop
  | ok {a : α} {s : σ} {b : β} {t : τ} (related : R a s b t) : Related E R (.ok a s) (.ok b t)
  | error {e : ε} {s : σ} {e' : ε'} {t : τ} (related : E e e') :
      Related E R (.error e s) (.error e' t)

theorem Related.agree {E : ε → ε → Prop} {x : Result ε σ α} {y : Result ε τ β}
    (h : Related E R x y) : Agree R x y := by
  cases h with
  | ok related => exact .ok related
  | error _ => exact .error

/-- From related states, both fail with related errors, or both succeed with related values and in
related states again. -/
structure Coupled (S : σ → τ → Prop) (E : ε → ε' → Prop) (R : α → β → Prop) (x : EStateM ε σ α)
    (y : EStateM ε' τ β) : Prop where
  run : ∀ {s t}, S s t → Related E (fun a s' b t' => R a b ∧ S s' t') (x s) (y t)

namespace Coupled

variable {S : σ → τ → Prop} {E : ε → ε' → Prop} {R : α → β → Prop} {Q : γ → δ → Prop}

theorem pure {a : α} {b : β} (h : R a b) :
    Coupled S E R (Pure.pure a : EStateM ε σ α) (Pure.pure b : EStateM ε' τ β) :=
  ⟨fun hs => .ok ⟨h, hs⟩⟩

theorem bind {x : EStateM ε σ α} {y : EStateM ε' τ β} {f : α → EStateM ε σ γ}
    {g : β → EStateM ε' τ δ} (h : Coupled S E R x y)
    (hf : ∀ {a b}, R a b → Coupled S E Q (f a) (g b)) : Coupled S E Q (x >>= f) (y >>= g) := by
  refine ⟨fun {s t} hs => ?_⟩
  have hrun := h.run hs
  simp only [Bind.bind, EStateM.bind]
  generalize x s = rx at hrun
  generalize y t = ry at hrun
  cases hrun with
  | ok related => exact (hf related.1).run related.2
  | error related => exact .error related

/-- After the same value, what follows need not be compared for others. -/
theorem bind_eq {x : EStateM ε σ α} {y : EStateM ε' τ α} {f : α → EStateM ε σ γ}
    {g : α → EStateM ε' τ δ} (h : Coupled S E Eq x y) (hf : ∀ a, Coupled S E Q (f a) (g a)) :
    Coupled S E Q (x >>= f) (y >>= g) := by
  refine h.bind fun {a b} hab => ?_
  subst hab
  exact hf a

theorem imp {P : α → β → Prop} {x : EStateM ε σ α} {y : EStateM ε' τ β} (h : Coupled S E R x y)
    (hRP : ∀ a b, R a b → P a b) : Coupled S E P x y := by
  refine ⟨fun {s t} hs => ?_⟩
  have hrun := h.run hs
  generalize x s = rx at hrun
  generalize y t = ry at hrun
  cases hrun with
  | ok related => exact .ok ⟨hRP _ _ related.1, related.2⟩
  | error related => exact .error related

theorem map {x : EStateM ε σ α} {y : EStateM ε' τ β} {f : α → γ} {g : β → δ}
    (h : Coupled S E R x y) (hf : ∀ {a b}, R a b → Q (f a) (g b)) :
    Coupled S E Q (f <$> x) (g <$> y) := by
  rw [map_eq_pure_bind, map_eq_pure_bind]
  exact h.bind fun hab => .pure (hf hab)

theorem mapM {R : γ → δ → Prop} {f : α → EStateM ε σ γ} {g : β → EStateM ε' τ δ} {r : α → β} :
    ∀ {xs : List α}, (∀ a ∈ xs, Coupled S E R (f a) (g (r a))) →
      Coupled S E (List.Forall₂ R) (xs.mapM f) ((xs.map r).mapM g)
  | [], _ => .pure .nil
  | a :: xs, h => by
    obtain ⟨ha, hxs⟩ := List.forall_mem_cons.1 h
    simp only [List.map_cons, List.mapM_cons]
    exact ha.bind fun hc => (mapM hxs).bind fun hcs => .pure (.cons hc hcs)

/-- Loops over lists that correspond. -/
theorem forM {P : α → β → Prop} {R : PUnit → PUnit → Prop} {f : α → EStateM ε σ PUnit}
    {g : β → EStateM ε' τ PUnit} {xs : List α} {ys : List β} (hxs : List.Forall₂ P xs ys)
    (h : ∀ {a b}, P a b → Coupled S E R (f a) (g b)) :
    Coupled S E (fun _ _ => True) (xs.forM f) (ys.forM g) := by
  induction hxs with
  | nil => exact .pure trivial
  | cons hab _ ih => exact (h hab).bind fun _ => ih

theorem forM_same {R : PUnit → PUnit → Prop} {f : α → EStateM ε σ PUnit}
    {g : α → EStateM ε' τ PUnit} (h : ∀ a, Coupled S E R (f a) (g a)) (xs : List α) :
    Coupled S E (fun _ _ => True) (xs.forM f) (xs.forM g) := by
  refine .forM (P := Eq) (R := R) (List.forall₂_same.2 fun _ _ => rfl) fun {a b} hab => ?_
  subst hab
  exact h a

end Coupled

end EStateM
