import Mathlib.Data.List.Basic
import Mathlib.Data.List.Forall2
import Mathlib.Data.List.Nodup

/-!
# Lists with distinct keys, and lists related place by place

An entry of a list whose keys are pairwise distinct is found by its key (`List.find?_of_nodup`).
An element of a list has a partner in a list that is related to it place by place.
-/

set_option autoImplicit false

namespace List

variable {α κ β : Type} [DecidableEq κ]

theorem find?_of_nodup {f : α → κ} : ∀ {xs : List α} {x : α},
    (xs.map f).Nodup → x ∈ xs → xs.find? (f · = f x) = some x
  | [], _, _, hx => by simp at hx
  | y :: ys, x, hn, hx => by
    simp only [map_cons, nodup_cons] at hn
    rcases mem_cons.1 hx with rfl | hx
    · simp
    · have hne : f y ≠ f x := fun h => hn.1 (h ▸ mem_map_of_mem hx)
      rw [find?_cons_of_neg (by simpa using hne)]
      exact find?_of_nodup hn.2 hx

theorem lookup_eq_find? (k : κ) : ∀ (xs : List (κ × β)),
    xs.lookup k = (xs.find? (·.1 = k)).map (·.2)
  | [] => rfl
  | (k', b) :: xs => by
    by_cases h : k = k'
    · simp [h]
    · have hb : (k == k') = false := by simpa using h
      simp [lookup_cons, hb, find?, lookup_eq_find? k xs, Ne.symm h]

/-- What is at a place of a list with one more item at its end. -/
theorem getElem?_concat_cases {xs : List α} {x y : α} {i : Nat} (h : (xs ++ [x])[i]? = some y) :
    xs[i]? = some y ∨ i = xs.length ∧ x = y := by
  rcases Nat.lt_trichotomy i xs.length with hlt | rfl | hgt
  · rw [getElem?_append_left hlt] at h
    exact .inl h
  · rw [getElem?_concat_length] at h
    exact .inr ⟨rfl, Option.some.inj h⟩
  · have hnone : (xs ++ [x])[i]? = none := getElem?_eq_none (by simp; omega)
    rw [hnone] at h
    cases h

/-! ## Related lists -/

section

variable {R : α → β → Prop} {xs : List α} {ys : List β}

theorem Forall₂.exists_right (h : Forall₂ R xs ys) {x : α} (hx : x ∈ xs) : ∃ y ∈ ys, R x y := by
  induction h with
  | nil => simp at hx
  | cons hxy _ ih =>
    rcases mem_cons.1 hx with rfl | hx
    · exact ⟨_, mem_cons_self, hxy⟩
    · obtain ⟨y, hy, hxy⟩ := ih hx
      exact ⟨y, mem_cons_of_mem _ hy, hxy⟩

theorem Forall₂.exists_left (h : Forall₂ R xs ys) {y : β} (hy : y ∈ ys) : ∃ x ∈ xs, R x y :=
  h.flip.exists_right hy

theorem exists_forall₂ : ∀ {xs : List α}, (∀ x ∈ xs, ∃ y, R x y) → ∃ ys, Forall₂ R xs ys
  | [], _ => ⟨[], .nil⟩
  | x :: _, h => by
    obtain ⟨y, hy⟩ := h x mem_cons_self
    obtain ⟨ys, hys⟩ := exists_forall₂ fun x' hx' => h x' (mem_cons_of_mem x hx')
    exact ⟨y :: ys, .cons hy hys⟩

theorem Forall₂.find?_eq_some {p : α → Bool} {q : β → Bool} (h : Forall₂ R xs ys)
    (hpq : ∀ {x y}, R x y → p x = q y) {x : α} (hx : xs.find? p = some x) :
    ∃ y, ys.find? q = some y ∧ R x y := by
  induction h with
  | nil => simp at hx
  | @cons a b xs ys hab _ ih =>
    cases ha : p a with
    | true =>
      have hb : q b = true := hpq hab ▸ ha
      rw [find?_cons_of_pos ha] at hx
      cases hx
      exact ⟨b, find?_cons_of_pos hb, hab⟩
    | false =>
      have hb : q b = false := hpq hab ▸ ha
      rw [find?_cons_of_neg (by simp [ha])] at hx
      rw [find?_cons_of_neg (by simp [hb])]
      exact ih hx

theorem Forall₂.comp {γ : Type} {S : β → γ → Prop} {T : α → γ → Prop} {zs : List γ}
    (hT : ∀ {x y z}, R x y → S y z → T x z) (h : Forall₂ R xs ys) (h' : Forall₂ S ys zs) :
    Forall₂ T xs zs := by
  induction h generalizing zs with
  | nil =>
    cases h'
    exact .nil
  | cons hxy _ ih =>
    cases h' with
    | cons hyz hrest => exact .cons (hT hxy hyz) (ih hrest)

theorem Forall₂.map_eq {γ : Type} {f : α → γ} {g : β → γ}
    (h : Forall₂ (fun x y => f x = g y) xs ys) : xs.map f = ys.map g := by
  rw [← forall₂_eq_eq_eq, forall₂_map_left_iff, forall₂_map_right_iff]
  exact h

theorem Forall₂.exists_getElem? (h : Forall₂ R xs ys) {i : Nat} {x : α} (hx : xs[i]? = some x) :
    ∃ y, ys[i]? = some y ∧ R x y := by
  induction h generalizing i with
  | nil => simp at hx
  | cons hxy _ ih =>
    cases i with
    | zero =>
      cases hx
      exact ⟨_, rfl, hxy⟩
    | succ i => exact ih hx

/-- What holds of all pairs on one side holds of all pairs on the other. -/
theorem Forall₂.pairwise_iff {P : α → α → Prop} {Q : β → β → Prop} (h : Forall₂ R xs ys)
    (hPQ : ∀ {x y x' y'}, R x y → R x' y' → (P x x' ↔ Q y y')) : xs.Pairwise P ↔ ys.Pairwise Q := by
  induction h with
  | nil => simp
  | @cons x y xs ys hxy hrest ih =>
    rw [pairwise_cons, pairwise_cons, ih]
    refine and_congr_left fun _ => ⟨fun hall y' hy' => ?_, fun hall x' hx' => ?_⟩
    · obtain ⟨x', hx', hxy'⟩ := hrest.exists_left hy'
      exact (hPQ hxy hxy').1 (hall x' hx')
    · obtain ⟨y', hy', hxy'⟩ := hrest.exists_right hx'
      exact (hPQ hxy hxy').2 (hall y' hy')

end

end List
