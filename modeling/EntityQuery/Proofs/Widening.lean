import EntityQuery.Number.Binary
import Mathlib.Algebra.Order.Field.Basic
import Mathlib.Algebra.Order.Field.Power
import Mathlib.Data.Rat.Cast.Order
import Mathlib.Tactic.FieldSimp
import Mathlib.Tactic.Linarith
import Mathlib.Tactic.NormNum
import Mathlib.Tactic.Ring

/-!
# Exact widening of binary fractions

Rounding gives the pattern of a magnitude that the format has (`BinaryFormat.round_of_value`), so a
conversion between formats is exact where both have the magnitude (`BinaryFormat.convert_of_value`).
Every finite magnitude of the single format is one of the double format, so a number that is widened
and narrowed again is the number it was (`Binary32.narrow_widen`).
-/

set_option autoImplicit false

namespace EntityQuery

namespace BinaryFormat

/-- The magnitude of a finite pattern. -/
def value (f : BinaryFormat) (pattern : Nat) : ℚ :=
  (f.unpack pattern).1 * 2 ^ (f.unpack pattern).2

/-! ## Scaling -/

theorem scaled_pos {num den : Nat} (hden : 0 < den) (q : Int) : 0 < (scaled num den q).2 := by
  unfold scaled
  split
  · exact Nat.mul_pos hden (Nat.pow_pos Nat.two_pos)
  · exact hden

theorem scaled_value (num den : Nat) (q : Int) :
    ((scaled num den q).1 : ℚ) / (scaled num den q).2 = num / den / 2 ^ q := by
  unfold scaled
  split
  case isTrue h =>
    have hq : (2 : ℚ) ^ q = 2 ^ q.toNat := by rw [← zpow_natCast, Int.toNat_of_nonneg h]
    simp only [Nat.pow_eq, Nat.cast_mul, Nat.cast_pow, Nat.cast_ofNat]
    rw [hq, div_div]
  case isFalse h =>
    have hq : (2 : ℚ) ^ q = (2 ^ (-q).toNat)⁻¹ := by
      rw [← zpow_natCast, Int.toNat_of_nonneg (by omega), zpow_neg, inv_inv]
    simp only [Nat.pow_eq, Nat.cast_mul, Nat.cast_pow, Nat.cast_ofNat]
    rw [hq, div_inv_eq_mul, mul_div_right_comm]

/-- The exponent of a quotient brackets it between two powers of two. -/
theorem floorLog_spec {num den : Nat} (hnum : 0 < num) (hden : 0 < den) :
    (2 : ℚ) ^ floorLog num den ≤ num / den ∧ (num : ℚ) / den < 2 ^ (floorLog num den + 1) := by
  have hden' : (0 : ℚ) < den := Nat.cast_pos.2 hden
  have hnumLow : (2 : ℚ) ^ num.log2 ≤ num := by exact_mod_cast Nat.log2_self_le hnum.ne'
  have hnumHigh : (num : ℚ) < 2 ^ (num.log2 + 1) := by exact_mod_cast Nat.lt_log2_self
  have hdenLow : (2 : ℚ) ^ den.log2 ≤ den := by exact_mod_cast Nat.log2_self_le hden.ne'
  have hdenHigh : (den : ℚ) < 2 ^ (den.log2 + 1) := by exact_mod_cast Nat.lt_log2_self
  have hlow : (2 : ℚ) ^ ((num.log2 : Int) - den.log2 - 1) ≤ num / den := by
    rw [le_div_iff₀ hden']
    calc (2 : ℚ) ^ ((num.log2 : Int) - den.log2 - 1) * den
        ≤ 2 ^ ((num.log2 : Int) - den.log2 - 1) * 2 ^ (den.log2 + 1) := by gcongr
      _ = 2 ^ num.log2 := by
          rw [← zpow_natCast, ← zpow_natCast, ← zpow_add₀ two_ne_zero]
          congr 1
          push_cast
          ring
      _ ≤ num := hnumLow
  have hhigh : (num : ℚ) / den < 2 ^ ((num.log2 : Int) - den.log2 + 1) := by
    rw [div_lt_iff₀ hden']
    calc (num : ℚ) < 2 ^ (num.log2 + 1) := hnumHigh
      _ = 2 ^ ((num.log2 : Int) - den.log2 + 1) * 2 ^ den.log2 := by
          rw [← zpow_natCast, ← zpow_natCast, ← zpow_add₀ two_ne_zero]
          congr 1
          push_cast
          ring
      _ ≤ 2 ^ ((num.log2 : Int) - den.log2 + 1) * den := by gcongr
  have hguess : (scaled num den ((num.log2 : Int) - den.log2)).2 ≤
        (scaled num den ((num.log2 : Int) - den.log2)).1 ↔
      (2 : ℚ) ^ ((num.log2 : Int) - den.log2) ≤ num / den := by
    have hpos : (0 : ℚ) < (scaled num den ((num.log2 : Int) - den.log2)).2 :=
      Nat.cast_pos.2 (scaled_pos hden _)
    rw [← Nat.cast_le (α := ℚ), ← one_le_div hpos, scaled_value, one_le_div (by positivity)]
  simp only [floorLog]
  split
  case isTrue h => exact ⟨hguess.1 h, hhigh⟩
  case isFalse h =>
    refine ⟨hlow, ?_⟩
    rw [sub_add_cancel]
    exact lt_of_not_ge fun hle => h (hguess.2 hle)

theorem floorLog_eq {num den : Nat} {e : Int} (hnum : 0 < num) (hden : 0 < den)
    (hlow : (2 : ℚ) ^ e ≤ num / den) (hhigh : (num : ℚ) / den < 2 ^ (e + 1)) :
    floorLog num den = e := by
  obtain ⟨hfloor, hnext⟩ := floorLog_spec hnum hden
  have habove := (zpow_lt_zpow_iff_right₀ (one_lt_two (α := ℚ))).1 (hlow.trans_lt hnext)
  have hbelow := (zpow_lt_zpow_iff_right₀ (one_lt_two (α := ℚ))).1 (hfloor.trans_lt hhigh)
  omega

theorem nearest_mul (m : Nat) {d : Nat} (hd : 0 < d) : nearest (m * d) d = m := by
  have hrest : m * d % d = 0 := Nat.mul_mod_left m d
  simp only [nearest, hrest, Nat.mul_div_cancel m hd]
  rw [if_pos (.inl (by omega))]

/-! ## Patterns -/

variable {f g : BinaryFormat}

/-- A pattern without exponent holds the whole significand, any other one all of it but its highest
bit. -/
theorem unpack_cases (f : BinaryFormat) (pattern : Nat) :
    (pattern < 2 ^ f.fractionBits ∧ f.unpack pattern = (pattern, f.leastExponent)) ∨
      ∃ e r, r < 2 ^ f.fractionBits ∧ pattern = (e + 1) * 2 ^ f.fractionBits + r ∧
        f.unpack pattern = (2 ^ f.fractionBits + r, f.leastExponent + (e : Nat)) := by
  have hpos : 0 < 2 ^ f.fractionBits := Nat.pow_pos Nat.two_pos
  by_cases hexponent : pattern / 2 ^ f.fractionBits = 0
  · have hlt : pattern < 2 ^ f.fractionBits := (Nat.div_eq_zero_iff_lt hpos).1 hexponent
    refine .inl ⟨hlt, ?_⟩
    simp only [unpack, Nat.pow_eq, hexponent, if_true, Nat.mod_eq_of_lt hlt]
  · obtain ⟨e, he⟩ := Nat.exists_eq_succ_of_ne_zero hexponent
    refine .inr ⟨e, pattern % 2 ^ f.fractionBits, Nat.mod_lt _ hpos, ?_, ?_⟩
    · rw [← Nat.succ_eq_add_one, ← he, Nat.div_add_mod']
    · simp only [unpack, Nat.pow_eq, hexponent, if_false]
      rw [he]
      simp

theorem value_normal {e r : Nat} (hr : r < 2 ^ f.fractionBits) :
    f.value ((e + 1) * 2 ^ f.fractionBits + r) =
      (2 ^ f.fractionBits + r : Nat) * 2 ^ (f.leastExponent + (e : Nat)) := by
  have hpos : 0 < 2 ^ f.fractionBits := Nat.pow_pos Nat.two_pos
  have hexponent : ((e + 1) * 2 ^ f.fractionBits + r) / 2 ^ f.fractionBits = e + 1 := by
    rw [Nat.mul_comm, Nat.mul_add_div hpos, Nat.div_eq_of_lt hr, Nat.add_zero]
  have hfraction : ((e + 1) * 2 ^ f.fractionBits + r) % 2 ^ f.fractionBits = r := by
    rw [Nat.mul_comm, Nat.mul_add_mod, Nat.mod_eq_of_lt hr]
  simp [value, unpack, Nat.pow_eq, hexponent, hfraction]

theorem pattern_of_unpack (f : BinaryFormat) (pattern : Nat) :
    ((f.unpack pattern).2 - f.leastExponent).toNat * 2 ^ f.fractionBits + (f.unpack pattern).1 =
      pattern := by
  rcases f.unpack_cases pattern with ⟨-, hunpack⟩ | ⟨e, r, -, hpattern, hunpack⟩
  · simp [hunpack]
  · rw [hunpack, hpattern]
    simp only [add_sub_cancel_left, Int.toNat_natCast]
    ring

theorem value_eq_zero {pattern : Nat} (h : f.value pattern = 0) : pattern = 0 := by
  have hpower : (2 : ℚ) ^ (f.unpack pattern).2 ≠ 0 := zpow_ne_zero _ two_ne_zero
  have hsignificand : (f.unpack pattern).1 = 0 := by
    simpa [value, hpower] using h
  rcases f.unpack_cases pattern with ⟨-, hunpack⟩ | ⟨e, r, -, -, hunpack⟩
  · rwa [hunpack] at hsignificand
  · have hpos : 0 < 2 ^ f.fractionBits := Nat.pow_pos Nat.two_pos
    rw [hunpack] at hsignificand
    dsimp only at hsignificand
    omega

/-- Rounding settles on the power of two of the pattern whose magnitude is rounded. -/
theorem exponent_of_value {pattern num den : Nat} (hnum : 0 < num) (hden : 0 < den)
    (hvalue : (num : ℚ) / den = f.value pattern) :
    max (floorLog num den - f.fractionBits) f.leastExponent = (f.unpack pattern).2 := by
  have htwo : (0 : ℚ) < 2 ^ f.leastExponent := zpow_pos two_pos _
  rcases f.unpack_cases pattern with ⟨hlt, hunpack⟩ | ⟨e, r, hr, -, hunpack⟩
  · have hbelow : (num : ℚ) / den < 2 ^ (f.fractionBits + f.leastExponent) := by
      rw [hvalue, value, hunpack, zpow_add₀ two_ne_zero, zpow_natCast]
      exact mul_lt_mul_of_pos_right (by exact_mod_cast hlt) htwo
    have hfloor := (zpow_lt_zpow_iff_right₀ (one_lt_two (α := ℚ))).1
      ((floorLog_spec hnum hden).1.trans_lt hbelow)
    rw [hunpack]
    exact max_eq_right (by omega)
  · have hpower : (0 : ℚ) < 2 ^ (f.leastExponent + (e : Int)) := zpow_pos two_pos _
    have hfloor : floorLog num den = f.fractionBits + (f.leastExponent + e) := by
      refine floorLog_eq hnum hden ?_ ?_
      · rw [hvalue, value, hunpack, zpow_add₀ two_ne_zero, zpow_natCast]
        refine mul_le_mul_of_nonneg_right ?_ hpower.le
        exact_mod_cast Nat.le_add_right _ r
      · have hbelow : ((2 ^ f.fractionBits + r : Nat) : ℚ) < 2 ^ (f.fractionBits + 1) := by
          have hsucc : 2 ^ f.fractionBits + r < 2 ^ (f.fractionBits + 1) := by
            rw [pow_succ]
            omega
          exact_mod_cast hsucc
        have hsum : (f.fractionBits : Int) + (f.leastExponent + e) + 1 =
            (f.fractionBits + 1 : Nat) + (f.leastExponent + e) := by
          push_cast
          ring
        rw [hvalue, value, hunpack, hsum, zpow_add₀ two_ne_zero (_ : Nat), zpow_natCast]
        exact mul_lt_mul_of_pos_right hbelow hpower
    rw [hunpack, hfloor]
    dsimp only
    omega

/-- Rounding a magnitude that the format has gives its pattern. -/
theorem round_of_value {pattern num den : Nat} (hfinite : pattern < f.infinity) (hden : 0 < den)
    (hvalue : (num : ℚ) / den = f.value pattern) : f.round num den = pattern := by
  unfold round
  split
  case isTrue hzero =>
    refine (value_eq_zero (f := f) ?_).symm
    rw [← hvalue, hzero, Nat.cast_zero, zero_div]
  case isFalse hnum =>
    have hscale : 0 < (scaled num den (f.unpack pattern).2).2 := scaled_pos hden _
    have hexact : (scaled num den (f.unpack pattern).2).1 =
        (f.unpack pattern).1 * (scaled num den (f.unpack pattern).2).2 := by
      have hquotient := scaled_value num den (f.unpack pattern).2
      rw [hvalue, value, mul_div_assoc, div_self (zpow_ne_zero _ two_ne_zero), mul_one,
        div_eq_iff (Nat.cast_pos.2 hscale).ne'] at hquotient
      exact_mod_cast hquotient
    simp only [exponent_of_value (Nat.pos_of_ne_zero hnum) hden hvalue, hexact,
      nearest_mul _ hscale, Nat.pow_eq, pattern_of_unpack]
    exact min_eq_left hfinite.le

/-- A conversion is exact where both formats have the magnitude. -/
theorem convert_of_value {pattern target : Nat} (hfinite : pattern < f.infinity)
    (htarget : target < g.infinity) (hvalue : g.value target = f.value pattern) :
    f.convert g pattern = target := by
  have hscaled : ((scaled (f.unpack pattern).1 1 (-(f.unpack pattern).2)).1 : ℚ) /
      (scaled (f.unpack pattern).1 1 (-(f.unpack pattern).2)).2 = g.value target := by
    rw [scaled_value, hvalue, value, Nat.cast_one, div_one, zpow_neg, div_inv_eq_mul]
  rw [convert, if_neg (Nat.not_le.2 hfinite)]
  exact round_of_value htarget (scaled_pos Nat.one_pos _) hscaled

/-! ## From the single format to the double format -/

/-- A magnitude with few enough significant bits is one of the double format. -/
theorem exists_double {m : Nat} {q : Int} (hm : 0 < m) (hlt : m < 2 ^ 53) (hlow : -1022 ≤ q)
    (hhigh : q ≤ 900) : ∃ p < double.infinity, double.value p = m * 2 ^ q := by
  have hbits : m.log2 ≤ 52 := Nat.lt_succ_iff.1 ((Nat.log2_lt hm.ne').2 hlt)
  -- the significand is shifted until its highest bit stands where the format leaves it out
  have hshift : 2 ^ 52 = 2 ^ m.log2 * 2 ^ (52 - m.log2) := by rw [← pow_add]; congr 1; omega
  have hfrom : 2 ^ 52 ≤ m * 2 ^ (52 - m.log2) := by
    rw [hshift]
    exact Nat.mul_le_mul_right _ (Nat.log2_self_le hm.ne')
  have hto : m * 2 ^ (52 - m.log2) < 2 ^ 53 := by
    have hnext : 2 ^ 53 = 2 ^ (m.log2 + 1) * 2 ^ (52 - m.log2) := by rw [← pow_add]; congr 1; omega
    rw [hnext]
    exact Nat.mul_lt_mul_of_pos_right Nat.lt_log2_self (Nat.pow_pos Nat.two_pos)
  obtain ⟨r, hr⟩ := Nat.exists_eq_add_of_le hfrom
  obtain ⟨e, he⟩ := Int.eq_ofNat_of_zero_le (by omega : 0 ≤ q - (52 - m.log2 : Nat) + 1074)
  have hrlt : r < 2 ^ double.fractionBits := by
    have hfraction : double.fractionBits = 52 := rfl
    rw [hfraction]
    omega
  refine ⟨(e + 1) * 2 ^ double.fractionBits + r, ?_, ?_⟩
  · have hfraction : double.fractionBits = 52 := rfl
    have hinfinity : double.infinity = 2047 * 2 ^ 52 := rfl
    rw [hfraction] at hrlt ⊢
    rw [hinfinity]
    omega
  · have hexponent : double.leastExponent + (e : Nat) = q - (52 - m.log2 : Nat) := by
      have hleast : double.leastExponent = -1074 := rfl
      omega
    have hsignificand : 2 ^ double.fractionBits + r = m * 2 ^ (52 - m.log2) := hr.symm
    rw [value_normal hrlt, hexponent, hsignificand, Nat.cast_mul, Nat.cast_pow, Nat.cast_ofNat,
      ← zpow_natCast, mul_assoc, ← zpow_add₀ two_ne_zero, add_sub_cancel]

theorem exists_double_of_single {p : Nat} (hp : p < single.infinity) :
    ∃ p' < double.infinity, double.value p' = single.value p := by
  have hleast : single.leastExponent = -149 := rfl
  have hfraction : single.fractionBits = 23 := rfl
  have hinfinity : single.infinity = 255 * 2 ^ 23 := rfl
  rcases single.unpack_cases p with ⟨hlt, hunpack⟩ | ⟨e, r, hr, hpattern, hunpack⟩
  · rw [hfraction] at hlt
    rcases Nat.eq_zero_or_pos p with rfl | hpos
    · exact ⟨0, by decide, by simp [value, unpack]⟩
    · rw [value, hunpack]
      exact exists_double hpos (by omega) (by simp [hleast]) (by simp [hleast])
  · rw [value, hunpack]
    rw [hfraction] at hr hpattern ⊢
    rw [hinfinity] at hp
    dsimp only
    refine exists_double (by positivity) (by omega) ?_ ?_ <;> rw [hleast] <;> omega

end BinaryFormat

/-! ## Numbers -/

namespace Binary64

variable {negative : Bool} {pattern : Nat}

theorem magnitude_ofParts (h : pattern < BinaryFormat.double.infinity) :
    (ofParts negative pattern).magnitude = pattern := by
  have hinfinity : BinaryFormat.double.infinity = 0x7FF0000000000000 := rfl
  have hsign : BinaryFormat.double.signBit = 0x8000000000000000 := rfl
  rw [magnitude, ofParts, UInt64.toNat_ofNat', hsign]
  cases negative <;> simp only [if_true, if_false, Bool.false_eq_true] <;> omega

theorem isNegative_ofParts (h : pattern < BinaryFormat.double.infinity) :
    (ofParts negative pattern).isNegative = negative := by
  have hinfinity : BinaryFormat.double.infinity = 0x7FF0000000000000 := rfl
  have hsign : BinaryFormat.double.signBit = 0x8000000000000000 := rfl
  rw [isNegative, ofParts, UInt64.toNat_ofNat', hsign]
  cases negative with
  | false => exact decide_eq_false (by simp only [Bool.false_eq_true, if_false]; omega)
  | true => exact decide_eq_true (by simp only [if_true]; omega)

end Binary64

namespace Binary32

theorem ofParts_magnitude (x : Binary32) : ofParts x.isNegative x.magnitude = x := by
  have hsign : BinaryFormat.single.signBit = 0x80000000 := rfl
  have hbits := x.bits.toNat_lt
  have hparts : x.magnitude + (if x.isNegative then 0x80000000 else 0) = x.bits.toNat := by
    simp only [magnitude, isNegative, hsign, decide_eq_true_eq]
    split <;> omega
  rw [ofParts, hsign, hparts, UInt32.ofNat_toNat]

theorem exists_widen {x : Binary32} (h : x.isFinite) : ∃ p < BinaryFormat.double.infinity,
    x.widen = .ofParts x.isNegative p ∧ BinaryFormat.double.convert .single p = x.magnitude := by
  have hfinite : x.magnitude < BinaryFormat.single.infinity := of_decide_eq_true h
  obtain ⟨p, hp, hvalue⟩ := BinaryFormat.exists_double_of_single hfinite
  refine ⟨p, hp, ?_, BinaryFormat.convert_of_value hp hfinite hvalue.symm⟩
  rw [widen, BinaryFormat.convert_of_value hfinite hp hvalue]

/-- A finite number stays finite in the double format. -/
theorem isFinite_widen {x : Binary32} (h : x.isFinite) : x.widen.isFinite := by
  obtain ⟨p, hp, hwiden, -⟩ := exists_widen h
  rw [hwiden, Binary64.isFinite, Binary64.magnitude_ofParts hp]
  exact decide_eq_true hp

/-- A finite number that is widened and narrowed again is what it was. -/
theorem narrow_widen {x : Binary32} (h : x.isFinite) : x.widen.narrow = x := by
  obtain ⟨p, hp, hwiden, hconvert⟩ := exists_widen h
  rw [hwiden, Binary64.narrow, Binary64.magnitude_ofParts hp, Binary64.isNegative_ofParts hp,
    hconvert, ofParts_magnitude]

end Binary32

end EntityQuery
