import SpacingClasses.Proofs.Number.Digits
import SpacingClasses.Proofs.Number.Rounding
import SpacingClasses.Value.Basic
import Mathlib.Algebra.Order.Field.Power
import Mathlib.Tactic.FieldSimp
import Mathlib.Tactic.Linarith
import Mathlib.Tactic.Positivity

/-!
# The rational numbers that values are

Integers, doubles and decimals are three ways to hold a rational number.

* `Value.toRat?` : the rational number that a value is, if it is a finite number;
* `Double.toRat?_eq_intCast_iff`, `Decimal.whole?_eq_some_iff` : **a double and a decimal are found
  to be whole exactly if they are integers**;
* `Decimal.number?_of_toRat?` : a decimal stands for the integer that it is;
* `Double.isZero_nearest_iff` : **a decimal is rounded to zero exactly if it is half a unit at
  most.**
-/

namespace SpacingClasses

variable {negative : Bool} {c d k : Nat} {n : Int} {e : Int}

/-! ### Signs -/

/-- A rational number behind a sign. -/
def signed (negative : Bool) (q : ℚ) : ℚ := if negative then -q else q

theorem signed_natCast (negative : Bool) (c : Nat) :
    signed negative (c : ℚ) = ((if negative then -(c : Int) else c : Int) : ℚ) := by
  cases negative <;> simp [signed]

theorem signed_eq_zero_iff {q : ℚ} : signed negative q = 0 ↔ q = 0 := by
  cases negative <;> simp [signed]

/-- The sign apart, a rational number is the integer that it is with the sign. -/
theorem eq_natAbs_of_signed {q : ℚ} (hq : 0 ≤ q) (h : signed negative q = n) :
    q = (n.natAbs : ℕ) := by
  rw [Nat.cast_natAbs, Int.cast_abs, ← h]
  cases negative with
  | false => exact (abs_of_nonneg hq).symm
  | true => rw [signed, if_pos rfl, abs_neg, abs_of_nonneg hq]

/-- A quotient is an integer exactly if nothing is left over when it is divided. -/
theorem signed_div_eq_intCast_iff (hd : 0 < d) :
    signed negative ((c : ℚ) / d) = n ↔
      c % d = 0 ∧ (if negative then -((c / d : Nat) : Int) else (c / d : Nat)) = n := by
  have hd' : (d : ℚ) ≠ 0 := Nat.cast_ne_zero.2 hd.ne'
  constructor
  · intro h
    obtain ⟨z, hz, hsign⟩ : ∃ z : Int, (c : ℚ) / d = z ∧ (if negative then -z else z) = n := by
      cases negative with
      | false => exact ⟨n, h, rfl⟩
      | true => exact ⟨-n, by simpa [signed, neg_eq_iff_eq_neg] using h, by simp⟩
    have hproduct : (c : Int) = z * d := by
      rw [div_eq_iff hd'] at hz
      exact_mod_cast hz
    have hz0 : 0 ≤ z := by
      by_contra hneg
      have := Int.mul_neg_of_neg_of_pos (not_le.1 hneg) (Int.natCast_pos.2 hd)
      omega
    obtain ⟨k, rfl⟩ := Int.eq_ofNat_of_zero_le hz0
    obtain rfl : c = k * d := by exact_mod_cast hproduct
    refine ⟨Nat.mul_mod_left k d, ?_⟩
    rw [Nat.mul_div_cancel k hd]
    exact hsign
  · rintro ⟨hmod, rfl⟩
    obtain ⟨k, rfl⟩ := Nat.dvd_of_mod_eq_zero hmod
    rw [Nat.mul_div_cancel_left k hd, Nat.cast_mul, mul_div_cancel_left₀ _ hd', signed_natCast]

/-! ### Doubles -/

namespace Double

/-- The rational number that a finite double is. -/
def toRat? : Double → Option ℚ
  | finite negative m => some (signed negative ((m.units : ℚ) / unitsPerOne))
  | _ => none

variable {x : Double}

/-- A double is found to be whole exactly if it is an integer. -/
theorem toRat?_eq_intCast_iff : x.toRat? = some (n : ℚ) ↔ x.whole? = some n := by
  cases x with
  | infinite negative => simp [toRat?, whole?]
  | nan => simp [toRat?, whole?]
  | finite negative m =>
    rw [toRat?, Option.some.injEq, signed_div_eq_intCast_iff unitsPerOne_pos, whole?]
    by_cases hmod : m.units % unitsPerOne = 0
    · rw [if_pos hmod, truncate?_finite, Option.some.injEq]
      exact and_iff_right hmod
    · rw [if_neg hmod]
      exact iff_of_false (fun h => hmod h.1) (by simp)

theorem isFinite_of_toRat? {q : ℚ} (h : x.toRat? = some q) : x.isFinite = true := by
  cases x with
  | finite negative m => rfl
  | infinite negative => cases h
  | nan => cases h

theorem isZero_iff_of_toRat? {q : ℚ} (h : x.toRat? = some q) : x.isZero = true ↔ q = 0 := by
  cases x with
  | finite negative m =>
    obtain rfl := Option.some.inj h
    have hunits : (unitsPerOne : ℚ) ≠ 0 := Nat.cast_ne_zero.2 unitsPerOne_pos.ne'
    rw [isZero, beq_iff_eq, signed_eq_zero_iff, div_eq_zero_iff, Nat.cast_eq_zero]
    exact (or_iff_left hunits).symm
  | infinite negative => cases h
  | nan => cases h

end Double

/-! ### Decimals -/

theorem ten_pow_toNat (e : Int) : (10 : ℚ) ^ e.toNat = 10 ^ e * 10 ^ (-e).toNat := by
  rw [← zpow_natCast, ← zpow_natCast, ← zpow_add₀ (by norm_num)]
  congr 1
  omega

namespace Decimal

/-- The rational number that a finite decimal is. -/
def toRat? : Decimal → Option ℚ
  | finite negative coefficient exponent => some (signed negative (coefficient * 10 ^ exponent))
  | _ => none

/-- **A decimal is found to be whole exactly if it is an integer.** -/
theorem whole?_eq_some_iff :
    whole? negative c e = some n ↔ signed negative (c * 10 ^ e) = n := by
  cases e with
  | ofNat e =>
    have hcast : (c : ℚ) * 10 ^ Int.ofNat e = ((c * 10 ^ e : Nat) : ℚ) := by
      rw [Int.ofNat_eq_natCast, zpow_natCast]
      push_cast
      rfl
    rw [hcast, signed_natCast, Int.cast_inj, whole?, Option.some.injEq, Nat.pow_eq]
  | negSucc e =>
    have hcast : (c : ℚ) * 10 ^ Int.negSucc e = (c : ℚ) / (10 ^ (e + 1) : Nat) := by
      rw [zpow_negSucc, div_eq_mul_inv]
      push_cast
      rfl
    rw [hcast, signed_div_eq_intCast_iff (Nat.pow_pos (by decide)), whole?, Nat.pow_eq]
    by_cases hzero : c = 0
    · subst hzero
      simp
    · by_cases hsmall : c.log2 < e + 1
      · -- a coefficient that is so short is no multiple of the power
        have hlt : c < 10 ^ (e + 1) := by
          calc c < 2 ^ (e + 1) := (Nat.log2_lt hzero).1 hsmall
            _ ≤ 10 ^ (e + 1) := Nat.pow_le_pow_left (by decide) _
        rw [if_neg hzero, if_pos hsmall, Nat.mod_eq_of_lt hlt]
        exact iff_of_false (by simp) fun h => hzero h.1
      · rw [if_neg hzero, if_neg hsmall]
        by_cases hwhole : c % 10 ^ (e + 1) = 0
        · rw [if_pos hwhole, Option.some.injEq]
          exact (and_iff_right hwhole).symm
        · rw [if_neg hwhole]
          exact iff_of_false (by simp) fun h => hwhole h.1

variable {d : Decimal}

/-- The exponent of the leading digit of an integer is less than the number of its digits. -/
theorem leadingExponent_lt (hn : n ≠ 0) (hlength : (Text.ofNat n.natAbs).length ≤ k)
    (h : signed negative (c * 10 ^ e) = n) : leadingExponent c e < k := by
  have hvalue : (c : ℚ) * 10 ^ e = (n.natAbs : ℕ) := eq_natAbs_of_signed (by positivity) h
  have hc : c ≠ 0 := by
    rintro rfl
    rw [Nat.cast_zero, zero_mul, eq_comm, Nat.cast_eq_zero, Int.natAbs_eq_zero] at hvalue
    exact hn hvalue
  have hlead : leadingExponent c e = ((Text.ofNat c).length - 1 : Nat) + e := by
    have := Text.length_ofNat_pos c
    rw [leadingExponent]
    omega
  rw [hlead, ← zpow_lt_zpow_iff_right₀ (show (1 : ℚ) < 10 by norm_num), zpow_natCast,
    zpow_add₀ (by norm_num), zpow_natCast]
  calc (10 : ℚ) ^ ((Text.ofNat c).length - 1) * 10 ^ e ≤ c * 10 ^ e := by
        gcongr
        exact_mod_cast Text.pow_length_ofNat_le hc
    _ = (n.natAbs : ℕ) := hvalue
    _ < 10 ^ k := by
        have hlt : n.natAbs < 10 ^ k := (Text.lt_pow_length_ofNat _).trans_le
          (Nat.pow_le_pow_right (by decide) hlength)
        exact_mod_cast hlt

/-- A decimal stands for the integer that it is, if this is short enough. -/
theorem number?_of_toRat? (hn : n ≠ 0) (hlength : (Text.ofNat n.natAbs).length ≤ 4000)
    (h : d.toRat? = some (n : ℚ)) : d.number? = some (.int n) := by
  cases d with
  | finite negative c e =>
    have hvalue : signed negative (c * 10 ^ e) = n := Option.some.inj h
    have hlead := leadingExponent_lt hn hlength hvalue
    have hlimit : ¬ maxLeadingExponent < leadingExponent c e := by
      rw [maxLeadingExponent]
      omega
    rw [number?, if_neg hlimit, whole?_eq_some_iff.2 hvalue]
  | infinite negative => cases h
  | nan negative signaling payload => cases h

end Decimal

/-! ### Decimals that round to zero -/

/-- Half a unit: what is no more rounds to zero. -/
def Double.halfUnit : ℚ := 1 / (2 * unitsPerOne)

theorem Double.isZero_ofRatio_iff {num den : Nat} (hden : 0 < den) :
    (ofRatio negative num den).isZero = true ↔ 2 * num ≤ den := by
  rw [← roundUnits_eq_zero_iff hden, ofRatio]
  by_cases hlimit : roundUnits num den < overflowUnits
  · rw [dif_pos hlimit, isZero, beq_iff_eq]
  · rw [dif_neg hlimit]
    refine iff_of_false (by simp [isZero]) fun hzero => hlimit ?_
    rw [hzero]
    exact overflowUnits_pos

/-- **A decimal is rounded to zero exactly if it is half a unit at most.** -/
theorem Double.isZero_nearest_iff :
    (nearest negative c e).isZero = true ↔ (c : ℚ) * 10 ^ e ≤ halfUnit := by
  have hunits : (0 : ℚ) < unitsPerOne := Nat.cast_pos.2 unitsPerOne_pos
  rw [nearest_eq_ofRatio, isZero_ofRatio_iff (Nat.pow_pos (by decide)), ← Nat.cast_le (α := ℚ)]
  push_cast
  rw [ten_pow_toNat, halfUnit, le_div_iff₀ (by positivity)]
  generalize (unitsPerOne : ℚ) = units
  have hpart : (0 : ℚ) < 10 ^ (-e).toNat := by positivity
  constructor
  · intro h
    refine le_of_mul_le_mul_right ?_ hpart
    linarith
  · intro h
    have := mul_le_mul_of_nonneg_right h hpart.le
    linarith

/-! ### Values -/

/-- The rational number that a value is, if it is a finite number; truth values are none. -/
def Value.toRat? : Value → Option ℚ
  | .int n => some n
  | .float x => x.toRat?
  | .decimal d => d.toRat?
  | _ => none

end SpacingClasses
