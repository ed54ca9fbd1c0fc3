import SpacingClasses.Proofs.Number.Sign
import SpacingClasses.Suffix
import Mathlib.Algebra.Ring.Nat

/-!
# How many digits a number has

Integers are written up to a limit of digits.  What is made of a number stays below the limit when
the number itself does.

* `Text.ofNat_injective` : no two numbers have the same digits;
* `Text.length_ofNat_mul_le`, `Text.length_ofNat_div_pow_le` : the digits of a product, and of a
  quotient by a power of ten;
* `Decimal.length_le_of_number?` : a decimal that stands for an integer has few enough digits;
* `Double.length_le_of_whole?` : so has a double that is a whole number;
* `Suffix.ofInt_eq` : the suffix of an integer, if the number in it can be written;
* `Suffix.ofInt_of_length` : so an integer below the limit has its suffix.
-/

namespace SpacingClasses

/-! ### Products and quotients -/

namespace Text

variable {k m n e : Nat}

theorem length_ofNat_le_iff (hk : 0 < k) : (ofNat n).length ≤ k ↔ n < 10 ^ k :=
  Nat.length_toDigits_le_iff (by decide) hk

/-- No two numbers are written alike. -/
theorem ofNat_injective : Function.Injective ofNat := by
  intro n m h
  have hvalue := congrArg (Nat.ofDigitChars 10 · 0) h
  simpa [ofNat] using hvalue

theorem length_ofNat_pos (n : Nat) : 0 < (ofNat n).length :=
  List.length_pos_iff.2 Nat.toDigits_ne_nil

theorem lt_pow_length_ofNat (n : Nat) : n < 10 ^ (ofNat n).length :=
  (length_ofNat_le_iff (length_ofNat_pos n)).1 (Nat.le_refl _)

theorem pow_length_ofNat_le (hn : n ≠ 0) : 10 ^ ((ofNat n).length - 1) ≤ n := by
  by_contra hlt
  rcases Nat.eq_zero_or_pos ((ofNat n).length - 1) with hone | hpos
  · rw [hone] at hlt
    omega
  · have := (length_ofNat_le_iff hpos).2 (Nat.not_le.1 hlt)
    omega

theorem length_ofNat_mul_le (n m : Nat) :
    (ofNat (n * m)).length ≤ (ofNat n).length + (ofNat m).length := by
  rw [length_ofNat_le_iff (Nat.add_pos_left (length_ofNat_pos n) _), Nat.pow_add]
  exact Nat.mul_lt_mul'' (lt_pow_length_ofNat n) (lt_pow_length_ofNat m)

theorem length_ofNat_mul_pow_le (h : (ofNat n).length + e ≤ k) :
    (ofNat (n * 10 ^ e)).length ≤ k := by
  have hn := length_ofNat_pos n
  rw [length_ofNat_le_iff (by omega)]
  calc n * 10 ^ e < 10 ^ (ofNat n).length * 10 ^ e :=
        Nat.mul_lt_mul_of_pos_right (lt_pow_length_ofNat n) (Nat.pow_pos (by decide))
    _ = 10 ^ ((ofNat n).length + e) := (Nat.pow_add ..).symm
    _ ≤ 10 ^ k := Nat.pow_le_pow_right (by decide) h

theorem length_ofNat_div_pow_le (hk : 0 < k) (h : (ofNat n).length ≤ e + k) :
    (ofNat (n / 10 ^ e)).length ≤ k := by
  rw [length_ofNat_le_iff hk]
  apply Nat.div_lt_of_lt_mul
  rw [← Nat.pow_add]
  exact (length_ofNat_le_iff (by omega)).1 h

end Text

/-! ### Integers -/

/-- An integer within the limit of digits is written. -/
theorem Integer.exists_write {n : Int} (h : (Text.ofNat n.natAbs).length ≤ maxDigits) :
    ∃ t, write n = .ok t := by
  rw [write]
  exact ⟨_, if_pos h⟩

namespace Suffix

variable {n : Int}

/-- The suffix of a whole number below zero: four times as many pixels. -/
def minusPixels (k : Nat) : Text := bracketed ('-' :: (Text.ofNat (4 * k) ++ "px"))

/-- The suffix of an integer, however long. -/
def ofInteger (n : Int) : Text := if n < 0 then minusPixels n.natAbs else Text.ofNat n.natAbs

/-- The number that is written in the suffix of an integer. -/
def writtenIn (n : Int) : Nat := if n < 0 then 4 * n.natAbs else n.natAbs

/-- An integer has its suffix if the number in it can be written. -/
theorem ofInt_eq (n : Int) :
    ofInt n = if (Text.ofNat (writtenIn n)).length ≤ Integer.maxDigits then .ok (ofInteger n)
      else .error (.digitLimit none) := by
  by_cases hzero : n = 0
  · subst hzero
    rfl
  · by_cases hneg : n < 0
    · have hpx : (n.natAbs * pxPerUnit : Int) = (4 * n.natAbs : Nat) := by
        rw [pxPerUnit]
        omega
      rw [ofInt, if_neg hzero, if_pos hneg, hpx, Integer.write, Int.natAbs_natCast, writtenIn,
        if_pos hneg, ofInteger, if_pos hneg, if_neg (by omega : ¬ (4 * n.natAbs : Nat) < (0 : Int))]
      split <;> rfl
    · rw [ofInt, if_neg hzero, if_neg hneg, Integer.write, if_neg hneg, writtenIn, if_neg hneg,
        ofInteger, if_neg hneg]

theorem ofInt_eq_ok_iff {s : Text} :
    ofInt n = .ok s ↔
      (Text.ofNat (writtenIn n)).length ≤ Integer.maxDigits ∧ s = ofInteger n := by
  rw [ofInt_eq]
  split
  · rename_i hlength
    rw [and_iff_right hlength, Except.ok.injEq, eq_comm]
  · rename_i hlength
    exact iff_of_false (by rintro ⟨⟩) fun h => hlength h.1

/-- An integer below the limit has a suffix: in pixels it has one digit more at most. -/
theorem ofInt_of_length (h : (Text.ofNat n.natAbs).length < Integer.maxDigits) :
    ofInt n = .ok (ofInteger n) := by
  refine ofInt_eq_ok_iff.2 ⟨?_, rfl⟩
  rw [writtenIn]
  split
  · have hfour : (Text.ofNat 4).length = 1 := rfl
    have hpx := Text.length_ofNat_mul_le 4 n.natAbs
    omega
  · exact h.le

end Suffix

/-! ### Decimals -/

namespace Decimal

variable {negative : Bool} {coefficient : Nat} {exponent : Int}

theorem natAbs_signed (negative : Bool) (n : Nat) :
    (if negative then -(n : Int) else n).natAbs = n := by
  cases negative <;> simp

/-- The sign apart, the integer of a negative exponent is zero or an exact quotient. -/
theorem natAbs_of_whole?_negSucc {e : Nat} {n : Int}
    (h : whole? negative coefficient (.negSucc e) = some n) :
    n.natAbs = 0 ∨ n.natAbs = coefficient / 10 ^ (e + 1) := by
  simp only [whole?, Nat.pow_eq] at h
  split at h
  · obtain rfl := Option.some.inj h
    exact .inl rfl
  · split at h
    · cases h
    · split at h
      · obtain rfl := Option.some.inj h
        exact .inr (natAbs_signed negative _)
      · cases h

theorem natAbs_of_whole?_ofNat {e : Nat} {n : Int}
    (h : whole? negative coefficient (.ofNat e) = some n) : n.natAbs = coefficient * 10 ^ e := by
  obtain rfl := Option.some.inj h
  exact natAbs_signed negative _

/-- The integer that a decimal denotes has as many digits as the exponent of the leading one
says. -/
theorem length_le_of_whole? {n : Int} {k : Nat} (hk : 0 < k)
    (hlead : leadingExponent coefficient exponent < k)
    (h : whole? negative coefficient exponent = some n) : (Text.ofNat n.natAbs).length ≤ k := by
  rw [leadingExponent] at hlead
  cases exponent with
  | ofNat e =>
    rw [Int.ofNat_eq_natCast] at hlead
    rw [natAbs_of_whole?_ofNat h]
    exact Text.length_ofNat_mul_pow_le (by omega)
  | negSucc e =>
    rcases natAbs_of_whole?_negSucc h with hn | hn
    · rw [hn]
      exact hk
    · rw [hn]
      exact Text.length_ofNat_div_pow_le hk (by omega)

/-- A decimal that stands for an integer has few enough digits. -/
theorem length_le_of_number? {d : Decimal} {n : Int} (h : d.number? = some (.int n)) :
    (Text.ofNat n.natAbs).length < Integer.maxDigits := by
  cases d with
  | finite negative coefficient exponent =>
    have hlead : leadingExponent coefficient exponent ≤ maxLeadingExponent := by
      -- beyond this exponent a decimal is taken for no number
      by_contra hgreat
      rw [number?, if_pos (Int.not_le.1 hgreat)] at h
      cases h
    rcases number?_cases h with ⟨i, hi, hwhole⟩ | ⟨x, hx, -⟩
    · cases hi
      have hlength := length_le_of_whole? (k := 4001) (by decide)
        (Int.lt_of_le_of_lt hlead (by decide)) hwhole
      exact Nat.lt_of_le_of_lt hlength (by decide)
    · cases hx
  | infinite negative => cases h
  | nan negative signaling payload => cases h

end Decimal

/-! ### Doubles -/

/-- A double is no greater than its units, so that a whole one can be written. -/
theorem Double.length_le_of_whole? {x : Double} {n : Int} (h : x.whole? = some n) :
    (Text.ofNat n.natAbs).length ≤ Integer.maxDigits := by
  have hlimit : overflowUnits ≤ 10 ^ Integer.maxDigits := by decide +kernel
  cases x with
  | finite negative m =>
    rw [whole?] at h
    split at h
    · obtain rfl := Option.some.inj h
      have hwhole : ((m.units : Int) / unitsPerOne).natAbs ≤ m.units := by
        rw [← Int.natCast_ediv, Int.natAbs_natCast]
        exact Nat.div_le_self _ _
      rw [Text.length_ofNat_le_iff (by decide)]
      refine Nat.lt_of_le_of_lt ?_ (Nat.lt_of_lt_of_le m.representable.2 hlimit)
      cases negative with
      | true => exact (Int.natAbs_neg _).trans_le hwhole
      | false => exact hwhole
    · cases h
  | infinite => cases h
  | nan => cases h

/-- The size of a length in pixels can be written. -/
theorem Scale.length_lengthToPx?_le {length : Text} {px : Nat} (h : lengthToPx? length = some px) :
    (Text.ofNat px).length ≤ Integer.maxDigits := by
  rw [lengthToPx?] at h
  split at h
  · cases h
    decide
  · extract_lets size at h
    clear_value size
    split at h
    · rename_i n hwhole
      cases h
      obtain ⟨x, -, hx⟩ := Option.bind_eq_some_iff.1 hwhole
      exact Double.length_le_of_whole? hx
    · cases h

end SpacingClasses
