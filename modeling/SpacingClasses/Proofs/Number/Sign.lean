import SpacingClasses.Number.Decimal
import SpacingClasses.Proofs.Text.Trim
import Mathlib.Tactic.SplitIfs

/-!
# The signs of numbers

Rounding keeps the sign that a number is written with.

* `Double.nearest_sign` : a double has the sign of the decimal that it is nearest to;
* `parseNumber?_minus` : a text that starts with a minus is no number, or one with that sign;
* `Decimal.isPositive_of_number?` : a decimal that stands for a positive number is positive.
-/

namespace SpacingClasses

/-! ### Doubles -/

namespace Double

variable {negative sign : Bool} {num den coefficient : Nat} {exponent : Int} {m : Magnitude}

theorem ofRatio_sign (h : ofRatio negative num den = finite sign m) : sign = negative := by
  rw [ofRatio] at h
  split at h
  · exact (Double.finite.inj h).1.symm
  · cases h

/-- A double has the sign of the decimal that it is nearest to. -/
theorem nearest_sign (h : nearest negative coefficient exponent = finite sign m) :
    sign = negative := by
  unfold nearest at h
  split_ifs at h with hzero hgreat hsmall
  · exact ofRatio_sign h
  · exact ofRatio_sign h
  · cases exponent with
    | ofNat e => exact ofRatio_sign h
    | negSucc e => exact ofRatio_sign h

theorem overflowUnits_pos : 0 < overflowUnits := by
  unfold overflowUnits
  -- the power is not to be computed
  generalize overflowBits = bits
  exact Nat.two_pow_pos bits

theorem isZero_nearest_zero (negative : Bool) (exponent : Int) :
    (nearest negative 0 exponent).isZero = true := by
  have hunits : roundUnits 0 1 = 0 := rfl
  have hlimit : roundUnits 0 1 < overflowUnits := by
    rw [hunits]
    exact overflowUnits_pos
  rw [nearest.eq_def, if_pos rfl, ofRatio, dif_pos hlimit]
  exact beq_iff_eq.2 hunits

theorem finite?_finite (negative : Bool) (m : Magnitude) :
    (finite negative m).finite? = some (finite negative m) := rfl

theorem finite?_of_isZero {x : Double} (h : x.isZero = true) : x.finite? = some x := by
  cases x with
  | finite negative m => rfl
  | infinite negative => cases h
  | nan => cases h

theorem finite?_eq_some_iff {x y : Double} : x.finite? = some y ↔ x.isFinite = true ∧ x = y := by
  rw [finite?]
  split_ifs with h <;> simp [h]

/-- Whether a double is finite and greater than zero. -/
def isPositive (x : Double) : Bool := x.isFinite && !x.isZero && !x.isNegative

theorem sign_of_isPositive (h : (finite sign m).isPositive = true) : sign = false := by
  cases sign with
  | false => rfl
  | true =>
    simp only [isPositive, isFinite, isZero, isNegative, Bool.true_and, Bool.and_eq_true,
      Bool.not_eq_true', beq_eq_false_iff_ne, bne_eq_false_iff_eq] at h
    exact absurd h.2 h.1

theorem exists_of_isFinite {x : Double} (h : x.isFinite = true) :
    ∃ negative m, x = finite negative m := by
  cases x with
  | finite negative m => exact ⟨negative, m, rfl⟩
  | infinite negative => cases h
  | nan => cases h

end Double

/-! ### Numerals -/

theorem Numeral.negative_of_whole? {t : Text} {n : Numeral} (h : whole? ('-' :: t) = some n) :
    n.negative = true := by
  have hsign : sign ('-' :: t) = (true, t) := rfl
  rw [whole?, read?, hsign] at h
  dsimp only at h
  split at h
  · rename_i n' hread
    split at hread
    · cases hread
    · obtain rfl := Option.some.inj h
      exact congrArg (·.1.negative) (Option.some.inj hread).symm
  · cases h

/-- A text that starts with a minus is no number, or one with that sign. -/
theorem parseNumber?_minus {t : Text} {x : Double} (h : parseNumber? ('-' :: t) = some x) :
    ∃ m, x = .finite true m := by
  obtain ⟨s, hs⟩ := Text.strip_cons (by decide : Text.isBlank '-' = false) t
  rw [parseNumber?, hs, Option.bind_eq_some_iff] at h
  obtain ⟨n, hn, h⟩ := h
  obtain ⟨hfinite, rfl⟩ := Double.finite?_eq_some_iff.1 h
  obtain ⟨sign, m, hx⟩ := Double.exists_of_isFinite hfinite
  have hsign := Double.nearest_sign hx
  rw [Numeral.negative_of_whole? hn] at hsign
  exact ⟨m, by rw [hx, hsign]⟩

/-! ### Numbers -/

namespace Number

/-- Whether a number is finite. -/
def isFinite : Number → Bool
  | int _ => true
  | double x => x.isFinite

/-- Whether a number is finite and greater than zero. -/
def isPositive : Number → Bool
  | int n => 0 < n
  | double x => x.isPositive

end Number

/-! ### Decimals -/

namespace Decimal

variable {negative : Bool} {coefficient : Nat} {exponent : Int}

theorem whole?_zero {n : Int} (h : whole? negative 0 exponent = some n) : n = 0 := by
  cases exponent with
  | ofNat e =>
    obtain rfl := Option.some.inj h
    simp
  | negSucc e => exact (Option.some.inj h).symm

theorem whole?_negative {n : Int} (h : whole? true coefficient exponent = some n) : n ≤ 0 := by
  have hneg : ∀ k : Nat, -(k : Int) ≤ 0 := fun k => Int.neg_nonpos_of_nonneg (Int.natCast_nonneg k)
  cases exponent with
  | ofNat e =>
    obtain rfl := Option.some.inj h
    exact hneg _
  | negSucc e =>
    rw [whole?] at h
    split_ifs at h with hzero hsmall hwhole
    · obtain rfl := Option.some.inj h
      exact Int.le_refl 0
    · obtain rfl := Option.some.inj h
      exact hneg _
    · contradiction

/-- A decimal denotes a positive integer only if it is written without a minus, and not as zero. -/
theorem sign_of_whole? {n : Int} (h : whole? negative coefficient exponent = some n) (hn : 0 < n) :
    negative = false ∧ coefficient ≠ 0 := by
  constructor
  · cases negative with
    | false => rfl
    | true => exact absurd (whole?_negative h) (Int.not_le.2 hn)
  · rintro rfl
    exact absurd (whole?_zero h) (Int.ne_of_gt hn)

/-- Whether a decimal is finite and greater than zero. -/
def isPositive : Decimal → Bool
  | finite negative coefficient _ => !negative && coefficient != 0
  | _ => false

theorem isPositive_iff :
    (finite negative coefficient exponent).isPositive = true ↔
      negative = false ∧ coefficient ≠ 0 := by
  simp [isPositive]

/-- The number of a decimal is the integer that it denotes, or else the nearest double. -/
theorem number?_cases {n : Number} (h : (finite negative coefficient exponent).number? = some n) :
    (∃ i, n = .int i ∧ whole? negative coefficient exponent = some i) ∨
      ∃ x, n = .double x ∧ Double.nearest negative coefficient exponent = x ∧
        x.isFinite = true ∧ x.isZero = false := by
  rw [number?] at h
  split_ifs at h with hgreat
  split at h
  · rename_i i hi
    exact .inl ⟨i, (Option.some.inj h).symm, hi⟩
  · dsimp only at h
    split_ifs at h with hx
    rw [Bool.and_eq_true, Bool.not_eq_true'] at hx
    exact .inr ⟨_, (Option.some.inj h).symm, rfl, hx.1, hx.2⟩

theorem isFinite_of_number? {d : Decimal} {n : Number} (h : d.number? = some n) :
    n.isFinite = true := by
  cases d with
  | finite negative coefficient exponent =>
    rcases number?_cases h with ⟨i, rfl, -⟩ | ⟨x, rfl, -, hfinite, -⟩
    · rfl
    · exact hfinite
  | infinite negative => cases h
  | nan negative signaling payload => cases h

/-- The number that a decimal stands for is positive only if the decimal is. -/
theorem isPositive_of_number? {d : Decimal} {n : Number} (h : d.number? = some n)
    (hn : n.isPositive = true) : d.isPositive = true := by
  cases d with
  | finite negative coefficient exponent =>
    rw [isPositive_iff]
    rcases number?_cases h with ⟨i, rfl, hi⟩ | ⟨x, rfl, hx, hfinite, hzero⟩
    · exact sign_of_whole? hi (of_decide_eq_true hn)
    · -- the nearest double is finite and not zero, and so has a sign of its own
      constructor
      · obtain ⟨sign, m, rfl⟩ := Double.exists_of_isFinite hfinite
        rw [← Double.nearest_sign hx]
        exact Double.sign_of_isPositive hn
      · rintro rfl
        rw [← hx, Double.isZero_nearest_zero] at hzero
        cases hzero
  | infinite negative => cases h
  | nan negative signaling payload => cases h

end Decimal

end SpacingClasses
