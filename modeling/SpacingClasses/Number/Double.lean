import SpacingClasses.Text.Basic

/-!
# Doubles

The binary floating-point numbers of 64 bits, as exact values.  The magnitude of a finite double is
counted in *units*: the least positive double, `2 ^ -1074`, is one unit.  A number of units is
representable when it has at most 53 significant bits and stays below `2 ^ 2098`, that is
`2 ^ 1024` as a value.

* `Double.ofRatio` rounds a quotient of units to the nearest double, ties to the even neighbour;
* `Double.nearest` does so for a decimal coefficient and exponent.
-/

namespace SpacingClasses

/-- How many units make one. -/
def unitsPerOne : Nat := Nat.pow 2 1074

/-- The number of bits that the units of a finite double stay within. -/
def overflowBits : Nat := 2098

/-- The number of units at which the finite doubles end. -/
def overflowUnits : Nat := Nat.pow 2 overflowBits

/-- A number of units with at most 53 significant bits, below the overflow limit. -/
def Representable (u : Nat) : Prop := Nat.pow 2 (u.log2 - 52) ∣ u ∧ u < overflowUnits

instance (u : Nat) : Decidable (Representable u) := inferInstanceAs (Decidable (_ ∧ _))

/-- The magnitude of a finite double. -/
structure Magnitude where
  units : Nat
  representable : Representable units
  deriving DecidableEq

instance : Repr Magnitude := ⟨fun m _ => repr m.units⟩

/-- A double. -/
inductive Double where
  | finite (negative : Bool) (magnitude : Magnitude)
  | infinite (negative : Bool)
  | nan
  deriving DecidableEq, Repr

/-- A quotient rounded to the nearest whole number, a half to the even one. -/
def roundHalfEven (num den : Nat) : Nat :=
  let q := num / den
  let r := num % den
  if 2 * r < den then q else if den < 2 * r then q + 1 else q + q % 2

/-- How many bits of a quotient lie beyond the 53 that are kept. -/
def droppedBits (num den : Nat) : Nat := (num / den).log2 - 52

/-- A quotient of units in the steps that 53 significant bits leave, rounded. -/
def roundedSteps (num den : Nat) : Nat :=
  roundHalfEven num (den * Nat.pow 2 (droppedBits num den))

/-- A quotient of units rounded to 53 significant bits. -/
def roundUnits (num den : Nat) : Nat := roundedSteps num den * Nat.pow 2 (droppedBits num den)

theorem roundHalfEven_le (num den : Nat) : roundHalfEven num den ≤ num / den + 1 := by
  have : num / den % 2 ≤ 1 := by omega
  simp only [roundHalfEven]
  split
  · omega
  · split <;> omega

theorem div_droppedBits_lt (num den : Nat) :
    num / (den * Nat.pow 2 (droppedBits num den)) < Nat.pow 2 53 := by
  simp only [Nat.pow_eq]
  rw [← Nat.div_div_eq_div_mul]
  apply Nat.div_lt_of_lt_mul
  rw [← Nat.pow_add]
  rcases Nat.eq_zero_or_pos (num / den) with h | h
  · rw [h]; exact Nat.two_pow_pos _
  · have : (num / den).log2 < droppedBits num den + 53 := by
      unfold droppedBits; omega
    exact (Nat.log2_lt (by omega)).1 this

theorem roundedSteps_le (num den : Nat) : roundedSteps num den ≤ Nat.pow 2 53 :=
  Nat.le_trans (roundHalfEven_le _ _) (div_droppedBits_lt num den)

theorem log2_mul_two_pow_le (r k : Nat) (h : r < Nat.pow 2 53) :
    (r * Nat.pow 2 k).log2 - 52 ≤ k := by
  simp only [Nat.pow_eq] at h ⊢
  rcases Nat.eq_zero_or_pos r with h0 | h0
  · simp [h0]
  · have hpos := Nat.mul_pos h0 (Nat.two_pow_pos k)
    have hlt := Nat.mul_lt_mul_of_pos_right h (Nat.two_pow_pos k)
    rw [← Nat.pow_add] at hlt
    have := (Nat.log2_lt (Nat.ne_of_gt hpos)).2 hlt
    omega

/-- What is rounded to 53 bits has no more than these. -/
theorem dvd_roundUnits (num den : Nat) :
    Nat.pow 2 ((roundUnits num den).log2 - 52) ∣ roundUnits num den := by
  have h := roundedSteps_le num den
  unfold roundUnits
  generalize roundedSteps num den = r at h
  generalize droppedBits num den = k
  rcases Nat.lt_or_eq_of_le h with hr | hr
  · exact Nat.dvd_trans (Nat.pow_dvd_pow 2 (log2_mul_two_pow_le r k hr))
      (Nat.dvd_mul_left _ _)
  · subst hr
    simp only [Nat.pow_eq]
    rw [← Nat.pow_add, Nat.log2_two_pow]
    exact Nat.pow_dvd_pow 2 (by omega)

namespace Double

/-- The double nearest to a quotient of units; beyond the greatest finite one, an infinity. -/
def ofRatio (negative : Bool) (num den : Nat) : Double :=
  let u := roundUnits num den
  if h : u < overflowUnits then finite negative ⟨u, dvd_roundUnits num den, h⟩
  else infinite negative

/-- The double nearest to `coefficient * 10 ^ exponent`.  Exponents that decide the answer alone
are met first, so that no power of ten grows without need. -/
def nearest (negative : Bool) (coefficient : Nat) (exponent : Int) : Double :=
  if coefficient = 0 then ofRatio negative 0 1
  else if 400 < exponent then infinite negative
  else if exponent + coefficient.log2 < -400 then ofRatio negative 0 1
  else
    match exponent with
    | .ofNat e => ofRatio negative (coefficient * Nat.pow 10 e * unitsPerOne) 1
    | .negSucc e => ofRatio negative (coefficient * unitsPerOne) (Nat.pow 10 (e + 1))

/-- Whether a double is neither infinite nor no number. -/
def isFinite : Double → Bool
  | finite .. => true
  | _ => false

/-- The whole part of a finite double. -/
def truncate? : Double → Option Int
  | finite negative m =>
    let whole : Int := m.units / unitsPerOne
    some (if negative then -whole else whole)
  | _ => none

/-- The value of a finite double that is a whole number. -/
def whole? : Double → Option Int
  | finite negative m =>
    if m.units % unitsPerOne = 0 then (finite negative m).truncate? else none
  | _ => none

/-- Whether a double is one of the two zeros. -/
def isZero : Double → Bool
  | finite _ m => m.units == 0
  | _ => false

/-- Whether a double is less than zero. -/
def isNegative : Double → Bool
  | finite negative m => negative && m.units != 0
  | infinite negative => negative
  | nan => false

/-- The double times a whole number, rounded. -/
def scale (factor : Nat) : Double → Double
  | finite negative m => ofRatio negative (m.units * factor) 1
  | x => x

/-- The double divided by a whole number, rounded. -/
def divide (divisor : Nat) : Double → Double
  | finite negative m => ofRatio negative m.units divisor
  | x => x

/-- The double without its sign. -/
def abs : Double → Double
  | finite _ m => finite false m
  | infinite _ => infinite false
  | nan => nan

end Double

end SpacingClasses
