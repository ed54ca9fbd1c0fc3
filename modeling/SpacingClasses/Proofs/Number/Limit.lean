import SpacingClasses.Proofs.Number.Digits
import SpacingClasses.Proofs.Number.Rounding

/-!
# Where the doubles end

* `roundUnits_lt_iff` : a number is rounded below a power of two exactly if it stays below it by more
  than half a step;
* `Double.isFinite_nearest_iff` : **the double nearest to a whole number is finite exactly below
  `Double.wholeLimit`**, and else an infinity with its sign;
* `Double.lt_wholeLimit_of_length` : so it is finite if the number has at most 308 digits.
-/

namespace SpacingClasses

variable {num b c k : Nat} {negative : Bool}

/-! ### Rounding below a power of two -/

/-- Halves and more are rounded up, if the whole part before them is odd. -/
theorem roundHalfEven_lt_iff {step limit : Nat} (hstep : 0 < step) (hq : num / (2 * step) < limit)
    (hodd : limit % 2 = 0) :
    roundHalfEven num (2 * step) < limit ↔ num + step < limit * (2 * step) := by
  have hpos : 0 < 2 * step := by omega
  have hnum := Nat.div_add_mod num (2 * step)
  have hr := Nat.mod_lt num hpos
  rw [← Nat.div_lt_iff_lt_mul hpos]
  simp only [roundHalfEven]
  generalize num / (2 * step) = q at *
  generalize num % (2 * step) = r at *
  by_cases hless : r < step
  · have hquotient : (num + step) / (2 * step) = q := by
      rw [← hnum, Nat.add_assoc, Nat.mul_add_div hpos, Nat.div_eq_of_lt (by omega), Nat.add_zero]
    rw [hquotient, if_pos (by omega)]
  · have hquotient : (num + step) / (2 * step) = q + 1 := by
      have hup : r + step = 2 * step + (r - step) := by omega
      rw [← hnum, Nat.add_assoc, Nat.mul_add_div hpos, hup, Nat.add_div_left _ hpos,
        Nat.div_eq_of_lt (by omega)]
    rw [hquotient, if_neg (by omega)]
    split_ifs
    · rfl
    · -- a half stays below an even limit only if the next whole does
      omega

/-- What stays below a power of two is not rounded beyond it. -/
theorem roundUnits_le_two_pow (h : num < 2 ^ (c + 53)) : roundUnits num 1 ≤ 2 ^ (c + 53) := by
  have hdropped : droppedBits num 1 ≤ c := by
    rw [droppedBits, Nat.div_one]
    by_cases hzero : num = 0
    · simp [hzero]
    · have := (Nat.log2_lt hzero).2 h
      omega
  calc roundUnits num 1 ≤ 2 ^ 53 * 2 ^ droppedBits num 1 :=
        Nat.mul_le_mul_right _ (roundedSteps_le num 1)
    _ ≤ 2 ^ 53 * 2 ^ c := Nat.mul_le_mul_left _ (Nat.pow_le_pow_right (by decide) hdropped)
    _ = 2 ^ (c + 53) := by rw [Nat.pow_add, Nat.mul_comm]

/-- **A number is rounded below a power of two exactly if it stays below it by more than half a
step** of the 53 bits before it. -/
theorem roundUnits_lt_iff : roundUnits num 1 < 2 ^ (b + 54) ↔ num + 2 ^ b < 2 ^ (b + 54) := by
  have hhalf : 2 ^ (b + 54) = 2 ^ (b + 53) + 2 ^ (b + 53) := Nat.two_pow_succ _
  have hless : 2 ^ b < 2 ^ (b + 53) := Nat.pow_lt_pow_right (by decide) (by omega)
  have hpos := Nat.two_pow_pos b
  by_cases hsmall : num < 2 ^ (b + 53)
  · have := roundUnits_le_two_pow hsmall
    exact iff_of_true (by omega) (by omega)
  · by_cases hgreat : 2 ^ (b + 54) ≤ num
    · have hmul : 2 ^ (b + 54) * 1 ≤ num := by rwa [Nat.mul_one]
      have := two_pow_le_roundUnits Nat.one_pos hmul
      exact iff_of_false (by omega) (by omega)
    · have hlog : num.log2 = b + 53 := by
        rw [Nat.log2_eq_iff (by omega)]
        omega
      have hdropped : droppedBits num 1 = b + 1 := by
        rw [droppedBits, Nat.div_one, hlog]
        omega
      have hstep : 2 ^ (b + 1) = 2 * 2 ^ b := by rw [Nat.pow_succ, Nat.mul_comm]
      have hexponent : b + 54 = 53 + (b + 1) := by omega
      have hlimit : 2 ^ (b + 54) = 2 ^ 53 * 2 ^ (b + 1) := by rw [hexponent, Nat.pow_add]
      have hq : num / (2 * 2 ^ b) < 2 ^ 53 := by
        rw [← hstep, Nat.div_lt_iff_lt_mul (Nat.two_pow_pos _), ← hlimit]
        omega
      rw [roundUnits, roundedSteps, hdropped, Nat.one_mul, Nat.pow_eq, hlimit,
        Nat.mul_lt_mul_right (Nat.two_pow_pos _), hstep]
      exact roundHalfEven_lt_iff hpos hq (by decide)

/-! ### Whole numbers -/

namespace Double

/-- The least whole number that is rounded to an infinity: half a step before the power of two at
which the doubles end. -/
def wholeLimit : Nat := Nat.pow 2 1024 - Nat.pow 2 970

theorem nearest_natCast (negative : Bool) (k : Nat) :
    nearest negative k 0 = ofRatio negative (k * unitsPerOne) 1 := by
  rw [nearest_eq_ofRatio, Int.neg_zero, Int.toNat_zero, Nat.pow_zero, Nat.mul_one]

theorem exists_wholeLimit_eq : ∃ half, half = 970 ∧ wholeLimit = 2 ^ (half + 54) - 2 ^ half := by
  have hlast : 1024 = 970 + 54 := rfl
  unfold wholeLimit
  rw [hlast]
  -- the powers are not to be computed
  generalize 970 = half
  exact ⟨half, rfl, rfl⟩

theorem roundUnits_whole_lt_iff :
    roundUnits (k * unitsPerOne) 1 < overflowUnits ↔ k < wholeLimit := by
  obtain ⟨bits, hbits, hunits⟩ := exists_unitsPerOne_eq
  obtain ⟨half, hhalf, hwhole⟩ := exists_wholeLimit_eq
  have hend : overflowBits = half + bits + 54 := by
    rw [hbits, hhalf]
    rfl
  have hlimit : half + bits + 54 = half + 54 + bits := by omega
  rw [overflowUnits_eq, hend, roundUnits_lt_iff, hlimit, hunits, hwhole, Nat.lt_sub_iff_add_lt,
    Nat.pow_add 2 half bits, Nat.pow_add 2 (half + 54) bits, ← Nat.add_mul,
    Nat.mul_lt_mul_right (Nat.two_pow_pos bits)]

/-- **The double nearest to a whole number is finite exactly below the limit.** -/
theorem isFinite_nearest_iff : (nearest negative k 0).isFinite = true ↔ k < wholeLimit := by
  rw [nearest_natCast, ofRatio, ← roundUnits_whole_lt_iff]
  by_cases h : roundUnits (k * unitsPerOne) 1 < overflowUnits
  · rw [dif_pos h]
    exact iff_of_true rfl h
  · rw [dif_neg h]
    exact iff_of_false (by simp [isFinite]) h

/-- From the limit on it is an infinity. -/
theorem nearest_of_not_lt (h : ¬ k < wholeLimit) (negative : Bool) :
    nearest negative k 0 = infinite negative := by
  rw [nearest_natCast, ofRatio, dif_neg (mt roundUnits_whole_lt_iff.1 h)]

/-- Numbers of up to 308 digits are below the limit. -/
theorem lt_wholeLimit_of_length (h : (Text.ofNat k).length ≤ 308) : k < wholeLimit := by
  have hlimit : Nat.pow 10 308 ≤ wholeLimit := Nat.le_of_ble_eq_true (by decide +kernel)
  generalize 308 = digits at h hlimit
  calc k < 10 ^ (Text.ofNat k).length := Text.lt_pow_length_ofNat k
    _ ≤ 10 ^ digits := Nat.pow_le_pow_right (by decide) h
    _ ≤ wholeLimit := hlimit

end Double

end SpacingClasses
