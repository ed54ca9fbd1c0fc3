import SpacingClasses.Proofs.Number.Sign
import Mathlib.Algebra.Order.Ring.Nat

/-!
# Rounding quotients and decimals

* `Double.ofRatio_mul_right` : a quotient is rounded in the same way in any terms;
* `Double.ofRatio_exact` : a quotient that is a representable number of units is not changed;
* `Double.nearest_eq_ofRatio` : **a decimal is rounded as the quotient that it denotes**, whatever
  its exponent;
* `Double.nearest_mul_pow` : so the rounded value depends on what the decimal denotes only;
* `Double.nearest_whole`, `exists_of_nearest_whole` : a double that is a whole number is the nearest
  to it, and no double but a whole one is the nearest to a whole number;
* `roundUnits_eq_zero_iff` : half a unit at most is none;
* `Double.divide_two_pow` : a quotient by a power of two is exact, or next to nothing is left.
-/

namespace SpacingClasses

variable {num den k u n c b : Nat} {negative : Bool}

/-! ### The powers of the format -/

theorem overflowUnits_eq : overflowUnits = 2 ^ overflowBits := by
  unfold overflowUnits
  -- the power is not to be computed
  generalize overflowBits = bits
  rfl

theorem exists_unitsPerOne_eq : ∃ bits, bits = 1074 ∧ unitsPerOne = 2 ^ bits := by
  unfold unitsPerOne
  -- nor is this one
  generalize 1074 = bits
  exact ⟨bits, rfl, rfl⟩

theorem unitsPerOne_pos : 0 < unitsPerOne := by
  obtain ⟨bits, -, hunits⟩ := exists_unitsPerOne_eq
  rw [hunits]
  exact Nat.two_pow_pos bits

/-! ### Whole quotients -/

theorem roundHalfEven_mul_right (hk : 0 < k) :
    roundHalfEven (num * k) (den * k) = roundHalfEven num den := by
  have hless : 2 * (num % den * k) < den * k ↔ 2 * (num % den) < den := by
    rw [← Nat.mul_assoc, Nat.mul_lt_mul_right hk]
  have hmore : den * k < 2 * (num % den * k) ↔ den < 2 * (num % den) := by
    rw [← Nat.mul_assoc, Nat.mul_lt_mul_right hk]
  simp only [roundHalfEven, Nat.mul_div_mul_right _ _ hk, Nat.mul_mod_mul_right, hless, hmore]

theorem roundHalfEven_exact (hden : 0 < den) : roundHalfEven (num * den) den = num := by
  simp only [roundHalfEven, Nat.mul_div_cancel _ hden, Nat.mul_mod_left]
  rw [if_pos (by omega)]

theorem le_roundHalfEven (num den : Nat) : num / den ≤ roundHalfEven num den := by
  simp only [roundHalfEven]
  split_ifs <;> omega

/-- A part of a whole is none if it is a half at most. -/
theorem roundHalfEven_eq_zero_iff (h : num < den) : roundHalfEven num den = 0 ↔ 2 * num ≤ den := by
  simp only [roundHalfEven, Nat.div_eq_of_lt h, Nat.mod_eq_of_lt h]
  split_ifs with hless hmore
  · exact iff_of_true rfl hless.le
  · exact iff_of_false (by decide) (Nat.not_le.2 hmore)
  · exact iff_of_true rfl (Nat.not_lt.1 hmore)

/-! ### Units -/

theorem roundUnits_mul_right (hk : 0 < k) :
    roundUnits (num * k) (den * k) = roundUnits num den := by
  have hdropped : droppedBits (num * k) (den * k) = droppedBits num den := by
    rw [droppedBits, droppedBits, Nat.mul_div_mul_right _ _ hk]
  rw [roundUnits, roundUnits, roundedSteps, roundedSteps, hdropped, Nat.mul_right_comm den k,
    roundHalfEven_mul_right hk]

/-- Units that are representable are not changed. -/
theorem roundUnits_exact (hu : Representable u) (hden : 0 < den) :
    roundUnits (u * den) den = u := by
  have hquotient : u * den / den = u := Nat.mul_div_cancel _ hden
  have hsteps : 0 < Nat.pow 2 (u.log2 - 52) := Nat.two_pow_pos _
  obtain ⟨q, hq⟩ := hu.1
  have hmul : u * den = q * (den * Nat.pow 2 (u.log2 - 52)) := by
    calc u * den = Nat.pow 2 (u.log2 - 52) * q * den := by rw [← hq]
      _ = q * (den * Nat.pow 2 (u.log2 - 52)) := by ac_rfl
  rw [roundUnits, roundedSteps, droppedBits, hquotient, hmul,
    roundHalfEven_exact (Nat.mul_pos hden hsteps), Nat.mul_comm, ← hq]

/-- Less than a unit is rounded to a whole number of units. -/
theorem roundUnits_of_lt (h : num < den) : roundUnits num den = roundHalfEven num den := by
  have hquotient : num / den = 0 := Nat.div_eq_of_lt h
  have hdropped : droppedBits num den = 0 := by rw [droppedBits, hquotient]; rfl
  rw [roundUnits, roundedSteps, hdropped, Nat.pow_eq, Nat.pow_zero, Nat.mul_one, Nat.mul_one]

/-- Units are few that stay few when they are rounded. -/
theorem roundUnits_le (h : num < 2 ^ 52 * den) : roundUnits num den ≤ 2 ^ 53 := by
  have hquotient : num / den < 2 ^ 52 := Nat.div_lt_of_lt_mul (by rwa [Nat.mul_comm])
  have hdropped : droppedBits num den = 0 := by
    rcases Nat.eq_zero_or_pos (num / den) with hzero | hpos
    · rw [droppedBits, hzero, Nat.log2_zero]
    · exact Nat.sub_eq_zero_of_le ((Nat.log2_lt hpos.ne').2 hquotient).le
  rw [roundUnits, hdropped, Nat.pow_eq, Nat.pow_zero, Nat.mul_one]
  exact roundedSteps_le num den

/-- Rounding keeps the bit in front. -/
theorem two_pow_le_roundUnits (hden : 0 < den) (h : 2 ^ b * den ≤ num) :
    2 ^ b ≤ roundUnits num den := by
  have hquotient : 2 ^ b ≤ num / den := (Nat.le_div_iff_mul_le hden).2 h
  have hne : num / den ≠ 0 := (Nat.lt_of_lt_of_le (Nat.two_pow_pos b) hquotient).ne'
  have hfront : 2 ^ (num / den).log2 ≤ num / den := Nat.log2_self_le hne
  have hdropped : droppedBits num den ≤ (num / den).log2 := Nat.sub_le _ _
  have hsteps : 2 ^ ((num / den).log2 - droppedBits num den) ≤ roundedSteps num den := by
    refine le_trans ?_ (le_roundHalfEven _ _)
    rw [← Nat.div_div_eq_div_mul, Nat.pow_eq, Nat.le_div_iff_mul_le (Nat.two_pow_pos _),
      ← Nat.pow_add, Nat.sub_add_cancel hdropped]
    exact hfront
  calc 2 ^ b ≤ 2 ^ (num / den).log2 :=
        Nat.pow_le_pow_right (by decide) ((Nat.le_log2 hne).2 hquotient)
    _ = 2 ^ ((num / den).log2 - droppedBits num den) * 2 ^ droppedBits num den := by
      rw [← Nat.pow_add, Nat.sub_add_cancel hdropped]
    _ ≤ roundUnits num den := Nat.mul_le_mul_right _ hsteps

/-- **Half a unit at most is none**, and nothing more is. -/
theorem roundUnits_eq_zero_iff (hden : 0 < den) : roundUnits num den = 0 ↔ 2 * num ≤ den := by
  by_cases hlt : num < den
  · rw [roundUnits_of_lt hlt, roundHalfEven_eq_zero_iff hlt]
  · have hone : 2 ^ 0 ≤ roundUnits num den := two_pow_le_roundUnits hden (by omega)
    omega

/-- A whole number of steps of a power of two stays one, however it is rounded. -/
theorem two_pow_dvd_roundUnits (n b : Nat) : 2 ^ b ∣ roundUnits (n * 2 ^ b) 1 := by
  rw [roundUnits, roundedSteps, Nat.pow_eq, Nat.one_mul]
  generalize droppedBits (n * 2 ^ b) 1 = dropped
  by_cases hkept : dropped ≤ b
  · -- no bit that counts is dropped
    obtain ⟨rest, rfl⟩ := Nat.exists_eq_add_of_le hkept
    have hsteps : n * 2 ^ (dropped + rest) = n * 2 ^ rest * 2 ^ dropped := by
      rw [Nat.pow_add]
      ac_rfl
    rw [hsteps, roundHalfEven_exact (Nat.two_pow_pos dropped), ← hsteps]
    exact Nat.dvd_mul_left _ _
  · exact (Nat.pow_dvd_pow 2 (by omega)).trans (Nat.dvd_mul_left _ _)

/-! ### Quotients -/

namespace Double

theorem ofRatio_mul_right (hk : 0 < k) :
    ofRatio negative (num * k) (den * k) = ofRatio negative num den := by
  simp only [ofRatio, roundUnits_mul_right hk]

/-- Quotients that are the same are rounded in the same way. -/
theorem ofRatio_eq_of_mul_eq {num' den' : Nat} (hden : 0 < den) (hden' : 0 < den')
    (h : num * den' = num' * den) : ofRatio negative num den = ofRatio negative num' den' := by
  rw [← ofRatio_mul_right hden', h, Nat.mul_comm den, ofRatio_mul_right hden]

theorem ofRatio_eq_finite {m : Magnitude} (h : roundUnits num den = m.units) :
    ofRatio negative num den = finite negative m := by
  have hlimit : roundUnits num den < overflowUnits := h ▸ m.representable.2
  rw [ofRatio, dif_pos hlimit, finite.injEq]
  exact ⟨rfl, by cases m; cases h; rfl⟩

theorem roundUnits_of_ofRatio {sign : Bool} {m : Magnitude}
    (h : ofRatio negative num den = finite sign m) : roundUnits num den = m.units := by
  rw [ofRatio] at h
  split at h
  · exact congrArg Magnitude.units (finite.inj h).2
  · cases h

/-- A quotient that is a representable number of units is not changed. -/
theorem ofRatio_exact (m : Magnitude) (hden : 0 < den) :
    ofRatio negative (m.units * den) den = finite negative m :=
  ofRatio_eq_finite (roundUnits_exact m.representable hden)

theorem ofRatio_eq_infinite (hden : 0 < den) (h : 2 ^ overflowBits * den ≤ num) :
    ofRatio negative num den = infinite negative := by
  have hlimit : ¬ roundUnits num den < overflowUnits := by
    rw [overflowUnits_eq]
    exact Nat.not_lt.2 (two_pow_le_roundUnits hden h)
  rw [ofRatio, dif_neg hlimit]

/-- No units. -/
theorem representable_zero : Representable 0 := ⟨Nat.dvd_zero _, overflowUnits_pos⟩

theorem ofRatio_eq_zero (h : 2 * num < den) : ofRatio negative num den =
    finite negative ⟨0, representable_zero⟩ :=
  ofRatio_eq_finite ((roundUnits_eq_zero_iff (by omega)).2 h.le)

/-! ### Decimals -/

theorem two_pow_le_ten_pow (n : Nat) : 2 ^ (3 * n) ≤ 10 ^ n := by
  rw [Nat.pow_mul]
  exact Nat.pow_le_pow_left (by decide) n

/-- **A decimal is rounded as the quotient that it denotes**: the exponents that are met first
decide the answer rightly. -/
theorem nearest_eq_ofRatio (negative : Bool) (c : Nat) (exponent : Int) :
    nearest negative c exponent =
      ofRatio negative (c * 10 ^ exponent.toNat * unitsPerOne) (10 ^ (-exponent).toNat) := by
  obtain ⟨bits, hbits, hunits⟩ := exists_unitsPerOne_eq
  rw [nearest.eq_def]
  split_ifs with hzero hgreat hsmall
  · subst hzero
    rw [Nat.zero_mul, Nat.zero_mul, ofRatio_eq_zero (by decide),
      ofRatio_eq_zero (Nat.pow_pos (by decide))]
  · -- beyond the doubles
    obtain ⟨e, rfl⟩ : ∃ e : Nat, exponent = e := ⟨exponent.toNat, by omega⟩
    have hlimit : overflowBits ≤ 3 * e + bits := by
      have : overflowBits = 2098 := rfl
      omega
    have hgreat : 2 ^ overflowBits ≤ c * 10 ^ e * 2 ^ bits := by
      calc 2 ^ overflowBits ≤ 2 ^ (3 * e + bits) := Nat.pow_le_pow_right (by decide) hlimit
        _ = 2 ^ (3 * e) * 2 ^ bits := Nat.pow_add ..
        _ ≤ 10 ^ e * 2 ^ bits := Nat.mul_le_mul_right _ (two_pow_le_ten_pow e)
        _ ≤ c * 10 ^ e * 2 ^ bits :=
          Nat.mul_le_mul_right _ (Nat.le_mul_of_pos_left _ (Nat.pos_of_ne_zero hzero))
    have hpart : (-(e : Int)).toNat = 0 := by omega
    rw [hpart, Nat.pow_zero, ofRatio_eq_infinite Nat.one_pos]
    rwa [Nat.mul_one, Int.toNat_natCast, hunits]
  · -- less than half a unit
    obtain ⟨e, rfl⟩ : ∃ e : Nat, exponent = -e := ⟨(-exponent).toNat, by omega⟩
    have hless : 2 * (c * 2 ^ bits) < 10 ^ e := by
      calc 2 * (c * 2 ^ bits) = c * 2 ^ (bits + 1) := by rw [Nat.pow_succ]; ac_rfl
        _ < 2 ^ (c.log2 + 1) * 2 ^ (bits + 1) :=
          Nat.mul_lt_mul_of_pos_right Nat.lt_log2_self (Nat.two_pow_pos _)
        _ = 2 ^ (c.log2 + 1 + (bits + 1)) := (Nat.pow_add ..).symm
        _ ≤ 2 ^ (3 * e) := Nat.pow_le_pow_right (by decide) (by omega)
        _ ≤ 10 ^ e := two_pow_le_ten_pow e
    have hwhole : (-(e : Int)).toNat = 0 := by omega
    rw [ofRatio_eq_zero (by decide), ofRatio_eq_zero]
    rwa [hwhole, Nat.pow_zero, Nat.mul_one, Int.neg_neg, Int.toNat_natCast, hunits]
  · cases exponent with
    | ofNat e =>
      have hpart : (-Int.ofNat e).toNat = 0 := by simp
      rw [hpart, Nat.pow_zero]
      rfl
    | negSucc e =>
      have hwhole : (Int.negSucc e).toNat = 0 := rfl
      have hpart : (-Int.negSucc e).toNat = e + 1 := rfl
      rw [hwhole, hpart, Nat.pow_zero, Nat.mul_one]
      rfl

/-- **What a decimal denotes decides how it is rounded**: zeros at its end may stand in the
exponent. -/
theorem nearest_mul_pow (negative : Bool) (c k : Nat) (exponent : Int) :
    nearest negative (c * 10 ^ k) exponent = nearest negative c (exponent + k) := by
  have hten : ∀ e, 0 < 10 ^ e := fun e => Nat.pow_pos (by decide)
  have hexponents : k + exponent.toNat + (-(exponent + k)).toNat =
      (exponent + k).toNat + (-exponent).toNat := by omega
  rw [nearest_eq_ofRatio, nearest_eq_ofRatio]
  refine ofRatio_eq_of_mul_eq (hten _) (hten _) ?_
  generalize unitsPerOne = units
  calc c * 10 ^ k * 10 ^ exponent.toNat * units * 10 ^ (-(exponent + k)).toNat
      = c * units * 10 ^ (k + exponent.toNat + (-(exponent + k)).toNat) := by
        rw [Nat.pow_add, Nat.pow_add]
        ac_rfl
    _ = c * units * 10 ^ ((exponent + k).toNat + (-exponent).toNat) := by rw [hexponents]
    _ = c * 10 ^ (exponent + k).toNat * units * 10 ^ (-exponent).toNat := by
        rw [Nat.pow_add]
        ac_rfl

/-- A decimal is rounded in the same way with either sign. -/
theorem nearest_of_sign {sign sign' : Bool} {m : Magnitude} {exponent : Int}
    (h : nearest sign c exponent = finite sign' m) (negative : Bool) :
    nearest negative c exponent = finite negative m := by
  rw [nearest_eq_ofRatio] at h ⊢
  exact ofRatio_eq_finite (roundUnits_of_ofRatio h)

/-- Units are written by a power of five in the place of the least of them. -/
theorem nearest_exact {bits : Nat} {exponent : Int} (hbits : unitsPerOne = 2 ^ bits)
    (hexponent : exponent = -bits) (negative : Bool) (m : Magnitude) :
    nearest negative (m.units * Nat.pow 5 bits) exponent = finite negative m := by
  have hwhole : exponent.toNat = 0 := by omega
  have hpart : (-exponent).toNat = bits := by omega
  have hten : m.units * Nat.pow 5 bits * 2 ^ bits = m.units * 10 ^ bits := by
    rw [Nat.pow_eq, Nat.mul_assoc, ← Nat.mul_pow]
  rw [nearest_eq_ofRatio, hwhole, hpart, Nat.pow_zero, Nat.mul_one, hbits, hten,
    ofRatio_exact m (Nat.pow_pos (by decide))]

/-- A double that is a whole number is the nearest to it. -/
theorem nearest_whole {m : Magnitude} (h : m.units = n * unitsPerOne) (negative : Bool) :
    nearest negative n 0 = finite negative m := by
  have hexact : ofRatio negative (m.units * 1) 1 = finite negative m := ofRatio_exact m Nat.one_pos
  rw [Nat.mul_one, h] at hexact
  rw [nearest_eq_ofRatio, Int.neg_zero, Int.toNat_zero, Nat.pow_zero, Nat.mul_one, hexact]

/-- The double nearest to a whole number is whole. -/
theorem exists_of_nearest_whole {sign : Bool} {m : Magnitude}
    (h : nearest negative n 0 = finite sign m) : ∃ k, m.units = k * unitsPerOne := by
  obtain ⟨bits, -, hunits⟩ := exists_unitsPerOne_eq
  rw [nearest_eq_ofRatio, Int.neg_zero, Int.toNat_zero, Nat.pow_zero, Nat.mul_one, hunits] at h
  obtain ⟨k, hk⟩ := two_pow_dvd_roundUnits n bits
  refine ⟨k, ?_⟩
  rw [← roundUnits_of_ofRatio h, hk, hunits, Nat.mul_comm]

end Double

/-! ### Bits that move -/

/-- A number of 53 bits at most, or the next one, is representable in any place. -/
theorem representable_mul_two_pow (hn : n ≤ 2 ^ 53) (hb : 53 + b < overflowBits) :
    Representable (n * 2 ^ b) := by
  constructor
  · rcases Nat.lt_or_eq_of_le hn with hlt | rfl
    · have hlog := log2_mul_two_pow_le n b hlt
      exact (Nat.pow_dvd_pow 2 hlog).trans (Nat.dvd_mul_left _ _)
    · rw [← Nat.pow_add, Nat.log2_two_pow]
      exact Nat.pow_dvd_pow 2 (Nat.sub_le _ _)
  · rw [overflowUnits_eq]
    calc n * 2 ^ b ≤ 2 ^ 53 * 2 ^ b := Nat.mul_le_mul_right _ hn
      _ = 2 ^ (53 + b) := (Nat.pow_add ..).symm
      _ < 2 ^ overflowBits := Nat.pow_lt_pow_right (by decide) hb

/-- Whole numbers up to the first that needs 54 bits are doubles. -/
theorem exists_whole (hn : n ≤ 2 ^ 53) : ∃ m : Magnitude, m.units = n * unitsPerOne := by
  obtain ⟨bits, hbits, hunits⟩ := exists_unitsPerOne_eq
  have hlimit : overflowBits = 2098 := rfl
  exact ⟨⟨n * 2 ^ bits, representable_mul_two_pow hn (by omega)⟩, by rw [hunits]⟩

/-- Great representable numbers are multiples of powers of two. -/
theorem Representable.two_pow_dvd (h : Representable u) (hu : 2 ^ (52 + b) ≤ u) : 2 ^ b ∣ u := by
  have hne : u ≠ 0 := (Nat.lt_of_lt_of_le (Nat.two_pow_pos _) hu).ne'
  have hlog : 52 + b ≤ u.log2 := (Nat.le_log2 hne).2 hu
  exact (Nat.pow_dvd_pow 2 (by omega)).trans h.1

/-- Bits that are moved up stay representable below the limit. -/
theorem Representable.mul_two_pow (h : Representable u) (hlimit : u * 2 ^ b < overflowUnits) :
    Representable (u * 2 ^ b) := by
  refine ⟨?_, hlimit⟩
  have hlog : (u * 2 ^ b).log2 - 52 ≤ u.log2 - 52 + b := by
    rcases Nat.eq_zero_or_pos u with rfl | hu
    · simp
    · have hlt : u * 2 ^ b < 2 ^ (u.log2 + 1 + b) := by
        rw [Nat.pow_add]
        exact Nat.mul_lt_mul_of_pos_right Nat.lt_log2_self (Nat.two_pow_pos b)
      have := (Nat.log2_lt (Nat.mul_pos hu (Nat.two_pow_pos b)).ne').2 hlt
      omega
  refine (Nat.pow_dvd_pow 2 hlog).trans ?_
  rw [Nat.pow_add]
  exact Nat.mul_dvd_mul_right h.1 _

theorem Representable.of_mul_two_pow (h : Representable (u * 2 ^ b)) : Representable u := by
  have hpos : 0 < 2 ^ b := Nat.two_pow_pos b
  refine ⟨?_, Nat.lt_of_le_of_lt (Nat.le_mul_of_pos_right u hpos) h.2⟩
  rcases Nat.lt_or_ge u.log2 52 with hshort | hlong
  · rw [Nat.sub_eq_zero_of_le hshort.le]
    exact Nat.one_dvd u
  · have hu : u ≠ 0 := by
      rintro rfl
      exact absurd hlong (by decide)
    have hlog : u.log2 + b ≤ (u * 2 ^ b).log2 := by
      rw [Nat.le_log2 (Nat.mul_pos (Nat.pos_of_ne_zero hu) hpos).ne', Nat.pow_add]
      exact Nat.mul_le_mul_right _ (Nat.log2_self_le hu)
    have hdvd : 2 ^ (u.log2 - 52) * 2 ^ b ∣ u * 2 ^ b := by
      rw [← Nat.pow_add]
      exact (Nat.pow_dvd_pow 2 (by omega)).trans h.1
    exact Nat.dvd_of_mul_dvd_mul_right hpos hdvd

/-- The whole part of a representable number is representable. -/
theorem Representable.whole_part (h : Representable u) :
    Representable (u / unitsPerOne * unitsPerOne) := by
  obtain ⟨bits, hbits, hunits⟩ := exists_unitsPerOne_eq
  have hlimit : overflowBits = 2098 := rfl
  rw [hunits]
  by_cases hsteps : bits ≤ u.log2 - 52
  · -- all its bits stand before the point
    have hdvd : 2 ^ bits ∣ u := (Nat.pow_dvd_pow 2 hsteps).trans h.1
    rwa [Nat.div_mul_cancel hdvd]
  · have hu : u < 2 ^ (53 + bits) := by
      refine Nat.lt_of_lt_of_le Nat.lt_log2_self (Nat.pow_le_pow_right (by decide) ?_)
      omega
    rw [Nat.add_comm, Nat.pow_add] at hu
    exact representable_mul_two_pow (Nat.div_lt_of_lt_mul hu).le (by omega)

namespace Double

variable {m m' : Magnitude}

/-- A quotient by a whole number is exact if it is representable. -/
theorem divide_exact (hk : 0 < k) (h : m.units = m'.units * k) :
    (finite negative m).divide k = finite negative m' := by
  rw [divide, h, ofRatio_exact m' hk]

/-- A quotient by a power of two is exact, or next to nothing is left. -/
theorem divide_two_pow (negative : Bool) (m : Magnitude) (b : Nat) :
    ∃ m' : Magnitude, (finite negative m).divide (2 ^ b) = finite negative m' ∧
      (m.units = m'.units * 2 ^ b ∨ m'.units ≤ 2 ^ 53) := by
  rcases Nat.lt_or_ge m.units (2 ^ (52 + b)) with hsmall | hgreat
  · rw [Nat.pow_add] at hsmall
    have hfew := roundUnits_le hsmall
    have hbits : 53 + 0 < overflowBits := by decide
    have hrepresentable := (representable_mul_two_pow hfew hbits).of_mul_two_pow
    refine ⟨⟨_, hrepresentable⟩, ?_, .inr hfew⟩
    rw [divide]
    exact ofRatio_eq_finite rfl
  · obtain ⟨q, hq⟩ := m.representable.two_pow_dvd hgreat
    rw [Nat.mul_comm] at hq
    have hrepresentable : Representable q := (hq ▸ m.representable).of_mul_two_pow
    exact ⟨⟨q, hrepresentable⟩, divide_exact (Nat.two_pow_pos b) hq, .inl hq⟩

/-- A product is exact if it is representable. -/
theorem scale_exact (h : m.units = m'.units * k) :
    (finite negative m').scale k = finite negative m := by
  have hexact : ofRatio negative (m.units * 1) 1 = finite negative m := ofRatio_exact m Nat.one_pos
  rw [scale, ← h, ← Nat.mul_one m.units, hexact]

theorem truncate?_finite (negative : Bool) (m : Magnitude) :
    (finite negative m).truncate? = some
      (if negative then -((m.units / unitsPerOne : Nat) : Int)
      else (m.units / unitsPerOne : Nat)) := by
  rw [truncate?, Int.natCast_ediv]

/-- A whole number is its own whole part. -/
theorem truncate?_whole (h : m.units = n * unitsPerOne) :
    (finite negative m).truncate? = some (if negative then -(n : Int) else n) := by
  rw [truncate?_finite, h, Nat.mul_div_cancel _ unitsPerOne_pos]

theorem whole?_whole (h : m.units = n * unitsPerOne) :
    (finite negative m).whole? = some (if negative then -(n : Int) else n) := by
  have hmod : m.units % unitsPerOne = 0 := by rw [h, Nat.mul_mod_left]
  rw [whole?, if_pos hmod, truncate?_whole h]

/-- A whole value is that of a whole number of units. -/
theorem exists_of_whole? {k : Int} (h : (finite negative m).whole? = some k) :
    ∃ n : Nat, m.units = n * unitsPerOne ∧ k = if negative then -(n : Int) else n := by
  rw [whole?] at h
  split at h
  · rename_i hwhole
    rw [truncate?_finite] at h
    exact ⟨m.units / unitsPerOne, (Nat.div_mul_cancel (Nat.dvd_of_mod_eq_zero hwhole)).symm,
      (Option.some.inj h).symm⟩
  · cases h

/-- An integer is a double exactly if its units are representable. -/
theorem exists_whole?_iff {i : Int} :
    (∃ x : Double, x.whole? = some i) ↔ ∃ m : Magnitude, m.units = i.natAbs * unitsPerOne := by
  constructor
  · rintro ⟨x, hx⟩
    cases x with
    | finite negative m =>
      obtain ⟨k, hm, hk⟩ := exists_of_whole? hx
      obtain rfl : i.natAbs = k := by
        split at hk <;> omega
      exact ⟨m, hm⟩
    | infinite negative => cases hx
    | nan => cases hx
  · rintro ⟨m, hm⟩
    rcases Int.le_total 0 i with hi | hi
    · refine ⟨finite false m, ?_⟩
      rw [whole?_whole hm, if_neg Bool.false_ne_true, Int.natAbs_of_nonneg hi]
    · refine ⟨finite true m, ?_⟩
      rw [whole?_whole hm, if_pos rfl, Int.ofNat_natAbs_of_nonpos hi, Int.neg_neg]

theorem truncate?_of_whole? {x : Double} {k : Int} (h : x.whole? = some k) :
    x.truncate? = some k := by
  cases x with
  | finite negative m =>
    rw [whole?] at h
    split at h
    · exact h
    · cases h
  | infinite negative => cases h
  | nan => cases h

/-- Few units are no whole number but zero. -/
theorem whole?_of_few (hzero : m.units ≠ 0) (hfew : m.units ≤ 2 ^ 57) :
    (finite negative m).whole? = none := by
  obtain ⟨bits, hbits, hunits⟩ := exists_unitsPerOne_eq
  refine Option.eq_none_iff_forall_ne_some.2 fun k hk => ?_
  obtain ⟨n, hn, -⟩ := exists_of_whole? hk
  have hone : 0 < n := by
    refine Nat.pos_of_ne_zero ?_
    rintro rfl
    exact hzero (by rw [hn, Nat.zero_mul])
  have hgreat : 2 ^ 57 < m.units := by
    calc 2 ^ 57 < 2 ^ bits := Nat.pow_lt_pow_right (by decide) (by omega)
      _ ≤ n * 2 ^ bits := Nat.le_mul_of_pos_left _ hone
      _ = m.units := by rw [hn, hunits]
  omega

end Double

end SpacingClasses
