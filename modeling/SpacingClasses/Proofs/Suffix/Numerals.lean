import SpacingClasses.Proofs.Suffix.Pixels

/-!
# The suffixes of numbers and of numerals

A text that is a numeral is a number only behind a minus.

* `ofInteger_injective` : different integers have different suffixes;
* `ofDouble_minus_eq_iff` : a double has the suffix of an integer below zero only if it is this
  integer and a double can hold the pixels;
* `ofDouble_eq_zero_iff`, `ofInt_eq_zero_iff` : **zero alone has the suffix of zero**;
* `ofText_of_writes` : **a numeral behind a minus has the suffix of the double that it is read as**,
  or is left as a literal if there is none; any other is a step or a literal.
-/

namespace SpacingClasses

open Numeral (Writes)

namespace Suffix

variable {t : Text} {n : Numeral} {m : Magnitude} {k : Nat}

theorem bracketed_ne_zero (t : Text) : bracketed t ≠ "0" := by
  intro h
  exact absurd (List.cons.inj h).1 (by decide)

/-! ### Whole numbers -/

theorem minusPixels_injective : Function.Injective minusPixels := by
  intro j k h
  have hpx := (List.cons.inj (bracketed_injective h)).2
  have hfour := Text.ofNat_injective (List.append_cancel_right hpx)
  omega

theorem minusPixels_ne_ofNat (j k : Nat) : minusPixels j ≠ Text.ofNat k := by
  intro h
  have hbracket : '[' ∈ Text.ofNat k := h ▸ List.mem_cons_self
  exact absurd (Text.isDigit_of_mem_ofNat hbracket) (by decide)

/-- Nothing that is written with digits and marks alone has pixels. -/
theorem bracketed_ne_minusPixels (ht : Text.Uses Number.marks t) (k : Nat) :
    bracketed t ≠ minusPixels k := by
  intro h
  have hx : 'x' ∈ t := by
    rw [bracketed_injective h]
    exact List.mem_cons_of_mem _ (List.mem_append_right _ (by decide))
  exact absurd (ht 'x' hx) (by decide)

/-- The pixels of a double that is whole are one, below the limit. -/
theorem exists_pixels (hm : m.units = k * unitsPerOne)
    (hlimit : 4 * k * unitsPerOne < overflowUnits) :
    ∃ px : Magnitude, px.units = m.units * pxPerUnit ∧ px.units = 4 * k * unitsPerOne := by
  have hfour : 2 ^ 2 = pxPerUnit := rfl
  have hunits : m.units * pxPerUnit = 4 * k * unitsPerOne := by
    rw [hm, pxPerUnit, Nat.mul_right_comm, Nat.mul_comm k]
  have hrepresentable : Representable (m.units * 2 ^ 2) :=
    m.representable.mul_two_pow (by rwa [hfour, hunits])
  rw [hfour] at hrepresentable
  exact ⟨⟨_, hrepresentable⟩, rfl, hunits⟩

/-- A whole number less than zero becomes four times as many pixels. -/
theorem ofDouble_minus_whole (hm : m.units = k * unitsPerOne) (hk : k ≠ 0)
    (hlimit : 4 * k * unitsPerOne < overflowUnits) :
    ofDouble (.finite true m) = minusPixels k := by
  have hne : m.units ≠ 0 := by
    rw [hm]
    exact Nat.mul_ne_zero hk unitsPerOne_pos.ne'
  obtain ⟨px, hscale, hpx⟩ := exists_pixels hm hlimit
  rw [ofDouble_minus hne, Double.scale_exact hscale, Double.finite?_finite, Option.elim_some,
    Double.whole?_whole hpx]
  rfl

/-- If the pixels are too many for a double, the number is left as a literal. -/
theorem ofDouble_minus_overflow (hlimit : overflowUnits ≤ m.units * pxPerUnit) :
    ofDouble (.finite true m) = bracketed (Double.finite true m).text := by
  have hne : m.units ≠ 0 := by
    intro hzero
    rw [hzero, Nat.zero_mul] at hlimit
    exact absurd Double.overflowUnits_pos (Nat.not_lt.2 hlimit)
  have hscale : (Double.finite false m).scale pxPerUnit = .infinite false := by
    rw [Double.scale]
    refine Double.ofRatio_eq_infinite Nat.one_pos ?_
    rwa [Nat.mul_one, ← overflowUnits_eq]
  rw [ofDouble_minus hne, hscale]
  rfl

/-- A whole number less than zero becomes the pixels of a number only if it is this number and a
double can hold the pixels. -/
theorem ofDouble_minus_eq_iff {j : Nat} (hm : m.units = j * unitsPerOne) (hk : k ≠ 0) :
    ofDouble (.finite true m) = minusPixels k ↔ j = k ∧ 4 * k * unitsPerOne < overflowUnits := by
  constructor
  · intro h
    have hj : j ≠ 0 := by
      rintro rfl
      rw [ofDouble_zero (by rw [hm, Nat.zero_mul])] at h
      exact bracketed_ne_zero _ h.symm
    rcases Nat.lt_or_ge (4 * j * unitsPerOne) overflowUnits with hlimit | hlimit
    · rw [ofDouble_minus_whole hm hj hlimit] at h
      obtain rfl := minusPixels_injective h
      exact ⟨rfl, hlimit⟩
    · have hoverflow : overflowUnits ≤ m.units * pxPerUnit := by
        rwa [hm, pxPerUnit, Nat.mul_right_comm, Nat.mul_comm j]
      rw [ofDouble_minus_overflow hoverflow] at h
      exact absurd h (bracketed_ne_minusPixels (Double.uses_text _) k)
  · rintro ⟨rfl, hlimit⟩
    exact ofDouble_minus_whole hm hk hlimit

/-- Different integers have different suffixes. -/
theorem ofInteger_injective : Function.Injective ofInteger := by
  intro i n h
  rw [ofInteger, ofInteger] at h
  split_ifs at h with hi hn hn
  · have := minusPixels_injective h
    omega
  · exact absurd h (minusPixels_ne_ofNat _ _)
  · exact absurd h.symm (minusPixels_ne_ofNat _ _)
  · have := Text.ofNat_injective h
    omega

/-! ### Zero -/

/-- Zero alone has the suffix of zero. -/
theorem ofDouble_eq_zero_iff {x : Double} (hx : x.isFinite = true) :
    ofDouble x = "0" ↔ x.isZero = true := by
  obtain ⟨negative, m, rfl⟩ := Double.exists_of_isFinite hx
  have hunits : (Double.finite negative m).isZero = true ↔ m.units = 0 := beq_iff_eq
  rw [hunits]
  refine ⟨fun h => ?_, ofDouble_zero⟩
  by_contra hm
  cases negative with
  | true =>
    obtain ⟨t, ht⟩ := exists_ofDouble_minus hm
    exact bracketed_ne_zero t (ht.symm.trans h)
  | false =>
    -- a double is read back from its text
    have hread := Double.parseFloat?_write (by simp) (write_eq_ofDouble hm)
    have hzero : parseFloat? "0" = some (Double.nearest false 0 0) := by decide +kernel
    rw [h, hzero, Option.some.injEq] at hread
    have hnearest := Double.isZero_nearest_zero false 0
    rw [hread] at hnearest
    exact hm (hunits.1 hnearest)

theorem ofInt_eq_zero_iff {i : Int} : ofInt i = .ok "0" ↔ i = 0 := by
  have hzero : ofInteger 0 = "0" := rfl
  constructor
  · intro h
    rw [ofInt_eq_ok_iff, ← hzero] at h
    exact (ofInteger_injective h.2).symm
  · rintro rfl
    rfl

/-! ### Numerals -/

/-- Without a unit behind it, a length is a step or a literal. -/
theorem ofLength_of_no_unit (hx : 'x' ∉ t) (hm : 'm' ∉ t) :
    ofLength t = if Scale.isStep t then t else bracketed t := by
  have hpx : ("px" : Text).isSuffixOf t = false := by
    refine Bool.eq_false_iff.2 fun h => hx ?_
    exact (List.isSuffixOf_iff_suffix.1 h).subset (by decide)
  have hrem : ("rem" : Text).isSuffixOf t = false := by
    refine Bool.eq_false_iff.2 fun h => hm ?_
    exact (List.isSuffixOf_iff_suffix.1 h).subset (by decide)
  have hzero : zeroLengths.contains t = true → t = "0" := by
    intro h
    have hzeros : ∀ u ∈ zeroLengths, 'x' ∉ u → 'm' ∉ u → u = "0" := by decide
    exact hzeros t (List.contains_iff_mem.1 h) hx hm
  rw [ofLength, stepOfLength?, hpx, hrem]
  split
  · rename_i hmem
    rw [hzero hmem]
    rfl
  · rfl

/-- **A numeral behind a minus has the suffix of the double that it is read as**, or is left as a
literal if there is none; any other is a step or a literal. -/
theorem ofText_of_writes (h : Writes t n) :
    ofText t = if n.negative then n.toDouble.finite?.elim (bracketed t) ofDouble
      else if Scale.isStep t then t else bracketed t := by
  have hletter : 'a' ∉ t ∧ 'c' ∉ t ∧ 'm' ∉ t ∧ 'x' ∉ t := by
    refine ⟨?_, ?_, ?_, ?_⟩ <;> exact h.not_mem (by decide) (by decide)
  have hblank : ¬ ∀ c ∈ t, Text.isBlank c = true := by
    obtain ⟨c, hc⟩ := List.exists_mem_of_ne_nil t h.ne_nil
    exact Text.not_blank_of_mem hc (h.solid c hc)
  have hauto : t ≠ auto := by
    rintro rfl
    exact hletter.1 (by decide)
  obtain ⟨-, hc, hm, hx⟩ := hletter
  rw [ofText_of_not_blank hblank hauto, tidy_eq_self hc, ofLength_of_no_unit hx hm,
    h.isPrefixOf_minus, h.parseNumber?]
  cases hnegative : n.negative with
  | false => rfl
  | true =>
    have hstep : Scale.isStep t = false := by
      have hsteps : ∀ name ∈ Scale.steps.map Step.name,
          ("-" : Text).isPrefixOf name = false := by decide
      refine Bool.eq_false_iff.2 fun hstep => ?_
      have hminus := hsteps t (Scale.isStep_iff.1 hstep)
      rw [h.isPrefixOf_minus, hnegative] at hminus
      cases hminus
    rw [if_pos rfl, if_pos rfl, if_neg (Bool.eq_false_iff.1 hstep)]

end Suffix

end SpacingClasses
