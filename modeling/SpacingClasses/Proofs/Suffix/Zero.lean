import SpacingClasses.Proofs.Number.Notation
import SpacingClasses.Proofs.Number.Rational
import SpacingClasses.Proofs.Suffix.Numerals

/-!
# Which numbers have the suffix of zero

Zero is told from all other numbers, but for two kinds of decimals that count as no numbers.

* `Value.FarZero` : a zero with so great an exponent that it is taken for a number of too many
  digits, and is left as a literal;
* `Value.Fading` : a decimal less than zero that a double cannot hold: its text is a numeral behind
  a minus, and what is read from it is zero;
* `Suffix.ofValue_eq_zero_iff` : **the suffix of a finite number is that of zero exactly if the
  number is a zero that is not far, or fades.**
-/

namespace SpacingClasses

variable {v : Value} {q : ℚ} {negative : Bool} {c : Nat} {e : Int}

/-! ### Decimals that count as no numbers -/

/-- A zero that is written with too great an exponent to count as a number. -/
def Value.FarZero (v : Value) : Prop :=
  ∃ e, v = .decimal (.finite false 0 e) ∧ Decimal.maxLeadingExponent < e

/-- A decimal less than zero, but by no more than what is rounded to zero. -/
def Value.Fading (v : Value) : Prop :=
  ∃ c e, v = .decimal (.finite true c e) ∧ c ≠ 0 ∧ (c : ℚ) * 10 ^ e ≤ Double.halfUnit

theorem Double.halfUnit_pos : 0 < halfUnit := by
  have hunits : (0 : ℚ) < unitsPerOne := Nat.cast_pos.2 unitsPerOne_pos
  rw [halfUnit]
  positivity

theorem Double.halfUnit_lt_one : halfUnit < 1 := by
  have hunits : (1 : ℚ) ≤ unitsPerOne := Nat.one_le_cast.2 unitsPerOne_pos
  rw [halfUnit, div_lt_one (by linarith)]
  linarith

namespace Decimal

theorem leadingExponent_zero (e : Int) : leadingExponent 0 e = e := by
  have hlength : (Text.ofNat 0).length = 1 := rfl
  rw [leadingExponent, hlength]
  omega

/-- A zero counts as the number that it is, if its exponent is not too great. -/
theorem number?_zero (h : ¬ maxLeadingExponent < e) :
    (finite negative 0 e).number? = some (.int 0) := by
  have hwhole : whole? negative 0 e = some 0 := by
    rw [whole?_eq_some_iff, Nat.cast_zero, zero_mul]
    cases negative <;> simp [signed]
  rw [number?, leadingExponent_zero, if_neg h, hwhole]

/-- A part of one is no integer, be it ever so small. -/
theorem whole?_of_lt_one (hc : c ≠ 0) (h : (c : ℚ) * 10 ^ e < 1) : whole? negative c e = none := by
  refine Option.eq_none_iff_forall_ne_some.2 fun n hn => ?_
  have hpos : (0 : ℚ) < c * 10 ^ e := by positivity
  have hvalue := eq_natAbs_of_signed hpos.le (whole?_eq_some_iff.1 hn)
  rw [hvalue] at h hpos
  have hone : n.natAbs < 1 := by exact_mod_cast h
  have hzero : 0 < n.natAbs := by exact_mod_cast hpos
  omega

/-- What is rounded to zero, but is not zero, counts as no number. -/
theorem number?_of_le_halfUnit (hc : c ≠ 0) (h : (c : ℚ) * 10 ^ e ≤ Double.halfUnit) :
    (finite negative c e).number? = none := by
  have hzero : (Double.nearest negative c e).isZero = true := Double.isZero_nearest_iff.2 h
  refine Option.eq_none_iff_forall_ne_some.2 fun n hn => ?_
  rcases number?_cases hn with ⟨i, -, hwhole⟩ | ⟨x, -, hx, -, hnot⟩
  · rw [whole?_of_lt_one hc (h.trans_lt Double.halfUnit_lt_one)] at hwhole
    cases hwhole
  · rw [hx, hnot] at hzero
    cases hzero

end Decimal

/-! ### Suffixes -/

namespace Suffix

/-- A decimal that counts as no number has the suffix of zero exactly if it has a minus and is
rounded to zero. -/
theorem ofText_eq_zero_iff (hnone : (Decimal.finite negative c e).number? = none) :
    ofText (Decimal.finite negative c e).text = "0" ↔
      negative = true ∧ (c : ℚ) * 10 ^ e ≤ Double.halfUnit := by
  obtain ⟨ds, hwrites, hvalue⟩ := Decimal.exists_writes_text negative c e
  have hdouble : Numeral.toDouble ⟨negative, ds, e⟩ = Double.nearest negative c e := by
    rw [Numeral.toDouble, hvalue]
  rw [ofText_of_writes hwrites, hdouble]
  cases negative with
  | false =>
    rw [if_neg Bool.false_ne_true]
    refine iff_of_false (fun h => ?_) (fun h => Bool.false_ne_true h.1)
    have htext : (Decimal.finite false c e).text = "0" := by
      split at h
      · exact h
      · exact absurd h (bracketed_ne_zero _)
    -- the text is that of a number after all
    have hread : Numeral.whole? "0" = some ⟨false, [0], 0⟩ := by decide
    rw [← htext, Numeral.whole?_eq_some_iff.2 hwrites, Option.some.injEq, Numeral.mk.injEq] at hread
    obtain ⟨-, rfl, rfl⟩ := hread
    obtain rfl : c = 0 := hvalue.symm
    rw [Decimal.number?_zero (by decide)] at hnone
    cases hnone
  | true =>
    have hrounded : (Double.nearest true c e).isZero = true ↔ (c : ℚ) * 10 ^ e ≤ Double.halfUnit :=
      Double.isZero_nearest_iff
    rw [if_pos rfl, ← hrounded]
    cases hx : (Double.nearest true c e).finite? with
    | none =>
      have hnot : ¬ (Double.nearest true c e).isZero = true := by
        intro hzero
        rw [Double.finite?_of_isZero hzero] at hx
        cases hx
      exact iff_of_false (bracketed_ne_zero _) fun h => hnot h.2
    | some x =>
      obtain ⟨hfinite, rfl⟩ := Double.finite?_eq_some_iff.1 hx
      rw [Option.elim_some, ofDouble_eq_zero_iff hfinite]
      exact (and_iff_right rfl).symm

/-- A zero has the suffix of zero exactly if it counts as a number, or has a minus. -/
theorem ofValue_decimalZero_iff :
    ofValue (.decimal (.finite negative 0 e)) = .ok "0" ↔
      (negative = false → ¬ Decimal.maxLeadingExponent < e) := by
  by_cases hfar : Decimal.maxLeadingExponent < e
  · have hnone : (Decimal.finite negative 0 e).number? = none := by
      rw [Decimal.number?, Decimal.leadingExponent_zero, if_pos hfar]
    have hzero : ((0 : Nat) : ℚ) * 10 ^ e ≤ Double.halfUnit := by
      rw [Nat.cast_zero, zero_mul]
      exact Double.halfUnit_pos.le
    rw [ofValue, hnone, Except.ok.injEq, ofText_eq_zero_iff hnone, and_iff_left hzero]
    cases negative <;> simp [hfar]
  · rw [ofValue, Decimal.number?_zero hfar]
    exact iff_of_true rfl fun _ => hfar

/-- Any other decimal has the suffix of zero exactly if it has a minus and is rounded to zero. -/
theorem ofValue_decimal_eq_zero_iff (hc : c ≠ 0) :
    ofValue (.decimal (.finite negative c e)) = .ok "0" ↔
      negative = true ∧ (c : ℚ) * 10 ^ e ≤ Double.halfUnit := by
  rw [ofValue]
  cases hn : (Decimal.finite negative c e).number? with
  | none => rw [Except.ok.injEq, ofText_eq_zero_iff hn]
  | some n =>
    have hgreat : ¬ (c : ℚ) * 10 ^ e ≤ Double.halfUnit := by
      intro h
      rw [Decimal.number?_of_le_halfUnit hc h] at hn
      cases hn
    refine iff_of_false (fun h => hgreat ?_) fun h => hgreat h.2
    rcases Decimal.number?_cases hn with ⟨i, rfl, hwhole⟩ | ⟨x, rfl, rfl, hfinite, hzero⟩
    · obtain rfl := ofInt_eq_zero_iff.1 h
      rw [Decimal.whole?_eq_some_iff, Int.cast_zero, signed_eq_zero_iff] at hwhole
      rw [hwhole]
      exact Double.halfUnit_pos.le
    · rw [(ofDouble_eq_zero_iff hfinite).1 (Except.ok.inj h)] at hzero
      cases hzero

/-- **The suffix of a finite number is that of zero exactly if the number is a zero that is not far,
or fades.** -/
theorem ofValue_eq_zero_iff (h : v.toRat? = some q) :
    ofValue v = .ok "0" ↔ (q = 0 ∧ ¬ v.FarZero) ∨ v.Fading := by
  cases v with
  | int n =>
    obtain rfl : (n : ℚ) = q := Option.some.inj h
    rw [ofValue, ofInt_eq_zero_iff, ← Int.cast_eq_zero (α := ℚ)]
    simp [Value.FarZero, Value.Fading]
  | float x =>
    have hx : x.isFinite = true := Double.isFinite_of_toRat? h
    rw [ofValue, if_pos hx, Except.ok.injEq, ofDouble_eq_zero_iff hx,
      Double.isZero_iff_of_toRat? h]
    simp [Value.FarZero, Value.Fading]
  | decimal d =>
    cases d with
    | finite negative c e =>
      obtain rfl : signed negative (c * 10 ^ e) = q := Option.some.inj h
      have hten : (10 : ℚ) ^ e ≠ 0 := by positivity
      rw [signed_eq_zero_iff, mul_eq_zero, or_iff_left hten, Nat.cast_eq_zero]
      by_cases hc : c = 0
      · subst hc
        rw [ofValue_decimalZero_iff]
        simp [Value.FarZero, Value.Fading]
      · rw [ofValue_decimal_eq_zero_iff hc]
        simp [Value.Fading, hc]
    | infinite negative => cases h
    | nan negative signaling payload => cases h
  | _ => cases h

/-- With a minus, the zero that is far has the suffix of zero. -/
theorem ofValue_eq_zero_iff_minus :
    (Value.decimal (.finite true 0 9999)).toRat? = some 0 ∧
      ofValue (.decimal (.finite true 0 9999)) = .ok "0" := by
  have hvalue : (Value.decimal (.finite true 0 9999)).toRat? = some 0 := by
    simp [Value.toRat?, Decimal.toRat?, signed]
  refine ⟨hvalue, (ofValue_eq_zero_iff hvalue).2 (.inl ⟨rfl, ?_⟩)⟩
  rintro ⟨e, he, -⟩
  cases he

/-- A zero that is left as a literal, and a number that is not zero and has the suffix of zero. -/
theorem ofValue_zero_literal :
    ((Value.decimal (.finite false 0 9999)).toRat? = some 0 ∧
      ofValue (.decimal (.finite false 0 9999)) = .ok (bracketed "0E+9999")) ∧
    (∃ q, (Value.decimal (.finite true 1 (-400))).toRat? = some q ∧ q ≠ 0 ∧
      ofValue (.decimal (.finite true 1 (-400))) = .ok "0") := by
  constructor
  · have hfar : (Decimal.finite false 0 9999).number? = none := by decide
    have hsuffix : ofText (Decimal.finite false 0 9999).text = bracketed "0E+9999" := by
      decide +kernel
    refine ⟨by simp [Value.toRat?, Decimal.toRat?, signed], ?_⟩
    rw [ofValue, hfar, hsuffix]
  · have hfading : (Decimal.finite true 1 (-400)).number? = none := by decide +kernel
    have hsuffix : ofText (Decimal.finite true 1 (-400)).text = "0" := by decide +kernel
    refine ⟨_, rfl, signed_eq_zero_iff.not.2 (by positivity), ?_⟩
    rw [ofValue, hfading, hsuffix]

end Suffix

end SpacingClasses
