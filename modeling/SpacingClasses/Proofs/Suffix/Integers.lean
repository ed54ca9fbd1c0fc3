import SpacingClasses.Proofs.Number.Rational
import SpacingClasses.Proofs.Suffix.Numerals

/-!
# The suffixes of integers

* `ofDouble_whole` : a double that is an integer has the suffix of the integer, if a double can hold
  its pixels;
* `ofValue_integer` : **integers, decimals and doubles that are equal have the same suffix**, and
  different integers have different ones;
* `ofValue_negativeText` : **the text of an integer less than zero has the suffix of the nearest
  double**, and so that of the integer exactly if the integer is a double.
-/

namespace SpacingClasses

namespace Suffix

variable {n : Int} {k : Nat} {x : Double}

/-- A double that is an integer has the suffix of the integer, if a double can hold its pixels. -/
theorem ofDouble_whole (hn : n ≠ 0) (hx : x.whole? = some n)
    (hlimit : 4 * n.natAbs * unitsPerOne < overflowUnits) : ofDouble x = ofInteger n := by
  cases x with
  | finite negative m =>
    obtain ⟨k, hm, rfl⟩ := Double.exists_of_whole? hx
    have hk : k ≠ 0 := by
      rintro rfl
      cases negative <;> exact hn rfl
    cases negative with
    | false =>
      have hne : m.units ≠ 0 := by
        rw [hm]
        exact Nat.mul_ne_zero hk unitsPerOne_pos.ne'
      have hwrite := write_eq_ofDouble hne
      rw [Number.write, hx] at hwrite
      have hnot : ¬ (k : Int) < 0 := by omega
      rw [← Except.ok.inj hwrite, ofInteger]
      exact (if_neg hnot).symm
    | true =>
      rw [if_pos rfl, Int.natAbs_neg, Int.natAbs_natCast] at hlimit
      have hneg : -(k : Int) < 0 := by omega
      rw [ofDouble_minus_whole hm hk hlimit, ofInteger, if_pos rfl, if_pos hneg, Int.natAbs_neg,
        Int.natAbs_natCast]
  | infinite negative => cases hx
  | nan => cases hx

/-- **Integers, decimals and doubles that are equal have the same suffix**: a number greater than
zero stays as it is, one less than zero becomes four times as many pixels.  Different integers have
different suffixes. -/
theorem ofValue_integer {n : Int} (hn : n ≠ 0) (hlength : (Text.ofNat n.natAbs).length ≤ 4000) :
    ofValue (.int n) = .ok (if n < 0 then bracketed ('-' :: (Text.ofNat (4 * n.natAbs) ++ "px"))
      else Text.ofNat n.natAbs) ∧
    (∀ d : Decimal, d.toRat? = some (n : ℚ) → ofValue (.decimal d) = ofValue (.int n)) ∧
    (∀ x : Double, x.toRat? = some (n : ℚ) → 4 * n.natAbs * unitsPerOne < overflowUnits →
      ofValue (.float x) = ofValue (.int n)) ∧
    ∀ i : Int, (Text.ofNat i.natAbs).length ≤ 4000 → ofValue (.int i) = ofValue (.int n) →
      i = n := by
  have hlimit : 4000 < Integer.maxDigits := by decide
  have hint := ofInt_of_length (hlength.trans_lt hlimit)
  refine ⟨hint, fun d hd => ?_, fun x hx hfits => ?_, fun i hi heq => ?_⟩
  · calc ofValue (.decimal d) = ofNumber (.int n) := by
          rw [ofValue, Decimal.number?_of_toRat? hn hlength hd]
      _ = ofValue (.int n) := rfl
  · have hwhole := Double.toRat?_eq_intCast_iff.1 hx
    calc ofValue (.float x) = .ok (ofDouble x) := by
          rw [ofValue, if_pos (Double.isFinite_of_toRat? hx)]
      _ = ofInt n := by rw [ofDouble_whole hn hwhole hfits, hint]
  · rw [ofValue, ofValue, ofInt_of_length (hi.trans_lt hlimit), hint] at heq
    exact ofInteger_injective (Except.ok.inj heq)

theorem ofValue_integer_minusTwo :
    ofValue (.int (-2)) = .ok "[-8px]".toList ∧
      ofValue (.decimal (.finite true 200 (-2))) = ofValue (.int (-2)) ∧
      ofValue (.float (.nearest true 2 0)) = ofValue (.int (-2)) ∧
      ofValue (.int 2) ≠ ofValue (.int (-2)) := by
  obtain ⟨hint, hdecimal, hdouble, hinjective⟩ := ofValue_integer (n := -2) (by decide) (by decide)
  have hwhole : (Double.nearest true 2 0).whole? = some (-2) := by decide +kernel
  refine ⟨hint, hdecimal _ ?_, hdouble _ (Double.toRat?_eq_intCast_iff.2 hwhole) ?_, fun h => ?_⟩
  · norm_num [Decimal.toRat?, signed]
  · decide +kernel
  · exact absurd (hinjective 2 (by decide) h) (by decide)

/-! ### Texts of integers -/

/-- The text of an integer less than zero is read as the nearest double. -/
theorem ofText_minus (k : Nat) :
    ofText ('-' :: Text.ofNat k) =
      (Double.nearest true k 0).finite?.elim (bracketed ('-' :: Text.ofNat k)) ofDouble := by
  obtain ⟨n, hwrites, hdouble⟩ := Numeral.denotes_ofNat k ['-'] true .minus
  have hnegative : n.negative = true := by
    rw [← hwrites.isPrefixOf_minus]
    rfl
  rw [List.singleton_append] at hwrites
  rw [ofText_of_writes hwrites, if_pos hnegative, hdouble]

/-- Such a text becomes the pixels of the integer exactly if a double is the integer and a double
can hold the pixels. -/
theorem ofText_minus_eq_iff (hk : k ≠ 0) :
    ofText ('-' :: Text.ofNat k) = minusPixels k ↔
      (∃ m : Magnitude, m.units = k * unitsPerOne) ∧ 4 * k * unitsPerOne < overflowUnits := by
  rw [ofText_minus]
  constructor
  · intro h
    cases hx : (Double.nearest true k 0).finite? with
    | none =>
      rw [hx, Option.elim_none] at h
      have huses : Text.Uses Number.marks ('-' :: Text.ofNat k) :=
        Text.uses_cons.2 ⟨.inr Number.minus_mem_marks, Text.uses_ofNat k⟩
      exact absurd h (bracketed_ne_minusPixels huses k)
    | some x =>
      obtain ⟨hfinite, hnearest⟩ := Double.finite?_eq_some_iff.1 hx
      rw [hnearest] at hfinite
      obtain ⟨sign, m, rfl⟩ := Double.exists_of_isFinite hfinite
      obtain rfl : sign = true := Double.nearest_sign hnearest
      obtain ⟨j, hm⟩ := Double.exists_of_nearest_whole hnearest
      rw [hx, Option.elim_some, ofDouble_minus_eq_iff hm hk] at h
      obtain ⟨rfl, hlimit⟩ := h
      exact ⟨⟨m, hm⟩, hlimit⟩
  · rintro ⟨⟨m, hm⟩, hlimit⟩
    rw [Double.nearest_whole hm, Double.finite?_finite, Option.elim_some,
      ofDouble_minus_whole hm hk hlimit]

/-- **The text of an integer less than zero has the suffix of the double nearest to it**, or is left
as a literal if this is infinite.  It has the suffix of the integer exactly if a double is the
integer and a double can hold its pixels. -/
theorem ofValue_negativeText {n : Int} (hn : n < 0) :
    ofValue (.text (Integer.text n)) =
      (Double.nearest true n.natAbs 0).finite?.elim (.ok (bracketed (Integer.text n)))
        (fun x => ofValue (.float x)) ∧
    (ofValue (.text (Integer.text n)) = ofValue (.int n) ↔
      (∃ x : Double, x.toRat? = some (n : ℚ)) ∧ 4 * n.natAbs * unitsPerOne < overflowUnits) := by
  obtain ⟨k, hk, rfl⟩ : ∃ k : Nat, k ≠ 0 ∧ n = -(k : Int) := ⟨n.natAbs, by omega, by omega⟩
  have htext : Integer.text (if true then -(k : Int) else k) = '-' :: Text.ofNat k :=
    Integer.text_signed fun _ => hk
  have hint : ofValue (.int (-(k : Int))) = ofInt (-(k : Int)) := rfl
  rw [if_pos rfl] at htext
  rw [htext, ofValue, hint, Int.natAbs_neg, Int.natAbs_natCast]
  constructor
  · rw [ofText_minus]
    cases hx : (Double.nearest true k 0).finite? with
    | none => rfl
    | some x =>
      obtain ⟨hfinite, rfl⟩ := Double.finite?_eq_some_iff.1 hx
      rw [Option.elim_some, Option.elim_some, ofValue, if_pos hfinite]
  · simp only [Double.toRat?_eq_intCast_iff]
    rw [eq_comm, ofInt_eq_ok_iff, writtenIn, if_pos hn, ofInteger, if_pos hn,
      Double.exists_whole?_iff, Int.natAbs_neg, Int.natAbs_natCast, ofText_minus_eq_iff hk]
    refine and_iff_right_of_imp ?_
    rintro ⟨⟨m, hm⟩, hlimit⟩
    -- a double that is whole has few enough digits
    obtain ⟨px, -, hpx⟩ := exists_pixels hm hlimit
    have hwhole : (Double.finite false px).whole? = some _ := Double.whole?_whole hpx
    exact Double.length_le_of_whole? hwhole

theorem ofValue_negativeText_five :
    ofValue (.text "-5") = ofValue (.float (.nearest true 5 0)) ∧
      ofValue (.text "-5") = ofValue (.int (-5)) := by
  have hwhole : (Double.nearest true 5 0).whole? = some (-5) := by decide +kernel
  have hfinite : (Double.nearest true 5 0).finite? = some (.nearest true 5 0) := by decide +kernel
  obtain ⟨hnearest, hexact⟩ := ofValue_negativeText (n := -5) (by decide)
  refine ⟨?_, hexact.2 ⟨⟨_, Double.toRat?_eq_intCast_iff.2 hwhole⟩, by decide +kernel⟩⟩
  have hfive : (-5 : Int).natAbs = 5 := rfl
  rw [hfive, hfinite] at hnearest
  exact hnearest

/-- An integer of 54 bits loses the last one in its text. -/
theorem ofValue_negativeText_inexact :
    ofValue (.text (Integer.text (-9007199254740993))) = .ok "[-36028797018963968px]".toList ∧
      ofValue (.int (-9007199254740993)) = .ok "[-36028797018963972px]".toList ∧
      ofValue (.text (Integer.text (-9007199254740993))) ≠ ofValue (.int (-9007199254740993)) := by
  have htext : ofText (Integer.text (-9007199254740993)) = "[-36028797018963968px]" := by
    decide +kernel
  have hint : ofValue (.int (-9007199254740993)) = .ok "[-36028797018963972px]".toList := by
    rfl
  rw [ofValue, htext, hint]
  exact ⟨rfl, rfl, fun h => absurd (Except.ok.inj h) (by decide)⟩

end Suffix

end SpacingClasses
