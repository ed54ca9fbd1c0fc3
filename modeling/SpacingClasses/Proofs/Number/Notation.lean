import SpacingClasses.Proofs.Number.Denotation

/-!
# The notation of decimals

A decimal is shown as it was written: nothing of its coefficient and its exponent is lost.

* `Decimal.writesMantissa_placed` : digits are a mantissa wherever their point is placed;
* `Decimal.exists_writes_text` : **the text of a decimal is a numeral with the same coefficient and
  the same exponent.**
-/

namespace SpacingClasses

open Numeral (Digits Writes WritesSign WritesMantissa WritesExponent)
open Text (ofDigits)

namespace Decimal

variable {negative : Bool}

/-- Digits are a mantissa wherever the point is placed, at their end or before it. -/
theorem writesMantissa_placed {digits : Text} {ds : List Nat} {places : Int}
    (hds : Digits digits ds) (hne : ds ≠ []) (hplaces : places ≤ ds.length) :
    ∃ es k, WritesMantissa
      (if places ≤ 0 then "0." ++ List.replicate (-places).toNat '0' ++ digits
        else if digits.length ≤ places.toNat then
          digits ++ List.replicate (places.toNat - digits.length) '0'
        else digits.take places.toNat ++ '.' :: digits.drop places.toNat) es k ∧
      ofDigits es = ofDigits ds ∧ (k : Int) = ds.length - places := by
  have hlength : digits.length = ds.length := hds.length_eq
  split_ifs with hsmall hwhole
  · refine ⟨_, _, Numeral.writesMantissa_small hds _, ?_, ?_⟩
    · exact (Text.ofDigits_zeros_append 1 _).trans (Text.ofDigits_zeros_append _ ds)
    · rw [List.length_append, List.length_replicate]
      omega
  · -- the point would stand at the end, and is left out
    have hend : places.toNat - digits.length = 0 := by omega
    rw [hend, List.replicate_zero, List.append_nil]
    exact ⟨ds, 0, .whole hds hne, rfl, by omega⟩
  · exact ⟨ds, _, Numeral.writesMantissa_split hds hne _, rfl, by omega⟩

/-- A decimal is written by its digits, behind any sign. -/
theorem exists_writes_finiteText {s : Text} (hs : WritesSign s negative) (coefficient : Nat)
    (exponent : Int) :
    ∃ ds, Writes (s ++ finiteText coefficient exponent) ⟨negative, ds, exponent⟩ ∧
      ofDigits ds = coefficient := by
  obtain ⟨ds, hds, hvalue⟩ := Text.exists_digits_ofNat coefficient
  have hne : ds ≠ [] := hds.values_ne_nil (Text.ofNat_ne_nil coefficient)
  have hlength : (Text.ofNat coefficient).length = ds.length := hds.length_eq
  have hpositive : 0 < ds.length := List.length_pos_iff.2 hne
  unfold finiteText
  extract_lets digits adjusted places mantissa
  have hadjusted : adjusted = exponent + ds.length := by
    simp only [adjusted, digits, hlength]
  have hplaces : places ≤ ds.length := by
    simp only [places]
    split_ifs with hpositional
    · simp only [Bool.and_eq_true, decide_eq_true_eq] at hpositional
      omega
    · omega
  obtain ⟨es, k, hmantissa, hes, hk⟩ := writesMantissa_placed hds hne hplaces
  rw [hvalue] at hes
  refine ⟨es, ?_, hes⟩
  clear_value places adjusted
  by_cases hpoint : adjusted = places
  · -- the point stands where the exponent puts it
    obtain rfl : exponent = 0 - (k : Int) := by omega
    rw [if_pos hpoint]
    have hwrites := Writes.mk hs hmantissa .none
    rwa [List.append_nil] at hwrites
  · obtain rfl : exponent = adjusted - places - (k : Int) := by omega
    have hbelow : adjusted < places ↔ adjusted - places < 0 := by omega
    have hexponent := Numeral.writesExponent_padded (.inr rfl) 0 (adjusted - places)
    rw [Text.padLeft, Nat.zero_sub, List.replicate_zero, List.nil_append] at hexponent
    rw [if_neg hpoint, if_congr hbelow rfl rfl]
    exact Writes.mk hs hmantissa hexponent

/-- **The text of a decimal is a numeral with the same coefficient and the same exponent.** -/
theorem exists_writes_text (negative : Bool) (coefficient : Nat) (exponent : Int) :
    ∃ ds, Writes (finite negative coefficient exponent).text ⟨negative, ds, exponent⟩ ∧
      ofDigits ds = coefficient :=
  exists_writes_finiteText (Numeral.writesSign_minus negative) coefficient exponent

end Decimal

end SpacingClasses
