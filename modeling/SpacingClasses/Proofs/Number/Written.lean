import SpacingClasses.Number.Decimal
import SpacingClasses.Proofs.Outcome
import SpacingClasses.Proofs.Text.Classes
import Mathlib.Tactic.SplitIfs

/-!
# Written numbers are no blanks

However a number is written, something of it can be seen.

* `Text.ofNat_ne_nil`, `Text.not_isBlank_of_mem_ofNat` : digits stand for every number;
* `Number.write_ne_nil` : a number is not written as the empty text;
* `Decimal.exists_not_isBlank` : nor is a decimal as blanks.
-/

namespace SpacingClasses

open Text (isBlank)

/-! ### Digits -/

theorem Text.ofNat_ne_nil (n : Nat) : Text.ofNat n ≠ [] := Nat.toDigits_ne_nil

theorem Text.isDigit_of_mem_ofNat {c : Char} {n : Nat} (h : c ∈ Text.ofNat n) :
    c.isDigit = true :=
  Nat.isDigit_of_mem_toDigits (by decide) (by decide) h

theorem Text.not_isBlank_of_isDigit {c : Char} (h : c.isDigit = true) : isBlank c = false := by
  refine Bool.eq_false_iff.2 fun hblank => ?_
  have halpha := Text.not_isAlphanumeric_of_isBlank hblank
  simp [Text.isAlphanumeric, Char.isAlphanum, h] at halpha

theorem Text.not_isBlank_of_digitValue? {c : Char} (h : (digitValue? c).isSome = true) :
    isBlank c = false := by
  refine Bool.eq_false_iff.2 fun hblank => ?_
  have halpha := Text.isAlphanumeric_of_isDigit (c := c) (by simp [Text.isDigit, h])
  rw [Text.not_isAlphanumeric_of_isBlank hblank] at halpha
  cases halpha

theorem Text.not_isBlank_of_mem_ofNat {c : Char} {n : Nat} (h : c ∈ Text.ofNat n) :
    isBlank c = false :=
  Text.not_isBlank_of_isDigit (Text.isDigit_of_mem_ofNat h)

/-! ### Numbers -/

theorem Integer.text_ne_nil (n : Int) : Integer.text n ≠ [] := by
  cases n with
  | ofNat n => exact Text.ofNat_ne_nil n
  | negSucc n => exact List.cons_ne_nil _ _

theorem Integer.write_ne_nil {n : Int} {s : Text} (h : Integer.write n = .ok s) : s ≠ [] := by
  rw [Integer.write] at h
  split at h
  · cases h
    split
    · exact List.cons_ne_nil _ _
    · exact Text.ofNat_ne_nil _
  · cases h

theorem Shortest.text_ne_nil (s : Shortest) : s.text ≠ [] := by
  rw [Shortest.text]
  split
  · rw [Shortest.positional]
    split_ifs <;> simp
  · simp [Shortest.scientific]

theorem Double.text_ne_nil (x : Double) : x.text ≠ [] := by
  cases x with
  | finite negative m =>
    rw [Double.text]
    split_ifs <;> simp [Shortest.text_ne_nil]
  | infinite negative => cases negative <;> simp [Double.text]
  | nan => simp [Double.text]

/-- A number is not written as the empty text. -/
theorem Number.write_ne_nil {n : Number} {s : Text} (h : n.write = .ok s) : s ≠ [] := by
  cases n with
  | int n => exact Integer.write_ne_nil h
  | double x =>
    cases h
    split
    · exact Integer.text_ne_nil _
    · exact Double.text_ne_nil x

/-! ### Decimals -/

theorem Decimal.exists_not_isBlank_finiteText (coefficient : Nat) (exponent : Int) :
    ∃ c ∈ finiteText coefficient exponent, isBlank c = false := by
  unfold finiteText
  extract_lets digits adjusted places mantissa
  have hmantissa : ∃ c ∈ mantissa, isBlank c = false := by
    obtain ⟨d, ds, hd⟩ := List.exists_cons_of_ne_nil (Text.ofNat_ne_nil coefficient)
    by_cases hsmall : places ≤ 0
    · exact ⟨'0', by simp [mantissa, hsmall], by decide⟩
    · by_cases hwhole : digits.length ≤ places.toNat
      · have hmem : d ∈ Text.ofNat coefficient := hd ▸ List.mem_cons_self
        refine ⟨d, ?_, Text.not_isBlank_of_mem_ofNat hmem⟩
        simp only [mantissa, if_neg hsmall, if_pos hwhole]
        exact List.mem_append_left _ hmem
      · exact ⟨'.', by simp [mantissa, hsmall, hwhole], by decide⟩
  obtain ⟨c, hc, hblank⟩ := hmantissa
  refine ⟨c, ?_, hblank⟩
  split
  · exact hc
  · exact List.mem_append_left _ hc

/-- A decimal is not written with blanks alone. -/
theorem Decimal.exists_not_isBlank (d : Decimal) : ∃ c ∈ d.text, isBlank c = false := by
  cases d with
  | finite negative coefficient exponent =>
    obtain ⟨c, hc, hblank⟩ := exists_not_isBlank_finiteText coefficient exponent
    exact ⟨c, List.mem_append_right _ hc, hblank⟩
  | infinite negative =>
    refine ⟨'I', ?_, by decide⟩
    cases negative <;> simp [Decimal.text]
  | nan negative signaling payload =>
    refine ⟨'N', ?_, by decide⟩
    simp [Decimal.text]

end SpacingClasses
