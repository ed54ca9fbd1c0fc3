import SpacingClasses.Proofs.Number.Characters
import SpacingClasses.Proofs.Number.Reading
import SpacingClasses.Proofs.Number.Rounding

/-!
# What numerals denote

Which number a text is does not depend on how many zeros it is written with, nor on where its point
stands.

* `Numeral.Denotes w c e` : with any sign before it, the text `w` is a numeral that is rounded as
  `c * 10 ^ e` is;
* `denotes_digits`, `denotes_point` : the digits of a text, with or without a point;
* `Writes.parseFloat?`, `Writes.parseNumber?`, `Writes.parseLeadingNumber?` : all three readers find
  the number that a numeral writes.
-/

namespace SpacingClasses

open Numeral (Digits Writes WritesSign WritesMantissa WritesExponent)
open Text (ofDigits Uses)

variable {t w f s rest : Text} {ds es : List Nat} {m : Magnitude} {negative : Bool} {n : Numeral}
  {coefficient : Nat} {exponent : Int}

namespace Numeral

/-- With any sign before it, the text is a numeral that is rounded as a decimal is. -/
def Denotes (w : Text) (coefficient : Nat) (exponent : Int) : Prop :=
  ∀ s negative, WritesSign s negative →
    ∃ n, Writes (s ++ w) n ∧ n.toDouble = Double.nearest negative coefficient exponent

/-- A mantissa denotes its digits, set back by as many places as there are after its point. -/
theorem denotes_mantissa {places : Nat} (hm : WritesMantissa w ds places) :
    Denotes w (ofDigits ds) (-places) := by
  intro s negative hs
  have hwrites := Writes.mk hs hm .none
  rw [List.append_nil, Int.zero_sub] at hwrites
  exact ⟨_, hwrites, rfl⟩

/-- Digits denote the whole number that they are. -/
theorem denotes_digits (hw : Digits w ds) (hne : ds ≠ []) : Denotes w (ofDigits ds) 0 := by
  have hdenotes := denotes_mantissa (.whole hw hne)
  rwa [Int.natCast_zero, Int.neg_zero] at hdenotes

/-- A point among digits sets them back by as many places as there are after it. -/
theorem denotes_point (hw : Digits w ds) (hf : Digits f es) (hne : ds ++ es ≠ []) :
    Denotes (w ++ '.' :: f) (ofDigits (ds ++ es)) (-es.length) :=
  denotes_mantissa (.point hw hf hne)

/-- What a decimal denotes does not tell the zeros at its end. -/
theorem Denotes.of_mul_pow {k : Nat} (h : Denotes w (coefficient * 10 ^ k) exponent) :
    Denotes w coefficient (exponent + k) := by
  intro s negative hs
  rw [← Double.nearest_mul_pow]
  exact h s negative hs

theorem denotes_ofNat (n : Nat) : Denotes (Text.ofNat n) n 0 := by
  obtain ⟨ds, hds, hvalue⟩ := Text.exists_digits_ofNat n
  have hdenotes := denotes_digits hds (hds.values_ne_nil (Text.ofNat_ne_nil n))
  rwa [hvalue] at hdenotes

/-! ### Parts of numerals -/

theorem writesSign_minus (negative : Bool) :
    WritesSign (if negative then ['-'] else []) negative := by
  cases negative with
  | false => exact .none
  | true => exact .minus

/-- Digits with a point among them. -/
theorem writesMantissa_split (hw : Digits w ds) (hne : ds ≠ []) (k : Nat) :
    WritesMantissa (w.take k ++ '.' :: w.drop k) ds (ds.length - k) := by
  have htake : Digits (w.take k) (ds.take k) := List.forall₂_take k hw
  have hdrop : Digits (w.drop k) (ds.drop k) := List.forall₂_drop k hw
  have hm := WritesMantissa.point htake hdrop (by simpa using hne)
  rwa [List.take_append_drop, List.length_drop] at hm

/-- Digits after the point, behind zeros. -/
theorem writesMantissa_small (hw : Digits w ds) (k : Nat) :
    WritesMantissa ("0." ++ List.replicate k '0' ++ w) ([0] ++ (List.replicate k 0 ++ ds))
      (List.replicate k 0 ++ ds).length :=
  .point (Digits.zeros 1) (hw.zeros_append k) (by simp)

/-- An exponent with its sign, brought to a width with zeros. -/
theorem writesExponent_padded {c : Char} (hc : c = 'e' ∨ c = 'E') (width : Nat) (exponent : Int) :
    WritesExponent (c :: (if exponent < 0 then '-' else '+') ::
      Text.padLeft width '0' (Text.ofNat exponent.natAbs)) exponent := by
  obtain ⟨es, hes, hvalue⟩ := Text.exists_digits_ofNat exponent.natAbs
  have hpadded : Digits (Text.padLeft width '0' (Text.ofNat exponent.natAbs))
      (List.replicate (width - (Text.ofNat exponent.natAbs).length) 0 ++ es) := hes.zeros_append _
  have hne : List.replicate (width - (Text.ofNat exponent.natAbs).length) 0 ++ es ≠ [] :=
    hpadded.values_ne_nil (List.append_ne_nil_of_right_ne_nil _ (Text.ofNat_ne_nil _))
  have hvalue : ofDigits (List.replicate (width - (Text.ofNat exponent.natAbs).length) 0 ++ es) =
      exponent.natAbs := by
    rw [Text.ofDigits_zeros_append, hvalue]
  by_cases hnegative : exponent < 0
  · have hwrites := WritesExponent.some hc .minus hpadded hne
    have habs : -(exponent.natAbs : Int) = exponent := by omega
    rw [Numeral.signedDigits, if_pos rfl, hvalue, habs] at hwrites
    rw [if_pos hnegative]
    exact hwrites
  · have hwrites := WritesExponent.some hc .plus hpadded hne
    have habs : (exponent.natAbs : Int) = exponent := by omega
    rw [Numeral.signedDigits, if_neg Bool.false_ne_true, hvalue, habs] at hwrites
    rw [if_neg hnegative]
    exact hwrites

end Numeral

/-! ### The readers of numbers -/

theorem dropUnderscores?_eq_self (h : '_' ∉ t) (afterDigit : Bool) :
    dropUnderscores? afterDigit t = some t := by
  induction t generalizing afterDigit with
  | nil => rfl
  | cons c t ih =>
    rw [List.mem_cons, not_or] at h
    rw [dropUnderscores?]
    · rw [if_neg (Ne.symm h.1), ih h.2, Option.map_some]
    · rintro d rest rfl
      exact absurd rfl h.1

/-- No text is a number that holds a character that numbers are not written with. -/
theorem parseNumber?_of_mem {c : Char} (h : c ∈ t) (hblank : Text.isBlank c = false)
    (hdigit : Text.digitValue? c = none) (hmark : c ∉ Numeral.writtenMarks) :
    parseNumber? t = none := by
  have hkept : c ∈ Text.strip t := Text.mem_trim h hblank
  rw [parseNumber?, Option.bind_eq_none_iff]
  intro n hn
  exact absurd hkept ((Numeral.whole?_eq_some_iff.1 hn).not_mem hdigit hmark)

theorem parseNumber?_of_mem_x (h : 'x' ∈ t) : parseNumber? t = none :=
  parseNumber?_of_mem h (by decide) (by decide) (by decide)

namespace Numeral

/-- What a numeral is written with, its sign included. -/
theorem WritesSign.uses_append (hs : WritesSign s negative) (huses : Uses Number.marks w) :
    Uses Number.marks (s ++ w) := by
  have hsign : Uses Number.marks s := by cases hs <;> decide
  exact Text.uses_append.2 ⟨hsign, huses⟩

/-! ### Readers and numerals -/

section

variable (h : Writes w n)

include h

/-- A numeral is not empty. -/
theorem Writes.ne_nil : w ≠ [] := by
  rintro rfl
  obtain ⟨hne, -, hle⟩ := h.digits
  exact hne (List.length_eq_zero_iff.1 (Nat.le_zero.1 hle))

/-- A numeral has no blank in it. -/
theorem Writes.solid : Text.Solid w := by
  have hmarks : Text.Solid writtenMarks := by decide
  intro c hc
  rcases h.mem c hc with hdigit | hmark
  · exact Text.not_isBlank_of_digitValue? hdigit
  · exact hmarks c hmark

/-- A numeral starts with a minus exactly if it is negative. -/
theorem Writes.isPrefixOf_minus : ("-" : Text).isPrefixOf w = n.negative := by
  rw [Bool.eq_iff_iff]
  constructor
  · intro hminus
    obtain ⟨r, rfl⟩ := List.isPrefixOf_iff_prefix.1 hminus
    exact negative_of_whole? (whole?_eq_some_iff.2 h)
  · intro hnegative
    cases h with
    | mk hs hm hx =>
      obtain rfl : _ = true := hnegative
      cases hs
      rfl

/-- A numeral is read in the widest grammar, be it finite or not. -/
theorem Writes.parseFloat? : SpacingClasses.parseFloat? w = some n.toDouble := by
  have hpadding : ∀ c ∈ w, isNumberPadding c = false := by
    intro c hc
    rw [isNumberPadding, h.solid c hc, Bool.false_and]
  have hmark : '_' ∉ w := h.not_mem (by decide) (by decide)
  rw [SpacingClasses.parseFloat?, Text.trim_eq_self hpadding, dropUnderscores?_eq_self hmark,
    Option.bind_some, whole?_eq_some_iff.2 h]

/-- A numeral is the number that it writes in full, if this is finite. -/
theorem Writes.parseNumber? : SpacingClasses.parseNumber? w = n.toDouble.finite? := by
  rw [SpacingClasses.parseNumber?, Text.strip, Text.trim_eq_self h.solid,
    whole?_eq_some_iff.2 h, Option.bind_some]

/-- A numeral is the number that a text begins with, if nothing goes on with it. -/
theorem Writes.parseLeadingNumber? (hrest : EndsNumeral rest) :
    SpacingClasses.parseLeadingNumber? (w ++ rest) = n.toDouble.finite? := by
  have hhead : ∀ c ∈ (w ++ rest).head?, Text.isBlank c = false := by
    intro c hc
    rw [List.head?_append_of_ne_nil _ h.ne_nil] at hc
    exact h.solid c (List.mem_of_mem_head? hc)
  rw [SpacingClasses.parseLeadingNumber?, (Text.Blanks.refl _).skip_eq hhead,
    read?_of_writes h hrest, Option.bind_some]

end

section

variable (h : Denotes w coefficient exponent) (hs : WritesSign s negative)

include h hs

theorem Denotes.ne_nil : s ++ w ≠ [] := by
  obtain ⟨n, hwrites, -⟩ := h s negative hs
  exact hwrites.ne_nil

/-- What is denoted is read in the widest grammar. -/
theorem Denotes.parseFloat? :
    SpacingClasses.parseFloat? (s ++ w) = some (Double.nearest negative coefficient exponent) := by
  obtain ⟨n, hwrites, hn⟩ := h s negative hs
  rw [hwrites.parseFloat?, hn]

/-- It is the number that the text is in full, if it is finite. -/
theorem Denotes.parseNumber? :
    SpacingClasses.parseNumber? (s ++ w) =
      (Double.nearest negative coefficient exponent).finite? := by
  obtain ⟨n, hwrites, hn⟩ := h s negative hs
  rw [hwrites.parseNumber?, hn]

/-- It is the number that a text begins with, if nothing goes on with it. -/
theorem Denotes.parseLeadingNumber? (hrest : EndsNumeral rest) :
    SpacingClasses.parseLeadingNumber? (s ++ w ++ rest) =
      (Double.nearest negative coefficient exponent).finite? := by
  obtain ⟨n, hwrites, hn⟩ := h s negative hs
  rw [hwrites.parseLeadingNumber? hrest, hn]

end

end Numeral

end SpacingClasses
