import SpacingClasses.Text.Alphanumeric
import SpacingClasses.Text.Blank
import SpacingClasses.Text.Digit
import Mathlib.Data.List.Chain

/-!
# How the classes of characters lie to each other

A span of one class is looked up in another class span by span, so that the tables are compared and
no character is.

* `Text.isAlphanumeric_of_isDigit` : whatever shows a digit is alphanumeric;
* `Text.not_isAlphanumeric_of_isBlank` : no blank is.
-/

namespace SpacingClasses

namespace Text

/-! ### Membership in spans -/

theorem exists_span_of_inSpans {n : Nat} {spans : List (Nat × Nat)} (h : inSpans n spans = true) :
    ∃ s ∈ spans, s.1 ≤ n ∧ n ≤ s.2 := by
  induction spans with
  | nil => simp [inSpans] at h
  | cons s spans ih =>
    simp only [inSpans, Bool.and_eq_true, Bool.or_eq_true, decide_eq_true_eq] at h
    obtain ⟨hfirst, hlast | hrest⟩ := h
    · exact ⟨s, List.mem_cons_self, hfirst, hlast⟩
    · obtain ⟨u, hu, hn⟩ := ih hrest
      exact ⟨u, List.mem_cons_of_mem _ hu, hn⟩

/-- In spans that ascend, a number is found if one of them holds it. -/
theorem inSpans_of_mem {n : Nat} {spans : List (Nat × Nat)}
    (hasc : spans.IsChain fun s u => s.1 ≤ u.1) {s : Nat × Nat} (hs : s ∈ spans)
    (hfirst : s.1 ≤ n) (hlast : n ≤ s.2) : inSpans n spans = true := by
  have htrans : IsTrans (Nat × Nat) fun s u => s.1 ≤ u.1 := ⟨fun _ _ _ => Nat.le_trans⟩
  rw [List.isChain_iff_pairwise] at hasc
  induction spans with
  | nil => cases hs
  | cons u spans ih =>
    obtain ⟨hu, hasc⟩ := List.pairwise_cons.1 hasc
    simp only [inSpans, Bool.and_eq_true, Bool.or_eq_true, decide_eq_true_eq]
    rcases List.mem_cons.1 hs with rfl | hs
    · exact ⟨hfirst, .inl hlast⟩
    · exact ⟨(hu s hs).trans hfirst, .inr (ih hasc hs)⟩

/-- Each of some spans lies within one of some others. -/
def spansWithin (spans others : List (Nat × Nat)) : Bool :=
  spans.all fun s => others.any fun u => Nat.ble u.1 s.1 && Nat.ble s.2 u.2

/-- None of some spans meets one of some others. -/
def spansApart (spans others : List (Nat × Nat)) : Bool :=
  spans.all fun s => others.all fun u => Nat.blt s.2 u.1 || Nat.blt u.2 s.1

theorem exists_of_spansWithin {spans others : List (Nat × Nat)}
    (h : spansWithin spans others = true) {s : Nat × Nat} (hs : s ∈ spans) :
    ∃ u ∈ others, u.1 ≤ s.1 ∧ s.2 ≤ u.2 := by
  have := List.all_eq_true.1 h s hs
  simpa only [List.any_eq_true, Bool.and_eq_true, Nat.ble_eq] using this

theorem apart_of_spansApart {spans others : List (Nat × Nat)}
    (h : spansApart spans others = true) {s u : Nat × Nat} (hs : s ∈ spans) (hu : u ∈ others) :
    s.2 < u.1 ∨ u.2 < s.1 := by
  have := List.all_eq_true.1 (List.all_eq_true.1 h s hs) u hu
  simpa only [Bool.or_eq_true, Nat.blt_eq] using this

/-! ### Digits -/

/-- The spans of the decimal digits beyond ASCII. -/
def scriptDigitSpans : List (Nat × Nat) := scriptZeros.map fun z => (z, z + 9)

theorem scriptDigits_within : spansWithin scriptDigitSpans alphanumericSpans = true := by
  decide +kernel

theorem ornateDigits_within : spansWithin ornateDigits alphanumericSpans = true := by
  decide +kernel

theorem alphanumericSpans_ascend : alphanumericSpans.IsChain fun s u => s.1 ≤ u.1 := by
  decide +kernel

theorem alphanumericSpans_beyond : spansApart [(0, 127)] alphanumericSpans = true := by
  decide +kernel

theorem isAlphanumeric_of_span {c : Char} {s : Nat × Nat} (hs : s ∈ alphanumericSpans)
    (hfirst : s.1 ≤ c.toNat) (hlast : c.toNat ≤ s.2) : isAlphanumeric c = true := by
  have hbeyond := apart_of_spansApart alphanumericSpans_beyond List.mem_cons_self hs
  have h128 : 128 ≤ c.toNat := by
    simp only [Nat.not_lt_zero, or_false] at hbeyond
    omega
  simp [isAlphanumeric, h128, inSpans_of_mem alphanumericSpans_ascend hs hfirst hlast]

/-- Whatever shows a digit is alphanumeric. -/
theorem isAlphanumeric_of_isDigit {c : Char} (h : isDigit c = true) : isAlphanumeric c = true := by
  simp only [isDigit, Bool.or_eq_true] at h
  rcases h with h | h
  · simp only [digitValue?] at h
    split_ifs at h with hdigit hascii
    · simp [isAlphanumeric, Char.isAlphanum, hdigit]
    · cases h
    · -- a digit beyond ASCII lies within nine of the zero of its script
      rw [Option.isSome_map, List.find?_isSome] at h
      obtain ⟨z, hz, hc⟩ := h
      simp only [Bool.and_eq_true, decide_eq_true_eq] at hc
      have hspan : (z, z + 9) ∈ scriptDigitSpans := List.mem_map_of_mem hz
      obtain ⟨s, hs, hfirst, hlast⟩ := exists_of_spansWithin scriptDigits_within hspan
      exact isAlphanumeric_of_span hs (by omega) (by omega)
  · obtain ⟨d, hd, hc⟩ := exists_span_of_inSpans h
    obtain ⟨s, hs, hfirst, hlast⟩ := exists_of_spansWithin ornateDigits_within hd
    exact isAlphanumeric_of_span hs (by omega) (by omega)

/-! ### Blanks -/

theorem toNat_of_isAlphanum {c : Char} (h : c.isAlphanum = true) :
    48 ≤ c.toNat ∧ c.toNat ≤ 122 := by
  have hranges : (decide ('A'.val ≤ c.val ∧ c.val ≤ 'Z'.val) ||
      (decide ('a'.val ≤ c.val) && decide (c.val ≤ 'z'.val)) ||
      (decide ('0'.val ≤ c.val) && decide (c.val ≤ '9'.val))) = true := h
  simp only [Bool.or_eq_true, Bool.and_eq_true, decide_eq_true_eq,
    UInt32.le_iff_toNat_le] at hranges
  have hval : c.toNat = c.val.toNat := rfl
  have h0 : '0'.val.toNat = 48 := rfl
  have h9 : '9'.val.toNat = 57 := rfl
  have hA : 'A'.val.toNat = 65 := rfl
  have hZ : 'Z'.val.toNat = 90 := rfl
  have ha : 'a'.val.toNat = 97 := rfl
  have hz : 'z'.val.toNat = 122 := rfl
  omega

theorem blanks_apart : spansApart blankSpans alphanumericSpans = true := by
  decide +kernel

theorem blanks_apart_ascii : spansApart blankSpans [(48, 122)] = true := by
  decide

/-- No blank is alphanumeric. -/
theorem not_isAlphanumeric_of_isBlank {c : Char} (h : isBlank c = true) :
    isAlphanumeric c = false := by
  obtain ⟨b, hb, hfirst, hlast⟩ := exists_span_of_inSpans h
  rw [isAlphanumeric, Bool.or_eq_false_iff, Bool.and_eq_false_iff]
  constructor
  · refine Bool.eq_false_iff.2 fun ha => ?_
    have := toNat_of_isAlphanum ha
    have := apart_of_spansApart blanks_apart_ascii hb List.mem_cons_self
    omega
  · refine .inr (Bool.eq_false_iff.2 fun hs => ?_)
    obtain ⟨s, hs, hs1, hs2⟩ := exists_span_of_inSpans hs
    have := apart_of_spansApart blanks_apart hb hs
    omega

end Text

end SpacingClasses
