import SpacingClasses.Proofs.Number.Digits
import SpacingClasses.Proofs.Number.Numeral
import Mathlib.Data.List.Induction
import Mathlib.Tactic.Ring

/-!
# How long the integers are that are read

* `Text.exists_digits_ofNat` : the digits of a number stand for it;
* `Numeral.Writes.digits` : a numeral has digits, and no more than the characters that write it;
* `Numeral.Writes.mem` : it is written with digits and few other characters;
* `Integer.length_le_of_read` : an integer has at most as many digits as it is read from;
* `Integer.Read long n` : the integer `n` can be written, and it has as many digits as can be only if
  `long` holds;
* `Integer.read_of_digits` : what a row of digits is read as, where `long` says that the row is long.
-/

namespace SpacingClasses

namespace Text

variable {c : Char} {d : Nat} {ds : List Nat}

theorem digitValue?_lt_ten (h : digitValue? c = some d) : d < 10 := by
  rw [digitValue?] at h
  split at h
  · rename_i hc
    obtain rfl := Option.some.inj h
    have hlast : c.toNat ≤ 57 := (Char.isDigit_iff_toNat.1 hc).2
    omega
  · split at h
    · cases h
    · obtain ⟨z, hz, rfl⟩ := Option.map_eq_some_iff.1 h
      have := List.find?_some hz
      rw [Bool.and_eq_true, decide_eq_true_eq, decide_eq_true_eq] at this
      omega

theorem ofDigits_concat (ds : List Nat) (d : Nat) :
    ofDigits (ds ++ [d]) = 10 * ofDigits ds + d := by
  simp [ofDigits]

theorem ofDigits_append (ds es : List Nat) :
    ofDigits (ds ++ es) = ofDigits ds * 10 ^ es.length + ofDigits es := by
  induction es using List.reverseRecOn with
  | nil => simp [ofDigits]
  | append_singleton es e ih =>
    rw [← List.append_assoc, ofDigits_concat, ih, ofDigits_concat, List.length_append,
      List.length_singleton, Nat.pow_succ]
    ring

theorem ofDigits_zeros (n : Nat) : ofDigits (List.replicate n 0) = 0 := by
  induction n with
  | zero => rfl
  | succ n ih => exact ih

/-- Zeros in front of digits do not count. -/
theorem ofDigits_zeros_append (n : Nat) (ds : List Nat) :
    ofDigits (List.replicate n 0 ++ ds) = ofDigits ds := by
  rw [ofDigits_append, ofDigits_zeros, Nat.zero_mul, Nat.zero_add]

theorem digitValue?_digitChar : ∀ d < 10, digitValue? (Nat.digitChar d) = some d := by
  decide

theorem ofDigits_lt (h : ∀ d ∈ ds, d < 10) : ofDigits ds < 10 ^ ds.length := by
  induction ds using List.reverseRecOn with
  | nil => decide
  | append_singleton ds d ih =>
    rw [List.forall_mem_append] at h
    have hfront := ih h.1
    have hlast := h.2 d (List.mem_singleton_self d)
    rw [ofDigits_concat, List.length_append, List.length_singleton, Nat.pow_succ]
    omega

open Numeral (Digits)

/-- The digits of a number stand for it. -/
theorem exists_digits_ofNat (n : Nat) : ∃ ds, Digits (ofNat n) ds ∧ ofDigits ds = n := by
  induction n using Nat.strongRecOn with
  | ind n ih =>
    rw [ofNat, Nat.toDigits_eq_if (by decide)]
    split
    · rename_i hlt
      refine ⟨[n], .cons (digitValue?_digitChar n hlt) .nil, ?_⟩
      simp [ofDigits]
    · obtain ⟨ds, hds, hvalue⟩ := ih (n / 10) (by omega)
      have hlast : Digits [Nat.digitChar (n % 10)] [n % 10] :=
        .cons (digitValue?_digitChar _ (Nat.mod_lt n (by decide))) .nil
      refine ⟨ds ++ [n % 10], List.rel_append hds hlast, ?_⟩
      rw [ofDigits_concat, hvalue]
      omega

end Text

namespace Numeral.Digits

variable {w : Text} {ds : List Nat}

theorem lt_ten (h : Digits w ds) : ∀ d ∈ ds, d < 10 := by
  induction h with
  | nil => simp
  | cons hd _ ih => exact List.forall_mem_cons.2 ⟨Text.digitValue?_lt_ten hd, ih⟩

theorem values_ne_nil (h : Digits w ds) (hne : w ≠ []) : ds ≠ [] := by
  rintro rfl
  exact hne (List.forall₂_nil_right_iff.1 h)

theorem zeros (n : Nat) : Digits (List.replicate n '0') (List.replicate n 0) := by
  induction n with
  | zero => exact .nil
  | succ n ih => exact .cons rfl ih

theorem zeros_append (h : Digits w ds) (n : Nat) :
    Digits (List.replicate n '0' ++ w) (List.replicate n 0 ++ ds) :=
  List.rel_append (zeros n) h

theorem isSome (h : Digits w ds) : ∀ c ∈ w, (Text.digitValue? c).isSome = true := by
  induction h with
  | nil => simp
  | cons hd _ ih => exact List.forall_mem_cons.2 ⟨Option.isSome_of_mem hd, ih⟩

theorem not_mem {c : Char} (h : Digits w ds) (hc : Text.digitValue? c = none) : c ∉ w := by
  intro hmem
  have := h.isSome c hmem
  rw [hc] at this
  cases this

end Numeral.Digits

/-- The digits of a numeral are some of the characters that write it. -/
theorem Numeral.Writes.digits {w : Text} {n : Numeral} (h : Writes w n) :
    n.digits ≠ [] ∧ (∀ d ∈ n.digits, d < 10) ∧ n.digits.length ≤ w.length := by
  cases h with
  | mk hs hm hx =>
    cases hm with
    | whole hw hne =>
      refine ⟨hne, hw.lt_ten, ?_⟩
      simp only [List.length_append, hw.length_eq]
      omega
    | point hw hf hne =>
      refine ⟨hne, List.forall_mem_append.2 ⟨hw.lt_ten, hf.lt_ten⟩, ?_⟩
      simp only [List.length_append, List.length_cons, hw.length_eq, hf.length_eq]
      omega

/-- The characters other than digits that numerals are written with. -/
def Numeral.writtenMarks : Text := "+-.eE"

/-- A numeral is written with digits of any script and few other characters. -/
theorem Numeral.Writes.mem {w : Text} {n : Numeral} (h : Writes w n) :
    ∀ c ∈ w, (Text.digitValue? c).isSome = true ∨ c ∈ writtenMarks := by
  have hsign {s : Text} {negative : Bool} (hs : WritesSign s negative) :
      ∀ c ∈ s, c ∈ writtenMarks := by
    cases hs with
    | none => simp
    | plus => simp [writtenMarks]
    | minus => simp [writtenMarks]
  intro c hc
  obtain @⟨s, negative, m, ds, places, x, exponent, hs, hm, hx⟩ := h
  rw [List.mem_append, List.mem_append] at hc
  rcases hc with hc | hc | hc
  · exact .inr (hsign hs c hc)
  · cases hm with
    | whole hw hne => exact .inl (hw.isSome c hc)
    | point hw hf hne =>
      rcases List.mem_append.1 hc with hc | hc
      · exact .inl (hw.isSome c hc)
      · rcases List.mem_cons.1 hc with rfl | hc
        · exact .inr (by decide)
        · exact .inl (hf.isSome c hc)
  · cases hx with
    | none => cases hc
    | some he hs hw hne =>
      rcases List.mem_cons.1 hc with rfl | hc
      · right
        rcases he with rfl | rfl <;> decide
      · rcases List.mem_append.1 hc with hc | hc
        · exact .inr (hsign hs c hc)
        · exact .inl (hw.isSome c hc)

/-- No other character is part of a numeral. -/
theorem Numeral.Writes.not_mem {w : Text} {n : Numeral} {c : Char} (h : Writes w n)
    (hdigit : Text.digitValue? c = none) (hmark : c ∉ writtenMarks) : c ∉ w := by
  intro hc
  rcases h.mem c hc with hsome | hmem
  · rw [hdigit] at hsome
    cases hsome
  · exact hmark hmem

namespace Integer

variable {negative : Bool} {ds : List Nat} {n : Int} {long : Prop}

/-- An integer has at most as many digits as it is read from. -/
theorem length_le_of_read (hds : ∀ d ∈ ds, d < 10) (hne : ds ≠ [])
    (h : read negative ds = .ok n) :
    (Text.ofNat n.natAbs).length ≤ ds.length ∧ ds.length ≤ maxDigits := by
  rw [read] at h
  split at h
  · rename_i hlimit
    cases h
    refine ⟨?_, hlimit⟩
    rw [Decimal.natAbs_signed, Text.length_ofNat_le_iff (List.length_pos_iff.2 hne)]
    exact Text.ofDigits_lt hds
  · cases h

/-- The integer can be written, and it has as many digits as can be only if `long` holds. -/
structure Read (long : Prop) (n : Int) : Prop where
  length_le : (Text.ofNat n.natAbs).length ≤ maxDigits
  long_of_eq : (Text.ofNat n.natAbs).length = maxDigits → long

/-- A row of digits is read as an integer that can be written, or it is too long for that. -/
theorem read_of_digits (negative : Bool) (hds : ∀ d ∈ ds, d < 10) (hne : ds ≠ [])
    (hlong : maxDigits ≤ ds.length → long) :
    (∃ n, read negative ds = .ok n ∧ Read long n) ∨ (∃ f, read negative ds = .error f) ∧ long := by
  cases h : read negative ds with
  | ok n =>
    obtain ⟨hle, hlimit⟩ := length_le_of_read hds hne h
    exact .inl ⟨n, rfl, hle.trans hlimit, fun heq => hlong (heq ▸ hle)⟩
  | error f =>
    refine .inr ⟨⟨f, rfl⟩, hlong ?_⟩
    by_contra hshort
    rw [read, if_pos (Nat.le_of_lt (Nat.not_le.1 hshort))] at h
    cases h

end Integer

end SpacingClasses
