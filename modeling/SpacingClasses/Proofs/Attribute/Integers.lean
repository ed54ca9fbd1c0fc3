import SpacingClasses.Command.Basic
import SpacingClasses.Proofs.Attribute.Reading
import SpacingClasses.Proofs.Json.RoundTrip
import SpacingClasses.Proofs.Number.Limit
import SpacingClasses.Proofs.Suffix.Numerals

/-!
# Integers in attribute values

A literal of an integer is read by way of a double, and is lost where the doubles end.

* `Attribute.integerValue n` : what a literal of the integer `n` is read as;
* `Attribute.literal_integer` : so it is, before what does not go on with a number;
* `Attribute.read_braced_integer` : **an integer in braces is exact, and has the classes of the
  integer as an argument, exactly if it is less than `Double.wholeLimit`.**
-/

namespace SpacingClasses

open Numeral (Writes)
open Text (MaximalRun)

/-! ### The text of an integer -/

namespace Integer

variable {n : Int}

theorem text_eq (n : Int) :
    text n = (if decide (n < 0) then ['-'] else []) ++ Text.ofNat n.natAbs := by
  cases n with
  | ofNat k => rfl
  | negSucc k => simp [text, Notice.number]

theorem write_eq_ok_iff {w : Text} : write n = .ok w ↔
    (Text.ofNat n.natAbs).length ≤ maxDigits ∧ w = text n := by
  have htext : text n = if n < 0 then '-' :: Text.ofNat n.natAbs else Text.ofNat n.natAbs := by
    rw [text_eq]
    by_cases hn : n < 0
    · simp [hn]
    · simp [hn]
  rw [write, htext]
  by_cases hlength : (Text.ofNat n.natAbs).length ≤ maxDigits
  · simp [hlength, eq_comm]
  · simp [hlength]

/-- The text of an integer is a numeral with the sign and the digits of the integer. -/
theorem exists_writes_text (n : Int) :
    ∃ ds, Writes (text n) ⟨decide (n < 0), ds, 0⟩ ∧ Text.ofDigits ds = n.natAbs ∧
      Numeral.signedDigits (decide (n < 0)) ds = n ∧
      ds.length = (Text.ofNat n.natAbs).length := by
  obtain ⟨ds, hds, hvalue⟩ := Text.exists_digits_ofNat n.natAbs
  have hne := hds.values_ne_nil (Text.ofNat_ne_nil n.natAbs)
  have hwrites := Writes.mk (Numeral.writesSign_minus (decide (n < 0))) (.whole hds hne) .none
  rw [List.append_nil, ← text_eq] at hwrites
  refine ⟨ds, hwrites, hvalue, ?_, hds.length_eq.symm⟩
  rw [Numeral.signedDigits, hvalue]
  by_cases hn : n < 0
  · rw [if_pos (decide_eq_true hn)]
    omega
  · rw [if_neg (by simpa using hn)]
    omega

/-- It is made of digits behind a minus or none. -/
theorem mem_text {c : Char} (h : c ∈ text n) : c = '-' ∨ c.isDigit = true := by
  rw [text_eq, List.mem_append] at h
  rcases h with hsign | hdigit
  · left
    split at hsign
    · exact List.mem_singleton.1 hsign
    · cases hsign
  · exact .inr (Text.isDigit_of_mem_ofNat hdigit)

end Integer

/-! ### Suffixes and classes -/

namespace Suffix

theorem ofInteger_ne_nil (n : Int) : ofInteger n ≠ [] := by
  rw [ofInteger]
  split_ifs
  · exact List.cons_ne_nil _ _
  · exact Text.ofNat_ne_nil _

/-- No suffix of an integer has the letters of an infinity. -/
theorem not_mem_ofInteger (n : Int) : 'y' ∉ ofInteger n := by
  have hdigits : ∀ k, 'y' ∉ Text.ofNat k := by
    intro k hy
    exact absurd (Text.isDigit_of_mem_ofNat hy) (by decide)
  rw [ofInteger]
  split_ifs
  · simp [minusPixels, bracketed, hdigits]
  · exact hdigits _

end Suffix

/-- A single value has one class. -/
theorem spacingClasses_single {property v : Value} {stem s : Text}
    (hstem : Property.stemOfValue property = .ok stem)
    (hshape : Shape.ofValue v = .ok (.single v Value.singleLabel)) (hs : Suffix.ofValue v = .ok s)
    (hne : s ≠ []) : spacingClasses property v = .ok [stem ++ '-' :: s] := by
  have htier : ClassToken.ofTier stem [] v = .ok [⟨[], stem, s⟩] := by
    rw [ClassToken.ofTier, hs, ok_bind, if_neg (by simpa using hne)]
    rfl
  rw [spacingClasses, ClassToken.ofValue, hstem, ok_bind, hshape, ok_bind, ClassToken.ofShape,
    if_pos rfl, htier]
  rfl

namespace Attribute

variable {n : Int} {rest : Text}

/-! ### Literals of integers -/

/-- What a literal of an integer is read as: the integer before the doubles end, and an infinity from
there on. -/
def integerValue (n : Int) : Value :=
  if n.natAbs < Double.wholeLimit then .int n else .float (.infinite (decide (n < 0)))

theorem integerValue_eq_iff : integerValue n = .int n ↔ n.natAbs < Double.wholeLimit := by
  rw [integerValue]
  split_ifs with h
  · simp [h]
  · simp [h]

theorem not_isFractionMark_text : ∀ c ∈ Integer.text n, isFractionMark c = false := by
  intro c hc
  refine Bool.eq_false_iff.2 fun hmark => ?_
  simp only [isFractionMark, Bool.or_eq_true, beq_iff_eq] at hmark
  rcases hmark with (rfl | rfl) | rfl
  all_goals exact absurd (Integer.mem_text hc) (by decide)

/-- The text of an integer writes the integer if the double nearest to it is finite, and else this
double. -/
theorem numberLiteral_integer (hlength : (Text.ofNat n.natAbs).length ≤ Integer.maxDigits) :
    NumberLiteral (Integer.text n) (integerValue n) := by
  obtain ⟨ds, hwrites, hvalue, hsigned, hds⟩ := Integer.exists_writes_text n
  have hdouble : Numeral.toDouble ⟨decide (n < 0), ds, 0⟩ =
      .nearest (decide (n < 0)) n.natAbs 0 := by
    rw [Numeral.toDouble, hvalue]
  rw [integerValue]
  by_cases h : n.natAbs < Double.wholeLimit
  · have hfinite : (Numeral.toDouble ⟨decide (n < 0), ds, 0⟩).isFinite = true := by
      rw [hdouble, Double.isFinite_nearest_iff]
      exact h
    have hliteral :=
      NumberLiteral.int hwrites not_isFractionMark_text hfinite (hds.trans_le hlength)
    rw [if_pos h]
    rwa [hsigned] at hliteral
  · have hinfinite : Numeral.toDouble ⟨decide (n < 0), ds, 0⟩ = .infinite (decide (n < 0)) :=
      hdouble.trans (Double.nearest_of_not_lt h _)
    have hliteral := NumberLiteral.double hwrites (.inr (hinfinite ▸ rfl))
    rw [if_neg h]
    rwa [hinfinite] at hliteral

/-- **A literal of an integer** stands before what does not go on with a number. -/
theorem literal_integer (hlength : (Text.ofNat n.natAbs).length ≤ Integer.maxDigits)
    (hrest : ∀ c ∈ rest.head?, isNumberChar c = false) :
    Literal (Integer.text n ++ rest) (integerValue n) rest := by
  have hrun : MaximalRun isNumberChar (Integer.text n ++ rest) (Integer.text n) rest := by
    refine ⟨rfl, fun c hc => ?_, hrest⟩
    rcases Integer.mem_text hc with rfl | hdigit
    · rfl
    · simp [isNumberChar, hdigit]
  have hhead : ∃ c ∈ (Integer.text n).head?, startsNumber c = true := by
    obtain ⟨c, t, ht⟩ := List.exists_cons_of_ne_nil (Integer.text_ne_nil n)
    refine ⟨c, by rw [ht]; rfl, ?_⟩
    rcases Integer.mem_text (ht ▸ List.mem_cons_self) with rfl | hdigit
    · rfl
    · simp [startsNumber, Text.isDigit, Text.digitValue?, hdigit]
  exact .number hrun hhead (numberLiteral_integer hlength)

/-- A literal in braces. -/
def braced (t : Text) : Text := '\x7b' :: (t ++ ['\x7d'])

/-- A literal in braces is an attribute value, with blanks after it or none. -/
theorem read_braced {t : Text} {v : Value} (h : Literal (t ++ ['\x7d']) v rest)
    (hrest : Text.Blanks rest ['\x7d']) : Attribute.read (braced t) = .ok v := by
  have hderives : Derives (braced t) v := .braced (.refl _) (.refl _) h hrest (.refl _)
  exact mapError_eq_ok_iff.2 (readWhole_of_derives hderives)

theorem read_integer (hlength : (Text.ofNat n.natAbs).length ≤ Integer.maxDigits) :
    Attribute.read (braced (Integer.text n)) = .ok (integerValue n) :=
  read_braced (literal_integer hlength (by simp [isNumberChar])) (.refl _)

/-! ### Integers as arguments -/

/-- An integer as an argument is exact. -/
theorem readArgument_integer (hlength : (Text.ofNat n.natAbs).length ≤ Integer.maxDigits) :
    Command.readArgument (Integer.text n) = .ok (.int n) := by
  have hread := (Json.encodes_int (Integer.write_eq_ok_iff.2 ⟨hlength, rfl⟩)).read_append (s := [])
    (by simp)
  rw [List.append_nil] at hread
  rw [Command.readArgument, hread]

/-! ### Classes -/

/-- The suffix of a literal of an integer. -/
def integerSuffix (n : Int) : Text :=
  if n.natAbs < Double.wholeLimit then Suffix.ofInteger n
  else Suffix.bracketed (Suffix.doubleLiteral (.infinite (decide (n < 0))))

theorem integerSuffix_eq_iff :
    integerSuffix n = Suffix.ofInteger n ↔ n.natAbs < Double.wholeLimit := by
  rw [integerSuffix]
  split_ifs with h
  · simp [h]
  · have hy : ∀ negative, 'y' ∈ Suffix.bracketed (Suffix.doubleLiteral (.infinite negative)) := by
      decide
    refine iff_of_false (fun heq => ?_) h
    exact Suffix.not_mem_ofInteger n (heq ▸ hy (decide (n < 0)))

theorem ofValue_integerValue (hlength : (Text.ofNat n.natAbs).length < Integer.maxDigits) :
    Suffix.ofValue (integerValue n) = .ok (integerSuffix n) := by
  rw [integerValue, integerSuffix]
  split_ifs with h
  · exact Suffix.ofInt_of_length hlength
  · cases decide (n < 0) <;> rfl

/-- **An integer in braces is exact exactly if it is less than the limit of whole doubles**, and an
infinity with its sign from there on.  As an argument of its own it is always exact, so that both
forms have one class of every property, and have the same one exactly below the limit. -/
theorem read_braced_integer {n : Int} (hlength : (Text.ofNat n.natAbs).length ≤ 4000) :
    Command.readArgument (Integer.text n) = .ok (.int n) ∧
    Attribute.read (braced (Integer.text n)) = .ok (integerValue n) ∧
    (integerValue n = .int n ↔ n.natAbs < Double.wholeLimit) ∧
    ∀ property stem, Property.stemOfValue property = .ok stem →
      spacingClasses property (.int n) = .ok [stem ++ '-' :: Suffix.ofInteger n] ∧
      spacingClasses property (integerValue n) = .ok [stem ++ '-' :: integerSuffix n] ∧
      (spacingClasses property (integerValue n) = spacingClasses property (.int n) ↔
        n.natAbs < Double.wholeLimit) := by
  have hlimit : 4000 < Integer.maxDigits := by decide
  have hshort := hlength.trans_lt hlimit
  refine ⟨readArgument_integer hshort.le, read_integer hshort.le, integerValue_eq_iff, ?_⟩
  intro property stem hstem
  have hexact : spacingClasses property (.int n) = .ok [stem ++ '-' :: Suffix.ofInteger n] :=
    spacingClasses_single hstem rfl (Suffix.ofInt_of_length hshort) (Suffix.ofInteger_ne_nil n)
  have hbraced : spacingClasses property (integerValue n) =
      .ok [stem ++ '-' :: integerSuffix n] := by
    refine spacingClasses_single hstem ?_ (ofValue_integerValue hshort) ?_
    · rw [integerValue]
      split_ifs <;> rfl
    · rw [integerSuffix]
      split_ifs
      · exact Suffix.ofInteger_ne_nil n
      · exact List.cons_ne_nil _ _
  refine ⟨hexact, hbraced, ?_⟩
  rw [hbraced, hexact]
  simp [integerSuffix_eq_iff]

/-- An integer that no double is. -/
theorem read_braced_integer_odd :
    Command.readArgument "9007199254740993" = .ok (.int 9007199254740993) ∧
      Attribute.read "\x7b9007199254740993\x7d" = .ok (.int 9007199254740993) ∧
      spacingClasses (.text "margin") (integerValue 9007199254740993) =
        .ok ["m-9007199254740993"] := by
  obtain ⟨hargument, hread, hexact, hclasses⟩ :=
    read_braced_integer (n := 9007199254740993) (by decide)
  have hbelow : (9007199254740993 : Int).natAbs < Double.wholeLimit :=
    Double.lt_wholeLimit_of_length (by decide)
  obtain ⟨hone, -, hsame⟩ := hclasses (.text "margin") "m" rfl
  refine ⟨hargument, ?_, (hsame.2 hbelow).trans hone⟩
  rw [← hexact.2 hbelow]
  exact hread

/-- An integer of 401 digits is an infinity in braces, and itself as an argument. -/
theorem read_braced_beyond : ∃ n : Int, n = (Nat.pow 10 400 : Nat) ∧
    (Text.ofNat n.natAbs).length ≤ 4000 ∧ Command.readArgument (Integer.text n) = .ok (.int n) ∧
    Attribute.read (braced (Integer.text n)) = .ok (.float (.infinite false)) ∧
    Attribute.read (braced (Integer.text n)) ≠ .ok (.int n) := by
  have hbeyond : Double.wholeLimit ≤ Nat.pow 10 400 := Nat.le_of_ble_eq_true (by decide +kernel)
  have hpower : 400 < 4000 := by decide
  have hmax : 4000 ≤ Integer.maxDigits := by decide
  -- the powers are not to be computed
  generalize 4000 = limit at hpower hmax ⊢
  generalize 400 = zeros at hbeyond hpower ⊢
  have hlength : (Text.ofNat ((Nat.pow 10 zeros : Nat) : Int).natAbs).length ≤ limit :=
    (Text.length_ofNat_le_iff (Nat.zero_lt_of_lt hpower)).2
      (Nat.pow_lt_pow_right (by decide) hpower)
  have hshort := hlength.trans hmax
  have hread : Attribute.read (braced (Integer.text (Nat.pow 10 zeros : Nat))) =
      .ok (.float (.infinite false)) := by
    have hnot : ¬ ((Nat.pow 10 zeros : Nat) : Int).natAbs < Double.wholeLimit := Nat.not_lt.2 hbeyond
    have hsign : decide (((Nat.pow 10 zeros : Nat) : Int) < 0) = false :=
      decide_eq_false (Int.not_lt.2 (Int.natCast_nonneg _))
    rw [read_integer hshort, integerValue, if_neg hnot, hsign]
  refine ⟨_, rfl, hlength, readArgument_integer hshort, hread, ?_⟩
  rw [hread]
  simp

end Attribute

end SpacingClasses
