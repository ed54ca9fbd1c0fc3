import SpacingClasses.Json.Reader
import SpacingClasses.Json.Writer
import SpacingClasses.Proofs.Number.Reading
import SpacingClasses.Proofs.Number.Written
import SpacingClasses.Proofs.Text.Run

/-!
# Strings and integers are read as they are written

* `Json.readString_writeText` : the characters of a string, with those that need it escaped;
* `Json.readNumber_write` : an integer, before what does not go on with a number.
-/

namespace SpacingClasses

namespace Json

open Reader (cons)

variable {a b c d : Char} {r t w : Text} {n start : Nat}

/-! ### Strings -/

theorem readChars_quote (start : Nat) (r : Text) : readChars start ('"' :: r) = .ok ([], r) := by
  rw [readChars]
  · rfl
  all_goals simp

theorem readChars_plain (hquote : c ≠ '"') (hslash : c ≠ '\\') (hcode : 32 ≤ c.toNat) :
    readChars start (c :: r) = cons c (readChars start r) := by
  rw [readChars]
  · rw [if_neg hquote, if_neg (Nat.not_lt.2 hcode)]
  all_goals simp [hslash]

theorem readChars_escape (hc : c ≠ 'u') (hd : escaped? c = some d) :
    readChars start ('\\' :: c :: r) = cons d (readChars start r) := by
  rw [readChars]
  · rw [hd]
  all_goals simp [hc]

/-- A code unit that is no half of a pair is the character with its code, if more follows. -/
theorem readChars_unit (hunit : codeUnit? a b c d = some n) (hhigh : isHighHalf n = false)
    (hr : r ≠ []) :
    readChars start ('\\' :: 'u' :: a :: b :: c :: d :: r) =
      cons (Char.ofNat n) (readChars start r) := by
  by_cases hpair : ∃ e f g h i s, r = '\\' :: 'u' :: e :: f :: g :: h :: i :: s
  · -- a second escape follows, but it is none of a pair
    obtain ⟨e, f, g, h, i, s, rfl⟩ := hpair
    rw [readChars]
    simp [hunit, hhigh]
  · obtain ⟨e, r, rfl⟩ := List.exists_cons_of_ne_nil hr
    rw [readChars]
    · rw [hunit]
    · intro e' f g h i s he hr
      exact hpair ⟨e', f, g, h, i, s, by rw [he, hr]⟩

/-- A control character is escaped by the four digits of its code. -/
theorem unitEscape_control : ∀ n < 32,
    unitEscape n = ['\\', 'u', '0', '0', Nat.digitChar (n / 16), Nat.digitChar (n % 16)] ∧
      codeUnit? '0' '0' (Nat.digitChar (n / 16)) (Nat.digitChar (n % 16)) = some n := by
  decide

/-- **A character is read as it is written**, if more follows. -/
theorem readChars_writeChar (start : Nat) (c : Char) (hr : r ≠ []) :
    readChars start (writeChar false c ++ r) = cons c (readChars start r) := by
  rw [writeChar]
  split_ifs with hself hn hr' ht hb hf hcode hascii
  · have hc : c = '"' ∨ c = '\\' := by simpa using hself
    have hu : c ≠ 'u' := by rintro rfl; simp at hc
    have hescaped : escaped? c = some c := by rw [escaped?, if_pos (by simp [hc])]
    exact readChars_escape hu hescaped
  · subst hn
    exact readChars_escape (by decide) rfl
  · subst hr'
    exact readChars_escape (by decide) rfl
  · subst ht
    exact readChars_escape (by decide) rfl
  · subst hb
    exact readChars_escape (by decide) rfl
  · subst hf
    exact readChars_escape (by decide) rfl
  · obtain ⟨hescape, hunit⟩ := unitEscape_control c.toNat hcode
    have hhigh : isHighHalf c.toNat = false := by
      simp [isHighHalf]
      omega
    rw [hescape, ← Char.ofNat_toNat c]
    exact readChars_unit (by rwa [Char.ofNat_toNat]) hhigh hr
  · simp at hascii
  · have hc : c ≠ '"' ∧ c ≠ '\\' := by simpa using hself
    exact readChars_plain hc.1 hc.2 (Nat.not_lt.1 hcode)

/-- The characters of a string are read up to its quote. -/
theorem readChars_flatMap (start : Nat) (t r : Text) :
    readChars start (t.flatMap (writeChar false) ++ '"' :: r) = .ok (t, r) := by
  induction t with
  | nil => exact readChars_quote start r
  | cons c t ih =>
    rw [List.flatMap_cons, List.append_assoc, readChars_writeChar start c (by simp), ih]
    rfl

/-- **A string is read as it is written.** -/
theorem readString_writeText (t r : Text) :
    ∃ inside, writeText false t ++ r = '"' :: inside ∧ readString inside = .ok (t, r) := by
  refine ⟨t.flatMap (writeChar false) ++ '"' :: r, by simp [writeText], ?_⟩
  exact readChars_flatMap _ t r

end Json

/-! ### Integers -/

namespace Text

theorem digitChar_ne_zero : ∀ d < 10, 0 < d → Nat.digitChar d ≠ '0' := by
  decide

/-- A number that is not zero does not begin with a zero. -/
theorem head?_ofNat {n : Nat} (hn : n ≠ 0) : ∀ c ∈ (ofNat n).head?, c ≠ '0' := by
  induction n using Nat.strongRecOn with
  | ind n ih =>
    rw [ofNat, Nat.toDigits_eq_if (by decide)]
    split
    · rename_i hlt
      intro c hc
      cases hc
      exact digitChar_ne_zero n hlt (Nat.pos_of_ne_zero hn)
    · intro c hc
      rw [List.head?_append_of_ne_nil _ Nat.toDigits_ne_nil] at hc
      exact ih (n / 10) (by omega) (by omega) c hc

end Text

namespace Json

open Numeral (EndsNumeral Digits)

theorem isDigit_of_endsNumeral (hr : EndsNumeral r) : ∀ c ∈ r.head?, c.isDigit = false := by
  intro c hc
  have hvalue := (hr c hc).1
  rw [Text.digitValue?] at hvalue
  split at hvalue
  · cases hvalue
  · rename_i hdigit
    simpa using hdigit

/-- The digits of a number are read up to what is no digit. -/
theorem wholeDigits?_ofNat (m : Nat) (hr : EndsNumeral r) :
    wholeDigits? (Text.ofNat m ++ r) = some (Text.ofNat m, r) := by
  by_cases hm : m = 0
  · subst hm
    rfl
  · obtain ⟨c, s, hs⟩ := List.exists_cons_of_ne_nil (Text.ofNat_ne_nil m)
    have hzero : c ≠ '0' := Text.head?_ofNat hm c (by rw [hs]; rfl)
    have hall : ∀ d ∈ c :: s, d.isDigit = true := by
      intro d hd
      rw [← hs] at hd
      exact Text.isDigit_of_mem_ofNat hd
    rw [List.forall_mem_cons] at hall
    have hrun : Text.MaximalRun Char.isDigit (s ++ r) s r :=
      ⟨rfl, hall.2, isDigit_of_endsNumeral hr⟩
    rw [hs, List.cons_append, wholeDigits?, if_pos hall.1, hrun.takeWhile_eq, hrun.dropWhile_eq]
    exact hzero

theorem fractionPart_eq (hr : EndsNumeral r) : fractionPart r = ([], r) := by
  rw [fractionPart]
  rintro d rest rfl
  exact (hr '.' rfl).2.1 rfl

theorem exponentPart_eq (hr : EndsNumeral r) : exponentPart r = ([], r) := by
  cases r with
  | nil => rfl
  | cons c r =>
    have hc := (hr c rfl).2.2
    rw [exponentPart.eq_def]
    exact if_neg (by simp [hc])

/-- Digits are read as an integer, after a minus or without one. -/
theorem readNumber_of_minusPart {negative : Bool} {m : Nat} (hr : EndsNumeral r)
    (hlength : (Text.ofNat m).length ≤ Integer.maxDigits)
    (hminus : minusPart t = (negative, Text.ofNat m ++ r)) :
    readNumber t = .ok (.int (if negative then -m else m), r) := by
  obtain ⟨ds, hds, hvalue⟩ := Text.exists_digits_ofNat m
  have hends : Numeral.EndsDigits [] := by simp [Numeral.EndsDigits]
  have hspan : Text.spanDigits (Text.ofNat m) = (ds, []) := by
    have hspan := Numeral.spanDigits_append hds hends
    rwa [List.append_nil] at hspan
  have hshort : ds.length ≤ Integer.maxDigits := by
    rw [← hds.length_eq]
    exact hlength
  have hread : Integer.read negative ds = .ok (if negative then -m else m) := by
    rw [Integer.read, if_pos hshort, hvalue]
  unfold readNumber
  simp only [hminus, wholeDigits?_ofNat m hr, fractionPart_eq hr, exponentPart_eq hr, hspan, hread,
    List.isEmpty_nil, Bool.and_self, if_true]

theorem exists_cons_ofNat (m : Nat) : ∃ c s, Text.ofNat m = c :: s ∧ c.isDigit = true := by
  obtain ⟨c, s, hs⟩ := List.exists_cons_of_ne_nil (Text.ofNat_ne_nil m)
  exact ⟨c, s, hs, Text.isDigit_of_mem_ofNat (hs ▸ List.mem_cons_self)⟩

/-- **An integer is read as it is written**, before what does not go on with a number. -/
theorem readNumber_write {i : Int} (hw : Integer.write i = .ok w) (hr : EndsNumeral r) :
    readNumber (w ++ r) = .ok (.int i, r) := by
  rw [Integer.write] at hw
  split at hw
  · rename_i hlength
    cases hw
    split
    · have hi : i = (if true then -(i.natAbs : Int) else i.natAbs) := by
        rw [if_pos rfl]
        omega
      rw [readNumber_of_minusPart hr hlength rfl, ← hi]
    · have hi : i = (if false then -(i.natAbs : Int) else i.natAbs) := by
        rw [if_neg Bool.false_ne_true]
        omega
      have hminus : minusPart (Text.ofNat i.natAbs ++ r) = (false, Text.ofNat i.natAbs ++ r) := by
        obtain ⟨c, s, hs, hdigit⟩ := exists_cons_ofNat i.natAbs
        rw [hs, List.cons_append, minusPart]
        intro rest hminus
        cases hminus
        cases hdigit
      rw [readNumber_of_minusPart hr hlength hminus, ← hi]
  · cases hw

/-- An integer starts with a digit, or with a minus and a digit. -/
theorem exists_cons_write {i : Int} (hw : Integer.write i = .ok w) :
    ∃ c s, (w = c :: s ∨ w = '-' :: c :: s) ∧ c.isDigit = true := by
  rw [Integer.write] at hw
  split at hw
  · cases hw
    obtain ⟨c, s, hs, hdigit⟩ := exists_cons_ofNat i.natAbs
    rw [hs]
    split
    · exact ⟨c, s, .inr rfl, hdigit⟩
    · exact ⟨c, s, .inl rfl, hdigit⟩
  · cases hw

/-- The words that stand for values have no digits at their start. -/
theorem not_word_of_isDigit (hc : c.isDigit = true) (s : Text) :
    ∀ e ∈ words, ¬ e.1.isPrefixOf (c :: s) ∧ ¬ e.1.isPrefixOf ('-' :: c :: s) := by
  have hwords : words.all (fun e => !(e.1.take 2).any Char.isDigit && 2 ≤ e.1.length) = true := by
    decide
  intro e he
  have hword := List.all_eq_true.1 hwords e he
  obtain ⟨word, v⟩ := e
  match word, hword with
  | d :: d' :: word, hword =>
    have hdigits : d.isDigit = false ∧ d'.isDigit = false := by simpa using hword
    simp only [List.isPrefixOf, Bool.and_eq_true, beq_iff_eq]
    constructor
    · rintro ⟨rfl, -⟩
      exact absurd hc (by simp [hdigits.1])
    · rintro ⟨-, rfl, -⟩
      exact absurd hc (by simp [hdigits.2])

/-- So is it where a word could stand as well. -/
theorem readScalar_write {i : Int} (hw : Integer.write i = .ok w) (hr : EndsNumeral r) :
    readScalar (w ++ r) = .ok (.int i, r) := by
  obtain ⟨c, s, hcs, hdigit⟩ := exists_cons_write hw
  have hnone : words.find? (fun e => e.1.isPrefixOf (w ++ r)) = none := by
    rw [List.find?_eq_none]
    intro e he
    obtain ⟨hplain, hminus⟩ := not_word_of_isDigit hdigit (s ++ r) e he
    rcases hcs with rfl | rfl
    · exact hplain
    · exact hminus
  rw [readScalar, hnone]
  exact readNumber_write hw hr

end Json

end SpacingClasses
