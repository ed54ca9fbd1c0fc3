import SpacingClasses.Json.Reader
import SpacingClasses.Proofs.Attribute.Grammar
import SpacingClasses.Proofs.Reader
import SpacingClasses.Proofs.Text.Row

/-!
# What JSON strings are made of

A string is a row of pieces up to its quote, each of which stands for one character.

* `Json.Piece piece c` : the characters that may stand for `c`;
* `Json.StringChars t read rest` : the text `t` has the pieces of `read` up to a quote, and then `rest`;
* `Json.stringChars_of_readChars` : a string is read only from such a text;
* `StringChars.split` : without a backslash the pieces are the characters themselves;
* `StringChars.attribute` : **a string of an attribute ends where the JSON string ends**;
* `StringChars.hasRow` : digits in a row are written by hexadecimal digits and escapes in a row.
-/

namespace SpacingClasses

namespace Json

open Reader (cons_eq_ok_iff)

/-- An escape by the four digits of a code unit. -/
def unitOf (a b c d : Char) : Text := ['\\', 'u', a, b, c, d]

/-- What stands for one character of a string. -/
inductive Piece : Text → Char → Prop where
  | plain {c} (hquote : c ≠ '"') (hslash : c ≠ '\\') : Piece [c] c
  | short {c d} (h : escaped? c = some d) : Piece ['\\', c] d
  | code {a b c d n} (h : codeUnit? a b c d = some n) :
      Piece (unitOf a b c d) (Char.ofNat n)
  | pair {a b c d e f g h high low} (hhigh : codeUnit? a b c d = some high)
      (hlow : codeUnit? e f g h = some low) :
      Piece (unitOf a b c d ++ unitOf e f g h) (pairChar high low)

/-- The characters of a string up to its closing quote. -/
inductive StringChars : Text → Text → Text → Prop where
  | close {rest} : StringChars ('"' :: rest) [] rest
  | more {piece c t read rest} (hpiece : Piece piece c) (h : StringChars t read rest) :
      StringChars (piece ++ t) (c :: read) rest

variable {a b c d : Char} {piece row read t rest : Text} {n start : Nat}

/-- **A string is read only from its pieces and a quote.** -/
theorem stringChars_of_readChars (h : readChars start t = .ok (read, rest)) :
    StringChars t read rest := by
  fun_induction readChars start t generalizing read with
  | case1 => cases h
  | case2 => cases h
  | case3 => cases h
  | case4 => cases h
  | case5 a b c d e f g h i t high hhigh _ low hlow _ ih =>
    obtain ⟨r, rfl, hr⟩ := cons_eq_ok_iff.1 ‹_›
    exact .more (.pair hhigh hlow) (ih hr)
  | case6 a b c d e f g h i t n hn _ low _ _ ih =>
    obtain ⟨r, rfl, hr⟩ := cons_eq_ok_iff.1 ‹_›
    exact .more (.code hn) (ih hr)
  | case7 a b c d e f g h i t n hn _ ih =>
    obtain ⟨r, rfl, hr⟩ := cons_eq_ok_iff.1 ‹_›
    exact .more (.code hn) (ih hr)
  | case8 => cases h
  | case9 a b c d e t _ n hn ih =>
    obtain ⟨r, rfl, hr⟩ := cons_eq_ok_iff.1 ‹_›
    exact .more (.code hn) (ih hr)
  | case10 => cases h
  | case11 => cases h
  | case12 c t _ _ _ d hd ih =>
    obtain ⟨r, rfl, hr⟩ := cons_eq_ok_iff.1 h
    exact .more (.short hd) (ih hr)
  | case13 =>
    cases h
    exact .close
  | case14 => cases h
  | case15 c t hlone _ _ _ hslash hquote _ ih =>
    obtain ⟨r, rfl, hr⟩ := cons_eq_ok_iff.1 h
    refine .more (.plain hquote fun hc => ?_) (ih hr)
    -- a backslash is taken together with what follows it
    cases t with
    | nil => exact hlone hc rfl
    | cons d t => exact hslash d t hc rfl

/-! ### Pieces -/

theorem hexValue?_of_codeUnit? (h : codeUnit? a b c d = some n) :
    ∀ x ∈ [a, b, c, d], (hexValue? x).isSome = true := by
  obtain ⟨va, ha, h⟩ := Option.bind_eq_some_iff.1 h
  obtain ⟨vb, hb, h⟩ := Option.bind_eq_some_iff.1 h
  obtain ⟨vc, hc, h⟩ := Option.bind_eq_some_iff.1 h
  obtain ⟨vd, hd, -⟩ := Option.bind_eq_some_iff.1 h
  simp [ha, hb, hc, hd]

/-- Hexadecimal digits stand for themselves in a string of an attribute. -/
theorem attribute_hex {digits : Text} (hdigits : ∀ x ∈ digits, (hexValue? x).isSome = true)
    (h : Attribute.StringChars '"' t read rest) :
    Attribute.StringChars '"' (digits ++ t) (digits ++ read) rest := by
  induction digits with
  | nil => exact h
  | cons x digits ih =>
    rw [List.forall_mem_cons] at hdigits
    refine .plain ?_ ?_ (ih hdigits.2)
    · rintro rfl
      exact absurd hdigits.1 (by decide)
    · rintro rfl
      exact absurd hdigits.1 (by decide)

/-- In a string of an attribute an escape by a code is the letter `u` with digits after it. -/
theorem attribute_unit (hn : codeUnit? a b c d = some n)
    (h : Attribute.StringChars '"' t read rest) :
    Attribute.StringChars '"' (unitOf a b c d ++ t) ('u' :: a :: b :: c :: d :: read) rest :=
  .escape (attribute_hex (hexValue?_of_codeUnit? hn) h)

/-- A piece may stand in a string of an attribute, whatever it means there. -/
theorem Piece.attribute (hpiece : Piece piece c) (h : Attribute.StringChars '"' t read rest) :
    ∃ read', Attribute.StringChars '"' (piece ++ t) read' rest := by
  cases hpiece with
  | plain hquote hslash => exact ⟨_, .plain hquote hslash h⟩
  | short _ => exact ⟨_, .escape h⟩
  | code hn => exact ⟨_, attribute_unit hn h⟩
  | pair hhigh hlow =>
    rw [List.append_assoc]
    exact ⟨_, attribute_unit hhigh (attribute_unit hlow h)⟩

/-- **A string of an attribute ends where the JSON string ends.** -/
theorem StringChars.attribute (h : StringChars t read rest) :
    ∃ read', Attribute.StringChars '"' t read' rest := by
  induction h with
  | close => exact ⟨[], .close⟩
  | more hpiece _ ih =>
    obtain ⟨read', h⟩ := ih
    exact hpiece.attribute h

/-- Without a backslash the pieces of a string are its characters. -/
theorem StringChars.split (h : StringChars t read rest) :
    ∃ inside, t = inside ++ '"' :: rest ∧ ('\\' ∉ inside → read = inside) := by
  induction h with
  | close => exact ⟨[], rfl, fun _ => rfl⟩
  | @more piece c _ _ _ hpiece _ ih =>
    obtain ⟨inside, rfl, hread⟩ := ih
    refine ⟨piece ++ inside, (List.append_assoc ..).symm, fun hslash => ?_⟩
    rw [List.mem_append, not_or] at hslash
    cases hpiece with
    | plain _ _ => rw [hread hslash.2, List.singleton_append]
    | _ => exact absurd List.mem_cons_self hslash.1

/-! ### Digits in a row -/

/-- Whether a character is a hexadecimal digit or belongs to the front of an escape by a code. -/
def isCodeChar (c : Char) : Bool := (hexValue? c).isSome || c == '\\' || c == 'u'

theorem isCodeChar_of_isDigit (h : c.isDigit = true) : isCodeChar c = true := by
  simp [isCodeChar, hexValue?, h]

theorem isCodeChar_unitOf (h : codeUnit? a b c d = some n) :
    ∀ x ∈ unitOf a b c d, isCodeChar x = true := by
  have hdigits : ∀ x ∈ [a, b, c, d], isCodeChar x = true := fun x hx => by
    simp [isCodeChar, hexValue?_of_codeUnit? h x hx]
  exact List.forall_mem_cons.2 ⟨by decide, List.forall_mem_cons.2 ⟨by decide, hdigits⟩⟩

/-- No short escape stands for a digit. -/
theorem not_isDigit_of_escaped? (h : escaped? c = some d) : d.isDigit = false := by
  rw [escaped?] at h
  split_ifs at h with hself
  · simp only [Bool.or_eq_true, decide_eq_true_eq] at hself
    obtain rfl := Option.some.inj h
    rcases hself with (rfl | rfl) | rfl <;> rfl
  all_goals
    obtain rfl := Option.some.inj h
    rfl

/-- A digit is written by itself or by its code. -/
theorem Piece.codeChars (hpiece : Piece piece c) (hc : c.isDigit = true) :
    0 < piece.length ∧ ∀ x ∈ piece, isCodeChar x = true := by
  cases hpiece with
  | plain _ _ => exact ⟨Nat.one_pos, List.forall_mem_singleton.2 (isCodeChar_of_isDigit hc)⟩
  | short h =>
    rw [not_isDigit_of_escaped? h] at hc
    cases hc
  | code hn => exact ⟨Nat.zero_lt_succ _, isCodeChar_unitOf hn⟩
  | pair hhigh hlow =>
    refine ⟨Nat.zero_lt_succ _, List.forall_mem_append.2 ?_⟩
    exact ⟨isCodeChar_unitOf hhigh, isCodeChar_unitOf hlow⟩

/-- Digits at the front of a string are written by as many characters at least. -/
theorem StringChars.exists_front (h : StringChars t read rest) (hrow : row <+: read)
    (hdigits : ∀ c ∈ row, c.isDigit = true) :
    ∃ w, w <+: t ∧ row.length ≤ w.length ∧ ∀ x ∈ w, isCodeChar x = true := by
  induction h generalizing row with
  | close =>
    obtain rfl := List.prefix_nil.1 hrow
    exact ⟨[], List.nil_prefix, Nat.le_refl 0, by simp⟩
  | @more piece _ _ _ _ hpiece _ ih =>
    cases row with
    | nil => exact ⟨[], List.nil_prefix, Nat.le_refl 0, by simp⟩
    | cons c row =>
      obtain ⟨rfl, hfollows⟩ := List.cons_prefix_cons.1 hrow
      rw [List.forall_mem_cons] at hdigits
      obtain ⟨w, hw, hlength, hcode⟩ := ih hfollows hdigits.2
      obtain ⟨hpos, hpiece⟩ := hpiece.codeChars hdigits.1
      refine ⟨piece ++ w, (List.prefix_append_right_inj _).2 hw, ?_,
        List.forall_mem_append.2 ⟨hpiece, hcode⟩⟩
      rw [List.length_cons, List.length_append]
      omega

/-- **Digits in a row** are written by hexadecimal digits and escapes in a row. -/
theorem StringChars.hasRow (h : StringChars t read rest) (hrow : read.HasRow Char.isDigit n) :
    t.HasRow isCodeChar n := by
  obtain ⟨row, hrow, hn, hdigits⟩ := hrow
  -- the row starts at some piece, and there it is a prefix
  induction h with
  | close =>
    obtain rfl := List.infix_nil.1 hrow
    exact ⟨[], List.nil_infix, hn, by simp⟩
  | more hpiece h ih =>
    rcases List.infix_cons_iff.1 hrow with hfront | hrow
    · obtain ⟨w, hw, hlength, hcode⟩ := (StringChars.more hpiece h).exists_front hfront hdigits
      exact ⟨w, hw.isInfix, hn.trans hlength, hcode⟩
    · exact (ih hrow).of_part (List.suffix_append _ _).isInfix

end Json

end SpacingClasses
