import SpacingClasses.Proofs.Answer
import SpacingClasses.Proofs.Attribute.Rounds
import SpacingClasses.Proofs.Attribute.Values

/-!
# Where the reader of attribute values stops

A reader goes on in its text until it has read something or finds a fault, and it tells of the fault
where it stands.

* `Attribute.Stands source left` : the text `left` is what is left of the source at a place where the
  reader of attribute values may find a fault;
* `Attribute.goes_itemRound`, `Attribute.goes_entryRound` : a round of a list or a dictionary takes
  up at least one character, if what is in it does;
* `Attribute.goes_readLiteral`, `Attribute.goes_readValue` : **a literal takes up at least one
  character**, or the reader stops at such a place, or at an integer of too many digits;
* `Attribute.read_eq_error` : so does the reader of whole attribute values;
* `Attribute.answers_read` : which gives readable values.
-/

namespace SpacingClasses

namespace Attribute

open Reader (Halts halts_stopAt halts_cons halts_loop)
open Text (HasRow Past isBlank skipBlanks skipBlanks_head?)
open Value (Readable)

variable {source t u rest : Text} {c quote : Char}

/-- What is left of the source at a place where a fault may be found: nothing, or a character that is
no blank comes next, or a quote has just been passed. -/
structure Stands (source left : Text) : Prop where
  suffix : left <:+ source
  place : (∀ c ∈ left.head?, isBlank c = false) ∨
    ∃ quote, isQuote quote = true ∧ quote :: left <:+ source

/-- Somewhere in the source more digits follow one another than are read. -/
abbrev Overlong (source : Text) : Prop := source.HasRow Char.isDigit (Integer.maxDigits + 1)

/-- What is read of the source is `good`, or the reader stops in the source. -/
abbrev Goes {α : Type} (source : Text) (good : α → Prop) (x : Except (Stop Reason) α) : Prop :=
  Halts (Stands source) (Overlong source) good x

/-- What is read goes on in the text. -/
abbrev Goes.Past {α : Type} (source t : Text) (x : Except (Stop Reason) (α × Text)) : Prop :=
  Goes source (fun part => Text.Past t part.2) x

theorem stands_nil (source : Text) : Stands source [] :=
  ⟨List.nil_suffix, .inl (by simp)⟩

theorem stands_skipBlanks (ht : t <:+ source) : Stands source (skipBlanks t) :=
  ⟨(skipBlanks_suffix t).trans ht, .inl (skipBlanks_head? t)⟩

theorem Stands.of_skipBlanks (ht : t <:+ source) (h : skipBlanks t = u) : Stands source u :=
  h ▸ stands_skipBlanks ht

/-! ### Strings, words and numbers -/

theorem goes_readChars (ht : t <:+ source) :
    Goes source (fun part => quote :: part.2 <:+ t) (readChars quote t) := by
  fun_induction readChars quote t with
  | case1 => exact halts_stopAt (stands_nil source) _
  | case2 c t ih =>
    have hback : t <:+ '\\' :: c :: t := (List.suffix_cons c t).trans (List.suffix_cons _ _)
    exact halts_cons ((ih (hback.trans ht)).imp fun part hpart => hpart.trans hback)
  | case3 t => exact List.suffix_rfl
  | case4 c t _ _ ih =>
    have hback := List.suffix_cons c t
    exact halts_cons ((ih (hback.trans ht)).imp fun part hpart => hpart.trans hback)

theorem goes_readString (hquote : isQuote quote = true) (ht : t <:+ source) :
    Goes.Past source t (readString quote t) := by
  rw [readString]
  refine (goes_readChars ht).bind fun part hpart => ?_
  obtain ⟨read, rest⟩ := part
  dsimp only at hpart ⊢
  split
  · -- the fault in a template literal is told behind its closing quote
    have hrest := (List.suffix_cons quote rest).trans hpart
    exact halts_stopAt ⟨hrest.trans ht, .inr ⟨quote, hquote, hpart.trans ht⟩⟩ _
  · exact (Past.cons_self quote rest).of_suffix hpart

theorem goes_readWord (hplace : Stands source t) : Goes.Past source t (readWord t) := by
  rw [readWord]
  split
  · rename_i v hv
    have hne : t.takeWhile isWordChar ≠ [] := (wordValue?_eq_some_iff.1 hv).ne_nil
    exact ⟨List.dropWhile_suffix _, (Text.maximalRun_span isWordChar t).length_lt hne⟩
  · exact halts_stopAt hplace _

theorem goes_readNumber (hplace : Stands source t) : Goes.Past source t (readNumber t) := by
  have hrun := Text.maximalRun_span isNumberChar t
  rw [readNumber]
  dsimp only
  split
  · exact halts_stopAt hplace _
  · rename_i n hn
    have hpast : Past t (t.dropWhile isNumberChar) := by
      refine ⟨List.dropWhile_suffix _, hrun.length_lt ?_⟩
      intro hnil
      rw [hnil] at hn
      cases hn
    split
    · rename_i hint
      rw [Bool.and_eq_true, Bool.not_eq_true', List.any_eq_false] at hint
      have hplain : ∀ c ∈ t.takeWhile isNumberChar, isFractionMark c = false :=
        fun c hc => Bool.eq_false_iff.2 (hint.1 c hc)
      obtain ⟨-, -, row, hpart, hrow, hdigits⟩ :=
        exists_row hrun.all hplain (Numeral.whole?_eq_some_iff.1 hn)
      rw [Integer.read]
      by_cases hlimit : n.digits.length ≤ Integer.maxDigits
      · rw [if_pos hlimit]
        exact hpast
      · rw [if_neg hlimit]
        have hinfix := hpart.trans (List.takeWhile_prefix isNumberChar).isInfix
        exact ⟨row, hinfix.trans hplace.suffix.isInfix, by omega, hdigits⟩
    · exact hpast

/-! ### Lists and dictionaries -/

theorem goes_expect (c : Char) (ht : t <:+ source) : Goes source (Past t) (expect c t) := by
  rw [expect]
  split
  · exact ⟨[], stands_nil source, rfl⟩
  · rename_i d rest hskip
    split
    · exact .of_skipBlanks hskip
    · exact ⟨d :: rest, .of_skipBlanks ht hskip, rfl⟩

theorem goes_readKey (hplace : Stands source t) : Goes.Past source t (readKey t) := by
  cases t with
  | nil => exact halts_stopAt hplace _
  | cons c t =>
    rw [readKey]
    split
    · rename_i hquote
      have htail := (List.suffix_cons c t).trans hplace.suffix
      exact (goes_readString hquote htail).imp fun part h => h.of_suffix (List.suffix_cons c t)
    · split
      · rename_i hdigit
        have hrun := Text.maximalRun_span Text.isAlphanumeric (c :: t)
        refine ⟨List.dropWhile_suffix _, hrun.length_lt ?_⟩
        simp [Text.isAlphanumeric_of_isDigit hdigit]
      · split
        · rename_i hword
          have hrun := Text.maximalRun_span isWordChar (c :: t)
          exact ⟨List.dropWhile_suffix _, hrun.length_lt (by simp [hword])⟩
        · exact halts_stopAt hplace _

theorem goes_roundEnd {α : Type} (close : Char) (a : α) (ht : t <:+ source) :
    Goes.Past source t (roundEnd close a t) := by
  rw [roundEnd]
  split
  · rename_i next hcomma
    exact Past.of_skipBlanks hcomma
  · exact (goes_expect close ht).bind fun rest hrest => hrest

theorem goes_charRound (ht : t <:+ source) : Goes.Past source t (charRound quote t) := by
  fun_cases charRound quote t with
  | case1 => exact halts_stopAt (stands_nil source) _
  | case2 c t => exact (Past.cons_self c t).of_suffix (List.suffix_cons _ _)
  | case3 t => exact Past.cons_self quote t
  | case4 c t => exact Past.cons_self c t

section

variable {item : Reader Reason Value} (hitem : ∀ u, u <:+ t → Goes.Past source u (item u))

include hitem

theorem goes_itemRound (ht : t <:+ source) : Goes.Past source t (itemRound item t) := by
  have hskip := skipBlanks_suffix t
  rw [itemRound]
  split
  · rename_i rest hclose
    exact Past.of_skipBlanks hclose
  · refine (hitem _ hskip).bind fun part hpart => ?_
    obtain ⟨v, afterItem⟩ := part
    have hafter : Past t afterItem := hpart.of_suffix hskip
    exact (goes_roundEnd ']' v (hafter.1.trans ht)).imp fun part h => hafter.leave h.1

theorem goes_entryRound (ht : t <:+ source) : Goes.Past source t (entryRound item t) := by
  have hskip := skipBlanks_suffix t
  rw [entryRound]
  split
  · rename_i rest hclose
    exact Past.of_skipBlanks hclose
  · refine (goes_readKey (stands_skipBlanks ht)).bind fun part hpart => ?_
    obtain ⟨key, afterKey⟩ := part
    have hkey : Past t afterKey := hpart.of_suffix hskip
    refine (goes_expect ':' (hkey.1.trans ht)).bind fun afterColon hcolon => ?_
    have hcolon : Past t afterColon := hkey.leave hcolon.1
    refine (hitem _ hcolon.1).bind fun part hpart => ?_
    obtain ⟨v, afterItem⟩ := part
    have hafter : Past t afterItem := hcolon.leave hpart.1
    exact (goes_roundEnd _ _ (hafter.1.trans ht)).imp fun part h => hafter.leave h.1

/-- **Items take up at least one character**, and a bound above the length of their text is not spent
on them. -/
theorem goes_readItems (ht : t <:+ source) {bound : Nat} (hbound : t.length < bound) :
    Goes.Past source t (readItems item bound t) := by
  rw [readItems_eq_loop]
  refine halts_loop (fun u hu => ?_) hbound
  exact goes_itemRound (fun w hw => hitem w (hw.trans hu)) (hu.trans ht)

/-- **Entries take up at least one character**, and a bound above the length of their text is not
spent on them. -/
theorem goes_readEntries (ht : t <:+ source) {bound : Nat} (hbound : t.length < bound) :
    Goes.Past source t (readEntries item bound t) := by
  rw [readEntries_eq_loop]
  refine halts_loop (fun u hu => ?_) hbound
  exact goes_entryRound (fun w hw => hitem w (hw.trans hu)) (hu.trans ht)

end

/-! ### Literals and attribute values -/

/-- **A literal takes up at least one character**, and a bound above the length of its text is not
spent on it. -/
theorem goes_readLiteral (ht : t <:+ source) {bound : Nat} (hbound : t.length < bound) :
    Goes.Past source t (readLiteral bound t) := by
  induction bound generalizing t with
  | zero => cases hbound
  | succ bound ih =>
    rw [readLiteral]
    split
    · exact halts_stopAt (stands_nil source) _
    · rename_i c u hskip
      have hplace := Stands.of_skipBlanks ht hskip
      have hpast := Past.of_skipBlanks hskip
      have hlength := hpast.2
      have htail := hpast.1.trans ht
      -- what is nested is shorter than the text, and so the smaller bound is enough for it
      have hitem : ∀ w, w <:+ u → Goes.Past source w (readLiteral bound w) := by
        intro w hw
        have := hw.length_le
        exact ih (hw.trans htail) (by omega)
      split
      · rename_i hquote
        exact (goes_readString hquote htail).bind fun part hpart => hpast.leave hpart.1
      · split
        · refine (goes_readItems hitem htail (Nat.lt_succ_self _)).bind ?_
          exact fun part hpart => hpast.leave hpart.1
        · split
          · refine (goes_readEntries hitem htail (Nat.lt_succ_self _)).bind ?_
            exact fun part hpart => hpast.leave hpart.1
          · have hsuffix : c :: u <:+ t := hskip ▸ skipBlanks_suffix t
            split
            · exact (goes_readNumber hplace).imp fun part hpart => hpart.of_suffix hsuffix
            · exact (goes_readWord hplace).imp fun part hpart => hpart.of_suffix hsuffix

theorem goes_readValue (t : Text) : Goes.Past t t (readValue t) := by
  rw [readValue, readValueBy]
  split
  · exact halts_stopAt (stands_nil t) _
  · rename_i c u hskip
    have hpast := Past.of_skipBlanks hskip
    split
    · rename_i hquote
      exact (goes_readString hquote hpast.1).bind fun part hpart => hpast.leave hpart.1
    · split
      · refine (goes_readLiteral hpast.1 (Nat.lt_succ_self _)).bind fun part hpart => ?_
        obtain ⟨v, afterValue⟩ := part
        have hafter : Past t afterValue := hpast.leave hpart.1
        refine (goes_expect '\x7d' hafter.1).bind ?_
        exact fun rest hrest => hafter.leave hrest.1
      · exact halts_stopAt (.of_skipBlanks List.suffix_rfl hskip) _

theorem goes_readWhole (t : Text) : Goes t (fun _ => True) (readWhole t) := by
  refine (goes_readValue t).bind fun part hpart => ?_
  obtain ⟨v, rest⟩ := part
  dsimp only
  split
  · exact trivial
  · exact ⟨skipBlanks rest, stands_skipBlanks hpart.1, rfl⟩

/-- **An attribute value that is not read** has a fault at a place where the reader stands, or more
digits in a row than are read. -/
theorem read_eq_error {f : Failure} (h : read t = .error f) :
    (∃ k reason, Stands t (t.drop k) ∧ k ≤ t.length ∧
      f = .report (.unreadableAttribute t k reason)) ∨
    (Overlong t ∧ ∃ digits, f = .digitLimit (some digits)) := by
  have hgoes := goes_readWhole t
  rw [read] at h
  cases hread : readWhole t with
  | ok v =>
    rw [hread] at h
    cases h
  | error stop =>
    rw [hread] at h hgoes
    obtain rfl : failure t stop = f := Except.error.inj h
    cases stop with
    | fault remaining reason =>
      obtain ⟨left, hplace, rfl⟩ := hgoes
      refine .inl ⟨t.length - left.length, reason, ?_, Nat.sub_le .., rfl⟩
      rwa [← List.suffix_iff_eq_drop.1 hplace.suffix]
    | limit digits => exact .inr ⟨hgoes, digits, rfl⟩
    | exhausted => exact hgoes.elim

/-- **An attribute value is readable**, and one is too long only if its text has a row of as many
digits as can be written. -/
theorem answers_read {long blocked : Prop}
    (hlong : t.HasRow Char.isDigit Integer.maxDigits → long) :
    Answers (Readable long Any) long blocked (Attribute.read t) := by
  have hyields := yields_readWhole hlong
  have hgoes := goes_readWhole t
  rw [Attribute.read]
  cases h : readWhole t with
  | ok v =>
    rw [h] at hyields
    exact hyields
  | error stop =>
    rw [h] at hyields hgoes
    cases stop with
    | fault n reason => exact .report _
    | limit digits => exact .digitLimit _ hyields
    | exhausted => exact hgoes.elim

end Attribute

end SpacingClasses
