import SpacingClasses.Proofs.Attribute.Grammar
import SpacingClasses.Proofs.Reader
import Mathlib.Tactic.SplitIfs

/-!
# Attribute values are read by their grammar

Each reader is tied to the relation of the same thing, both ways:

* `readString_eq_ok_iff` for strings, `readWord_eq_ok_iff` for words, `numberLiteral_of_readNumber`
  and `readNumber_of_numberLiteral` for numbers, `key_of_readKey` and `readKey_of_key` for keys;
* `items_of_readItems` and `readItems_of_items` for lists, whatever their items are, and
  `entries_of_readEntries` and `readEntries_of_entries` for dictionaries;
* `literal_of_readLiteral` and `readLiteral_of_literal` for literals, by induction on the bound on
  their depth;
* `Attribute.read_eq_ok_iff` : **an attribute value is read exactly if the grammar derives it**, and
  as the value that it derives.

The bounds of the readers are never spent: a text is longer than what is left after each item.
-/

namespace SpacingClasses

namespace Attribute

open Reader (cons_eq_ok_iff)
open Text (Blanks MaximalRun isBlank isAlphanumeric skipBlanks)
open Text (blanks_skipBlanks maximalRun_span maximalRun_iff skipBlanks_skipBlanks)

variable {t u w run read key rest next : Text} {v : Value} {c quote : Char}

/-! ### Strings -/

theorem stringChars_of_readChars (h : readChars quote t = .ok (read, rest)) :
    StringChars quote t read rest := by
  fun_induction readChars quote t generalizing read with
  | case1 => cases h
  | case2 c t ih =>
    obtain ⟨r, rfl, hr⟩ := cons_eq_ok_iff.1 h
    exact .escape (ih hr)
  | case3 t =>
    cases h
    exact .close
  | case4 c t hlone hquote ih =>
    obtain ⟨r, rfl, hr⟩ := cons_eq_ok_iff.1 h
    refine .plain hquote ?_ (ih hr)
    rintro rfl
    -- a backslash at the end of the text is left alone, and the string is not closed
    cases t with
    | nil => cases hr
    | cons d t => exact hlone d t rfl rfl

theorem readChars_cons (hc : c ≠ '\\') (quote : Char) (t : Text) :
    readChars quote (c :: t) =
      if c = quote then .ok ([], t) else Reader.cons c (readChars quote t) := by
  rw [readChars]
  exact fun _ _ h _ => hc h

theorem readChars_of_stringChars (hquote : quote ≠ '\\') (h : StringChars quote t read rest) :
    readChars quote t = .ok (read, rest) := by
  induction h with
  | close => rw [readChars_cons hquote, if_pos rfl]
  | plain hc hslash _ ih =>
    rw [readChars_cons hslash, if_neg hc, ih]
    rfl
  | escape _ ih =>
    rw [readChars, ih]
    rfl

/-- After its opening quote a string is read exactly if it is one. -/
theorem readString_eq_ok_iff (hquote : isQuote quote = true) :
    readString quote t = .ok (read, rest) ↔ StringLiteral (quote :: t) read rest := by
  have hslash : quote ≠ '\\' := by
    rcases isQuote_iff.1 hquote with rfl | rfl | rfl <;> decide
  rw [readString, bind_eq_ok_iff]
  constructor
  · rintro ⟨⟨r, rest'⟩, hr, h⟩
    dsimp only at h
    split_ifs at h with hdynamic
    · cases h
    · -- the test for an expression is made of template literals only
      cases h
      refine .mk hquote (stringChars_of_readChars hr) fun htemplate hpart => hdynamic ?_
      rw [htemplate, beq_self_eq_true, Bool.true_and, Text.has_eq_true_iff]
      exact hpart
  · rintro ⟨-, h, hstatic⟩
    refine ⟨_, readChars_of_stringChars hslash h, ?_⟩
    dsimp only
    rw [if_neg]
    simpa [Text.has_eq_true_iff] using hstatic

/-! ### Words -/

theorem wordValue?_eq_some_iff : wordValue? run = some v ↔ WordLiteral run v := by
  constructor
  · intro h
    rw [wordValue?] at h
    split_ifs at h with hnull htrue hfalse
    · rw [Bool.or_eq_true, decide_eq_true_eq, decide_eq_true_eq] at hnull
      obtain rfl := Option.some.inj h
      rcases hnull with rfl | rfl
      · exact .null
      · exact .undefined
    · obtain rfl := Option.some.inj h
      rw [htrue]
      exact .true
    · obtain rfl := Option.some.inj h
      rw [hfalse]
      exact .false
  · intro h
    cases h <;> rfl

theorem readWord_eq_ok_iff :
    readWord t = .ok (v, rest) ↔ ∃ run, MaximalRun isWordChar t run rest ∧ WordLiteral run v := by
  rw [readWord]
  constructor
  · intro h
    split at h
    · rename_i hword
      cases h
      exact ⟨_, maximalRun_span isWordChar t, wordValue?_eq_some_iff.1 hword⟩
    · cases h
  · rintro ⟨run, hrun, h⟩
    obtain ⟨rfl, rfl⟩ := maximalRun_iff.1 hrun
    simp only [wordValue?_eq_some_iff.2 h]

/-! ### Numbers -/

theorem integerRead_eq_ok_iff {negative : Bool} {ds : List Nat} {n : Int} :
    Integer.read negative ds = .ok n ↔
      ds.length ≤ Integer.maxDigits ∧ Numeral.signedDigits negative ds = n := by
  rw [Integer.read]
  by_cases h : ds.length ≤ Integer.maxDigits
  · rw [if_pos h, Except.ok.injEq]
    exact ⟨fun hn => ⟨h, hn⟩, fun hn => hn.2⟩
  · rw [if_neg h]
    exact ⟨fun hn => (nomatch hn), fun hn => absurd hn.1 h⟩

theorem numberLiteral_of_readNumber (h : readNumber t = .ok (v, rest)) :
    ∃ run, MaximalRun isNumberChar t run rest ∧ NumberLiteral run v := by
  rw [readNumber] at h
  dsimp only at h
  refine ⟨t.takeWhile isNumberChar, ?_⟩
  split at h
  · cases h
  · rename_i n hwhole
    have hn := Numeral.whole?_eq_some_iff.1 hwhole
    split_ifs at h with hint
    · rw [Bool.and_eq_true, Bool.not_eq_true', List.any_eq_false] at hint
      split at h
      · rename_i i hread
        cases h
        obtain ⟨hlimit, rfl⟩ := integerRead_eq_ok_iff.1 hread
        refine ⟨maximalRun_span isNumberChar t, .int hn (fun c hc => ?_) hint.2 hlimit⟩
        exact Bool.eq_false_iff.2 (hint.1 c hc)
      · cases h
    · -- the test for an integer fails by a fraction mark or by the size of the number
      cases h
      refine ⟨maximalRun_span isNumberChar t, .double hn ?_⟩
      rw [Bool.and_eq_true, not_and_or, Bool.not_eq_true', Bool.not_eq_false,
        List.any_eq_true, Bool.not_eq_true] at hint
      exact hint

theorem readNumber_of_numberLiteral (hrun : MaximalRun isNumberChar t run rest)
    (h : NumberLiteral run v) : readNumber t = .ok (v, rest) := by
  rw [readNumber]
  obtain ⟨rfl, rfl⟩ := maximalRun_iff.1 hrun
  cases h with
  | @int n hn hplain hfinite hlimit =>
    have hany : ((t.takeWhile isNumberChar).any
        fun c => c == '.' || c == 'e' || c == 'E') = false :=
      List.any_eq_false.2 fun c hc => Bool.eq_false_iff.1 (hplain c hc)
    have hread : Integer.read n.negative n.digits = .ok _ :=
      integerRead_eq_ok_iff.2 ⟨hlimit, rfl⟩
    simp only [Numeral.whole?_eq_some_iff.2 hn, hany, hfinite, hread]
    rfl
  | double hn h =>
    simp only [Numeral.whole?_eq_some_iff.2 hn]
    rw [if_neg]
    rw [Bool.and_eq_true, not_and_or, Bool.not_eq_true', Bool.not_eq_false, List.any_eq_true,
      Bool.not_eq_true]
    exact h

/-! ### Keys -/

theorem not_isQuote_of_isWordChar (h : isWordChar c = true) : isQuote c = false := by
  refine Bool.eq_false_iff.2 fun hquote => ?_
  rcases isQuote_iff.1 hquote with rfl | rfl | rfl
  all_goals exact absurd h (by decide)

theorem key_of_readKey (h : readKey t = .ok (key, rest)) : Key t key rest := by
  cases t with
  | nil => cases h
  | cons c t =>
    rw [readKey] at h
    split_ifs at h with hquote hdigit hword
    · exact .string ((readString_eq_ok_iff hquote).1 h)
    · -- a key that starts with a digit holds no underscore and no dollar sign
      cases h
      have halpha := Text.isAlphanumeric_of_isDigit hdigit
      refine .digits (maximalRun_span _ _) ⟨c, ?_, hdigit⟩
      simp [halpha]
    · cases h
      refine .word (maximalRun_span _ _) (by simp [hword]) fun d hd => ?_
      rw [List.takeWhile_cons_of_pos hword] at hd
      obtain rfl := Option.some.inj hd
      exact Bool.eq_false_iff.2 hdigit
    · cases h

theorem readKey_of_key (h : Key t key rest) : readKey t = .ok (key, rest) := by
  cases h with
  | string h =>
    have hread := h
    cases hread with
    | mk hquote _ _ => rw [readKey, if_pos hquote, (readString_eq_ok_iff hquote).2 h]
  | word h hne hhead =>
    obtain ⟨c, k, rfl⟩ := List.exists_cons_of_ne_nil hne
    have hword := h.all c List.mem_cons_self
    have hdigit := hhead c rfl
    obtain ⟨htake, hdrop⟩ := maximalRun_iff.1 h
    rw [h.split, List.cons_append] at htake hdrop ⊢
    rw [readKey, not_isQuote_of_isWordChar hword, hdigit, htake, hdrop]
    simp [hword]
  | digits h hhead =>
    obtain ⟨c, hc, hdigit⟩ := hhead
    obtain ⟨k, rfl⟩ := List.head?_eq_some_iff.1 hc
    have halpha := h.all c List.mem_cons_self
    have hquote := not_isQuote_of_isWordChar (isWordChar_of_isAlphanumeric halpha)
    obtain ⟨htake, hdrop⟩ := maximalRun_iff.1 h
    rw [h.split, List.cons_append] at htake hdrop ⊢
    rw [readKey, hquote, hdigit, htake, hdrop]
    simp

/-! ### Lists -/

theorem expect_eq_ok_iff : expect c t = .ok rest ↔ skipBlanks t = c :: rest := by
  rw [expect]
  split
  · rename_i hs
    rw [hs]
    exact ⟨fun h => (nomatch h), fun h => (nomatch h)⟩
  · rename_i d r hs
    rw [hs]
    by_cases hd : d = c
    · rw [if_pos hd, hd]
      simp
    · rw [if_neg hd]
      simp [hd]

variable {item : Reader Reason Value} {literal : Text → Value → Text → Prop}

theorem items_of_readItems
    (hitem : ∀ {t v rest}, item t = .ok (v, rest) → literal (skipBlanks t) v rest)
    {bound : Nat} {vs : List Value} (h : readItems item bound t = .ok (vs, rest)) :
    Items literal t vs rest := by
  induction bound generalizing t vs with
  | zero => cases h
  | succ bound ih =>
    have ht := blanks_skipBlanks t
    rw [readItems] at h
    split at h
    · rename_i hs
      cases h
      exact .close (hs ▸ ht)
    · -- `item` starts behind the blanks already, and skips them again in vain
      obtain ⟨⟨v, w⟩, hv, h⟩ := bind_eq_ok_iff.1 h
      have hlit := hitem hv
      rw [skipBlanks_skipBlanks] at hlit
      dsimp only at h
      split at h
      · rename_i next hw
        obtain ⟨⟨vs', r⟩, hvs, h⟩ := bind_eq_ok_iff.1 h
        cases h
        exact .more ht hlit (hw ▸ blanks_skipBlanks w) (ih hvs)
      · obtain ⟨r, hclose, h⟩ := bind_eq_ok_iff.1 h
        cases h
        exact .last ht hlit (expect_eq_ok_iff.1 hclose ▸ blanks_skipBlanks w)

theorem readItems_close {bound : Nat} (h : skipBlanks t = ']' :: rest) :
    readItems item (bound + 1) t = .ok ([], rest) := by
  simp only [readItems, h]

theorem readItems_last {bound : Nat} (ht : skipBlanks t = u) (hu : Opens ']' u)
    (hv : item u = .ok (v, w)) (hw : skipBlanks w = ']' :: rest) :
    readItems item (bound + 1) t = .ok ([v], rest) := by
  obtain ⟨c, r, rfl, -, hc⟩ := hu
  rw [readItems, ht]
  split
  · rename_i h
    exact absurd (List.cons.inj h).1 hc
  · simp only [hv, ok_bind, expect_eq_ok_iff.2 hw]
    rw [hw]
    rfl

theorem readItems_more {bound : Nat} {vs : List Value} (ht : skipBlanks t = u) (hu : Opens ']' u)
    (hv : item u = .ok (v, w)) (hw : skipBlanks w = ',' :: next)
    (hvs : readItems item bound next = .ok (vs, rest)) :
    readItems item (bound + 1) t = .ok (v :: vs, rest) := by
  obtain ⟨c, r, rfl, -, hc⟩ := hu
  rw [readItems, ht]
  split
  · rename_i h
    exact absurd (List.cons.inj h).1 hc
  · simp only [hv, ok_bind, hw, hvs]

/-- Items are read with any bound greater than the length of their text, if `item` reads the
literals in it. -/
theorem readItems_of_items {n : Nat}
    (hitem : ∀ {t u v w}, Blanks t u → literal u v w → u.length ≤ n → item t = .ok (v, w))
    (hopens : ∀ {u v w}, literal u v w → Opens ']' u)
    (hlength : ∀ {u v w}, literal u v w → w.length < u.length)
    {vs : List Value} (h : Items literal t vs rest) (hn : t.length ≤ n) {bound : Nat}
    (hbound : t.length < bound) : readItems item bound t = .ok (vs, rest) := by
  induction h generalizing bound with
  | close h =>
    cases bound with
    | zero => cases hbound
    | succ bound => exact readItems_close (h.skip_cons (by decide))
  | @last t u v w rest hu hv h =>
    cases bound with
    | zero => cases hbound
    | succ bound =>
      have hopen := hopens hv
      refine readItems_last (hu.skip_eq hopen.head) hopen ?_ (h.skip_cons (by decide))
      exact hitem (.refl u) hv (hu.length_le.trans hn)
  | @more t u v w next vs rest hu hv hcomma _ ih =>
    cases bound with
    | zero => cases hbound
    | succ bound =>
      have hopen := hopens hv
      have h1 := hu.length_le
      have h2 := hlength hv
      have h3 := hcomma.length_le
      rw [List.length_cons] at h3
      -- an item and its comma leave a shorter text, and so the bound is not spent on them
      refine readItems_more (hu.skip_eq hopen.head) hopen ?_ (hcomma.skip_cons (by decide)) ?_
      · exact hitem (.refl u) hv (h1.trans hn)
      · exact ih (by omega) (by omega)

/-! ### Dictionaries -/

theorem entries_of_readEntries
    (hitem : ∀ {t v rest}, item t = .ok (v, rest) → literal (skipBlanks t) v rest)
    {bound : Nat} {es : List (Value × Value)} (h : readEntries item bound t = .ok (es, rest)) :
    ∃ entries, es = Value.named entries ∧ Entries literal t entries rest := by
  induction bound generalizing t es with
  | zero => cases h
  | succ bound ih =>
    have ht := blanks_skipBlanks t
    rw [readEntries] at h
    split at h
    · rename_i hs
      cases h
      exact ⟨[], rfl, .close (hs ▸ ht)⟩
    · obtain ⟨⟨key, w⟩, hkey, h⟩ := bind_eq_ok_iff.1 h
      obtain ⟨x, hcolon, h⟩ := bind_eq_ok_iff.1 h
      obtain ⟨⟨v, y⟩, hv, h⟩ := bind_eq_ok_iff.1 h
      have hx : Blanks w (':' :: x) := expect_eq_ok_iff.1 hcolon ▸ blanks_skipBlanks w
      have he : Entry literal t (key, v) y :=
        .mk ht (key_of_readKey hkey) hx (blanks_skipBlanks x) (hitem hv)
      dsimp only at h
      split at h
      · rename_i next hy
        obtain ⟨⟨es', r⟩, hes, h⟩ := bind_eq_ok_iff.1 h
        cases h
        obtain ⟨entries, rfl, hentries⟩ := ih hes
        exact ⟨(key, v) :: entries, rfl, .more he (hy ▸ blanks_skipBlanks y) hentries⟩
      · obtain ⟨r, hclose, h⟩ := bind_eq_ok_iff.1 h
        cases h
        exact ⟨[(key, v)], rfl, .last he (expect_eq_ok_iff.1 hclose ▸ blanks_skipBlanks y)⟩

theorem readEntries_close {bound : Nat} (h : skipBlanks t = '\x7d' :: rest) :
    readEntries item (bound + 1) t = .ok ([], rest) := by
  simp only [readEntries, h]

theorem readEntries_last {bound : Nat} (hu : skipBlanks t = u) (hopen : Opens '\x7d' u)
    (hkey : readKey u = .ok (key, w)) (hw : skipBlanks w = ':' :: next)
    (hv : item next = .ok (v, run)) (hrun : skipBlanks run = '\x7d' :: rest) :
    readEntries item (bound + 1) t = .ok ([(.text key, v)], rest) := by
  obtain ⟨c, r, rfl, -, hc⟩ := hopen
  rw [readEntries, hu]
  split
  · rename_i h
    exact absurd (List.cons.inj h).1 hc
  · simp only [hkey, ok_bind, expect_eq_ok_iff.2 hw, hv, expect_eq_ok_iff.2 hrun]
    rw [hrun]
    rfl

theorem readEntries_more {bound : Nat} {x : Text} {es : List (Value × Value)}
    (hu : skipBlanks t = u) (hopen : Opens '\x7d' u) (hkey : readKey u = .ok (key, w))
    (hw : skipBlanks w = ':' :: x) (hv : item x = .ok (v, run))
    (hrun : skipBlanks run = ',' :: next) (hes : readEntries item bound next = .ok (es, rest)) :
    readEntries item (bound + 1) t = .ok ((.text key, v) :: es, rest) := by
  obtain ⟨c, r, rfl, -, hc⟩ := hopen
  rw [readEntries, hu]
  split
  · rename_i h
    exact absurd (List.cons.inj h).1 hc
  · simp only [hkey, ok_bind, expect_eq_ok_iff.2 hw, hv, hrun, hes]

/-- The steps in which an entry is read. -/
theorem Entry.steps {n : Nat}
    (hitem : ∀ {t u v w}, Blanks t u → literal u v w → u.length ≤ n → item t = .ok (v, w))
    {e : Text × Value} (he : Entry literal t e w) (hn : t.length ≤ n) :
    ∃ u x y, skipBlanks t = u ∧ Opens '\x7d' u ∧ readKey u = .ok (e.1, x) ∧
      skipBlanks x = ':' :: y ∧ item y = .ok (e.2, w) := by
  obtain @⟨u, _, key, x, y, z, v, _, hu, hkey, hcolon, hz, hv⟩ := he
  have h1 := hu.length_le
  have h2 := hkey.length_lt
  have h3 := hcolon.length_le
  have h4 := hz.length_le
  rw [List.length_cons] at h3
  have hopen := hkey.opens
  refine ⟨u, x, y, hu.skip_eq hopen.head, hopen, readKey_of_key hkey, ?_, ?_⟩
  · exact hcolon.skip_cons (by decide)
  · exact hitem hz hv (by omega)

/-- Entries are read with any bound greater than the length of their text, if `item` reads the
literals in it. -/
theorem readEntries_of_entries {n : Nat}
    (hitem : ∀ {t u v w}, Blanks t u → literal u v w → u.length ≤ n → item t = .ok (v, w))
    (hlength : ∀ {u v w}, literal u v w → w.length < u.length)
    {entries : List (Text × Value)} (h : Entries literal t entries rest) (hn : t.length ≤ n)
    {bound : Nat} (hbound : t.length < bound) :
    readEntries item bound t = .ok (Value.named entries, rest) := by
  induction h generalizing bound with
  | close h =>
    cases bound with
    | zero => cases hbound
    | succ bound => exact readEntries_close (h.skip_cons (by decide))
  | last he h =>
    cases bound with
    | zero => cases hbound
    | succ bound =>
      obtain ⟨u, x, y, hu, hopen, hkey, hx, hv⟩ := he.steps hitem hn
      exact readEntries_last hu hopen hkey hx hv (h.skip_cons (by decide))
  | more he hcomma _ ih =>
    cases bound with
    | zero => cases hbound
    | succ bound =>
      obtain ⟨u, x, y, hu, hopen, hkey, hx, hv⟩ := he.steps hitem hn
      have h1 := he.length_lt (fun _ => hlength) le_rfl
      have h2 := hcomma.length_le
      rw [List.length_cons] at h2
      refine readEntries_more hu hopen hkey hx hv (hcomma.skip_cons (by decide)) ?_
      exact ih (by omega) (by omega)

/-! ### Literals -/

/-- A number starts with a character that starts nothing else. -/
theorem head_of_startsNumber (h : startsNumber c = true) :
    isQuote c = false ∧ c ≠ '[' ∧ c ≠ '\x7b' := by
  refine ⟨?_, ?_, ?_⟩
  · simp only [startsNumber, Bool.or_eq_true, beq_iff_eq] at h
    rcases h with (rfl | rfl) | hdigit
    · decide
    · decide
    · have halpha := Text.isAlphanumeric_of_isDigit hdigit
      exact not_isQuote_of_isWordChar (isWordChar_of_isAlphanumeric halpha)
  · rintro rfl
    exact absurd h (by decide)
  · rintro rfl
    exact absurd h (by decide)

theorem NumberLiteral.ne_nil (h : NumberLiteral run v) : run ≠ [] := by
  rintro rfl
  cases h with
  | int hn => cases Numeral.whole?_eq_some_iff.2 hn
  | double hn => cases Numeral.whole?_eq_some_iff.2 hn

/-- The words that stand for values start with letters that start nothing else. -/
theorem wordLiteral_head (h : WordLiteral run v) :
    ∃ c r, run = c :: r ∧ isQuote c = false ∧ c ≠ '[' ∧ c ≠ '\x7b' ∧ startsNumber c = false := by
  cases h with
  | null => exact ⟨'n', _, rfl, by decide⟩
  | undefined => exact ⟨'u', _, rfl, by decide⟩
  | true => exact ⟨'t', _, rfl, by decide⟩
  | false => exact ⟨'f', _, rfl, by decide⟩

theorem literal_of_readLiteral {bound : Nat} (h : readLiteral bound t = .ok (v, rest)) :
    Literal (skipBlanks t) v rest := by
  induction bound generalizing t v rest with
  | zero => cases h
  | succ bound ih =>
    rw [readLiteral] at h
    split at h
    · cases h
    · -- the first character decides what is read
      rename_i c u hu
      rw [hu]
      split_ifs at h with hquote hlist hdict hnumber
      · obtain ⟨⟨read, r⟩, hread, h⟩ := bind_eq_ok_iff.1 h
        cases h
        exact .string ((readString_eq_ok_iff hquote).1 hread)
      · obtain ⟨⟨items, r⟩, hitems, h⟩ := bind_eq_ok_iff.1 h
        cases h
        rw [hlist]
        exact .list (items_of_readItems ih hitems)
      · obtain ⟨⟨es, r⟩, hes, h⟩ := bind_eq_ok_iff.1 h
        cases h
        obtain ⟨entries, rfl, hentries⟩ := entries_of_readEntries ih hes
        rw [hdict, Value.dictOf_named]
        exact .dict hentries (Value.gathers_gather entries)
      · obtain ⟨run, hrun, hnum⟩ := numberLiteral_of_readNumber h
        refine .number hrun ⟨c, ?_, hnumber⟩ hnum
        rw [← hrun.head?_eq hnum.ne_nil]
        rfl
      · obtain ⟨run, hrun, hword⟩ := readWord_eq_ok_iff.1 h
        exact .word hrun hword

variable {bound : Nat}

theorem readLiteral_string (ht : skipBlanks t = u) (h : StringLiteral u read rest) :
    readLiteral (bound + 1) t = .ok (.text read, rest) := by
  rw [readLiteral, ht]
  have hread := h
  cases hread with
  | mk hquote _ _ => simp only [hquote, if_true, (readString_eq_ok_iff hquote).2 h, ok_bind]

theorem readLiteral_word (ht : skipBlanks t = u) (hrun : MaximalRun isWordChar u run rest)
    (h : WordLiteral run v) : readLiteral (bound + 1) t = .ok (v, rest) := by
  rw [readLiteral, ht]
  have hread := readWord_eq_ok_iff.2 ⟨_, hrun, h⟩
  obtain ⟨c, r, rfl, hquote, hlist, hdict, hnumber⟩ := wordLiteral_head h
  rw [hrun.split, List.cons_append] at hread ⊢
  simp only [hquote, if_neg hlist, if_neg hdict, hnumber, hread]
  rfl

theorem readLiteral_number (ht : skipBlanks t = u) (hrun : MaximalRun isNumberChar u run rest)
    (hhead : ∃ c ∈ run.head?, startsNumber c = true) (h : NumberLiteral run v) :
    readLiteral (bound + 1) t = .ok (v, rest) := by
  rw [readLiteral, ht]
  have hread := readNumber_of_numberLiteral hrun h
  obtain ⟨c, hc, hnumber⟩ := hhead
  obtain ⟨r, rfl⟩ := List.head?_eq_some_iff.1 hc
  obtain ⟨hquote, hlist, hdict⟩ := head_of_startsNumber hnumber
  rw [hrun.split, List.cons_append] at hread ⊢
  simp only [hquote, if_neg hlist, if_neg hdict, hnumber, hread]
  rfl

/-- Literals are read with any bound greater than the length of their text. -/
theorem readLiteral_of_literal (h : Literal u v rest) (ht : Blanks t u)
    (hbound : u.length < bound) : readLiteral bound t = .ok (v, rest) := by
  induction bound generalizing t u v rest with
  | zero => cases hbound
  | succ bound ih =>
    have hskip := ht.skip_eq (h.opens (.inl rfl)).head
    cases h with
    | string h => exact readLiteral_string hskip h
    | word hrun h => exact readLiteral_word hskip hrun h
    | number hrun hhead h => exact readLiteral_number hskip hrun hhead h
    | @list t' items _ h =>
      -- a literal in the list is shorter than the list, as the bound below is smaller
      have hitem : ∀ {t u v w}, Blanks t u → Literal u v w → u.length ≤ t'.length →
          readLiteral bound t = .ok (v, w) := fun hu hv hn =>
        ih hv hu (hn.trans_lt (Nat.lt_of_succ_lt_succ hbound))
      have hitems := readItems_of_items hitem (fun hv => hv.opens (.inl rfl)) Literal.length_lt h
        le_rfl (Nat.lt_succ_self _)
      rw [readLiteral, hskip]
      simp only [hitems]
      rfl
    | @dict t' entries d _ h hd =>
      have hitem : ∀ {t u v w}, Blanks t u → Literal u v w → u.length ≤ t'.length →
          readLiteral bound t = .ok (v, w) := fun hu hv hn =>
        ih hv hu (hn.trans_lt (Nat.lt_of_succ_lt_succ hbound))
      have hentries := readEntries_of_entries hitem Literal.length_lt h le_rfl (Nat.lt_succ_self _)
      rw [readLiteral, hskip]
      simp only [hentries, ok_bind, Value.dictOf_named_eq_iff.2 hd]
      rfl

/-! ### Attribute values -/

theorem derives_of_readWhole (h : readWhole t = .ok v) : Derives t v := by
  obtain ⟨⟨v', rest⟩, hvalue, h⟩ := bind_eq_ok_iff.1 h
  dsimp only at h
  split at h
  · rename_i hrest
    cases h
    have hend : Blanks rest [] := hrest ▸ blanks_skipBlanks rest
    have ht := blanks_skipBlanks t
    rw [readValueBy] at hvalue
    split at hvalue
    · cases hvalue
    · rename_i c u hu
      rw [hu] at ht
      split_ifs at hvalue with hquote hbrace
      · obtain ⟨⟨read, r⟩, hread, h⟩ := bind_eq_ok_iff.1 hvalue
        cases h
        exact .string ht ((readString_eq_ok_iff hquote).1 hread) hend
      · obtain ⟨⟨v, r⟩, hread, h⟩ := bind_eq_ok_iff.1 hvalue
        obtain ⟨x, hclose, h⟩ := bind_eq_ok_iff.1 h
        cases h
        rw [hbrace] at ht
        have hx : Blanks r ('\x7d' :: rest) := expect_eq_ok_iff.1 hclose ▸ blanks_skipBlanks r
        exact .braced ht (blanks_skipBlanks u) (literal_of_readLiteral hread) hx hend
      · cases hvalue
  · cases h

theorem readWhole_of_derives (h : Derives t v) : readWhole t = .ok v := by
  rw [readWhole, readWholeBy, bind_eq_ok_iff]
  cases h with
  | @string u part rest hu h hend =>
    refine ⟨(.text part, rest), ?_, by simp only [hend.skip_nil]⟩
    have hopen := h.opens (by decide : isQuote ']' = false)
    rw [readValueBy, hu.skip_eq hopen.head]
    have hread := h
    cases hread with
    | mk hquote _ _ =>
      simp only [hquote, if_true, (readString_eq_ok_iff hquote).2 h, ok_bind]
  | @braced u w _ x rest hopen hw h hclose hend =>
    refine ⟨(v, rest), ?_, by simp only [hend.skip_nil]⟩
    -- the bound on the depth is the length of what follows the brace
    have hread : readAnyLiteral u = .ok (v, x) :=
      readLiteral_of_literal h hw (Nat.lt_succ_of_le hw.length_le)
    have hx := expect_eq_ok_iff.2 (hclose.skip_cons (by decide))
    rw [readValueBy, hopen.skip_cons (by decide)]
    simp only [hread, ok_bind, hx]
    rfl

/-- What keeps a literal in braces from being read keeps the attribute value from it. -/
theorem readWholeBy_braced {literal : Reader Reason Value} {stop : Stop Reason}
    (h : literal t = .error stop) : readWholeBy literal ('\x7b' :: t) = .error stop := by
  have hvalue : readValueBy literal ('\x7b' :: t) = literal t >>= fun part =>
      expect '\x7d' part.2 >>= fun rest => .ok (part.1, rest) := rfl
  rw [readWholeBy, hvalue, h]
  rfl

/-- **An attribute value is read exactly if the grammar derives it**, and as what it derives. -/
theorem read_eq_ok_iff (t : Text) (v : Value) : Attribute.read t = .ok v ↔ Derives t v := by
  rw [Attribute.read, mapError_eq_ok_iff]
  constructor
  · intro h
    exact derives_of_readWhole h
  · intro h
    exact readWhole_of_derives h

end Attribute

end SpacingClasses
