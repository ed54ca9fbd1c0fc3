import SpacingClasses.Proofs.Attribute.Reading
import SpacingClasses.Proofs.Reader
import SpacingClasses.Proofs.Text.Row
import SpacingClasses.Proofs.Value.Readable

/-!
# The values of attributes

What the readers of attribute values give, and when a row of digits is too long for them.

* `Attribute.exists_row` : an integer is written with a row of its digits;
* `Attribute.gives_readLiteral` : a literal is a readable value with an ending of its text;
* `Attribute.yields_readWhole` : so is an attribute value, and an integer in one is too long only if the
  text has a row of as many digits as can be written.
-/

namespace SpacingClasses

namespace Attribute

open Reader (Gives Yields gives_stopAt gives_cons)
open Text (HasRow skipBlanks)
open Value (Readable)

variable {long : Prop} {source t u run : Text} {v : Value} {c quote : Char} {n : Numeral}

/-- The texts in attribute values may be any. -/
abbrev Any : Text → Prop := fun _ => True

/-! ### Strings and words -/

theorem gives_readChars (long : Prop) (quote : Char) (t : Text) :
    Gives Any long t (readChars quote t) := by
  fun_induction readChars quote t with
  | case1 => exact gives_stopAt ..
  | case2 c t ih => exact gives_cons (ih.of_suffix ((List.suffix_cons c t).trans (List.suffix_cons _ _)))
  | case3 t => exact ⟨trivial, List.suffix_cons _ _⟩
  | case4 c t _ _ ih => exact gives_cons (ih.of_suffix (List.suffix_cons c t))

theorem gives_readString (long : Prop) (quote : Char) (t : Text) :
    Gives Any long t (readString quote t) := by
  rw [readString]
  refine (gives_readChars long quote t).bind fun read rest _ _ => ?_
  dsimp only
  split
  · exact gives_stopAt ..
  · exact ⟨trivial, List.suffix_rfl⟩

theorem gives_readWord (t : Text) : Gives (Readable long Any) long t (readWord t) := by
  have hvalue : ∀ word v, wordValue? word = some v → Readable long Any v := by
    intro word v h
    cases wordValue?_eq_some_iff.1 h with
    | null => exact .null
    | undefined => exact .null
    | true => exact .bool _
    | false => exact .bool _
  rw [readWord]
  split
  · rename_i v hv
    exact ⟨hvalue _ v hv, List.dropWhile_suffix _⟩
  · exact gives_stopAt ..

/-! ### Numbers -/

theorem isDigit_of_isNumberChar (hc : isNumberChar c = true) (hdigit : (Text.digitValue? c).isSome) :
    c.isDigit = true := by
  simp only [isNumberChar, Bool.or_eq_true, beq_iff_eq] at hc
  rcases hc with ((((h | rfl) | rfl) | rfl) | rfl) | rfl
  · exact h
  all_goals exact absurd hdigit (by decide)

/-- **An integer is written with a row of its digits.** -/
theorem exists_row (hrun : ∀ c ∈ run, isNumberChar c = true)
    (hplain : ∀ c ∈ run, isFractionMark c = false) (hn : Numeral.Writes run n) :
    n.digits ≠ [] ∧ (∀ d ∈ n.digits, d < 10) ∧ HasRow Char.isDigit n.digits.length run := by
  obtain @⟨s, negative, m, ds, places, x, exponent, hs, hm, hx⟩ := hn
  simp only [List.forall_mem_append] at hrun hplain
  cases hm with
  | point _ _ _ =>
    have := hplain.2.1 '.' (List.mem_append_right _ List.mem_cons_self)
    cases this
  | whole hw hne =>
    refine ⟨hne, hw.lt_ten, m, ⟨s, x, List.append_assoc ..⟩, hw.length_eq.ge, fun c hc => ?_⟩
    exact isDigit_of_isNumberChar (hrun.2.1 c hc) (hw.isSome c hc)

/-- A number is a readable value; it stops the reader for its length only if it is long. -/
theorem gives_readNumber (hlong : source.HasRow Char.isDigit Integer.maxDigits → long)
    (ht : t <:+ source) : Gives (Readable long Any) long t (readNumber t) := by
  rw [readNumber]
  dsimp only
  split
  · exact gives_stopAt ..
  · rename_i n hn
    have hrest : t.dropWhile isNumberChar <:+ t := List.dropWhile_suffix _
    split
    · rename_i hint
      rw [Bool.and_eq_true, Bool.not_eq_true', List.any_eq_false] at hint
      have hplain : ∀ c ∈ t.takeWhile isNumberChar, isFractionMark c = false :=
        fun c hc => Bool.eq_false_iff.2 (hint.1 c hc)
      obtain ⟨hne, hds, hrow⟩ := exists_row (fun c hc => List.mem_takeWhile_imp hc) hplain
        (Numeral.whole?_eq_some_iff.1 hn)
      -- without a point the digits follow one another
      have hdigits : Integer.maxDigits ≤ n.digits.length → long := by
        intro hlength
        obtain ⟨row, hpart, hrow, hp⟩ := hrow
        refine hlong ⟨row, ?_, hlength.trans hrow, hp⟩
        exact (hpart.trans (List.takeWhile_prefix _).isInfix).trans ht.isInfix
      rcases Integer.read_of_digits n.negative hds hne hdigits with
        ⟨i, hi, hread⟩ | ⟨⟨f, hf⟩, h⟩
      · rw [hi]
        exact ⟨.int hread, hrest⟩
      · rw [hf]
        exact h
    · exact ⟨.float _, hrest⟩

/-! ### Lists and dictionaries -/

theorem skipBlanks_suffix (t : Text) : skipBlanks t <:+ t := List.dropWhile_suffix _

theorem yields_expect (long : Prop) (c : Char) (t : Text) : Yields (· <:+ t) long (expect c t) := by
  rw [expect]
  split
  · exact trivial
  · rename_i d rest hrest
    split
    · exact Text.suffix_of_dropWhile hrest
    · exact trivial

theorem gives_readKey (long : Prop) (t : Text) : Gives Any long t (readKey t) := by
  cases t with
  | nil => exact gives_stopAt ..
  | cons c t =>
    rw [readKey]
    split
    · exact (gives_readString long c t).of_suffix (List.suffix_cons c t)
    · split
      · exact ⟨trivial, List.dropWhile_suffix _⟩
      · split
        · exact ⟨trivial, List.dropWhile_suffix _⟩
        · exact gives_stopAt ..

section

variable {good : Value → Prop} {item : Reader Reason Value}

theorem gives_readItems (hitem : ∀ u, u <:+ t → Gives good long u (item u)) (bound : Nat) :
    Gives (fun vs => ∀ v ∈ vs, good v) long t (readItems item bound t) := by
  induction bound generalizing t with
  | zero => exact trivial
  | succ bound ih =>
    have hskip := skipBlanks_suffix t
    rw [readItems]
    split
    · rename_i rest h
      exact ⟨by simp, Text.suffix_of_dropWhile h⟩
    · refine ((hitem _ hskip).bind fun v w hv hw => ?_).of_suffix hskip
      dsimp only
      split
      · rename_i next hnext
        have hsuffix := Text.suffix_of_dropWhile hnext
        have hmore := ih fun u hu => hitem u ((hu.trans hsuffix).trans (hw.trans hskip))
        refine (hmore.bind fun vs rest hvs _ => ?_).of_suffix hsuffix
        exact ⟨List.forall_mem_cons.2 ⟨hv, hvs⟩, List.suffix_rfl⟩
      · exact (yields_expect ..).gives fun rest _ => ⟨List.forall_mem_singleton.2 hv, List.suffix_rfl⟩

theorem gives_readEntries (hitem : ∀ u, u <:+ t → Gives good long u (item u)) (bound : Nat) :
    Gives (fun es => ∃ rows, es = Value.named rows ∧ ∀ e ∈ rows, good e.2) long t
      (readEntries item bound t) := by
  induction bound generalizing t with
  | zero => exact trivial
  | succ bound ih =>
    have hskip := skipBlanks_suffix t
    rw [readEntries]
    split
    · rename_i rest h
      exact ⟨⟨[], rfl, by simp⟩, Text.suffix_of_dropWhile h⟩
    · refine ((gives_readKey long _).bind fun key w _ hw => ?_).of_suffix hskip
      refine (yields_expect ..).gives fun x hx => ?_
      have ht := (hx.trans hw).trans hskip
      refine (hitem x ht).bind fun v y hv hy => ?_
      dsimp only
      split
      · rename_i next hnext
        have hsuffix := Text.suffix_of_dropWhile hnext
        have hmore := ih fun u hu => hitem u ((hu.trans hsuffix).trans (hy.trans ht))
        refine (hmore.bind fun es rest hes _ => ?_).of_suffix hsuffix
        obtain ⟨rows, rfl, hrows⟩ := hes
        exact ⟨⟨(key, v) :: rows, rfl, List.forall_mem_cons.2 ⟨hv, hrows⟩⟩, List.suffix_rfl⟩
      · refine (yields_expect ..).gives fun rest _ => ⟨⟨[(key, v)], rfl, ?_⟩, List.suffix_rfl⟩
        exact List.forall_mem_singleton.2 hv

end

/-! ### Literals and attribute values -/

/-- **A literal is a readable value.** -/
theorem gives_readLiteral (hlong : source.HasRow Char.isDigit Integer.maxDigits → long)
    (ht : t <:+ source) (bound : Nat) :
    Gives (Readable long Any) long t (readLiteral bound t) := by
  induction bound generalizing t with
  | zero => exact trivial
  | succ bound ih =>
    have hskip := skipBlanks_suffix t
    rw [readLiteral]
    split
    · exact gives_stopAt ..
    · rename_i c u hu
      rw [hu] at hskip
      have hu : u <:+ t := (List.suffix_cons c u).trans hskip
      have hitem : ∀ w, w <:+ u → Gives (Readable long Any) long w (readLiteral bound w) :=
        fun w hw => ih ((hw.trans hu).trans ht)
      refine Gives.of_suffix ?_ hskip
      split
      · refine ((gives_readString long c u).bind fun read rest _ _ => ?_).of_suffix
          (List.suffix_cons c u)
        exact ⟨.text trivial, List.suffix_rfl⟩
      · split
        · refine ((gives_readItems hitem _).bind fun items rest hitems _ => ?_).of_suffix
            (List.suffix_cons c u)
          exact ⟨.list hitems, List.suffix_rfl⟩
        · split
          · refine ((gives_readEntries hitem _).bind fun es rest hes _ => ?_).of_suffix
              (List.suffix_cons c u)
            obtain ⟨rows, rfl, hrows⟩ := hes
            exact ⟨.dictOf hrows, List.suffix_rfl⟩
          · split
            · exact gives_readNumber hlong (hskip.trans ht)
            · exact gives_readWord _

theorem gives_readValue (hlong : t.HasRow Char.isDigit Integer.maxDigits → long) :
    Gives (Readable long Any) long t (readValue t) := by
  have hskip := skipBlanks_suffix t
  rw [readValue, readValueBy]
  split
  · exact gives_stopAt ..
  · rename_i c u hu
    rw [hu] at hskip
    refine Gives.of_suffix ?_ hskip
    split
    · refine ((gives_readString long c u).bind fun read rest _ _ => ?_).of_suffix
        (List.suffix_cons c u)
      exact ⟨.text trivial, List.suffix_rfl⟩
    · split
      · have hread := gives_readLiteral hlong ((List.suffix_cons c u).trans hskip) (u.length + 1)
        refine (hread.bind fun v rest hv _ => ?_).of_suffix (List.suffix_cons c u)
        exact (yields_expect ..).gives fun rest _ => ⟨hv, List.suffix_rfl⟩
      · exact gives_stopAt ..

/-- **An attribute value is readable**, or one of its integers is too long. -/
theorem yields_readWhole (hlong : t.HasRow Char.isDigit Integer.maxDigits → long) :
    Yields (Readable long Any) long (readWhole t) := by
  refine Yields.bind (gives_readValue hlong) fun part hpart => ?_
  obtain ⟨v, rest⟩ := part
  dsimp only
  split
  · exact hpart.1
  · exact trivial

end Attribute

end SpacingClasses
