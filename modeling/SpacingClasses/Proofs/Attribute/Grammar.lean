import SpacingClasses.Attribute.Reader
import SpacingClasses.Proofs.Number.Numeral
import SpacingClasses.Proofs.Text.Classes
import SpacingClasses.Proofs.Text.Run
import SpacingClasses.Proofs.Value.Dictionary

/-!
# The grammar of attribute values

Which texts are attribute values, and of which values, without a reader.

* `Literal t v rest` : a literal of the value `v` stands at the front of `t`, and `rest` follows it;
* `Derives t v` : the whole text `t` is an attribute value, and its value is `v`.

Lists and dictionaries hold literals of any depth, so `Items` and `Entries` are relations over a
relation for what they hold, and `Literal` is built from them over itself.  Blanks may stand before
and after every token; a run of word or number characters always goes as far as it can.

* `Literal.length_lt` : a literal takes up at least one character;
* `Literal.opens` : it starts neither with a blank nor with a closing bracket.
-/

namespace SpacingClasses

namespace Attribute

open Text (Blanks MaximalRun isBlank isAlphanumeric)

/-! ### Strings -/

/-- The characters of a string up to its closing quote: each stands for itself, or it follows a
backslash and stands for what is escaped by it. -/
inductive StringChars (quote : Char) : Text → Text → Text → Prop where
  | close {rest} : StringChars quote (quote :: rest) [] rest
  | plain {c t read rest} (hquote : c ≠ quote) (hslash : c ≠ '\\')
      (h : StringChars quote t read rest) : StringChars quote (c :: t) (c :: read) rest
  | escape {c t read rest} (h : StringChars quote t read rest) :
      StringChars quote ('\\' :: c :: t) (escaped c :: read) rest

/-- A string in one of the three quotes.  A template literal with the start of an expression in it
is none. -/
inductive StringLiteral : Text → Text → Text → Prop where
  | mk {quote t read rest} (hquote : isQuote quote = true) (h : StringChars quote t read rest)
      (hstatic : quote = templateMark → ¬ ("$\x7b" : Text) <:+: read) :
      StringLiteral (quote :: t) read rest

/-! ### Words and numbers -/

/-- The words that stand for values. -/
inductive WordLiteral : Text → Value → Prop where
  | null : WordLiteral "null" .null
  | undefined : WordLiteral "undefined" .null
  | true : WordLiteral "true" (.bool true)
  | false : WordLiteral "false" (.bool false)

/-- Whether a character makes a number a fraction: the point and the marks of an exponent. -/
def isFractionMark (c : Char) : Bool := c == '.' || c == 'e' || c == 'E'

/-- The value of a row of number characters: an exact integer when it has no fraction mark and does
not go beyond the doubles, and else the nearest double. -/
inductive NumberLiteral : Text → Value → Prop where
  | int {run n} (hn : Numeral.Writes run n) (hplain : ∀ c ∈ run, isFractionMark c = false)
      (hfinite : n.toDouble.isFinite = true) (hlimit : n.digits.length ≤ Integer.maxDigits) :
      NumberLiteral run (.int (Numeral.signedDigits n.negative n.digits))
  | double {run n} (hn : Numeral.Writes run n)
      (h : (∃ c ∈ run, isFractionMark c = true) ∨ n.toDouble.isFinite = false) :
      NumberLiteral run (.float n.toDouble)

/-! ### Lists and dictionaries -/

/-- The key of an entry: a string, a word that starts with no digit, or a row of alphanumeric
characters that starts with one. -/
inductive Key : Text → Text → Text → Prop where
  | string {t key rest} (h : StringLiteral t key rest) : Key t key rest
  | word {t key rest} (h : MaximalRun isWordChar t key rest) (hne : key ≠ [])
      (hhead : ∀ c ∈ key.head?, Text.isDigit c = false) : Key t key rest
  | digits {t key rest} (h : MaximalRun isAlphanumeric t key rest)
      (hhead : ∃ c ∈ key.head?, Text.isDigit c = true) : Key t key rest

/-- The items of a list after its bracket or after a comma, each of them a `literal`. -/
inductive Items (literal : Text → Value → Text → Prop) : Text → List Value → Text → Prop where
  | close {t rest} (h : Blanks t (']' :: rest)) : Items literal t [] rest
  | last {t u v w rest} (hu : Blanks t u) (hv : literal u v w) (h : Blanks w (']' :: rest)) :
      Items literal t [v] rest
  | more {t u v w next vs rest} (hu : Blanks t u) (hv : literal u v w)
      (hcomma : Blanks w (',' :: next)) (h : Items literal next vs rest) :
      Items literal t (v :: vs) rest

/-- An entry of a dictionary: a key, a colon and a `literal`. -/
inductive Entry (literal : Text → Value → Text → Prop) : Text → Text × Value → Text → Prop where
  | mk {u t key w x y v rest} (hu : Blanks t u) (hkey : Key u key w) (hcolon : Blanks w (':' :: x))
      (hy : Blanks x y) (hv : literal y v rest) : Entry literal t (key, v) rest

/-- The entries of a dictionary after its brace or after a comma. -/
inductive Entries (literal : Text → Value → Text → Prop) :
    Text → List (Text × Value) → Text → Prop where
  | close {t rest} (h : Blanks t ('\x7d' :: rest)) : Entries literal t [] rest
  | last {t e w rest} (he : Entry literal t e w) (h : Blanks w ('\x7d' :: rest)) :
      Entries literal t [e] rest
  | more {t e w next es rest} (he : Entry literal t e w) (hcomma : Blanks w (',' :: next))
      (h : Entries literal next es rest) : Entries literal t (e :: es) rest

/-! ### Literals and attribute values -/

/-- A literal at the front of a text, with its value and what follows it. -/
inductive Literal : Text → Value → Text → Prop where
  | string {t read rest} (h : StringLiteral t read rest) : Literal t (.text read) rest
  | word {t run v rest} (hrun : MaximalRun isWordChar t run rest) (h : WordLiteral run v) :
      Literal t v rest
  | number {t run v rest} (hrun : MaximalRun isNumberChar t run rest)
      (hhead : ∃ c ∈ run.head?, startsNumber c = true) (h : NumberLiteral run v) : Literal t v rest
  | list {t items rest} (h : Items Literal t items rest) : Literal ('[' :: t) (.list items) rest
  | dict {t entries d rest} (h : Entries Literal t entries rest) (hd : Value.Gathers entries d) :
      Literal ('\x7b' :: t) (Value.record d) rest

/-- A text that is an attribute value in full: a string, or a literal in braces. -/
inductive Derives : Text → Value → Prop where
  | string {t u read rest} (hu : Blanks t u) (h : StringLiteral u read rest)
      (hend : Blanks rest []) : Derives t (.text read)
  | braced {t u w v x rest} (hopen : Blanks t ('\x7b' :: u)) (hw : Blanks u w)
      (h : Literal w v x) (hclose : Blanks x ('\x7d' :: rest)) (hend : Blanks rest []) :
      Derives t v

/-! ### What a literal starts with -/

/-- The text starts with a character that is no blank and not the given closing bracket. -/
def Opens (closing : Char) (u : Text) : Prop :=
  ∃ c r, u = c :: r ∧ isBlank c = false ∧ c ≠ closing

variable {t u w run read key rest : Text} {v : Value} {c closing : Char}

theorem Opens.head (h : Opens closing u) : ∀ c ∈ u.head?, isBlank c = false := by
  obtain ⟨c, r, rfl, hc, -⟩ := h
  simpa using hc

theorem MaximalRun.opens {p : Char → Bool} (h : MaximalRun p t run rest) (hne : run ≠ [])
    (hp : ∀ c, p c = true → isBlank c = false ∧ c ≠ closing) : Opens closing t := by
  obtain ⟨c, r, rfl⟩ := List.exists_cons_of_ne_nil hne
  exact ⟨c, r ++ rest, h.split, hp c (h.all c List.mem_cons_self)⟩

theorem isQuote_iff : isQuote c = true ↔ c = '"' ∨ c = '\'' ∨ c = templateMark := by
  simp [isQuote, or_assoc]

theorem isWordChar_of_isAlphanumeric (h : isAlphanumeric c = true) : isWordChar c = true := by
  simp [isWordChar, h]

theorem not_isBlank_of_isWordChar (h : isWordChar c = true) : isBlank c = false := by
  refine Bool.eq_false_iff.2 fun hblank => ?_
  simp only [isWordChar, Text.not_isAlphanumeric_of_isBlank hblank, Bool.false_or,
    Bool.or_eq_true, beq_iff_eq] at h
  rcases h with rfl | rfl
  all_goals exact absurd hblank (by decide)

theorem not_isBlank_of_isNumberChar (h : isNumberChar c = true) : isBlank c = false := by
  simp only [isNumberChar, Bool.or_eq_true, beq_iff_eq] at h
  rcases h with ((((h | rfl) | rfl) | rfl) | rfl) | rfl
  · refine not_isBlank_of_isWordChar (isWordChar_of_isAlphanumeric ?_)
    simp [isAlphanumeric, Char.isAlphanum, h]
  all_goals decide

theorem StringLiteral.opens (h : StringLiteral t read rest)
    (hclosing : isQuote closing = false) : Opens closing t := by
  obtain ⟨hquote, -, -⟩ := h
  refine ⟨_, _, rfl, ?_, ?_⟩
  · rcases isQuote_iff.1 hquote with rfl | rfl | rfl <;> decide
  · rintro rfl
    rw [hquote] at hclosing
    cases hclosing

theorem WordLiteral.ne_nil (h : WordLiteral run v) : run ≠ [] := by
  cases h <;> simp

theorem Key.opens (h : Key t key rest) : Opens '\x7d' t := by
  have hword : ∀ c, isWordChar c = true → isBlank c = false ∧ c ≠ '\x7d' := by
    intro c hc
    refine ⟨not_isBlank_of_isWordChar hc, ?_⟩
    rintro rfl
    exact absurd hc (by decide)
  cases h with
  | string h => exact h.opens (by decide)
  | word h hne _ => exact MaximalRun.opens h hne hword
  | digits h hhead =>
    refine MaximalRun.opens h (Text.ne_nil_of_head? hhead) fun c hc => ?_
    exact hword c (isWordChar_of_isAlphanumeric hc)

/-- A literal starts neither with a blank nor with a bracket that closes a list or a dictionary. -/
theorem Literal.opens (h : Literal t v rest) (hclosing : closing = ']' ∨ closing = '\x7d') :
    Opens closing t := by
  -- a run is not empty, and neither its class nor a quote takes in blanks or brackets
  cases h with
  | string h =>
    refine h.opens ?_
    rcases hclosing with rfl | rfl <;> decide
  | word hrun h =>
    refine MaximalRun.opens hrun h.ne_nil fun c hc => ⟨not_isBlank_of_isWordChar hc, ?_⟩
    rintro rfl
    rcases hclosing with rfl | rfl <;> exact absurd hc (by decide)
  | number hrun hhead h =>
    refine MaximalRun.opens hrun (Text.ne_nil_of_head? hhead) fun c hc => ?_
    refine ⟨not_isBlank_of_isNumberChar hc, ?_⟩
    rintro rfl
    rcases hclosing with rfl | rfl <;> exact absurd hc (by decide)
  | list h =>
    refine ⟨_, _, rfl, by decide, ?_⟩
    rcases hclosing with rfl | rfl <;> decide
  | dict h hd =>
    refine ⟨_, _, rfl, by decide, ?_⟩
    rcases hclosing with rfl | rfl <;> decide

/-! ### How much a literal takes up -/

theorem StringChars.length_lt {quote : Char} (h : StringChars quote t read rest) :
    rest.length < t.length := by
  induction h with
  | close => simp
  | plain _ _ _ ih => exact ih.trans (Nat.lt_succ_self _)
  | escape _ ih =>
    simp only [List.length_cons]
    omega

theorem StringLiteral.length_lt (h : StringLiteral t read rest) : rest.length < t.length := by
  obtain ⟨-, h, -⟩ := h
  exact h.length_lt.trans (Nat.lt_succ_self _)

theorem Key.length_lt (h : Key t key rest) : rest.length < t.length := by
  cases h with
  | string h => exact h.length_lt
  | word h hne _ => exact h.length_lt hne
  | digits h hhead => exact h.length_lt (Text.ne_nil_of_head? hhead)

variable {literal : Text → Value → Text → Prop} {n : Nat}

theorem Items.length_lt (hliteral : ∀ {u v w}, u.length ≤ n → literal u v w → w.length < u.length)
    {vs : List Value} (h : Items literal t vs rest) (hn : t.length ≤ n) :
    rest.length < t.length := by
  induction h with
  | close h => exact h.length_le
  | last hu hv h =>
    have h1 := hu.length_le
    have h2 := hliteral (h1.trans hn) hv
    have h3 := h.length_le
    rw [List.length_cons] at h3
    omega
  | more hu hv hcomma _ ih =>
    have h1 := hu.length_le
    have h2 := hliteral (h1.trans hn) hv
    have h3 := hcomma.length_le
    rw [List.length_cons] at h3
    have h4 := ih (by omega)
    omega

theorem Entry.length_lt
    (hliteral : ∀ {u v w}, u.length ≤ n → literal u v w → w.length < u.length)
    {e : Text × Value} (h : Entry literal t e rest) (hn : t.length ≤ n) :
    rest.length < t.length := by
  obtain ⟨hu, hkey, hcolon, hy, hv⟩ := h
  have h1 := hu.length_le
  have h2 := hkey.length_lt
  have h3 := hcolon.length_le
  have h4 := hy.length_le
  rw [List.length_cons] at h3
  have h5 := hliteral (by omega) hv
  omega

theorem Entries.length_lt
    (hliteral : ∀ {u v w}, u.length ≤ n → literal u v w → w.length < u.length)
    {es : List (Text × Value)} (h : Entries literal t es rest) (hn : t.length ≤ n) :
    rest.length < t.length := by
  induction h with
  | close h => exact h.length_le
  | last he h =>
    have h1 := he.length_lt hliteral hn
    have h2 := h.length_le
    rw [List.length_cons] at h2
    omega
  | more he hcomma _ ih =>
    have h1 := he.length_lt hliteral hn
    have h2 := hcomma.length_le
    rw [List.length_cons] at h2
    have h3 := ih (by omega)
    omega

/-- **A literal takes up at least one character.** -/
theorem Literal.length_lt (h : Literal t v rest) : rest.length < t.length := by
  -- lists and dictionaries hold literals in other relations, so the induction is on the length
  induction hn : t.length using Nat.strong_induction_on generalizing t v rest with
  | _ n ih =>
    subst hn
    cases h with
    | string h => exact h.length_lt
    | word hrun h => exact hrun.length_lt h.ne_nil
    | number hrun hhead h => exact hrun.length_lt (Text.ne_nil_of_head? hhead)
    | list h =>
      have := h.length_lt (fun hu hv => ih _ (Nat.lt_succ_of_le hu) hv rfl) le_rfl
      exact this.trans (Nat.lt_succ_self _)
    | dict h hd =>
      have := h.length_lt (fun hu hv => ih _ (Nat.lt_succ_of_le hu) hv rfl) le_rfl
      exact this.trans (Nat.lt_succ_self _)

end Attribute

end SpacingClasses
