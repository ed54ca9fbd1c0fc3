import SpacingClasses.Proofs.Json.Writing
import SpacingClasses.Proofs.Number.Denotation
import SpacingClasses.Proofs.Suffix.Size
import SpacingClasses.Proofs.Text.Quoted
import SpacingClasses.Proofs.Value.Dictionary

/-!
# Suffixes without blanks

A suffix has no blank in it, unless the value has a text with blanks that names no compact function.

* `Suffix.tidy_tidy`, `tidy_bracketed` : what is tidied stays so, also in brackets;
* `Suffix.Compactable t` : the text `t` is solid, or holds the name of a compact function;
* `Value.Compactable v` : so is every text in the value `v`, and all its keys are solid;
* `Json.compactable_of_write` : such a value is written in JSON as such a text;
* `Suffix.ofText_literal_or_solid` : the suffix of a text is the tidied text as a literal, or solid;
* `Suffix.solid_ofValue` : **the suffix of a compactable value is solid**;
* `Suffix.ofValue_usesFunction` : **around a compact function blanks make no difference.**
-/

namespace SpacingClasses

open Text (isBlank Solid)

variable {s t : Text}

/-! ### Tidied texts -/

namespace Suffix

/-- The text holds the name of a compact function. -/
def UsesFunction (t : Text) : Prop := ∃ name ∈ compactFunctions, name <:+: t

theorem usesFunction_iff :
    UsesFunction t ↔ (compactFunctions.any fun name => Text.has name t) = true := by
  simp only [UsesFunction, List.any_eq_true, Text.has_eq_true_iff]

theorem tidy_of_usesFunction (h : UsesFunction t) : tidy t = Text.compact t := by
  rw [tidy, if_pos (usesFunction_iff.1 h)]

theorem tidy_of_not_usesFunction (h : ¬ UsesFunction t) : tidy t = t := by
  rw [tidy, if_neg (mt usesFunction_iff.2 h)]

theorem tidy_of_solid (h : Solid t) : tidy t = t := by
  by_cases hfunction : UsesFunction t
  · rw [tidy_of_usesFunction hfunction, Text.compact_of_solid h]
  · exact tidy_of_not_usesFunction hfunction

/-- What is tidied stays as it is. -/
theorem tidy_tidy (t : Text) : tidy (tidy t) = tidy t := by
  by_cases hfunction : UsesFunction t
  · rw [tidy_of_usesFunction hfunction, tidy_of_solid (Text.solid_compact t)]
  · rw [tidy_of_not_usesFunction hfunction, tidy_of_not_usesFunction hfunction]

/-- No bracket belongs to the name of a function. -/
theorem usesFunction_bracketed_iff : UsesFunction (bracketed t) ↔ UsesFunction t := by
  have hnames : ∀ name ∈ compactFunctions, name ≠ [] ∧ '[' ∉ name ∧ ']' ∉ name := by decide
  constructor
  · rintro ⟨name, hname, hinfix⟩
    obtain ⟨hne, hopen, hclose⟩ := hnames name hname
    refine ⟨name, hname, ?_⟩
    rcases List.infix_cons_iff.1 hinfix with hfront | hinfix
    · obtain ⟨c, rest, rfl⟩ := List.exists_cons_of_ne_nil hne
      obtain ⟨rfl, -⟩ := List.cons_prefix_cons.1 hfront
      exact absurd List.mem_cons_self hopen
    · rcases List.infix_concat_iff.1 hinfix with hback | hinfix
      · rcases List.suffix_concat_iff.1 hback with rfl | ⟨front, rfl, -⟩
        · exact absurd rfl hne
        · exact absurd (List.mem_append_right front List.mem_cons_self) hclose
      · exact hinfix
  · rintro ⟨name, hname, hinfix⟩
    exact ⟨name, hname, List.infix_cons (List.infix_append_of_infix_left hinfix)⟩

/-- Brackets are no blanks, so that a literal is tidied inside of them. -/
theorem tidy_bracketed (t : Text) : tidy (bracketed t) = bracketed (tidy t) := by
  by_cases hfunction : UsesFunction t
  · rw [tidy_of_usesFunction hfunction, tidy_of_usesFunction (usesFunction_bracketed_iff.2 hfunction),
      bracketed, Text.compact_cons (by decide), Text.compact_concat (by decide)]
    rfl
  · rw [tidy_of_not_usesFunction hfunction,
      tidy_of_not_usesFunction (mt usesFunction_bracketed_iff.1 hfunction)]

/-! ### Compactable texts -/

/-- The text is solid, or holds the name of a compact function, so that it loses its blanks. -/
def Compactable (t : Text) : Prop := Solid t ∨ ∃ name ∈ compactFunctions, name <:+: t

theorem Compactable.append (hs : Compactable s) (ht : Compactable t) : Compactable (s ++ t) := by
  rcases hs with hs | ⟨name, hname, hs⟩
  · rcases ht with ht | ⟨name, hname, ht⟩
    · exact .inl (Text.solid_append.2 ⟨hs, ht⟩)
    · exact .inr ⟨name, hname, List.infix_append_of_infix_right ht⟩
  · exact .inr ⟨name, hname, List.infix_append_of_infix_left hs⟩

theorem Compactable.joined {separator : Text} {ts : List Text} (hseparator : Solid separator)
    (h : ∀ t ∈ ts, Compactable t) : Compactable (Text.joined separator ts) := by
  induction ts with
  | nil => exact .inl (by simp)
  | cons t ts ih =>
    rw [List.forall_mem_cons] at h
    cases ts with
    | nil => simpa using h.1
    | cons u us =>
      rw [Text.joined_cons_cons]
      exact h.1.append (Compactable.append (.inl hseparator) (ih h.2))

/-- What is tidied is solid. -/
theorem Compactable.solid_tidy (h : Compactable t) : Solid (tidy t) := by
  rcases h with hsolid | hfunction
  · rwa [tidy_of_solid hsolid]
  · rw [tidy_of_usesFunction hfunction]
    exact Text.solid_compact t

end Suffix

/-- A value of JSON kinds, decimals and tuples: every text in it is compactable, and every key is a
solid text. -/
inductive Value.Compactable : Value → Prop where
  | null : Compactable .null
  | bool (b : Bool) : Compactable (.bool b)
  | int (n : Int) : Compactable (.int n)
  | float (x : Double) : Compactable (.float x)
  | decimal (d : Decimal) : Compactable (.decimal d)
  | text {t : Text} (h : Suffix.Compactable t) : Compactable (.text t)
  | list {items : List Value} (h : ∀ v ∈ items, Compactable v) : Compactable (.list items)
  | tuple {items : List Value} (h : ∀ v ∈ items, Compactable v) : Compactable (.tuple items)
  | dict {rows : List (Text × Value)} (hkeys : ∀ e ∈ rows, Solid e.1)
      (hvalues : ∀ e ∈ rows, Compactable e.2) : Compactable (.dict (Value.named rows))

/-! ### Written values -/

namespace Json

open Suffix (Compactable compactFunctions)

variable {level : Nat} {c : Char} {v : Value} {items : List Value} {ts : List Text}

theorem not_isBlank_digitChar : ∀ d < 16, isBlank (Nat.digitChar d) = false := by
  decide

theorem solid_unitEscape (n : Nat) : Solid (unitEscape n) := by
  have hdigits : Solid (Text.hex 4 n) := by
    intro c hc
    obtain ⟨d, hd, rfl⟩ := Text.mem_hex hc
    exact not_isBlank_digitChar d hd
  have hfront : Solid ['\\', 'u'] := by decide
  exact Text.solid_append.2 ⟨hfront, hdigits⟩

theorem solid_charEscape (c : Char) : Solid (charEscape c) := by
  rw [charEscape]
  split
  · exact solid_unitEscape _
  · exact Text.solid_append.2 ⟨solid_unitEscape _, solid_unitEscape _⟩

theorem solid_writeChar (asciiOnly : Bool) (hc : isBlank c = false) :
    Solid (writeChar asciiOnly c) := by
  have hslash : isBlank '\\' = false := by decide
  rw [writeChar]
  split_ifs
  · simp [hslash, hc]
  · decide
  · decide
  · decide
  · decide
  · decide
  · exact solid_unitEscape _
  · exact solid_charEscape c
  · simp [hc]

/-- The name of a compact function is written as it is. -/
theorem flatMap_writeChar_name (asciiOnly : Bool) :
    ∀ name ∈ compactFunctions, name.flatMap (writeChar asciiOnly) = name := by
  cases asciiOnly <;> decide

theorem compactable_writeText (asciiOnly : Bool) (h : Compactable t) :
    Compactable (writeText asciiOnly t) := by
  have hquote : Compactable ['"'] := .inl (by decide)
  refine hquote.append (Compactable.append ?_ hquote)
  rcases h with hsolid | ⟨name, hname, a, b, rfl⟩
  · exact .inl (Text.solid_flatMap fun c hc => solid_writeChar asciiOnly (hsolid c hc))
  · refine .inr ⟨name, hname, a.flatMap (writeChar asciiOnly), b.flatMap (writeChar asciiOnly), ?_⟩
    rw [List.flatMap_append, List.flatMap_append, flatMap_writeChar_name asciiOnly name hname]

theorem solid_writeDouble (x : Double) : Solid (writeDouble x) := by
  cases x with
  | finite negative m => exact (Double.uses_text (.finite negative m)).solid Number.solid_marks
  | infinite negative => cases negative <;> decide
  | nan => decide

theorem compactable_enclose {opening closing : Char} (hopen : isBlank opening = false)
    (hclose : isBlank closing = false) (h : ∀ t ∈ ts, Compactable t) :
    Compactable (enclose inlineFormat level opening closing ts) := by
  have hfront : Compactable [opening] := .inl (by simp [hopen])
  have hback : Compactable [closing] := .inl (by simp [hclose])
  have hcomma : Solid [','] := by decide
  have hnewline : ∀ n, newline inlineFormat n = [] := fun _ => rfl
  rw [enclose]
  split
  · exact hfront.append hback
  · simp only [hnewline, List.append_nil]
    exact (hfront.append (Compactable.joined hcomma h)).append hback

theorem compactable_of_write_list
    (h : ∀ v ∈ items, ∀ {t : Text} {level : Nat},
      write inlineFormat level v = .ok t → Compactable t)
    (ht : write inlineFormat level (.list items) = .ok t) : Compactable t := by
  rw [write_list] at ht
  obtain ⟨ts, hts, ht⟩ := bind_eq_ok_iff.1 ht
  cases ht
  refine compactable_enclose (by decide) (by decide) fun w hw => ?_
  obtain ⟨v, hv, hwritten⟩ := exists_of_mem_mapM hts hw
  exact h v hv hwritten

/-- **A compactable value is written as a compactable text** inside a class name. -/
theorem compactable_of_write (hv : v.Compactable) (h : write inlineFormat level v = .ok t) :
    Compactable t := by
  induction hv generalizing level t with
  | null =>
    cases h
    exact .inl (by decide)
  | bool b =>
    cases h
    cases b <;> exact .inl (by decide)
  | int n => exact .inl ((Integer.uses_write h).solid Number.solid_marks)
  | float x =>
    cases h
    exact .inl (solid_writeDouble x)
  | decimal d =>
    cases h
    exact compactable_writeText true (.inl (d.uses_text.solid Decimal.solid_marks))
  | text ht =>
    cases h
    exact compactable_writeText true ht
  | list _ ih => exact compactable_of_write_list ih h
  | tuple _ ih =>
    rw [write_tuple] at h
    exact compactable_of_write_list ih h
  | @dict rows hkeys _ ih =>
    rw [write_dict] at h
    obtain ⟨ts, hts, h⟩ := bind_eq_ok_iff.1 h
    cases h
    refine compactable_enclose (by decide) (by decide) fun w hw => ?_
    obtain ⟨e, he, hentry⟩ := exists_of_mem_mapM hts hw
    obtain ⟨u, hu, hentry⟩ := bind_eq_ok_iff.1 hentry
    cases hentry
    have hmem : e ∈ rows := (perm_arranged _ _).mem_iff.1 he
    have hkey := compactable_writeText true (.inl (hkeys e hmem))
    have hcolon : Compactable (colon inlineFormat) := .inl (by decide)
    exact (hkey.append hcolon).append (ih e hmem hu)

end Json

/-! ### Solid suffixes -/

namespace Suffix

variable {v : Value}

theorem solid_of_isStep (h : Scale.isStep s = true) : Solid s := by
  have hnames : ∀ name ∈ Scale.steps.map Step.name, Solid name := by decide
  exact hnames s (Scale.isStep_iff.1 h)

theorem solid_bracketed (h : Solid t) : Solid (bracketed t) := by
  have hopen : isBlank '[' = false := by decide
  have hclose : isBlank ']' = false := by decide
  simp [bracketed, hopen, hclose, h]

/-- A number of pixels in brackets. -/
theorem solid_px (h : Text.Uses Number.marks t) : Solid (t ++ "px") := by
  have hpx : Solid "px".toList := by decide
  exact Text.solid_append.2 ⟨h.solid Number.solid_marks, hpx⟩

theorem solid_minus_px (h : Text.Uses Number.marks t) : Solid ('-' :: (t ++ "px")) :=
  Text.solid_cons.2 ⟨by decide, solid_px h⟩

theorem ofPxText_literal_or_solid (t : Text) : ofPxText t = bracketed t ∨ Solid (ofPxText t) := by
  fun_cases ofPxText t
  · exact .inl rfl
  · exact .inr (solid_bracketed (solid_minus_px (Text.uses_ofNat _)))
  · rename_i step hstep
    exact .inr (solid_of_isStep (Scale.isStep_of_stepOfPx? hstep))
  · exact .inr (solid_bracketed (solid_px (Text.uses_ofNat _)))

/-- The suffix of a length is the length as a literal, or solid. -/
theorem ofLength_literal_or_solid (t : Text) : ofLength t = bracketed t ∨ Solid (ofLength t) := by
  rw [ofLength]
  split
  · exact .inr (by decide)
  · split
    · rename_i hstep
      exact .inr (solid_of_isStep hstep)
    · split
      · rename_i step hstep
        exact .inr (solid_of_isStep (isStep_of_stepOfLength? hstep))
      · split
        · exact ofPxText_literal_or_solid t
        · exact .inl rfl

theorem solid_ofLength (h : Solid t) : Solid (ofLength t) := by
  rcases ofLength_literal_or_solid t with hliteral | hsolid
  · rw [hliteral]
    exact solid_bracketed h
  · exact hsolid

theorem uses_whole (x : Double) : Text.Uses Number.marks
    (match x.whole? with
      | some n => Integer.text n
      | none => x.text) := by
  split
  · exact Integer.uses_text _
  · exact x.uses_text

theorem solid_ofDouble (x : Double) : Solid (ofDouble x) := by
  rw [ofDouble]
  split
  · decide
  · split
    · split
      · exact solid_bracketed (Json.solid_writeDouble x)
      · exact solid_bracketed (solid_minus_px (uses_whole _))
    · exact (uses_whole x).solid Number.solid_marks

theorem solid_ofInt {n : Int} (h : ofInt n = .ok s) : Solid s := by
  obtain ⟨-, rfl⟩ := ofInt_eq_ok_iff.1 h
  rw [ofInteger]
  split
  · exact solid_bracketed (solid_minus_px (Text.uses_ofNat _))
  · exact (Text.uses_ofNat _).solid Number.solid_marks

theorem solid_ofNumber {n : Number} (h : ofNumber n = .ok s) : Solid s := by
  cases n with
  | int n => exact solid_ofInt h
  | double x =>
    cases h
    exact solid_ofDouble x

/-- The suffix of a text is the tidied text as a literal, or solid. -/
theorem ofText_literal_or_solid (t : Text) : ofText t = bracketed (tidy t) ∨ Solid (ofText t) := by
  by_cases hblank : ∀ c ∈ t, isBlank c = true
  · rw [ofText_eq_nil_of_blank hblank]
    exact .inr Text.solid_nil
  · by_cases hauto : t = auto
    · rw [hauto, ofText_auto]
      exact .inr (by decide)
    · rw [ofText_of_not_blank hblank hauto]
      cases (if ("-" : Text).isPrefixOf t then parseNumber? t else none) with
      | none => exact ofLength_literal_or_solid (tidy t)
      | some x => exact .inr (solid_ofDouble x)

theorem solid_ofText (h : Compactable t) : Solid (ofText t) := by
  rcases ofText_literal_or_solid t with hliteral | hsolid
  · rw [hliteral]
    exact solid_bracketed h.solid_tidy
  · exact hsolid

/-- **The suffix of a compactable value is solid.** -/
theorem solid_ofValue (hv : v.Compactable) (h : ofValue v = .ok s) : Solid s := by
  cases hv with
  | null =>
    cases h
    exact Text.solid_nil
  | bool b =>
    cases h
    cases b <;> exact solid_ofText (.inl (by decide))
  | int n => exact solid_ofInt h
  | float x =>
    cases h
    split
    · exact solid_ofDouble x
    · exact solid_ofText (.inl (Json.solid_writeDouble x))
  | decimal d =>
    rw [ofValue] at h
    split at h
    · exact solid_ofNumber h
    · cases h
      exact solid_ofText (.inl (d.uses_text.solid Decimal.solid_marks))
  | text ht =>
    cases h
    exact solid_ofText ht
  | list hitems =>
    obtain ⟨t, ht, h⟩ := bind_eq_ok_iff.1 h
    cases h
    exact solid_ofText (Json.compactable_of_write (.list hitems) ht)
  | tuple hitems =>
    obtain ⟨t, ht, h⟩ := bind_eq_ok_iff.1 h
    cases h
    exact solid_ofText (Json.compactable_of_write (.tuple hitems) ht)
  | dict hkeys hvalues =>
    obtain ⟨t, ht, h⟩ := bind_eq_ok_iff.1 h
    cases h
    exact solid_ofText (Json.compactable_of_write (.dict hkeys hvalues) ht)

/-! ### Compact functions -/

/-- A text with a compact function is a length without blanks; it is neither blank nor `auto` nor a
number. -/
theorem ofText_of_usesFunction (h : UsesFunction t) : ofText t = ofLength (Text.compact t) := by
  have hnames : ∀ name ∈ compactFunctions, 'c' ∈ name := by decide
  have hc : 'c' ∈ t := by
    obtain ⟨name, hname, hinfix⟩ := h
    exact hinfix.subset (hnames name hname)
  have hblank : ¬ ∀ c ∈ t, isBlank c = true := Text.not_blank_of_mem hc (by decide)
  have hauto : t ≠ auto := by
    rintro rfl
    exact absurd hc (by decide)
  have hnumber : parseNumber? t = none := parseNumber?_of_mem hc (by decide) (by decide) (by decide)
  rw [ofText_of_not_blank hblank hauto, hnumber, ite_self, Option.elim_none, tidy_of_usesFunction h]

/-- **Around a compact function blanks make no difference**: two texts that are the same without
their blanks have the same suffix, and no blank is in it. -/
theorem ofValue_usesFunction (hs : UsesFunction s) (ht : UsesFunction t)
    (h : Text.compact s = Text.compact t) :
    ∃ u, ofValue (.text s) = .ok u ∧ ofValue (.text t) = .ok u ∧ Solid u := by
  refine ⟨ofLength (Text.compact t), ?_, ?_, solid_ofLength (Text.solid_compact t)⟩
  · rw [ofValue, ofText_of_usesFunction hs, h]
  · rw [ofValue, ofText_of_usesFunction ht]

/-- Two texts that are in pixels only without their blanks. -/
theorem ofValue_usesFunction_px :
    ∃ u, ofValue (.text "\t16 calc p x") = .ok u ∧ ofValue (.text "16\u2003calcpx ") = .ok u ∧
      Solid u := by
  have hfirst : UsesFunction "\t16 calc p x" := usesFunction_iff.2 (by decide)
  have hsecond : UsesFunction "16\u2003calcpx " := usesFunction_iff.2 (by decide)
  exact ofValue_usesFunction hfirst hsecond (by decide)

end Suffix

end SpacingClasses
