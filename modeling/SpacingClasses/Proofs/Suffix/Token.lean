import SpacingClasses.Proofs.Number.Written
import SpacingClasses.Proofs.Suffix.Size

/-!
# The tokens that suffixes are

Which texts a suffix can be, by the value that it is for.

* `Suffix.Token v s` : the text `s` is a token for the value `v`;
* `not_blank_of_literal` : a value that is shown to make its suffix is shown by more than blanks;
* `Suffix.ofValue_cases` : a suffix is a token for its value, and empty for a blank one only;
* `Suffix.ofValue_tokens` : **every suffix is a token, and only what is blank has none**.
-/

namespace SpacingClasses

/-! ### Kinds of values -/

namespace Value

/-- Nothing, or a text of blanks. -/
inductive Blank : Value → Prop where
  | null : Blank .null
  | text {t} (h : ∀ c ∈ t, Text.isBlank c = true) : Blank (.text t)

/-- Truth values, bytes, and doubles that are not finite. -/
inductive Unsized : Value → Prop where
  | bool (b : Bool) : Unsized (.bool b)
  | bytes (bs : List UInt8) : Unsized (.bytes bs)
  | float {x} (h : x.isFinite = false) : Unsized (.float x)

/-- Lists, tuples and dictionaries. -/
inductive Collection : Value → Prop where
  | list (items : List Value) : Collection (.list items)
  | tuple (items : List Value) : Collection (.tuple items)
  | dict (entries : List (Value × Value)) : Collection (.dict entries)

/-- Values that are neither nothing, texts nor finite numbers: what they are shown as is their
size. -/
inductive Shown : Value → Prop where
  | unsized {v} (h : Unsized v) : Shown v
  | collection {v} (h : Collection v) : Shown v
  | moment (m : Moment) : Shown (.moment m)
  | scalar (value : Value) (label : Text) : Shown (.scalar value label)
  | sequence (items : List Value) : Shown (.sequence items)
  | keyed (entries : List (Text × Value)) : Shown (.keyed entries)
  | prop (name : Text) (value : Value) (raw : Option Text) : Shown (.prop name value raw)

/-- Whether a value is a finite number greater than zero; truth values are none. -/
def isPositive : Value → Bool
  | .int n => 0 < n
  | .float x => x.isPositive
  | .decimal d => d.isPositive
  | _ => false

/-- The number that a value stands for. -/
def number? : Value → Option Number
  | .int n => some (.int n)
  | .float x => some (.double x)
  | .decimal d => d.number?
  | _ => none

end Value

namespace Suffix

open Text (isBlank compact)

/-! ### Tokens -/

/-- A suffix for a value.  Only a positive number may stand as it is written. -/
inductive Token (v : Value) : Text → Prop where
  | auto : Token v auto
  | step {s} (h : Scale.isStep s = true) : Token v s
  | literal (t : Text) : Token v (bracketed t)
  | number {n s} (hv : v.isPositive = true) (hn : v.number? = some n) (hs : n.write = .ok s) :
      Token v s

variable {v : Value} {s t : Text}

theorem IsSize.token (h : IsSize s) (v : Value) : Token v s := by
  rcases h with hstep | ⟨t, rfl⟩
  · exact .step hstep
  · exact .literal t

theorem token_of_ofNumber {n : Number} (hv : v.number? = some n) (hn : n.isFinite = true)
    (hpos : n.isPositive = true → v.isPositive = true) (h : ofNumber n = .ok s) :
    s ≠ [] ∧ Token v s := by
  rcases ofNumber_cases hn h with hsize | ⟨hpositive, hwrite⟩
  · exact ⟨hsize.ne_nil, hsize.token v⟩
  · exact ⟨Number.write_ne_nil hwrite, .number (hpos hpositive) hv hwrite⟩

theorem token_of_ofText (hblank : ¬ ∀ c ∈ t, isBlank c = true) (v : Value) :
    Token v (ofText t) := by
  by_cases hauto : t = auto
  · rw [hauto, ofText_auto]
    exact .auto
  · exact (ofText_isSize hblank hauto).token v

/-! ### The texts of values -/

theorem enclosed_of_literal_bytes {bs : List UInt8} (h : literal (.bytes bs) = .ok t) :
    Enclosed t := by
  cases h
  exact (enclosed_quotedBytes bs).compact

theorem enclosed_of_literal_collection (hv : v.Collection) (h : literal v = .ok t) :
    Enclosed t := by
  cases hv with
  | list | tuple =>
    obtain ⟨written, -, h⟩ := bind_eq_ok_iff.1 h
    cases h
    exact enclosed_of_enclose (by decide) (by decide)
  | dict entries =>
    obtain ⟨ordered, -, h⟩ := bind_eq_ok_iff.1 h
    obtain ⟨written, -, h⟩ := bind_eq_ok_iff.1 h
    cases h
    exact enclosed_of_enclose (by decide) (by decide)

theorem not_blank_compact {c : Char} (hc : isBlank c = false) (t : Text) :
    ¬ ∀ d ∈ compact (c :: t), isBlank d = true := by
  rw [Text.compact_cons hc]
  exact Text.not_blank_of_mem List.mem_cons_self hc

/-- A date has a hyphen in it, and a time a colon. -/
theorem exists_not_isBlank_iso (m : Moment) : ∃ c ∈ m.iso, isBlank c = false := by
  cases m with
  | date d => exact ⟨'-', by simp [Moment.iso, Moment.isoDate], by decide⟩
  | time t => exact ⟨':', by simp [Moment.iso, Moment.isoTime], by decide⟩
  | dateTime d t offset =>
    exact ⟨'-', by simp [Moment.iso, Moment.isoDate], by decide⟩

/-- A value that is neither nothing, a text nor a number is shown by more than blanks. -/
theorem not_blank_of_literal (hv : v.Shown) (h : literal v = .ok t) :
    ¬ ∀ c ∈ t, isBlank c = true := by
  cases hv with
  | unsized hv =>
    cases hv with
    | bool b =>
      cases h
      cases b <;> exact Text.not_blank_of_all (by decide)
    | bytes bs => exact (enclosed_of_literal_bytes h).not_blank
    | @float x hx =>
      -- three words are all that is shown
      cases h
      cases x with
      | finite negative m => cases hx
      | infinite negative => cases negative <;> exact Text.not_blank_of_all (by decide)
      | nan => exact Text.not_blank_of_all (by decide)
  | collection hv => exact (enclosed_of_literal_collection hv h).not_blank
  | moment m =>
    cases h
    obtain ⟨c, hc, hvisible⟩ := exists_not_isBlank_iso m
    exact Text.not_blank_of_mem (List.mem_filter.2 ⟨hc, by simp [hvisible]⟩) hvisible
  | scalar | sequence | keyed | prop =>
    -- the name of the kind stands at the front, whatever the parts are shown as
    obtain ⟨shown, hshown, h⟩ := bind_eq_ok_iff.1 h
    obtain ⟨u, -, hshown⟩ := bind_eq_ok_iff.1 hshown
    cases hshown
    cases h
    exact not_blank_compact (by decide) _

/-! ### Suffixes of values -/

theorem ofValue_of_shown (hv : v.Shown) : ofValue v = (literal v).map ofText := by
  cases hv with
  | unsized hv =>
    cases hv with
    | bool b => rfl
    | bytes bs => rfl
    | @float x hx =>
      rw [ofValue, hx]
      rfl
  | collection hv => cases hv <;> rfl
  | moment | scalar | sequence | keyed | prop => rfl

theorem token_of_shown (hv : v.Shown) (h : ofValue v = .ok s) :
    ¬ v.Blank ∧ s ≠ [] ∧ Token v s := by
  rw [ofValue_of_shown hv] at h
  obtain ⟨t, ht, rfl⟩ := map_eq_ok_iff.1 h
  have hblank := not_blank_of_literal hv ht
  refine ⟨?_, mt ofText_eq_nil_iff.1 hblank, token_of_ofText hblank v⟩
  rintro ⟨⟩ <;> cases hv <;> contradiction

theorem token_of_number {n : Number} (hv : v.number? = some n) (hn : n.isFinite = true)
    (hpos : n.isPositive = true → v.isPositive = true) (h : ofNumber n = .ok s) :
    ¬ v.Blank ∧ s ≠ [] ∧ Token v s := by
  refine ⟨?_, token_of_ofNumber hv hn hpos h⟩
  rintro ⟨⟩ <;> cases hv

/-- A suffix is a token for its value, and empty for a blank value only. -/
theorem ofValue_cases (h : ofValue v = .ok s) :
    v.Blank ∧ s = [] ∨ ¬ v.Blank ∧ s ≠ [] ∧ Token v s := by
  cases v with
  | null =>
    cases h
    exact .inl ⟨.null, rfl⟩
  | text t =>
    cases h
    by_cases hblank : ∀ c ∈ t, isBlank c = true
    · exact .inl ⟨.text hblank, ofText_eq_nil_of_blank hblank⟩
    · refine .inr ⟨?_, mt ofText_eq_nil_iff.1 hblank, token_of_ofText hblank _⟩
      rintro ⟨⟩
      contradiction
  | int n => exact .inr (token_of_number rfl rfl id h)
  | float x =>
    cases hx : x.isFinite with
    | false => exact .inr (token_of_shown (.unsized (.float hx)) h)
    | true =>
      rw [ofValue, hx] at h
      exact .inr (token_of_number rfl hx id h)
  | decimal d =>
    rw [ofValue] at h
    split at h
    · rename_i n hn
      exact .inr (token_of_number hn (Decimal.isFinite_of_number? hn)
        (Decimal.isPositive_of_number? hn) h)
    · -- a decimal that is no number of use is converted as its text
      cases h
      obtain ⟨c, hc, hvisible⟩ := d.exists_not_isBlank
      have hblank := Text.not_blank_of_mem hc hvisible
      refine .inr ⟨?_, mt ofText_eq_nil_iff.1 hblank, token_of_ofText hblank _⟩
      rintro ⟨⟩
  | bool b => exact .inr (token_of_shown (.unsized (.bool b)) h)
  | bytes bs => exact .inr (token_of_shown (.unsized (.bytes bs)) h)
  | moment m => exact .inr (token_of_shown (.moment m) h)
  | list items => exact .inr (token_of_shown (.collection (.list items)) h)
  | tuple items => exact .inr (token_of_shown (.collection (.tuple items)) h)
  | dict entries => exact .inr (token_of_shown (.collection (.dict entries)) h)
  | scalar value label => exact .inr (token_of_shown (.scalar value label) h)
  | sequence items => exact .inr (token_of_shown (.sequence items) h)
  | keyed entries => exact .inr (token_of_shown (.keyed entries) h)
  | prop name value raw => exact .inr (token_of_shown (.prop name value raw) h)

/-- Only what is blank has the empty suffix. -/
theorem eq_nil_iff_blank (h : ofValue v = .ok s) : s = [] ↔ v.Blank := by
  rcases ofValue_cases h with ⟨hblank, hs⟩ | ⟨hblank, hs, -⟩
  · exact iff_of_true hs hblank
  · exact iff_of_false hs hblank

theorem bracketed_of_unsized (hv : v.Unsized) : ∃ t, ofValue v = .ok (bracketed t) := by
  rw [ofValue_of_shown (.unsized hv)]
  cases hv with
  | bool b => cases b <;> exact ⟨_, rfl⟩
  | bytes bs =>
    have hliteral : literal (.bytes bs) = .ok (compact (Text.quotedBytes bs)) := rfl
    obtain ⟨u, hu⟩ := ofText_of_enclosed (enclosed_of_literal_bytes hliteral)
    exact ⟨u, congrArg Except.ok hu⟩
  | @float x hx =>
    cases x with
    | finite negative m => cases hx
    | infinite negative => cases negative <;> exact ⟨_, rfl⟩
    | nan => exact ⟨_, rfl⟩

theorem bracketed_of_collection (hv : v.Collection) (h : ofValue v = .ok s) :
    ∃ t, s = bracketed t := by
  rw [ofValue_of_shown (.collection hv)] at h
  obtain ⟨t, ht, rfl⟩ := map_eq_ok_iff.1 h
  exact ofText_of_enclosed (enclosed_of_literal_collection hv ht)

/-- **Every suffix is a token for its value, and only what is blank has none.**  A text always has a
suffix, which is never a bare number, and `auto` for itself only.  Truth values, bytes, doubles
that are not finite, lists, tuples and dictionaries become literals in brackets. -/
theorem ofValue_tokens :
    (∀ v s, ofValue v = .ok s → (s = [] ↔ v.Blank) ∧ (s ≠ [] → Token v s)) ∧
    (∀ t, ∃ s, ofValue (.text t) = .ok s ∧ (s = [] ∨ s = auto ∨ IsSize s) ∧
      (s = auto ↔ t = auto)) ∧
    (∀ v, v.Unsized → ∃ t, ofValue v = .ok (bracketed t)) ∧
    (∀ v s, v.Collection → ofValue v = .ok s → ∃ t, s = bracketed t) := by
  refine ⟨fun v s h => ⟨eq_nil_iff_blank h, fun hne => ?_⟩, fun t => ?_, ?_, ?_⟩
  · rcases ofValue_cases h with ⟨-, hs⟩ | ⟨-, -, htoken⟩
    · exact absurd hs hne
    · exact htoken
  · exact ⟨ofText t, rfl, ofText_cases t, ofText_eq_auto_iff⟩
  · exact fun v hv => bracketed_of_unsized hv
  · exact fun v s hv h => bracketed_of_collection hv h

end Suffix

end SpacingClasses
