import SpacingClasses.Proofs.Number.Digits
import SpacingClasses.Proofs.Outcome
import SpacingClasses.Proofs.Scale.Index
import SpacingClasses.Proofs.Text.Classes
import SpacingClasses.Suffix

/-!
# Sizes

Most suffixes are sizes: a step of the scale, or a literal in brackets.

* `Suffix.IsSize s` : the text `s` is one of these;
* `ofLength_isSize`, `ofText_isSize` : so is the suffix of a length, and of a text that is neither
  blank nor `auto`;
* `ofNumber_cases` : so is the suffix of a number, unless this is positive and stays as it is;
* `ofText_of_enclosed` : a text in brackets, braces or quotes is left as a literal.
-/

namespace SpacingClasses

namespace Suffix

open Text (isBlank strip compact)

/-- A step of the scale, or a literal in brackets. -/
def IsSize (s : Text) : Prop := Scale.isStep s = true ∨ ∃ t, s = bracketed t

variable {s t : Text}

theorem isSize_bracketed (t : Text) : IsSize (bracketed t) := .inr ⟨t, rfl⟩

theorem bracketed_injective {s t : Text} (h : bracketed s = bracketed t) : s = t :=
  List.append_cancel_right (List.cons.inj h).2

theorem isSize_zero : IsSize "0" := .inl (by decide)

theorem IsSize.ne_nil (h : IsSize s) : s ≠ [] := by
  rintro rfl
  rcases h with hstep | ⟨t, ht⟩
  · exact absurd hstep (by decide)
  · cases ht

theorem IsSize.ne_auto (h : IsSize s) : s ≠ auto := by
  rintro rfl
  rcases h with hstep | ⟨t, ht⟩
  · exact absurd hstep (by decide)
  · exact absurd (List.cons.inj ht).1 (by decide)

/-! ### Lengths -/

theorem isStep_of_stepOfLength? (h : stepOfLength? t = some s) : Scale.isStep s = true := by
  rw [stepOfLength?] at h
  split at h
  · obtain ⟨px, -, h⟩ := Option.bind_eq_some_iff.1 h
    exact Scale.isStep_of_stepOfRem? h
  · split at h
    · exact Scale.isStep_of_stepOfRem? h
    · cases h

theorem ofPxText_isSize (t : Text) : IsSize (ofPxText t) := by
  -- the cases are those of the definition, so that no index is computed to tell them apart
  fun_cases ofPxText t
  · exact isSize_bracketed t
  · exact isSize_bracketed _
  · rename_i step hstep
    exact .inl (Scale.isStep_of_stepOfPx? hstep)
  · exact isSize_bracketed _

theorem ofLength_isSize (t : Text) : IsSize (ofLength t) := by
  rw [ofLength]
  split
  · exact isSize_zero
  · split
    · rename_i hstep
      exact .inl hstep
    · split
      · rename_i step hstep
        exact .inl (isStep_of_stepOfLength? hstep)
      · split
        · exact ofPxText_isSize t
        · exact isSize_bracketed t

/-! ### Numbers -/

theorem ofDouble_zero {negative : Bool} {m : Magnitude} (hm : m.units = 0) :
    ofDouble (.finite negative m) = "0" := by
  have hzero : (Double.finite negative m).isZero = true := beq_iff_eq.2 hm
  rw [ofDouble, if_pos hzero]

/-- A double less than zero becomes pixels, or stays as it is if they would be infinite. -/
theorem ofDouble_minus {m : Magnitude} (hm : m.units ≠ 0) :
    ofDouble (.finite true m) =
      ((Double.finite false m).scale pxPerUnit).finite?.elim
        (bracketed (Double.finite true m).text) fun px =>
          bracketed ('-' :: (px.whole?.elim px.text Integer.text ++ "px")) := by
  have hzero : ¬ (Double.finite true m).isZero = true := by simpa [Double.isZero] using hm
  have hnegative : (Double.finite true m).isNegative = true := by
    simpa [Double.isNegative] using hm
  have habs : (Double.finite true m).abs = .finite false m := rfl
  rw [ofDouble, if_neg hzero, if_pos hnegative, habs]
  cases ((Double.finite false m).scale pxPerUnit).finite? with
  | none => rfl
  | some px => cases hwhole : px.whole? <;> simp [hwhole]

/-- A double less than zero becomes a literal in brackets. -/
theorem exists_ofDouble_minus {m : Magnitude} (hm : m.units ≠ 0) :
    ∃ t, ofDouble (.finite true m) = bracketed t := by
  rw [ofDouble_minus hm]
  cases ((Double.finite false m).scale pxPerUnit).finite? with
  | none => exact ⟨_, rfl⟩
  | some px => exact ⟨_, rfl⟩

/-- The text of a double greater than zero is its suffix. -/
theorem write_eq_ofDouble {m : Magnitude} (hm : m.units ≠ 0) :
    (Number.double (.finite false m)).write = .ok (ofDouble (.finite false m)) := by
  have hzero : ¬ (Double.finite false m).isZero = true := by simpa [Double.isZero] using hm
  rw [ofDouble, if_neg hzero]
  rfl

/-- A double with a minus becomes zero or pixels in brackets. -/
theorem ofDouble_isSize (m : Magnitude) : IsSize (ofDouble (.finite true m)) := by
  by_cases hm : m.units = 0
  · rw [ofDouble_zero hm]
    exact isSize_zero
  · exact .inr (exists_ofDouble_minus hm)

theorem ofDouble_cases (x : Double) (hx : x.isFinite = true) :
    IsSize (ofDouble x) ∨
      x.isPositive = true ∧ (Number.double x).write = .ok (ofDouble x) := by
  obtain ⟨negative, m, rfl⟩ := Double.exists_of_isFinite hx
  by_cases hm : m.units = 0
  · rw [ofDouble_zero hm]
    exact .inl isSize_zero
  · cases negative with
    | true => exact .inl (ofDouble_isSize m)
    | false =>
      have hpositive : (Double.finite false m).isPositive = true := by
        simpa [Double.isPositive, Double.isFinite, Double.isNegative, Double.isZero] using hm
      exact .inr ⟨hpositive, write_eq_ofDouble hm⟩

theorem ofInt_cases {n : Int} (h : ofInt n = .ok s) :
    IsSize s ∨ 0 < n ∧ (Number.int n).write = .ok s := by
  obtain ⟨hlength, rfl⟩ := ofInt_eq_ok_iff.1 h
  rw [ofInteger]
  rw [writtenIn] at hlength
  rcases Int.lt_trichotomy n 0 with hneg | rfl | hpos
  · rw [if_pos hneg]
    exact .inl (isSize_bracketed _)
  · exact .inl isSize_zero
  · have hnot : ¬ n < 0 := by omega
    rw [if_neg hnot] at hlength
    rw [if_neg hnot, Number.write, Integer.write, if_pos hlength, if_neg hnot]
    exact .inr ⟨hpos, rfl⟩

/-- The suffix of a finite number is a size, or the number as it is written. -/
theorem ofNumber_cases {n : Number} (hn : n.isFinite = true) (h : ofNumber n = .ok s) :
    IsSize s ∨ n.isPositive = true ∧ n.write = .ok s := by
  cases n with
  | int n =>
    rcases ofInt_cases h with hsize | ⟨hpos, hwrite⟩
    · exact .inl hsize
    · exact .inr ⟨decide_eq_true hpos, hwrite⟩
  | double x =>
    cases h
    exact ofDouble_cases x hn

/-! ### Texts -/

theorem ofText_eq_nil_of_blank (h : ∀ c ∈ t, isBlank c = true) : ofText t = [] := by
  rw [ofText, Text.strip_eq_nil_iff.2 h]
  rfl

theorem ofText_auto : ofText auto = auto := by
  rfl

/-- Any other text is a number, if it starts with a minus, or else a length. -/
theorem ofText_of_not_blank (hblank : ¬ ∀ c ∈ t, isBlank c = true) (hauto : t ≠ auto) :
    ofText t =
      (if ("-" : Text).isPrefixOf t then parseNumber? t else none).elim (ofLength (tidy t))
        ofDouble := by
  have hstrip : (strip t).isEmpty = false := by
    rw [List.isEmpty_eq_false_iff]
    exact mt Text.strip_eq_nil_iff.1 hblank
  rw [ofText, hstrip, if_neg Bool.false_ne_true, if_neg hauto]
  cases (if ("-" : Text).isPrefixOf t then parseNumber? t else none) with
  | none => rfl
  | some x => rfl

/-- A text that is neither blank nor `auto` has a step or a literal for its suffix. -/
theorem ofText_isSize (hblank : ¬ ∀ c ∈ t, isBlank c = true) (hauto : t ≠ auto) :
    IsSize (ofText t) := by
  rw [ofText_of_not_blank hblank hauto]
  cases hx : (if ("-" : Text).isPrefixOf t then parseNumber? t else none) with
  | none => exact ofLength_isSize _
  | some x =>
    -- a number is looked for after a minus only, and keeps it
    split at hx
    · rename_i hminus
      obtain ⟨r, rfl⟩ := List.isPrefixOf_iff_prefix.1 hminus
      obtain ⟨m, rfl⟩ := parseNumber?_minus hx
      exact ofDouble_isSize m
    · cases hx

theorem ofText_eq_nil_iff : ofText t = [] ↔ ∀ c ∈ t, isBlank c = true := by
  refine ⟨fun h => ?_, ofText_eq_nil_of_blank⟩
  by_contra hblank
  by_cases hauto : t = auto
  · rw [hauto, ofText_auto] at h
    cases h
  · exact (ofText_isSize hblank hauto).ne_nil h

theorem ofText_eq_auto_iff : ofText t = auto ↔ t = auto := by
  constructor
  · intro h
    by_contra hauto
    have hblank : ¬ ∀ c ∈ t, isBlank c = true := fun hblank => by
      rw [ofText_eq_nil_of_blank hblank] at h
      cases h
    exact (ofText_isSize hblank hauto).ne_auto h
  · rintro rfl
    exact ofText_auto

/-- A text has a suffix, be it a size, `auto` or nothing. -/
theorem ofText_cases (t : Text) : ofText t = [] ∨ ofText t = auto ∨ IsSize (ofText t) := by
  by_cases hblank : ∀ c ∈ t, isBlank c = true
  · exact .inl (ofText_eq_nil_of_blank hblank)
  · by_cases hauto : t = auto
    · exact .inr (.inl (ofText_eq_auto_iff.2 hauto))
    · exact .inr (.inr (ofText_isSize hblank hauto))

/-! ### Literals in brackets, braces and quotes -/

/-- What a list, a dictionary or a row of bytes starts with. -/
def openers : List Char := ['[', '\x7b', 'b']

/-- What it ends with. -/
def closers : List Char := [']', '\x7d', '\'', '"']

/-- The text starts and ends like a list, a dictionary or a row of bytes. -/
def Enclosed (t : Text) : Prop := ∃ c u d, t = c :: (u ++ [d]) ∧ c ∈ openers ∧ d ∈ closers

theorem not_isBlank_opener {c : Char} (hc : c ∈ openers) : isBlank c = false := by
  have h : openers.all (!isBlank ·) = true := by decide
  simpa using List.all_eq_true.1 h c hc

theorem not_isBlank_closer {c : Char} (hc : c ∈ closers) : isBlank c = false := by
  have h : closers.all (!isBlank ·) = true := by decide
  simpa using List.all_eq_true.1 h c hc

/-- Whether a text starts otherwise. -/
def startsElse (t : Text) : Bool := t.head?.all (!openers.contains ·)

theorem Enclosed.compact (h : Enclosed t) : Enclosed (compact t) := by
  obtain ⟨c, u, d, rfl, hc, hd⟩ := h
  refine ⟨c, Text.compact u, d, ?_, hc, hd⟩
  rw [Text.compact_cons (not_isBlank_opener hc), Text.compact_concat (not_isBlank_closer hd)]

theorem Enclosed.tidy (h : Enclosed t) : Enclosed (tidy t) := by
  rw [Suffix.tidy]
  split
  · exact h.compact
  · exact h

/-- What starts otherwise is another text. -/
theorem Enclosed.ne (h : Enclosed t) (hs : startsElse s = true) : t ≠ s := by
  rintro rfl
  obtain ⟨c, u, d, rfl, hc, -⟩ := h
  simp [startsElse, hc] at hs

/-- So is what ends otherwise. -/
theorem Enclosed.not_suffix (h : Enclosed t) (ending : Text) {c : Char} (hc : c ∉ closers) :
    (ending ++ [c]).isSuffixOf t = false := by
  obtain ⟨c', u, d, rfl, -, hd⟩ := h
  refine Bool.eq_false_iff.2 fun hsuffix => hc ?_
  obtain ⟨w, hw⟩ := List.isSuffixOf_iff_suffix.1 hsuffix
  have hlast := congrArg List.getLast? hw
  rw [← List.cons_append, ← List.append_assoc, List.getLast?_concat, List.getLast?_concat] at hlast
  rw [Option.some.inj hlast]
  exact hd

/-- No step starts like a literal. -/
theorem Enclosed.not_isStep (h : Enclosed t) : Scale.isStep t = false := by
  have hnames : (Scale.steps.map Step.name).all startsElse = true := by decide
  refine Bool.eq_false_iff.2 fun hstep => ?_
  exact h.ne (List.all_eq_true.1 hnames t (Scale.isStep_iff.1 hstep)) rfl

theorem enclosed_bracketed (t : Text) : Enclosed (bracketed t) :=
  ⟨'[', t, ']', rfl, by decide, by decide⟩

/-- A literal in brackets is no step. -/
theorem not_isStep_bracketed (t : Text) : Scale.isStep (bracketed t) = false :=
  (enclosed_bracketed t).not_isStep

theorem Enclosed.not_zero (h : Enclosed t) : zeroLengths.contains t = false := by
  have hzeros : zeroLengths.all startsElse = true := by decide
  refine Bool.eq_false_iff.2 fun hzero => ?_
  exact h.ne (List.all_eq_true.1 hzeros t (List.contains_iff_mem.1 hzero)) rfl

theorem Enclosed.not_minus (h : Enclosed t) : ("-" : Text).isPrefixOf t = false := by
  refine Bool.eq_false_iff.2 fun hminus => ?_
  obtain ⟨r, hr⟩ := List.isPrefixOf_iff_prefix.1 hminus
  exact h.ne (s := '-' :: r) rfl hr.symm

theorem Enclosed.not_blank (h : Enclosed t) : ¬ ∀ c ∈ t, isBlank c = true := by
  obtain ⟨c, u, d, rfl, hc, -⟩ := h
  exact Text.not_blank_of_mem List.mem_cons_self (not_isBlank_opener hc)

theorem Enclosed.ofLength_eq (h : Enclosed t) : ofLength t = bracketed t := by
  have hpx : ("px" : Text).isSuffixOf t = false := h.not_suffix ['p'] (by decide)
  have hrem : ("rem" : Text).isSuffixOf t = false := h.not_suffix ['r', 'e'] (by decide)
  simp only [ofLength, h.not_zero, h.not_isStep, stepOfLength?, hpx, hrem]
  rfl

/-- A text in brackets, braces or quotes is tidied and left as a literal. -/
theorem Enclosed.ofText_eq (h : Enclosed t) : ofText t = bracketed (Suffix.tidy t) := by
  have hauto : t ≠ auto := h.ne (by decide)
  rw [ofText_of_not_blank h.not_blank hauto, h.not_minus]
  exact h.tidy.ofLength_eq

theorem ofText_of_enclosed (h : Enclosed t) : ∃ u, ofText t = bracketed u := ⟨_, h.ofText_eq⟩

/-! ### Enclosed forms -/

theorem enclosed_of_enclose {f : Json.Format} {level : Nat} {opening closing : Char}
    {items : List Text} (hopen : opening ∈ openers) (hclose : closing ∈ closers) :
    Enclosed (Json.enclose f level opening closing items) := by
  rw [Json.enclose]
  split
  · exact ⟨opening, [], closing, rfl, hopen, hclose⟩
  · exact ⟨opening, _, closing, rfl, hopen, hclose⟩

theorem enclosed_quotedBytes (bs : List UInt8) : Enclosed (Text.quotedBytes bs) := by
  refine ⟨'b', _ :: _, _, rfl, by decide, ?_⟩
  rw [Text.chooseQuote]
  split <;> decide

end Suffix

end SpacingClasses
