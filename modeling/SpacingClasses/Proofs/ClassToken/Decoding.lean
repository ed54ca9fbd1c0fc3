import SpacingClasses.Proofs.ClassToken.Entries
import SpacingClasses.Proofs.Number.Characters

/-!
# Class names are read in one way

A class name is its mark, its stem, a hyphen and its suffix, one after the other, and nothing is
escaped.  It has one reading all the same.

* `Suffix.not_side_of_ofValue` : no suffix starts with the letter of a side, so that none looks like
  the rest of a longer stem;
* `eq_nil_of_mark_append` : a mark goes no further than another one that the name starts with;
* `eq_nil_of_stem_append` : nor does a stem;
* `ClassToken.eq_of_text_eq` : **tokens with one text are one token**, unless a value names its
  tiers itself.
-/

namespace SpacingClasses

open Breakpoint (tierNames keyMark)

/-! ### The start of a suffix -/

namespace Suffix

/-- The letters of sides, with which longer stems go on after the hyphen of shorter ones. -/
def sides : List Char := ['x', 'y']

theorem not_side_of_digit {c : Char} (h : c.isDigit = true) : c ∉ sides := by
  intro hc
  have hsides : sides.all (!·.isDigit) = true := by decide
  have hdigit := List.all_eq_true.1 hsides c hc
  rw [h] at hdigit
  cases hdigit

theorem not_side_of_marks {c : Char} (h : c ∈ Number.marks) : c ∉ sides := by
  have hmarks : Number.marks.all (!sides.contains ·) = true := by decide
  simpa using List.all_eq_true.1 hmarks c h

theorem not_side_of_step {s : Text} (h : Scale.isStep s = true) : ∀ c ∈ s.head?, c ∉ sides := by
  have hnames : ((Scale.steps.map Step.name).all fun s => s.head?.all (!sides.contains ·)) = true :=
    by decide
  have hs := List.all_eq_true.1 hnames s (Scale.isStep_iff.1 h)
  intro c hc
  rw [Option.mem_def.1 hc] at hs
  simpa using hs

/-- **No suffix starts with the letter of a side.** -/
theorem not_side_of_ofValue {v : Value} {s : Text} (h : ofValue v = .ok s) :
    ∀ c ∈ s.head?, c ∉ sides := by
  rcases ofValue_cases h with ⟨-, rfl⟩ | ⟨-, -, htoken⟩
  · nofun
  · cases htoken with
    | auto =>
      intro c hc
      cases hc
      decide
    | step hstep => exact not_side_of_step hstep
    | literal t =>
      intro c hc
      cases hc
      decide
    | number hv hn hs =>
      intro c hc
      rcases Number.uses_write hs c (List.mem_of_mem_head? hc) with hdigit | hmark
      · exact not_side_of_digit hdigit
      · exact not_side_of_marks hmark

end Suffix

namespace ClassToken

variable {s r m e a b : Text}

/-! ### Marks -/

/-- The marks of tiers. -/
def marks : List Text := tierNames.map keyMark

/-- The stems of properties. -/
def stems : List Text := Property.stems.map (·.2)

/-- A mark ends with a colon, if it is not empty, and has no hyphen. -/
theorem colon_of_marks : ∀ m ∈ marks, (m = [] ∨ m.getLast? = some ':') ∧ '-' ∉ m := by
  decide +kernel

/-- No stem has a colon. -/
theorem not_colon_of_stems : ∀ s ∈ stems, ':' ∉ s := by
  decide +kernel

/-- A mark goes no further than another one that the name starts with: its colon would be in the
stem, or it would have the hyphen. -/
theorem eq_nil_of_mark_append (hs : s ∈ stems) (hm : m ++ e ∈ marks)
    (h : s ++ '-' :: a = e ++ b) : e = [] := by
  obtain ⟨hlast, hhyphen⟩ := colon_of_marks _ hm
  have hcolon := not_colon_of_stems s hs
  by_contra hne
  have hmem : ':' ∈ e := by
    have he := hlast.resolve_left (List.append_ne_nil_of_right_ne_nil m hne)
    rw [List.getLast?_append_of_ne_nil m hne] at he
    exact List.mem_of_getLast? he
  rcases List.append_eq_append_iff.1 h with ⟨w, rfl, hw⟩ | ⟨w, rfl, hw⟩
  · cases w with
    | nil => exact hcolon (by simpa using hmem)
    | cons d w =>
      cases hw
      exact hhyphen (by simp)
  · exact hcolon (List.mem_append_left w hmem)

/-! ### Stems -/

/-- Where a stem goes on after another one and the hyphen, it does so with the letter of a side. -/
theorem side_of_stems : ∀ s ∈ stems, ∀ r ∈ stems, (s ++ ['-']) <+: (r ++ ['-']) →
    ((r ++ ['-']).drop (s ++ ['-']).length).head? ∈ none :: Suffix.sides.map some := by
  decide +kernel

/-- A stem goes no further than another one that the rest of the name starts with: the suffix after
that one would start with the letter of a side. -/
theorem eq_nil_of_stem_append (hs : s ∈ stems) (hr : r ∈ stems)
    (ha : ∀ c ∈ a.head?, c ∉ Suffix.sides) (hrs : r ++ ['-'] = (s ++ ['-']) ++ e)
    (hab : a = e ++ b) : e = [] := by
  have hside := side_of_stems s hs r hr ⟨e, hrs.symm⟩
  rw [hrs, List.drop_left] at hside
  cases e with
  | nil => rfl
  | cons c e =>
    subst hab
    exact absurd (by simpa using hside) (ha c rfl)

theorem append_hyphen (s a : Text) : s ++ '-' :: a = (s ++ ['-']) ++ a := by
  simp

/-! ### Tokens -/

/-- A token that some value has on one of the tiers of the ladder. -/
structure OnLadder (t : ClassToken) : Prop where
  mark : t.mark ∈ marks
  stem : t.stem ∈ stems
  suffix : ∀ c ∈ t.suffix.head?, c ∉ Suffix.sides

/-- **Such a token is known by its text**: where one reading of the text begins, another one can be
neither shorter nor longer. -/
theorem OnLadder.eq_of_text {t u : ClassToken} (ht : OnLadder t) (hu : OnLadder u)
    (h : t.text = u.text) : t = u := by
  obtain ⟨m, s, a⟩ := t
  obtain ⟨n, r, b⟩ := u
  simp only [text, List.append_assoc] at h
  have hmark : m = n := by
    rcases List.append_eq_append_iff.1 h with ⟨e, rfl, he⟩ | ⟨e, rfl, he⟩
    · rw [eq_nil_of_mark_append ht.stem hu.mark he, List.append_nil]
    · rw [eq_nil_of_mark_append hu.stem ht.mark he, List.append_nil]
  subst hmark
  have hrest := List.append_cancel_left h
  rw [append_hyphen s, append_hyphen r] at hrest
  have hstem : s ++ ['-'] = r ++ ['-'] := by
    rcases List.append_eq_append_iff.1 hrest with ⟨e, hrs, he⟩ | ⟨e, hsr, he⟩
    · rw [eq_nil_of_stem_append ht.stem hu.stem ht.suffix hrs he, List.append_nil] at hrs
      exact hrs.symm
    · rw [eq_nil_of_stem_append hu.stem ht.stem hu.suffix hsr he, List.append_nil] at hsr
      exact hsr
  obtain rfl := List.append_cancel_right hstem
  obtain rfl := List.append_cancel_left hrest
  rfl

end ClassToken

/-- Whether a value names its tiers itself. -/
def Value.isKeyed : Value → Bool
  | .dict _ => true
  | .keyed _ => true
  | _ => false

namespace ClassToken

variable {p q v w : Value} {ts us : List ClassToken} {t u : ClassToken}

theorem key_mem_tierNames {shape : Shape} (hv : v.isKeyed = false)
    (hshape : Shape.ofValue v = .ok shape) : ∀ e ∈ shape.entries, e.1 ∈ tierNames := by
  intro e he
  cases shape with
  | single value label =>
    rw [List.mem_singleton.1 he]
    exact List.mem_cons_self
  | tiers items => exact (List.of_mem_zip he).1
  | keyed entries => cases v <;> cases hv <;> cases hshape

theorem onLadder_of_mem (hv : v.isKeyed = false) (h : ofValue p v = .ok ts) (ht : t ∈ ts) :
    OnLadder t := by
  obtain ⟨stem, shape, hstem, hshape, hentries⟩ := exists_shape h
  obtain ⟨e, he, hof⟩ := hentries t ht
  refine ⟨?_, ?_, Suffix.not_side_of_ofValue hof.suffix⟩
  · rw [hof.mark_eq]
    exact List.mem_map_of_mem (key_mem_tierNames hv hshape e he)
  · rw [hof.stem_eq]
    exact hstem

/-- **Tokens with one text are one token**, whatever the properties and the values that they come
from, as long as these do not name their tiers themselves: the text tells the mark, the stem and the
suffix. -/
theorem eq_of_text_eq (hv : v.isKeyed = false) (hw : w.isKeyed = false)
    (hts : ofValue p v = .ok ts) (hus : ofValue q w = .ok us) (ht : t ∈ ts) (hu : u ∈ us)
    (h : t.text = u.text) : t.mark = u.mark ∧ t.stem = u.stem ∧ t.suffix = u.suffix := by
  obtain rfl := (onLadder_of_mem hv hts ht).eq_of_text (onLadder_of_mem hw hus hu) h
  exact ⟨rfl, rfl, rfl⟩

/-- The second tier of a list and of a tuple, under two names of one property. -/
theorem eq_of_text_eq_marginX :
    ofValue (.text "marginX") (.list [.null, .int 4]) = .ok [⟨"sm:", "mx", "4"⟩] ∧
      ofValue (.text "marginInline") (.tuple [.text "[:-]", .text "4"]) =
        .ok [⟨[], "mx", "[[:-]]"⟩, ⟨"sm:", "mx", "4"⟩] ∧
      ("sm:" : Text) = "sm:" ∧ ("mx" : Text) = "mx" ∧ ("4" : Text) = "4" := by
  have hlist : ofValue (.text "marginX") (.list [.null, .int 4]) =
    .ok [⟨"sm:", "mx", "4"⟩] := rfl
  have htuple : ofValue (.text "marginInline") (.tuple [.text "[:-]", .text "4"]) =
    .ok [⟨[], "mx", "[[:-]]"⟩, ⟨"sm:", "mx", "4"⟩] := rfl
  refine ⟨hlist, htuple, ?_⟩
  exact eq_of_text_eq rfl rfl hlist htuple List.mem_cons_self
    (List.mem_cons_of_mem _ List.mem_cons_self) rfl

end ClassToken

end SpacingClasses
