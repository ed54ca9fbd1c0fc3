import SpacingClasses.Text.Blank
import Mathlib.Data.List.TakeWhile

/-!
# Runs of characters

How a text starts, said without a reader.

* `Text.MaximalRun p t run rest` : the text `t` is a run of characters of the class `p`, which no
  further character of the class follows, and then `rest`;
* `Text.Blanks t rest` : the text `t` is `rest` after any number of blanks;
* `Text.has_eq_true_iff` : a text has a part when the part is an infix of it.

A maximal run is what `takeWhile` and `dropWhile` cut off (`maximalRun_iff`).  Blanks need not be
maximal, but before a character that is none they are what `skipBlanks` drops (`Blanks.skip_eq`).
-/

namespace SpacingClasses

namespace Text

/-- The text starts with a run of characters of a class, as long as can be. -/
structure MaximalRun (p : Char → Bool) (t run rest : Text) : Prop where
  split : t = run ++ rest
  all : ∀ c ∈ run, p c = true
  stops : ∀ c ∈ rest.head?, p c = false

/-- Any number of blanks at the front of a text, and what follows them. -/
def Blanks (t rest : Text) : Prop := ∃ s, t = s ++ rest ∧ ∀ c ∈ s, isBlank c = true

variable {p : Char → Bool} {t run rest : Text}

/-! ### Maximal runs -/

theorem maximalRun_span (p : Char → Bool) (t : Text) :
    MaximalRun p t (t.takeWhile p) (t.dropWhile p) := by
  refine ⟨List.takeWhile_append_dropWhile.symm, fun c hc => List.mem_takeWhile_imp hc, ?_⟩
  intro c hc
  have h := List.head?_dropWhile_not p t
  rw [Option.mem_def.1 hc] at h
  exact h

theorem MaximalRun.takeWhile_eq (h : MaximalRun p t run rest) : t.takeWhile p = run := by
  rw [h.split, List.takeWhile_append_of_pos h.all]
  cases hr : rest with
  | nil => simp
  | cons c r => simp [h.stops c (by simp [hr])]

theorem MaximalRun.dropWhile_eq (h : MaximalRun p t run rest) : t.dropWhile p = rest := by
  rw [h.split, List.dropWhile_append_of_pos h.all]
  cases hr : rest with
  | nil => simp
  | cons c r => simp [h.stops c (by simp [hr])]

/-- There is one maximal run at the front of a text. -/
theorem maximalRun_iff : MaximalRun p t run rest ↔ t.takeWhile p = run ∧ t.dropWhile p = rest := by
  constructor
  · intro h
    exact ⟨h.takeWhile_eq, h.dropWhile_eq⟩
  · rintro ⟨rfl, rfl⟩
    exact maximalRun_span p t

theorem MaximalRun.length_lt (h : MaximalRun p t run rest) (hne : run ≠ []) :
    rest.length < t.length := by
  have := List.length_pos_iff.2 hne
  rw [h.split, List.length_append]
  omega

/-- A run that is not empty starts with the first character of the text. -/
theorem MaximalRun.head?_eq (h : MaximalRun p t run rest) (hne : run ≠ []) :
    t.head? = run.head? := by
  obtain ⟨c, r, rfl⟩ := List.exists_cons_of_ne_nil hne
  rw [h.split]
  rfl

theorem ne_nil_of_head? {P : Char → Prop} (h : ∃ c ∈ run.head?, P c) : run ≠ [] := by
  rintro rfl
  simp at h

/-! ### Blanks -/

theorem blanks_skipBlanks (t : Text) : Blanks t (skipBlanks t) :=
  ⟨t.takeWhile isBlank, List.takeWhile_append_dropWhile.symm, fun _ hc => List.mem_takeWhile_imp hc⟩

theorem Blanks.refl (t : Text) : Blanks t t := ⟨[], rfl, by simp⟩

theorem Blanks.skip_eq (h : Blanks t rest) (hr : ∀ c ∈ rest.head?, isBlank c = false) :
    skipBlanks t = rest := by
  obtain ⟨s, hs, hall⟩ := h
  exact MaximalRun.dropWhile_eq ⟨hs, hall, hr⟩

theorem Blanks.length_le (h : Blanks t rest) : rest.length ≤ t.length := by
  obtain ⟨s, rfl, -⟩ := h
  simp

theorem skipBlanks_head? (t : Text) : ∀ c ∈ (skipBlanks t).head?, isBlank c = false :=
  (maximalRun_span isBlank t).stops

@[simp] theorem skipBlanks_skipBlanks (t : Text) : skipBlanks (skipBlanks t) = skipBlanks t :=
  (Blanks.refl _).skip_eq (skipBlanks_head? t)

/-- What follows a character that is no blank is found behind blanks by skipping them. -/
theorem Blanks.skip_cons {c : Char} (h : Blanks t (c :: rest)) (hc : isBlank c = false) :
    skipBlanks t = c :: rest :=
  h.skip_eq (by simp [hc])

theorem Blanks.skip_nil (h : Blanks t []) : skipBlanks t = [] := h.skip_eq (by simp)

/-! ### Parts -/

theorem has_eq_true_iff {part t : Text} : has part t = true ↔ part <:+: t := by
  induction t with
  | nil => simp [has, List.isEmpty_iff]
  | cons c t ih => simp [has, ih, List.infix_cons_iff]

end Text

end SpacingClasses
