import SpacingClasses.Proofs.Text.Run
import Mathlib.Data.List.DropRight

/-!
# Texts without blanks

What is left of a text without the blanks at its ends, or without any.

* `trim_eq_self`, `mem_trim` : what is not to be dropped is left;
* `strip_eq_nil_iff` : nothing is left of a text exactly if all its characters are blank;
* `strip_cons` : what starts with no blank keeps its start;
* `strip_between`, `exists_strip` : what stands between blanks is left;
* `compact_cons`, `compact_concat` : a character that is no blank stays where it is.
-/

namespace SpacingClasses

namespace Text

variable {p : Char → Bool} {t : Text} {c : Char}

/-! ### Stripped texts -/

theorem trim_eq_nil_iff : trim p t = [] ↔ ∀ c ∈ t, p c = true := by
  rw [trim, List.reverse_eq_nil_iff, List.dropWhile_eq_nil_iff]
  simp only [List.mem_reverse]
  constructor
  · intro h c hc
    rw [← List.takeWhile_append_dropWhile (p := p) (l := t), List.mem_append] at hc
    rcases hc with hc | hc
    · exact List.mem_takeWhile_imp hc
    · exact h c hc
  · intro h c hc
    exact h c ((List.dropWhile_sublist p).subset hc)

/-- A text with nothing to drop is left as it is. -/
theorem trim_eq_self (h : ∀ c ∈ t, p c = false) : trim p t = t := by
  have hfront (s : Text) (hs : ∀ c ∈ s, p c = false) : s.dropWhile p = s := by
    cases s with
    | nil => rfl
    | cons c s => exact List.dropWhile_cons_of_neg (by simp [hs c List.mem_cons_self])
  rw [trim, hfront t h, hfront t.reverse (by simpa using h), List.reverse_reverse]

/-- What is not to be dropped is kept. -/
theorem mem_trim (hmem : c ∈ t) (hc : p c = false) : c ∈ trim p t := by
  have hfront {s : Text} (hs : c ∈ s) : c ∈ s.dropWhile p := by
    rw [← List.takeWhile_append_dropWhile (p := p) (l := s), List.mem_append] at hs
    rcases hs with hs | hs
    · rw [List.mem_takeWhile_imp hs] at hc
      cases hc
    · exact hs
  rw [trim, List.mem_reverse]
  exact hfront (List.mem_reverse.2 (hfront hmem))

theorem strip_eq_nil_iff : strip t = [] ↔ ∀ c ∈ t, isBlank c = true := trim_eq_nil_iff

/-- A character that can be seen makes a text more than blanks. -/
theorem not_blank_of_mem (hmem : c ∈ t) (hc : isBlank c = false) : ¬ ∀ c ∈ t, isBlank c = true := by
  intro h
  rw [h c hmem] at hc
  cases hc

theorem not_blank_of_all (h : t.all isBlank = false) : ¬ ∀ c ∈ t, isBlank c = true := by
  rw [← List.all_eq_true, h]
  exact Bool.false_ne_true

/-- What is dropped at the end of a text goes no further back than a character to keep. -/
theorem exists_dropWhile_concat (hc : p c = false) (t : Text) :
    ∃ s, (t ++ [c]).dropWhile p = s ++ [c] := by
  induction t with
  | nil => exact ⟨[], by simp [hc]⟩
  | cons d t ih =>
    obtain ⟨s, hs⟩ := ih
    by_cases hd : p d = true
    · exact ⟨s, by simp [hd, hs]⟩
    · exact ⟨d :: t, by simp [hd]⟩

theorem strip_cons (hc : isBlank c = false) (t : Text) : ∃ s, strip (c :: t) = c :: s := by
  obtain ⟨s, hs⟩ := exists_dropWhile_concat hc t.reverse
  refine ⟨s.reverse, ?_⟩
  rw [strip, trim, List.dropWhile_cons_of_neg (by simp [hc]), List.reverse_cons, hs,
    List.reverse_append]
  rfl

/-- What stands between blanks is left, if it starts and ends with no blank. -/
theorem strip_between {r : Text} {d : Char} (ht : ∀ x ∈ t, isBlank x = true)
    (hr : ∀ x ∈ r, isBlank x = true) (hc : isBlank c = false) (hd : isBlank d = false)
    (inside : Text) : strip (t ++ c :: (inside ++ d :: r)) = c :: (inside ++ [d]) := by
  have hback : (c :: (inside ++ d :: r)).reverse = r.reverse ++ d :: (c :: inside).reverse := by
    simp
  rw [strip, trim, List.dropWhile_append_of_pos ht, List.dropWhile_cons_of_neg (by simp [hc]), hback,
    List.dropWhile_append_of_pos (by simpa using hr), List.dropWhile_cons_of_neg (by simp [hd])]
  simp

/-- A text is what is left of it between blanks. -/
theorem exists_strip (t : Text) : ∃ x y, t = x ++ (strip t ++ y) ∧ (∀ c ∈ x, isBlank c = true) ∧
    ∀ c ∈ y, isBlank c = true := by
  refine ⟨t.takeWhile isBlank, (t.dropWhile isBlank).rtakeWhile isBlank, ?_,
    fun c hc => List.mem_takeWhile_imp hc, fun c hc => List.mem_rtakeWhile_imp hc⟩
  have hback : strip t ++ (t.dropWhile isBlank).rtakeWhile isBlank = t.dropWhile isBlank :=
    List.rdropWhile_append_rtakeWhile
  rw [hback, List.takeWhile_append_dropWhile]

/-! ### Compact texts -/

theorem compact_cons (hc : isBlank c = false) (t : Text) :
    compact (c :: t) = c :: compact t := by
  rw [compact, List.filter_cons_of_pos (by simp [hc])]
  rfl

theorem compact_concat (hc : isBlank c = false) (t : Text) :
    compact (t ++ [c]) = compact t ++ [c] := by
  rw [compact, List.filter_append, List.filter_cons_of_pos (by simp [hc])]
  rfl

end Text

end SpacingClasses
