import SpacingClasses.Text.Lines
import Mathlib.Data.List.Infix

/-!
# Rows of characters of one class

* `Text.HasRow p n t` : somewhere in the text `t` at least `n` characters of the class `p` follow
  one another;
* `Text.HasRow.of_part`, `Text.HasRow.imp` : a row in a part of a text is one in the text, and a
  row of one class is one of any wider class;
* `Text.HasRow.of_normalizeLineEnds` : line ends are in no row, so that it matters not how they are
  written.
-/

namespace SpacingClasses

namespace Text

/-- Somewhere in the text at least so many characters of a class follow one another. -/
def HasRow (p : Char → Bool) (n : Nat) (t : Text) : Prop :=
  ∃ row, row <:+: t ∧ n ≤ row.length ∧ ∀ c ∈ row, p c = true

variable {p q : Char → Bool} {n : Nat} {s t : Text}

/-- There is no row in a text that is shorter. -/
theorem HasRow.le_length (h : HasRow p n t) : n ≤ t.length := by
  obtain ⟨row, hrow, hlong, -⟩ := h
  exact hlong.trans hrow.length_le

theorem HasRow.of_part (h : HasRow p n s) (hs : s <:+: t) : HasRow p n t := by
  obtain ⟨row, hrow, hn, hp⟩ := h
  exact ⟨row, hrow.trans hs, hn, hp⟩

theorem HasRow.imp (h : HasRow p n t) (hpq : ∀ c, p c = true → q c = true) : HasRow q n t := by
  obtain ⟨row, hrow, hn, hp⟩ := h
  exact ⟨row, hrow, hn, fun c hc => hpq c (hp c hc)⟩

theorem prefix_of_normalizeLineEnds {row : Text} (h : row <+: normalizeLineEnds t)
    (hrow : '\n' ∉ row) : row <+: t := by
  fun_induction normalizeLineEnds t generalizing row with
  | case1 => exact h
  | case2 t ih =>
    cases row with
    | nil => exact List.nil_prefix
    | cons c row => exact absurd (List.cons_prefix_cons.1 h).1.symm (List.ne_of_not_mem_cons hrow)
  | case3 c t hc ih =>
    cases row with
    | nil => exact List.nil_prefix
    | cons d row =>
      obtain ⟨hd, h⟩ := List.cons_prefix_cons.1 h
      split at hd
      · exact absurd hd.symm (List.ne_of_not_mem_cons hrow)
      · exact List.cons_prefix_cons.2 ⟨hd, ih h (List.not_mem_of_not_mem_cons hrow)⟩

theorem infix_of_normalizeLineEnds {row : Text} (h : row <:+: normalizeLineEnds t)
    (hrow : '\n' ∉ row) : row <:+: t := by
  -- a row at the front is one by the lemma above; any other is in what follows
  fun_induction normalizeLineEnds t with
  | case1 => exact h
  | case2 t ih =>
    rcases List.infix_cons_iff.1 h with h | h
    · refine (prefix_of_normalizeLineEnds (t := '\r' :: '\n' :: t) ?_ hrow).isInfix
      rwa [normalizeLineEnds]
    · exact (ih h).trans ((List.suffix_cons _ t).trans (List.suffix_cons _ _)).isInfix
  | case3 c t hc ih =>
    rcases List.infix_cons_iff.1 h with h | h
    · refine (prefix_of_normalizeLineEnds (t := c :: t) ?_ hrow).isInfix
      rwa [normalizeLineEnds.eq_3 c t hc]
    · exact (ih h).trans (List.suffix_cons c t).isInfix

/-- Line ends are in no row of a class without the line feed. -/
theorem HasRow.of_normalizeLineEnds (h : HasRow p n (normalizeLineEnds t))
    (hp : p '\n' = false) : HasRow p n t := by
  obtain ⟨row, hrow, hn, hchars⟩ := h
  refine ⟨row, infix_of_normalizeLineEnds hrow fun hmem => ?_, hn, hchars⟩
  exact Bool.false_ne_true (hp.symm.trans (hchars _ hmem))

end Text

end SpacingClasses
