import SpacingClasses.Text.Digit
import SpacingClasses.Proofs.Text.Trim

/-!
# Texts without blanks, and the words of a text

* `Text.Solid t` : no character of the text is blank;
* `Text.words t` : what stands between the blanks of a text;
* `Text.words_joined` : words with a space between them are found again.
-/

namespace SpacingClasses

namespace Text

/-! ### Solid texts -/

/-- No character of the text is blank. -/
def Solid (t : Text) : Prop := ∀ c ∈ t, isBlank c = false

variable {s t : Text} {c : Char}

instance (t : Text) : Decidable (Solid t) :=
  decidable_of_iff (t.all (!isBlank ·) = true) (by simp [Solid])

@[simp] theorem solid_nil : Solid [] := by
  intro c hc
  cases hc

@[simp] theorem solid_cons : Solid (c :: t) ↔ isBlank c = false ∧ Solid t := List.forall_mem_cons

@[simp] theorem solid_append : Solid (s ++ t) ↔ Solid s ∧ Solid t := List.forall_mem_append

theorem solid_flatMap {f : Char → Text} (h : ∀ c ∈ t, Solid (f c)) : Solid (t.flatMap f) := by
  intro c hc
  obtain ⟨d, hd, hc⟩ := List.mem_flatMap.1 hc
  exact h d hd c hc

/-- What is left without the blanks is solid. -/
theorem solid_compact (t : Text) : Solid (compact t) := by
  intro c hc
  simpa using (List.mem_filter.1 hc).2

theorem compact_of_solid (h : Solid t) : compact t = t := by
  rw [compact, List.filter_eq_self]
  intro c hc
  simp [h c hc]

/-- Blanks around a solid text are stripped off. -/
theorem strip_of_solid {x w y : Text} (hx : ∀ c ∈ x, isBlank c = true) (hw : Solid w)
    (hy : ∀ c ∈ y, isBlank c = true) : strip (x ++ (w ++ y)) = w := by
  have hback : (w ++ y).rdropWhile isBlank = w := by
    rw [List.rdropWhile, List.reverse_append, List.dropWhile_append_of_pos (by simpa using hy),
      ← List.rdropWhile, List.rdropWhile_eq_self_iff]
    exact fun hne => by simp [hw _ (List.getLast_mem hne)]
  cases w with
  | nil =>
    rw [strip_eq_nil_iff]
    exact List.forall_mem_append.2 ⟨hx, hy⟩
  | cons c w =>
    have hc := hw c List.mem_cons_self
    rw [strip, trim, List.dropWhile_append_of_pos hx, List.cons_append,
      List.dropWhile_cons_of_neg (by simp [hc])]
    exact hback

/-! ### Joined texts -/

@[simp] theorem joined_nil (separator : Text) : joined separator [] = [] := by
  simp [joined]

@[simp] theorem joined_singleton (separator t : Text) : joined separator [t] = t := by
  simp [joined]

@[simp] theorem joined_cons_cons (separator t u : Text) (us : List Text) :
    joined separator (t :: u :: us) = t ++ (separator ++ joined separator (u :: us)) := by
  simp [joined, List.intercalate]

/-! ### Words -/

/-- The words of a text: what stands between its blanks, if anything does. -/
def words (t : Text) : List Text := (t.splitOnP isBlank).filter (!·.isEmpty)

example : words "  a bc\t\n d" = [['a'], ['b', 'c'], ['d']] := by decide

theorem words_of_solid (h : Solid t) (hne : t ≠ []) : words t = [t] := by
  rw [words, List.splitOnP_eq_singleton h]
  simp [hne]

/-- A word before a blank is the first one. -/
theorem words_append_cons (h : Solid t) (hne : t ≠ []) (hc : isBlank c = true) (rest : Text) :
    words (t ++ c :: rest) = t :: words rest := by
  rw [words, List.splitOnP_append_cons_of_forall_mem h c hc]
  simp [words, hne]

/-- **Words with a space between them** are found again. -/
theorem words_joined {ws : List Text} (h : ∀ w ∈ ws, w ≠ [] ∧ Solid w) :
    words (joined [' '] ws) = ws := by
  induction ws with
  | nil => rfl
  | cons w ws ih =>
    rw [List.forall_mem_cons] at h
    obtain ⟨⟨hne, hw⟩, hws⟩ := h
    cases ws with
    | nil => rw [joined_singleton, words_of_solid hw hne]
    | cons v vs =>
      rw [joined_cons_cons, List.singleton_append, words_append_cons hw hne (by decide), ih hws]

/-- Words with a space between them are the empty text only if there are none. -/
theorem joined_eq_nil_iff {ws : List Text} (h : ∀ w ∈ ws, w ≠ [] ∧ Solid w) :
    joined [' '] ws = [] ↔ ws = [] := by
  constructor
  · intro hnil
    rw [← words_joined h, hnil]
    rfl
  · rintro rfl
    rfl

end Text

end SpacingClasses
