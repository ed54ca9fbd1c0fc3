import SpacingClasses.Proofs.Text.Run
import SpacingClasses.Report.Notice

/-!
# Notices against a text

* `Notice.caretLines line indent` : two more lines, one of a source and a caret under one of its
  places;
* `Notice.render_text` : a notice with a line and a column is shown with the line under its number,
  if the text has as many, and the caret does not leave it by more than one place;
* `Notice.caretLines_injective` : the two lines tell which line and which place they show.
-/

namespace SpacingClasses

namespace Notice

/-- A line of a source, and a caret pushed in under it. -/
def caretLines (line : Text) (indent : Nat) : Text :=
  "\n" ++ line ++ "\n" ++ List.replicate indent ' ' ++ "^"

variable {n : Notice} {line line' : Text} {number place indent indent' : Nat}

theorem caretIndent_eq (place : Nat) (line : Text) :
    caretIndent (some ((place + 1 : Nat) : Int)) line = min place line.length := by
  simp only [caretIndent, Option.getD_some]
  omega

theorem lineOf?_eq (t : Text) (number : Nat) :
    lineOf? t ((number + 1 : Nat) : Int) = (Text.lines t)[number]? := by
  rw [lineOf?, if_pos (by omega)]
  congr 1
  omega

/-- A notice is shown with the line under its number and a caret under its column. -/
theorem render_text (hline : n.line = some ((number + 1 : Nat) : Int))
    (hcolumn : n.column = some ((place + 1 : Nat) : Int)) (t : Text) :
    n.render (.text t) =
      (Text.lines t)[number]?.elim n.text fun line =>
        n.text ++ caretLines line (min place line.length) := by
  rw [render, hline, Option.bind_some, Source.textFor, lineOf?_eq]
  cases (Text.lines t)[number]? with
  | none => rfl
  | some line =>
    simp only [Option.elim_some, hcolumn, caretIndent_eq, Source.heading, caretLines,
      List.nil_append, List.append_assoc]

theorem append_caretLines_ne (said line : Text) (indent : Nat) :
    said ++ caretLines line indent ≠ said := by
  simp [caretLines]

/-- Lines without line feeds are told apart by what is shown of them. -/
theorem caretLines_injective (hline : '\n' ∉ line) (hline' : '\n' ∉ line')
    (h : caretLines line indent = caretLines line' indent') : line = line' ∧ indent = indent' := by
  have hrun : ∀ l : Text, '\n' ∉ l → ∀ rest : Text,
      Text.MaximalRun (· != '\n') (l ++ '\n' :: rest) l ('\n' :: rest) := by
    intro l hl rest
    refine ⟨rfl, fun c hc => ?_, by simp⟩
    rw [bne_iff_ne]
    rintro rfl
    exact hl hc
  have htail : line ++ '\n' :: (List.replicate indent ' ' ++ ['^']) =
      line' ++ '\n' :: (List.replicate indent' ' ' ++ ['^']) := by
    simpa [caretLines] using h
  have heq : line = line' := by
    rw [← (hrun line hline _).takeWhile_eq, htail, (hrun line' hline' _).takeWhile_eq]
  subst heq
  have hlength := congrArg List.length (List.append_cancel_left htail)
  simp only [List.length_cons, List.length_append, List.length_replicate] at hlength
  exact ⟨rfl, by omega⟩

end Notice

end SpacingClasses
