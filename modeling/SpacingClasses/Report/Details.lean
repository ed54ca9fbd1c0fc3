import SpacingClasses.Value.Display
import SpacingClasses.Value.Key

/-!
# Errors with details

An error of the program may carry details of any kind.  Only of a dictionary are they asked for the
file that the error lies in, and what stands there need not be a text.

* `Value.isFilled` tells whether a value counts as one that is given;
* `Detailed.render` shows an error against a source as `Notice.render` does, with the file of its
  details.
-/

namespace SpacingClasses

/-- Whether a value counts as given: nothing, a zero and what is empty do not. -/
def Value.isFilled : Value → Bool
  | null => false
  | bool b => b
  | int n => n != 0
  | float x => !x.isZero
  | decimal (.finite _ coefficient _) => coefficient != 0
  | text t => !t.isEmpty
  | bytes bs => !bs.isEmpty
  | list items | tuple items => !items.isEmpty
  | dict entries => !entries.isEmpty
  | _ => true

/-- An error: a message, its place, and what else is known of it. -/
structure Detailed where
  message : Text
  line : Option Int := none
  column : Option Int := none
  details : Value := .null

namespace Detailed

/-- The key of the file that the error lies in. -/
def fileKey : Text := "file"

/-- The error as a notice, with the name of a file. -/
def notice (e : Detailed) (file : Option Text) : Notice := ⟨e.message, e.line, e.column, file⟩

/-- What the details have for the file.  Details that are no dictionary cannot be asked, if they count
as given. -/
def file? (e : Detailed) : Except Failure (Option Value) :=
  match e.details with
  | .dict entries => .ok ((Value.find? entries fileKey).filter Value.isFilled)
  | v => if v.isFilled then .error (.missingPart v.fullKind "get") else .ok none

/-- The error with its line in one of several files: the file that it names, or else the first.  What is
no text is the name of none of them, and it is displayed only if there is a line to show. -/
def renderIn (e : Detailed) (files : List (Text × Text)) : Except Failure Text := do
  match ← e.file? with
  | none => return (e.notice none).render (.files files)
  | some (.text name) => return (e.notice (some name)).render (.files files)
  | some v =>
    let first : Notice.Source := .files (files.take 1)
    let bare := e.notice none
    match bare.line.bind (Notice.lineOf? (first.textFor bare)) with
    | none => return bare.text
    | some _ => return (e.notice (some (← v.display))).render first

/-- The error with the line that it speaks of and a caret under the column. -/
def render (e : Detailed) (source : Notice.Source) : Except Failure Text :=
  match source, e.line with
  | .files files, some _ => e.renderIn files
  | _, _ => .ok ((e.notice none).render source)

example : (⟨"m", some 1, none, .dict [(.text "file", .int 7)]⟩ : Detailed).render
    (.files [("a", "x"), ("7", "y")]) = .ok "File: 7\n[line 1] m\nx\n^" := by rfl

end Detailed

end SpacingClasses
