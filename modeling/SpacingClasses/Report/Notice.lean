import SpacingClasses.Text.Lines

/-!
# Notices

A notice is a message with the place in a source that it speaks of.  `Notice.render` shows the
line of the source under the message, and a caret under the column.
-/

namespace SpacingClasses

/-- A message, and where in which file. -/
structure Notice where
  message : Text
  line : Option Int := none
  column : Option Int := none
  file : Option Text := none
  deriving DecidableEq, Repr

namespace Notice

/-- A whole number in base ten. -/
def number : Int → Text
  | .ofNat n => Text.ofNat n
  | .negSucc n => '-' :: Text.ofNat (n + 1)

/-- The message after its place. -/
def text (n : Notice) : Text :=
  match n.line, n.column with
  | none, _ => n.message
  | some line, none => "[line " ++ number line ++ "] " ++ n.message
  | some line, some column =>
    "[line " ++ number line ++ ", col " ++ number column ++ "] " ++ n.message

/-- What a notice may be shown against. -/
inductive Source where
  | nothing
  | text (t : Text)
  | files (files : List (Text × Text))
  deriving DecidableEq, Repr

/-- The file a notice names; the empty name names none. -/
def namedFile? (n : Notice) : Option Text := n.file.filter (!·.isEmpty)

/-- The text a notice is shown against: of several files the one it names, else the first. -/
def Source.textFor (n : Notice) : Source → Text
  | nothing => []
  | text t => t
  | files fs =>
    match n.namedFile?.bind fun name => fs.lookup name with
    | some t => t
    | none => (fs.head?.map (·.2)).getD []

/-- The heading that names the file, for a source of several files. -/
def Source.heading (n : Notice) : Source → Text
  | files _ =>
    match n.namedFile? with
    | some name => "File: " ++ name ++ "\n"
    | none => []
  | _ => []

/-- How far a caret is pushed in to stand under a column of a line, which it never leaves by more
than one place. -/
def caretIndent (column : Option Int) (line : Text) : Nat :=
  (max 1 (min (column.getD 1) (line.length + 1)) - 1).toNat

/-- The line of a source with a number counted from one. -/
def lineOf? (source : Text) (number : Int) : Option Text :=
  if 1 ≤ number then (Text.lines source)[(number - 1).toNat]? else none

/-- The notice with the line it speaks of and a caret under the column, as far as the source has
that line. -/
def render (n : Notice) (source : Source) : Text :=
  match n.line.bind (lineOf? (source.textFor n)) with
  | none => n.text
  | some line =>
    source.heading n ++ n.text ++ "\n" ++ line ++ "\n" ++
      List.replicate (caretIndent n.column line) ' ' ++ "^"

end Notice

end SpacingClasses
