import SpacingClasses.Text.Spans

/-!
# Lines

A line ends at a line feed, a carriage return or both together, and at each of the other characters
that separate lines or records.  A boundary at the end of a text opens no further line.
-/

namespace SpacingClasses.Text

/-- Whether a line ends at this character. -/
def isLineEnd (c : Char) : Bool :=
  inSpans c.toNat [(0xa, 0xd), (0x1c, 0x1e), (0x85, 0x85), (0x2028, 0x2029)]

/-- The lines of a text, without their ends. -/
def lines : Text → List Text
  | [] => []
  | '\r' :: '\n' :: rest => [] :: lines rest
  | c :: rest =>
    if isLineEnd c then [] :: lines rest
    else
      match lines rest with
      | [] => [[c]]
      | line :: others => (c :: line) :: others

/-- The number of the line, counted by line feeds from one, in which a text stops. -/
def lineNumber (before : Text) : Nat := before.count '\n' + 1

/-- The column, counted from one after the last line feed, at which a text stops. -/
def columnNumber (before : Text) : Nat :=
  (before.reverse.takeWhile (· != '\n')).length + 1

/-- A text read from a file: every line ends with a line feed alone. -/
def normalizeLineEnds : Text → Text
  | [] => []
  | '\r' :: '\n' :: rest => '\n' :: normalizeLineEnds rest
  | c :: rest => (if c = '\r' then '\n' else c) :: normalizeLineEnds rest

end SpacingClasses.Text
