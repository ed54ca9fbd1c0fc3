import SpacingClasses.Text.Spans

/-!
# Blank characters

The characters that count as white space: the spaces and separators of Unicode, and the control
characters that break lines or separate records.
-/

namespace SpacingClasses.Text

/-- The spans of the blank characters. -/
def blankSpans : List (Nat × Nat) :=
  [(0x9, 0xd), (0x1c, 0x20), (0x85, 0x85), (0xa0, 0xa0), (0x1680, 0x1680), (0x2000, 0x200a),
    (0x2028, 0x2029), (0x202f, 0x202f), (0x205f, 0x205f), (0x3000, 0x3000)]

/-- Whether a character is blank. -/
def isBlank (c : Char) : Bool := inSpans c.toNat blankSpans

/-- The text without the blanks at its ends. -/
def strip (t : Text) : Text := trim isBlank t

/-- The text without any blank. -/
def compact (t : Text) : Text := t.filter (!isBlank ·)

/-- The text without the blanks at its front. -/
def skipBlanks (t : Text) : Text := t.dropWhile isBlank

end SpacingClasses.Text
