import SpacingClasses.Text.Printable

/-!
# Quoted forms

How a text or a row of bytes is shown inside a message: in single quotes, or in double quotes when
it holds a single quote and no double one, with every character that cannot be shown written by
its code.
-/

namespace SpacingClasses.Text

/-- The quote that encloses these characters. -/
def chooseQuote (t : Text) : Char :=
  if t.contains '\'' && !t.contains '"' then '"' else '\''

/-- The code of a character that cannot be shown. -/
def codeEscape (n : Nat) : Text :=
  if n < 0x100 then '\\' :: 'x' :: hex 2 n
  else if n < 0x10000 then '\\' :: 'u' :: hex 4 n
  else '\\' :: 'U' :: hex 8 n

/-- One character of a quoted text. -/
def quoteChar (quote c : Char) : Text :=
  if c = quote || c = '\\' then ['\\', c]
  else if c = '\t' then ['\\', 't']
  else if c = '\n' then ['\\', 'n']
  else if c = '\r' then ['\\', 'r']
  else if isPrintable c then [c]
  else codeEscape c.toNat

/-- A text in quotes, fit to be shown on one line. -/
def quoted (t : Text) : Text :=
  chooseQuote t :: (t.flatMap (quoteChar (chooseQuote t)) ++ [chooseQuote t])

/-- One byte of a quoted row of bytes. -/
def quoteByte (quote : Char) (b : UInt8) : Text :=
  if 127 ≤ b.toNat then codeEscape b.toNat else quoteChar quote (Char.ofNat b.toNat)

/-- A row of bytes in quotes, after the mark `b`. -/
def quotedBytes (bs : List UInt8) : Text :=
  let quote := chooseQuote (bs.map fun b => Char.ofNat b.toNat)
  'b' :: quote :: (bs.flatMap (quoteByte quote) ++ [quote])

end SpacingClasses.Text
