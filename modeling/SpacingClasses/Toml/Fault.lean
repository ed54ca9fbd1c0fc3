import SpacingClasses.Text.Lines
import SpacingClasses.Text.Quoted

/-!
# Faults of a TOML document

What is wrong with a document, in words and with the place of the fault.
-/

namespace SpacingClasses.Toml

/-- The parts of a dotted key. -/
abbrev Key := List Text

/-- A key as it is shown in a message. -/
def Key.shown : Key → Text
  | [part] => "(" ++ Text.quoted part ++ ",)"
  | parts => "(" ++ Text.joined ", " (parts.map Text.quoted) ++ ")"

/-- What is wrong with a document. -/
inductive Fault where
  | invalidStatement
  | expectedLineEnd
  | expectedText (wanted : Text)
  | invalidCharacter (c : Char)
  | declaredTwice (key : Key)
  | overwritten
  | expectedTableEnd
  | expectedArrayEnd
  | immutable (key : Key)
  | redefined (key : Key)
  | expectedEquals
  | badKeyStart
  | unclosedArray
  | unclosedTable
  | duplicateKey (part : Text)
  | strayBackslash
  | badHexadecimal
  | notScalarValue
  | unterminated
  | illegalCharacter (c : Char)
  | invalidDate
  | invalidValue
  deriving DecidableEq, Repr

/-- The fault in words. -/
def Fault.text : Fault → Text
  | invalidStatement => "Invalid statement"
  | expectedLineEnd => "Expected newline or end of document after a statement"
  | expectedText wanted => "Expected " ++ Text.quoted wanted
  | invalidCharacter c => "Found invalid character " ++ Text.quoted [c]
  | declaredTwice key => "Cannot declare " ++ key.shown ++ " twice"
  | overwritten => "Cannot overwrite a value"
  | expectedTableEnd => "Expected ']' at the end of a table declaration"
  | expectedArrayEnd => "Expected ']]' at the end of an array declaration"
  | immutable key => "Cannot mutate immutable namespace " ++ key.shown
  | redefined key => "Cannot redefine namespace " ++ key.shown
  | expectedEquals => "Expected '=' after a key in a key/value pair"
  | badKeyStart => "Invalid initial character for a key part"
  | unclosedArray => "Unclosed array"
  | unclosedTable => "Unclosed inline table"
  | duplicateKey part => "Duplicate inline table key " ++ Text.quoted part
  | strayBackslash => "Unescaped '\\' in a string"
  | badHexadecimal => "Invalid hex value"
  | notScalarValue => "Escaped character is not a Unicode scalar value"
  | unterminated => "Unterminated string"
  | illegalCharacter c => "Illegal character " ++ Text.quoted [c]
  | invalidDate => "Invalid date or datetime"
  | invalidValue => "Invalid value"

/-- The place in a document where some of it is left. -/
def placeText (document : Text) (remaining : Nat) : Text :=
  if remaining = 0 then "end of document"
  else
    let before := document.take (document.length - remaining)
    "line " ++ Text.ofNat (Text.lineNumber before) ++ ", column " ++
      Text.ofNat (Text.columnNumber before)

end SpacingClasses.Toml
