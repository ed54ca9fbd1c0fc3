import SpacingClasses.Text.Basic

/-!
# Why an attribute is not read

The reader of attribute values stops for one of these reasons; `Reason.text` words it.
-/

namespace SpacingClasses.Attribute

/-- Why the reader stops. -/
inductive Reason where
  /-- The text opens neither a string nor a braced expression. -/
  | notAttribute
  /-- Something follows the value. -/
  | trailing (rest : Text)
  /-- No value starts here. -/
  | expectedValue
  /-- A word that names no literal. -/
  | notLiteral (word : Text)
  /-- No key starts here. -/
  | expectedKey
  /-- A template literal holds an expression. -/
  | dynamicTemplate
  /-- The text ends inside a string. -/
  | unterminated
  /-- A run of number characters that writes no number. -/
  | notNumber (run : Text)
  /-- One character was wanted, and another one or the end was found. -/
  | expected (wanted : Char) (found : Option Char)
  deriving DecidableEq, Repr

/-- The reason in words. -/
def Reason.text : Reason → Text
  | .notAttribute => "Attribute values must be a quoted string or a \x7b...\x7d expression."
  | .trailing rest => "Unexpected text '" ++ rest ++ "' after the attribute value."
  | .expectedValue => "Expected a value."
  | .notLiteral word => "'" ++ word ++ "' is not a literal value."
  | .expectedKey => "Expected an object key."
  | .dynamicTemplate => "Template literals with $\x7b...\x7d are not static values."
  | .unterminated => "Unterminated string."
  | .notNumber run => "'" ++ run ++ "' is not a number."
  | .expected wanted found =>
    "Expected '" ++ [wanted] ++ "' but found '" ++
      (match found with
        | some c => [c]
        | none => "end of text".toList) ++ "'."

end SpacingClasses.Attribute
