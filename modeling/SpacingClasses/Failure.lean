import SpacingClasses.Path.Obstacle
import SpacingClasses.Report.Basic
import SpacingClasses.Text.Encoding

/-!
# Failures

Why an operation gives no value.  Most causes are told to a person (`Failure.report`); the others
are limits of the number formats and values of a kind that an operation does not take.
-/

namespace SpacingClasses

/-- Why an operation gives no value. -/
inductive Failure where
  /-- Something a person is told. -/
  | report (r : Report)
  /-- An integer has more digits than may be written, or read if their count is given. -/
  | digitLimit (digits : Option Nat)
  /-- A quotient of integers lies beyond the doubles. -/
  | quotientRange
  /-- A scale names a step twice. -/
  | duplicateStep (step : Text)
  /-- Two keys of these kinds have no order. -/
  | unorderedKeys (left right : Text)
  /-- A decimal is ordered against something that is no number. -/
  | undefinedOrder
  /-- A key of this kind has no JSON form. -/
  | unwritableKey (kind : Text)
  /-- A value of this kind has no JSON form. -/
  | unwritable (kind : Text)
  /-- A single value is labelled as something that is converted in no way. -/
  | unsupportedLabel (label : Text)
  /-- A path has the character of code zero in it. -/
  | nullInPath
  /-- A path cannot be followed, or nothing can be read or made at it. -/
  | obstructed (why : Obstacle) (path : Text)
  /-- A text has characters in it that cannot be written to a file. -/
  | unencodable (gap : Encoding.Gap)
  /-- Literals stand in one another too deep for the calls that read them. -/
  | tooDeep
  /-- A field of a note at this level has a name that the note has already. -/
  | nameTwice (level name : Text)
  /-- A value of this kind is asked for a part that it lacks. -/
  | missingPart (kind part : Text)
  deriving DecidableEq, Repr

namespace Failure

/-- The failure in words. -/
def message : Failure → Text
  | report r => r.message
  | digitLimit none =>
    "Exceeds the limit (4300 digits) for integer string conversion; use sys.set_int_max_str_digits() to increase the limit"
  | digitLimit (some digits) =>
    "Exceeds the limit (4300 digits) for integer string conversion: value has " ++
      Text.ofNat digits ++ " digits; use sys.set_int_max_str_digits() to increase the limit"
  | quotientRange => "integer division result too large for a float"
  | duplicateStep step => "Duplicate spacing step '" ++ step ++ "'"
  | unorderedKeys left right =>
    "'<' not supported between instances of '" ++ left ++ "' and '" ++ right ++ "'"
  | undefinedOrder => "[<class 'decimal.InvalidOperation'>]"
  | unwritableKey kind => "keys must be str, int, float, bool or None, not " ++ kind
  | unwritable kind => "Object of type " ++ kind ++ " is not JSON serializable"
  | unsupportedLabel label => "Unsupported spacing value kind: " ++ Text.quoted label
  | nullInPath => "embedded null byte"
  | obstructed why path => why.text ++ ": " ++ Text.quoted path
  | unencodable gap => gap.text
  | tooDeep => "maximum recursion depth exceeded while calling a Python object"
  | nameTwice level name =>
    "LogStore." ++ level ++ "() got multiple values for argument '" ++ name ++ "'"
  | missingPart kind part => "'" ++ kind ++ "' object has no attribute '" ++ part ++ "'"

end Failure

end SpacingClasses
