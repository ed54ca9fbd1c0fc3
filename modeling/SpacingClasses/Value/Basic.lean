import SpacingClasses.Number.Decimal
import SpacingClasses.Value.Moment

/-!
# Values

What a spacing prop may hold, what a JSON file, an attribute or a settings file is read as, and
what a log event carries.  The last three constructors hold a value whose responsive shape has been
settled; `Value.prop` is a prop that a scanner has found.
-/

namespace SpacingClasses

/-- A value. -/
inductive Value where
  | null
  | bool (b : Bool)
  | int (n : Int)
  | float (x : Double)
  | decimal (d : Decimal)
  | text (t : Text)
  | bytes (bs : List UInt8)
  | moment (m : Moment)
  | list (items : List Value)
  | tuple (items : List Value)
  /-- Entries in order, no two with the same key. -/
  | dict (entries : List (Value × Value))
  /-- One value for all tiers, under a label. -/
  | scalar (value : Value) (label : Text)
  /-- One value for each tier. -/
  | sequence (items : List Value)
  /-- One value for each named tier; a name may come twice. -/
  | keyed (entries : List (Text × Value))
  /-- A prop with its name, its value, and the source text that takes its place. -/
  | prop (name : Text) (value : Value) (raw : Option Text)
  deriving Repr

instance : Inhabited Value := ⟨.null⟩

namespace Value

/-- The name of the kind of single values, as messages give it. -/
def scalarKind : Text := "ScalarValue"

/-- The name of a value's kind, as messages give it. -/
def kind : Value → Text
  | null => "NoneType"
  | bool _ => "bool"
  | int _ => "int"
  | float _ => "float"
  | decimal _ => "Decimal"
  | text _ => "str"
  | bytes _ => "bytes"
  | moment (.date _) => "date"
  | moment (.time _) => "time"
  | moment (.dateTime ..) => "datetime"
  | list _ => "list"
  | tuple _ => "tuple"
  | dict _ => "dict"
  | scalar .. => scalarKind
  | sequence _ => "SequenceValue"
  | keyed _ => "KeyedValue"
  | prop .. => "ExtractedProp"

/-- The name of a value's kind with the library in front that a kind outside the core comes from. -/
def fullKind : Value → Text
  | decimal d => "decimal." ++ kind (decimal d)
  | moment m => "datetime." ++ kind (moment m)
  | v => v.kind

/-- The label of a value that is meant to be single. -/
def singleLabel : Text := "scalar"

/-- A dictionary from names to values. -/
def record (fields : List (Text × Value)) : Value :=
  dict (fields.map fun (name, v) => (text name, v))

/-- Whether there is no value. -/
def isNull : Value → Bool
  | null => true
  | _ => false

/-- A number that is not a truth value, of any size if whole, and finite. -/
def isNumber : Value → Bool
  | int _ => true
  | float x => x.isFinite
  | _ => false

end Value

end SpacingClasses
