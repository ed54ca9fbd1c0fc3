import SpacingClasses.Breakpoint
import SpacingClasses.Property
import SpacingClasses.Suffix

/-!
# Class tokens

A value takes one of three shapes: single, a list with a place for each tier, or entries under
names of tiers.  `ClassToken.ofValue` gives the class names of a property with such a value, one
for each tier that has a suffix.
-/

namespace SpacingClasses

/-- A value whose shape has been settled. -/
inductive Shape where
  /-- One value, under a label. -/
  | single (value : Value) (label : Text)
  /-- One value for each tier, where nothing leaves the tier out. -/
  | tiers (items : List Value)
  /-- Values under names, in order. -/
  | keyed (entries : List (Text × Value))
  deriving Repr

namespace Shape

/-- The entries of a dictionary under texts. -/
def displayKeys : List (Value × Value) → Except Failure (List (Text × Value))
  | [] => .ok []
  | (k, v) :: rest => do return (← k.display, v) :: (← displayKeys rest)

/-- The shape of a value. -/
def ofValue : Value → Except Failure Shape
  | .scalar value label => .ok (single value label)
  | .sequence items => .ok (tiers items)
  | .keyed entries => .ok (keyed entries)
  | .list items => .ok (tiers items)
  | .tuple items => .ok (tiers items)
  | .dict entries => do return keyed (← displayKeys entries)
  | v => .ok (single v Value.singleLabel)

/-- The shape as a value. -/
def toValue : Shape → Value
  | single value label => .scalar value label
  | tiers items => .sequence items
  | keyed entries => .keyed entries

end Shape

/-- A class name in its parts. -/
structure ClassToken where
  mark : Text
  stem : Text
  suffix : Text
  deriving DecidableEq, Repr

namespace ClassToken

/-- The class name. -/
def text (t : ClassToken) : Text := t.mark ++ t.stem ++ '-' :: t.suffix

/-- Whether the size is a literal in brackets. -/
def isFallback (t : ClassToken) : Bool := Suffix.isBracketed t.suffix

/-- The token of one value on one tier, if the value has a suffix. -/
def ofTier (stem mark : Text) (value : Value) : Except Failure (List ClassToken) := do
  let suffix ← Suffix.ofValue value
  return if suffix.isEmpty then [] else [⟨mark, stem, suffix⟩]

/-- The tokens of the values from a position on. -/
def ofTiers (stem : Text) (position : Nat) : List Value → Except Failure (List ClassToken)
  | [] => .ok []
  | v :: rest =>
    if v.isNull then ofTiers stem (position + 1) rest
    else
      match Breakpoint.ladderMark? position with
      | none => .ok []
      | some mark => do return (← ofTier stem mark v) ++ (← ofTiers stem (position + 1) rest)

/-- The tokens of values under names. -/
def ofEntries (stem : Text) : List (Text × Value) → Except Failure (List ClassToken)
  | [] => .ok []
  | (key, v) :: rest => do
    return (← ofTier stem (Breakpoint.keyMark key) v) ++ (← ofEntries stem rest)

/-- The tokens of a shape. -/
def ofShape (stem : Text) : Shape → Except Failure (List ClassToken)
  | .tiers items => ofTiers stem 0 items
  | .keyed entries => ofEntries stem entries
  | .single value label =>
    if label = Value.singleLabel then ofTier stem [] value
    else if label = ("sequence" : Text) then .error (.missingPart Value.scalarKind "items")
    else if label = ("keyed" : Text) then .error (.missingPart Value.scalarKind "entries")
    else .error (.unsupportedLabel label)

/-- The tokens of a property with a value. -/
def ofValue (property value : Value) : Except Failure (List ClassToken) := do
  let stem ← Property.stemOfValue property
  ofShape stem (← Shape.ofValue value)

theorem ofValue_of_stem {name stem : Text} (hstem : Property.stem? name = some stem)
    (value : Value) :
    ofValue (.text name) value = Shape.ofValue value >>= ofShape stem := by
  simp only [ofValue, Property.stemOfValue, Property.stem, hstem]
  rfl

end ClassToken

/-- The class names of a property with a value. -/
def spacingClasses (property value : Value) : Except Failure (List Text) := do
  return (← ClassToken.ofValue property value).map ClassToken.text

/-- The class names of a property with a value, in one text. -/
def convertSpacing (property value : Value) : Except Failure Text := do
  return Text.joined [' '] (← spacingClasses property value)

/-- The entries of a list past the last tier, which have no class. -/
def overflowEntries (value : Value) : Except Failure (List Value) := do
  match ← Shape.ofValue value with
  | .tiers items => return (items.drop Breakpoint.ladder.length).filter (!·.isNull)
  | .single _ label =>
    if label = ("sequence" : Text) then throw (.missingPart Value.scalarKind "items")
    else return []
  | .keyed _ => return []

end SpacingClasses
