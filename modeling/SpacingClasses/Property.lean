import SpacingClasses.Text.Likeness
import SpacingClasses.Value.Display

/-!
# Spacing properties

The properties that have spacing classes, each with the stem of its classes.  Logical sides take
the stems of the physical ones for a page that is read from left to right.
-/

namespace SpacingClasses.Property

/-- The sides of the margin. -/
def marginStems : List (Text × Text) :=
  [("margin", "m"), ("marginTop", "mt"), ("marginRight", "mr"), ("marginBottom", "mb"),
    ("marginLeft", "ml"), ("marginX", "mx"), ("marginY", "my"), ("marginInline", "mx"),
    ("marginInlineStart", "ms"), ("marginInlineEnd", "me"), ("marginBlock", "my"),
    ("marginBlockStart", "mt"), ("marginBlockEnd", "mb")]

/-- The sides of the padding. -/
def paddingStems : List (Text × Text) :=
  [("padding", "p"), ("paddingTop", "pt"), ("paddingRight", "pr"), ("paddingBottom", "pb"),
    ("paddingLeft", "pl"), ("paddingX", "px"), ("paddingY", "py"), ("paddingInline", "px"),
    ("paddingInlineStart", "ps"), ("paddingInlineEnd", "pe"), ("paddingBlock", "py"),
    ("paddingBlockStart", "pt"), ("paddingBlockEnd", "pb")]

/-- The gaps between items, and the inset. -/
def gapStems : List (Text × Text) :=
  [("gap", "gap"), ("rowGap", "gap-y"), ("columnGap", "gap-x"), ("space", "space"),
    ("inset", "inset"), ("insetX", "inset-x"), ("insetY", "inset-y")]

/-- The short names of margins, which are their own stems. -/
def marginShorthands : List Text := ["m", "mt", "mr", "mb", "ml", "mx", "my", "ms", "me"]

/-- The short names of paddings, which are their own stems. -/
def paddingShorthands : List Text := ["p", "pt", "pr", "pb", "pl", "px", "py", "ps", "pe"]

/-- The properties and their stems. -/
def stems : List (Text × Text) :=
  marginStems ++ marginShorthands.map (fun name => (name, name)) ++ paddingStems ++
    paddingShorthands.map (fun name => (name, name)) ++ gapStems

/-- The names of the properties. -/
def names : List Text := stems.map (·.1)

/-- The stem of a property's classes. -/
def stem? (name : Text) : Option Text := stems.lookup name

/-- Whether a name is that of a spacing property. -/
def isSpacing (name : Text) : Bool := (stem? name).isSome

/-- The report on a name that no property has. -/
def unknown (name : Text) : Failure :=
  .report (.unknownProperty name (Text.closest? name names))

/-- The stem of a property's classes, or the report that there is no such property. -/
def stem (name : Text) : Except Failure Text :=
  match stem? name with
  | some s => .ok s
  | none => .error (unknown name)

/-- The stem of the property that a value names; only a text can name one. -/
def stemOfValue : Value → Except Failure Text
  | .text name => stem name
  | v => do throw (unknown (← v.display))

end SpacingClasses.Property
