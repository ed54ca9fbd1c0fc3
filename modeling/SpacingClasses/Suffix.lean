import SpacingClasses.Json.Writer
import SpacingClasses.Scale

/-!
# Suffixes

The part of a class name that tells the size: a step of the scale, `auto`, `0`, a plain number, or
a literal in brackets.  `Suffix.ofValue` finds it for any value; nothing and blank texts give the
empty suffix, which stands for no class.
-/

namespace SpacingClasses.Suffix

/-- The suffix that leaves the size to the page. -/
def auto : Text := "auto"

/-- How many pixels a unit of a negative number is. -/
def pxPerUnit : Nat := 4

/-- A literal in brackets. -/
def bracketed (t : Text) : Text := '[' :: (t ++ [']'])

/-- Whether a suffix is a literal in brackets. -/
def isBracketed (t : Text) : Bool :=
  ("[" : Text).isPrefixOf t && ("]" : Text).isSuffixOf t

/-- The lengths that are zero. -/
def zeroLengths : List Text := ["0", "0px", "0rem"]

/-- The functions inside which blanks are left out. -/
def compactFunctions : List Text := ["calc", "clamp"]

/-- The text without blanks if it uses one of the compact functions, else as it is. -/
def tidy (t : Text) : Text :=
  if compactFunctions.any fun name => Text.has name t then Text.compact t else t

/-- The text of a double in a literal. -/
def doubleLiteral : Double → Text
  | .nan => "NaN"
  | .infinite negative => if negative then "-Infinity" else "Infinity"
  | x => x.text

/-- The suffix of a double: zero and positive numbers are plain, negative ones become pixels. -/
def ofDouble (x : Double) : Text :=
  if x.isZero then "0"
  else if x.isNegative then
    match (x.abs.scale pxPerUnit).finite? with
    | none => bracketed (doubleLiteral x)
    | some px =>
      bracketed ('-' :: ((match px.whole? with
        | some n => Integer.text n
        | none => px.text) ++ "px"))
  else
    match x.whole? with
    | some n => Integer.text n
    | none => x.text

/-- The suffix of an integer. -/
def ofInt (n : Int) : Except Failure Text := do
  if n = 0 then return "0"
  else if n < 0 then
    return bracketed ('-' :: ((← Integer.write (n.natAbs * pxPerUnit)) ++ "px"))
  else Integer.write n

/-- The suffix of a number. -/
def ofNumber : Number → Except Failure Text
  | .int n => ofInt n
  | .double x => .ok (ofDouble x)

/-- The step of a length whose number of rem is in the scale. -/
def stepOfLength? (t : Text) : Option Text :=
  if ("px" : Text).isSuffixOf t then
    (parseLeadingNumber? t).bind fun px =>
      Scale.stepOfRem? (Scale.remLength (px.divide Scale.pxPerRem))
  else if ("rem" : Text).isSuffixOf t then Scale.stepOfRem? t
  else none

/-- The suffix of a text that ends in `px`, by the whole part of the number that it begins with. -/
def ofPxText (t : Text) : Text :=
  match (parseLeadingNumber? t).bind Double.truncate? with
  | none => bracketed t
  | some (.negSucc n) => bracketed ('-' :: (Text.ofNat (n + 1) ++ "px"))
  | some (.ofNat px) =>
    match Scale.stepOfPx? px with
    | some step => step
    | none => bracketed (Text.ofNat px ++ "px")

/-- The suffix of a length without needless blanks. -/
def ofLength (t : Text) : Text :=
  if zeroLengths.contains t then "0"
  else if Scale.isStep t then t
  else
    match stepOfLength? t with
    | some step => step
    | none => if ("px" : Text).isSuffixOf t then ofPxText t else bracketed t

/-- The suffix of a text. -/
def ofText (t : Text) : Text :=
  if (Text.strip t).isEmpty then []
  else if t = auto then auto
  else
    match (if ("-" : Text).isPrefixOf t then parseNumber? t else none) with
    | some x => ofDouble x
    | none => ofLength (tidy t)

/-- The text of a value that is neither a text nor a number, for a literal. -/
def literal : Value → Except Failure Text
  | .bool b => .ok (if b then "true" else "false")
  | .float x => .ok (doubleLiteral x)
  | .list items => Json.inline (.list items)
  | .tuple items => Json.inline (.tuple items)
  | .dict entries => Json.inline (.dict entries)
  | v => do return Text.compact (← v.display)

/-- The suffix of a value. -/
def ofValue : Value → Except Failure Text
  | .null => .ok []
  | .text t => .ok (ofText t)
  | .int n => ofInt n
  | .float x => .ok (if x.isFinite then ofDouble x else ofText (doubleLiteral x))
  | .decimal d =>
    match d.number? with
    | some n => ofNumber n
    | none => .ok (ofText d.text)
  | v => do return ofText (← literal v)

end SpacingClasses.Suffix
