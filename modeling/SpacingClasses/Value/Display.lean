import SpacingClasses.Value.Basic

/-!
# Values in messages

`Value.inspect` shows a value so that its kind can be told: texts in quotes, lists in brackets.
`Value.display` is the same but for texts, decimals, dates and times, which it gives bare.  Both fail
on an integer of too many digits.
-/

namespace SpacingClasses.Value

/-- The parts between two brackets, with commas between them. -/
def bracketed (opening closing : Text) (parts : List Text) : Text :=
  opening ++ Text.joined ", " parts ++ closing

/-- The parts of a tuple; a single part has a comma after it. -/
def tupleText : List Text → Text
  | [part] => "(" ++ part ++ ",)"
  | parts => bracketed "(" ")" parts

mutual

/-- The value with its kind made plain. -/
def inspect : Value → Except Failure Text
  | null => .ok "None"
  | bool b => .ok (if b then "True" else "False")
  | int n => Integer.write n
  | float x => .ok x.text
  | decimal d => .ok ("Decimal('" ++ d.text ++ "')")
  | text t => .ok (Text.quoted t)
  | bytes bs => .ok (Text.quotedBytes bs)
  | moment m => .ok m.text
  | list items => do return bracketed "[" "]" (← inspectItems items)
  | tuple items => do return tupleText (← inspectItems items)
  | dict entries => do return bracketed "\x7b" "\x7d" (← inspectEntries entries)
  | scalar value label => do
    return "ScalarValue(value=" ++ (← inspect value) ++ ", kind=" ++ Text.quoted label ++ ")"
  | sequence items => do
    return "SequenceValue(items=" ++ tupleText (← inspectItems items) ++ ", kind='sequence')"
  | keyed entries => do
    return "KeyedValue(entries=" ++ tupleText (← inspectNamed entries) ++ ", kind='keyed')"
  | prop name value raw => do
    return "ExtractedProp(name=" ++ Text.quoted name ++ ", value=" ++ (← inspect value) ++
      ", raw=" ++ (match raw with
        | none => "None".toList
        | some t => Text.quoted t) ++ ")"

/-- The values of a row, one by one. -/
def inspectItems : List Value → Except Failure (List Text)
  | [] => .ok []
  | v :: rest => do return (← inspect v) :: (← inspectItems rest)

/-- The entries of a dictionary, one by one. -/
def inspectEntries : List (Value × Value) → Except Failure (List Text)
  | [] => .ok []
  | (k, v) :: rest => do
    return ((← inspect k) ++ ": " ++ (← inspect v)) :: (← inspectEntries rest)

/-- The entries of a row of named values, one by one. -/
def inspectNamed : List (Text × Value) → Except Failure (List Text)
  | [] => .ok []
  | (k, v) :: rest => do
    return tupleText [Text.quoted k, ← inspect v] :: (← inspectNamed rest)

end

/-- The value as a text: a text as it is, a decimal, a date or a time without its kind. -/
def display : Value → Except Failure Text
  | text t => .ok t
  | decimal d => .ok d.text
  | moment m => .ok m.iso
  | v => v.inspect

end SpacingClasses.Value
