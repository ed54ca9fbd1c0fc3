import SpacingClasses.Attribute.Reader
import SpacingClasses.ClassToken
import SpacingClasses.Log

/-!
# Batches of props

A batch converts a list of props.  Each prop has one outcome: it is converted, or it is rejected
because its property is unknown or its source text is no literal.

* `SpacingProp.ofValue` reads the props from a value;
* `Outcome.ofProp` settles one prop, `Batch.run` a list of them, strictly or not;
* `Outcome.entries` are the log entries of an outcome, in order.
-/

namespace SpacingClasses

/-- A prop with its value, or with the source text of its value, which comes first. -/
structure SpacingProp where
  name : Text
  value : Value
  raw : Option Text
  deriving Repr

namespace SpacingProp

/-- The prop that an entry of a list describes: a dictionary with a name, or a pair of a name and a
value.  Positions are counted from one. -/
def ofEntry (position : Nat) : Value → Except Failure SpacingProp
  | .prop name value raw => .ok ⟨name, value, raw⟩
  | .dict entries =>
    match Value.find? entries "name" with
    | some (.text name) =>
      let value := (Value.find? entries "value").getD .null
      match (Value.find? entries "defaultValue").getD .null with
      | .null => .ok ⟨name, value, none⟩
      | .text raw => .ok ⟨name, value, some raw⟩
      | _ => .error (.report (.defaultNotText position))
    | _ => .error (.report (.namelessProp position))
  | .list [.text name, value] => .ok ⟨name, value, none⟩
  | .tuple [.text name, value] => .ok ⟨name, value, none⟩
  | _ => .error (.report (.namelessProp position))

/-- The props of a list of entries, from a position on. -/
def ofEntries (position : Nat) : List Value → Except Failure (List SpacingProp)
  | [] => .ok []
  | v :: rest => do return (← ofEntry position v) :: (← ofEntries (position + 1) rest)

/-- The props of a dictionary from names to values. -/
def ofDict : List (Value × Value) → Except Failure (List SpacingProp)
  | [] => .ok []
  | (name, value) :: rest => do return ⟨← name.display, value, none⟩ :: (← ofDict rest)

/-- The props of a value: one prop, a dictionary from names to values, or a list of entries. -/
def ofValue : Value → Except Failure (List SpacingProp)
  | .prop name value raw => .ok [⟨name, value, raw⟩]
  | .dict entries =>
    if (Value.find? entries "name").isSome then ofEntries 1 [.dict entries] else ofDict entries
  | .list items => ofEntries 1 items
  | .tuple items => ofEntries 1 items
  | v => .error (.report (.noProps v.kind))

end SpacingProp

/-- A prop with the classes that it is converted to. -/
structure Conversion where
  name : Text
  value : Value
  tokens : List ClassToken
  /-- The entries of its value that have no tier. -/
  overflow : List Value
  deriving Repr

namespace Conversion

/-- The class names in one text. -/
def classes (c : Conversion) : Text := Text.joined [' '] (c.tokens.map ClassToken.text)

/-- The class names whose size is a literal in brackets. -/
def fallbacks (c : Conversion) : List Text :=
  (c.tokens.filter ClassToken.isFallback).map ClassToken.text

end Conversion

/-- What becomes of a prop. -/
inductive Outcome where
  | converted (c : Conversion)
  /-- No spacing property has its name. -/
  | unknown (name : Text)
  /-- Its source text is no literal. -/
  | unreadable (name raw : Text) (report : Report)
  deriving Repr

/-- A log entry before it is numbered. -/
structure LogEntry where
  level : Level
  message : Text
  fields : Value
  deriving Repr

namespace Outcome

/-- The value of a prop: its source text as it reads, or else the value that it comes with.  A
report on the source text is part of the answer. -/
def valueOf (p : SpacingProp) : Except Failure (Except (Text × Report) Value) :=
  match p.raw with
  | none => .ok (.ok p.value)
  | some raw =>
    match Attribute.read raw with
    | .ok v => .ok (.ok v)
    | .error (.report r) => .ok (.error (raw, r))
    | .error f => .error f

/-- What becomes of a prop. -/
def ofProp (p : SpacingProp) : Except Failure Outcome :=
  match Property.stem? p.name with
  | none => .ok (unknown p.name)
  | some stem => do
    match ← valueOf p with
    | .error (raw, report) => return unreadable p.name raw report
    | .ok v =>
      let tokens ← ClassToken.ofShape stem (← Shape.ofValue v)
      return converted ⟨p.name, v, tokens, ← overflowEntries v⟩

/-- The label of the first line of a message. -/
def label : Text := "What happened:"

/-- What the first line of a message says, without its label. -/
def firstLine (message : Text) : Text :=
  Text.strip (Text.eraseFirst label ((Text.lines message).headD []))

/-- The conversion, if there is one. -/
def conversion? : Outcome → Option Conversion
  | converted c => some c
  | _ => none

/-- The name and the reason, if the prop is rejected. -/
def rejection? : Outcome → Option (Text × Text)
  | converted _ => none
  | unknown name => some (name, firstLine (Property.unknown name).message)
  | unreadable name _ report => some (name, firstLine report.message)

/-- The log entries of a conversion. -/
def conversionEntries (c : Conversion) : List LogEntry :=
  [⟨.info, "Converted spacing prop",
      Value.record [("name", .text c.name), ("classes", .text c.classes)]⟩] ++
    (if c.fallbacks.isEmpty then []
      else
        [⟨.debug, "Used bracketed fallback",
          Value.record [("name", .text c.name), ("tokens", .list (c.fallbacks.map .text))]⟩]) ++
    (if c.overflow.isEmpty then []
      else
        [⟨.warn, "Ignored entries past the last breakpoint",
          Value.record [("name", .text c.name), ("entries", .list c.overflow)]⟩])

/-- The log entries of an outcome. -/
def entries : Outcome → List LogEntry
  | converted c => conversionEntries c
  | unknown name =>
    [⟨.warn, "Skipped unknown spacing property", Value.record [("name", .text name)]⟩]
  | unreadable name raw _ =>
    [⟨.warn, "Skipped non-literal attribute value",
      Value.record [("name", .text name), ("raw", .text raw)]⟩]

end Outcome

/-- A run over props: the outcomes in order, and why it ended early, if it did. -/
structure Batch where
  outcomes : List Outcome := []
  stopped : Option Failure := none
  deriving Repr

namespace Batch

/-- Converts props one by one.  A strict run ends at an unknown property. -/
def run (skipUnknown : Bool) : List SpacingProp → Batch
  | [] => {}
  | p :: rest =>
    match Outcome.ofProp p with
    | .error f => { stopped := some f }
    | .ok (.unknown name) =>
      if skipUnknown then
        let b := run skipUnknown rest
        { b with outcomes := .unknown name :: b.outcomes }
      else { stopped := some (Property.unknown name) }
    | .ok o =>
      let b := run skipUnknown rest
      { b with outcomes := o :: b.outcomes }

/-- Converts the props of a value; a value that holds none stops the run before it starts. -/
def ofValue (skipUnknown : Bool) (props : Value) : Batch :=
  match SpacingProp.ofValue props with
  | .ok ps => run skipUnknown ps
  | .error f => { stopped := some f }

/-- The conversions in order. -/
def conversions (b : Batch) : List Conversion := b.outcomes.filterMap Outcome.conversion?

/-- The rejected props in order, each with its reason. -/
def rejected (b : Batch) : List (Text × Text) := b.outcomes.filterMap Outcome.rejection?

/-- All class names in one text. -/
def className (b : Batch) : Text :=
  Text.joined [' '] ((b.conversions.map Conversion.classes).filter (!·.isEmpty))

/-- The log entries in order. -/
def logEntries (b : Batch) : List LogEntry := b.outcomes.flatMap Outcome.entries

/-- The store after a run. -/
def logTo (b : Batch) (s : Store) : Store :=
  b.logEntries.foldl (fun s e => (s.add e.level (.text e.message) (some e.fields)).2) s

/-- The result as a dictionary. -/
def toValue (b : Batch) : Value :=
  .dict
    [(.text "class_name", .text b.className),
      (.text "conversions", .list (b.conversions.map fun c =>
        Value.record
          [("name", .text c.name), ("value", c.value), ("classes", .text c.classes)])),
      (.text "rejected", .list (b.rejected.map fun (name, reason) =>
        Value.record [("name", .text name), ("reason", .text reason)]))]

end Batch

end SpacingClasses
