import SpacingClasses.Batch
import SpacingClasses.Command.Action
import SpacingClasses.Command.Version
import SpacingClasses.Log.File
import SpacingClasses.Settings

/-!
# The command line

Each command takes its arguments and the world that it finds, and prints and writes as it goes.
`Command.execute` chooses the command and turns a report into the text on the error stream;
`Command.run` is what comes of that from the start.
-/

namespace SpacingClasses

/-- What a command finds. -/
structure World where
  files : Files := []
  environment : List (Text × Text) := []
  version : Text := Version.current

/-- What a run leaves, with its exit code. -/
structure Completion extends Effect where
  code : Nat
  deriving DecidableEq, Repr

namespace Command

open SpacingClasses.Action (print printJson complain write perform)

/-- The option for JSON. -/
def jsonOption : Text := "--json"

/-- The option for the root of the project. -/
def rootOption : Text := "--root"

/-- The failure of a call in another way than a command takes. -/
def misused (shape : Text) : Failure := .report (.usage shape)

/-- The value that an argument writes: JSON, or else an attribute value, or else the text. -/
def readArgument (t : Text) : Except Failure Value :=
  match Json.read t with
  | .ok v => .ok v
  | .error _ => if Attribute.looksLikeOne t then Attribute.read t else .ok (.text t)

/-- The arguments without the option for JSON, and whether it was among them. -/
def splitJson (arguments : List Text) : Bool × List Text :=
  (arguments.contains jsonOption, arguments.filter (· != jsonOption))

/-- Converts a property with a value. -/
def convert (arguments : List Text) : Action Unit :=
  match splitJson arguments with
  | (json, [property, written]) => do
    let value ← readArgument written
    let classes ← convertSpacing (.text property) value
    if json then
      printJson (Value.record
        [("property", .text property), ("value", value), ("classes", .text classes)])
    else print [classes]
  | _ => throw (misused "tailmigrate convert <property> <value> [--json]")

/-- Finds the suffix of a value. -/
def normalize (arguments : List Text) : Action Unit :=
  match splitJson arguments with
  | (json, [written]) => do
    let value ← readArgument written
    let suffix ← Suffix.ofValue value
    if json then printJson (Value.record [("value", value), ("token", .text suffix)])
    else print [suffix]
  | _ => throw (misused "tailmigrate normalize <value> [--json]")

/-- The root among the arguments and the others. -/
def splitRoot : List Text → Except Failure (Option Text × List Text)
  | [] => .ok (none, [])
  | argument :: rest =>
    if argument = rootOption then
      match rest with
      | [] => .error (.report .rootWithoutDirectory)
      | root :: others => .ok (some root, others)
    else do
      let (root, others) ← splitRoot rest
      return (root, argument :: others)

/-- The text of the file at a path, if there is one. -/
def lookUp (w : World) (path : Path) : Except Failure (Option Text) :=
  (w.files.find? path).mapError fun o => .obstructed o path.text

/-- The value in a props file. -/
def readProps (w : World) (path : Path) : Except Failure Value := do
  match ← lookUp w path with
  | none => throw (.report (.missingFile path.text))
  | some content =>
    let t := Text.normalizeLineEnds content
    match Json.read t with
    | .ok v => .ok v
    | .error (.limit digits) => .error (.digitLimit (some digits))
    | .error (.fault remaining fault) =>
      let before := t.take (t.length - remaining)
      .error (.report (.brokenJson path.text path.name fault.text
        (Text.lineNumber before) (Text.columnNumber before)))
    | .error .exhausted =>
      .error (.report (.brokenJson path.text path.name Json.Fault.expectedValue.text 1 1))

/-- The line that tells a conversion. -/
def conversionLine (c : Conversion) : Text :=
  "- " ++ c.name ++ ": " ++ (if c.classes.isEmpty then ("(no classes)" : Text) else c.classes)

/-- The line that tells a rejected prop and the reason. -/
def rejectionLine (rejected : Text × Text) : Text :=
  "! " ++ rejected.1 ++ ": " ++ rejected.2

/-- The lines that tell the result of a batch. -/
def batchLines (b : Batch) : List Text :=
  b.conversions.map conversionLine ++ b.rejected.map rejectionLine ++
    ["className: " ++ b.className]

/-- Writes the log of a batch, if it is kept. -/
def keepLog (w : World) (settings : Settings) (root : Path) (b : Batch) : Action Unit := do
  if settings.persist then
    let store := b.logTo { floor := settings.level }
    write (← Log.file w.files store (root.below Log.filePath))

/-- The path that a text writes, if it can be resolved. -/
def resolvable (t : Text) : Except Failure Path :=
  if t.contains '\x00' then .error .nullInPath else .ok (Path.ofText t)

/-- The path of the props file and the root of the project, from the arguments without the option
for JSON. -/
def batchPaths (arguments : List Text) : Except Failure (Path × Path) := do
  let (root, others) ← splitRoot arguments
  match others with
  | [file] =>
    match root.filter (!·.isEmpty) with
    | some directory => return (Path.ofText file, ← resolvable directory)
    | none =>
      let path ← resolvable file
      return (path, path.parent)
  | _ => throw (misused "tailmigrate batch <props.json> [--root DIR] [--json]")

/-- The path of the settings file below the root of a project. -/
def settingsPath (root : Path) : Path := (root.below [Settings.fileName]).settle

/-- The settings for the project with this root. -/
def settingsAt (w : World) (root : Path) : Except Failure Settings := do
  let (settings, _) ← Settings.resolve (← lookUp w (settingsPath root)) w.environment
  return settings

/-- The batch of the props in a file; it has not been stopped. -/
def batchAt (w : World) (settings : Settings) (path : Path) : Except Failure Batch := do
  let b := Batch.ofValue settings.skipUnknown (← readProps w path)
  match b.stopped with
  | some f => throw f
  | none => return b

/-- Converts the props of a file. -/
def batch (w : World) (arguments : List Text) : Action Unit := do
  let (json, others) := splitJson arguments
  let (path, root) ← batchPaths others
  let settings ← settingsAt w root
  let b ← batchAt w settings path
  keepLog w settings root b
  if json then printJson b.toValue else print (batchLines b)

/-- Whether JSON is asked for, when nothing else is. -/
def jsonOnly (shape : Text) (arguments : List Text) : Except Failure Bool :=
  if arguments.all (· == jsonOption) then .ok !arguments.isEmpty else .error (misused shape)

/-- A number of pixels as a value; there may be none. -/
def pxValue : Option Nat → Value
  | some px => .int px
  | none => .null

/-- A row of the scale as a value. -/
def stepValue (step : Step) : Value :=
  Value.record
    [("step", .text step.name), ("length", .text step.length),
      ("px", pxValue (Scale.lengthToPx? step.length))]

/-- A tier as a value. -/
def breakpointValue (b : Breakpoint) : Value :=
  Value.record
    [("name", .text (if b.name.isEmpty then Breakpoint.baseName else b.name)),
      ("min_width", (b.minWidth.map Value.text).getD .null)]

/-- The line that tells a row of the scale. -/
def stepLine (step : Step) : Text :=
  "- " ++ step.name ++ ": " ++ step.length ++ " (" ++
    (match Scale.lengthToPx? step.length with
      | some px => Text.ofNat px
      | none => "None".toList) ++ "px)"

/-- Lists the scale and the tiers. -/
def scale (arguments : List Text) : Action Unit := do
  if ← jsonOnly "tailmigrate scale [--json]" arguments then
    printJson (Value.record
      [("scale", .list (Scale.steps.map stepValue)),
        ("breakpoints", .list (Breakpoint.ladder.map breakpointValue))])
  else print ("Spacing scale:" :: Scale.steps.map stepLine)

/-- The line that tells a property and its stem. -/
def propertyLine (property : Text × Text) : Text :=
  "- " ++ property.1 ++ ": " ++ property.2

/-- Lists the properties. -/
def properties (arguments : List Text) : Action Unit := do
  if ← jsonOnly "tailmigrate properties [--json]" arguments then
    printJson (Value.record (Property.stems.map fun (name, stem) => (name, .text stem)))
  else print ("Spacing properties:" :: Property.stems.map propertyLine)

/-- How the program is called. -/
def usage : List Text :=
  ["Usage:",
    "  tailmigrate convert <property> <value> [--json]   # spacing prop to classes (alias: conv)",
    "  tailmigrate normalize <value> [--json]            # one value to a class suffix (alias: norm)",
    "  tailmigrate batch <props.json> [--root DIR] [--json]  # convert extracted props",
    "  tailmigrate scale [--json]                        # list the spacing scale and breakpoints",
    "  tailmigrate properties [--json]                   # list spacing properties (alias: props)",
    "  tailmigrate --version"]

/-- The short forms of the commands. -/
def aliases : List (Text × Text) :=
  [("conv", "convert"), ("norm", "normalize"), ("props", "properties")]

/-- The name of a command, be it given in full or in short. -/
def canonicalName (word : Text) : Text := (aliases.lookup word).getD word

/-- Runs the command of a word. -/
def dispatch (w : World) (word : Text) (arguments : List Text) : Action Unit :=
  let name := canonicalName word
  if word = ("--version" : Text) then print ["tailmigrate " ++ w.version]
  else if word = ("--help" : Text) || word = ("-h" : Text) || name = ("help" : Text) then
    print usage
  else if name = ("convert" : Text) then convert arguments
  else if name = ("normalize" : Text) then normalize arguments
  else if name = ("batch" : Text) then batch w arguments
  else if name = ("scale" : Text) then scale arguments
  else if name = ("properties" : Text) then properties arguments
  else throw (.report (.unknownCommand word))

/-- What a report is shown against: the text that it comes with, or else the file that it names. -/
def sourceOf (w : World) (r : Report) : Notice.Source :=
  match r.source?, r.file? with
  | some t, _ => .text t
  | none, some path =>
    match w.files.read? (Path.ofText path) with
    | some content => .files [(path, Text.normalizeLineEnds content)]
    | none => .nothing
  | none, none => .nothing

/-- Runs the program with its arguments, to its exit code.  A report is told on the error stream. -/
def execute (w : World) : List Text → Action Nat
  | [] => do
    print usage
    return 1
  | word :: arguments =>
    try
      dispatch w word arguments
      pure 0
    catch
      | .report r => do
        complain [r.notice.render (sourceOf w r)]
        pure 1
      | f => throw f

/-- What a run of the program leaves, if it comes to an exit code. -/
def run (w : World) (arguments : List Text) : Except Failure Completion :=
  let (code, left) := perform (execute w arguments)
  code.map fun c => { left with code := c }

end Command

end SpacingClasses
