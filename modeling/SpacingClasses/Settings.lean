import SpacingClasses.Log
import SpacingClasses.Toml.Reader

/-!
# Settings

How batches are run.  A setting comes from an environment variable that is not empty, or else from
the settings file, or else it has its default.  `Settings.resolve` puts them together; every setting
that is given must make sense, be it used or not.
-/

namespace SpacingClasses

/-- How batches are run. -/
structure Settings where
  /-- Pass over unknown properties. -/
  skipUnknown : Bool := true
  /-- The least grave level that is logged. -/
  level : Level := .info
  /-- Keep the log in a file. -/
  persist : Bool := false
  deriving DecidableEq, Repr

/-- Where settings were found. -/
inductive SettingsSource where
  | file
  | environment
  deriving DecidableEq, Repr

namespace Settings

/-- The name of the settings file. -/
def fileName : Text := "tailmigrate.toml"

/-- The variable for `skipUnknown`. -/
def skipUnknownVariable : Text := "TAILMIGRATE_SKIP_UNKNOWN"

/-- The variable for `level`. -/
def levelVariable : Text := "TAILMIGRATE_LOG_LEVEL"

/-- The variable for `persist`. -/
def persistVariable : Text := "TAILMIGRATE_PERSIST_LOGS"

/-- The words for true. -/
def trueWords : List Text := ["1", "true", "yes", "on"]

/-- The words for false. -/
def falseWords : List Text := ["0", "false", "no", "off"]

/-- The truth value that a text names, blanks at the ends and letter case aside. -/
def truthOfText? (t : Text) : Option Bool :=
  let word := Text.lower (Text.strip t)
  if trueWords.contains word then some true
  else if falseWords.contains word then some false
  else none

/-- The truth value of a setting. -/
def truth (name : Text) (v : Value) : Except Failure Bool :=
  let read := match v with
    | .bool b => some b
    | .text t => truthOfText? t
    | _ => none
  match read with
  | some b => .ok b
  | none => do throw (.report (.notTruth name (← v.inspect)))

/-- The log level of a setting. -/
def logLevel (name : Text) (v : Value) : Except Failure Level :=
  let read := match v with
    | .text t => Level.ofText? t
    | _ => none
  match read with
  | some level => .ok level
  | none => do throw (.report (.notLevel name (← v.inspect)))

/-- The entries of a section; anything but a table is no section. -/
def sectionOf (table : Toml.Table) (name : Text) : Toml.Table :=
  match Value.find? table name with
  | some (.dict entries) => entries
  | _ => []

/-- The value of a setting, read if it is given. -/
def given? {α : Type} (read : Value → Except Failure α) : Option Value → Except Failure (Option α)
  | none => .ok none
  | some v => do return some (← read v)

/-- Settings of which some are given. -/
structure Given where
  skipUnknown : Option Bool := none
  level : Option Level := none
  persist : Option Bool := none
  deriving DecidableEq, Repr

/-- Whether any setting is given. -/
def Given.isAny (g : Given) : Bool := g.skipUnknown.isSome || g.level.isSome || g.persist.isSome

/-- What the table of a settings file gives. -/
def ofTable (table : Toml.Table) : Except Failure Given := do
  let convert := sectionOf table "convert"
  let logging := sectionOf table "logging"
  let skipUnknown ←
    given? (truth "convert.skip_unknown") (Value.find? convert "skip_unknown")
  let level ← given? (logLevel "logging.level") (Value.find? logging "level")
  let persist ← given? (truth "logging.persist") (Value.find? logging "persist")
  return ⟨skipUnknown, level, persist⟩

/-- The text of a variable; an empty one counts as none. -/
def fromVariable? (environment : List (Text × Text)) (name : Text) : Option Value :=
  ((environment.lookup name).filter (!·.isEmpty)).map .text

/-- What the environment gives. -/
def ofEnvironment (environment : List (Text × Text)) : Except Failure Given := do
  let skipUnknown ←
    given? (truth skipUnknownVariable) (fromVariable? environment skipUnknownVariable)
  let level ← given? (logLevel levelVariable) (fromVariable? environment levelVariable)
  let persist ← given? (truth persistVariable) (fromVariable? environment persistVariable)
  return ⟨skipUnknown, level, persist⟩

/-- The settings with those that are given put in. -/
def override (s : Settings) (g : Given) : Settings where
  skipUnknown := g.skipUnknown.getD s.skipUnknown
  level := g.level.getD s.level
  persist := g.persist.getD s.persist

/-- The table in the text of a settings file. -/
def readTable (t : Text) : Except Failure Toml.Table :=
  let document := Text.normalizeLineEnds t
  match Toml.read document with
  | .ok table => .ok table
  | .error (.limit digits) => .error (.digitLimit (some digits))
  | .error (.fault remaining fault) =>
    .error (.report (.brokenSettings
      (fault.text ++ " (at " ++ Toml.placeText document remaining ++ ")")))
  | .error .exhausted => .error (.report (.brokenSettings Toml.Fault.invalidStatement.text))

/-- The settings from the table of a settings file, if there is one, and from the environment,
together with where any were found. -/
def combine (table : Option Toml.Table) (environment : List (Text × Text)) :
    Except Failure (Settings × List SettingsSource) := do
  let fromFile ← (table.map ofTable).getD (.ok {})
  let fromEnvironment ← ofEnvironment environment
  return ((override {} fromFile).override fromEnvironment,
    (if table.isSome then [.file] else []) ++
      (if fromEnvironment.isAny then [.environment] else []))

/-- The settings from the text of a settings file, if there is one, and from the environment. -/
def resolve (file : Option Text) (environment : List (Text × Text)) :
    Except Failure (Settings × List SettingsSource) := do
  let table ← match file with
    | none => pure none
    | some t => do pure (some (← readTable t))
  combine table environment

end Settings

end SpacingClasses
