import SpacingClasses.Attribute.Reason
import SpacingClasses.Report.Guidance
import SpacingClasses.Report.Notice
import SpacingClasses.Text.Quoted

/-!
# Reports

What a person is told when a request cannot be met.  A `Report` is a cause; `Report.notice` gives
its words and its place.
-/

namespace SpacingClasses

/-- Why a request cannot be met. -/
inductive Report where
  /-- The scale has no such step. -/
  | unknownStep (step : Text)
  /-- No spacing property has this name; another may come near it. -/
  | unknownProperty (name : Text) (nearest : Option Text)
  /-- The reader of attribute values stopped at an offset. -/
  | unreadableAttribute (source : Text) (offset : Nat) (reason : Attribute.Reason)
  /-- A value of this kind holds no props. -/
  | noProps (kind : Text)
  /-- The prop at this position, counted from one, has no name. -/
  | namelessProp (position : Nat)
  /-- The prop at this position has a default value that is no text. -/
  | defaultNotText (position : Nat)
  /-- A setting is neither true nor false. -/
  | notTruth (setting shown : Text)
  /-- A setting names no log level. -/
  | notLevel (setting shown : Text)
  /-- The settings file breaks its syntax. -/
  | brokenSettings (why : Text)
  /-- There is no such file. -/
  | missingFile (path : Text)
  /-- A props file is no JSON. -/
  | brokenJson (path name why : Text) (line column : Nat)
  /-- A command is called in another way. -/
  | usage (shape : Text)
  /-- The option for the root stands last. -/
  | rootWithoutDirectory
  /-- There is no such command. -/
  | unknownCommand (word : Text)
  deriving DecidableEq, Repr

namespace Report

/-- What stands after the last dot of a setting's name. -/
def lastName (setting : Text) : Text :=
  (setting.reverse.takeWhile (· != '.')).reverse

/-- The advice on an unknown property. -/
def propertyAdvice : Option Text → Text
  | some name => "Did you mean \"" ++ name ++ "\"?"
  | none => "Pass a margin, padding, gap, space or inset property."

/-- The message on props in no supported shape. -/
def propsGuidance (why : Text) : Guidance where
  what := "Props input is not in a supported shape."
  why := why
  fix := "Pass a \x7b\"property\": value\x7d object or a list of \x7b\"name\": ..., \"value\": ...\x7d entries."
  sample := "[\x7b\"name\": \"mb\", \"defaultValue\": \"\\\"24px\\\"\"\x7d]"

/-- The cause in words. -/
def message : Report → Text
  | unknownStep step =>
    Guidance.message
      { what := "Unknown spacing step '" ++ step ++ "'."
        why := "Spacing steps come from a fixed scale with gaps after 10."
        fix := "Use one of the listed steps or a bracketed value."
        sample := "tailmigrate scale" }
  | unknownProperty name nearest =>
    Guidance.message
      { what := "Unknown spacing property '" ++ name ++ "'."
        why := "Only margin, padding, gap, space and inset properties have spacing classes."
        fix := propertyAdvice nearest
        sample := "tailmigrate convert marginTop 16px" }
  | unreadableAttribute source _ reason =>
    Guidance.message
      { what := "Could not read attribute value " ++ Text.quoted source ++ "."
        why := reason.text
        fix := "Only static literals can be converted; leave dynamic expressions as they are."
        sample := "mb=\"24px\" or p=\x7b[2, null, 4]\x7d" }
  | noProps kind =>
    (propsGuidance ("Expected a list of props, got " ++ kind ++ ".")).message
  | namelessProp position =>
    (propsGuidance ("Prop #" ++ Text.ofNat position ++ " is missing a name.")).message
  | defaultNotText position =>
    (propsGuidance ("Prop #" ++ Text.ofNat position ++ " has a non-text defaultValue.")).message
  | notTruth setting shown =>
    Guidance.message
      { what := setting ++ " must be true or false."
        why := "Got " ++ shown ++ "."
        fix := "Use true/false (or 1/0, yes/no, on/off in environment variables)."
        sample := lastName setting ++ " = true" }
  | notLevel setting shown =>
    Guidance.message
      { what := setting ++ " has unknown log level " ++ shown ++ "."
        why := "Allowed levels: debug, error, info, warn."
        fix := "Pick one of the allowed levels."
        sample := "level = \"info\"" }
  | brokenSettings why =>
    Guidance.message
      { what := "tailmigrate.toml is not valid TOML."
        why := "TOML parsing failed: " ++ why ++ "."
        fix := "Fix the TOML syntax in tailmigrate.toml."
        sample := "[convert]\nskip_unknown = true" }
  | missingFile path =>
    Guidance.message
      { what := "File '" ++ path ++ "' was not found."
        why := "The batch command reads props from a JSON file."
        fix := "Check the path and try again."
        sample := "tailmigrate batch props.json" }
  | brokenJson _ name why _ _ =>
    Guidance.message
      { what := "File '" ++ name ++ "' is not valid JSON."
        why := why
        fix := "Fix the JSON syntax in the props file."
        sample := "\x7b\"mb\": \"24px\", \"px\": [2, 4]\x7d" }
  | usage shape => "Usage: " ++ shape
  | rootWithoutDirectory => "--root needs a directory."
  | unknownCommand word =>
    "Unknown command '" ++ word ++ "'. Run `tailmigrate help` for usage."

/-- The line and column of a source, if the cause has a place in one. -/
def place : Report → Option (Nat × Nat)
  | unreadableAttribute source offset _ =>
    some (Text.lineNumber (source.take offset), Text.columnNumber (source.take offset))
  | brokenJson _ _ _ line column => some (line, column)
  | _ => none

/-- The file that the cause lies in, if it is a file that can be shown. -/
def file? : Report → Option Text
  | brokenJson path _ _ _ _ => some path
  | _ => none

/-- The text that the cause lies in, if it comes with one. -/
def source? : Report → Option Text
  | unreadableAttribute source _ _ => some source
  | _ => none

/-- The report in words and with its place. -/
def notice (r : Report) : Notice where
  message := r.message
  line := r.place.map (·.1)
  column := r.place.map (·.2)
  file := r.file?

end Report

end SpacingClasses
