import SpacingClasses.Command.Basic

/-!
# The program

Reads the files that a command may ask for, runs the command, and writes what it leaves.
-/

namespace SpacingClasses.Main

open SpacingClasses

/-- A text from the outside. -/
def text (s : String) : Text := s.toList

/-- A text for the outside. -/
def string (t : Text) : String := String.ofList t

/-- The paths that a command may read: of a batch, the props file and the settings file. -/
def pathsToRead : List Text → List Path
  | word :: arguments =>
    if Command.canonicalName word = ("batch" : Text) then
      match Command.batchPaths (Command.splitJson arguments).2 with
      | .ok (path, root) => [path, Command.settingsPath root]
      | .error _ => []
    else []
  | [] => []

/-- The code of the error when a directory is read as a file. -/
def directoryCode : UInt32 := 21

/-- The file at a path, if there is one; for a directory, a file in it. -/
def readFile? (p : Path) : IO (Option (Path × Text)) := do
  try
    return some (p, text (← IO.FS.readFile (string p.text)))
  catch
    | .inappropriateType _ code _ =>
      return if code = directoryCode then some (p.below [Path.here], []) else none
    | _ => return none

/-- The files at the paths that lead to one. -/
def readFiles : List Path → IO Files
  | [] => return []
  | p :: rest => do
    return (← readFile? p).toList ++ (← readFiles rest)

/-- The variables of the environment that settings may come from. -/
def readEnvironment : List Text → IO (List (Text × Text))
  | [] => return []
  | name :: rest => do
    let others ← readEnvironment rest
    match ← IO.getEnv (string name) with
    | some value => return (name, text value) :: others
    | none => return others

/-- Writes files, with the directories that hold them. -/
def writeFiles (files : List (Path × Text)) : IO Unit :=
  files.forM fun (p, content) => do
    IO.FS.createDirAll (string p.parent.text)
    IO.FS.writeFile (string p.text) (string content)

/-- Runs the program and gives its exit code. -/
def run (arguments : List String) : IO UInt32 := do
  let words := arguments.map text
  let files ← readFiles (pathsToRead words)
  let environment ← readEnvironment
    [Settings.skipUnknownVariable, Settings.levelVariable, Settings.persistVariable]
  let (code, left) := Action.perform
    (Command.execute { files := files, environment := environment } words)
  writeFiles left.writes
  IO.print (string left.stdout)
  IO.eprint (string left.stderr)
  match code with
  | .ok c => return c.toUInt32
  | .error f =>
    IO.eprintln (string f.message)
    return 1

end SpacingClasses.Main

/-- The entry of the program. -/
def main (arguments : List String) : IO UInt32 := SpacingClasses.Main.run arguments
