import SpacingClasses.Json.Writer
import SpacingClasses.Path.Basic

/-!
# Actions

What a run leaves: the texts on its two streams and the files that it has written.  An `Action` is a
part of a run.  It adds to what the run has left so far, and what it has added stays when it fails.
-/

namespace SpacingClasses

/-- What a run has left so far. -/
structure Effect where
  stdout : Text := []
  stderr : Text := []
  writes : List (Path × Text) := []
  deriving DecidableEq, Repr

/-- A part of a run that gives an `α` or fails. -/
abbrev Action (α : Type) := ExceptT Failure (StateM Effect) α

namespace Action

/-- Lines as they are printed. -/
def printed (lines : List Text) : Text := lines.flatMap (· ++ ['\n'])

/-- Prints lines. -/
def print (lines : List Text) : Action Unit :=
  modify fun e => { e with stdout := e.stdout ++ printed lines }

/-- Prints a value as JSON, a line for each item. -/
def printJson (v : Value) : Action Unit := do print [← Json.pretty v]

/-- Prints lines on the error stream. -/
def complain (lines : List Text) : Action Unit :=
  modify fun e => { e with stderr := e.stderr ++ printed lines }

/-- Writes a file. -/
def write (file : Path × Text) : Action Unit :=
  modify fun e => { e with writes := e.writes ++ [file] }

/-- What comes of an action when nothing has been left before. -/
def perform {α : Type} (a : Action α) : Except Failure α × Effect := a.run.run {}

end Action

end SpacingClasses
