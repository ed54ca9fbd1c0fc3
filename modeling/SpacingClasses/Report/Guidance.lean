import SpacingClasses.Text.Basic

/-!
# Guidance messages

A message for a person says what happened and, where it can, why, how to mend it, and an example.
-/

namespace SpacingClasses

/-- The parts of a guidance message. -/
structure Guidance where
  what : Text
  why : Text := []
  fix : Text := []
  sample : Text := []
  deriving DecidableEq, Repr

/-- One labelled line, left out when it has nothing to say. -/
def Guidance.line (label said : Text) : List Text :=
  if said.isEmpty then [] else [label ++ said]

/-- The message, a line for each part. -/
def Guidance.message (g : Guidance) : Text :=
  Text.joined ['\n'] <|
    ("What happened: " ++ g.what) ::
      (Guidance.line "Why: " g.why ++ Guidance.line "Fix: " g.fix ++
        Guidance.line "Example: " g.sample)

end SpacingClasses
