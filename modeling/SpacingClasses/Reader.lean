import SpacingClasses.Text.Basic

/-!
# Readers

A reader takes the text that is left and gives what it has read together with the text after that.
It stops for a reason of its own, at the place told by how much text is left.  Readers of nested
things are bounded by the length of their text, and no text reaches the bound (`Stop.exhausted`).
-/

namespace SpacingClasses

/-- Why and where a reader stops. -/
inductive Stop (ρ : Type) where
  /-- A fault, with this many characters left. -/
  | fault (remaining : Nat) (reason : ρ)
  /-- An integer of too many digits. -/
  | limit (digits : Nat)
  /-- The bound on nesting or repetition is spent. -/
  | exhausted
  deriving DecidableEq, Repr

/-- A reader of an `α` that may stop for a `ρ`. -/
abbrev Reader (ρ α : Type) := Text → Except (Stop ρ) (α × Text)

namespace Reader

variable {ρ α : Type}

/-- Stops at the front of a text. -/
def stopAt (left : Text) (reason : ρ) : Except (Stop ρ) α :=
  .error (.fault left.length reason)

/-- Puts a character before what has been read. -/
def cons (c : Char) : Except (Stop ρ) (Text × Text) → Except (Stop ρ) (Text × Text) :=
  Except.map fun (read, rest) => (c :: read, rest)

end Reader

end SpacingClasses
