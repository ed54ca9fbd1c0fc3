import SpacingClasses.Text.Blank
import SpacingClasses.Text.Lines

/-!
# The version

The version that is reported: that of the installed program, or else the one that a version file
gives.
-/

namespace SpacingClasses.Version

/-- The version when nothing tells it. -/
def unknown : Text := "0.0.0"

/-- The version of this program. -/
def current : Text := "0.1.0"

/-- The version, from the installed program or from the text of a version file. -/
def resolve (installed file : Option Text) : Text :=
  match installed with
  | some v => v
  | none =>
    let stated := (file.map fun t => Text.strip (Text.normalizeLineEnds t)).getD []
    if stated.isEmpty then unknown else stated

end SpacingClasses.Version
