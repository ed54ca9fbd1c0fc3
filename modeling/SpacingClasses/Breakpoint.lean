import SpacingClasses.Text.Basic

/-!
# Breakpoints

The tiers of a responsive value.  A list addresses them by position (`Breakpoint.ladderMark?`), a
keyed value by name (`Breakpoint.keyMark`).  The mark of a tier is what a class name starts with.
-/

namespace SpacingClasses

/-- A tier: its name, empty for the first one, and the least width of the page. -/
structure Breakpoint where
  name : Text
  minWidth : Option Text
  deriving DecidableEq, Repr

namespace Breakpoint

/-- The name under which a keyed value addresses the first tier. -/
def baseName : Text := "base"

/-- The tiers, from the narrowest page up. -/
def ladder : List Breakpoint :=
  [⟨[], none⟩, ⟨"sm", some "640px"⟩, ⟨"md", some "768px"⟩, ⟨"lg", some "1024px"⟩,
    ⟨"xl", some "1280px"⟩, ⟨"2xl", some "1536px"⟩]

/-- The mark of a tier. -/
def mark (b : Breakpoint) : Text := if b.name.isEmpty then [] else b.name ++ ":"

/-- The mark of the tier at a position; there is none past the ladder. -/
def ladderMark? (position : Nat) : Option Text := ladder[position]?.map mark

/-- The mark for a key.  Any key is taken as it is, and only the base name has no mark. -/
def keyMark (key : Text) : Text := if key = baseName then [] else key ++ ":"

end Breakpoint

end SpacingClasses
