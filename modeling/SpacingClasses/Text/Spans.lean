import SpacingClasses.Text.Basic

/-!
# Spans of code points

A class of characters is given by the spans of its code points, in ascending order.
-/

namespace SpacingClasses.Text

/-- Whether a number lies in one of the ascending spans. -/
def inSpans (n : Nat) : List (Nat × Nat) → Bool
  | [] => false
  | (first, last) :: spans => first ≤ n && (n ≤ last || inSpans n spans)

end SpacingClasses.Text
