import SpacingClasses.Text.Basic

/-!
# Likeness of texts

How much two texts have in common: the longest block of characters that both hold, and then, on
each side of it, again the longest block, and so on.  `Text.closest?` picks the candidate most like
a text, if at least three fifths of the characters of both are matched.
-/

namespace SpacingClasses.Text

/-- A block that two texts share: where it starts in each, and its length. -/
structure Block where
  left : Nat
  right : Nat
  size : Nat
  deriving DecidableEq, Repr

/-- The number of characters that two texts share at their fronts. -/
def commonFront : Text → Text → Nat
  | c :: t, d :: u => if c = d then commonFront t u + 1 else 0
  | _, _ => 0

/-- The longest of the blocks found so far and those that start in a left text at its front, and
in the right text anywhere. -/
def longestFrom (left : Nat) (t : Text) (right : Nat) (best : Block) : Text → Block
  | [] => best
  | d :: u =>
    let size := commonFront t (d :: u)
    longestFrom left t (right + 1) (if best.size < size then ⟨left, right, size⟩ else best) u

/-- The longest of the blocks found so far and those of two texts; of several, the first in the left
text, and then in the right one. -/
def longestBlock (u : Text) (left : Nat) (best : Block) : Text → Block
  | [] => best
  | c :: t => longestBlock u (left + 1) (longestFrom left (c :: t) 0 best u) t

/-- The number of characters in the shared blocks, in as many rounds as `fuel` allows. -/
def matchedIn : Nat → Text → Text → Nat
  | 0, _, _ => 0
  | fuel + 1, t, u =>
    let block := longestBlock u 0 ⟨0, 0, 0⟩ t
    if block.size = 0 then 0
    else
      matchedIn fuel (t.take block.left) (u.take block.right) + block.size +
        matchedIn fuel (t.drop (block.left + block.size)) (u.drop (block.right + block.size))

/-- The number of characters of two texts that are matched. -/
def matched (t u : Text) : Nat := matchedIn t.length t u

/-- A candidate with the characters that are matched and those of both texts. -/
structure Candidate where
  name : Text
  matched : Nat
  total : Nat
  deriving DecidableEq, Repr

/-- Whether at least three fifths of the characters are matched. -/
def Candidate.isClose (c : Candidate) : Bool := 3 * c.total ≤ 10 * c.matched

/-- Whether the second candidate is preferred: more alike, or as much so and later in the order of
code points. -/
def Candidate.yields (c d : Candidate) : Bool :=
  let left := c.matched * d.total
  let right := d.matched * c.total
  left < right || (left == right && before c.name d.name)

/-- A name as a candidate for a word; when the shorter text is too short, nothing is counted. -/
def candidate (word name : Text) : Candidate :=
  let total := name.length + word.length
  if 3 * total ≤ 10 * min name.length word.length then ⟨name, matched name word, total⟩
  else ⟨name, 0, total⟩

/-- The name most like a word, if one comes close. -/
def closest? (word : Text) (names : List Text) : Option Text :=
  let close := (names.map (candidate word)).filter Candidate.isClose
  (close.foldl
    (fun best c =>
      match best with
      | none => some c
      | some b => if b.yields c then some c else some b)
    none).map (·.name)

end SpacingClasses.Text
