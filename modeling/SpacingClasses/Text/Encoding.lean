import SpacingClasses.Text.Basic

/-!
# Encodings

A program may hold half of a surrogate pair as a character of a text.  Such a half has no bytes of
its own, so that a text with one in it cannot be written to a file.  A `Text` has whole characters
only, and an `Encoding` tells which of them stand for halves.

* `Encoding.gap?` : the first place of a text that cannot be put into bytes.
-/

namespace SpacingClasses

/-- Which characters have bytes. -/
structure Encoding where
  /-- The code of the half of a surrogate pair that a character stands for, if it stands for one. -/
  half? : Char → Option Nat
  /-- An ASCII character stands for itself. -/
  ascii : ∀ c, c.toNat < 128 → half? c = none

namespace Encoding

/-- Every character stands for itself. -/
def whole : Encoding := ⟨fun _ => none, fun _ _ => rfl⟩

/-- Characters of a text that have no bytes. -/
structure Gap where
  /-- The half that the first of them is. -/
  half : Nat
  first : Nat
  last : Nat
  deriving DecidableEq, Repr

/-- The gap in words. -/
def Gap.text (g : Gap) : Text :=
  if g.first = g.last then
    "'utf-8' codec can't encode character '\\u" ++ Text.hex 4 g.half ++ "' in position " ++
      Text.ofNat g.first ++ ": surrogates not allowed"
  else
    "'utf-8' codec can't encode characters in position " ++ Text.ofNat g.first ++ "-" ++
      Text.ofNat g.last ++ ": surrogates not allowed"

/-- The first characters of a text that have no bytes, from a position on. -/
def gapFrom? (e : Encoding) (position : Nat) : Text → Option Gap
  | [] => none
  | c :: rest =>
    match e.half? c with
    | none => gapFrom? e (position + 1) rest
    | some half =>
      some ⟨half, position, position + (rest.takeWhile fun d => (e.half? d).isSome).length⟩

/-- The first characters of a text that have no bytes. -/
def gap? (e : Encoding) (t : Text) : Option Gap := gapFrom? e 0 t

end Encoding

end SpacingClasses
