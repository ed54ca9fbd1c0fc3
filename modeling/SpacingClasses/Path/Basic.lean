import SpacingClasses.Text.Basic

/-!
# Paths

Paths of files, with slashes between their parts.  `Path.settle` resolves the parts that lead back
up.
-/

namespace SpacingClasses

/-- A path: what it starts with if it is absolute, and its parts. -/
structure Path where
  root : Text
  parts : List Text
  deriving DecidableEq, Repr

namespace Path

/-- The parts between slashes. -/
def splitSlashes : Text → List Text
  | [] => [[]]
  | '/' :: rest => [] :: splitSlashes rest
  | c :: rest =>
    match splitSlashes rest with
    | [] => [[c]]
    | part :: parts => (c :: part) :: parts

/-- The start of an absolute path: one slash, or two if there are exactly two. -/
def rootOf : Text → Text
  | '/' :: '/' :: '/' :: _ => ['/']
  | '/' :: '/' :: _ => ['/', '/']
  | '/' :: _ => ['/']
  | _ => []

/-- The part that stands for the directory itself. -/
def here : Text := ['.']

/-- The part that leads one directory up. -/
def up : Text := ['.', '.']

/-- The path that a text writes; empty parts and parts for the directory itself are left out. -/
def ofText (t : Text) : Path :=
  ⟨rootOf t, (splitSlashes t).filter fun part => !part.isEmpty && part != here⟩

/-- The path as a text. -/
def text (p : Path) : Text :=
  if p.root.isEmpty && p.parts.isEmpty then here
  else p.root ++ Text.joined ['/'] p.parts

/-- The last part. -/
def name (p : Path) : Text := p.parts.getLastD []

/-- The path of something below a directory. -/
def below (p : Path) (parts : List Text) : Path := { p with parts := p.parts ++ parts }

/-- Parts without those that lead back up, except at the front.  The parts so far come in
reverse. -/
def settleParts : List Text → List Text → List Text
  | settled, [] => settled.reverse
  | settled, part :: rest =>
    if part = up then
      match settled with
      | last :: before =>
        if last = up then settleParts (up :: settled) rest else settleParts before rest
      | [] => settleParts [up] rest
    else settleParts (part :: settled) rest

/-- The path without parts that lead back up, except at the front of a relative one. -/
def settle (p : Path) : Path :=
  let parts := settleParts [] p.parts
  { p with parts := if p.root.isEmpty then parts else parts.dropWhile (· == up) }

/-- The directory that holds a file. -/
def parent (p : Path) : Path :=
  let settled := p.settle
  if settled.parts.isEmpty || settled.parts.getLastD [] = up then
    if p.root.isEmpty then { settled with parts := settled.parts ++ [up] } else settled
  else { settled with parts := settled.parts.dropLast }

end Path

end SpacingClasses
