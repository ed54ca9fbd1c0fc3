import SpacingClasses.Path.Basic
import SpacingClasses.Path.Obstacle

/-!
# Files

The files that a program finds, and the directories that they lie in.  Of what lies outside the
working directory only single files are known, and the directories above them and above it.

* `Files.walk` follows the parts of a path from the working directory;
* `Files.find?` gives the text of the file at a path, or what keeps the path from being looked up;
* `Files.prepare` makes the directory for a file, and those above it, as far as they are missing.
-/

namespace SpacingClasses

/-- Files by their paths, relative ones seen from the working directory. -/
abbrev Files := List (Path × Text)

/-- Where a walk along a path stands. -/
inductive Spot where
  /-- In a directory, told by its parts from the working directory. -/
  | directory (parts : List Text)
  /-- At a file with this text. -/
  | file (content : Text)
  /-- At a name in a directory that nothing has yet. -/
  | free (parts : List Text)
  /-- In a directory above the working directory, or above a file outside. -/
  | above
  /-- Outside the working directory, where nothing else is known. -/
  | outside
  deriving DecidableEq, Repr

/-- Whether the spot is a directory. -/
def Spot.isDirectory : Spot → Bool
  | directory _ | above => true
  | file _ | free _ | outside => false

namespace Files

/-- The greatest number of bytes that a name may have. -/
def longestName : Nat := 255

/-- The greatest number of bytes that a path may have. -/
def longestPath : Nat := 4095

/-- The number of bytes of a text in its encoding. -/
def byteCount (t : Text) : Nat := (String.ofList t).utf8ByteSize

/-- Whether some file lies in the working directory below these parts. -/
def hasDirectory (files : Files) (parts : List Text) : Bool :=
  files.any fun (p, _) =>
    p.root.isEmpty && parts.isPrefixOf p.parts && parts.length < p.parts.length

/-- What stands at these parts, all of which but the last lead into a directory.  Besides those that
hold files the directories are known that have been made. -/
def spotAt (files : Files) (made : List (List Text)) (parts : List Text) : Spot :=
  if hasDirectory files parts || made.contains parts then .directory parts
  else
    match files.lookup ⟨[], parts⟩ with
    | some content => .file content
    | none => .free parts

/-- Follows the parts of a path from a spot. -/
def walk (files : Files) (made : List (List Text)) : Spot → List Text → Except Obstacle Spot
  | spot, [] => .ok spot
  | .file _, _ :: _ => .error .notDirectory
  | .free _, _ :: _ => .error .missing
  | .outside, _ :: _ => .ok .outside
  | .above, part :: rest =>
    if longestName < byteCount part then .error .overlong
    else walk files made (if part = Path.up then .above else .outside) rest
  | .directory here, part :: rest =>
    if longestName < byteCount part then .error .overlong
    else if part = Path.up then
      walk files made (if here.isEmpty then .above else .directory here.dropLast) rest
    else walk files made (spotAt files made (here ++ [part])) rest

/-- Follows a path.  Of an absolute path it is only known whether it leads to a file or through one,
and whether it leads up to the root or to a directory above a file. -/
def locate (files : Files) (made : List (List Text)) (p : Path) : Except Obstacle Spot :=
  if longestPath < byteCount p.text then .error .overlong
  else if p.root.isEmpty then walk files made (.directory []) p.parts
  else if p.parts.any fun part => longestName < byteCount part then .error .overlong
  else
    match files.lookup p with
    | some content => .ok (.file content)
    | none =>
      if files.any fun (q, _) => q.root == p.root && q.parts.isPrefixOf p.parts then
        .error .notDirectory
      else if p.parts.all (· == Path.up) ||
          files.any fun (q, _) => q.root == p.root && p.parts.isPrefixOf q.parts then
        .ok .above
      else .ok .outside

/-- The text of the file at a path, if there is one.  A directory is found there as well but has no
text, and a path that is too long cannot be looked up. -/
def find? (files : Files) (p : Path) : Except Obstacle (Option Text) :=
  match files.lookup p with
  | some content => .ok (some content)
  | none =>
    match locate files [] p with
    | .ok (.file content) => .ok (some content)
    | .ok spot => if spot.isDirectory then .error .isDirectory else .ok none
    | .error .overlong => .error .overlong
    | .error _ => .ok none

/-- The text of the file at a path, if there is one. -/
def read? (files : Files) (p : Path) : Option Text := (find? files p).toOption.join

/-- The directories that have been made, after one is made at a path. -/
def makeOne (files : Files) (made : List (List Text)) (p : Path) :
    Except Obstacle (List (List Text)) :=
  match locate files made p with
  | .error o => .error o
  | .ok (.free parts) => .ok (made ++ [parts])
  | .ok .outside => .ok made
  | .ok _ => .error .taken

/-- Whether a directory stands at a path. -/
def isDirectory (files : Files) (made : List (List Text)) (p : Path) : Bool :=
  match locate files made p with
  | .ok spot => spot.isDirectory
  | .error _ => false

/-- As `makeOne`, except that a directory may be there already; the failure tells the path. -/
def makeIfAbsent (files : Files) (made : List (List Text)) (p : Path) :
    Except (Obstacle × Path) (List (List Text)) :=
  match makeOne files made p with
  | .ok made => .ok made
  | .error o => if isDirectory files made p then .ok made else .error (o, p)

/-- As `makeIfAbsent`, except that missing directories above are made first.  The parts of the path
come in reverse. -/
def makeAll (files : Files) (root : Text) :
    List Text → List (List Text) → Except (Obstacle × Path) (List (List Text))
  | [], made => makeIfAbsent files made ⟨root, []⟩
  | part :: above, made =>
    let p : Path := ⟨root, (part :: above).reverse⟩
    match makeOne files made p with
    | .error .missing => do makeIfAbsent files (← makeAll files root above made) p
    | _ => makeIfAbsent files made p

/-- Makes the directories above a path, as far as they are missing, so that a file can be written
there; the failure tells at which path it is met. -/
def prepare (files : Files) (p : Path) : Except (Obstacle × Path) Unit := do
  let made ← makeAll files p.root p.parts.dropLast.reverse []
  match locate files made p with
  | .ok spot => if spot.isDirectory then .error (.isDirectory, p) else .ok ()
  | .error o => .error (o, p)

end Files

end SpacingClasses
