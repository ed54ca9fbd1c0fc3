import SpacingClasses.Log
import SpacingClasses.Path.Files

/-!
# The log file

The events of a project are kept in a file below its root, and read back from there.

* `Log.file` : what is to be written where, once the directories above are made;
* `Log.read` : the events in the log file of a project, if it has one;
* `Files.save` : empties a file, puts a text into bytes and writes them, in this order;
* `Journal.flush` : writes the events of a store to the log file.
-/

namespace SpacingClasses

/-- The files after one is written at a path. -/
def Files.write (files : Files) (p : Path) (content : Text) : Files :=
  (p, content) :: files.filter fun (q, _) => q != p

/-- Writes a text to the file at a path.  The file is empty from when it is opened, which is before
the text is put into bytes; it stays empty if that fails. -/
def Files.save (files : Files) (e : Encoding) (p : Path) (content : Text) :
    Except Failure Unit × Files :=
  match e.gap? content with
  | some gap => (.error (.unencodable gap), files.write p [])
  | none => (.ok (), files.write p content)

namespace Log

/-- The path of the log file of a project, if there is a root to find it from. -/
def path? (root : Option Path) : Option Path := root.map (·.below filePath)

/-- The file to be written at a path for the events of a store.  The directories above it are made
before the events are put into words. -/
def file (files : Files) (store : Store) (p : Path) : Except Failure (Path × Text) := do
  (files.prepare p).mapError fun (o, q) => .obstructed o q.text
  return (p.settle, ← store.fileText)

/-- The events in the log file of a project; if there is no such file, or a directory in its place,
there are none. -/
def read (files : Files) (root : Option Path) : Except Failure (List Value) :=
  match path? root with
  | none => .ok []
  | some p =>
    match files.find? p.settle with
    | .ok none => .ok []
    | .ok (some content) => readBack content
    | .error .isDirectory => .ok []
    | .error o => .error (.obstructed o p.text)

end Log

/-- A store, the root of the project that it logs for, if there is one, the files, and the encoding
that they are written in. -/
structure Journal where
  store : Store
  root : Option Path
  files : Files := []
  encoding : Encoding := .whole

/-- Writes the events to the log file and gives its path; without a root nothing is written. -/
def Journal.flush (j : Journal) : Except Failure (Option Path) × Journal :=
  match Log.path? j.root with
  | none => (.ok none, j)
  | some p =>
    match Log.file j.files j.store p with
    | .error f => (.error f, j)
    | .ok (q, content) =>
      let (saved, files) := j.files.save j.encoding q content
      (saved.map fun _ => some p, { j with files })

end SpacingClasses
