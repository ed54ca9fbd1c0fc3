import SpacingClasses.Command.Basic
import SpacingClasses.Proofs.Batch.Readable
import SpacingClasses.Proofs.Json.Values
import SpacingClasses.Proofs.Settings

/-!
# What commands find

What arguments and files are read as, and the causes why they are not.

* `Command.answers_readArgument` : the value of an argument is readable;
* `Command.answers_batchAt` : so is the batch of a props file;
* `Command.answers_settingsAt` : the settings of a project are found;
* `Command.answers_logWrites` : the log of a readable batch is written, unless its directory cannot be
  made.
-/

namespace SpacingClasses

namespace Command

open Attribute (Any)
open Value (Readable)

variable {long blocked : Prop} {w : World} {path root : Path} {settings : Settings}
  {b : Batch} {t : Text} {v : Value}

/-! ### Arguments -/

/-- The value of an argument is readable, or a number in it is too long. -/
theorem answers_readArgument (hlong : Short long t) :
    Answers (Readable long Any) long blocked (readArgument t) := by
  rw [readArgument]
  split
  · rename_i v hv
    exact Json.readable_of_read hlong (fun _ _ => trivial) hv
  · split
    · exact Attribute.answers_read hlong
    · exact .text trivial

theorem readable_of_readArgument (h : readArgument t = .ok v) : Readable True Any v := by
  have hanswers : Answers (Readable True Any) True True (readArgument t) :=
    answers_readArgument fun _ => trivial
  exact hanswers.of_ok h

/-! ### Files -/

/-- The texts of a JSON source are short if it has no long row of digits, by whatever escapes. -/
theorem reads_short (hlong : t.HasRow Json.isCodeChar Integer.maxDigits → long) :
    Json.Reads (Short long) t := by
  intro u read rest hu hchars hrow
  exact hlong ((hchars.hasRow hrow).of_part hu.isInfix)

/-- The text of a file is found, or there is an obstacle at its path. -/
theorem answers_lookUp (hblocked : ∀ o, w.files.find? path = .error o → blocked) :
    Answers (fun content => w.files.find? path = .ok content) long blocked (lookUp w path) := by
  rw [lookUp]
  cases h : w.files.find? path with
  | ok content => exact rfl
  | error o => exact .obstructed o _ (hblocked o h)

/-- The value in a props file is readable, or there is a cause why it is not read. -/
theorem answers_readProps
    (hlong : ∀ t, w.files.find? path = .ok (some t) →
      t.HasRow Json.isCodeChar Integer.maxDigits → long)
    (hblocked : ∀ o, w.files.find? path = .error o → blocked) :
    Answers (Readable long (Short long)) long blocked (readProps w path) := by
  refine (answers_lookUp hblocked).bind fun content hcontent => ?_
  cases content with
  | none => exact .report _
  | some t =>
    have hcode : (Text.normalizeLineEnds t).HasRow Json.isCodeChar Integer.maxDigits → long :=
      fun h => hlong t hcontent (h.of_normalizeLineEnds (by decide))
    have hdigits : Short long (Text.normalizeLineEnds t) :=
      fun h => hcode (h.imp fun _ => Json.isCodeChar_of_isDigit)
    dsimp only
    split
    · rename_i v hv
      exact Json.readable_of_read hdigits (reads_short hcode) hv
    · rename_i digits hlimit
      exact .digitLimit _ (Json.long_of_read hdigits hlimit)
    · exact .report _
    · exact .report _

/-- A batch of the props of a file is readable, or there is a cause why there is none. -/
theorem answers_batchAt (settings : Settings)
    (hlong : ∀ t, w.files.find? path = .ok (some t) →
      t.HasRow Json.isCodeChar Integer.maxDigits → long)
    (hblocked : ∀ o, w.files.find? path = .error o → blocked) :
    Answers (Batch.Readable long blocked) long blocked (batchAt w settings path) := by
  refine (answers_readProps hlong hblocked).bind fun v hv => ?_
  have hb : (Batch.ofValue settings.skipUnknown v).Readable long blocked :=
    Batch.readable_ofValue hv
  dsimp only
  split
  · rename_i f hf
    exact hb.stopped f hf
  · exact hb

theorem readable_of_batchAt (h : batchAt w settings path = .ok b) : b.Readable True True :=
  (answers_batchAt settings (fun _ _ _ => trivial) fun _ _ => trivial).of_ok h

/-- The settings of a project are found, or there is a cause why they are not. -/
theorem answers_settingsAt
    (hlong : ∀ t, w.files.find? (settingsPath root) = .ok (some t) →
      t.HasRow Toml.isNumberChar Toml.longRow → long)
    (hblocked : ∀ o, w.files.find? (settingsPath root) = .error o → blocked) :
    Answers (fun _ => True) long blocked (settingsAt w root) := by
  refine (answers_lookUp hblocked).bind fun content hcontent => ?_
  have hresolve : Answers (fun _ => True) long blocked (Settings.resolve content w.environment) :=
    Settings.answers_resolve (fun t ht => hlong t (ht ▸ hcontent)) w.environment
  exact hresolve.bind fun _ _ => trivial

/-- The files that are written for a batch. -/
def logWrites (w : World) (settings : Settings) (root : Path) (b : Batch) :
    Except Failure (List (Path × Text)) :=
  if settings.persist then do
    return [← Log.file w.files (b.logTo { floor := settings.level }) (root.below Log.filePath)]
  else .ok []

/-- The log of a readable batch can be written, unless its directory cannot be made. -/
theorem answers_logWrites (hb : b.Readable long blocked)
    (hblocked : settings.persist = true →
      ∀ o, w.files.prepare (root.below Log.filePath) = .error o → blocked) :
    Answers (fun writes => writes = [] ∨ settings.persist = true ∧
        ∃ t, writes = [((root.below Log.filePath).settle, t)]) long blocked
      (logWrites w settings root b) := by
  rw [logWrites]
  split
  · rename_i hpersist
    obtain ⟨t, ht⟩ := hb.exists_fileText settings.level
    rw [Log.file, ht]
    cases h : w.files.prepare (root.below Log.filePath) with
    | ok _ => exact .inr ⟨hpersist, t, rfl⟩
    | error o => exact .obstructed o.1 _ (hblocked hpersist o h)
  · exact .inl rfl

end Command

end SpacingClasses
