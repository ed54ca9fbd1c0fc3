import SpacingClasses.Proofs.Answer
import SpacingClasses.Proofs.Toml.Tables
import SpacingClasses.Settings

/-!
# Settings are answered

Only one thing keeps settings from being resolved or reported on: an integer in the settings file
that cannot be read, or not be shown.

* `Toml.Legible.answers_inspect` : a legible value is shown, unless it is such an integer;
* `Settings.answers_ofTable`, `Settings.answers_ofEnvironment` : so are the settings of a table and of
  the environment found, or reported on;
* `Settings.answers_resolve` : **so are all settings**.
-/

namespace SpacingClasses

open Text (HasRow)
open Toml (Legible LegibleTable)

variable {long blocked : Prop} {v : Value} {t : Text}

/-! ### Shown values -/

namespace Value

theorem answers_inspectItems {items : List Value}
    (h : ∀ v ∈ items, Answers (fun _ => True) long blocked v.inspect) :
    Answers (fun _ => True) long blocked (inspectItems items) := by
  induction items with
  | nil => exact trivial
  | cons v items ih =>
    rw [List.forall_mem_cons] at h
    exact h.1.bind fun _ _ => (ih h.2).bind fun _ _ => trivial

theorem answers_inspectEntries {rows : List (Text × Value)}
    (h : ∀ e ∈ rows, Answers (fun _ => True) long blocked e.2.inspect) :
    Answers (fun _ => True) long blocked (inspectEntries (named rows)) := by
  induction rows with
  | nil => exact trivial
  | cons e rows ih =>
    rw [List.forall_mem_cons] at h
    exact h.1.bind fun _ _ => (ih h.2).bind fun _ _ => trivial

end Value

/-- A legible value is shown, unless it has too many digits. -/
theorem Toml.Legible.answers_inspect (hv : Legible long v) :
    Answers (fun _ => True) long blocked v.inspect := by
  induction hv with
  | bool b => exact trivial
  | @int n h =>
    rw [Value.inspect, Integer.write]
    split
    · exact trivial
    · rename_i htoo
      exact .digitLimit _ (h (Nat.not_le.1 htoo))
  | float x => exact trivial
  | text t => exact trivial
  | moment m => exact trivial
  | list _ ih => exact (Value.answers_inspectItems ih).bind fun _ _ => trivial
  | dict _ ih => exact (Value.answers_inspectEntries ih).bind fun _ _ => trivial

namespace Settings

variable {table : Toml.Table} {name : Text}

/-! ### Single settings -/

theorem answers_truth (hv : Legible long v) (name : Text) :
    Answers (fun _ => True) long blocked (truth name v) := by
  unfold truth
  extract_lets read
  clear_value read
  cases read with
  | some _ => exact trivial
  | none => exact hv.answers_inspect.bind fun shown _ => Failure.Told.report _

theorem answers_logLevel (hv : Legible long v) (name : Text) :
    Answers (fun _ => True) long blocked (logLevel name v) := by
  unfold logLevel
  extract_lets read
  clear_value read
  cases read with
  | some _ => exact trivial
  | none => exact hv.answers_inspect.bind fun shown _ => Failure.Told.report _

theorem answers_given? {α : Type} {read : Value → Except Failure α} {given : Option Value}
    (h : ∀ v, given = some v → Answers (fun _ => True) long blocked (read v)) :
    Answers (fun _ => True) long blocked (given? read given) := by
  cases given with
  | none => exact trivial
  | some v => exact (h v rfl).bind fun _ _ => trivial

/-! ### All settings -/

theorem legibleTable_sectionOf (h : LegibleTable long table) (name : Text) :
    LegibleTable long (sectionOf table name) := by
  rw [sectionOf]
  split
  · rename_i entries hentries
    exact .of_dict (h.find? hentries)
  · exact Toml.legibleTable_nil

/-- The settings of a legible table are found or reported on. -/
theorem answers_ofTable (h : LegibleTable long table) :
    Answers (fun _ => True) long blocked (ofTable table) := by
  have hfound : ∀ {name key v}, Value.find? (sectionOf table name) key = some v →
      Legible long v := fun hv => (legibleTable_sectionOf h _).find? hv
  refine (answers_given? fun v hv => answers_truth (hfound hv) _).bind fun _ _ => ?_
  refine (answers_given? fun v hv => answers_logLevel (hfound hv) _).bind fun _ _ => ?_
  exact (answers_given? fun v hv => answers_truth (hfound hv) _).bind fun _ _ => trivial

theorem legible_of_fromVariable? {environment : List (Text × Text)}
    (h : fromVariable? environment name = some v) : Legible long v := by
  obtain ⟨t, -, rfl⟩ := Option.map_eq_some_iff.1 h
  exact .text t

/-- The settings of the environment are found or reported on. -/
theorem answers_ofEnvironment (environment : List (Text × Text)) :
    Answers (fun _ => True) long blocked (ofEnvironment environment) := by
  refine (answers_given? fun v hv => answers_truth (legible_of_fromVariable? hv) _).bind
    fun _ _ => ?_
  refine (answers_given? fun v hv => answers_logLevel (legible_of_fromVariable? hv) _).bind
    fun _ _ => ?_
  exact (answers_given? fun v hv => answers_truth (legible_of_fromVariable? hv) _).bind
    fun _ _ => trivial

theorem answers_readTable (hlong : t.HasRow Toml.isNumberChar Toml.longRow → long) :
    Answers (LegibleTable long) long blocked (readTable t) := by
  have hread : Reader.Yields (LegibleTable long) long (Toml.read (Text.normalizeLineEnds t)) :=
    Toml.yields_read fun h => hlong (h.of_normalizeLineEnds (by decide))
  rw [readTable]
  split
  · rename_i table h
    rw [h] at hread
    exact hread
  · rename_i digits h
    rw [h] at hread
    exact .digitLimit _ hread
  · exact .report _
  · exact .report _

/-- **Settings are found or reported on**, but for an integer in the file that has a long row. -/
theorem answers_resolve {file : Option Text}
    (hlong : ∀ t, file = some t → t.HasRow Toml.isNumberChar Toml.longRow → long)
    (environment : List (Text × Text)) :
    Answers (fun _ => True) long blocked (resolve file environment) := by
  have hcombine : ∀ table, (∀ t, table = some t → LegibleTable long t) →
      Answers (fun _ => True) long blocked (combine table environment) := by
    intro table htable
    have hfile : Answers (fun _ => True) long blocked ((table.map ofTable).getD (.ok {})) := by
      cases table with
      | none => exact trivial
      | some t => exact answers_ofTable (htable t rfl)
    exact hfile.bind fun _ _ => (answers_ofEnvironment environment).bind fun _ _ => trivial
  cases file with
  | none => exact hcombine none nofun
  | some t =>
    refine (answers_readTable (hlong t rfl)).bind fun table htable => hcombine (some table) ?_
    rintro _ ⟨⟩
    exact htable

end Settings

end SpacingClasses
