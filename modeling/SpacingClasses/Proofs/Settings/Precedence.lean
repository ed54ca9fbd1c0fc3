import SpacingClasses.Proofs.Settings
import SpacingClasses.Proofs.Text.Solid
import Mathlib.Data.List.Sublists

/-!
# Which value a setting has

A setting has the value that the environment gives it, or else the one in the settings file, or else
its default, and any value that is given and makes no sense is reported.

* `Settings.Place.Holds` : the value that is given at a place, in the file or in the environment;
* `Settings.NamesTruth`, `Settings.NamesLevel` : what a value means, if it makes sense;
* `Settings.Chosen` : the meaning by precedence;
* `Settings.FirstUnfit` : the first place of a row whose value makes no sense;
* `Settings.Checks` : a computation looks at a row of places, in this order; `Checks.bind` puts two
  rows together;
* `Settings.combine_precedence` : **settings are resolved by precedence, and fail exactly at the
  first value that makes no sense**.
-/

namespace SpacingClasses

namespace Settings

open Toml (Legible LegibleTable)

variable {α β : Type} {table : Option Toml.Table} {environment : List (Text × Text)} {v : Value}

/-! ### Places -/

/-- A setting. -/
inductive Setting where
  | skipUnknown
  | level
  | persist
  deriving DecidableEq, Repr

/-- The section of a setting in the file, and its key there. -/
def Setting.address : Setting → Text × Text
  | skipUnknown => ("convert", "skip_unknown")
  | level => ("logging", "level")
  | persist => ("logging", "persist")

/-- The environment variable of a setting. -/
def Setting.variableName : Setting → Text
  | skipUnknown => skipUnknownVariable
  | level => levelVariable
  | persist => persistVariable

/-- A place where a setting can be given. -/
structure Place where
  source : SettingsSource
  setting : Setting
  deriving DecidableEq, Repr

/-- The places of a source, in the order in which they are looked at. -/
def placesIn (source : SettingsSource) : List Place :=
  [⟨source, .skipUnknown⟩, ⟨source, .level⟩, ⟨source, .persist⟩]

/-- All places, in the order in which they are looked at. -/
def places : List Place := placesIn .file ++ placesIn .environment

namespace Place

/-- The name that a report gives to a place. -/
def label : Place → Text
  | ⟨.file, setting⟩ => setting.address.1 ++ "." ++ setting.address.2
  | ⟨.environment, setting⟩ => setting.variableName

/-- The value that is given at a place: under the key in the section of the file, if that is a
table, or in the variable, if that is not empty. -/
def Holds (table : Option Toml.Table) (environment : List (Text × Text)) : Place → Value → Prop
  | ⟨.file, setting⟩, v => ∃ entries inner, table = some entries ∧
      Value.find? entries setting.address.1 = some (.dict inner) ∧
      Value.find? inner setting.address.2 = some v
  | ⟨.environment, setting⟩, v => ∃ t, environment.lookup setting.variableName = some t ∧
      t ≠ [] ∧ v = .text t

end Place

/-! ### What values mean -/

/-- A value means a truth value: it is one, or a word for one but for blanks and letter case. -/
inductive NamesTruth : Value → Bool → Prop where
  | bool (b : Bool) : NamesTruth (.bool b) b
  | yes {t : Text} (h : Text.lower (Text.strip t) ∈ trueWords) : NamesTruth (.text t) true
  | no {t : Text} (h : Text.lower (Text.strip t) ∈ falseWords) : NamesTruth (.text t) false

/-- A value means a level: it is its name but for blanks and letter case, or the longer name of
`warn`. -/
inductive NamesLevel : Value → Level → Prop where
  | name {t : Text} {l : Level} (h : Text.lower (Text.strip t) = l.name) : NamesLevel (.text t) l
  | warning {t : Text} (h : Text.lower (Text.strip t) = "warning") : NamesLevel (.text t) .warn

/-- A value makes sense for a setting. -/
def Setting.Fits : Setting → Value → Prop
  | level, v => ∃ l, NamesLevel v l
  | _, v => ∃ b, NamesTruth v b

/-- The report on a value that makes no sense, which is shown in it. -/
def Place.report (p : Place) (shown : Text) : Report :=
  match p.setting with
  | .level => .notLevel p.label shown
  | _ => .notTruth p.label shown

/-- The meaning of a setting by precedence: that of the environment's value, or else of the file's,
or else the default. -/
inductive Chosen (table : Option Toml.Table) (environment : List (Text × Text)) (setting : Setting)
    (Names : Value → α → Prop) (default : α) : α → Prop where
  | environment {v : Value} {a : α} (h : Place.Holds table environment ⟨.environment, setting⟩ v)
      (ha : Names v a) : Chosen table environment setting Names default a
  | file {v : Value} {a : α} (hnone : ∀ w, ¬ Place.Holds table environment ⟨.environment, setting⟩ w)
      (h : Place.Holds table environment ⟨.file, setting⟩ v) (ha : Names v a) :
      Chosen table environment setting Names default a
  | default (hnone : ∀ source w, ¬ Place.Holds table environment ⟨source, setting⟩ w) :
      Chosen table environment setting Names default default

/-- What is given at a place makes sense. -/
def Place.Sound (table : Option Toml.Table) (environment : List (Text × Text)) (p : Place) : Prop :=
  ∀ v, p.Holds table environment v → p.setting.Fits v

/-- The value at a place makes no sense, and all before it in a row do. -/
def FirstUnfit (table : Option Toml.Table) (environment : List (Text × Text)) (row : List Place)
    (p : Place) (v : Value) : Prop :=
  ∃ before after, row = before ++ p :: after ∧ (∀ q ∈ before, q.Sound table environment) ∧
    p.Holds table environment v ∧ ¬ p.setting.Fits v

/-! ### Computations that look at places -/

/-- A computation looks at a row of places: it gives a `good` value if what they hold makes sense,
and reports on the first that makes none. -/
def Checks (table : Option Toml.Table) (environment : List (Text × Text)) (row : List Place)
    (good : α → Prop) : Except Failure α → Prop
  | .ok a => good a ∧ ∀ p ∈ row, p.Sound table environment
  | .error f => ∃ p v shown, FirstUnfit table environment row p v ∧ v.inspect = .ok shown ∧
      f = .report (p.report shown)

theorem Checks.bind {row row' : List Place} {good : α → Prop} {good' : β → Prop}
    {x : Except Failure α} {f : α → Except Failure β} (hx : Checks table environment row good x)
    (hf : ∀ a, good a → Checks table environment row' good' (f a)) :
    Checks table environment (row ++ row') good' (x >>= f) := by
  cases x with
  | error e =>
    obtain ⟨p, v, shown, ⟨before, after, rfl, hbefore⟩, hshown⟩ := hx
    exact ⟨p, v, shown, ⟨before, after ++ row', by simp, hbefore⟩, hshown⟩
  | ok a =>
    obtain ⟨ha, hrow⟩ := hx
    have hnext := hf a ha
    rw [ok_bind]
    cases hfa : f a with
    | error e =>
      rw [hfa] at hnext
      obtain ⟨p, v, shown, ⟨before, after, rfl, hbefore, hp⟩, hshown⟩ := hnext
      refine ⟨p, v, shown, ⟨row ++ before, after, by simp, ?_, hp⟩, hshown⟩
      exact List.forall_mem_append.2 ⟨hrow, hbefore⟩
    | ok b =>
      rw [hfa] at hnext
      exact ⟨hnext.1, List.forall_mem_append.2 ⟨hrow, hnext.2⟩⟩

theorem Checks.map {row : List Place} {good : α → Prop} {good' : β → Prop} {x : Except Failure α}
    {f : α → β} (hx : Checks table environment row good x) (hf : ∀ a, good a → good' (f a)) :
    Checks table environment row good' (x >>= fun a => pure (f a)) := by
  cases x with
  | error e => exact hx
  | ok a => exact ⟨hf a hx.1, hx.2⟩

/-! ### Single values -/

theorem NamesTruth.eq {b c : Bool} (hb : NamesTruth v b) (hc : NamesTruth v c) : b = c := by
  -- no word is both for true and for false
  have hwords : ∀ w ∈ trueWords, w ∉ falseWords := by decide
  cases hb with
  | bool b =>
    cases hc
    rfl
  | yes h =>
    cases hc with
    | yes => rfl
    | no h' => exact absurd h' (hwords _ h)
  | no h =>
    cases hc with
    | yes h' => exact absurd h (hwords _ h')
    | no => rfl

theorem name_injective {l m : Level} (h : l.name = m.name) : l = m := by
  cases l <;> cases m <;> first | rfl | exact absurd h (by decide)

theorem NamesLevel.eq {l m : Level} (hl : NamesLevel v l) (hm : NamesLevel v m) : l = m := by
  -- the longer name is the name of no level
  have hlonger : ∀ k : Level, ("warning" : Text) ≠ k.name := by
    intro k
    cases k <;> decide
  cases hl with
  | name h =>
    cases hm with
    | name h' => exact name_injective (h.symm.trans h')
    | warning h' => exact absurd (h'.symm.trans h) (hlonger _)
  | warning h =>
    cases hm with
    | name h' => exact absurd (h.symm.trans h') (hlonger _)
    | warning => rfl

/-- A value is read as the truth value that it means, or reported on. -/
theorem truth_cases (name : Text) (v : Value) : (∃ b, NamesTruth v b ∧ truth name v = .ok b) ∨
    (¬ ∃ b, NamesTruth v b) ∧ truth name v =
      (v.inspect >>= fun shown => .error (.report (.notTruth name shown))) := by
  cases v with
  | bool b => exact .inl ⟨b, .bool b, rfl⟩
  | text t =>
    by_cases hyes : Text.lower (Text.strip t) ∈ trueWords
    · exact .inl ⟨true, .yes hyes, by simp [truth, truthOfText?, hyes]⟩
    · by_cases hno : Text.lower (Text.strip t) ∈ falseWords
      · exact .inl ⟨false, .no hno, by simp [truth, truthOfText?, hyes, hno]⟩
      · have hnone : truthOfText? t = none := by simp [truthOfText?, hyes, hno]
        refine .inr ⟨?_, by simp only [truth, hnone]; rfl⟩
        rintro ⟨b, hb⟩
        cases hb with
        | yes h => exact hyes h
        | no h => exact hno h
  | _ =>
    refine .inr ⟨?_, rfl⟩
    rintro ⟨b, hb⟩
    cases hb

theorem ofName?_eq_some_iff {name : Text} {l : Level} : Level.ofName? name = some l ↔
    name = l.name ∨ name = "warning" ∧ l = .warn := by
  constructor
  · intro h
    unfold Level.ofName? at h
    split at h
    · cases h
      exact .inl ‹_›
    split at h
    · cases h
      exact .inl ‹_›
    split at h
    · rename_i hwarn
      cases h
      rw [Bool.or_eq_true, decide_eq_true_eq, decide_eq_true_eq] at hwarn
      exact hwarn.imp_right fun hlonger => ⟨hlonger, rfl⟩
    split at h
    · cases h
      exact .inl ‹_›
    · cases h
  · rintro (rfl | ⟨rfl, rfl⟩)
    · cases l <;> rfl
    · rfl

/-- A value is read as the level that it means, or reported on. -/
theorem logLevel_cases (name : Text) (v : Value) :
    (∃ l, NamesLevel v l ∧ logLevel name v = .ok l) ∨
    (¬ ∃ l, NamesLevel v l) ∧ logLevel name v =
      (v.inspect >>= fun shown => .error (.report (.notLevel name shown))) := by
  cases v with
  | text t =>
    cases h : Level.ofText? t with
    | some l =>
      refine .inl ⟨l, ?_, by simp [logLevel, h]⟩
      rcases ofName?_eq_some_iff.1 h with hname | ⟨hname, rfl⟩
      · exact .name hname
      · exact .warning hname
    | none =>
      refine .inr ⟨?_, by simp only [logLevel, h]; rfl⟩
      rintro ⟨l, hl⟩
      have hsome : Level.ofText? t = some l := by
        cases hl with
        | name h => exact ofName?_eq_some_iff.2 (.inl h)
        | warning h => exact ofName?_eq_some_iff.2 (.inr ⟨h, rfl⟩)
      rw [h] at hsome
      cases hsome
  | _ =>
    refine .inr ⟨?_, rfl⟩
    rintro ⟨l, hl⟩
    cases hl

/-- What has been read at a place, if it holds a value. -/
def Found (holds : Value → Prop) (Names : Value → α → Prop) : Option α → Prop
  | some a => ∃ v, holds v ∧ Names v a
  | none => ∀ v, ¬ holds v

/-- A value is read at a place that holds one, or reported on. -/
theorem checks_given? {Names : Value → α → Prop} {read : Value → Except Failure α} {p : Place}
    {given : Option Value} (hgiven : ∀ v, given = some v ↔ p.Holds table environment v)
    (hfits : ∀ v, p.setting.Fits v ↔ ∃ a, Names v a)
    (hshown : ∀ v, p.Holds table environment v → ∃ shown, v.inspect = .ok shown)
    (hread : ∀ v, (∃ a, Names v a ∧ read v = .ok a) ∨ (¬ ∃ a, Names v a) ∧
      read v = (v.inspect >>= fun shown => .error (.report (p.report shown)))) :
    Checks table environment [p] (Found (p.Holds table environment) Names) (given? read given) := by
  cases given with
  | none =>
    have hnone : ∀ v, ¬ p.Holds table environment v := fun v hv => nomatch (hgiven v).2 hv
    refine ⟨hnone, List.forall_mem_singleton.2 fun v hv => ?_⟩
    exact absurd hv (hnone v)
  | some v =>
    have hv : p.Holds table environment v := (hgiven v).1 rfl
    rcases hread v with ⟨a, ha, hok⟩ | ⟨hunfit, herror⟩
    · rw [given?, hok]
      refine ⟨⟨v, hv, ha⟩, List.forall_mem_singleton.2 fun w hw => ?_⟩
      -- a place holds one value
      obtain rfl : v = w := Option.some.inj ((hgiven w).2 hw)
      exact (hfits v).2 ⟨a, ha⟩
    · obtain ⟨shown, hinspect⟩ := hshown v hv
      rw [given?, herror, hinspect]
      refine ⟨p, v, shown, ⟨[], [], rfl, by simp, hv, ?_⟩, hinspect, rfl⟩
      rwa [hfits v]

/-! ### The settings of a source -/

/-- What has been read from a source. -/
structure Gives (table : Option Toml.Table) (environment : List (Text × Text))
    (source : SettingsSource) (g : Given) : Prop where
  skipUnknown : Found (Place.Holds table environment ⟨source, .skipUnknown⟩) NamesTruth g.skipUnknown
  level : Found (Place.Holds table environment ⟨source, .level⟩) NamesLevel g.level
  persist : Found (Place.Holds table environment ⟨source, .persist⟩) NamesTruth g.persist

/-- Each source is looked at in the same way. -/
theorem checks_source (source : SettingsSource) (given : Setting → Option Value)
    (hgiven : ∀ setting v,
      given setting = some v ↔ Place.Holds table environment ⟨source, setting⟩ v)
    (hshown : ∀ setting v, Place.Holds table environment ⟨source, setting⟩ v →
      ∃ shown, v.inspect = .ok shown) :
    Checks table environment (placesIn source) (Gives table environment source) (do
      let skipUnknown ← given? (truth (Place.label ⟨source, .skipUnknown⟩)) (given .skipUnknown)
      let level ← given? (logLevel (Place.label ⟨source, .level⟩)) (given .level)
      let persist ← given? (truth (Place.label ⟨source, .persist⟩)) (given .persist)
      return ⟨skipUnknown, level, persist⟩) := by
  have hskip := checks_given? (p := ⟨source, .skipUnknown⟩) (hgiven _) (fun _ => Iff.rfl) (hshown _)
    (truth_cases _)
  have hlevel := checks_given? (p := ⟨source, .level⟩) (hgiven _) (fun _ => Iff.rfl) (hshown _)
    (logLevel_cases _)
  have hpersist := checks_given? (p := ⟨source, .persist⟩) (hgiven _) (fun _ => Iff.rfl) (hshown _)
    (truth_cases _)
  refine hskip.bind fun skipUnknown hskipUnknown => ?_
  refine hlevel.bind fun level hlevel => ?_
  exact hpersist.map fun persist hpersist => ⟨hskipUnknown, hlevel, hpersist⟩

theorem find?_sectionOf_eq_some_iff {entries : Toml.Table} {setting : Setting} :
    Value.find? (sectionOf entries setting.address.1) setting.address.2 = some v ↔
      Place.Holds (some entries) environment ⟨.file, setting⟩ v := by
  constructor
  · intro h
    unfold sectionOf at h
    split at h
    · exact ⟨_, _, rfl, ‹_›, h⟩
    · cases h
  · rintro ⟨_, inner, ⟨⟩, hsection, hv⟩
    rw [sectionOf, hsection]
    exact hv

theorem fromVariable?_eq_some_iff {setting : Setting} :
    fromVariable? environment setting.variableName = some v ↔
      Place.Holds table environment ⟨.environment, setting⟩ v := by
  unfold fromVariable?
  rw [Option.map_eq_some_iff]
  constructor
  · rintro ⟨t, ht, rfl⟩
    obtain ⟨hlookup, hne⟩ := Option.filter_eq_some_iff.1 ht
    exact ⟨t, hlookup, by simpa using hne, rfl⟩
  · rintro ⟨t, hlookup, hne, rfl⟩
    exact ⟨t, Option.filter_eq_some_iff.2 ⟨hlookup, by simpa using hne⟩, rfl⟩

/-! ### Shown values -/

theorem inspectItems_eq_mapM (items : List Value) :
    Value.inspectItems items = items.mapM Value.inspect := by
  induction items with
  | nil => rfl
  | cons v items ih => rw [Value.inspectItems, ih, List.mapM_cons]

theorem inspectEntries_named (rows : List (Text × Value)) :
    Value.inspectEntries (Value.named rows) =
      rows.mapM fun e => do return Text.quoted e.1 ++ ": " ++ (← e.2.inspect) := by
  induction rows with
  | nil => rfl
  | cons e rows ih =>
    rw [Value.named_cons, Value.inspectEntries, ih, List.mapM_cons, Value.inspect, ok_bind]
    simp only [bind_assoc, pure_bind]

/-- A legible value is shown, as its integers are not too long. -/
theorem exists_inspect (h : Legible False v) : ∃ shown, v.inspect = .ok shown := by
  induction h with
  | bool b => exact ⟨_, rfl⟩
  | int h => exact Integer.exists_write (Nat.not_lt.1 h)
  | float x => exact ⟨_, rfl⟩
  | text t => exact ⟨_, rfl⟩
  | moment m => exact ⟨_, rfl⟩
  | list _ ih =>
    rw [Value.inspect, exists_map_eq_ok_iff, inspectItems_eq_mapM, exists_mapM_eq_ok_iff]
    exact ih
  | dict _ ih =>
    rw [Value.inspect, exists_map_eq_ok_iff, inspectEntries_named, exists_mapM_eq_ok_iff]
    intro e he
    rw [exists_map_eq_ok_iff]
    exact ih e he

/-- What a legible file or the environment gives can be shown. -/
theorem Place.Holds.exists_inspect {p : Place} (hv : p.Holds table environment v)
    (h : ∀ entries, table = some entries → LegibleTable False entries) :
    ∃ shown, v.inspect = .ok shown := by
  obtain ⟨source, setting⟩ := p
  cases source with
  | file =>
    obtain ⟨entries, inner, htable, hinner, hv⟩ := hv
    have hlegible : Legible False (.dict inner) := (h entries htable).find? hinner
    exact Settings.exists_inspect ((LegibleTable.of_dict hlegible).find? hv)
  | environment =>
    obtain ⟨t, -, -, rfl⟩ := hv
    exact ⟨_, rfl⟩

/-! ### All settings -/

/-- Without a file, no place in it holds a value. -/
theorem not_holds_none (setting : Setting) (v : Value) :
    ¬ Place.Holds none environment ⟨.file, setting⟩ v := by
  rintro ⟨_, _, ⟨⟩, -⟩

/-- The file is looked at, if there is one. -/
theorem checks_file (h : ∀ entries, table = some entries → LegibleTable False entries) :
    Checks table environment (placesIn .file) (Gives table environment .file)
      ((table.map ofTable).getD (.ok {})) := by
  cases table with
  | none =>
    have hnone : ∀ p ∈ placesIn .file, p.Sound none environment := by
      intro p hp v hv
      have hfile : p.source = .file := by
        simp only [placesIn, List.mem_cons, List.not_mem_nil, or_false] at hp
        rcases hp with rfl | rfl | rfl <;> rfl
      obtain ⟨source, setting⟩ := p
      cases hfile
      exact absurd hv (not_holds_none setting v)
    exact ⟨⟨not_holds_none _, not_holds_none _, not_holds_none _⟩, hnone⟩
  | some entries =>
    exact checks_source .file
      (fun setting => Value.find? (sectionOf entries setting.address.1) setting.address.2)
      (fun _ _ => find?_sectionOf_eq_some_iff) fun _ _ hv => hv.exists_inspect h

/-- The environment is looked at. -/
theorem checks_environment (h : ∀ entries, table = some entries → LegibleTable False entries) :
    Checks table environment (placesIn .environment) (Gives table environment .environment)
      (ofEnvironment environment) :=
  checks_source .environment (fun setting => fromVariable? environment setting.variableName)
    (fun _ _ => fromVariable?_eq_some_iff) fun _ _ hv => hv.exists_inspect h

/-- Settings and their sources, as precedence has them. -/
structure Resolved (table : Option Toml.Table) (environment : List (Text × Text)) (s : Settings)
    (sources : List SettingsSource) : Prop where
  skipUnknown : Chosen table environment .skipUnknown NamesTruth true s.skipUnknown
  level : Chosen table environment .level NamesLevel .info s.level
  persist : Chosen table environment .persist NamesTruth false s.persist
  order : sources.Sublist [.file, .environment]
  file_mem : .file ∈ sources ↔ table.isSome
  environment_mem : .environment ∈ sources ↔
    ∃ setting v, Place.Holds table environment ⟨.environment, setting⟩ v

theorem chosen_of_found {setting : Setting} {Names : Value → α → Prop} {default : α}
    {inFile inEnvironment : Option α}
    (hfile : Found (Place.Holds table environment ⟨.file, setting⟩) Names inFile)
    (henvironment : Found (Place.Holds table environment ⟨.environment, setting⟩) Names
      inEnvironment) :
    Chosen table environment setting Names default
      (inEnvironment.getD (inFile.getD default)) := by
  cases inEnvironment with
  | some a =>
    obtain ⟨v, hv, ha⟩ := henvironment
    exact .environment hv ha
  | none =>
    cases inFile with
    | some a =>
      obtain ⟨v, hv, ha⟩ := hfile
      exact .file henvironment hv ha
    | none =>
      refine .default fun source => ?_
      cases source with
      | file => exact hfile
      | environment => exact henvironment

/-- Something has been found in the environment exactly if one of its variables holds a value. -/
theorem Gives.isAny_iff {g : Given} (h : Gives table environment .environment g) :
    g.isAny = true ↔ ∃ setting v, Place.Holds table environment ⟨.environment, setting⟩ v := by
  have hfound : ∀ {α : Type} {Names : Value → α → Prop} {o : Option α} {holds : Value → Prop},
      Found holds Names o → (o.isSome = true ↔ ∃ v, holds v) := by
    intro α Names o holds ho
    cases o with
    | none => simpa [Found] using ho
    | some a =>
      obtain ⟨v, hv, -⟩ := ho
      simpa using ⟨v, hv⟩
  rw [Given.isAny, Bool.or_eq_true, Bool.or_eq_true, hfound h.skipUnknown, hfound h.level,
    hfound h.persist]
  constructor
  · rintro ((hv | hv) | hv)
    · exact ⟨_, hv⟩
    · exact ⟨_, hv⟩
    · exact ⟨_, hv⟩
  · rintro ⟨setting, hv⟩
    cases setting with
    | skipUnknown => exact .inl (.inl hv)
    | level => exact .inl (.inr hv)
    | persist => exact .inr hv

/-- **All places are looked at, those of the file first**, and the settings are as precedence has
them. -/
theorem checks_combine (h : ∀ entries, table = some entries → LegibleTable False entries) :
    Checks table environment places (fun r => Resolved table environment r.1 r.2)
      (combine table environment) := by
  refine (checks_file h).bind fun inFile hfile => ?_
  refine (checks_environment h).map fun inEnvironment henvironment => ?_
  have hany := henvironment.isAny_iff
  constructor
  · exact chosen_of_found hfile.skipUnknown henvironment.skipUnknown
  · exact chosen_of_found hfile.level henvironment.level
  · exact chosen_of_found hfile.persist henvironment.persist
  · cases table.isSome <;> cases inEnvironment.isAny <;> simp
  · cases table.isSome <;> cases inEnvironment.isAny <;> simp
  · rw [← hany]
    cases table.isSome <;> cases inEnvironment.isAny <;> simp

/-! ### Nothing else -/

variable {s s' : Settings} {sources sources' : List SettingsSource} {row : List Place}

/-- A place holds one value at most. -/
theorem Place.Holds.eq {p : Place} {w : Value} (hv : p.Holds table environment v)
    (hw : p.Holds table environment w) : v = w := by
  obtain ⟨source, setting⟩ := p
  cases source with
  | file =>
    obtain ⟨entries, inner, rfl, hinner, hv⟩ := hv
    obtain ⟨_, inner', ⟨⟩, hinner', hw⟩ := hw
    obtain rfl : inner = inner' := by simpa [hinner] using hinner'
    exact Option.some.inj (hv.symm.trans hw)
  | environment =>
    obtain ⟨t, ht, -, rfl⟩ := hv
    obtain ⟨u, hu, -, rfl⟩ := hw
    rw [Option.some.inj (ht.symm.trans hu)]

/-- Precedence chooses one meaning. -/
theorem Chosen.eq {setting : Setting} {Names : Value → α → Prop} {default a b : α}
    (ha : Chosen table environment setting Names default a)
    (hb : Chosen table environment setting Names default b)
    (hNames : ∀ {v a b}, Names v a → Names v b → a = b) : a = b := by
  cases ha with
  | environment h ha =>
    cases hb with
    | environment h' hb => exact hNames ha (h.eq h' ▸ hb)
    | file hnone => exact absurd h (hnone _)
    | default hnone => exact absurd h (hnone _ _)
  | file hnone h ha =>
    cases hb with
    | environment h' => exact absurd h' (hnone _)
    | file _ h' hb => exact hNames ha (h.eq h' ▸ hb)
    | default hnone' => exact absurd h (hnone' _ _)
  | default hnone =>
    cases hb with
    | environment h => exact absurd h (hnone _ _)
    | file _ h => exact absurd h (hnone _ _)
    | default => rfl

theorem sources_eq (h : sources.Sublist [.file, .environment])
    (h' : sources'.Sublist [.file, .environment]) (hfile : .file ∈ sources ↔ .file ∈ sources')
    (henvironment : .environment ∈ sources ↔ .environment ∈ sources') : sources = sources' := by
  have hall : ∀ l ∈ List.sublists [SettingsSource.file, .environment],
      ∀ l' ∈ List.sublists [SettingsSource.file, .environment],
        (.file ∈ l ↔ .file ∈ l') → (.environment ∈ l ↔ .environment ∈ l') → l = l' := by decide
  exact hall _ (List.mem_sublists.2 h) _ (List.mem_sublists.2 h') hfile henvironment

/-- Precedence makes one result. -/
theorem Resolved.eq (h : Resolved table environment s sources)
    (h' : Resolved table environment s' sources') : s = s' ∧ sources = sources' := by
  constructor
  · have hskip := h.skipUnknown.eq h'.skipUnknown NamesTruth.eq
    have hlevel := h.level.eq h'.level NamesLevel.eq
    have hpersist := h.persist.eq h'.persist NamesTruth.eq
    cases s
    cases s'
    simp only at hskip hlevel hpersist
    rw [hskip, hlevel, hpersist]
  · refine sources_eq h.order h'.order ?_ ?_
    · rw [h.file_mem, h'.file_mem]
    · rw [h.environment_mem, h'.environment_mem]

/-- There is one first place whose value makes no sense. -/
theorem FirstUnfit.eq {p q : Place} {w : Value} (hp : FirstUnfit table environment row p v)
    (hq : FirstUnfit table environment row q w) : p = q ∧ v = w := by
  classical
  have hfirst : ∀ {r u}, FirstUnfit table environment row r u →
      row.find? (fun r => decide (¬ r.Sound table environment)) = some r := by
    rintro r u ⟨before, after, hrow, hbefore, hu, hunfit⟩
    rw [List.find?_eq_some_iff_append]
    refine ⟨?_, before, after, hrow, fun q hq => ?_⟩
    · simpa using fun hsound => hunfit (hsound u hu)
    · simpa using hbefore q hq
  obtain rfl : p = q := Option.some.inj ((hfirst hp).symm.trans (hfirst hq))
  obtain ⟨-, -, -, -, hv, -⟩ := hp
  obtain ⟨-, -, -, -, hw, -⟩ := hq
  exact ⟨rfl, hv.eq hw⟩

theorem mem_places (p : Place) : p ∈ places := by
  obtain ⟨source, setting⟩ := p
  cases source <;> cases setting <;> decide

/-- A message starts with what happened. -/
theorem prefix_message {g : Guidance} {t : Text} (h : t <+: g.what) :
    ("What happened: " : Text) ++ t <+: g.message := by
  refine ((List.prefix_append_right_inj _).2 h).trans ?_
  rw [Guidance.message]
  cases Guidance.line "Why: " g.why ++ Guidance.line "Fix: " g.fix ++
    Guidance.line "Example: " g.sample with
  | nil => rw [Text.joined_singleton]
  | cons line lines =>
    rw [Text.joined_cons_cons]
    exact List.prefix_append ..

/-- The message of a report starts with the name of its place. -/
theorem Place.prefix_message_report (p : Place) (shown : Text) :
    ("What happened: " : Text) ++ p.label <+: (p.report shown).message := by
  obtain ⟨source, setting⟩ := p
  cases setting with
  | level =>
    refine prefix_message ?_
    rw [List.append_assoc, List.append_assoc]
    exact List.prefix_append ..
  | skipUnknown => exact prefix_message (List.prefix_append ..)
  | persist => exact prefix_message (List.prefix_append ..)

/-- What precedence makes of the places is the result if all of them make sense. -/
theorem of_combine_eq_ok (h : ∀ entries, table = some entries → LegibleTable False entries)
    (hok : combine table environment = .ok (s, sources)) :
    (∀ p : Place, p.Sound table environment) ∧ Resolved table environment s sources := by
  have hchecks : Checks table environment places (fun r => Resolved table environment r.1 r.2)
      (combine table environment) := checks_combine h
  rw [hok] at hchecks
  exact ⟨fun p => hchecks.2 p (mem_places p), hchecks.1⟩

/-- A failure is a report on the first value that makes no sense. -/
theorem of_combine_eq_error (h : ∀ entries, table = some entries → LegibleTable False entries)
    {f : Failure} (hf : combine table environment = .error f) :
    ∃ p v shown, FirstUnfit table environment places p v ∧ v.inspect = .ok shown ∧
      f = .report (p.report shown) := by
  have hchecks : Checks table environment places (fun r => Resolved table environment r.1 r.2)
      (combine table environment) := checks_combine h
  rwa [hf] at hchecks

/-- The settings fail exactly if some place holds a value that makes no sense. -/
theorem exists_combine_error_iff
    (h : ∀ entries, table = some entries → LegibleTable False entries) :
    (∃ f, combine table environment = .error f) ↔
      ∃ (p : Place) (v : Value), p.Holds table environment v ∧ ¬ p.setting.Fits v := by
  constructor
  · rintro ⟨f, hf⟩
    obtain ⟨p, v, -, ⟨-, -, -, -, hv, hunfit⟩, -⟩ := of_combine_eq_error h hf
    exact ⟨p, v, hv, hunfit⟩
  · rintro ⟨p, v, hv, hunfit⟩
    cases hx : combine table environment with
    | error f => exact ⟨f, rfl⟩
    | ok r => exact absurd ((of_combine_eq_ok h hx).1 p v hv) hunfit

theorem combine_eq_ok_iff (h : ∀ entries, table = some entries → LegibleTable False entries) :
    combine table environment = .ok (s, sources) ↔
      (∀ p : Place, p.Sound table environment) ∧ Resolved table environment s sources := by
  refine ⟨of_combine_eq_ok h, ?_⟩
  rintro ⟨hsound, hresolved⟩
  cases hx : combine table environment with
  | error f =>
    obtain ⟨p, v, hv, hunfit⟩ := (exists_combine_error_iff h).1 ⟨f, hx⟩
    exact absurd (hsound p v hv) hunfit
  | ok r =>
    obtain ⟨s', sources'⟩ := r
    obtain ⟨rfl, rfl⟩ := hresolved.eq (of_combine_eq_ok h hx).2
    rfl

theorem combine_eq_error_iff (h : ∀ entries, table = some entries → LegibleTable False entries)
    {f : Failure} : combine table environment = .error f ↔
      ∃ p v shown, FirstUnfit table environment places p v ∧ v.inspect = .ok shown ∧
        f = .report (p.report shown) := by
  refine ⟨of_combine_eq_error h, ?_⟩
  rintro ⟨p, v, shown, hfirst, hshown, rfl⟩
  obtain ⟨-, -, -, -, hv, hunfit⟩ := id hfirst
  obtain ⟨f, hf⟩ := (exists_combine_error_iff h).2 ⟨p, v, hv, hunfit⟩
  obtain ⟨q, w, shown', hfirst', hshown', rfl⟩ := of_combine_eq_error h hf
  obtain ⟨rfl, rfl⟩ := hfirst.eq hfirst'
  obtain rfl : shown = shown' := Except.ok.inj (hshown.symm.trans hshown')
  exact hf

/-- The table of the file is what the settings are resolved by. -/
theorem resolve_eq_combine {file : Option Text} (hfile : file.mapM readTable = .ok table) :
    resolve file environment = combine table environment := by
  cases file with
  | none =>
    cases hfile
    rfl
  | some t =>
    obtain ⟨entries, hread, hentries⟩ := bind_eq_ok_iff.1 hfile
    cases hentries
    rw [resolve, hread]
    rfl

/-- **Settings are resolved by precedence, and fail exactly at the first value that makes no
sense**, be it used or not: the report names the place of that value.  The table is the one of the
file, if there is a file. -/
theorem combine_precedence (h : ∀ entries, table = some entries → LegibleTable False entries) :
    (∀ s sources, combine table environment = .ok (s, sources) ↔
      (∀ p : Place, p.Sound table environment) ∧ Resolved table environment s sources) ∧
    (∀ f, combine table environment = .error f ↔ ∃ p v shown,
      FirstUnfit table environment places p v ∧ v.inspect = .ok shown ∧
        f = .report (p.report shown)) ∧
    ((∃ f, combine table environment = .error f) ↔
      ∃ (p : Place) (v : Value), p.Holds table environment v ∧ ¬ p.setting.Fits v) ∧
    (∀ (p : Place) shown,
      ("What happened: " : Text) ++ p.label <+: (p.report shown).message) ∧
    ∀ file : Option Text, file.mapM readTable = .ok table →
      resolve file environment = combine table environment := by
  refine ⟨fun s sources => combine_eq_ok_iff h, fun f => combine_eq_error_iff h,
    exists_combine_error_iff h, Place.prefix_message_report, fun file => resolve_eq_combine⟩

/-- A file with a section that is no table. -/
def oddFile : Toml.Table :=
  Value.named [("convert", .dict (Value.named [("skip_unknown", .bool false)])), ("logging", .int 3)]

/-- A file with a level that makes no sense, and a truth value that makes none either. -/
def wrongFile : Toml.Table :=
  Value.named [("logging", .dict (Value.named [("persist", .text "maybe"), ("level", .int 7)]))]

/-- A level in capitals, and a variable that is empty. -/
def oddEnvironment : List (Text × Text) := [(levelVariable, " WARNING "), (persistVariable, [])]

theorem legibleTable_oddFile : LegibleTable False oddFile := by
  have hconvert : Legible False (.dict (Value.named [("skip_unknown", .bool false)])) :=
    .dict (List.forall_mem_singleton.2 (.bool false))
  have hlogging : Legible False (.int 3) := .int (by decide)
  exact .of_dict (.dict (List.forall_mem_cons.2 ⟨hconvert, List.forall_mem_singleton.2 hlogging⟩))

theorem legibleTable_wrongFile : LegibleTable False wrongFile := by
  have hlevel : Legible False (.int 7) := .int (by decide)
  have hlogging : Legible False
      (.dict (Value.named [("persist", .text "maybe"), ("level", .int 7)])) :=
    .dict (List.forall_mem_cons.2 ⟨.text _, List.forall_mem_singleton.2 hlevel⟩)
  exact .of_dict (.dict (List.forall_mem_singleton.2 hlogging))

/-- The file and the environment are put together; and the level in the file is reported on, though
the environment has another, and before the truth value. -/
theorem combine_precedence_layers :
    (combine (some oddFile) oddEnvironment = .ok (⟨false, .warn, false⟩, [.file, .environment]) ∧
      Resolved (some oddFile) oddEnvironment ⟨false, .warn, false⟩ [.file, .environment]) ∧
    combine (some wrongFile) oddEnvironment = .error (.report (.notLevel "logging.level" "7")) ∧
      ∃ p v, FirstUnfit (some wrongFile) oddEnvironment places p v := by
  have hodd : ∀ entries, some oddFile = some entries → LegibleTable False entries := by
    rintro _ ⟨⟩
    exact legibleTable_oddFile
  have hwrong : ∀ entries, some wrongFile = some entries → LegibleTable False entries := by
    rintro _ ⟨⟩
    exact legibleTable_wrongFile
  have hok : combine (some oddFile) oddEnvironment =
      .ok (⟨false, .warn, false⟩, [.file, .environment]) := by rfl
  have herror : combine (some wrongFile) oddEnvironment =
      .error (.report (.notLevel "logging.level" "7")) := by rfl
  obtain ⟨p, v, -, hfirst, -⟩ := ((combine_precedence hwrong).2.1 _).1 herror
  exact ⟨⟨hok, (((combine_precedence hodd).1 _ _).1 hok).2⟩, herror, p, v, hfirst⟩

end Settings

end SpacingClasses
