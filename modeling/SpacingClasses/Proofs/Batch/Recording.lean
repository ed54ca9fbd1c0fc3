import SpacingClasses.Proofs.Batch.Accounting
import SpacingClasses.Proofs.Log.Numbering

/-!
# Batches that are recorded

A run that records what becomes of each prop before it goes on to the next one.

* `Batch.runRecording`, `Batch.ofValueRecording` : conversion and recording in one pass;
* `Batch.ofValueRecording_eq` : to record on the way is to record at the end, so **no store changes
  the batch**;
* `Outcome.Logs p es` : the log entries `es` tell what becomes of the prop `p`;
* `Batch.ofValue_recorded` : **the events of a batch are those of its props**, and a higher floor
  leaves out the others and nothing else.
-/

namespace SpacingClasses

/-! ### Recording on the way -/

namespace Batch

variable {skipUnknown : Bool} {ps : List SpacingProp} {props : Value}

/-- The store, if there is one, after an outcome has been recorded. -/
def recordIn (store : Option Store) (o : Outcome) : Option Store :=
  store.map fun s => s.addEntries o.entries

/-- Converts props one by one, and records each outcome before the next prop. -/
def runRecording (skipUnknown : Bool) (store : Option Store) :
    List SpacingProp → Batch × Option Store
  | [] => ({}, store)
  | p :: rest =>
    match Outcome.ofProp p with
    | .error f => ({ stopped := some f }, store)
    | .ok (.unknown name) =>
      if skipUnknown then
        let (b, s) := runRecording skipUnknown (recordIn store (.unknown name)) rest
        ({ b with outcomes := .unknown name :: b.outcomes }, s)
      else ({ stopped := some (Property.unknown name) }, store)
    | .ok o =>
      let (b, s) := runRecording skipUnknown (recordIn store o) rest
      ({ b with outcomes := o :: b.outcomes }, s)

/-- Converts and records the props of a value. -/
def ofValueRecording (skipUnknown : Bool) (store : Option Store) (props : Value) :
    Batch × Option Store :=
  match SpacingProp.ofValue props with
  | .ok ps => runRecording skipUnknown store ps
  | .error f => ({ stopped := some f }, store)

theorem logTo_eq (b : Batch) (s : Store) : b.logTo s = s.addEntries b.logEntries := rfl

theorem map_logTo_nil (store : Option Store) (stopped : Option Failure) :
    store.map (logTo { stopped := stopped }) = store :=
  Option.map_id'

theorem map_logTo_cons (store : Option Store) (o : Outcome) (b : Batch) :
    store.map (logTo { b with outcomes := o :: b.outcomes }) =
      (recordIn store o).map b.logTo := by
  have hentries : ∀ s : Store, logTo { b with outcomes := o :: b.outcomes } s =
      b.logTo (s.addEntries o.entries) := by
    intro s
    rw [logTo_eq, logTo_eq]
    exact List.foldl_append
  rw [recordIn, Option.map_map]
  exact congrArg (Option.map · store) (funext hentries)

/-- **To record on the way is to record at the end.** -/
theorem runRecording_eq (store : Option Store) (ps : List SpacingProp) :
    runRecording skipUnknown store ps =
      (run skipUnknown ps, store.map (run skipUnknown ps).logTo) := by
  -- for every store, as the rest of a run starts from the one that holds the first outcome
  induction ps generalizing store with
  | nil => rw [runRecording, run, map_logTo_nil]
  | cons p ps ih =>
    rw [runRecording, run]
    cases Outcome.ofProp p with
    | error f => simp only [map_logTo_nil]
    | ok o =>
      cases o with
      | unknown name =>
        cases skipUnknown with
        | true => simp only [if_true, ih, map_logTo_cons]
        | false => simp only [Bool.false_eq_true, if_false, map_logTo_nil]
      | converted c => simp only [ih, map_logTo_cons]
      | unreadable name raw report => simp only [ih, map_logTo_cons]

theorem ofValueRecording_eq (skipUnknown : Bool) (store : Option Store) (props : Value) :
    ofValueRecording skipUnknown store props =
      (ofValue skipUnknown props, store.map (ofValue skipUnknown props).logTo) := by
  rw [ofValueRecording, ofValue]
  cases SpacingProp.ofValue props with
  | error f => simp only [map_logTo_nil]
  | ok ps => exact runRecording_eq store ps

end Batch

/-! ### What is recorded of a prop -/

namespace Outcome

/-- The log entry of the class names in brackets, if there are any. -/
def fallbackEntries (name : Text) : List Text → List LogEntry
  | [] => []
  | brackets =>
    [⟨.debug, "Used bracketed fallback",
      Value.record [("name", .text name), ("tokens", .list (brackets.map .text))]⟩]

/-- The log entry of the entries that have no tier, if there are any. -/
def ignoredEntries (name : Text) : List Value → List LogEntry
  | [] => []
  | overflow =>
    [⟨.warn, "Ignored entries past the last breakpoint",
      Value.record [("name", .text name), ("entries", .list overflow)]⟩]

/-- The log entries of a prop: a warning for an unknown name, or for a source text that does not
read; for a conversion its class names, then those in brackets, then what has no tier. -/
inductive Logs (p : SpacingProp) : List LogEntry → Prop where
  | unknown (hname : Property.isSpacing p.name = false) :
      Logs p
        [⟨.warn, "Skipped unknown spacing property", Value.record [("name", .text p.name)]⟩]
  | unreadable {raw : Text} {report : Report} (hname : Property.isSpacing p.name = true)
      (hraw : p.raw = some raw) (hread : Attribute.read raw = .error (.report report)) :
      Logs p
        [⟨.warn, "Skipped non-literal attribute value",
          Value.record [("name", .text p.name), ("raw", .text raw)]⟩]
  | converted {v : Value} {classes : Text} {tokens : List ClassToken} {overflow : List Value}
      (hname : Property.isSpacing p.name = true) (hvalue : p.value? = some v)
      (hclasses : convertSpacing (.text p.name) v = .ok classes)
      (htokens : ClassToken.ofValue (.text p.name) v = .ok tokens)
      (hoverflow : overflowEntries v = .ok overflow) :
      Logs p
        (⟨.info, "Converted spacing prop",
            Value.record [("name", .text p.name), ("classes", .text classes)]⟩ ::
          (fallbackEntries p.name
              ((tokens.filter (Suffix.isBracketed ·.suffix)).map ClassToken.text) ++
            ignoredEntries p.name overflow))

variable {p : SpacingProp} {o : Outcome}

theorem conversionEntries_eq (c : Conversion) :
    conversionEntries c =
      ⟨.info, "Converted spacing prop",
          Value.record [("name", .text c.name), ("classes", .text c.classes)]⟩ ::
        (fallbackEntries c.name c.fallbacks ++ ignoredEntries c.name c.overflow) := by
  rw [conversionEntries, List.append_assoc]
  cases c.fallbacks <;> cases c.overflow <;> rfl

/-- The entries of an outcome tell what becomes of the prop. -/
theorem logs_of_ofProp (h : ofProp p = .ok o) : Logs p o.entries := by
  obtain ⟨hname, rfl⟩ | ⟨hname, ⟨raw, report, hraw, hread, rfl⟩ |
    ⟨v, tokens, overflow, hvalue, htokens, hoverflow, rfl⟩⟩ := ofProp_eq_ok h
  · exact .unknown hname
  · exact .unreadable hname hraw hread
  · rw [entries, conversionEntries_eq]
    exact .converted hname hvalue (classes_of_tokens htokens) htokens hoverflow

end Outcome

/-! ### What is recorded of a batch -/

namespace Batch

variable {skipUnknown : Bool} {ps : List SpacingProp} {props : Value}

/-- The events that a new store with a floor holds after a run. -/
def eventsAbove (floor : Level) (props : Value) : List Event :=
  ((ofValueRecording true (some { floor := floor }) props).2.map fun s => s.events.toList).getD []

theorem eventsAbove_eq (floor : Level) (props : Value) :
    eventsAbove floor props =
      numberedFrom 1 ((ofValue true props).logEntries.filter (·.level.reaches floor)) := by
  rw [eventsAbove, ofValueRecording_eq, Option.map_some, Option.map_some, Option.getD_some,
    logTo_eq, Store.addEntries_eq]
  simp

/-- The log entries of a run are those of its props, in order. -/
theorem logs_of_run (h : (run true ps).stopped = none) :
    List.Forall₂ Outcome.Logs ps ((run true ps).outcomes.map Outcome.entries) := by
  rw [List.forall₂_map_right_iff]
  exact (outcomes_of_run h).imp fun _ _ => Outcome.logs_of_ofProp

/-- What the stores of a batch hold. -/
structure Recorded (ps : List SpacingProp) (props : Value) : Prop where
  /-- Above the lowest floor are the entries of all props, in order, numbered from one. -/
  events : ∃ parts, List.Forall₂ Outcome.Logs ps parts ∧
    eventsAbove .debug props = numberedFrom 1 parts.flatten
  /-- Above any floor are the events that reach it, numbered from one. -/
  above : ∀ floor, eventsAbove floor props =
    renumberedFrom 1 ((eventsAbove .debug props).filter (·.level.reaches floor))
  /-- The batch is the same with any store and with none. -/
  batch : ∀ store, (ofValueRecording true store props).1 = ofValue true props

theorem reaches_debug (level : Level) : level.reaches .debug = true :=
  decide_eq_true (Nat.zero_le _)

theorem eventsAbove_debug (props : Value) :
    eventsAbove .debug props = numberedFrom 1 (ofValue true props).logEntries := by
  have hall : ∀ e ∈ (ofValue true props).logEntries, e.level.reaches .debug = true :=
    fun e _ => reaches_debug e.level
  rw [eventsAbove_eq, List.filter_eq_self.2 hall]

/-- **The events of a batch** are those of its props, in order and numbered from one; a store with a
higher floor holds those that reach it, and the batch is the same with any store. -/
theorem ofValue_recorded (hps : SpacingProp.ofValue props = .ok ps)
    (hrun : (ofValue true props).stopped = none) : Recorded ps props := by
  have hvalue := ofValue_of_props hps true
  refine ⟨⟨_, logs_of_run (hvalue ▸ hrun), ?_⟩, fun floor => ?_, fun store => ?_⟩
  · rw [eventsAbove_debug, hvalue, logEntries, List.flatMap_def]
  · rw [eventsAbove_debug, eventsAbove_eq, renumberedFrom_filter]
  · rw [ofValueRecording_eq]

/-- A prop with a bracketed class and an entry past the last tier, one whose source text does not
read, and one with an unknown name. -/
def warnedProps : List SpacingProp :=
  [⟨"m", .list [.bool true, .null, .null, .null, .null, .null, .text "auto"], none⟩,
    ⟨"p", .null, some "\x7bx\x7d"⟩, ⟨"color", .null, none⟩]

/-- The events above the lowest floor, the warnings alone numbered anew, and the classes, which no
store changes. -/
theorem warnedProps_recorded :
    eventsAbove .debug (.list (warnedProps.map fun p => .prop p.name p.value p.raw)) =
        [⟨"log:0001", .info, "Converted spacing prop",
            some (Value.record [("name", .text "m"), ("classes", .text "m-[true]")])⟩,
          ⟨"log:0002", .debug, "Used bracketed fallback",
            some (Value.record [("name", .text "m"), ("tokens", .list [.text "m-[true]"])])⟩,
          ⟨"log:0003", .warn, "Ignored entries past the last breakpoint",
            some (Value.record [("name", .text "m"), ("entries", .list [.text "auto"])])⟩,
          ⟨"log:0004", .warn, "Skipped non-literal attribute value",
            some (Value.record [("name", .text "p"), ("raw", .text "\x7bx\x7d")])⟩,
          ⟨"log:0005", .warn, "Skipped unknown spacing property",
            some (Value.record [("name", .text "color")])⟩] ∧
      ((eventsAbove .warn (.list (warnedProps.map fun p => .prop p.name p.value p.raw))).map
          fun e => (e.id, e.message)) =
        ([("log:0001", "Ignored entries past the last breakpoint"),
          ("log:0002", "Skipped non-literal attribute value"),
          ("log:0003", "Skipped unknown spacing property")] : List (Text × Text)) ∧
      ∀ store, (ofValueRecording true store
        (.list (warnedProps.map fun p => .prop p.name p.value p.raw))).1.className =
          "m-[true]" := by
  have hrec : Recorded warnedProps
      (.list (warnedProps.map fun p => .prop p.name p.value p.raw)) := ofValue_recorded rfl rfl
  refine ⟨rfl, ?_, fun store => ?_⟩
  · rw [hrec.above]
    rfl
  · rw [hrec.batch]
    rfl

end Batch

end SpacingClasses
