import SpacingClasses.Proofs.Command.Sources
import SpacingClasses.Proofs.Json.ReadBack

/-!
# Replies of commands

What a command does, told from its arguments without the option for JSON: it finds a reply, and then
it writes and prints, or it fails and has left nothing.

* `Command.Reply` : what a command writes, and what it prints, as a value or in lines;
* `Command.reply` : the reply of the command of a word;
* `Command.Ends json x` : how an action ends that has looked for the reply `x`;
* `Command.ends_dispatch` : **every command ends with its reply**, but for those that print the version
  or help;
* `Command.perform_execute` : what becomes of that in a run of the program.
-/

namespace SpacingClasses

open Attribute (Any)
open Value (Readable)

/-! ### Actions -/

namespace Action

variable {α : Type}

/-- What is looked for first is found, or the action fails and has left nothing. -/
theorem perform_bind (x : Except Failure α) (f : α → Action Unit) :
    perform (liftM x >>= f) = match x with
      | .ok a => perform (f a)
      | .error e => (.error e, {}) := by
  cases x with
  | ok a => rfl
  | error e => rfl

theorem perform_print (lines : List Text) :
    perform (print lines) = (.ok (), { stdout := printed lines }) := rfl

end Action

namespace Command

open SpacingClasses.Action (perform printed print printJson write)

/-! ### Replies -/

/-- What a command writes, and what it prints, as a value or in lines. -/
structure Reply where
  writes : List (Path × Text) := []
  value : Value
  lines : List Text

/-- The text that a reply is printed as. -/
def Reply.text (r : Reply) : Bool → Except Failure Text
  | true => do return printed [← Json.pretty r.value]
  | false => .ok (printed r.lines)

/-- How an action ends that has looked for a reply: it fails and has left nothing, or it has written
and printed what the reply says, the value of which is readable. -/
inductive Ends (json : Bool) (x : Except Failure Reply) : Except Failure Unit × Effect → Prop where
  | failed {f : Failure} (h : x = .error f) : Ends json x (.error f, {})
  | sent {r : Reply} {t : Text} (h : x = .ok r) (hvalue : Readable True Any r.value)
      (ht : r.text json = .ok t) : Ends json x (.ok (), { stdout := t, writes := r.writes })

variable {α : Type} {json : Bool} {r : Reply} {w : World} {settings : Settings} {root : Path}
  {b : Batch}

/-- A reply that is readable is printed. -/
theorem Reply.exists_text (h : Readable True Any r.value) (json : Bool) :
    ∃ t, r.text json = .ok t := by
  cases json with
  | true =>
    obtain ⟨w, v', hw, -⟩ := Json.exists_pretty h
    rw [text, hw]
    exact ⟨_, rfl⟩
  | false => exact ⟨_, rfl⟩

theorem ends_bind {x : Except Failure α} {f : α → Except Failure Reply} {g : α → Action Unit}
    (h : ∀ a, x = .ok a → Ends json (f a) (perform (g a))) :
    Ends json (x >>= f) (perform (liftM x >>= g)) := by
  rw [Action.perform_bind]
  cases x with
  | ok a => exact h a rfl
  | error e => exact .failed rfl

theorem ends_throw (f : Failure) : Ends json (.error f) (perform (throw f)) := .failed rfl

/-- Printing adds the text of a reply to what has been left. -/
theorem run_print {t : Text} (ht : r.text json = .ok t) (left : Effect) :
    (if json then printJson r.value else print r.lines : Action Unit).run.run left =
      (.ok (), { left with stdout := left.stdout ++ t }) := by
  cases json with
  | true =>
    obtain ⟨w, hw, hreturn⟩ := bind_eq_ok_iff.1 ht
    cases hreturn
    rw [if_pos rfl, printJson, hw]
    rfl
  | false =>
    cases ht
    rfl

theorem ends_print {v : Value} (h : Readable True Any v) (json : Bool) (lines : List Text) :
    Ends json (.ok { value := v, lines := lines })
      (perform (if json then printJson v else print lines)) := by
  obtain ⟨t, ht⟩ := Reply.exists_text (r := { value := v, lines := lines }) h json
  rw [perform, run_print ht]
  exact .sent rfl h ht

theorem ends_write {v : Value} (h : Readable True Any v) (json : Bool) (lines : List Text)
    (file : Path × Text) :
    Ends json (.ok { writes := [file], value := v, lines := lines })
      (perform (do write file; if json then printJson v else print lines)) := by
  obtain ⟨t, ht⟩ := Reply.exists_text (r := { writes := [file], value := v, lines := lines }) h json
  have hwritten : perform (do write file; if json then printJson v else print lines) =
      (if json then printJson v else print lines : Action Unit).run.run { writes := [file] } := rfl
  rw [hwritten, run_print ht]
  exact .sent rfl h ht

/-! ### Conversions of one value -/

/-- The rows of a conversion of one value. -/
def convertRows (property : Text) (value : Value) (classes : Text) : List (Text × Value) :=
  [("property", .text property), ("value", value), ("classes", .text classes)]

/-- The reply to a property and a value. -/
def convertReply : List Text → Except Failure Reply
  | [property, written] => do
    let value ← readArgument written
    let classes ← convertSpacing (.text property) value
    return { value := Value.record (convertRows property value classes), lines := [classes] }
  | _ => .error (misused "tailmigrate convert <property> <value> [--json]")

/-- The rows of a value with its suffix. -/
def normalizeRows (value : Value) (suffix : Text) : List (Text × Value) :=
  [("value", value), ("token", .text suffix)]

/-- The reply to a value. -/
def normalizeReply : List Text → Except Failure Reply
  | [written] => do
    let value ← readArgument written
    let suffix ← Suffix.ofValue value
    return { value := Value.record (normalizeRows value suffix), lines := [suffix] }
  | _ => .error (misused "tailmigrate normalize <value> [--json]")

variable {arguments : List Text}

theorem exists_of_convertReply (h : convertReply arguments = .ok r) :
    ∃ property value classes,
      r = { value := Value.record (convertRows property value classes), lines := [classes] } := by
  rw [convertReply.eq_def] at h
  split at h
  · obtain ⟨value, -, h⟩ := bind_eq_ok_iff.1 h
    obtain ⟨classes, -, h⟩ := bind_eq_ok_iff.1 h
    cases h
    exact ⟨_, value, classes, rfl⟩
  · cases h

theorem exists_of_normalizeReply (h : normalizeReply arguments = .ok r) :
    ∃ value suffix,
      r = { value := Value.record (normalizeRows value suffix), lines := [suffix] } := by
  rw [normalizeReply.eq_def] at h
  split at h
  · obtain ⟨value, -, h⟩ := bind_eq_ok_iff.1 h
    obtain ⟨suffix, -, h⟩ := bind_eq_ok_iff.1 h
    cases h
    exact ⟨value, suffix, rfl⟩
  · cases h

theorem nodup_convertRows (property : Text) (value : Value) (classes : Text) :
    ((convertRows property value classes).map (·.1)).Nodup :=
  (by decide : (["property", "value", "classes"] : List Text).Nodup)

theorem nodup_normalizeRows (value : Value) (suffix : Text) :
    ((normalizeRows value suffix).map (·.1)).Nodup :=
  (by decide : (["value", "token"] : List Text).Nodup)

theorem readable_convertRows {value : Value} (h : Readable True Any value)
    (property classes : Text) :
    Readable True Any (Value.record (convertRows property value classes)) := by
  refine .record (nodup_convertRows ..) ?_
  simp only [convertRows, List.forall_mem_cons]
  exact ⟨.text trivial, h, .text trivial, nofun⟩

theorem readable_normalizeRows {value : Value} (h : Readable True Any value) (suffix : Text) :
    Readable True Any (Value.record (normalizeRows value suffix)) := by
  refine .record (nodup_normalizeRows ..) ?_
  simp only [normalizeRows, List.forall_mem_cons]
  exact ⟨h, .text trivial, nofun⟩

theorem ends_convert (arguments : List Text) :
    Ends (splitJson arguments).1 (convertReply (splitJson arguments).2)
      (perform (convert arguments)) := by
  rw [convert]
  generalize splitJson arguments = split
  obtain ⟨json, others⟩ := split
  dsimp only
  fun_cases convertReply others with
  | case1 property written =>
    refine ends_bind fun value hvalue => ends_bind fun classes _ => ?_
    exact ends_print (readable_convertRows (readable_of_readArgument hvalue) property classes) _ _
  | case2 _ h =>
    split
    · rename_i heq
      cases heq
      exact (h _ _ rfl).elim
    · exact ends_throw _

theorem ends_normalize (arguments : List Text) :
    Ends (splitJson arguments).1 (normalizeReply (splitJson arguments).2)
      (perform (normalize arguments)) := by
  rw [normalize]
  generalize splitJson arguments = split
  obtain ⟨json, others⟩ := split
  dsimp only
  fun_cases normalizeReply others with
  | case1 written =>
    refine ends_bind fun value hvalue => ends_bind fun suffix _ => ?_
    exact ends_print (readable_normalizeRows (readable_of_readArgument hvalue) suffix) _ _
  | case2 _ h =>
    split
    · rename_i heq
      cases heq
      exact (h _ rfl).elim
    · exact ends_throw _

/-! ### Batches -/

/-- The reply to a props file, and the root of its project. -/
def batchReply (w : World) (arguments : List Text) : Except Failure Reply := do
  let (path, root) ← batchPaths arguments
  let settings ← settingsAt w root
  let b ← batchAt w settings path
  let writes ← logWrites w settings root b
  return { writes := writes, value := b.toValue, lines := batchLines b }

/-- What a reply to a batch has been made of. -/
theorem exists_of_batchReply (h : batchReply w arguments = .ok r) :
    ∃ path root settings b writes, batchPaths arguments = .ok (path, root) ∧
      settingsAt w root = .ok settings ∧ batchAt w settings path = .ok b ∧
      logWrites w settings root b = .ok writes ∧
      r = { writes := writes, value := b.toValue, lines := batchLines b } := by
  obtain ⟨⟨path, root⟩, hpaths, h⟩ := bind_eq_ok_iff.1 h
  obtain ⟨settings, hsettings, h⟩ := bind_eq_ok_iff.1 h
  obtain ⟨b, hb, h⟩ := bind_eq_ok_iff.1 h
  obtain ⟨writes, hwrites, h⟩ := bind_eq_ok_iff.1 h
  cases h
  exact ⟨path, root, settings, b, writes, hpaths, hsettings, hb, hwrites, rfl⟩

/-- The log is written before anything is printed. -/
theorem ends_keepLog {v : Value} (hv : Readable True Any v) (json : Bool) (lines : List Text) :
    Ends json
      (logWrites w settings root b >>= fun writes =>
        pure { writes := writes, value := v, lines := lines })
      (perform (keepLog w settings root b >>= fun _ =>
        if json then printJson v else print lines)) := by
  rw [logWrites, keepLog]
  split
  · rw [bind_assoc, bind_assoc]
    exact ends_bind fun file _ => ends_write hv json lines file
  · exact ends_print hv json lines

theorem ends_batch (w : World) (arguments : List Text) :
    Ends (splitJson arguments).1 (batchReply w (splitJson arguments).2)
      (perform (batch w arguments)) := by
  rw [batch]
  generalize splitJson arguments = split
  obtain ⟨json, others⟩ := split
  refine ends_bind fun paths _ => ends_bind fun settings _ => ends_bind fun b hb => ?_
  exact ends_keepLog (readable_of_batchAt hb).toValue json (batchLines b)

/-! ### Lists -/

/-- Nothing but the option for JSON is asked for if nothing is left without it. -/
theorem jsonOnly_eq (shape : Text) (arguments : List Text) :
    jsonOnly shape arguments = match splitJson arguments with
      | (json, []) => .ok json
      | _ => .error (misused shape) := by
  rw [jsonOnly, splitJson]
  cases hothers : arguments.filter (· != jsonOption) with
  | nil =>
    have hall : ∀ a ∈ arguments, a = jsonOption := by
      simpa using List.filter_eq_nil_iff.1 hothers
    have hasked : (!arguments.isEmpty) = arguments.contains jsonOption := by
      cases arguments with
      | nil => rfl
      | cons a rest =>
        rw [hall a List.mem_cons_self, List.contains_cons, beq_self_eq_true]
        rfl
    rw [if_pos (List.all_eq_true.2 fun a ha => beq_iff_eq.2 (hall a ha)), hasked]
  | cons a others =>
    have ha : a ∈ arguments.filter (· != jsonOption) := hothers ▸ List.mem_cons_self
    obtain ⟨hmem, hne⟩ := List.mem_filter.1 ha
    rw [if_neg fun hall => ?_]
    exact bne_iff_ne.1 hne (beq_iff_eq.1 (List.all_eq_true.1 hall a hmem))

/-- The reply of a command that takes no arguments. -/
def listReply (shape : Text) (value : Value) (lines : List Text) : List Text → Except Failure Reply
  | [] => .ok { value := value, lines := lines }
  | _ => .error (misused shape)

/-- The scale and the tiers as a value. -/
def scaleValue : Value :=
  Value.record
    [("scale", .list (Scale.steps.map stepValue)),
      ("breakpoints", .list (Breakpoint.ladder.map breakpointValue))]

/-- The reply to a request for the scale. -/
def scaleReply : List Text → Except Failure Reply :=
  listReply "tailmigrate scale [--json]" scaleValue ("Spacing scale:" :: Scale.steps.map stepLine)

/-- The reply to a request for the properties. -/
def propertiesReply : List Text → Except Failure Reply :=
  listReply "tailmigrate properties [--json]"
    (Value.record (Property.stems.map fun (name, stem) => (name, .text stem)))
    ("Spacing properties:" :: Property.stems.map propertyLine)

theorem ends_list {value : Value} (h : Readable True Any value) (shape : Text) (lines : List Text)
    (arguments : List Text) :
    Ends (splitJson arguments).1 (listReply shape value lines (splitJson arguments).2)
      (perform (do if ← jsonOnly shape arguments then printJson value else print lines)) := by
  rw [jsonOnly_eq]
  generalize splitJson arguments = split
  obtain ⟨json, others⟩ := split
  cases others with
  | nil => exact ends_print h json lines
  | cons _ _ => exact ends_throw _

/-- A number of pixels is readable. -/
theorem readable_pxValue (length : Text) :
    Readable True Any (pxValue (Scale.lengthToPx? length)) := by
  cases h : Scale.lengthToPx? length with
  | none => exact .null
  | some px => exact .int ⟨Scale.length_lengthToPx?_le h, fun _ => trivial⟩

theorem readable_scaleValue : Readable True Any scaleValue := by
  have htext : ∀ t, Readable True Any (.text t) := fun t => .text trivial
  refine .record (by decide : (["scale", "breakpoints"] : List Text).Nodup) ?_
  simp only [List.forall_mem_cons]
  refine ⟨.list (List.forall_mem_map.2 fun step _ => ?_), .list (List.forall_mem_map.2 fun b _ => ?_),
    nofun⟩
  · refine .record (by decide : (["step", "length", "px"] : List Text).Nodup) ?_
    simp only [List.forall_mem_cons]
    exact ⟨htext _, htext _, readable_pxValue _, nofun⟩
  · refine .record (by decide : (["name", "min_width"] : List Text).Nodup) ?_
    simp only [List.forall_mem_cons]
    refine ⟨htext _, ?_, nofun⟩
    cases b.minWidth with
    | none => exact .null
    | some t => exact htext t

theorem ends_scale (arguments : List Text) :
    Ends (splitJson arguments).1 (scaleReply (splitJson arguments).2) (perform (scale arguments)) :=
  ends_list readable_scaleValue _ _ arguments

theorem ends_properties (arguments : List Text) :
    Ends (splitJson arguments).1 (propertiesReply (splitJson arguments).2)
      (perform (properties arguments)) := by
  refine ends_list (.record ?_ ?_) _ _ arguments
  · rw [List.map_map]
    exact (by decide +kernel : (Property.stems.map (·.1)).Nodup)
  · exact List.forall_mem_map.2 fun property _ => .text trivial

/-! ### All commands -/

/-- The reply of the command of a word. -/
def reply (w : World) (word : Text) (arguments : List Text) : Except Failure Reply :=
  let name := canonicalName word
  if name = ("convert" : Text) then convertReply arguments
  else if name = ("normalize" : Text) then normalizeReply arguments
  else if name = ("batch" : Text) then batchReply w arguments
  else if name = ("scale" : Text) then scaleReply arguments
  else if name = ("properties" : Text) then propertiesReply arguments
  else .error (.report (.unknownCommand word))

/-- The words that ask for the version or for help. -/
def infoWords : List Text := ["--version", "--help", "-h", "help"]

/-- **Every command ends with its reply**, but for those that print the version or help. -/
theorem ends_dispatch (w : World) (word : Text) (arguments : List Text) :
    (canonicalName word ∈ infoWords ∧
        ∃ lines, perform (dispatch w word arguments) = (.ok (), { stdout := printed lines })) ∨
      Ends (splitJson arguments).1 (reply w word (splitJson arguments).2)
        (perform (dispatch w word arguments)) := by
  rw [dispatch, reply]
  split
  · rename_i hversion
    rw [hversion]
    exact .inl ⟨by decide, _, Action.perform_print _⟩
  · split
    · -- two of the words for help are no names of commands
      rename_i hhelp
      simp only [Bool.or_eq_true, decide_eq_true_eq] at hhelp
      refine .inl ⟨?_, _, Action.perform_print _⟩
      rcases hhelp with (rfl | rfl) | hname
      · decide
      · decide
      · rw [hname]
        decide
    · right
      split_ifs
      · exact ends_convert arguments
      · exact ends_normalize arguments
      · exact ends_batch w arguments
      · exact ends_scale arguments
      · exact ends_properties arguments
      · exact ends_throw _

/-! ### Runs -/

theorem perform_execute (w : World) (word : Text) (arguments : List Text) :
    perform (execute w (word :: arguments)) = match perform (dispatch w word arguments) with
      | (.ok _, left) => (.ok 0, left)
      | (.error (.report r), left) =>
        (.ok 1, { left with stderr := left.stderr ++ printed [r.notice.render (sourceOf w r)] })
      | (.error f, left) => (.error f, left) := by
  rcases h : perform (dispatch w word arguments) with ⟨x, left⟩
  rw [perform] at h
  rw [perform, execute, ExceptT.run_tryCatch, ExceptT.run_bind, bind_assoc, StateT.run_bind, h]
  cases x with
  | ok _ => rfl
  | error f => cases f <;> rfl

end Command

end SpacingClasses
