import SpacingClasses.Proofs.Command.Reply

/-!
# JSON and plain output agree

The option for JSON may stand anywhere among the arguments, and changes nothing but how the reply is
printed.

* `Command.SaysSame name plain v` : the value `v` tells what the lines `plain` of a command tell;
* `Command.Agree name plain json` : two runs end alike, and if they succeed the second prints the JSON
  of a value that tells what the first prints;
* `Command.agree_json` : **a run with the option agrees with the run without it**.
-/

namespace SpacingClasses

namespace Command

open SpacingClasses.Action (perform printed)
open Value (ReadBack)

/-- The value tells the class names, the suffix or the batch that a command has printed in lines. -/
inductive SaysSame : Text → Text → Value → Prop where
  | convert {classes : Text} {v : Value} (h : v.field? "classes" = some (.text classes)) :
      SaysSame "convert" (printed [classes]) v
  | normalize {suffix : Text} {v : Value} (h : v.field? "token" = some (.text suffix)) :
      SaysSame "normalize" (printed [suffix]) v
  | batch {b : Batch} {v : Value} {conversions rejected : List Value}
      (hclassName : v.field? "class_name" = some (.text b.className))
      (hconversions : v.field? "conversions" = some (.list conversions))
      (hconversion : List.Forall₂ (fun c u => u.field? "name" = some (.text c.name) ∧
        u.field? "classes" = some (.text c.classes)) b.conversions conversions)
      (hrejected : v.field? "rejected" = some (.list rejected))
      (hrejection : List.Forall₂ (fun r u => u.field? "name" = some (.text r.1) ∧
        u.field? "reason" = some (.text r.2)) b.rejected rejected) :
      SaysSame "batch" (printed (batchLines b)) v

/-- Two runs end alike, with the same complaints and files.  If they succeed, the second prints the
JSON of a value that tells what the first prints. -/
structure Agree (name : Text) (plain json : Except Failure Nat × Effect) : Prop where
  exit : json.1 = plain.1
  stderr : json.2.stderr = plain.2.stderr
  writes : json.2.writes = plain.2.writes
  stdout : plain.1 = .ok 0 →
    ∃ v, Json.read json.2.stdout = .ok v ∧ SaysSame name plain.2.stdout v

variable {w : World} {word : Text} {front back arguments : List Text} {r : Reply} {v : Value}

/-! ### The option among the arguments -/

theorem splitJson_of_not_mem (h : jsonOption ∉ arguments) :
    splitJson arguments = (false, arguments) := by
  have hother : ∀ a ∈ arguments, (a != jsonOption) = true :=
    fun a ha => bne_iff_ne.2 fun heq => h (heq ▸ ha)
  rw [splitJson, List.filter_eq_self.2 hother, List.contains_eq_mem, decide_eq_false h]

theorem splitJson_insert (h : jsonOption ∉ front ++ back) :
    splitJson (front ++ jsonOption :: back) = (true, front ++ back) := by
  have hasked : (front ++ jsonOption :: back).contains jsonOption = true :=
    List.contains_iff_mem.2 (List.mem_append_right _ List.mem_cons_self)
  have hothers : (front ++ jsonOption :: back).filter (· != jsonOption) =
      (splitJson (front ++ back)).2 := by
    rw [splitJson, List.filter_append, List.filter_append, List.filter_cons_of_neg (by simp)]
  rw [splitJson, hasked, hothers, splitJson_of_not_mem h]

/-! ### What replies say -/

theorem saysSame_convert (h : convertReply arguments = .ok r) (hback : ReadBack r.value v) :
    SaysSame "convert" (printed r.lines) v := by
  obtain ⟨property, value, classes, rfl⟩ := exists_of_convertReply h
  exact .convert (hback.field_text (nodup_convertRows ..) (by simp [convertRows]))

theorem saysSame_normalize (h : normalizeReply arguments = .ok r) (hback : ReadBack r.value v) :
    SaysSame "normalize" (printed r.lines) v := by
  obtain ⟨value, suffix, rfl⟩ := exists_of_normalizeReply h
  exact .normalize (hback.field_text (nodup_normalizeRows ..) (by simp [normalizeRows]))

theorem saysSame_batch (h : batchReply w arguments = .ok r) (hback : ReadBack r.value v) :
    SaysSame "batch" (printed r.lines) v := by
  obtain ⟨path, root, settings, b, writes, -, -, -, -, rfl⟩ := exists_of_batchReply h
  have hrows : ReadBack (Value.record b.rows) v := hback
  have hclassName : (("class_name" : Text), Value.text b.className) ∈ b.rows := List.mem_cons_self
  have hconversions : (("conversions" : Text),
      Value.list (b.conversions.map fun c => Value.record (Batch.conversionRows c))) ∈ b.rows :=
    List.mem_cons_of_mem _ List.mem_cons_self
  have hrejected : (("rejected" : Text),
      Value.list (b.rejected.map fun r => Value.record (Batch.rejectionRows r))) ∈ b.rows :=
    List.mem_cons_of_mem _ (List.mem_cons_of_mem _ List.mem_cons_self)
  obtain ⟨conversions, hfound, hconversion⟩ := hrows.field_list b.nodup_rows hconversions
  obtain ⟨rejected, hfound', hrejection⟩ := hrows.field_list b.nodup_rows hrejected
  rw [List.forall₂_map_left_iff] at hconversion hrejection
  refine .batch (hrows.field_text b.nodup_rows hclassName) hfound
    (hconversion.imp fun c u hu => ?_) hfound' (hrejection.imp fun r u hu => ?_)
  · have hkeys := Batch.nodup_conversionRows c
    exact ⟨hu.field_text hkeys (by simp [Batch.conversionRows]),
      hu.field_text hkeys (by simp [Batch.conversionRows])⟩
  · have hkeys := Batch.nodup_rejectionRows r
    exact ⟨hu.field_text hkeys (by simp [Batch.rejectionRows]),
      hu.field_text hkeys (by simp [Batch.rejectionRows])⟩

/-- The commands whose replies are about values. -/
def valueCommands : List Text := ["convert", "normalize", "batch"]

/-- **What comes back of a reply says what its lines say.** -/
theorem saysSame_of_reply (hword : canonicalName word ∈ valueCommands)
    (h : reply w word arguments = .ok r) (hback : ReadBack r.value v) :
    SaysSame (canonicalName word) (printed r.lines) v := by
  simp only [valueCommands, List.mem_cons, List.not_mem_nil, or_false] at hword
  rw [reply] at h
  rcases hword with hname | hname | hname
  · rw [hname] at h ⊢
    exact saysSame_convert h hback
  · rw [hname] at h ⊢
    exact saysSame_normalize h hback
  · rw [hname] at h ⊢
    exact saysSame_batch h hback

/-! ### Both runs -/

/-- A command about values ends with its reply. -/
theorem ends_of_valueCommand (hword : canonicalName word ∈ valueCommands) (w : World)
    (arguments : List Text) :
    Ends (splitJson arguments).1 (reply w word (splitJson arguments).2)
      (perform (dispatch w word arguments)) := by
  rcases ends_dispatch w word arguments with ⟨hinfo, -⟩ | hends
  · exact absurd hinfo ((by decide : ∀ name ∈ valueCommands, name ∉ infoWords) _ hword)
  · exact hends

/-- **A run with the option for JSON agrees with the run without it**, wherever the option stands. -/
theorem agree_json (w : World) (word : Text) (front back : List Text)
    (hword : canonicalName word ∈ valueCommands)
    (hplain : jsonOption ∉ front ++ back) :
    Agree (canonicalName word) (perform (execute w (word :: (front ++ back))))
      (perform (execute w (word :: (front ++ jsonOption :: back)))) := by
  have hends := ends_of_valueCommand hword w (front ++ back)
  have hends' := ends_of_valueCommand hword w (front ++ jsonOption :: back)
  rw [splitJson_of_not_mem hplain] at hends
  rw [splitJson_insert hplain] at hends'
  rw [perform_execute, perform_execute]
  generalize perform (dispatch w word (front ++ back)) = ended at hends ⊢
  generalize perform (dispatch w word (front ++ jsonOption :: back)) = ended' at hends' ⊢
  -- both have looked for the same reply
  cases hends with
  | @failed f hf =>
    cases hends' with
    | failed hf' =>
      obtain rfl := Except.error.inj (hf.symm.trans hf')
      cases f with
      | report r => exact ⟨rfl, rfl, rfl, nofun⟩
      | _ => exact ⟨rfl, rfl, rfl, nofun⟩
    | sent hr' _ _ => cases hf.symm.trans hr'
  | @sent r _ hr _ ht =>
    cases hends' with
    | failed hf' => cases hr.symm.trans hf'
    | sent hr' hvalue ht' =>
      obtain rfl := Except.ok.inj (hr.symm.trans hr')
      refine ⟨rfl, rfl, rfl, fun _ => ?_⟩
      obtain ⟨t, v, ht₂, hread, hback⟩ := Json.exists_pretty hvalue
      cases ht
      rw [Reply.text, ht₂] at ht'
      cases ht'
      refine ⟨v, ?_, saysSame_of_reply hword hr hback⟩
      rw [← hread]
      exact congrArg Json.read (List.append_nil _)

/-- The option between a property and its value, which come under a short name of the command. -/
theorem agree_json_conv :
    Agree "convert" (perform (execute {} ["conv", "m", "4"]))
        (perform (execute {} ["conv", "m", "--json", "4"])) ∧
      perform (execute {} ["conv", "m", "4"]) = (.ok 0, { stdout := "m-4\n" }) :=
  ⟨agree_json {} "conv" ["m"] ["4"] (by decide) (by decide), by rfl⟩

end Command

end SpacingClasses
