import SpacingClasses.Proofs.Log.Numbering
import SpacingClasses.Proofs.Outcome
import Mathlib.Data.List.Nodup

/-!
# Calls on a store

What a store holds after any row of calls, told from the calls alone.

* `Store.Call` : recording at a level that a value names, recording at a given level, and reset;
* `Store.Ran s calls answers s'` : the calls are made one after the other, and none of them fails;
* `Store.perform_eq_ok` : what one call does: it resets the store, or it is filtered and does
  nothing, or it stores the event that it answers with;
* `Store.Keeps.perform` : the count and the events follow the calls, one call at a time;
* `Event.idOf_injective` : no two numbers have the same identifier, however many digits they take;
* `Store.created_history` : **the events of a store** are those that its calls since the last reset
  ask for, above the floor and numbered from one.
-/

namespace SpacingClasses

/-! ### Identifiers -/

theorem ofDigitChars_padLeft (width : Nat) (t : Text) :
    Nat.ofDigitChars 10 (Text.padLeft width '0' t) 0 = Nat.ofDigitChars 10 t 0 := by
  rw [Text.padLeft, Nat.ofDigitChars_append]
  have hzeros : ∀ n, Nat.ofDigitChars 10 (List.replicate n '0') 0 = 0 := by
    intro n
    induction n with
    | zero => rfl
    | succ n ih =>
      rw [List.replicate_succ, Nat.ofDigitChars_cons]
      exact ih
  rw [hzeros]

/-- No two numbers have the same identifier. -/
theorem Event.idOf_injective : Function.Injective Event.idOf := by
  intro n m h
  have hpadded : Text.padLeft 4 '0' (Text.ofNat n) = Text.padLeft 4 '0' (Text.ofNat m) :=
    List.append_cancel_left h
  have hvalue := congrArg (Nat.ofDigitChars 10 · 0) hpadded
  simpa [ofDigitChars_padLeft, Text.ofNat] using hvalue

namespace Store

/-! ### Calls -/

/-- A call on a store. -/
inductive Call where
  /-- Recording at the level that a value names. -/
  | record (level message : Value) (fields : Option Value)
  /-- Recording at a level, with named fields. -/
  | note (level : Level) (message : Value) (fields : List (Text × Value))
  /-- Starting afresh. -/
  | reset

/-- The answer to a call, and the store after it. -/
def perform (s : Store) : Call → Except Failure (Option Event) × Store
  | .record level message fields => s.record level message fields
  | .note level message fields => s.note level message fields
  | .reset => (.ok none, s.reset)

/-- From a store on calls are made one after the other, and each of them has an answer. -/
inductive Ran (s₀ : Store) : List Call → List (Option Event) → Store → Prop where
  | start : Ran s₀ [] [] s₀
  | call {calls : List Call} {answers : List (Option Event)} {s s' : Store} {c : Call}
      {answer : Option Event} (h : Ran s₀ calls answers s)
      (hcall : s.perform c = (.ok answer, s')) : Ran s₀ (calls ++ [c]) (answers ++ [answer]) s'

/-! ### What calls ask for -/

namespace Call

/-- Whether a call is a reset. -/
def isReset : Call → Bool
  | reset => true
  | _ => false

/-- The level at which a call records. -/
def level? : Call → Option Level
  | record level _ _ => level.display.toOption.map Level.ofLabel
  | note level _ _ => some level
  | reset => none

/-- The message of a call in words. -/
def words? : Call → Option Text
  | record _ message _ => (messageText message).toOption
  | note _ message _ => (messageText message).toOption
  | reset => none

/-- The fields of a call.  Named fields make a dictionary, unless there are none. -/
def fields? : Call → Option Value
  | record _ _ fields => fields
  | note _ _ [] => none
  | note _ _ fields => some (Value.dictOf (fields.map fun (name, v) => (.text name, v)))
  | reset => none

/-- The event that a call asks for, under a number. -/
def event? (number : Nat) (c : Call) : Option Event := do
  let level ← c.level?
  let words ← c.words?
  return ⟨Event.idOf number, level, words, c.fields?⟩

/-- Whether a call records at a level that reaches a floor. -/
def reaches (floor : Level) (c : Call) : Bool := c.level?.any (·.reaches floor)

/-- The calls after the last reset. -/
def sinceReset (calls : List Call) : List Call :=
  (calls.reverse.takeWhile (!·.isReset)).reverse

/-- The calls after the last reset that record above a floor. -/
def kept (floor : Level) (calls : List Call) : List Call :=
  (sinceReset calls).filter (·.reaches floor)

variable {floor level : Level} {calls : List Call} {c : Call}

theorem sinceReset_concat (calls : List Call) (c : Call) :
    sinceReset (calls ++ [c]) = if c.isReset then [] else sinceReset calls ++ [c] := by
  rw [sinceReset, List.reverse_append]
  cases h : c.isReset <;> simp [sinceReset, h]

theorem kept_concat_reset (h : c.isReset = true) : kept floor (calls ++ [c]) = [] := by
  rw [kept, sinceReset_concat, if_pos h, List.filter_nil]

theorem kept_concat (h : c.isReset = false) :
    kept floor (calls ++ [c]) = kept floor calls ++ if c.reaches floor then [c] else [] := by
  rw [kept, sinceReset_concat, h, if_neg Bool.false_ne_true, List.filter_append]
  cases hc : c.reaches floor <;> simp [kept, hc]

theorem reaches_of_level (h : c.level? = some level) : c.reaches floor = level.reaches floor := by
  rw [reaches, h]
  rfl

end Call

/-! ### What one call does -/

variable {s s' s₀ : Store} {level floor : Level} {message : Value} {fields : Option Value}
  {c : Call} {answer : Option Event} {calls : List Call} {answers : List (Option Event)}

/-- What is added is dropped below the floor, and else stored under the next number. -/
theorem add_eq_ok (h : s.add level message fields = (.ok answer, s')) :
    (level.reaches s.floor = false ∧ answer = none ∧ s' = s) ∨
    (level.reaches s.floor = true ∧ ∃ words e, messageText message = .ok words ∧
      e = ⟨Event.idOf (s.count + 1), level, words, fields⟩ ∧ answer = some e ∧
      s' = { s with events := s.events.push e, count := s.count + 1 }) := by
  rw [add] at h
  by_cases hlevel : level.rank < s.floor.rank
  · rw [if_pos hlevel] at h
    simp only [Prod.mk.injEq, Except.ok.injEq] at h
    exact .inl ⟨decide_eq_false (Nat.not_le.2 hlevel), h.1.symm, h.2.symm⟩
  · rw [if_neg hlevel] at h
    refine .inr ⟨decide_eq_true (Nat.not_lt.1 hlevel), ?_⟩
    cases hwords : messageText message with
    | error f => simp [hwords] at h
    | ok words =>
      simp only [hwords, Prod.mk.injEq, Except.ok.injEq] at h
      exact ⟨words, _, rfl, rfl, h.1.symm, h.2.symm⟩

/-- A call that is no reset adds its message at its level. -/
theorem perform_eq_add (hreset : c.isReset = false) (h : s.perform c = (.ok answer, s')) :
    ∃ level message, c.level? = some level ∧ c.words? = (messageText message).toOption ∧
      s.add level message c.fields? = (.ok answer, s') := by
  cases c with
  | record level message fields =>
    rw [perform, record] at h
    cases hlabel : level.display with
    | error f => simp [hlabel] at h
    | ok label =>
      rw [hlabel] at h
      exact ⟨Level.ofLabel label, message, by simp [Call.level?, hlabel, Except.toOption], rfl, h⟩
  | note level message fields =>
    rw [perform, note] at h
    -- a field with one of the store's own names fails
    split at h
    · simp at h
    · refine ⟨level, message, rfl, rfl, ?_⟩
      cases fields <;> exact h
  | reset => cases hreset

/-- **One call** empties the store, or it is filtered and answers with nothing, or it answers with
the event that it stores under the next number. -/
theorem perform_eq_ok (h : s.perform c = (.ok answer, s')) :
    (c.isReset = true ∧ answer = none ∧ s' = { s with events := #[], count := 0 }) ∨
    (c.isReset = false ∧ c.reaches s.floor = false ∧ answer = none ∧ s' = s) ∨
    (c.isReset = false ∧ c.reaches s.floor = true ∧ ∃ e, c.event? (s.count + 1) = some e ∧
      answer = some e ∧ s' = { s with events := s.events.push e, count := s.count + 1 }) := by
  cases hreset : c.isReset with
  | true =>
    cases c with
    | reset =>
      simp only [perform, Prod.mk.injEq, Except.ok.injEq] at h
      exact .inl ⟨rfl, h.1.symm, h.2.symm⟩
    | record | note => cases hreset
  | false =>
    obtain ⟨level, message, hlevel, hwords, hadd⟩ := perform_eq_add hreset h
    refine .inr ?_
    rw [Call.reaches_of_level hlevel]
    rcases add_eq_ok hadd with ⟨hbelow, hanswer, hs⟩ | ⟨habove, words, e, hmessage, he, hanswer, hs⟩
    · exact .inl ⟨rfl, hbelow, hanswer, hs⟩
    · refine .inr ⟨rfl, habove, e, ?_, hanswer, hs⟩
      rw [hmessage] at hwords
      simp [Call.event?, hlevel, hwords, Except.toOption, he]

/-! ### What a row of calls does -/

/-- A store with a floor has followed some calls: its count is that of the calls kept, and each of
these has its event, under its number. -/
structure Keeps (floor : Level) (calls : List Call) (s : Store) : Prop where
  floor_eq : s.floor = floor
  count_eq : s.count = (Call.kept floor calls).length
  events_eq : s.events.toList.map some =
    ((Call.kept floor calls).zipIdx 1).map fun c => c.1.event? c.2

theorem keeps_empty (floor : Level) : Keeps floor [] { floor := floor } := ⟨rfl, rfl, rfl⟩

/-- **One more call** keeps the events and the count in step with the calls. -/
theorem Keeps.perform (hs : Keeps floor calls s) (h : s.perform c = (.ok answer, s')) :
    Keeps floor (calls ++ [c]) s' := by
  obtain ⟨rfl, hcount, hevents⟩ := hs
  rcases perform_eq_ok h with ⟨hreset, -, rfl⟩ | ⟨hreset, hlow, -, rfl⟩ |
    ⟨hreset, hhigh, e, he, -, rfl⟩
  · refine ⟨rfl, ?_, ?_⟩ <;> rw [Call.kept_concat_reset hreset] <;> rfl
  · refine ⟨rfl, ?_, ?_⟩ <;> rw [Call.kept_concat hreset, hlow] <;> simpa
  · refine ⟨rfl, ?_, ?_⟩
    · rw [Call.kept_concat hreset, hhigh]
      simp [hcount]
    · rw [Call.kept_concat hreset, hhigh]
      rw [hcount, Nat.add_comm] at he
      simp [List.zipIdx_append, hevents, he]

theorem Ran.keeps (h : Ran s₀ calls answers s) (hs : Keeps floor [] s₀) : Keeps floor calls s := by
  induction h with
  | start => exact hs
  | call _ hcall ih => exact ih.perform hcall

theorem Ran.length_answers (h : Ran s₀ calls answers s) : answers.length = calls.length := by
  induction h with
  | start => rfl
  | call _ _ ih => rw [List.length_append, List.length_append, ih]; rfl

/-- What a call answers with, told from the calls before it: the event that it asks for, under the
number after that of the last event kept, or nothing if it is filtered. -/
def IsAnswer (floor : Level) (before : List Call) (c : Call) (answer : Option Event) : Prop :=
  if c.reaches floor then
    ∃ e, c.event? ((Call.kept floor before).length + 1) = some e ∧ answer = some e
  else answer = none

theorem Keeps.isAnswer (hs : Keeps floor calls s) (h : s.perform c = (.ok answer, s')) :
    IsAnswer floor calls c answer := by
  obtain ⟨rfl, hcount, -⟩ := hs
  rw [IsAnswer, ← hcount]
  rcases perform_eq_ok h with ⟨hreset, hanswer, -⟩ | ⟨-, hlow, hanswer, -⟩ |
    ⟨-, hhigh, e, he, hanswer, -⟩
  · cases c with
    | reset => exact hanswer
    | record | note => cases hreset
  · rw [hlow]
    exact hanswer
  · rw [if_pos hhigh]
    exact ⟨e, he, hanswer⟩

/-- Each call of a row is answered as the calls before it tell. -/
theorem Ran.exists_answer {front back : List Call} (h : Ran s₀ calls answers s)
    (hs : Keeps floor [] s₀) (hsplit : calls = front ++ c :: back) :
    ∃ answer, answers[front.length]? = some answer ∧ IsAnswer floor front c answer := by
  induction h generalizing back with
  | start => simp at hsplit
  | @call calls answers s s' last answer hrun hcall ih =>
    have hlength := hrun.length_answers
    rcases List.eq_nil_or_concat back with rfl | ⟨back', last', rfl⟩
    · -- the call in question is the last one
      obtain ⟨rfl, hlast⟩ := List.append_inj' hsplit rfl
      obtain rfl := List.singleton_inj.1 hlast
      refine ⟨answer, ?_, (hrun.keeps hs).isAnswer hcall⟩
      rw [← hlength, List.getElem?_concat_length]
    · have hcalls : calls = front ++ c :: back' := by
        rw [List.concat_eq_append, ← List.cons_append, ← List.append_assoc] at hsplit
        exact (List.append_inj' hsplit rfl).1
      obtain ⟨answer', hanswer', hcase⟩ := ih hcalls
      refine ⟨answer', ?_, hcase⟩
      have hlt : front.length < answers.length := by
        rw [hlength, hcalls]
        simp
      rwa [List.getElem?_append_left hlt]

/-! ### The history of a store -/

/-- What a store holds after some calls, and what these were answered with. -/
structure History (floor : Level) (calls : List Call) (answers : List (Option Event))
    (s : Store) : Prop where
  /-- The events are those of the calls kept, in order and under their numbers. -/
  events : s.events.toList.map some =
    ((Call.kept floor calls).zipIdx 1).map fun c => c.1.event? c.2
  /-- An identifier shows the place of its event in base ten, with zeros up to four digits. -/
  ids : ∀ i e, s.events[i]? = some e →
    e.id = ("log:" : Text) ++ List.replicate (4 - (Nat.toDigits 10 (i + 1)).length) '0' ++
      Nat.toDigits 10 (i + 1)
  /-- No two events have the same identifier. -/
  distinct : (s.events.toList.map Event.id).Nodup
  /-- A call is answered with its event exactly if it is kept. -/
  answered : ∀ front c back, calls = front ++ c :: back →
    ∃ answer, answers[front.length]? = some answer ∧ IsAnswer floor front c answer

theorem id_of_event? {number : Nat} {e : Event} (h : c.event? number = some e) :
    e.id = Event.idOf number := by
  simp only [Call.event?, Option.bind_eq_bind, Option.bind_eq_some_iff, Option.pure_def,
    Option.some.injEq] at h
  obtain ⟨level, -, words, -, rfl⟩ := h
  rfl

/-- The event at a place has the identifier of its number. -/
theorem Keeps.id_eq (hs : Keeps floor calls s) {i : Nat} {e : Event}
    (he : s.events[i]? = some e) : e.id = Event.idOf (i + 1) := by
  have hi := congrArg (·[i]?) hs.events_eq
  simp only [List.getElem?_map, List.getElem?_zipIdx, Array.getElem?_toList, he,
    Option.map_some, Nat.add_comm 1] at hi
  obtain ⟨c, hc, hevent⟩ := Option.map_eq_some_iff.1 hi.symm
  obtain ⟨c', -, rfl⟩ := Option.map_eq_some_iff.1 hc
  exact id_of_event? hevent

theorem Keeps.nodup_ids (hs : Keeps floor calls s) : (s.events.toList.map Event.id).Nodup := by
  rw [List.nodup_iff_injective_getElem]
  have hid : ∀ i : Fin (s.events.toList.map Event.id).length,
      (s.events.toList.map Event.id)[i] = Event.idOf (i + 1) := by
    intro i
    have hi : (i : Nat) < s.events.size := by simpa using i.isLt
    have := hs.id_eq (Array.getElem?_eq_getElem hi)
    simpa using this
  intro i j h
  have hnumber := Event.idOf_injective ((hid i).symm.trans (h.trans (hid j)))
  exact Fin.ext (by omega)

/-- **The events of a store** are those that its calls since the last reset ask for. -/
theorem created_history {minLevel : Value} (hcreate : create minLevel = .ok s₀)
    (hran : Ran s₀ calls answers s) :
    ∃ label, minLevel.display = .ok label ∧ History (Level.ofLabel label) calls answers s := by
  obtain ⟨label, hlabel, h⟩ := bind_eq_ok_iff.1 hcreate
  obtain rfl := pure_eq_ok_iff.1 h
  have hstart := keeps_empty (Level.ofLabel label)
  have hkeeps := hran.keeps hstart
  refine ⟨label, hlabel, hkeeps.events_eq, fun i e he => hkeeps.id_eq he, hkeeps.nodup_ids, ?_⟩
  intro front c back hsplit
  exact hran.exists_answer hstart hsplit

/-- Calls below and above a floor, before a reset and after it. -/
def warnCalls : List Call :=
  [.note .info (.text "low") [], .record (.text "Error ") (.int 7) none, .reset,
    .note .debug (.text "low") [], .note .warn .null [("name", .bool true)]]

theorem created_history_warnCalls :
    ∃ label, (Value.text "WARNING").display = .ok label ∧
      History (Level.ofLabel label) warnCalls
        [none, some ⟨"log:0001", .error, "7", none⟩, none, none,
          some ⟨"log:0001", .warn, [], some (.dict [(.text "name", .bool true)])⟩]
        { floor := .warn,
          events := #[⟨"log:0001", .warn, [], some (.dict [(.text "name", .bool true)])⟩],
          count := 1 } := by
  have hcreate : create (.text "WARNING") = .ok { floor := .warn } := rfl
  exact created_history hcreate (((((Ran.start.call (c := warnCalls[0]) rfl).call
    (c := warnCalls[1]) rfl).call (c := warnCalls[2]) rfl).call (c := warnCalls[3]) rfl).call
    (c := warnCalls[4]) rfl)

end Store

end SpacingClasses
