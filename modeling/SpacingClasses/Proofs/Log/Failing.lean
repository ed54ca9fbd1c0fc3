import SpacingClasses.Proofs.Log.Calls
import SpacingClasses.Proofs.Number.Digits
import Mathlib.Data.List.Induction

/-!
# Calls that fail

What a store holds after any row of calls, of which some may fail, and what a failing call changes.

* `Store.after s calls` : the store after the calls, be they answered or not;
* `Store.Call.takesNumber floor c` : a call takes a number if it records above the floor and none of
  its fields has a name of the store's own;
* `Store.perform_cases` : **one call** resets the store, or leaves it as it is, or stores its event
  under the next number, or fails for its message and uses the number up;
* `Store.Numbers.after` : the count and the events follow the calls that take a number;
* `Store.created_attempted` : **a failing call leaves the events as they are**, and the numbers too
  unless its message has no words; identifiers follow one another exactly if no event comes after
  such a call;
* `Store.failing_shifts` : so the next event may have another identifier than it would have had.
-/

namespace SpacingClasses

/-! ### Numbers that are skipped -/

/-- The places of the members of a class in a row follow one another from its start exactly if no
member of the class comes after one that is none. -/
theorem map_filter_zipIdx_eq_range'_iff {α : Type} (p : α → Bool) (l : List α) (n : Nat) :
    ((l.zipIdx n).filter (p ·.1)).map (·.2) = List.range' n (l.filter p).length ↔
      l.Pairwise fun a b => p a = false → p b = false := by
  induction l generalizing n with
  | nil => simp
  | cons a l ih =>
    rw [List.zipIdx_cons, List.pairwise_cons]
    cases ha : p a with
    | true =>
      rw [List.filter_cons_of_pos ha, List.filter_cons_of_pos (by simpa using ha), List.length_cons,
        List.range'_succ, List.map_cons, List.cons_inj_right, ih]
      simp
    | false =>
      rw [List.filter_cons_of_neg (by simp [ha]), List.filter_cons_of_neg (by simp [ha])]
      constructor
      · intro h
        have hnone : l.filter p = [] := by
          by_contra hne
          -- the first place in the rest is beyond the start
          have hpos := List.length_pos_iff.2 hne
          have hmem : n ∈ ((l.zipIdx (n + 1)).filter (p ·.1)).map (·.2) := by
            rw [h, List.mem_range'_1]
            omega
          obtain ⟨e, he, hn⟩ := List.mem_map.1 hmem
          have := List.le_snd_of_mem_zipIdx (List.mem_of_mem_filter he)
          omega
        have hall : ∀ b ∈ l, p b = false := by simpa [List.filter_eq_nil_iff] using hnone
        refine ⟨fun b hb _ => hall b hb, ?_⟩
        exact List.pairwise_of_forall_mem_list fun _ _ b hb _ => hall b hb
      · rintro ⟨hall, -⟩
        have hall : ∀ b ∈ l, p b = false := fun b hb => hall b hb rfl
        have hnone : l.filter p = [] := by simpa [List.filter_eq_nil_iff] using hall
        rw [hnone, List.length_nil, List.range'_zero, List.map_eq_nil_iff, List.filter_eq_nil_iff]
        intro e he
        simp [hall e.1 (List.fst_mem_of_mem_zipIdx he)]

namespace Store

namespace Call

/-! ### Calls that take a number -/

/-- Whether a field of a call has a name that the store keeps for itself. -/
def clashes : Call → Bool
  | note _ _ fields => fields.any fun field => ownNames.contains field.1
  | _ => false

/-- Whether a call takes a number, be its message put into words or not. -/
def takesNumber (floor : Level) (c : Call) : Bool := c.reaches floor && !c.clashes

/-- The calls after the last reset that take a number. -/
def numbered (floor : Level) (calls : List Call) : List Call :=
  (sinceReset calls).filter (·.takesNumber floor)

variable {floor : Level} {calls : List Call} {c : Call}

theorem numbered_concat_reset (h : c.isReset = true) : numbered floor (calls ++ [c]) = [] := by
  rw [numbered, sinceReset_concat, if_pos h, List.filter_nil]

theorem numbered_concat (h : c.isReset = false) :
    numbered floor (calls ++ [c]) =
      numbered floor calls ++ if c.takesNumber floor then [c] else [] := by
  rw [numbered, sinceReset_concat, h, if_neg Bool.false_ne_true, List.filter_append]
  cases hc : c.takesNumber floor <;> simp [numbered, hc]

/-- A call that takes a number asks for an event exactly if its message has words. -/
theorem isSome_event?_of_takesNumber (h : c.takesNumber floor = true) (number : Nat) :
    (c.event? number).isSome = c.words?.isSome := by
  rw [takesNumber, reaches, Bool.and_eq_true] at h
  cases hlevel : c.level? with
  | none => simp [hlevel] at h
  | some level =>
    rw [event?, hlevel]
    cases c.words? <;> rfl

end Call

/-! ### What one call does, failing or not -/

variable {s s₀ : Store} {level floor : Level} {message : Value} {fields : Option Value}
  {c d : Call} {calls : List Call} {f : Failure} {words : Text} {e : Event}

theorem add_of_not_reaches (h : level.reaches s.floor = false) :
    s.add level message fields = (.ok none, s) := by
  rw [add, if_pos (Nat.not_le.1 (of_decide_eq_false h))]

theorem add_of_words (h : level.reaches s.floor = true) (hwords : messageText message = .ok words) :
    s.add level message fields =
      (.ok (some ⟨Event.idOf (s.count + 1), level, words, fields⟩),
        { s with
          events := s.events.push ⟨Event.idOf (s.count + 1), level, words, fields⟩
          count := s.count + 1 }) := by
  rw [add, if_neg (Nat.not_lt.2 (of_decide_eq_true h))]
  simp only [hwords]

theorem perform_note_nil (s : Store) (level : Level) (message : Value) :
    s.perform (.note level message []) = s.add level message none := rfl

/-- The number is used up where the message has no words. -/
theorem add_of_failure (h : level.reaches s.floor = true)
    (hwords : messageText message = .error f) :
    s.add level message fields = (.error f, { s with count := s.count + 1 }) := by
  rw [add, if_neg (Nat.not_lt.2 (of_decide_eq_true h))]
  simp only [hwords]

/-- A call that is no reset adds its message, unless it fails before: its level has no text, or a
field has a name of the store's own. -/
theorem perform_of_not_reset (s : Store) (hreset : c.isReset = false) :
    (∃ f, s.perform c = (.error f, s) ∧ ∀ floor, c.takesNumber floor = false) ∨
    (c.clashes = false ∧ ∃ level message, c.level? = some level ∧
      c.words? = (messageText message).toOption ∧
      s.perform c = s.add level message c.fields?) := by
  cases c with
  | record level message fields =>
    rw [perform, record]
    cases hlabel : level.display with
    | error f =>
      refine .inl ⟨f, rfl, fun floor => ?_⟩
      simp [Call.takesNumber, Call.reaches, Call.level?, hlabel, Except.toOption]
    | ok label =>
      refine .inr ⟨rfl, Level.ofLabel label, message, ?_, rfl, rfl⟩
      simp [Call.level?, hlabel, Except.toOption]
  | note level message fields =>
    rw [perform, note]
    split
    · rename_i name v hfind
      refine .inl ⟨_, rfl, fun floor => ?_⟩
      have hname := List.find?_some hfind
      have hclash : (Call.note level message fields).clashes = true :=
        List.any_eq_true.2 ⟨_, List.mem_of_find?_eq_some hfind, hname⟩
      rw [Call.takesNumber, hclash, Bool.not_true, Bool.and_false]
    · rename_i hfind
      have hclash : (Call.note level message fields).clashes = false :=
        List.any_eq_false.2 fun field hfield => List.find?_eq_none.1 hfind field hfield
      refine .inr ⟨hclash, level, message, rfl, rfl, ?_⟩
      cases fields <;> rfl
  | reset => cases hreset

/-- **One call** resets the store, or leaves it as it is, or stores its event under the next number,
or fails for want of words and uses that number up. -/
theorem perform_cases (s : Store) (c : Call) :
    (c.isReset = true ∧ s.perform c = (.ok none, { s with events := #[], count := 0 })) ∨
    (c.isReset = false ∧ c.takesNumber s.floor = false ∧ (s.perform c).2 = s ∧
      ∀ e, (s.perform c).1 ≠ .ok (some e)) ∨
    (c.isReset = false ∧ c.takesNumber s.floor = true ∧ ∃ e, c.event? (s.count + 1) = some e ∧
      s.perform c =
        (.ok (some e), { s with events := s.events.push e, count := s.count + 1 })) ∨
    (c.isReset = false ∧ c.takesNumber s.floor = true ∧ c.words? = none ∧
      ∃ f, s.perform c = (.error f, { s with count := s.count + 1 })) := by
  cases hreset : c.isReset with
  | true =>
    cases c with
    | reset => exact .inl ⟨rfl, rfl⟩
    | record | note => cases hreset
  | false =>
    refine .inr ?_
    rcases perform_of_not_reset s hreset with ⟨f, hperform, hnumber⟩ |
      ⟨hclash, level, message, hlevel, hwords, hperform⟩
    · refine .inl ⟨rfl, hnumber s.floor, by rw [hperform], ?_⟩
      intro e he
      rw [hperform] at he
      cases he
    · have hnumber : c.takesNumber s.floor = level.reaches s.floor := by
        rw [Call.takesNumber, hclash, Call.reaches_of_level hlevel, Bool.not_false, Bool.and_true]
      rw [hperform, hnumber]
      cases hreach : level.reaches s.floor with
      | false =>
        rw [add_of_not_reaches hreach]
        refine .inl ⟨rfl, rfl, rfl, ?_⟩
        intro e he
        cases he
      | true =>
        cases hmessage : messageText message with
        | ok words =>
          rw [hmessage] at hwords
          refine .inr (.inl ⟨rfl, rfl, _, ?_, add_of_words hreach hmessage⟩)
          simp [Call.event?, hlevel, hwords, Except.toOption]
        | error f =>
          rw [hmessage] at hwords
          exact .inr (.inr ⟨rfl, rfl, hwords, f, add_of_failure hreach hmessage⟩)

/-! ### What a row of calls does, failing or not -/

/-- The store after a row of calls, be they answered or not. -/
def after (s : Store) (calls : List Call) : Store := calls.foldl (fun s c => (s.perform c).2) s

theorem after_concat (s : Store) (calls : List Call) (c : Call) :
    s.after (calls ++ [c]) = ((s.after calls).perform c).2 := by
  rw [after, List.foldl_append]
  rfl

/-- A store with a floor has followed some calls: its count is that of the calls that take a number,
and those of them that ask for an event have it under their place. -/
structure Numbers (floor : Level) (calls : List Call) (s : Store) : Prop where
  floor_eq : s.floor = floor
  count_eq : s.count = (Call.numbered floor calls).length
  events_eq : s.events.toList =
    ((Call.numbered floor calls).zipIdx 1).filterMap fun c => c.1.event? c.2

/-- **One more call** keeps the count and the events in step with the calls. -/
theorem Numbers.perform (hs : Numbers floor calls s) (c : Call) :
    Numbers floor (calls ++ [c]) (s.perform c).2 := by
  obtain ⟨rfl, hcount, hevents⟩ := hs
  have hplace : c.event? (1 + (Call.numbered s.floor calls).length) = c.event? (s.count + 1) := by
    rw [hcount, Nat.add_comm]
  rcases perform_cases s c with ⟨hreset, hperform⟩ | ⟨hreset, hnumber, hsame, -⟩ |
    ⟨hreset, hnumber, e, he, hperform⟩ | ⟨hreset, hnumber, hwords, f, hperform⟩
  · rw [hperform]
    refine ⟨rfl, ?_, ?_⟩ <;> rw [Call.numbered_concat_reset hreset] <;> rfl
  · rw [hsame]
    refine ⟨rfl, ?_, ?_⟩ <;> rw [Call.numbered_concat hreset, hnumber] <;> simpa
  · rw [hperform]
    refine ⟨rfl, ?_, ?_⟩ <;> rw [Call.numbered_concat hreset, hnumber]
    · simp [hcount]
    · simp [List.zipIdx_append, hevents, hplace, he]
  · have hnone : c.event? (s.count + 1) = none := by
      rw [← Option.isNone_iff_eq_none, ← Option.not_isSome,
        Call.isSome_event?_of_takesNumber hnumber, hwords]
      rfl
    rw [hperform]
    refine ⟨rfl, ?_, ?_⟩ <;> rw [Call.numbered_concat hreset, hnumber]
    · simp [hcount]
    · simp [List.zipIdx_append, hevents, hplace, hnone]

theorem Numbers.after (hs : Numbers floor [] s) (calls : List Call) :
    Numbers floor calls (s.after calls) := by
  -- the last call comes to a store that has followed the others
  induction calls using List.reverseRecOn with
  | nil => exact hs
  | append_singleton calls c ih =>
    rw [after_concat]
    exact ih.perform c

/-! ### What a failing call changes -/

theorem Call.event?_renumber {number : Nat} (h : c.event? number = some e) (number' : Nat) :
    c.event? number' = some (e.renumber number') := by
  simp only [Call.event?, Option.bind_eq_bind, Option.bind_eq_some_iff, Option.pure_def,
    Option.some.injEq] at h ⊢
  obtain ⟨level, hlevel, words, hwords, rfl⟩ := h
  exact ⟨level, hlevel, words, hwords, rfl⟩

/-- A call that stores an event takes a number, and the event has that number. -/
theorem takesNumber_of_perform (h : (s.perform c).1 = .ok (some e)) :
    c.isReset = false ∧ c.takesNumber s.floor = true ∧ c.event? (s.count + 1) = some e := by
  rcases perform_cases s c with ⟨-, hperform⟩ | ⟨-, -, -, hnone⟩ |
    ⟨hreset, hnumber, e', he, hperform⟩ | ⟨-, -, -, f, hperform⟩
  · rw [hperform] at h
    cases h
  · exact absurd h (hnone e)
  · rw [hperform] at h
    cases h
    exact ⟨hreset, hnumber, he⟩
  · rw [hperform] at h
    cases h

/-- A call that stores an event stores it above the same floor after any count. -/
theorem perform_with_count (h : (s.perform c).1 = .ok (some e)) (count : Nat) :
    (({ s with count := count } : Store).perform c).1 = .ok (some (e.renumber (count + 1))) := by
  obtain ⟨hreset, hnumber, hevent⟩ := takesNumber_of_perform h
  have hevent' := Call.event?_renumber hevent (count + 1)
  rcases perform_cases { s with count := count } c with ⟨hreset', -⟩ | ⟨-, hnumber', -⟩ |
    ⟨-, -, e', he, hperform⟩ | ⟨-, hnumber', hwords, -⟩
  · rw [hreset] at hreset'
    cases hreset'
  · rw [hnumber] at hnumber'
    cases hnumber'
  · rw [hperform, ← hevent', ← he]
  · have := Call.isSome_event?_of_takesNumber hnumber (s.count + 1)
    rw [hevent, hwords] at this
    cases this

/-- What a failing call leaves as it is, and what it changes. -/
structure Fails (s : Store) (c : Call) : Prop where
  /-- The events stay. -/
  events : (s.perform c).2.events = s.events
  /-- So does all else, unless the call takes a number. -/
  same_iff : (s.perform c).2 = s ↔ c.takesNumber s.floor = false
  /-- A failing call that takes a number has a message without words. -/
  words : c.takesNumber s.floor = true → c.words? = none
  /-- The next event has the next number, or the one after that if the call takes a number. -/
  next : ∀ d e, (s.perform d).1 = .ok (some e) →
    e.id = Event.idOf (s.count + 1) ∧
      ((s.perform c).2.perform d).1 =
        .ok (some (e.renumber (s.count + 1 + if c.takesNumber s.floor then 1 else 0)))

theorem fails_of_perform (h : (s.perform c).1 = .error f) : Fails s c := by
  rcases perform_cases s c with ⟨-, hperform⟩ | ⟨-, hnumber, hsame, -⟩ | ⟨-, -, e, -, hperform⟩ |
    ⟨-, hnumber, hwords, f', hperform⟩
  · rw [hperform] at h
    cases h
  · refine ⟨by rw [hsame], ⟨fun _ => hnumber, fun _ => hsame⟩, fun htrue => ?_, ?_⟩
    · rw [hnumber] at htrue
      cases htrue
    · intro d e hd
      rw [hsame, hnumber]
      exact ⟨id_of_event? (takesNumber_of_perform hd).2.2, perform_with_count hd s.count⟩
  · rw [hperform] at h
    cases h
  · refine ⟨by rw [hperform], ?_, fun _ => hwords, ?_⟩
    · rw [hperform, hnumber]
      refine ⟨fun heq => ?_, fun hfalse => by cases hfalse⟩
      have := congrArg Store.count heq
      simp at this
    · intro d e hd
      rw [hperform, hnumber]
      exact ⟨id_of_event? (takesNumber_of_perform hd).2.2, perform_with_count hd (s.count + 1)⟩

/-! ### Identifiers in a row of calls -/

/-- The identifiers of the events that calls ask for show the places of the calls. -/
theorem map_id_filterMap_zipIdx {l : List Call} (h : ∀ c ∈ l, c.takesNumber floor = true)
    (n : Nat) :
    ((l.zipIdx n).filterMap fun c => c.1.event? c.2).map Event.id =
      (((l.zipIdx n).filter (·.1.words?.isSome)).map (·.2)).map Event.idOf := by
  induction l generalizing n with
  | nil => rfl
  | cons c l ih =>
    rw [List.forall_mem_cons] at h
    have hsome := Call.isSome_event?_of_takesNumber h.1 n
    rw [List.zipIdx_cons]
    cases hevent : c.event? n with
    | none =>
      rw [hevent, Option.isSome_none] at hsome
      simp only [List.filterMap_cons, hevent]
      rw [List.filter_cons_of_neg (by simp [← hsome]), ih h.2]
    | some e =>
      rw [hevent, Option.isSome_some] at hsome
      simp only [List.filterMap_cons, hevent]
      rw [List.filter_cons_of_pos (by simp [← hsome]), List.map_cons, List.map_cons, List.map_cons,
        ih h.2, id_of_event? hevent]

/-- Identifiers follow one another from the first exactly if no event comes after a call that has
used up a number. -/
theorem Numbers.consecutive_iff (hs : Numbers floor calls s) :
    s.events.toList.map Event.id = (List.range' 1 s.events.size).map Event.idOf ↔
      (Call.numbered floor calls).Pairwise fun c d => c.words? = none → d.words? = none := by
  have hnumbered : ∀ c ∈ Call.numbered floor calls, c.takesNumber floor = true :=
    fun c hc => (List.mem_filter.1 hc).2
  have hids := map_id_filterMap_zipIdx hnumbered 1
  rw [← hs.events_eq] at hids
  have hsize : s.events.size =
      ((Call.numbered floor calls).filter (·.words?.isSome)).length := by
    have hlength := congrArg List.length hids
    rw [List.length_map, List.length_map, List.length_map, Array.length_toList,
      ← List.countP_eq_length_filter] at hlength
    rw [hlength, ← List.countP_eq_length_filter]
    conv_rhs => rw [← List.zipIdx_map_fst 1 (Call.numbered floor calls), List.countP_map]
    rfl
  rw [hids, hsize, (List.map_injective_iff.2 Event.idOf_injective).eq_iff,
    map_filter_zipIdx_eq_range'_iff fun c : Call => c.words?.isSome]
  simp only [Option.isSome_eq_false_iff, Option.isNone_iff_eq_none]

/-- What a store holds after some calls, and what a call that fails then changes. -/
structure Attempted (calls : List Call) (s : Store) : Prop where
  /-- The events are those of the calls that take a number and have words, under their places. -/
  events : s.events.toList =
    ((Call.numbered s.floor calls).zipIdx 1).filterMap fun c => c.1.event? c.2
  /-- Their identifiers follow one another from the first exactly if each call without words comes
  after those with words. -/
  consecutive : s.events.toList.map Event.id = (List.range' 1 s.events.size).map Event.idOf ↔
    (Call.numbered s.floor calls).Pairwise fun c d => c.words? = none → d.words? = none
  /-- A failing call keeps the events, and keeps the numbers unless its message has no words. -/
  fails : ∀ c f, (s.perform c).1 = .error f → Fails s c

/-- **A failing call leaves the events as they are**, after any row of calls, failing or not; it uses
up a number exactly if it records above the floor and only its message has no words. -/
theorem created_attempted {minLevel : Value} (hcreate : create minLevel = .ok s₀)
    (calls : List Call) : Attempted calls (s₀.after calls) := by
  obtain ⟨label, -, h⟩ := bind_eq_ok_iff.1 hcreate
  obtain rfl := pure_eq_ok_iff.1 h
  have hstart : Numbers (Level.ofLabel label) [] { floor := Level.ofLabel label } := ⟨rfl, rfl, rfl⟩
  have hs := hstart.after calls
  refine ⟨?_, ?_, fun c f hfail => fails_of_perform hfail⟩
  · rw [hs.floor_eq]
    exact hs.events_eq
  · rw [hs.floor_eq]
    exact hs.consecutive_iff

/-- An integer of more digits than can be written has no words. -/
theorem messageText_int_of_long {n : Int}
    (h : Integer.maxDigits < (Text.ofNat n.natAbs).length) :
    messageText (.int n) = .error (.digitLimit none) := by
  have hwrite : messageText (.int n) = Integer.write n := rfl
  rw [hwrite, Integer.write, if_neg (Nat.not_le.2 h)]

/-- An integer of one digit more than can be written. -/
def wordless : Value := .int ((10 ^ Integer.maxDigits : Nat) : Int)

theorem messageText_wordless : messageText wordless = .error (.digitLimit none) := by
  refine messageText_int_of_long ?_
  rw [Int.natAbs_natCast, ← Nat.not_le, Text.length_ofNat_le_iff (by decide)]
  exact Nat.lt_irrefl _

theorem display_wordless : wordless.display = .error (.digitLimit none) := messageText_wordless

/-- A call without words between two that have some, and a call at a level without words. -/
def wordlessCalls : List Call :=
  [.note .info (.text "one") [], .note .info wordless [], .record wordless (.text "two") none,
    .note .info (.text "three") []]

/-- The calls that take a number: the one at a level without words is not among them. -/
theorem numbered_wordlessCalls :
    Call.numbered .debug wordlessCalls =
      [.note .info (.text "one") [], .note .info wordless [], .note .info (.text "three") []] := by
  have hlevel : (Call.record wordless (.text "two") none).takesNumber .debug = false := by
    rw [Call.takesNumber, Call.reaches, Call.level?, display_wordless]
    rfl
  have hsince : Call.sinceReset wordlessCalls = wordlessCalls := rfl
  rw [Call.numbered, hsince, wordlessCalls, List.filter_cons_of_pos rfl,
    List.filter_cons_of_pos rfl, List.filter_cons_of_neg (Bool.eq_false_iff.1 hlevel),
    List.filter_cons_of_pos rfl, List.filter_nil]

/-- The number of the message without words is missing among the events, and another such call
keeps these but not the store. -/
theorem created_attempted_wordlessCalls :
    (({ floor := .debug } : Store).after wordlessCalls).events.toList =
        [⟨"log:0001", .info, "one", none⟩, ⟨"log:0003", .info, "three", none⟩] ∧
      ((({ floor := .debug } : Store).after wordlessCalls).perform
        (.note .info wordless [])).2.events =
          (({ floor := .debug } : Store).after wordlessCalls).events ∧
      ((({ floor := .debug } : Store).after wordlessCalls).perform (.note .info wordless [])).2 ≠
        ({ floor := .debug } : Store).after wordlessCalls := by
  have hcreate : create (.text "debug") = .ok { floor := .debug } := rfl
  have hdone := created_attempted hcreate wordlessCalls
  have hstart : Numbers .debug [] { floor := .debug } := ⟨rfl, rfl, rfl⟩
  have hfloor := (hstart.after wordlessCalls).floor_eq
  generalize ({ floor := .debug } : Store).after wordlessCalls = s at hdone hfloor ⊢
  have hfails := hdone.fails (.note .info wordless []) (.digitLimit none) (by
    rw [perform_note_nil, add_of_failure (by rw [hfloor]; rfl) messageText_wordless])
  have hwordless : ∀ n, (Call.note .info wordless []).event? n = none := by
    intro n
    rw [Call.event?, Call.words?, messageText_wordless]
    rfl
  refine ⟨?_, hfails.events, fun hsame => ?_⟩
  · rw [hdone.events, hfloor, numbered_wordlessCalls]
    simp only [List.zipIdx_cons, List.filterMap_cons, hwordless]
    rfl
  · have hnumber := hfails.same_iff.1 hsame
    rw [hfloor] at hnumber
    cases hnumber

/-- A failing call may change the identifier of the next event. -/
theorem failing_shifts :
    ¬ ∀ (minLevel : Value) (s₀ : Store) (calls : List Call) (c d : Call) (f : Failure)
        (e e' : Event),
      create minLevel = .ok s₀ → ((s₀.after calls).perform c).1 = .error f →
        ((s₀.after calls).perform d).1 = .ok (some e) →
          (((s₀.after calls).perform c).2.perform d).1 = .ok (some e') → e'.id = e.id := by
  intro hall
  have hfail : ({ floor := .debug } : Store).perform (.note .info wordless []) =
      (.error (.digitLimit none), { floor := .debug, count := 1 }) := by
    rw [perform_note_nil, add_of_failure rfl messageText_wordless]
  have hnext : ((({ floor := .debug } : Store).perform (.note .info wordless [])).2.perform
      (.note .info (.text "next") [])).1 = .ok (some ⟨Event.idOf 2, .info, "next", none⟩) := by
    rw [hfail]
    rfl
  have hsame := hall (.text "debug") { floor := .debug } [] (.note .info wordless [])
    (.note .info (.text "next") []) _ ⟨Event.idOf 1, .info, "next", none⟩ _ rfl
    (congrArg Prod.fst hfail) rfl hnext
  exact absurd (Event.idOf_injective hsame) (by decide)

end Store

end SpacingClasses
