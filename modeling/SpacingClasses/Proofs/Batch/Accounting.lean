import SpacingClasses.Batch
import SpacingClasses.Proofs.Outcome
import Mathlib.Data.List.Forall2
import Mathlib.Tactic.SplitIfs

/-!
# Batches account for every prop

A run that skips what it cannot convert has one outcome for each prop, in the order of the props.

* `Outcome.Settles p o` : the outcome `o` is what becomes of the prop `p`;
* `Batch.Accounted ps b` : the conversions of `b` are those of the convertible props of `ps`, the
  rejected props are the others, and the class names are those that the conversions have;
* `Batch.run_append` : a run over two lists is a run over the first and, unless that stops, a run
  over the second;
* `Batch.ofValue_accounted` : **a run that is not stopped accounts for its props**, and it can be
  split anywhere.
-/

namespace SpacingClasses

/-! ### What becomes of one prop -/

namespace SpacingProp

/-- The value that a prop is converted with: its source text as it reads, if it has one. -/
def value? (p : SpacingProp) : Option Value :=
  match p.raw with
  | none => some p.value
  | some raw => (Attribute.read raw).toOption

/-- Whether a prop can be converted: its property is known, and its source text, if any, reads. -/
def isConvertible (p : SpacingProp) : Bool := Property.isSpacing p.name && p.value?.isSome

end SpacingProp

/-- The conversion is that of the prop: of its name, its value and the classes that these have. -/
structure Conversion.Of (p : SpacingProp) (c : Conversion) : Prop where
  name : c.name = p.name
  value : p.value? = some c.value
  classes : convertSpacing (.text p.name) c.value = .ok c.classes

namespace Outcome

/-- The outcome is the conversion of a prop, or the rejection of one that has an unknown property or
a source text that does not read. -/
inductive Settles (p : SpacingProp) : Outcome → Prop where
  | converted {c} (hname : Property.isSpacing p.name = true) (hc : c.Of p) :
      Settles p (.converted c)
  | unknown (hname : Property.isSpacing p.name = false) : Settles p (.unknown p.name)
  | unreadable {raw report} (hname : Property.isSpacing p.name = true) (hraw : p.raw = some raw)
      (hread : Attribute.read raw = .error (.report report)) :
      Settles p (.unreadable p.name raw report)

variable {p : SpacingProp} {o : Outcome} {v : Value}

theorem valueOf_eq_ok (h : valueOf p = .ok (.ok v)) : p.value? = some v := by
  cases hraw : p.raw with
  | none =>
    simp only [valueOf, hraw] at h
    simp only [SpacingProp.value?, hraw]
    cases h
    rfl
  | some raw =>
    simp only [valueOf, hraw] at h
    simp only [SpacingProp.value?, hraw]
    split at h
    · rename_i hread
      cases h
      rw [hread]
      rfl
    · cases h
    · cases h

theorem valueOf_eq_error {raw : Text} {report : Report}
    (h : valueOf p = .ok (.error (raw, report))) :
    p.raw = some raw ∧ Attribute.read raw = .error (.report report) := by
  cases hraw : p.raw with
  | none =>
    simp only [valueOf, hraw] at h
    cases h
  | some raw' =>
    simp only [valueOf, hraw] at h
    split at h
    · cases h
    · rename_i report' hread
      cases h
      exact ⟨rfl, hread⟩
    · cases h

/-- **What may become of a prop**: it has an unknown name, a source text that does not read, or the
tokens of its value. -/
theorem ofProp_eq_ok (h : ofProp p = .ok o) :
    (Property.isSpacing p.name = false ∧ o = unknown p.name) ∨
      Property.isSpacing p.name = true ∧
        ((∃ raw report, p.raw = some raw ∧ Attribute.read raw = .error (.report report) ∧
            o = unreadable p.name raw report) ∨
          ∃ v tokens overflow, p.value? = some v ∧
            ClassToken.ofValue (.text p.name) v = .ok tokens ∧
            overflowEntries v = .ok overflow ∧ o = converted ⟨p.name, v, tokens, overflow⟩) := by
  rw [ofProp] at h
  split at h
  · rename_i hstem
    cases h
    refine .inl ⟨?_, rfl⟩
    rw [Property.isSpacing, hstem]
    rfl
  · rename_i stem hstem
    refine .inr ⟨?_, ?_⟩
    · rw [Property.isSpacing, hstem]
      rfl
    obtain ⟨value, hvalue, h⟩ := bind_eq_ok_iff.1 h
    split at h
    · cases h
      obtain ⟨hraw, hread⟩ := valueOf_eq_error hvalue
      exact .inl ⟨_, _, hraw, hread, rfl⟩
    · obtain ⟨shape, hshape, h⟩ := bind_eq_ok_iff.1 h
      obtain ⟨tokens, htokens, h⟩ := bind_eq_ok_iff.1 h
      obtain ⟨overflow, hoverflow, h⟩ := bind_eq_ok_iff.1 h
      cases h
      refine .inr ⟨_, tokens, overflow, valueOf_eq_ok hvalue, ?_, hoverflow, rfl⟩
      rw [ClassToken.ofValue_of_stem hstem, hshape, ok_bind, htokens]

/-- The class names of a value are those of its tokens. -/
theorem classes_of_tokens {property : Value} {tokens : List ClassToken}
    (h : ClassToken.ofValue property v = .ok tokens) :
    convertSpacing property v = .ok (Text.joined [' '] (tokens.map ClassToken.text)) := by
  rw [convertSpacing, spacingClasses, h]
  rfl

/-- A prop that an outcome is found for is settled by it. -/
theorem settles_of_ofProp (h : ofProp p = .ok o) : Settles p o := by
  obtain ⟨hname, rfl⟩ | ⟨hname, ⟨raw, report, hraw, hread, rfl⟩ |
    ⟨v, tokens, overflow, hvalue, htokens, -, rfl⟩⟩ := ofProp_eq_ok h
  · exact .unknown hname
  · exact .unreadable hname hraw hread
  · exact .converted hname ⟨rfl, hvalue, classes_of_tokens htokens⟩

/-- A prop is settled by its conversion exactly if it is convertible. -/
theorem Settles.isConvertible_eq (h : Settles p o) :
    p.isConvertible = o.conversion?.isSome := by
  rw [SpacingProp.isConvertible]
  cases h with
  | converted hname hc =>
    rw [hname, hc.value]
    rfl
  | unknown hname =>
    rw [hname]
    rfl
  | unreadable hname hraw hread =>
    rw [hname, SpacingProp.value?, hraw]
    simp only [hread]
    rfl

end Outcome

/-! ### Runs -/

namespace Batch

variable {ps qs : List SpacingProp} {os : List Outcome} {p : SpacingProp}

/-- A run that skips unknown properties ends at a failure only. -/
theorem run_cons (p : SpacingProp) (ps : List SpacingProp) :
    run true (p :: ps) =
      match Outcome.ofProp p with
      | .error f => { stopped := some f }
      | .ok o => { run true ps with outcomes := o :: (run true ps).outcomes } := by
  rw [run]
  cases Outcome.ofProp p with
  | error f => rfl
  | ok o => cases o <;> rfl

/-- **A run over two lists** is a run over the first and, unless that stops, over the second. -/
theorem run_append (ps qs : List SpacingProp) :
    run true (ps ++ qs) =
      match (run true ps).stopped with
      | some f => { outcomes := (run true ps).outcomes, stopped := some f }
      | none =>
        { outcomes := (run true ps).outcomes ++ (run true qs).outcomes
          stopped := (run true qs).stopped } := by
  induction ps with
  | nil => rfl
  | cons p ps ih =>
    -- a failure at the first prop hides both what follows it and the second list
    rw [List.cons_append, run_cons, run_cons, ih]
    cases Outcome.ofProp p with
    | error f => rfl
    | ok o => cases (run true ps).stopped <;> rfl

theorem stopped_append :
    (run true (ps ++ qs)).stopped = none ↔
      (run true ps).stopped = none ∧ (run true qs).stopped = none := by
  rw [run_append]
  cases (run true ps).stopped <;> simp

theorem outcomes_append (h : (run true ps).stopped = none) :
    (run true (ps ++ qs)).outcomes = (run true ps).outcomes ++ (run true qs).outcomes := by
  rw [run_append, h]

/-- The outcomes of a run are those of the props that it comes to, in order; it comes to all unless
it is stopped. -/
theorem exists_outcomes_of_run (ps : List SpacingProp) :
    ∃ front back, ps = front ++ back ∧
      List.Forall₂ (fun p o => Outcome.ofProp p = .ok o) front (run true ps).outcomes ∧
      ((run true ps).stopped = none → back = []) := by
  induction ps with
  | nil => exact ⟨[], [], rfl, .nil, fun _ => rfl⟩
  | cons p ps ih =>
    rw [run_cons]
    cases ho : Outcome.ofProp p with
    | error f => exact ⟨[], p :: ps, rfl, .nil, fun h => by cases h⟩
    | ok o =>
      obtain ⟨front, back, rfl, houtcomes, hback⟩ := ih
      exact ⟨p :: front, back, rfl, .cons ho houtcomes, hback⟩

/-- The outcomes of a run that is not stopped are those of its props, in order. -/
theorem outcomes_of_run (h : (run true ps).stopped = none) :
    List.Forall₂ (fun p o => Outcome.ofProp p = .ok o) ps (run true ps).outcomes := by
  obtain ⟨front, back, hps, houtcomes, hback⟩ := exists_outcomes_of_run ps
  rw [hback h, List.append_nil] at hps
  rwa [← hps] at houtcomes

/-- One outcome settles each prop, in order. -/
theorem settles_of_run (h : (run true ps).stopped = none) :
    List.Forall₂ Outcome.Settles ps (run true ps).outcomes :=
  (outcomes_of_run h).imp fun _ _ => Outcome.settles_of_ofProp

/-! ### Accounts -/

/-- What a batch must hold for a list of props. -/
structure Accounted (ps : List SpacingProp) (b : Batch) : Prop where
  /-- One outcome settles each prop, in order. -/
  outcomes : List.Forall₂ Outcome.Settles ps b.outcomes
  /-- The conversions are those of the convertible props, in order. -/
  conversions : List.Forall₂ (fun p c => c.Of p) (ps.filter SpacingProp.isConvertible) b.conversions
  /-- The rejected props are the others, in order. -/
  rejected : b.rejected.map Prod.fst = (ps.filter (!·.isConvertible)).map SpacingProp.name
  /-- None is both, and none is left out. -/
  total : b.conversions.length + b.rejected.length = ps.length
  /-- The class names are those of the convertible props that have any, in order. -/
  className : ∃ texts,
    List.Forall₂ (fun p t => ∃ v, p.value? = some v ∧ convertSpacing (.text p.name) v = .ok t)
      (ps.filter SpacingProp.isConvertible) texts ∧
      b.className = Text.joined [' '] (texts.filter (!·.isEmpty))

theorem conversions_of_settles (h : List.Forall₂ Outcome.Settles ps os) :
    List.Forall₂ (fun p c => c.Of p) (ps.filter SpacingProp.isConvertible)
      (os.filterMap Outcome.conversion?) := by
  induction h with
  | nil => exact .nil
  | cons h _ ih =>
    -- the prop passes the filter exactly if its outcome is a conversion
    have hp := h.isConvertible_eq
    cases h with
    | converted _ hc =>
      rw [List.filter_cons_of_pos hp]
      exact .cons hc ih
    | unknown _ | unreadable _ _ _ =>
      rw [List.filter_cons_of_neg (Bool.eq_false_iff.1 hp)]
      exact ih

theorem rejected_of_settles (h : List.Forall₂ Outcome.Settles ps os) :
    (os.filterMap Outcome.rejection?).map Prod.fst =
      (ps.filter (!·.isConvertible)).map SpacingProp.name := by
  induction h with
  | nil => rfl
  | cons h _ ih =>
    have hp := h.isConvertible_eq
    cases h with
    | converted _ hc =>
      rw [List.filter_cons_of_neg (by simp [hp, Outcome.conversion?])]
      exact ih
    | unknown _ | unreadable _ _ _ =>
      rw [List.filter_cons_of_pos (by simp [hp, Outcome.conversion?]), List.map_cons, ← ih]
      rfl

theorem accounted_of_settles {b : Batch} (h : List.Forall₂ Outcome.Settles ps b.outcomes) :
    Accounted ps b := by
  have hconversions := conversions_of_settles h
  have hrejected := rejected_of_settles h
  refine ⟨h, hconversions, hrejected, ?_, b.conversions.map Conversion.classes, ?_, rfl⟩
  · have hlength := congrArg List.length hrejected
    rw [List.length_map, List.length_map] at hlength
    rw [rejected, hlength, conversions, ← hconversions.length_eq]
    exact (List.length_eq_length_filter_add SpacingProp.isConvertible).symm
  · rw [List.forall₂_map_right_iff]
    exact hconversions.imp fun p c hc => ⟨c.value, hc.value, hc.classes⟩

/-! ### Lists of entries -/

/-- An entry describes the same prop at any position: only the report on another one tells it. -/
theorem ofEntry_position {i j : Nat} {v : Value} (h : SpacingProp.ofEntry i v = .ok p) :
    SpacingProp.ofEntry j v = .ok p := by
  -- the position stands in the failures alone, and these are no props
  fun_cases SpacingProp.ofEntry i v <;> simp_all [SpacingProp.ofEntry]

theorem ofEntries_position {i j : Nat} {xs : List Value} (h : SpacingProp.ofEntries i xs = .ok ps) :
    SpacingProp.ofEntries j xs = .ok ps := by
  induction xs generalizing i j ps with
  | nil => exact h
  | cons v xs ih =>
    rw [SpacingProp.ofEntries] at h ⊢
    obtain ⟨p, hp, h⟩ := bind_eq_ok_iff.1 h
    obtain ⟨rest, hrest, h⟩ := bind_eq_ok_iff.1 h
    rw [ofEntry_position hp, ok_bind, ih hrest, ok_bind]
    exact h

theorem ofEntries_append {i : Nat} {xs ys : List Value} :
    SpacingProp.ofEntries i (xs ++ ys) = .ok ps ↔
      ∃ front back, SpacingProp.ofEntries i xs = .ok front ∧
        SpacingProp.ofEntries i ys = .ok back ∧ ps = front ++ back := by
  induction xs generalizing i ps with
  | nil => simp [SpacingProp.ofEntries]
  | cons v xs ih =>
    simp only [List.cons_append, SpacingProp.ofEntries, bind_eq_ok_iff, pure_eq_ok_iff, ih]
    constructor
    · rintro ⟨p, hp, -, ⟨front, back, hfront, hback, rfl⟩, rfl⟩
      exact ⟨p :: front, back, ⟨p, hp, front, hfront, rfl⟩, ofEntries_position hback, rfl⟩
    · rintro ⟨-, back, ⟨p, hp, front, hfront, rfl⟩, hback, rfl⟩
      exact ⟨p, hp, front ++ back, ⟨front, back, hfront, ofEntries_position hback, rfl⟩, rfl⟩

/-- A list of entries is converted in full exactly if it holds props and their run is not
stopped. -/
theorem stopped_list {xs : List Value} :
    (ofValue true (.list xs)).stopped = none ↔
      ∃ ps, SpacingProp.ofEntries 1 xs = .ok ps ∧ (run true ps).stopped = none := by
  rw [ofValue, SpacingProp.ofValue]
  cases SpacingProp.ofEntries 1 xs with
  | error f => simp
  | ok ps => simp

theorem ofValue_of_props {props : Value} (h : SpacingProp.ofValue props = .ok ps)
    (skipUnknown : Bool) : ofValue skipUnknown props = run skipUnknown ps := by
  rw [ofValue, h]

theorem ofValue_list {xs : List Value} (h : SpacingProp.ofEntries 1 xs = .ok ps) :
    ofValue true (.list xs) = run true ps := by
  have hprops : SpacingProp.ofValue (.list xs) = .ok ps := h
  exact ofValue_of_props hprops true

/-- What is converted and what is rejected in two lists of entries adds up. -/
structure Concatenates (xs ys : List Value) : Prop where
  stopped : (ofValue true (.list (xs ++ ys))).stopped = none ↔
    (ofValue true (.list xs)).stopped = none ∧ (ofValue true (.list ys)).stopped = none
  conversions : (ofValue true (.list (xs ++ ys))).stopped = none →
    (ofValue true (.list (xs ++ ys))).conversions =
      (ofValue true (.list xs)).conversions ++ (ofValue true (.list ys)).conversions
  rejected : (ofValue true (.list (xs ++ ys))).stopped = none →
    (ofValue true (.list (xs ++ ys))).rejected =
      (ofValue true (.list xs)).rejected ++ (ofValue true (.list ys)).rejected

theorem outcomes_list_append {xs ys : List Value}
    (h : (ofValue true (.list (xs ++ ys))).stopped = none) :
    (ofValue true (.list (xs ++ ys))).outcomes =
      (ofValue true (.list xs)).outcomes ++ (ofValue true (.list ys)).outcomes := by
  obtain ⟨ps, hps, hrun⟩ := stopped_list.1 h
  obtain ⟨front, back, hfront, hback, rfl⟩ := ofEntries_append.1 hps
  rw [ofValue_list hps, ofValue_list hfront, ofValue_list hback]
  exact outcomes_append (stopped_append.1 hrun).1

theorem concatenates (xs ys : List Value) : Concatenates xs ys := by
  refine ⟨?_, fun h => ?_, fun h => ?_⟩
  · simp only [stopped_list]
    constructor
    · rintro ⟨ps, hps, hrun⟩
      obtain ⟨front, back, hfront, hback, rfl⟩ := ofEntries_append.1 hps
      obtain ⟨hrunFront, hrunBack⟩ := stopped_append.1 hrun
      exact ⟨⟨front, hfront, hrunFront⟩, back, hback, hrunBack⟩
    · rintro ⟨⟨front, hfront, hrunFront⟩, back, hback, hrunBack⟩
      refine ⟨front ++ back, ofEntries_append.2 ⟨front, back, hfront, hback, rfl⟩, ?_⟩
      exact stopped_append.2 ⟨hrunFront, hrunBack⟩
  · rw [conversions, outcomes_list_append h, List.filterMap_append]
    rfl
  · rw [rejected, outcomes_list_append h, List.filterMap_append]
    rfl

/-- **A run that skips what it cannot convert accounts for every prop**, if it is not stopped: no
outcome is lost, doubled or out of order, and none depends on the props around it. -/
theorem ofValue_accounted :
    (∀ (props : Value) (ps : List SpacingProp), SpacingProp.ofValue props = .ok ps →
      (ofValue true props).stopped = none → Accounted ps (ofValue true props)) ∧
    ∀ xs ys : List Value, Concatenates xs ys := by
  refine ⟨fun props ps hps hrun => accounted_of_settles ?_, concatenates⟩
  have hrun' : ofValue true props = run true ps := by
    simp only [ofValue, hps]
  rw [hrun'] at hrun ⊢
  exact settles_of_run hrun

/-- Props of all four kinds: with a value, with a source text, with one that does not read, and
with an unknown name. -/
def mixedProps : List SpacingProp :=
  [⟨"m", .text "auto", none⟩, ⟨"mt", .null, some "'auto'"⟩, ⟨"p", .null, some "\x7bx\x7d"⟩,
    ⟨"color", .null, none⟩]

theorem mixedProps_accounted :
    Accounted mixedProps
      (ofValue true (.list (mixedProps.map fun p => .prop p.name p.value p.raw))) :=
  ofValue_accounted.1 _ _ rfl rfl

end Batch

end SpacingClasses
