import SpacingClasses.Proofs.Attribute.Stops
import SpacingClasses.Proofs.Batch.Strict
import SpacingClasses.Proofs.Text.Lines
import SpacingClasses.Proofs.Text.Quoted
import SpacingClasses.Proofs.Text.Solid

/-!
# Why props are rejected

The reason for a rejection is cut out of a message of several lines: it is the first line without
its label and without the blanks at its ends.

* `Outcome.firstLine_message` : what is cut out is what happened, up to the first line end in it;
* `SpacingProp.RejectedFor p r` : the name and the reason `r` are those that a rejection of the
  prop `p` must have;
* `Batch.ofValue_reasons` : **every rejected prop has its whole reason**: an unknown name in full
  unless it has a line end in it, and a source text that does not read in full whatever it holds.
-/

namespace SpacingClasses

/-! ### The first line of a message -/

namespace Text

variable {s t part : Text} {c : Char} {p : Char → Bool}

/-- What follows a character outside of a class is in no run of the class from the start. -/
theorem takeWhile_append_of_stop (h : (∃ c ∈ s, p c = false) ∨ ∀ c ∈ t.head?, p c = false) :
    (s ++ t).takeWhile p = s.takeWhile p := by
  induction s with
  | nil =>
    rcases h with ⟨c, hc, -⟩ | h
    · cases hc
    · cases t with
      | nil => rfl
      | cons d t => exact List.takeWhile_cons_of_neg (by simp [h d rfl])
  | cons d s ih =>
    by_cases hd : p d = true
    · rw [List.cons_append, List.takeWhile_cons_of_pos hd, List.takeWhile_cons_of_pos hd, ih]
      refine h.imp_left ?_
      rintro ⟨c, hc, hstop⟩
      rcases List.mem_cons.1 hc with rfl | hc
      · rw [hd] at hstop
        cases hstop
      · exact ⟨c, hc, hstop⟩
    · rw [List.cons_append, List.takeWhile_cons_of_neg hd, List.takeWhile_cons_of_neg hd]

theorem eraseFirst_append (hpart : part ≠ []) (t : Text) : eraseFirst part (part ++ t) = t := by
  obtain ⟨c, rest, rfl⟩ := List.exists_cons_of_ne_nil hpart
  have hprefix : (c :: rest).isPrefixOf (c :: rest ++ t) = true :=
    List.isPrefixOf_iff_prefix.2 (List.prefix_append _ t)
  rw [List.cons_append] at hprefix ⊢
  rw [eraseFirst, if_pos hprefix, ← List.cons_append, List.drop_left]

theorem strip_blank (hc : isBlank c = true) (t : Text) : strip (c :: t) = strip t := by
  rw [strip, trim, List.dropWhile_cons_of_pos hc]
  rfl

end Text

/-- A message starts with what happened, and goes on on the next line. -/
theorem Guidance.exists_message (g : Guidance) :
    ∃ tail, g.message = Outcome.label ++ ' ' :: (g.what ++ tail) ∧ ∀ c ∈ tail.head?, c = '\n' := by
  have hlabel : ("What happened: " : Text) = Outcome.label ++ [' '] := rfl
  rw [message, hlabel]
  generalize Guidance.line "Why: " g.why ++ Guidance.line "Fix: " g.fix ++
    Guidance.line "Example: " g.sample = others
  cases others with
  | nil => exact ⟨[], by simp, by simp⟩
  | cons line others =>
    rw [Text.joined_cons_cons]
    refine ⟨['\n'] ++ Text.joined ['\n'] (line :: others), by simp, ?_⟩
    intro c hc
    exact (Option.some.inj hc).symm

namespace Outcome

open Text (isLineEnd isBlank)

/-- **What is cut out of a message** is what happened, up to the first line end in it. -/
theorem firstLine_message (g : Guidance) :
    firstLine g.message = Text.strip (g.what.takeWhile (!isLineEnd ·)) := by
  obtain ⟨tail, hmessage, htail⟩ := g.exists_message
  have hlabel : ∀ c ∈ label, (!isLineEnd c) = true :=
    List.all_eq_true.1 (by decide : label.all (!isLineEnd ·) = true)
  have hstop : ∀ c ∈ tail.head?, (!isLineEnd c) = false := by
    intro c hc
    rw [htail c hc]
    decide
  rw [firstLine, hmessage, Text.headD_lines, List.takeWhile_append_of_pos hlabel,
    Text.eraseFirst_append (by decide), List.takeWhile_cons_of_pos (by decide),
    Text.strip_blank (by decide), Text.takeWhile_append_of_stop (.inr hstop)]

/-- What happened is told in full if it has no line end and no blank at its ends. -/
theorem firstLine_whole {g : Guidance} (c d : Char) (inside : Text)
    (hwhat : g.what = c :: (inside ++ [d])) (hline : ∀ x ∈ g.what, isLineEnd x = false)
    (hc : isBlank c = false) (hd : isBlank d = false) : firstLine g.message = g.what := by
  have hwhole : g.what.takeWhile (!isLineEnd ·) = g.what := by
    rw [List.takeWhile_eq_self_iff]
    intro x hx
    simp [hline x hx]
  have hstrip := Text.strip_between (t := []) (r := []) (by simp) (by simp) hc hd inside
  rw [firstLine_message, hwhole, hwhat]
  exact hstrip

/-- A text on one line stays so between two others. -/
theorem not_isLineEnd_of_mem_between (front : Text) {t back : Text} {c : Char}
    (hfront : front.any isLineEnd = false) (hback : back.any isLineEnd = false)
    (ht : ∀ d ∈ t, isLineEnd d = false) (hc : c ∈ front ++ t ++ back) : isLineEnd c = false := by
  rw [List.any_eq_false] at hfront hback
  rw [List.mem_append, List.mem_append] at hc
  rcases hc with (hc | hc) | hc
  · simpa using hfront c hc
  · exact ht c hc
  · simpa using hback c hc

/-- The reason for an unknown name without a line end holds it in full. -/
theorem firstLine_unknown {name : Text} (h : ∀ c ∈ name, isLineEnd c = false)
    (nearest : Option Text) :
    firstLine (Report.unknownProperty name nearest).message =
      "Unknown spacing property '" ++ name ++ "'." := by
  refine firstLine_whole 'U' '.' ("nknown spacing property '" ++ name ++ "'") ?_ ?_ (by decide)
    (by decide)
  · simp
  · intro c hc
    exact not_isLineEnd_of_mem_between "Unknown spacing property '" (by decide) (by decide) h hc

/-- The reason for an unknown name with a line end holds it up to there. -/
theorem firstLine_unknown_cut {name : Text} (h : ∃ c ∈ name, isLineEnd c = true)
    (nearest : Option Text) :
    firstLine (Report.unknownProperty name nearest).message =
      Text.strip ("Unknown spacing property '" ++ name.takeWhile (!isLineEnd ·)) := by
  have hstop : ∃ c ∈ name, (!isLineEnd c) = false := by simpa using h
  have hfront : ∀ c ∈ ("Unknown spacing property '" : Text), (!isLineEnd c) = true := by
    simp only [← List.all_eq_true]
    decide
  refine (firstLine_message _).trans ?_
  rw [List.append_assoc, List.takeWhile_append_of_pos hfront,
    Text.takeWhile_append_of_stop (.inl hstop)]

/-- The reason for a source text that does not read holds its quoted form in full. -/
theorem firstLine_unreadable (raw : Text) (offset : Nat) (reason : Attribute.Reason) :
    firstLine (Report.unreadableAttribute raw offset reason).message =
      "Could not read attribute value " ++ Text.quoted raw ++ "." := by
  refine firstLine_whole 'C' '.' ("ould not read attribute value " ++ Text.quoted raw) ?_ ?_
    (by decide) (by decide)
  · simp
  · intro c hc
    exact not_isLineEnd_of_mem_between "Could not read attribute value " (by decide) (by decide)
      (fun d hd => Text.not_isLineEnd_of_mem_quoted hd) hc

theorem rejection?_unknown (name : Text) :
    (unknown name).rejection? =
      some (name,
        firstLine (Report.unknownProperty name (Text.closest? name Property.names)).message) :=
  rfl

/-- A report on a source text is about this text. -/
theorem exists_of_read {raw : Text} {report : Report}
    (h : Attribute.read raw = .error (.report report)) :
    ∃ offset reason, report = .unreadableAttribute raw offset reason := by
  obtain ⟨offset, reason, -, -, hreport⟩ | ⟨-, digits, hlimit⟩ := Attribute.read_eq_error h
  · exact ⟨offset, reason, Failure.report.inj hreport⟩
  · cases hlimit

end Outcome

/-! ### Reasons -/

/-- The name and the reason that a rejection of the prop must have: an unknown name is told in full,
or up to the first line end in it, and a source text that does not read in its quoted form. -/
inductive SpacingProp.RejectedFor (p : SpacingProp) : Text × Text → Prop where
  | unknown (hname : p.isKnown = false) (hline : ∀ c ∈ p.name, Text.isLineEnd c = false) :
      RejectedFor p (p.name, "Unknown spacing property '" ++ p.name ++ "'.")
  | unknownCut (hname : p.isKnown = false) (hline : ∃ c ∈ p.name, Text.isLineEnd c = true) :
      RejectedFor p
        (p.name,
          Text.strip ("Unknown spacing property '" ++ p.name.takeWhile (!Text.isLineEnd ·)))
  | unreadable {raw : Text} {report : Report} (hname : p.isKnown = true) (hraw : p.raw = some raw)
      (hread : Attribute.read raw = .error (.report report)) :
      RejectedFor p (p.name, "Could not read attribute value " ++ Text.quoted raw ++ ".")

/-- The reason is settled by the prop. -/
theorem SpacingProp.RejectedFor.unique {p : SpacingProp} {r r' : Text × Text}
    (h : p.RejectedFor r) (h' : p.RejectedFor r') : r = r' := by
  cases h with
  | unknown hname hline =>
    cases h' with
    | unknown => rfl
    | unknownCut _ hcut =>
      obtain ⟨c, hc, hend⟩ := hcut
      rw [hline c hc] at hend
      cases hend
    | unreadable hknown => cases hname.symm.trans hknown
  | unknownCut hname hcut =>
    cases h' with
    | unknown _ hline =>
      obtain ⟨c, hc, hend⟩ := hcut
      rw [hline c hc] at hend
      cases hend
    | unknownCut => rfl
    | unreadable hknown => cases hname.symm.trans hknown
  | unreadable hknown hraw hread =>
    cases h' with
    | unknown hname => cases hname.symm.trans hknown
    | unknownCut hname => cases hname.symm.trans hknown
    | unreadable _ hraw' =>
      obtain rfl := Option.some.inj (hraw.symm.trans hraw')
      rfl

namespace Batch

open SpacingProp (RejectedFor)

variable {ps : List SpacingProp} {os : List Outcome} {p : SpacingProp} {o : Outcome} {props : Value}

/-- A prop is converted, or it is rejected with the reason that it must have. -/
theorem rejectedFor_of_settles (h : Outcome.Settles p o) :
    (p.isConvertible = true ∧ o.rejection? = none) ∨
      p.isConvertible = false ∧ ∃ r, o.rejection? = some r ∧ RejectedFor p r := by
  have hp := h.isConvertible_eq
  cases h with
  | converted _ _ => exact .inl ⟨hp, rfl⟩
  | unknown hname =>
    refine .inr ⟨hp, ?_⟩
    rw [Outcome.rejection?_unknown]
    by_cases hline : ∀ c ∈ p.name, Text.isLineEnd c = false
    · rw [Outcome.firstLine_unknown hline]
      exact ⟨_, rfl, .unknown hname hline⟩
    · have hcut : ∃ c ∈ p.name, Text.isLineEnd c = true := by simpa using hline
      rw [Outcome.firstLine_unknown_cut hcut]
      exact ⟨_, rfl, .unknownCut hname hcut⟩
  | @unreadable raw report hname hraw hread =>
    refine .inr ⟨hp, ?_⟩
    obtain ⟨offset, reason, rfl⟩ := Outcome.exists_of_read hread
    rw [Outcome.rejection?, Outcome.firstLine_unreadable]
    exact ⟨_, rfl, .unreadable hname hraw hread⟩

/-- The rejections among the outcomes of props are those of the props that cannot be converted. -/
theorem rejectedFor_of_outcomes
    (h : List.Forall₂ (fun p o => Outcome.ofProp p = .ok o) ps os) :
    List.Forall₂ RejectedFor (ps.filter (!·.isConvertible)) (os.filterMap Outcome.rejection?) := by
  induction h with
  | nil => exact .nil
  | cons ho _ ih =>
    obtain ⟨hp, hnone⟩ | ⟨hp, r, hr, hreason⟩ :=
      rejectedFor_of_settles (Outcome.settles_of_ofProp ho)
    · rw [List.filter_cons_of_neg (by simp [hp]), List.filterMap_cons_none hnone]
      exact ih
    · rw [List.filter_cons_of_pos (by simp [hp]), List.filterMap_cons_some hr]
      exact .cons hreason ih

/-- **Every rejected prop has its whole reason**: the rejections of a run that skips are those of
the props without a conversion, among the props that it comes to, which are all if it is not
stopped. -/
theorem ofValue_reasons (hps : SpacingProp.ofValue props = .ok ps) :
    ∃ front back, ps = front ++ back ∧ ((ofValue true props).stopped = none → back = []) ∧
      List.Forall₂ RejectedFor (front.filter (!·.isConvertible)) (ofValue true props).rejected := by
  obtain ⟨front, back, hsplit, houtcomes, hback⟩ := exists_outcomes_of_run ps
  rw [ofValue_of_props hps]
  exact ⟨front, back, hsplit, hback, rejectedFor_of_outcomes houtcomes⟩

/-- Unknown names without and with a line end, a known name, and a source text of line ends that
does not read. -/
def rejectedProps : List SpacingProp :=
  [⟨"What happened:", .null, none⟩, ⟨"color\u2028s", .null, none⟩, ⟨"m", .text "auto", none⟩,
    ⟨"p", .null, some "\r\n\u0085"⟩]

theorem rejectedProps_reasons :
    (ofValue true (.list (rejectedProps.map fun p => .prop p.name p.value p.raw))).rejected =
      ([("What happened:", "Unknown spacing property 'What happened:'."),
        ("color\u2028s", "Unknown spacing property 'color"),
        ("p", "Could not read attribute value '\\r\\n\\x85'.")] : List (Text × Text)) := by
  have hps : SpacingProp.ofValue
      (.list (rejectedProps.map fun p => .prop p.name p.value p.raw)) = .ok rejectedProps := rfl
  obtain ⟨front, back, hsplit, hback, hreasons⟩ := ofValue_reasons hps
  have hfront : front = rejectedProps := by
    rw [hsplit, hback rfl, List.append_nil]
  rw [hfront] at hreasons
  have hline : ∀ c ∈ ("What happened:" : Text), Text.isLineEnd c = false :=
    fun c hc => Bool.eq_false_iff.2 (List.any_eq_false.1 rfl c hc)
  have hwhole : RejectedFor ⟨"What happened:", .null, none⟩
      ("What happened:", "Unknown spacing property 'What happened:'.") := .unknown rfl hline
  have hcut : RejectedFor ⟨"color\u2028s", .null, none⟩
      ("color\u2028s", "Unknown spacing property 'color") :=
    .unknownCut rfl ⟨'\u2028', by decide, rfl⟩
  have hquoted : RejectedFor ⟨"p", .null, some "\r\n\u0085"⟩
      ("p", "Could not read attribute value '\\r\\n\\x85'.") := by
    obtain ⟨report, hread⟩ : ∃ r, Attribute.read ("\r\n\u0085" : Text) = .error (.report r) :=
      ⟨_, rfl⟩
    exact .unreadable rfl rfl hread
  have hgiven : List.Forall₂ RejectedFor (rejectedProps.filter (!·.isConvertible)) [_, _, _] :=
    .cons hwhole (.cons hcut (.cons hquoted .nil))
  have hunique : Relator.RightUnique RejectedFor := fun _ _ _ => SpacingProp.RejectedFor.unique
  exact hunique.forall₂ hreasons hgiven

end Batch

end SpacingClasses
