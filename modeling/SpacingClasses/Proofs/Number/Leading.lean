import SpacingClasses.Proofs.Number.Denotation
import SpacingClasses.Proofs.Number.Pattern

/-!
# Numbers at the front of texts

A number is read from a text that is a numeral between blanks, or from the front of a text that goes
on with something else.

* `leadingNumeral?` : the numeral that a text begins with after any blanks, the first that a matcher
  comes to;
* `exists_parseFloat?_of_leadingNumeral?` : **what is matched is a number in the widest grammar**,
  and it is what is read, if it is finite;
* `parseLeadingNumber?_append` : **a number that takes up a text is read from the front of the text
  with anything after it** that does not go on with a numeral;
* `parseLeadingNumber?_agrees` : so the two readers agree.
-/

namespace SpacingClasses

open Numeral (EndsNumeral Writes)
open Text (isBlank skipBlanks strip)

variable {t u part : Text} {n : Numeral} {x : Double}

/-! ### What is matched -/

/-- The numeral that a text begins with after any blanks: the first that a matcher comes to. -/
def leadingNumeral? (t : Text) : Option Text :=
  ((Pattern.many isBlank).rests t).findSome? fun u =>
    (Numeral.pattern.rests u).head?.map fun rest => u.take (u.length - rest.length)

/-- No numeral starts with a blank. -/
theorem Numeral.read?_blank {c : Char} (hc : isBlank c = true) (t : Text) :
    read? (c :: t) = none := by
  refine Option.eq_none_iff_forall_ne_some.2 fun ⟨n, rest⟩ hread => ?_
  obtain ⟨w, ht, hw⟩ := writes_of_read? hread
  obtain ⟨d, w, rfl⟩ := List.exists_cons_of_ne_nil hw.ne_nil
  obtain rfl := (List.cons.inj ht).1
  rw [hw.solid c List.mem_cons_self] at hc
  cases hc

/-- Blanks are passed over in full, since a numeral starts with none. -/
theorem leadingNumeral?_eq (t : Text) : leadingNumeral? t =
    (Numeral.read? (skipBlanks t)).map fun part =>
      (skipBlanks t).take ((skipBlanks t).length - part.2.length) := by
  have hmatch (u : Text) : ((Numeral.pattern.rests u).head?.map fun rest =>
      u.take (u.length - rest.length)) =
        (Numeral.read? u).map fun part => u.take (u.length - part.2.length) := by
    rw [Numeral.head?_rests_pattern, Option.map_map]
    rfl
  simp only [leadingNumeral?, hmatch, Pattern.rests]
  induction t with
  | nil => rfl
  | cons c t ih =>
    by_cases hc : isBlank c = true
    · have hskip : skipBlanks (c :: t) = skipBlanks t := List.dropWhile_cons_of_pos hc
      rw [Pattern.afterRuns, if_pos hc, List.findSome?_append, ih, List.findSome?_singleton,
        Numeral.read?_blank hc, Option.map_none, Option.or_none, hskip]
    · have hskip : skipBlanks (c :: t) = c :: t := List.dropWhile_cons_of_neg hc
      rw [Pattern.afterRuns, if_neg hc, List.findSome?_singleton, hskip]

/-- **What is matched is a number in the widest grammar**, and it is what is read from the front of
the text, if it is finite. -/
theorem exists_parseFloat?_of_leadingNumeral? (h : leadingNumeral? t = some part) :
    ∃ x, parseFloat? part = some x ∧ parseLeadingNumber? t = x.finite? := by
  rw [leadingNumeral?_eq] at h
  obtain ⟨⟨n, rest⟩, hread, rfl⟩ := Option.map_eq_some_iff.1 h
  obtain ⟨w, ht, hw⟩ := Numeral.writes_of_read? hread
  have hpart : (skipBlanks t).take ((skipBlanks t).length - rest.length) = w := by
    rw [ht, List.length_append, Nat.add_sub_cancel, List.take_left]
  refine ⟨n.toDouble, ?_, ?_⟩
  · rw [hpart, hw.parseFloat?]
  · rw [parseLeadingNumber?, hread, Option.bind_some]

theorem parseLeadingNumber?_of_leadingNumeral?_none (h : leadingNumeral? t = none) :
    parseLeadingNumber? t = none := by
  rw [leadingNumeral?_eq, Option.map_eq_none_iff] at h
  rw [parseLeadingNumber?, h, Option.bind_none]

/-! ### What takes up a text -/

theorem endsNumeral_blanks {y : Text} (hy : ∀ c ∈ y, isBlank c = true) (hu : EndsNumeral u) :
    EndsNumeral (y ++ u) := by
  cases y with
  | nil => exact hu
  | cons c y =>
    have hc := hy c List.mem_cons_self
    intro d hd
    obtain rfl := Option.some.inj hd
    refine ⟨?_, ?_, ?_, ?_⟩
    · refine Option.eq_none_iff_forall_ne_some.2 fun value hvalue => ?_
      rw [Text.not_isBlank_of_digitValue? (Option.isSome_of_mem hvalue)] at hc
      cases hc
    all_goals
      rintro rfl
      exact absurd hc (by decide)

/-- **A number that takes up a text is read from its front**, whatever comes after it that does not
go on with a numeral. -/
theorem parseLeadingNumber?_append (hn : Writes (strip t) n) (hu : EndsNumeral u) :
    parseLeadingNumber? (t ++ u) = n.toDouble.finite? := by
  obtain ⟨x, y, ht, hx, hy⟩ := Text.exists_strip t
  have htext : t ++ u = x ++ (strip t ++ (y ++ u)) := by
    conv_lhs => rw [ht]
    simp
  have hskip : skipBlanks (t ++ u) = skipBlanks (strip t ++ (y ++ u)) := by
    rw [htext, skipBlanks, skipBlanks, List.dropWhile_append_of_pos hx]
  have hlead := hn.parseLeadingNumber? (endsNumeral_blanks hy hu)
  rwa [parseLeadingNumber?, ← hskip] at hlead

theorem parseNumber?_of_writes (hn : Writes (strip t) n) : parseNumber? t = n.toDouble.finite? := by
  rw [parseNumber?, Numeral.whole?_eq_some_iff.2 hn, Option.bind_some]

theorem exists_writes_of_parseNumber? (h : parseNumber? t = some x) :
    ∃ n, Writes (strip t) n ∧ n.toDouble.finite? = some x := by
  obtain ⟨n, hwhole, hfinite⟩ := Option.bind_eq_some_iff.1 h
  exact ⟨n, Numeral.whole?_eq_some_iff.1 hwhole, hfinite⟩

theorem endsNumeral_pixels : EndsNumeral "px" := by
  intro c hc
  obtain rfl := Option.some.inj hc
  decide

/-! ### The two readers -/

/-- **The two readers of numbers agree.** A number that takes up a text is read from the front of
the text with anything after it that does not go on with a numeral. What is matched at the front of
a text is a number in the widest grammar, which is read if it is finite, and nothing is read where
nothing is matched; the same holds of a text that is matched in full. So a numeral before a unit is
read as the numeral alone is, be it finite or not. -/
theorem parseLeadingNumber?_agrees :
    (∀ t u x, parseNumber? t = some x → EndsNumeral u →
      parseLeadingNumber? (t ++ u) = some x) ∧
    (∀ t part, leadingNumeral? t = some part →
      ∃ x, parseFloat? part = some x ∧ parseLeadingNumber? t = x.finite?) ∧
    (∀ t, leadingNumeral? t = none → parseLeadingNumber? t = none) ∧
    (∀ t, [] ∈ Numeral.pattern.rests (strip t) →
      (∃ x, parseFloat? (strip t) = some x ∧ parseNumber? t = x.finite?) ∧
        parseLeadingNumber? (t ++ "px") = parseNumber? t) ∧
    ∀ t, [] ∉ Numeral.pattern.rests (strip t) → parseNumber? t = none := by
  refine ⟨?_, ?_, ?_, ?_, ?_⟩
  · intro t u x hx hu
    obtain ⟨n, hn, hfinite⟩ := exists_writes_of_parseNumber? hx
    rw [parseLeadingNumber?_append hn hu, hfinite]
  · intro t part hpart
    exact exists_parseFloat?_of_leadingNumeral? hpart
  · intro t hnone
    exact parseLeadingNumber?_of_leadingNumeral?_none hnone
  · intro t hmatch
    obtain ⟨n, hn⟩ := Numeral.nil_mem_rests_iff.1 hmatch
    refine ⟨⟨n.toDouble, hn.parseFloat?, parseNumber?_of_writes hn⟩, ?_⟩
    rw [parseLeadingNumber?_append hn endsNumeral_pixels, parseNumber?_of_writes hn]
  · intro t hmatch
    refine Option.eq_none_iff_forall_ne_some.2 fun x hx => hmatch ?_
    obtain ⟨n, hn, -⟩ := exists_writes_of_parseNumber? hx
    exact Numeral.nil_mem_rests_iff.2 ⟨n, hn⟩

/-- Digits of another script behind a wide blank, and a numeral that is not finite. -/
theorem parseLeadingNumber?_agrees_pixels :
    (∃ x, parseNumber? "\u3000-1٢.5e+1 " = some x ∧
        parseLeadingNumber? "\u3000-1٢.5e+1 px" = some x) ∧
      (∃ x, parseFloat? "-1٢.5e+1" = some x ∧
        parseLeadingNumber? "\u3000-1٢.5e+1em" = x.finite?) ∧
      parseLeadingNumber? "e5px" = none ∧
      parseLeadingNumber? "1e400px" = parseNumber? "1e400" ∧
      parseNumber? "1.5." = none := by
  obtain ⟨hfull, hpart, hnone, hmatch, hno⟩ := parseLeadingNumber?_agrees
  refine ⟨?_, ?_, ?_, ?_, ?_⟩
  · have hsome : (parseNumber? "\u3000-1٢.5e+1 ").isSome = true := by decide +kernel
    obtain ⟨x, hx⟩ := Option.isSome_iff_exists.1 hsome
    exact ⟨x, hx, hfull "\u3000-1٢.5e+1 " "px" x hx endsNumeral_pixels⟩
  · exact hpart "\u3000-1٢.5e+1em" "-1٢.5e+1" (by decide +kernel)
  · exact hnone "e5px" (by decide +kernel)
  · exact (hmatch "1e400" (by decide +kernel)).2
  · exact hno "1.5." (by decide +kernel)

end SpacingClasses
