import SpacingClasses.Proofs.Number.Numeral

/-!
# Numerals as a pattern

A pattern is matched at the front of a text by trying one way after another: an optional part is
first taken and then left, a run is first taken in full and then character by character shorter, and
a part that cannot be matched sends the matcher back.

* `Pattern.rests q t` : what is left of the text `t` after each match of the pattern `q`, in the
  order in which the matcher comes to them;
* `Numeral.pattern` : the pattern of numerals;
* `Numeral.writes_of_mem_rests` : its matches are numerals;
* `Numeral.head?_rests_pattern` : **the first match is what the reader of numerals reads**, which
  never goes back;
* `Numeral.nil_mem_rests_iff` : a text is matched in full exactly if it is a numeral.
-/

namespace SpacingClasses

/-- A pattern of characters. -/
inductive Pattern where
  /-- One character of a class. -/
  | one (p : Char → Bool)
  /-- Any number of characters of a class, as many as can be. -/
  | many (p : Char → Bool)
  /-- The pattern, or nothing. -/
  | maybe (q : Pattern)
  /-- One pattern after the other. -/
  | seq (q r : Pattern)
  /-- The first pattern, or the second. -/
  | either (q r : Pattern)

namespace Pattern

variable {p : Char → Bool} {q r : Pattern} {c : Char} {t u : Text}

/-- What is left after the runs of a class at the front of a text, after the longest first. -/
def afterRuns (p : Char → Bool) : Text → List Text
  | [] => [[]]
  | c :: t => if p c then afterRuns p t ++ [c :: t] else [c :: t]

/-- What is left after the matches of a pattern at the front of a text, in the order in which a
matcher that goes back comes to them. -/
def rests : Pattern → Text → List Text
  | one _, [] => []
  | one p, c :: t => if p c then [t] else []
  | many p, t => afterRuns p t
  | maybe q, t => q.rests t ++ [t]
  | seq q r, t => (q.rests t).flatMap r.rests
  | either q r, t => q.rests t ++ r.rests t

/-! ### What is matched -/

theorem exists_char_of_mem_rests (h : u ∈ (one p).rests t) : ∃ c, p c = true ∧ t = c :: u := by
  cases t with
  | nil => cases h
  | cons c t =>
    rw [rests] at h
    split at h
    · rename_i hc
      obtain rfl := List.mem_singleton.1 h
      exact ⟨c, hc, rfl⟩
    · cases h

theorem exists_run_of_mem_rests (h : u ∈ (many p).rests t) :
    ∃ w, t = w ++ u ∧ ∀ c ∈ w, p c = true := by
  rw [rests] at h
  induction t with
  | nil =>
    obtain rfl := List.mem_singleton.1 h
    exact ⟨[], rfl, by simp⟩
  | cons c t ih =>
    rw [afterRuns] at h
    split at h
    · rename_i hc
      rcases List.mem_append.1 h with h | h
      · obtain ⟨w, rfl, hw⟩ := ih h
        exact ⟨c :: w, rfl, List.forall_mem_cons.2 ⟨hc, hw⟩⟩
      · obtain rfl := List.mem_singleton.1 h
        exact ⟨[], rfl, by simp⟩
    · obtain rfl := List.mem_singleton.1 h
      exact ⟨[], rfl, by simp⟩

/-! ### What is matched first -/

theorem head?_rests_many (p : Char → Bool) (t : Text) :
    ((many p).rests t).head? = some (t.dropWhile p) := by
  rw [rests]
  induction t with
  | nil => rfl
  | cons c t ih =>
    by_cases hc : p c = true
    · simp [afterRuns, hc, List.head?_append, ih]
    · simp [afterRuns, hc]

theorem head?_rests_maybe (q : Pattern) (t : Text) :
    ((maybe q).rests t).head? = some ((q.rests t).head?.getD t) := by
  rw [rests, List.head?_append]
  cases (q.rests t).head? <;> rfl

/-- A pattern with a match in every text does not send the matcher back. -/
theorem head?_rests_seq (hr : ∀ u, r.rests u ≠ []) (t : Text) :
    ((seq q r).rests t).head? = (q.rests t).head?.bind fun u => (r.rests u).head? := by
  rw [rests]
  cases q.rests t with
  | nil => rfl
  | cons u us => rw [List.flatMap_cons, List.head?_append_of_ne_nil _ (hr u)]; rfl

theorem rests_maybe_ne_nil (q : Pattern) (t : Text) : (maybe q).rests t ≠ [] := by
  simp [rests]

theorem rests_seq_one_cons : (seq (one p) r).rests (c :: t) = if p c then r.rests t else [] := by
  by_cases hc : p c = true <;> simp [rests, hc]

end Pattern

namespace Numeral

open Pattern
open Text (digitValue? spanDigits)

/-- Whether a character is a decimal digit of any script. -/
def isDecimal (c : Char) : Bool := (digitValue? c).isSome

/-- An optional sign. -/
def signPattern : Pattern := maybe (one fun c => c == '+' || c == '-')

/-- At least one digit. -/
def digitsPattern : Pattern := seq (one isDecimal) (many isDecimal)

/-- A point and any digits. -/
def fractionPattern : Pattern := seq (one (· == '.')) (many isDecimal)

/-- Digits, with or without a point and a fraction, or a point and digits. -/
def mantissaPattern : Pattern :=
  either (seq digitsPattern (maybe fractionPattern))
    (seq (one (· == '.')) digitsPattern)

/-- The mark of an exponent, and a whole number with an optional sign. -/
def exponentPattern : Pattern :=
  seq (one fun c => c == 'e' || c == 'E') (seq signPattern digitsPattern)

/-- A numeral. -/
def pattern : Pattern := seq signPattern (seq mantissaPattern (maybe exponentPattern))

variable {t u w : Text} {c : Char} {n : Numeral}

/-! ### The matches are numerals -/

theorem exists_digits_of_all (h : ∀ c ∈ w, isDecimal c = true) : ∃ ds, Digits w ds := by
  induction w with
  | nil => exact ⟨[], .nil⟩
  | cons c w ih =>
    obtain ⟨hc, hw⟩ := List.forall_mem_cons.1 h
    obtain ⟨d, hd⟩ := Option.isSome_iff_exists.1 hc
    obtain ⟨ds, hds⟩ := ih hw
    exact ⟨d :: ds, .cons hd hds⟩

theorem digits_of_mem_rests (h : u ∈ digitsPattern.rests t) :
    ∃ w ds, t = w ++ u ∧ Digits w ds ∧ ds ≠ [] := by
  obtain ⟨v, hone, hmany⟩ := List.mem_flatMap.1 h
  obtain ⟨c, hc, rfl⟩ := exists_char_of_mem_rests hone
  obtain ⟨w, rfl, hw⟩ := exists_run_of_mem_rests hmany
  obtain ⟨d, hd⟩ := Option.isSome_iff_exists.1 hc
  obtain ⟨ds, hds⟩ := exists_digits_of_all hw
  exact ⟨c :: w, d :: ds, rfl, .cons hd hds, by simp⟩

theorem writesSign_of_mem_rests (h : u ∈ signPattern.rests t) :
    ∃ s negative, t = s ++ u ∧ WritesSign s negative := by
  rcases List.mem_append.1 h with h | h
  · obtain ⟨c, hc, rfl⟩ := exists_char_of_mem_rests h
    rw [Bool.or_eq_true, beq_iff_eq, beq_iff_eq] at hc
    rcases hc with rfl | rfl
    · exact ⟨['+'], false, rfl, .plus⟩
    · exact ⟨['-'], true, rfl, .minus⟩
  · obtain rfl := List.mem_singleton.1 h
    exact ⟨[], false, rfl, .none⟩

theorem writesMantissa_of_mem_rests (h : u ∈ mantissaPattern.rests t) :
    ∃ m ds places, t = m ++ u ∧ WritesMantissa m ds places := by
  rcases List.mem_append.1 h with h | h
  · obtain ⟨v, hdigits, hfraction⟩ := List.mem_flatMap.1 h
    obtain ⟨w, ds, rfl, hw, hne⟩ := digits_of_mem_rests hdigits
    rcases List.mem_append.1 hfraction with hfraction | hnone
    · obtain ⟨v', hpoint, hmany⟩ := List.mem_flatMap.1 hfraction
      obtain ⟨c, hc, rfl⟩ := exists_char_of_mem_rests hpoint
      obtain rfl := beq_iff_eq.1 hc
      obtain ⟨f, rfl, hf⟩ := exists_run_of_mem_rests hmany
      obtain ⟨es, hes⟩ := exists_digits_of_all hf
      exact ⟨w ++ '.' :: f, ds ++ es, es.length, by simp, .point hw hes (by simp [hne])⟩
    · obtain rfl := List.mem_singleton.1 hnone
      exact ⟨w, ds, 0, rfl, .whole hw hne⟩
  · obtain ⟨v, hpoint, hdigits⟩ := List.mem_flatMap.1 h
    obtain ⟨c, hc, rfl⟩ := exists_char_of_mem_rests hpoint
    obtain rfl := beq_iff_eq.1 hc
    obtain ⟨f, es, rfl, hf, hne⟩ := digits_of_mem_rests hdigits
    exact ⟨[] ++ '.' :: f, [] ++ es, es.length, rfl, .point .nil hf hne⟩

theorem writesExponent_of_mem_rests (h : u ∈ (maybe exponentPattern).rests t) :
    ∃ x exponent, t = x ++ u ∧ WritesExponent x exponent := by
  rcases List.mem_append.1 h with h | h
  · obtain ⟨v, hmark, h⟩ := List.mem_flatMap.1 h
    obtain ⟨v', hsign, hdigits⟩ := List.mem_flatMap.1 h
    obtain ⟨c, hc, rfl⟩ := exists_char_of_mem_rests hmark
    obtain ⟨s, negative, rfl, hs⟩ := writesSign_of_mem_rests hsign
    obtain ⟨w, ds, rfl, hw, hne⟩ := digits_of_mem_rests hdigits
    refine ⟨c :: (s ++ w), signedDigits negative ds, by simp, .some ?_ hs hw hne⟩
    simpa using hc
  · obtain rfl := List.mem_singleton.1 h
    exact ⟨[], 0, rfl, .none⟩

/-- What is matched is a numeral. -/
theorem writes_of_mem_rests (h : u ∈ pattern.rests t) : ∃ w n, t = w ++ u ∧ Writes w n := by
  obtain ⟨v, hsign, h⟩ := List.mem_flatMap.1 h
  obtain ⟨v', hmantissa, hexponent⟩ := List.mem_flatMap.1 h
  obtain ⟨s, negative, rfl, hs⟩ := writesSign_of_mem_rests hsign
  obtain ⟨m, ds, places, rfl, hm⟩ := writesMantissa_of_mem_rests hmantissa
  obtain ⟨x, exponent, rfl, hx⟩ := writesExponent_of_mem_rests hexponent
  exact ⟨s ++ (m ++ x), _, by simp, .mk hs hm hx⟩

/-! ### The first match is what is read -/

theorem spanDigits_snd (t : Text) : (spanDigits t).2 = t.dropWhile isDecimal := by
  induction t with
  | nil => rfl
  | cons c t ih =>
    cases hc : digitValue? c with
    | none => simp [spanDigits, isDecimal, hc]
    | some d => simp [spanDigits, isDecimal, hc, ih]

theorem rests_digits_eq_nil (h : (spanDigits t).1 = []) : digitsPattern.rests t = [] := by
  cases t with
  | nil => rfl
  | cons c t =>
    cases hc : digitValue? c with
    | none => simp [digitsPattern, rests_seq_one_cons, isDecimal, hc]
    | some d => simp [spanDigits, hc] at h

theorem head?_rests_digits (h : (spanDigits t).1 ≠ []) :
    (digitsPattern.rests t).head? = some (spanDigits t).2 := by
  cases t with
  | nil => exact absurd rfl h
  | cons c t =>
    cases hc : digitValue? c with
    | none => simp [spanDigits, hc] at h
    | some d =>
      have hdecimal : isDecimal c = true := by simp [isDecimal, hc]
      rw [digitsPattern, rests_seq_one_cons, if_pos hdecimal, head?_rests_many, spanDigits_snd,
        List.dropWhile_cons_of_pos hdecimal]

/-- A sign is not left again for a pattern that does not start with one. -/
theorem head?_rests_sign {q : Pattern} (hq : ∀ c t, c = '+' ∨ c = '-' → q.rests (c :: t) = [])
    (t : Text) : ((seq signPattern q).rests t).head? = (q.rests (sign t).2).head? := by
  have hrests : (seq signPattern q).rests t =
      ((one fun c => c == '+' || c == '-').rests t).flatMap q.rests ++ q.rests t := by
    simp [rests, signPattern]
  rw [hrests, sign.eq_def]
  split
  · simp [rests, hq]
  · simp [rests, hq]
  · rename_i hminus hplus
    cases t with
    | nil => rfl
    | cons c t =>
      have hc : (c == '+' || c == '-') = false := by
        rw [Bool.or_eq_false_iff, beq_eq_false_iff_ne, beq_eq_false_iff_ne]
        exact ⟨fun h => hplus t (h ▸ rfl), fun h => hminus t (h ▸ rfl)⟩
      simp [rests, hc]

theorem head?_rests_fraction_point (t : Text) :
    ((maybe fractionPattern).rests ('.' :: t)).head? = some (spanDigits t).2 := by
  rw [head?_rests_maybe, fractionPattern, rests_seq_one_cons, if_pos (by rfl), head?_rests_many,
    spanDigits_snd]
  rfl

theorem head?_rests_fraction_of_ne (h : t.head? ≠ some '.') :
    ((maybe fractionPattern).rests t).head? = some t := by
  rw [head?_rests_maybe]
  cases t with
  | nil => rfl
  | cons c t =>
    have hc : (c == '.') = false := beq_eq_false_iff_ne.2 fun hpoint => h (by rw [hpoint]; rfl)
    rw [fractionPattern, rests_seq_one_cons, hc]
    rfl

theorem head?_rests_mantissa (t : Text) :
    (mantissaPattern.rests t).head? = (mantissa? t).map (·.2.2) := by
  rw [mantissaPattern, rests, List.head?_append, head?_rests_seq (rests_maybe_ne_nil _)]
  cases hspan : spanDigits t with
  | mk ds rest =>
    cases ds with
    | cons d ds =>
      rw [head?_rests_digits (by simp [hspan]), mantissa?, hspan]
      cases rest with
      | nil => rfl
      | cons c r =>
        by_cases hc : c = '.'
        · subst hc
          simp [head?_rests_fraction_point]
        · have hne : (c :: r).head? ≠ some '.' := by simpa using hc
          simp [head?_rests_fraction_of_ne hne, hc]
    | nil =>
      -- without digits in front, the point has to come first
      obtain ⟨w, rfl, hw⟩ := digits_of_spanDigits hspan
      obtain rfl := List.forall₂_nil_right_iff.1 hw
      rw [List.nil_append] at hspan ⊢
      rw [rests_digits_eq_nil (by rw [hspan]), mantissa?, hspan]
      cases rest with
      | nil => rfl
      | cons c r =>
        by_cases hc : c = '.'
        · subst hc
          rw [rests_seq_one_cons, if_pos (by rfl)]
          cases hfollow : spanDigits r with
          | mk es rest =>
            cases es with
            | nil => simp [rests_digits_eq_nil (t := r) (by rw [hfollow]), hfollow]
            | cons e es => simp [head?_rests_digits (t := r) (by simp [hfollow]), hfollow]
        · rw [rests_seq_one_cons, beq_eq_false_iff_ne.2 hc]
          simp [hc]

theorem head?_rests_exponent (t : Text) :
    ((maybe exponentPattern).rests t).head? = some (exponentPart t).2 := by
  rw [head?_rests_maybe]
  cases t with
  | nil => rfl
  | cons c r =>
    have hsign : ∀ c t, c = '+' ∨ c = '-' → digitsPattern.rests (c :: t) = [] := by
      rintro c t (rfl | rfl)
      · exact rests_digits_eq_nil rfl
      · exact rests_digits_eq_nil rfl
    rw [exponentPattern, rests_seq_one_cons]
    by_cases hc : (decide (c = 'e') || decide (c = 'E')) = true
    · have hmark : (c == 'e' || c == 'E') = true := hc
      rw [if_pos hmark, head?_rests_sign hsign]
      simp only [exponentPart, hc, if_true]
      cases hspan : spanDigits (sign r).2 with
      | mk ds rest =>
        cases ds with
        | nil => simp [rests_digits_eq_nil (t := (sign r).2) (by rw [hspan])]
        | cons d ds => simp [head?_rests_digits (t := (sign r).2) (by simp [hspan]), hspan]
    · have hmark : ¬ (c == 'e' || c == 'E') = true := hc
      rw [if_neg hmark]
      simp [exponentPart, hc]

/-- **The first match is what the reader of numerals reads.** -/
theorem head?_rests_pattern (t : Text) : (pattern.rests t).head? = (read? t).map (·.2) := by
  have hmantissa : ∀ c t, c = '+' ∨ c = '-' → mantissaPattern.rests (c :: t) = [] := by
    intro c t hc
    have := head?_rests_mantissa (c :: t)
    rcases hc with rfl | rfl
    · exact List.head?_eq_none_iff.1 this
    · exact List.head?_eq_none_iff.1 this
  have hsign : ∀ c t, c = '+' ∨ c = '-' →
      (seq mantissaPattern (maybe exponentPattern)).rests (c :: t) = [] := by
    intro c t hc
    rw [rests, hmantissa c t hc, List.flatMap_nil]
  rw [pattern, head?_rests_sign hsign, head?_rests_seq (rests_maybe_ne_nil _), head?_rests_mantissa,
    read?]
  generalize sign t = signed
  obtain ⟨negative, u⟩ := signed
  dsimp only
  cases mantissa? u with
  | none => rfl
  | some part =>
    obtain ⟨ds, places, rest⟩ := part
    exact head?_rests_exponent rest

/-- A text is matched in full exactly if it is a numeral. -/
theorem nil_mem_rests_iff : [] ∈ pattern.rests t ↔ ∃ n, Writes t n := by
  constructor
  · intro h
    obtain ⟨w, n, ht, hw⟩ := writes_of_mem_rests h
    rw [List.append_nil] at ht
    exact ⟨n, ht ▸ hw⟩
  · rintro ⟨n, hn⟩
    have hread := read?_of_writes hn endsNumeral_nil
    rw [List.append_nil] at hread
    have hfirst := head?_rests_pattern t
    rw [hread] at hfirst
    exact List.mem_of_mem_head? hfirst

end Numeral

end SpacingClasses
