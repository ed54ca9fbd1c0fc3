import SpacingClasses.Proofs.Text.Classes
import SpacingClasses.Proofs.Text.Solid
import SpacingClasses.Text.Lowercase
import Mathlib.Data.List.DropRight

/-!
# Blanks and lower case

Blanks have no case, and no letter becomes one, so that a text is lowered between its blanks.

* `Text.lowerChar_of_isBlank`, `Text.exists_lowerBetween` : a blank is kept, and any other character
  becomes at least one, and no blank;
* `Text.lower_append_blank` : **a blank parts a text**: what stands before it and what stands after
  it are lowered apart, a final sigma included;
* `Text.strip_lower` : **stripping and lowering a text may change places**;
* `Text.lower_eq_iff`, `Text.lower_strip_eq_iff` : a text becomes a word of ASCII letters other than
  `k` exactly if it spells that word in ASCII letters of either case.
-/

namespace SpacingClasses

namespace Text

variable {b c d : Char} {t u before after : Text} {n : Nat}
  {spans others : List (Nat × Nat)} {rows : List (Nat × Nat × Nat × Nat)}

/-! ### Rows of capitals -/

/-- The spans of rows of capitals, moved by a map of their code points and distances. -/
def rowSpans (move : Nat → Nat → Nat) (rows : List (Nat × Nat × Nat × Nat)) : List (Nat × Nat) :=
  rows.map fun row => (move row.1 row.2.2.2, move row.2.1 row.2.2.2)

/-- The spans of the capitals beyond ASCII. -/
def capitalSpans : List (Nat × Nat) := rowSpans (fun m _ => m) (capitalsBelow ++ capitalsAbove)

/-- The spans of the small letters of these capitals. -/
def smallSpans : List (Nat × Nat) :=
  rowSpans (· + ·) capitalsBelow ++ rowSpans (· - ·) capitalsAbove

theorem exists_row_of_caseDistance? {distance : Nat} (h : caseDistance? n rows = some distance) :
    ∃ first last step, (first, last, step, distance) ∈ rows ∧ first ≤ n ∧ n ≤ last := by
  obtain ⟨⟨first, last, step, d⟩, hrow, rfl⟩ := Option.map_eq_some_iff.1 h
  have hn := List.find?_some hrow
  simp only [Bool.and_eq_true, decide_eq_true_eq] at hn
  exact ⟨first, last, step, List.mem_of_find?_eq_some hrow, hn.1.1, hn.1.2⟩

/-- A span that is apart from some others holds no number of them. -/
theorem not_inSpans_of_apart (h : spansApart spans others = true) {s : Nat × Nat} (hs : s ∈ others)
    (hfirst : s.1 ≤ n) (hlast : n ≤ s.2) : inSpans n spans = false := by
  refine Bool.eq_false_iff.2 fun hn => ?_
  obtain ⟨u, hu, h1, h2⟩ := exists_span_of_inSpans hn
  have := apart_of_spansApart h hu hs
  omega

theorem caseDistance?_of_apart (h : spansApart spans capitalSpans = true)
    (hn : inSpans n spans = true) (hrows : rows ⊆ capitalsBelow ++ capitalsAbove) :
    caseDistance? n rows = none := by
  refine Option.eq_none_iff_forall_ne_some.2 fun distance hd => ?_
  obtain ⟨first, last, step, hrow, hfirst, hlast⟩ := exists_row_of_caseDistance? hd
  have hspan : (first, last) ∈ capitalSpans := List.mem_map.2 ⟨_, hrows hrow, rfl⟩
  rw [not_inSpans_of_apart h hspan hfirst hlast] at hn
  cases hn

/-! ### Single characters -/

/-- The small form of a character: its own in ASCII, two characters for the capital I with a dot,
the small letter of a row of capitals, or the character itself. -/
theorem lowerChar_cases (c : Char) :
    (c.toNat < 128 ∧ lowerChar c = [c.toLower]) ∨
    (c.toNat = 0x130 ∧ lowerChar c = ['i', Char.ofNat 0x307]) ∨
    (∃ n, ∃ s ∈ smallSpans, s.1 ≤ n ∧ n ≤ s.2 ∧ lowerChar c = [Char.ofNat n]) ∨
    (128 ≤ c.toNat ∧ lowerChar c = [c]) := by
  by_cases hascii : c.toNat < 128
  · exact .inl ⟨hascii, if_pos hascii⟩
  by_cases hdotted : c.toNat = 0x130
  · exact .inr (.inl ⟨hdotted, by rw [lowerChar, if_neg hascii, if_pos hdotted]⟩)
  rw [lowerChar, if_neg hascii, if_neg hdotted]
  refine .inr (.inr ?_)
  cases hlater : caseDistance? c.toNat capitalsBelow with
  | some distance =>
    obtain ⟨first, last, step, hrow, hfirst, hlast⟩ := exists_row_of_caseDistance? hlater
    have hspan : (first + distance, last + distance) ∈ rowSpans (· + ·) capitalsBelow :=
      List.mem_map_of_mem hrow
    exact .inl ⟨c.toNat + distance, _, List.mem_append_left _ hspan,
      Nat.add_le_add_right hfirst _, Nat.add_le_add_right hlast _, rfl⟩
  | none =>
    cases hearlier : caseDistance? c.toNat capitalsAbove with
    | some distance =>
      obtain ⟨first, last, step, hrow, hfirst, hlast⟩ := exists_row_of_caseDistance? hearlier
      have hspan : (first - distance, last - distance) ∈ rowSpans (· - ·) capitalsAbove :=
        List.mem_map_of_mem hrow
      exact .inl ⟨c.toNat - distance, _, List.mem_append_right _ hspan,
        Nat.sub_le_sub_right hfirst _, Nat.sub_le_sub_right hlast _, rfl⟩
    | none => exact .inr ⟨Nat.le_of_not_lt hascii, rfl⟩

theorem blanks_apart_capitals : spansApart blankSpans capitalSpans = true := by
  decide +kernel

theorem blanks_apart_small : spansApart blankSpans smallSpans = true := by
  decide +kernel

theorem toLower_of_code : ∀ n < 128, (isBlank (Char.ofNat n) = true →
    (Char.ofNat n).toLower = Char.ofNat n) ∧
      (isBlank (Char.ofNat n) = false → isBlank (Char.ofNat n).toLower = false) := by
  decide +kernel

/-- In ASCII as well, a blank has no other case, and no letter becomes a blank. -/
theorem toLower_of_ascii (hc : c.toNat < 128) : (isBlank c = true → c.toLower = c) ∧
    (isBlank c = false → isBlank c.toLower = false) := by
  have := toLower_of_code c.toNat hc
  rwa [Char.ofNat_toNat] at this

/-- A blank has no other case. -/
theorem lowerChar_of_isBlank (hb : isBlank b = true) : lowerChar b = [b] := by
  rw [lowerChar]
  split
  · rename_i hascii
    rw [(toLower_of_ascii hascii).1 hb]
  · split
    · rename_i hdotted
      rw [isBlank, hdotted] at hb
      exact absurd hb (by decide)
    · rw [caseDistance?_of_apart blanks_apart_capitals hb (List.subset_append_left _ _),
        caseDistance?_of_apart blanks_apart_capitals hb (List.subset_append_right _ _)]

theorem toNat_ofNat_of_valid (h : n.isValidChar) : (Char.ofNat n).toNat = n := by
  rw [Char.ofNat, dif_pos h]
  rfl

/-- No letter becomes a blank. -/
theorem solid_lowerChar (hc : isBlank c = false) : Solid (lowerChar c) := by
  rcases lowerChar_cases c with ⟨hascii, h⟩ | ⟨-, h⟩ | ⟨n, s, hs, hfirst, hlast, h⟩ | ⟨-, h⟩
  · simpa [h] using (toLower_of_ascii hascii).2 hc
  · rw [h]
    decide
  · have hn := not_inSpans_of_apart blanks_apart_small hs hfirst hlast
    have hform : isBlank (Char.ofNat n) = false := by
      by_cases hvalid : n.isValidChar
      · rwa [isBlank, toNat_ofNat_of_valid hvalid]
      · have hnull : Char.ofNat n = '\x00' := dif_neg hvalid
        rw [hnull]
        rfl
    simpa [h] using hform
  · simpa [h] using hc

theorem lowerChar_ne_nil (c : Char) : lowerChar c ≠ [] := by
  rcases lowerChar_cases c with ⟨-, h⟩ | ⟨-, h⟩ | ⟨n, s, -, -, -, h⟩ | ⟨-, h⟩ <;> simp [h]

/-! ### Characters in a text -/

theorem blanks_apart_cased : spansApart casedSpans blankSpans = true := by
  decide +kernel

theorem blanks_apart_marks : spansApart markSpans blankSpans = true := by
  decide +kernel

theorem not_isCased_of_isBlank (hb : isBlank b = true) : isCased b = false := by
  obtain ⟨s, hs, hfirst, hlast⟩ := exists_span_of_inSpans hb
  exact not_inSpans_of_apart blanks_apart_cased hs hfirst hlast

theorem not_isCaseIgnorable_of_isBlank (hb : isBlank b = true) : isCaseIgnorable b = false := by
  obtain ⟨s, hs, hfirst, hlast⟩ := exists_span_of_inSpans hb
  exact not_inSpans_of_apart blanks_apart_marks hs hfirst hlast

theorem lowerBetween_of_isBlank (hb : isBlank b = true) : lowerBetween before after b = [b] := by
  have hne : b ≠ capitalSigma := by
    rintro rfl
    exact absurd hb (by decide)
  simp [lowerBetween, hne, lowerChar_of_isBlank hb]

/-- A character that is no blank becomes at least one, and none of them is blank. -/
theorem exists_lowerBetween (before after : Text) (hc : isBlank c = false) :
    ∃ d s, lowerBetween before after c = d :: s ∧ Solid (d :: s) := by
  have hform : Solid (lowerBetween before after c) := by
    rw [lowerBetween]
    split
    · decide
    · exact solid_lowerChar hc
  have hne : lowerBetween before after c ≠ [] := by
    rw [lowerBetween]
    split
    · simp
    · exact lowerChar_ne_nil c
  obtain ⟨d, s, hds⟩ := List.exists_cons_of_ne_nil hne
  exact ⟨d, s, hds, hds ▸ hform⟩

/-! ### Blanks in a text -/

/-- Nobody looks past a blank for a cased letter. -/
theorem meetsCased_append_blank (hb : isBlank b = true) (t u : Text) :
    meetsCased (t ++ b :: u) = meetsCased t := by
  induction t with
  | nil =>
    simp [meetsCased, not_isCased_of_isBlank hb, not_isCaseIgnorable_of_isBlank hb]
  | cons c t ih =>
    by_cases hc : isCaseIgnorable c = true
    · simpa [meetsCased, hc] using ih
    · simp [meetsCased, hc]

theorem lowerBetween_blank_before (hb : isBlank b = true) (before far after : Text) (c : Char) :
    lowerBetween (before ++ b :: far) after c = lowerBetween before after c := by
  rw [lowerBetween, lowerBetween, endsWord, endsWord, meetsCased_append_blank hb]

theorem lowerBetween_blank_after (hb : isBlank b = true) (before after far : Text) (c : Char) :
    lowerBetween before (after ++ b :: far) c = lowerBetween before after c := by
  rw [lowerBetween, lowerBetween, endsWord, endsWord, meetsCased_append_blank hb]

/-- What stands before a blank does not tell in what comes after it. -/
theorem lowerAfter_blank (hb : isBlank b = true) (before far t : Text) :
    lowerAfter (before ++ b :: far) t = lowerAfter before t := by
  induction t generalizing before with
  | nil => rfl
  | cons c t ih =>
    have hrest := ih (c :: before)
    rw [List.cons_append] at hrest
    rw [lowerAfter, lowerAfter, lowerBetween_blank_before hb, hrest]

theorem lowerAfter_append_blank (hb : isBlank b = true) (before t u : Text) :
    lowerAfter before (t ++ b :: u) = lowerAfter before t ++ b :: lower u := by
  induction t generalizing before with
  | nil =>
    rw [List.nil_append, lowerAfter.eq_2, lowerBetween_of_isBlank hb]
    exact congrArg (b :: ·) (lowerAfter_blank hb [] before u)
  | cons c t ih =>
    rw [List.cons_append, lowerAfter, lowerAfter, lowerBetween_blank_after hb, ih,
      List.append_assoc]

/-- **A blank parts a text**: what stands before it and what stands after it are lowered apart. -/
theorem lower_append_blank (hb : isBlank b = true) (t u : Text) :
    lower (t ++ b :: u) = lower t ++ b :: lower u :=
  lowerAfter_append_blank hb [] t u

theorem dropWhile_lower (t : Text) :
    (lower t).dropWhile isBlank = lower (t.dropWhile isBlank) := by
  induction t with
  | nil => rfl
  | cons c t ih =>
    by_cases hc : isBlank c = true
    · have hcons : lower (c :: t) = c :: lower t := lower_append_blank hc [] t
      rw [hcons, List.dropWhile_cons_of_pos hc, List.dropWhile_cons_of_pos hc, ih]
    · rw [List.dropWhile_cons_of_neg hc]
      obtain ⟨d, s, hds, hall⟩ := exists_lowerBetween [] t (Bool.eq_false_iff.2 hc)
      have hd := hall d List.mem_cons_self
      rw [lower, lowerAfter, hds, List.cons_append, List.dropWhile_cons_of_neg (by simp [hd])]

/-- A character at the end of a text that is no blank leaves the end without blanks. -/
theorem exists_lowerAfter_concat (hc : isBlank c = false) (before t : Text) :
    ∃ s d, lowerAfter before (t ++ [c]) = s ++ [d] ∧ isBlank d = false := by
  induction t generalizing before with
  | nil =>
    obtain ⟨d, s, hds, hall⟩ := exists_lowerBetween before [] hc
    obtain ⟨front, last, hlast⟩ := (d :: s).eq_nil_or_concat'.resolve_left (by simp)
    refine ⟨front, last, ?_, hall last (by simp [hlast])⟩
    rw [List.nil_append, lowerAfter, hds, hlast, lowerAfter, List.append_nil]
  | cons e t ih =>
    obtain ⟨s, d, hs, hd⟩ := ih (e :: before)
    refine ⟨lowerBetween before (t ++ [c]) e ++ s, d, ?_, hd⟩
    rw [List.cons_append, lowerAfter, hs, List.append_assoc]

theorem rdropWhile_lower (t : Text) :
    (lower t).rdropWhile isBlank = lower (t.rdropWhile isBlank) := by
  induction t using List.reverseRecOn with
  | nil => rfl
  | append_singleton t c ih =>
    by_cases hc : isBlank c = true
    · have hconcat : lower (t ++ [c]) = lower t ++ [c] := lower_append_blank hc t []
      rw [hconcat, List.rdropWhile_concat_pos _ _ _ hc, List.rdropWhile_concat_pos _ _ _ hc, ih]
    · obtain ⟨s, d, hs, hd⟩ := exists_lowerAfter_concat (Bool.eq_false_iff.2 hc) [] t
      rw [List.rdropWhile_concat_neg _ _ _ hc, lower, hs,
        List.rdropWhile_concat_neg _ _ _ (by simp [hd])]

/-- **Stripping and lowering a text may change places.** -/
theorem strip_lower (t : Text) : strip (lower t) = lower (strip t) := by
  have hfront := dropWhile_lower t
  have hback := rdropWhile_lower (t.dropWhile isBlank)
  rw [← hfront] at hback
  exact hback

/-! ### Words of ASCII letters -/

/-- The letter `k` and the characters beyond ASCII. -/
def foreignSpans : List (Nat × Nat) := [(107, 107), (0x80, 0xd7ff), (0xe000, 0x10ffff)]

theorem small_within : spansWithin smallSpans foreignSpans = true := by
  decide +kernel

/-- Whether a character is in ASCII, but for the letter `k`, which is also the small form of the
Kelvin sign. -/
def IsPlain (c : Char) : Prop := c.toNat < 128 ∧ c ≠ 'k'

instance : DecidablePred IsPlain := fun c => inferInstanceAs (Decidable (c.toNat < 128 ∧ c ≠ 'k'))

/-- All characters of the text are in ASCII and not the letter `k`. -/
def Plain (t : Text) : Prop := ∀ c ∈ t, IsPlain c

instance (t : Text) : Decidable (Plain t) :=
  decidable_of_iff (t.all fun c => decide (IsPlain c)) (by simp [Plain])

theorem not_isPlain_of_small {s : Nat × Nat} (hs : s ∈ smallSpans) (hfirst : s.1 ≤ n)
    (hlast : n ≤ s.2) : ¬ IsPlain (Char.ofNat n) := by
  rintro ⟨hascii, hk⟩
  obtain ⟨u, hu, h1, h2⟩ := exists_of_spansWithin small_within hs
  simp only [foreignSpans, List.mem_cons, List.not_mem_nil, or_false] at hu
  rcases hu with rfl | rfl | rfl
  · obtain rfl : n = 107 := by omega
    exact hk rfl
  · rw [toNat_ofNat_of_valid (.inl (by omega))] at hascii
    omega
  · rw [toNat_ofNat_of_valid (.inr ⟨by omega, by omega⟩)] at hascii
    omega

/-- A character beyond ASCII does not become one of ASCII, but for the letter `k`. -/
theorem toNat_lt_of_lowerBetween (h : Plain (lowerBetween before after c)) :
    c.toNat < 128 := by
  rw [lowerBetween] at h
  split at h
  · exact absurd (h finalSigma List.mem_cons_self).1 (by decide)
  · rcases lowerChar_cases c with ⟨hascii, -⟩ | ⟨-, hc⟩ | ⟨n, s, hs, hfirst, hlast, hc⟩ | ⟨-, hc⟩
    · exact hascii
    · exact absurd (h (Char.ofNat 0x307) (by simp [hc])).1 (by decide)
    · exact absurd (h _ (by simp [hc])) (not_isPlain_of_small hs hfirst hlast)
    · exact (h c (by simp [hc])).1

theorem lowerBetween_of_ascii (hc : c.toNat < 128) : lowerBetween before after c = [c.toLower] := by
  have hne : c ≠ capitalSigma := by
    rintro rfl
    exact absurd hc (by decide)
  simp [lowerBetween, hne, lowerChar, hc]

theorem toNat_lt_of_toLower (h : c.toLower.toNat < 128) : c.toNat < 128 := by
  by_contra hbeyond
  have hnot : ¬ (c.val ≥ 'A'.val ∧ c.val ≤ 'Z'.val) := by
    rintro ⟨-, hle⟩
    exact hbeyond (lt_of_le_of_lt (UInt32.le_iff_toNat_le.1 hle) (by decide))
  have hself : c.toLower = c := dif_neg hnot
  rw [hself] at h
  exact hbeyond h

theorem lowerAfter_eq_iff {word : Text} (hword : Plain word) :
    lowerAfter before t = word ↔ t.map Char.toLower = word := by
  induction t generalizing before word with
  | nil => rfl
  | cons c t ih =>
    rw [lowerAfter, List.map_cons]
    constructor
    · rintro rfl
      obtain ⟨hc, ht⟩ := List.forall_mem_append.1 hword
      rw [lowerBetween_of_ascii (toNat_lt_of_lowerBetween hc), List.singleton_append, (ih ht).1 rfl]
    · rintro rfl
      obtain ⟨hc, ht⟩ := List.forall_mem_cons.1 hword
      rw [lowerBetween_of_ascii (toNat_lt_of_toLower hc.1), List.singleton_append, (ih ht).2 rfl]

/-- A text is a plain word in lower case exactly if it is that word in ASCII letters of either
case. -/
theorem lower_eq_iff {word : Text} (hword : Plain word) :
    lower t = word ↔ t.map Char.toLower = word :=
  lowerAfter_eq_iff hword

/-- The text spells the word, in ASCII letters of either case and between any blanks. -/
def Spells (word t : Text) : Prop :=
  ∃ x w y, t = x ++ (w ++ y) ∧ (∀ c ∈ x, isBlank c = true) ∧ (∀ c ∈ y, isBlank c = true) ∧
    w.map Char.toLower = word

/-- **A text is a solid plain word in lower case, blanks at its ends aside**, exactly if it spells
that word. -/
theorem lower_strip_eq_iff {word : Text} (hword : Plain word) (hsolid : Solid word) :
    lower (strip t) = word ↔ Spells word t := by
  rw [lower_eq_iff hword]
  constructor
  · intro h
    obtain ⟨x, y, ht, hx, hy⟩ := exists_strip t
    exact ⟨x, strip t, y, ht, hx, hy, h⟩
  · rintro ⟨x, w, y, rfl, hx, hy, rfl⟩
    have hw : Solid w := by
      intro c hc
      have hmem : c.toLower ∈ w.map Char.toLower := List.mem_map_of_mem hc
      refine Bool.eq_false_iff.2 fun hblank => ?_
      -- a blank of the word would be its own small form, and the word has none
      have hself := (toLower_of_ascii (toNat_lt_of_toLower (hword _ hmem).1)).1 hblank
      rw [hself] at hmem
      rw [hsolid c hmem] at hblank
      cases hblank
    rw [strip_of_solid hx hw hy]

end Text

end SpacingClasses
