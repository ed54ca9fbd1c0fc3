import SpacingClasses.Proofs.Scale.Pixels
import SpacingClasses.Proofs.Suffix.Size

/-!
# Texts in pixels

A text that ends in `px` is looked up in both indices of the scale, by the number that it begins
with.

* `Suffix.ofPixels px` : the suffix of a whole number of pixels;
* `ofText_px` : the suffix of a text in pixels is found by the whole part of its number;
* `ofValue_px_eq_ofPxText` : **the two indices never disagree**, so that the first is only a
  shortcut;
* `ofValue_px_of_not_number` : **if more than a number stands before the pixels**, the text is left
  as a literal exactly if it does not begin with a number;
* `ofValue_wholePixels` : **whole numbers of pixels keep their size**, however they are spelled.
-/

namespace SpacingClasses

namespace Suffix

variable {t part : Text} {n : Nat}

/-! ### Tidied texts -/

/-- Only a text with the name of a compact function is not left as it is. -/
theorem tidy_cases (t : Text) : tidy t = t ∨ 'c' ∈ tidy t := by
  rw [tidy]
  split
  · rename_i hfunction
    obtain ⟨name, hname, hhas⟩ := List.any_eq_true.1 hfunction
    have hnames : ∀ name ∈ compactFunctions, 'c' ∈ name := by decide
    have hmem : 'c' ∈ t := (Text.has_eq_true_iff.1 hhas).subset (hnames name hname)
    exact .inr (List.mem_filter.2 ⟨hmem, by decide⟩)
  · exact .inl rfl

theorem tidy_eq_self (h : 'c' ∉ t) : tidy t = t := by
  refine (tidy_cases t).resolve_right fun hc => h ?_
  rw [tidy] at hc
  split at hc
  · exact (List.mem_filter.1 hc).1
  · exact hc

/-- A tidied text keeps its pixels. -/
theorem exists_tidy_px (part : Text) : ∃ part', tidy (part ++ "px") = part' ++ "px" := by
  rw [tidy]
  split
  · refine ⟨Text.compact part, ?_⟩
    rw [Text.compact, List.filter_append]
    rfl
  · exact ⟨part, rfl⟩

/-! ### Whole numbers of pixels -/

/-- The suffix of a whole number of pixels: a step of that size, or else a literal. -/
def ofPixels : Int → Text
  | .ofNat n => (Scale.stepOfPx? n).getD (bracketed (Text.ofNat n ++ "px"))
  | .negSucc n => bracketed ('-' :: (Text.ofNat (n + 1) ++ "px"))

theorem ofPixels_natCast (n : Nat) :
    ofPixels n = (Scale.stepOfPx? n).getD (bracketed (Text.ofNat n ++ "px")) := rfl

theorem ofPixels_of_step {step : Step} (hstep : step ∈ Scale.steps)
    (hn : Scale.lengthToPx? step.length = some n) : ofPixels n = step.name := by
  have hpx : Scale.stepOfPx? n = some step.name :=
    Scale.stepOfPx?_eq_some_iff.2 ⟨step, hstep, hn, rfl⟩
  rw [ofPixels_natCast, hpx, Option.getD_some]

theorem ofPixels_of_no_step (hn : ∀ step ∈ Scale.steps, Scale.lengthToPx? step.length ≠ some n) :
    ofPixels n = bracketed (Text.ofNat n ++ "px") := by
  have hpx : Scale.stepOfPx? n = none := by
    refine Option.eq_none_iff_forall_ne_some.2 fun name hname => ?_
    obtain ⟨step, hstep, hstepPx, -⟩ := Scale.stepOfPx?_eq_some_iff.1 hname
    exact hn step hstep hstepPx
  rw [ofPixels_natCast, hpx, Option.getD_none]

theorem ofPixels_neg (hn : 1 ≤ n) :
    ofPixels (-(n : Int)) = bracketed ('-' :: (Text.ofNat n ++ "px")) := by
  obtain ⟨n, rfl⟩ := Nat.exists_eq_succ_of_ne_zero (by omega : n ≠ 0)
  rfl

/-- The suffix of a whole number of pixels is a step, or the number of them in brackets. -/
theorem ofPixels_cases (px : Int) :
    Scale.isStep (ofPixels px) = true ∨ ofPixels px = bracketed (Integer.text px ++ "px") := by
  cases px with
  | ofNat n =>
    rw [Int.ofNat_eq_natCast, ofPixels_natCast]
    cases hstep : Scale.stepOfPx? n with
    | none => exact .inr rfl
    | some name => exact .inl (Scale.isStep_of_stepOfPx? hstep)
  | negSucc n => exact .inr rfl

/-! ### Texts in pixels -/

theorem ofPxText_eq (t : Text) : ofPxText t =
    ((parseLeadingNumber? t).bind Double.truncate?).elim (bracketed t) ofPixels := by
  fun_cases ofPxText t with
  | case1 h => rw [h, Option.elim_none]
  | case2 n h =>
    rw [h]
    rfl
  | case3 n h step hstep =>
    rw [h, Option.elim_some, Int.ofNat_eq_natCast, ofPixels_natCast, hstep, Option.getD_some]
  | case4 n h hstep =>
    rw [h, Option.elim_some, Int.ofNat_eq_natCast, ofPixels_natCast, hstep, Option.getD_none]

/-- The leading number of a text is finite, so it has a whole part. -/
theorem exists_truncate? {x : Double} (h : parseLeadingNumber? t = some x) :
    x.isFinite = true ∧ ∃ px, x.truncate? = some px := by
  obtain ⟨n, -, hx⟩ := Option.bind_eq_some_iff.1 h
  obtain ⟨hfinite, hx⟩ := Double.finite?_eq_some_iff.1 hx
  rw [hx] at hfinite
  obtain ⟨negative, m, rfl⟩ := Double.exists_of_isFinite hfinite
  exact ⟨hfinite, _, rfl⟩

/-- The first index is only a shortcut. -/
theorem ofPxText_of_stepOfLength? {name : Text} (hpx : ("px" : Text).isSuffixOf t = true)
    (h : stepOfLength? t = some name) : ofPxText t = name := by
  rw [stepOfLength?, if_pos hpx] at h
  obtain ⟨x, hx, hrem⟩ := Option.bind_eq_some_iff.1 h
  obtain ⟨px, htruncate, hstep⟩ := Scale.stepOfRem?_divide (exists_truncate? hx).1 hrem
  rw [ofPxText_eq, hx, Option.bind_some, htruncate, Option.elim_some, ofPixels_natCast, hstep,
    Option.getD_some]

theorem ofLength_px (hpx : ("px" : Text).isSuffixOf t = true) (ht : t ≠ "px") :
    ofLength t = ofPxText t := by
  have hzeros : ∀ u ∈ zeroLengths, ("px" : Text).isSuffixOf u = true → ofPxText u = "0" := by
    decide +kernel
  have hsteps : ∀ name ∈ Scale.steps.map Step.name, ("px" : Text).isSuffixOf name = true →
      name = "px" := by decide
  have hstep : ¬ Scale.isStep t = true := fun h => ht (hsteps t (Scale.isStep_iff.1 h) hpx)
  rw [ofLength, if_neg hstep, if_pos hpx]
  split
  · rename_i hzero
    exact (hzeros t (List.contains_iff_mem.1 hzero) hpx).symm
  · split
    · rename_i name hname
      exact (ofPxText_of_stepOfLength? hpx hname).symm
    · rfl

/-- **The suffix of a text in pixels** is found by the whole part of the number that it begins
with. -/
theorem ofText_px (hpart : part ≠ []) :
    ofText (part ++ "px") = ofPxText (tidy (part ++ "px")) := by
  have hx : 'x' ∈ part ++ "px" := List.mem_append_right _ (by decide)
  have hblank : ¬ ∀ c ∈ part ++ "px", Text.isBlank c = true := Text.not_blank_of_mem hx (by decide)
  have hauto : part ++ "px" ≠ auto := by
    intro h
    rw [h] at hx
    exact absurd hx (by decide)
  obtain ⟨part', htidy⟩ := exists_tidy_px part
  have hpx : ("px" : Text).isSuffixOf (tidy (part ++ "px")) = true := by
    rw [htidy]
    exact List.isSuffixOf_iff_suffix.2 (List.suffix_append _ _)
  have hne : tidy (part ++ "px") ≠ "px" := by
    intro h
    rcases tidy_cases (part ++ "px") with hsame | hc
    · rw [hsame] at h
      exact hpart (List.append_left_eq_self.1 h)
    · rw [h] at hc
      exact absurd hc (by decide)
  rw [ofText_of_not_blank hblank hauto, parseNumber?_of_mem_x hx, ite_self, Option.elim_none,
    ofLength_px hpx hne]

/-- **The two indices never disagree, so that the first is only a shortcut.**  If the number at the
front of a text has a step as a length in rem, its whole part has the same step as a size in
pixels; hence a text in pixels that is no step has the suffix that the whole part alone gives. -/
theorem ofValue_px_eq_ofPxText :
    (∀ t x length name, ("px" : Text).isSuffixOf t = true → parseLeadingNumber? t = some x →
      Scale.remForPx (.double x) = .ok length → Scale.stepOfRem? length = some name →
      ∃ px : Nat, x.truncate? = some (px : Int) ∧ Scale.stepOfPx? px = some name) ∧
    (∀ t, ("px" : Text).isSuffixOf t = true → Scale.isStep (tidy t) = false →
      ofValue (.text t) = .ok (ofPxText (tidy t))) := by
  refine ⟨fun t x length name _ hx hlength hname => ?_, fun t hpx hstep => ?_⟩
  · obtain rfl : Scale.remLength (x.divide Scale.pxPerRem) = length := Except.ok.inj hlength
    exact Scale.stepOfRem?_divide (exists_truncate? hx).1 hname
  · obtain ⟨part, rfl⟩ := List.isSuffixOf_iff_suffix.1 hpx
    have hpart : part ≠ [] := by
      rintro rfl
      exact absurd hstep (by decide)
    rw [ofValue, ofText_px hpart]

theorem ofValue_px_eq_ofPxText_compact :
    (∃ x, parseLeadingNumber? "24px" = some x ∧
      Scale.remForPx (.double x) = .ok "1.5rem".toList ∧
      Scale.stepOfRem? "1.5rem" = some "6".toList ∧
      ∃ px : Nat, x.truncate? = some (px : Int) ∧ Scale.stepOfPx? px = some "6".toList) ∧
    ofValue (.text "24 calc px") = .ok (ofPxText "24calcpx") := by
  have hx : parseLeadingNumber? "24px" = some (Double.nearest false 24 0) := by decide +kernel
  have hrem : Scale.remLength ((Double.nearest false 24 0).divide Scale.pxPerRem) = "1.5rem" := by
    decide +kernel
  have hlength : Scale.remForPx (.double (Double.nearest false 24 0)) = .ok "1.5rem".toList :=
    congrArg Except.ok hrem
  have hname : Scale.stepOfRem? "1.5rem" = some "6".toList := by decide +kernel
  exact ⟨⟨_, hx, hlength, hname,
      ofValue_px_eq_ofPxText.1 "24px" _ _ _ (by decide) hx hlength hname⟩,
    ofValue_px_eq_ofPxText.2 "24 calc px" (by decide) (by decide)⟩

/-! ### More than a number before the pixels -/

/-- The whole part of a double is a number that its digits are. -/
theorem exists_parseNumber?_text {x : Double} {px : Int} (h : x.truncate? = some px) :
    ∃ y, parseNumber? (Integer.text px) = some y := by
  obtain ⟨negative, m, rfl⟩ : ∃ negative m, x = .finite negative m := by
    cases x with
    | finite negative m => exact ⟨negative, m, rfl⟩
    | infinite negative => cases h
    | nan => cases h
  obtain ⟨whole, hwhole⟩ : ∃ m' : Magnitude, m'.units = m.units / unitsPerOne * unitsPerOne :=
    ⟨⟨_, m.representable.whole_part⟩, rfl⟩
  rw [Double.truncate?_finite, Option.some.injEq] at h
  generalize m.units / unitsPerOne = n at hwhole h
  -- a zero is written without its sign
  obtain ⟨minus, hminus, rfl⟩ :
      ∃ minus : Bool, (minus = true → n ≠ 0) ∧ px = if minus then -(n : Int) else n := by
    by_cases hn : n = 0
    · exact ⟨false, fun hminus => absurd hminus Bool.false_ne_true, by simp [← h, hn]⟩
    · exact ⟨negative, fun _ => hn, h.symm⟩
  rw [Integer.text_signed hminus,
    (Numeral.denotes_ofNat n).parseNumber? (Numeral.writesSign_minus minus),
    Double.nearest_whole hwhole, Double.finite?_finite]
  exact ⟨_, rfl⟩

/-- The suffix is that of the whole part of the number that the text begins with, if it does. -/
theorem exists_ofText_px {x : Double} (hpart : part ≠ [])
    (hx : parseLeadingNumber? (tidy (part ++ "px")) = some x) :
    ∃ px, x.truncate? = some px ∧ ofText (part ++ "px") = ofPixels px := by
  obtain ⟨-, px, htruncate⟩ := exists_truncate? hx
  refine ⟨px, htruncate, ?_⟩
  rw [ofText_px hpart, ofPxText_eq, hx, Option.bind_some, htruncate, Option.elim_some]

/-- Pixels are the text itself in brackets only if nothing but their number stands before them. -/
theorem exists_parseNumber?_of_ofPixels {x : Double} {px : Int} (htruncate : x.truncate? = some px)
    (h : ofPixels px = bracketed (tidy (part ++ "px"))) : ∃ y, parseNumber? part = some y := by
  rcases ofPixels_cases px with hname | hwritten
  · rw [h, not_isStep_bracketed] at hname
    cases hname
  · have htidy := bracketed_injective (h.symm.trans hwritten)
    rcases tidy_cases (part ++ "px") with hsame | hc
    · rw [hsame] at htidy
      rw [List.append_cancel_right htidy]
      exact exists_parseNumber?_text htruncate
    · -- a number of pixels holds no name of a function
      rw [htidy] at hc
      rcases List.mem_append.1 hc with hc | hc
      · exact absurd (Integer.uses_text px 'c' hc) (by decide)
      · exact absurd hc (by decide)

/-- **If more than a number stands before the pixels**, the text is left as a literal exactly if it
does not begin with a number.  If it does, its suffix is that of the whole part of this number, and
what follows the number is lost. -/
theorem ofValue_px_of_not_number {s part : Text} (hpx : Text.beforeEnding? "px" s = some part)
    (hstep : Scale.isStep s = false) (hpart : parseNumber? part = none) :
    (ofValue (.text s) = .ok (bracketed (tidy s)) ↔ parseLeadingNumber? (tidy s) = none) ∧
      ∀ x, parseLeadingNumber? (tidy s) = some x →
        ∃ px, x.truncate? = some px ∧ ofValue (.text s) = .ok (ofPixels px) := by
  simp only [ofValue, Except.ok.injEq]
  obtain rfl := Text.eq_append_of_beforeEnding? hpx
  have hne : part ≠ [] := by
    rintro rfl
    exact absurd hstep (by decide)
  refine ⟨⟨fun hliteral => ?_, fun hnone => ?_⟩, fun x hx => exists_ofText_px hne hx⟩
  · refine Option.eq_none_iff_forall_ne_some.2 fun x hx => ?_
    obtain ⟨px, htruncate, hpixels⟩ := exists_ofText_px hne hx
    obtain ⟨y, hy⟩ := exists_parseNumber?_of_ofPixels htruncate (hpixels.symm.trans hliteral)
    rw [hy] at hpart
    cases hpart
  · rw [ofText_px hne, ofPxText_eq, hnone]
    rfl

/-- Two lengths in one text: the second is lost, though what stands before the pixels is no
number. -/
theorem ofValue_twoLengths :
    Text.beforeEnding? "px" "4px 8px" = some "4px 8".toList ∧ Scale.isStep "4px 8px" = false ∧
      parseNumber? "4px 8" = none ∧ ofValue (.text "4px 8px") = .ok "1".toList ∧
      ofValue (.text "4px 8px") ≠ .ok (bracketed (tidy "4px 8px")) := by
  have hsuffix : ofText "4px 8px" = "1" := by decide +kernel
  have hne : ("1" : Text) ≠ bracketed (tidy "4px 8px") := by decide
  refine ⟨by decide, by decide, by decide +kernel, ?_, ?_⟩
  · rw [ofValue, hsuffix]
  · rw [ofValue, hsuffix]
    exact fun h => hne (Except.ok.inj h)

/-- A sum that begins with no number is left as it is, one that begins with a length is not. -/
theorem ofValue_px_of_not_number_sums :
    ofValue (.text "var(--gap) + 4px") = .ok (bracketed "var(--gap) + 4px") ∧
      ofValue (.text "4px + var(--gap)px") = .ok (ofPixels 4) := by
  constructor
  · have hpx : Text.beforeEnding? "px" "var(--gap) + 4px" = some "var(--gap) + 4".toList := by
      decide
    exact (ofValue_px_of_not_number hpx (by decide) (by decide +kernel)).1.2 (by decide +kernel)
  · have hpx : Text.beforeEnding? "px" "4px + var(--gap)px" = some "4px + var(--gap)".toList := by
      decide
    obtain ⟨x, hx⟩ : ∃ x, parseLeadingNumber? (tidy "4px + var(--gap)px") = some x :=
      Option.isSome_iff_exists.1 (by decide +kernel)
    have hfour : ((parseLeadingNumber? (tidy "4px + var(--gap)px")).bind Double.truncate?) =
        some 4 := by decide +kernel
    obtain ⟨px, htruncate, hpixels⟩ :=
      (ofValue_px_of_not_number hpx (by decide) (by decide +kernel)).2 x hx
    rw [hx, Option.bind_some, htruncate] at hfour
    rw [hpixels, Option.some.inj hfour]

/-! ### Whole numbers of pixels -/

/-- The spellings of a whole number: it may have a plus, zeros before its digits, and a point with
zeros only after them. -/
inductive SpellsWhole (n : Nat) : Text → Prop where
  | mk {sign fraction : Text} (zeros : Nat) (hsign : sign = [] ∨ sign = ['+'])
      (hfraction : fraction = [] ∨ ∃ places, fraction = '.' :: List.replicate places '0') :
      SpellsWhole n (sign ++ (List.replicate zeros '0' ++ Text.ofNat n ++ fraction))

theorem SpellsWhole.exists_denotes (h : SpellsWhole n t) : ∃ sign w, t = sign ++ w ∧
    Numeral.WritesSign sign false ∧ Numeral.Denotes w n 0 ∧ Text.Uses Number.marks w := by
  obtain @⟨sign, fraction, zeros, hsign, hfraction⟩ := h
  have hwritesSign : Numeral.WritesSign sign false := by
    rcases hsign with rfl | rfl
    · exact .none
    · exact .plus
  obtain ⟨ds, hds, hvalue⟩ := Text.exists_digits_ofNat n
  have hdigits := hds.zeros_append zeros
  have hne : List.replicate zeros 0 ++ ds ≠ [] :=
    hdigits.values_ne_nil (List.append_ne_nil_of_right_ne_nil _ (Text.ofNat_ne_nil n))
  have hwhole : Text.ofDigits (List.replicate zeros 0 ++ ds) = n := by
    rw [Text.ofDigits_zeros_append, hvalue]
  refine ⟨sign, _, rfl, hwritesSign, ?_, ?_⟩
  · rcases hfraction with rfl | ⟨places, rfl⟩
    · have hdenotes := Numeral.denotes_digits hdigits hne
      rwa [hwhole, ← List.append_nil (_ ++ Text.ofNat n)] at hdenotes
    · have hdenotes := Numeral.denotes_point hdigits (Numeral.Digits.zeros places)
        (fun hnil => hne (List.append_eq_nil_iff.1 hnil).1)
      rw [Text.ofDigits_append, hwhole, Text.ofDigits_zeros, Nat.add_zero] at hdenotes
      have hmoved := hdenotes.of_mul_pow
      rwa [List.length_replicate, Int.add_left_neg] at hmoved
  · have huses : Text.Uses Number.marks fraction := by
      rcases hfraction with rfl | ⟨places, rfl⟩
      · exact Text.uses_nil
      · simp [Number.point_mem_marks]
    simp [huses]

/-- The suffix of a whole number of pixels that a double can tell from its neighbours. -/
theorem ofText_wholePixels {sign w : Text} {negative : Bool} (hw : Numeral.Denotes w n 0)
    (hsign : Numeral.WritesSign sign negative) (huses : Text.Uses Number.marks w)
    (hn : n ≤ 2 ^ 53) :
    ofText (sign ++ w ++ "px") = ofPixels (if negative then -(n : Int) else n) := by
  obtain ⟨m, hm⟩ := exists_whole hn
  have hends : Numeral.EndsNumeral "px" := by
    intro c hc
    obtain rfl := Option.some.inj hc
    decide
  have hlead := hw.parseLeadingNumber? hsign hends
  rw [Double.nearest_whole hm, Double.finite?_finite] at hlead
  have hc : 'c' ∉ sign ++ w ++ "px" := by
    intro hc
    rcases List.mem_append.1 hc with hc | hc
    · exact absurd (hsign.uses_append huses 'c' hc) (by decide)
    · exact absurd hc (by decide)
  rw [ofText_px (hw.ne_nil hsign), tidy_eq_self hc, ofPxText_eq, hlead, Option.bind_some,
    Double.truncate?_whole hm, Option.elim_some]

/-- **Whole numbers of pixels keep their size**, however they are spelled: a step of that size, if
the scale has one, or else the number of pixels in brackets.  Less than none is never a step. -/
theorem ofValue_wholePixels :
    (∀ n spelling, n ≤ 2 ^ 53 → SpellsWhole n spelling →
      (∀ step ∈ Scale.steps, Scale.lengthToPx? step.length = some n →
        ofValue (.text (spelling ++ "px")) = .ok step.name) ∧
      ((∀ step ∈ Scale.steps, Scale.lengthToPx? step.length ≠ some n) →
        ofValue (.text (spelling ++ "px")) = .ok (bracketed (Text.ofNat n ++ "px")))) ∧
    (∀ n, 1 ≤ n → n ≤ 2 ^ 53 →
      ofValue (.text ('-' :: (Text.ofNat n ++ "px"))) =
        .ok (bracketed ('-' :: (Text.ofNat n ++ "px"))) ∧
      Scale.isStep (bracketed ('-' :: (Text.ofNat n ++ "px"))) = false) := by
  refine ⟨fun n spelling hn hspelling => ?_, fun n hpositive hn => ?_⟩
  · obtain ⟨sign, w, rfl, hsign, hw, huses⟩ := hspelling.exists_denotes
    have hsuffix := ofText_wholePixels hw hsign huses hn
    rw [if_neg Bool.false_ne_true] at hsuffix
    rw [ofValue, hsuffix]
    refine ⟨fun step hstep hpx => ?_, fun hnone => ?_⟩
    · rw [ofPixels_of_step hstep hpx]
    · rw [ofPixels_of_no_step hnone]
  · have hsuffix := ofText_wholePixels (Numeral.denotes_ofNat n) .minus (Text.uses_ofNat n) hn
    rw [if_pos rfl, ofPixels_neg hpositive] at hsuffix
    exact ⟨congrArg Except.ok hsuffix, not_isStep_bracketed _⟩

theorem ofValue_wholePixels_sixteen :
    ofValue (.text "+016.00px") = .ok "4".toList ∧ ofValue (.text "15px") = .ok "[15px]".toList ∧
      ofValue (.text "-4px") = .ok "[-4px]".toList := by
  have hsixteen : SpellsWhole 16 "+016.00" := .mk 1 (.inr rfl) (.inr ⟨2, rfl⟩)
  have hfifteen : SpellsWhole 15 "15" := .mk 0 (.inl rfl) (.inl rfl)
  refine ⟨?_, ?_, ?_⟩
  · exact (ofValue_wholePixels.1 16 _ (by decide) hsixteen).1 ⟨"4", "1rem"⟩ (by decide)
      (by decide +kernel)
  · exact (ofValue_wholePixels.1 15 _ (by decide) hfifteen).2 (by decide +kernel)
  · exact (ofValue_wholePixels.2 4 (by decide) (by decide)).1

end Suffix

end SpacingClasses
