import SpacingClasses.Proofs.Number.Shortest
import SpacingClasses.Proofs.Scale.Index

/-!
# Lengths in rem and sizes in pixels

* `Scale.lengthToPx?_rem` : the size of a length in rem, by the number that is read from it;
* `Scale.lengthToPx?_remLength` : so a number of rem that is written out is read back;
* `Scale.stepOfRem?_divide` : **the two indices agree**: if a number of pixels, as a length in rem,
  is that of a step, the number is whole and leads to the same step.
-/

namespace SpacingClasses

/-- What stands before an ending is found. -/
theorem Text.beforeEnding?_append (ending t : Text) :
    beforeEnding? ending (t ++ ending) = some t := by
  have hsuffix : ending.isSuffixOf (t ++ ending) = true :=
    List.isSuffixOf_iff_suffix.2 (List.suffix_append t ending)
  rw [beforeEnding?, if_pos hsuffix, List.length_append, Nat.add_sub_cancel,
    List.take_left]

theorem Text.eq_append_of_beforeEnding? {ending t part : Text}
    (h : beforeEnding? ending t = some part) : t = part ++ ending := by
  have hsuffix : ending.isSuffixOf t = true := by
    by_contra hnot
    rw [beforeEnding?, if_neg hnot] at h
    cases h
  obtain ⟨r, rfl⟩ := List.isSuffixOf_iff_suffix.1 hsuffix
  rw [beforeEnding?_append] at h
  rw [Option.some.inj h]

namespace Scale

variable {t name : Text} {x : Double} {m : Magnitude} {negative : Bool}

/-- The size of a length with an ending, by the number of pixels that is read from it. -/
theorem lengthToPx?_append {ending : Text} (hending : 1 < ending.length) :
    lengthToPx? (t ++ ending) =
      ((match Text.beforeEnding? "rem" (t ++ ending) with
        | some size => (parseFloat? size).map (Double.scale pxPerRem)
        | none => (Text.beforeEnding? "px" (t ++ ending)).bind parseFloat?).bind
          Double.whole?).bind Int.toNat? := by
  have hne : t ++ ending ≠ ("0" : Text) := by
    intro h
    have := congrArg List.length h
    simp at this
    omega
  rw [lengthToPx?, if_neg hne]
  extract_lets px
  change _ = (px.bind Double.whole?).bind Int.toNat?
  cases px.bind Double.whole? with
  | none => rfl
  | some k => cases k <;> rfl

/-- The size of a length in rem, by the number that is read from it. -/
theorem lengthToPx?_rem (hx : parseFloat? t = some x) :
    lengthToPx? (t ++ "rem") = (x.scale pxPerRem).whole?.bind Int.toNat? := by
  rw [lengthToPx?_append (by simp), Text.beforeEnding?_append]
  simp only [hx, Option.map_some, Option.bind_some]

/-- A number of rem that is written out is read back. -/
theorem lengthToPx?_remLength (hzero : negative = true → m.units ≠ 0) :
    lengthToPx? (remLength (.finite negative m)) =
      ((Double.finite negative m).scale pxPerRem).whole?.bind Int.toNat? := by
  obtain ⟨t, ht, hlength⟩ : ∃ t, (Number.double (.finite negative m)).write = .ok t ∧
      remLength (.finite negative m) = t ++ "rem" := ⟨_, rfl, rfl⟩
  rw [hlength, lengthToPx?_rem (Double.parseFloat?_write hzero ht)]

theorem remLength_zero (hm : m.units = 0) : remLength (.finite negative m) = "0rem" := by
  have hunits : m.units = 0 * unitsPerOne := by rw [hm, Nat.zero_mul]
  rw [remLength, Double.whole?_whole hunits]
  cases negative <;> rfl

theorem exists_lengthToPx? : ∀ step ∈ steps, (lengthToPx? step.length).isSome = true := by
  decide +kernel

/-- **The two indices agree**: if a number of pixels, as a length in rem, is that of a step, the
number is whole and leads to the same step. -/
theorem stepOfRem?_divide (hx : x.isFinite = true)
    (h : stepOfRem? (remLength (x.divide pxPerRem)) = some name) :
    ∃ px : Nat, x.truncate? = some (px : Int) ∧ stepOfPx? px = some name := by
  obtain ⟨negative, m, rfl⟩ := Double.exists_of_isFinite hx
  have hsixteen : pxPerRem = 2 ^ 4 := rfl
  obtain ⟨rem, hrem, hexact⟩ := Double.divide_two_pow negative m 4
  rw [hsixteen, hrem] at h
  obtain ⟨step, hstep, hlength, hname⟩ := exists_of_stepOfRem? h
  have hzero : rem.units ≠ 0 := by
    intro hzero
    have hlengths : ∀ step ∈ steps, step.length ≠ ("0rem" : Text) := by decide
    exact hlengths step hstep (hlength.trans (remLength_zero hzero))
  obtain ⟨px, hpx⟩ := Option.isSome_iff_exists.1 (exists_lengthToPx? step hstep)
  refine ⟨px, ?_, stepOfPx?_eq_some_iff.2 ⟨step, hstep, hpx, hname⟩⟩
  rw [hlength, lengthToPx?_remLength fun _ => hzero, Option.bind_eq_some_iff] at hpx
  obtain ⟨k, hwhole, hk⟩ := hpx
  obtain rfl : k = px := by
    cases k with
    | ofNat k => exact congrArg Int.ofNat (Option.some.inj hk)
    | negSucc k => cases hk
  rcases hexact with hexact | hfew
  · rw [hsixteen, Double.scale_exact hexact] at hwhole
    exact Double.truncate?_of_whole? hwhole
  · -- so little is no whole number of pixels
    obtain ⟨sixteenth, hsixteenth⟩ : ∃ m' : Magnitude, m'.units = rem.units * 2 ^ 4 :=
      ⟨⟨_, representable_mul_two_pow hfew (by decide)⟩, rfl⟩
    have hne : sixteenth.units ≠ 0 := by omega
    have hle : sixteenth.units ≤ 2 ^ 57 := by omega
    rw [hsixteen, Double.scale_exact hsixteenth, Double.whole?_of_few hne hle] at hwhole
    cases hwhole

end Scale

end SpacingClasses
