import SpacingClasses.Proofs.Reader
import SpacingClasses.Text.Blank

/-!
# Readers that go on

A reader that goes on in its text whenever it reads something can be called again and again: before
long there is no text left.

* `Text.Past t rest` : the text `rest` is an ending of `t`, and shorter;
* `Reader.Halts place long good x` : the answer `x` of a reader is `good`, or it is a fault at a
  `place`, or a stop for too many digits where `long` holds; the bound of the reader is not spent;
* `Reader.loop` : round after round of a reader, up to a bound;
* `Reader.halts_loop` : **if each round goes on, so does the loop**, and a bound above the length
  of its text is not spent on it;
* `Reader.loop_congr` : nor does the answer depend on such a bound;
* `Reader.Advances`, `Reader.LoopAdvances` : the same of the places in a source, where a reader stops
  behind the place that it starts from and does not see what is before it.
-/

namespace SpacingClasses

/-- An ending of a text that is shorter than the text. -/
def Text.Past (t rest : Text) : Prop := rest <:+ t ∧ rest.length < t.length

namespace Text.Past

variable {t u rest : Text} {c : Char}

theorem cons_self (c : Char) (rest : Text) : Past (c :: rest) rest :=
  ⟨List.suffix_cons c rest, Nat.lt_succ_self _⟩

/-- What goes on in an ending goes on in the text. -/
theorem of_suffix (h : Past u rest) (hu : u <:+ t) : Past t rest :=
  ⟨h.1.trans hu, h.2.trans_le hu.length_le⟩

/-- To leave an ending of an ending is to go on further. -/
theorem leave (h : Past t u) (hrest : rest <:+ u) : Past t rest :=
  ⟨hrest.trans h.1, hrest.length_le.trans_lt h.2⟩

theorem of_skipBlanks (h : skipBlanks t = c :: rest) : Past t rest :=
  (cons_self c rest).of_suffix (h ▸ List.dropWhile_suffix _)

end Text.Past

namespace Reader

variable {ρ α β : Type} {place : Text → Prop} {long : Prop} {good : α → Prop} {good' : β → Prop}
  {t : Text}

/-- The answer of a reader is `good`, or it is a fault at a `place`, or a stop for too many digits
where `long` holds. -/
def Halts (place : Text → Prop) (long : Prop) (good : α → Prop) : Except (Stop ρ) α → Prop
  | .ok a => good a
  | .error (.fault remaining _) => ∃ left, place left ∧ left.length = remaining
  | .error (.limit _) => long
  | .error .exhausted => False

theorem Halts.imp {good₂ : α → Prop} {x : Except (Stop ρ) α} (h : Halts place long good x)
    (himp : ∀ a, good a → good₂ a) : Halts place long good₂ x :=
  match x, h with
  | .ok a, h => himp a h
  | .error (.fault ..), h => h
  | .error (.limit _), h => h

theorem Halts.bind {x : Except (Stop ρ) α} {f : α → Except (Stop ρ) β}
    (h : Halts place long good x) (hf : ∀ a, good a → Halts place long good' (f a)) :
    Halts place long good' (x >>= f) :=
  match x, h with
  | .ok a, h => hf a h
  | .error (.fault ..), h => h
  | .error (.limit _), h => h

/-- What is done with good answers alone may be done in another way, if it is the same for these. -/
theorem Halts.bind_congr {x : Except (Stop ρ) α} {f g : α → Except (Stop ρ) β}
    (h : Halts place long good x) (hfg : ∀ a, good a → f a = g a) : x >>= f = x >>= g :=
  match x, h with
  | .ok a, h => hfg a h
  | .error _, _ => rfl

theorem halts_stopAt {left : Text} (h : place left) (reason : ρ) :
    Halts place long good (stopAt left reason : Except (Stop ρ) α) := ⟨left, h, rfl⟩

theorem halts_cons {good : Text × Text → Prop} {c : Char} {x : Except (Stop ρ) (Text × Text)}
    (h : Halts place long (fun part => good (c :: part.1, part.2)) x) :
    Halts place long good (cons c x) :=
  match x, h with
  | .ok _, h => h
  | .error (.fault ..), h => h
  | .error (.limit _), h => h

/-! ### Loops -/

/-- What one round of a loop reads. -/
inductive Round (α : Type) where
  /-- The end of the loop alone. -/
  | close
  /-- A last thing, and the end of the loop behind it. -/
  | last (a : α)
  /-- One thing; the loop goes on. -/
  | more (a : α)

/-- What the rounds read, up to the one that ends the loop. -/
def loop (round : Reader ρ (Round α)) : Nat → Reader ρ (List α)
  | 0, _ => .error .exhausted
  | bound + 1, t => do
    let (part, rest) ← round t
    match part with
    | .close => .ok ([], rest)
    | .last a => .ok ([a], rest)
    | .more a => do
      let (as, rest') ← loop round bound rest
      .ok (a :: as, rest')

variable {round round' : Reader ρ (Round α)}

/-- A round that does not end the loop reads the first of the things. -/
theorem loop_more {a : α} {rest : Text} {bound : Nat} (h : round t = .ok (.more a, rest)) :
    loop round (bound + 1) t = (loop round bound rest).map fun (as, rest') => (a :: as, rest') := by
  rw [loop, h]
  cases hrest : loop round bound rest with
  | error stop =>
    simp only [ok_bind, hrest]
    rfl
  | ok part =>
    simp only [ok_bind, hrest]
    rfl

/-- **If each round goes on in the text, so does the loop**, and a bound above the length of the
text is not spent on it. -/
theorem halts_loop
    (hround : ∀ u, u <:+ t → Halts place long (fun part => Text.Past u part.2) (round u))
    {bound : Nat} (hbound : t.length < bound) :
    Halts place long (fun part => Text.Past t part.2) (loop round bound t) := by
  induction bound generalizing t with
  | zero => cases hbound
  | succ bound ih =>
    rw [loop]
    refine (hround t List.suffix_rfl).bind fun part hpart => ?_
    obtain ⟨part, rest⟩ := part
    have hlength := hpart.2
    cases part with
    | close => exact hpart
    | last a => exact hpart
    | more a =>
      have hrest := ih (fun u hu => hround u (hu.trans hpart.1)) (by omega)
      exact hrest.bind fun part hrest => hpart.leave hrest.1

/-- **What a loop reads does not depend on a bound above the length of the text.** -/
theorem loop_congr (heq : ∀ u, u <:+ t → round u = round' u)
    (hround : ∀ u, u <:+ t → Halts place long (fun part => Text.Past u part.2) (round u))
    {bound bound' : Nat} (hbound : t.length < bound) (hbound' : t.length < bound') :
    loop round bound t = loop round' bound' t := by
  induction bound generalizing t bound' with
  | zero => cases hbound
  | succ bound ih =>
    obtain ⟨bound', rfl⟩ := Nat.exists_eq_add_one_of_ne_zero (Nat.ne_zero_of_lt hbound')
    rw [loop, loop, ← heq t List.suffix_rfl]
    refine (hround t List.suffix_rfl).bind_congr fun part hpart => ?_
    obtain ⟨part, rest⟩ := part
    have hlength := hpart.2
    cases part with
    | close => rfl
    | last a => rfl
    | more a =>
      have hrest : loop round bound rest = loop round' bound' rest :=
        ih (fun u hu => heq u (hu.trans hpart.1)) (fun u hu => hround u (hu.trans hpart.1))
          (by omega) (by omega)
      simp only [hrest]

/-! ### Places in a source -/

/-- What is read from a place of a source on, and the place behind it. -/
def readAt (reader : Reader ρ α) (source : Text) (start : Nat) : Except (Stop ρ) (α × Nat) :=
  (reader (source.drop start)).map fun (a, rest) => (a, source.length - rest.length)

/-- The reader goes on in the source from this place. -/
structure Advances (reader : Reader ρ α) (source : Text) (start : Nat) : Prop where
  /-- It stops at a later place of the source, and leaves what is behind that. -/
  onward : ∀ a stop, readAt reader source start = .ok (a, stop) →
    start < stop ∧ stop ≤ source.length ∧ reader (source.drop start) = .ok (a, source.drop stop)
  /-- Behind another text it reads the same, and stops as far on. -/
  anywhere : ∀ before, readAt reader (before ++ source.drop start) before.length =
    (readAt reader source start).map fun (a, stop) => (a, before.length + (stop - start))
  /-- Its bound is not spent. -/
  unspent : readAt reader source start ≠ .error .exhausted

/-- The reader goes on in the source from this place by rounds that do, whatever its bound is. -/
structure LoopAdvances (reader : Nat → Reader ρ (List α)) (round : Reader ρ (Round α))
    (source : Text) (start : Nat) : Prop where
  eq_loop : ∀ bound, source.length - start < bound →
    reader bound (source.drop start) = loop round bound (source.drop start)
  rounds : ∀ place, start ≤ place → Advances round source place
  advances : ∀ bound, source.length - start < bound → Advances (reader bound) source start
  steady : ∀ bound bound', source.length - start < bound → source.length - start < bound' →
    reader bound (source.drop start) = reader bound' (source.drop start)

variable {source : Text} {start : Nat}

theorem readAt_eq_ok {reader : Reader ρ α} {a : α} {rest : Text}
    (h : reader (source.drop start) = .ok (a, rest)) :
    readAt reader source start = .ok (a, source.length - rest.length) := by
  rw [readAt, h]
  rfl

theorem readAt_eq_error {reader : Reader ρ α} {stop : Stop ρ}
    (h : reader (source.drop start) = .error stop) : readAt reader source start = .error stop := by
  rw [readAt, h]
  rfl

/-- A reader that goes on in what is left of a source goes on in the source. -/
theorem advances_of_halts {reader : Reader ρ α}
    (h : Halts place long (fun part => Text.Past (source.drop start) part.2)
      (reader (source.drop start))) : Advances reader source start := by
  have hlength : (source.drop start).length = source.length - start := List.length_drop
  have hmoved (before : Text) :
      reader ((before ++ source.drop start).drop before.length) = reader (source.drop start) := by
    rw [List.drop_left]
  cases hread : reader (source.drop start) with
  | error stop =>
    rw [hread] at h
    refine ⟨fun a stop' hat => ?_, fun before => ?_, fun hat => ?_⟩
    · rw [readAt_eq_error hread] at hat
      cases hat
    · rw [readAt_eq_error hread, readAt_eq_error ((hmoved before).trans hread)]
      rfl
    · rw [readAt_eq_error hread] at hat
      cases hat
      exact h
  | ok part =>
    obtain ⟨a, rest⟩ := part
    rw [hread] at h
    have hpast : Text.Past (source.drop start) rest := h
    have hshort := hpast.2
    refine ⟨fun b stop hat => ?_, fun before => ?_, fun hat => ?_⟩
    · rw [readAt_eq_ok hread] at hat
      obtain ⟨rfl, rfl⟩ := Prod.mk.inj (Except.ok.inj hat)
      have hrest : rest <:+ source := hpast.1.trans (List.drop_suffix start source)
      refine ⟨by omega, Nat.sub_le _ _, ?_⟩
      rw [hread, ← List.suffix_iff_eq_drop.1 hrest]
    · have hstop : (before ++ source.drop start).length - rest.length =
          before.length + (source.length - rest.length - start) := by
        rw [List.length_append]
        omega
      rw [readAt_eq_ok hread, readAt_eq_ok ((hmoved before).trans hread), hstop]
      rfl
    · rw [readAt_eq_ok hread] at hat
      cases hat

/-- A loop goes on in a source if each of its rounds goes on in what is left of it. -/
theorem loopAdvances_of_halts {reader : Nat → Reader ρ (List α)}
    (heq : ∀ bound, source.length - start < bound →
      reader bound (source.drop start) = loop round bound (source.drop start))
    (hround : ∀ u, u <:+ source.drop start →
      Halts place long (fun part => Text.Past u part.2) (round u)) :
    LoopAdvances reader round source start := by
  have hlength : (source.drop start).length = source.length - start := List.length_drop
  refine ⟨heq, fun later hplace => advances_of_halts (hround _ ?_), fun bound hbound => ?_, ?_⟩
  · rw [← Nat.add_sub_of_le hplace, ← List.drop_drop]
    exact List.drop_suffix _ _
  · have hloop := halts_loop hround (hlength.trans_lt hbound)
    rw [← heq bound hbound] at hloop
    exact advances_of_halts hloop
  · intro bound bound' hbound hbound'
    rw [heq bound hbound, heq bound' hbound']
    exact loop_congr (fun _ _ => rfl) hround (by omega) (by omega)

end Reader

end SpacingClasses
