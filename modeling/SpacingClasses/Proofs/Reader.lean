import SpacingClasses.Proofs.Outcome
import SpacingClasses.Reader
import Mathlib.Data.List.Infix

/-!
# What readers give

A reader takes its value from the front of a text and leaves an ending of it.

* `Text.suffix_of_dropWhile` : blanks and one more character are passed over;
* `Reader.Yields good long x` : `x` is `good`, or a stop, and one for too many digits only if `long`
  holds;
* `Reader.Gives good long t x` : so is the answer `x` of a reader to the text `t`, and what it leaves
  is an ending of `t`;
* `Reader.Gives.bind` : one reader after another.
-/

namespace SpacingClasses

/-- What stands behind the first character that is kept is an ending of the text. -/
theorem Text.suffix_of_dropWhile {p : Char → Bool} {c : Char} {t u : Text}
    (h : t.dropWhile p = c :: u) : u <:+ t :=
  (List.suffix_cons c u).trans (h ▸ List.dropWhile_suffix p)

namespace Reader

variable {ρ α β : Type} {good : α → Prop} {good' : β → Prop} {long : Prop} {t u rest : Text}

theorem cons_eq_ok_iff {c : Char} {read : Text} {x : Except (Stop ρ) (Text × Text)} :
    cons c x = .ok (read, rest) ↔ ∃ r, read = c :: r ∧ x = .ok (r, rest) := by
  rw [cons, map_eq_ok_iff]
  constructor
  · rintro ⟨⟨r, rest'⟩, rfl, h⟩
    obtain ⟨rfl, rfl⟩ := Prod.mk.inj h
    exact ⟨r, rfl, rfl⟩
  · rintro ⟨r, rfl, rfl⟩
    exact ⟨(r, rest), rfl, rfl⟩

theorem cons_eq_error_iff {c : Char} {x : Except (Stop ρ) (Text × Text)} {stop : Stop ρ} :
    cons c x = .error stop ↔ x = .error stop := by
  cases x <;> simp [cons, Except.map]

/-- What is read is `good`, or the reader stops, for too many digits only if `long` holds. -/
def Yields (good : α → Prop) (long : Prop) : Except (Stop ρ) α → Prop
  | .ok a => good a
  | .error (.limit _) => long
  | .error _ => True

/-- The answer of a reader to a text is a `good` value with an ending of the text, or a stop, and
one for too many digits only if `long` holds. -/
def Gives (good : α → Prop) (long : Prop) (t : Text) (x : Except (Stop ρ) (α × Text)) : Prop :=
  Yields (fun part => good part.1 ∧ part.2 <:+ t) long x

theorem Yields.imp {good₂ : α → Prop} {x : Except (Stop ρ) α} (h : Yields good long x)
    (himp : ∀ a, good a → good₂ a) : Yields good₂ long x :=
  match x, h with
  | .ok a, h => himp a h
  | .error (.limit _), h => h
  | .error (.fault ..), _ => trivial
  | .error .exhausted, _ => trivial

theorem Yields.bind {x : Except (Stop ρ) α} {f : α → Except (Stop ρ) β} (h : Yields good long x)
    (hf : ∀ a, good a → Yields good' long (f a)) : Yields good' long (x >>= f) :=
  match x, h with
  | .ok a, h => hf a h
  | .error (.limit _), h => h
  | .error (.fault ..), _ => trivial
  | .error .exhausted, _ => trivial

theorem Gives.of_suffix {x : Except (Stop ρ) (α × Text)} (h : Gives good long u x) (hu : u <:+ t) :
    Gives good long t x :=
  Yields.imp h fun _ h => ⟨h.1, h.2.trans hu⟩

/-- One reader after another: the second goes on with what the first leaves. -/
theorem Gives.bind {x : Except (Stop ρ) (α × Text)}
    {f : α × Text → Except (Stop ρ) (β × Text)} (h : Gives good long t x)
    (hf : ∀ a rest, good a → rest <:+ t → Gives good' long rest (f (a, rest))) :
    Gives good' long t (x >>= f) :=
  Yields.bind h fun part h => (hf part.1 part.2 h.1 h.2).of_suffix h.2

/-- A reader after something that only goes on in the text. -/
theorem Yields.gives {x : Except (Stop ρ) Text} {f : Text → Except (Stop ρ) (β × Text)}
    (h : Yields (· <:+ t) long x) (hf : ∀ rest, rest <:+ t → Gives good' long rest (f rest)) :
    Gives good' long t (x >>= f) :=
  h.bind fun rest hrest => (hf rest hrest).of_suffix hrest

theorem Gives.ite {p : Prop} [Decidable p] {x y : Except (Stop ρ) (α × Text)}
    (hx : Gives good long t x) (hy : Gives good long t y) :
    Gives good long t (if p then x else y) := by
  split
  · exact hx
  · exact hy

theorem gives_stopAt (left : Text) (reason : ρ) :
    Gives good long t (stopAt left reason : Except (Stop ρ) (α × Text)) := trivial

theorem gives_cons {good : Text → Prop} {c : Char} {x : Except (Stop ρ) (Text × Text)}
    (h : Gives (fun read => good (c :: read)) long t x) : Gives good long t (cons c x) :=
  match x, h with
  | .ok _, h => h
  | .error (.limit _), h => h
  | .error (.fault ..), _ => trivial
  | .error .exhausted, _ => trivial

end Reader

end SpacingClasses
