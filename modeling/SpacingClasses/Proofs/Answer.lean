import SpacingClasses.Failure
import SpacingClasses.Proofs.Outcome

/-!
# Answers

What becomes of a computation when few causes of failure are left.

* `Failure.Told long blocked f` : the failure `f` is a report, or it is about a number of too many
  digits and `long` holds, or about a path that cannot be followed and `blocked` holds;
* `Answers good long blocked x` : the computation `x` gives a `good` value or such a failure;
* `Answers.bind` : one computation after another.
-/

namespace SpacingClasses

/-- A report; or a number of too many digits where `long` holds, or a path that cannot be followed
where `blocked` holds. -/
inductive Failure.Told (long blocked : Prop) : Failure → Prop where
  | report (r : Report) : Told long blocked (.report r)
  | digitLimit (digits : Option Nat) (h : long) : Told long blocked (.digitLimit digits)
  | obstructed (why : Obstacle) (path : Text) (h : blocked) :
      Told long blocked (.obstructed why path)

variable {α β : Type} {good : α → Prop} {good' : β → Prop} {long blocked : Prop}

/-- A `good` value, or a failure that is told of or has its cause. -/
def Answers (good : α → Prop) (long blocked : Prop) : Except Failure α → Prop
  | .ok a => good a
  | .error f => f.Told long blocked

theorem Answers.bind {x : Except Failure α} {f : α → Except Failure β}
    (h : Answers good long blocked x) (hf : ∀ a, good a → Answers good' long blocked (f a)) :
    Answers good' long blocked (x >>= f) := by
  cases x with
  | ok a => exact hf a h
  | error e => exact h

/-- The value that a computation gives is the one that it gives. -/
theorem Answers.self {x : Except Failure α} (h : Answers good long blocked x) :
    Answers (fun a => x = .ok a) long blocked x := by
  cases x with
  | ok a => exact rfl
  | error e => exact h

theorem Answers.of_ok {x : Except Failure α} {a : α} (h : Answers good long blocked x)
    (hx : x = .ok a) : good a := by
  rw [hx] at h
  exact h

end SpacingClasses
