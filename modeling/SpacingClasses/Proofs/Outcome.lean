import Mathlib.Data.List.Forall2

/-!
# Computations that give a value

How a computation in several steps comes to give a value, as opposed to a failure.
-/

namespace SpacingClasses

variable {ε ε' α β γ : Type}

theorem bind_eq_ok_iff {x : Except ε α} {f : α → Except ε β} {b : β} :
    (x >>= f) = .ok b ↔ ∃ a, x = .ok a ∧ f a = .ok b := by
  cases x with
  | error e => simp [bind, Except.bind]
  | ok a => simp [bind, Except.bind]

theorem map_eq_ok_iff {x : Except ε α} {f : α → β} {b : β} :
    x.map f = .ok b ↔ ∃ a, x = .ok a ∧ f a = b := by
  cases x <;> simp [Except.map]

theorem mapError_eq_ok_iff {x : Except ε α} {f : ε → ε'} {a : α} :
    x.mapError f = .ok a ↔ x = .ok a := by
  constructor
  · intro h
    cases x with
    | error e => cases h
    | ok b =>
      cases h
      rfl
  · rintro rfl
    rfl

theorem pure_eq_ok_iff {a b : α} : (pure a : Except ε α) = .ok b ↔ a = b := by
  simp [pure, Except.pure]

/-- A row of computations gives values exactly if each of them gives one. -/
theorem exists_mapM_eq_ok_iff {f : α → Except ε β} {l : List α} :
    (∃ bs, l.mapM f = .ok bs) ↔ ∀ a ∈ l, ∃ b, f a = .ok b := by
  induction l with
  | nil => simp [pure, Except.pure]
  | cons a l ih =>
    rw [List.forall_mem_cons, ← ih, List.mapM_cons]
    constructor
    · rintro ⟨bs, h⟩
      obtain ⟨b, hb, h⟩ := bind_eq_ok_iff.1 h
      obtain ⟨bs', hbs, -⟩ := bind_eq_ok_iff.1 h
      exact ⟨⟨b, hb⟩, bs', hbs⟩
    · rintro ⟨⟨b, hb⟩, bs, hbs⟩
      rw [hb, hbs]
      exact ⟨b :: bs, rfl⟩

/-- Computations that agree on each member of a row agree on the row. -/
theorem mapM_congr_of_mem {f g : α → Except ε β} {l : List α} (h : ∀ a ∈ l, f a = g a) :
    l.mapM f = l.mapM g := by
  induction l with
  | nil => rfl
  | cons a l ih =>
    rw [List.forall_mem_cons] at h
    rw [List.mapM_cons, List.mapM_cons, h.1, ih h.2]

/-- What a row of computations gives comes from one of them. -/
theorem exists_of_mem_mapM {f : α → Except ε β} {l : List α} {bs : List β} {b : β}
    (h : l.mapM f = .ok bs) (hb : b ∈ bs) : ∃ a ∈ l, f a = .ok b := by
  induction l generalizing bs with
  | nil =>
    cases h
    cases hb
  | cons a l ih =>
    rw [List.mapM_cons] at h
    obtain ⟨first, hfirst, h⟩ := bind_eq_ok_iff.1 h
    obtain ⟨rest, hrest, h⟩ := bind_eq_ok_iff.1 h
    cases h
    rcases List.mem_cons.1 hb with rfl | hb
    · exact ⟨a, List.mem_cons_self, hfirst⟩
    · obtain ⟨a', ha', hvalue⟩ := ih hrest hb
      exact ⟨a', List.mem_cons_of_mem a ha', hvalue⟩

/-- A row of computations that each give a value in relation to something gives a row of values in
relation to a row of these. -/
theorem exists_mapM_forall₂ {f : α → Except ε β} {R : β → γ → Prop} {S : α → γ → Prop} {l : List α}
    (h : ∀ a ∈ l, ∃ b c, f a = .ok b ∧ R b c ∧ S a c) :
    ∃ bs cs, l.mapM f = .ok bs ∧ List.Forall₂ R bs cs ∧ List.Forall₂ S l cs := by
  induction l with
  | nil => exact ⟨[], [], rfl, .nil, .nil⟩
  | cons a l ih =>
    rw [List.forall_mem_cons] at h
    obtain ⟨⟨b, c, hb, hrelated, hc⟩, hl⟩ := h
    obtain ⟨bs, cs, hbs, hrest, hcs⟩ := ih hl
    refine ⟨b :: bs, c :: cs, ?_, .cons hrelated hrest, .cons hc hcs⟩
    rw [List.mapM_cons, hb, hbs]
    rfl

/-- A row of computations that each give a value in relation to an image gives a row of values in
relation to the images. -/
theorem exists_mapM_forall₂_map {f : α → Except ε β} {R : β → γ → Prop} {g : α → γ} {l : List α}
    (h : ∀ a ∈ l, ∃ b, f a = .ok b ∧ R b (g a)) :
    ∃ bs, l.mapM f = .ok bs ∧ List.Forall₂ R bs (l.map g) := by
  obtain ⟨bs, cs, hbs, hrelated, hcs⟩ := exists_mapM_forall₂ (S := fun a c => g a = c)
    fun a ha => (h a ha).imp fun b hb => ⟨g a, hb.1, hb.2, rfl⟩
  rw [← List.forall₂_map_left_iff, List.forall₂_eq_eq_eq] at hcs
  exact ⟨bs, hbs, hcs ▸ hrelated⟩

theorem exists_map_eq_ok_iff {x : Except ε α} {f : α → β} :
    (∃ b, (x >>= fun a => pure (f a)) = .ok b) ↔ ∃ a, x = .ok a := by
  cases x with
  | error e => simp [bind, Except.bind]
  | ok a => simp [bind, Except.bind, pure, Except.pure]

@[simp] theorem ok_bind (a : α) (f : α → Except ε β) : (Except.ok a >>= f) = f a := rfl

end SpacingClasses
