import SpacingClasses.Json.Writer
import SpacingClasses.Proofs.Value.Plain

/-!
# Where writing stops

JSON inside a class name has a form for every plain value but one thing: a key of bytes, or a tuple
for a key.

* `StopsIff odd x` : the computation `x` stops at such a key exactly if `odd` holds, and otherwise
  gives a value;
* `StopsIff.bind` : two computations in a row stop exactly if one of them does;
* `Json.stopsIff_write` : **the JSON of a plain value** stops exactly if the value has such a key
  somewhere.
-/

namespace SpacingClasses

variable {α β : Type} {odd odd' : Prop}

/-! ### Stopping at a key -/

/-- The kinds of the keys that JSON has no way to write. -/
def oddKinds : List Text := ["bytes", "tuple"]

/-- The computation stops at a key that cannot be written, exactly if `odd` holds. -/
inductive StopsIff (odd : Prop) : Except Failure α → Prop where
  | stops {kind : Text} (h : odd) (hkind : kind ∈ oddKinds) :
      StopsIff odd (.error (.unwritableKey kind))
  | gives (h : ¬ odd) (a : α) : StopsIff odd (.ok a)

namespace StopsIff

variable {x : Except Failure α} {f : α → Except Failure β}

theorem of_exists (h : ∃ a, x = .ok a) (hodd : ¬ odd) : StopsIff odd x := by
  obtain ⟨a, rfl⟩ := h
  exact .gives hodd a

theorem congr (h : StopsIff odd x) (hiff : odd ↔ odd') : StopsIff odd' x := by
  rwa [← propext hiff]

theorem bind (hx : StopsIff odd x) (hf : ∀ a, StopsIff odd' (f a)) :
    StopsIff (odd ∨ odd') (x >>= f) := by
  cases hx with
  | stops h hkind => exact .stops (.inl h) hkind
  | gives h a =>
    rw [ok_bind]
    exact (hf a).congr ⟨.inr, fun h' => h'.resolve_left h⟩

/-- What is made of the value makes no difference. -/
theorem map (hx : StopsIff odd x) (g : α → β) : StopsIff odd (x >>= fun a => pure (g a)) := by
  have hpure : ∀ a, StopsIff False (pure (g a) : Except Failure β) :=
    fun a => .gives not_false (g a)
  exact (hx.bind hpure).congr (or_iff_left not_false)

theorem exists_ok_iff (h : StopsIff odd x) : (∃ a, x = .ok a) ↔ ¬ odd := by
  cases h with
  | stops h hkind => simp [h]
  | gives h a => simp [h]

theorem kind_of_error (h : StopsIff odd x) {failure : Failure} (hx : x = .error failure) :
    ∃ kind ∈ oddKinds, failure = .unwritableKey kind := by
  cases h with
  | stops h hkind =>
    cases hx
    exact ⟨_, hkind, rfl⟩
  | gives h a => cases hx

end StopsIff

/-! ### JSON -/

namespace Json

open Value (Plain PlainKey OddKey OddKeyed)

variable {level : Nat} {k v : Value} {items : List Value} {entries : List (Value × Value)}

theorem stopsIff_keyText (h : PlainKey k) : StopsIff (OddKey k) (keyText inlineFormat k) := by
  cases h with
  | int h =>
    exact .of_exists (Integer.exists_write (Nat.le_of_lt (Value.length_le_maxDigits h))) nofun
  | bytes bs => exact .stops (.bytes bs) List.mem_cons_self
  | tuple h => exact .stops (.tuple _) (List.mem_cons_of_mem _ List.mem_cons_self)
  | null | bool b | float x | text t => exact .gives nofun _

theorem stopsIff_writeItems
    (h : ∀ v ∈ items, StopsIff (OddKeyed v) (write inlineFormat level v)) :
    StopsIff (∃ v ∈ items, OddKeyed v) (writeItems inlineFormat level items) := by
  induction items with
  | nil => exact .gives (by simp) []
  | cons v items ih =>
    rw [List.forall_mem_cons] at h
    rw [writeItems]
    refine (h.1.bind fun t => (ih h.2).map _).congr ?_
    simp only [List.mem_cons, exists_eq_or_imp]

/-- The entries are written one by one, each its key first. -/
theorem stopsIff_writeEntries (hkeys : ∀ e ∈ entries, PlainKey e.1)
    (hvalues : ∀ e ∈ entries, StopsIff (OddKeyed e.2) (write inlineFormat level e.2)) :
    StopsIff (∃ e ∈ entries, OddKey e.1 ∨ OddKeyed e.2)
      ((writeEntries inlineFormat level entries).mapM (·.2)) := by
  induction entries with
  | nil => exact .gives (by simp) []
  | cons e entries ih =>
    rw [List.forall_mem_cons] at hkeys hvalues
    rw [writeEntries, List.mapM_cons]
    have hentry := (stopsIff_keyText hkeys.1).bind fun key => hvalues.1.map fun value =>
      writeText inlineFormat.asciiOnly key ++ colon inlineFormat ++ value
    refine (hentry.bind fun t => (ih hkeys.2 hvalues.2).map _).congr ?_
    simp only [List.mem_cons, exists_eq_or_imp]

/-- **The JSON of a plain value** inside a class name stops exactly if somewhere in the value there
is a key that JSON has no way to write. -/
theorem stopsIff_write (h : Plain v) (level : Nat) :
    StopsIff (OddKeyed v) (write inlineFormat level v) := by
  -- for every level, as what is nested stands one level deeper
  induction h generalizing level with
  | int h =>
    exact .of_exists (Integer.exists_write (Nat.le_of_lt (Value.length_le_maxDigits h))) nofun
  | list h ih =>
    rw [write]
    refine .congr ?_ Value.oddKeyed_list.symm
    exact (stopsIff_writeItems fun v hv => ih v hv _).map _
  | tuple h ih =>
    rw [write]
    refine .congr ?_ Value.oddKeyed_tuple.symm
    exact (stopsIff_writeItems fun v hv => ih v hv _).map _
  | dict hkeys _ ih =>
    rw [write]
    refine .congr ?_ Value.oddKeyed_dict.symm
    exact (stopsIff_writeEntries hkeys fun e he => ih e he _).map _
  | null | bool b | float x | decimal d | bytes bs | text t => exact .gives nofun _

end Json

end SpacingClasses
