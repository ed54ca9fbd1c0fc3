import SpacingClasses.Proofs.Number.Digits
import SpacingClasses.Proofs.Outcome
import SpacingClasses.Value.Display

/-!
# Plain values

The values that data is made of: no shapes, no props, no dates, and no integer that is too long to
be written.

* `Value.PlainKey`, `Value.Plain` : the keys of plain dictionaries, and plain values;
* `Value.OddKeyed v` : somewhere in `v` a dictionary has a key of bytes, or a tuple for a key;
* `PlainKey.exists_display` : every key of a plain dictionary is displayed.
-/

namespace SpacingClasses

namespace Value

/-! ### Data -/

/-- The most digits that an integer of a plain value has. -/
def plainDigits : Nat := 4000

/-- A key of a plain dictionary. -/
inductive PlainKey : Value → Prop where
  | null : PlainKey .null
  | bool (b : Bool) : PlainKey (.bool b)
  | int {n : Int} (h : (Text.ofNat n.natAbs).length ≤ plainDigits) : PlainKey (.int n)
  | float (x : Double) : PlainKey (.float x)
  | text (t : Text) : PlainKey (.text t)
  | bytes (bs : List UInt8) : PlainKey (.bytes bs)
  | tuple {keys : List Value} (h : ∀ k ∈ keys, PlainKey k) : PlainKey (.tuple keys)

/-- A value made of texts, bytes, numbers, truth values and nothing, in lists, tuples and
dictionaries of any depth. -/
inductive Plain : Value → Prop where
  | null : Plain .null
  | bool (b : Bool) : Plain (.bool b)
  | int {n : Int} (h : (Text.ofNat n.natAbs).length ≤ plainDigits) : Plain (.int n)
  | float (x : Double) : Plain (.float x)
  | decimal (d : Decimal) : Plain (.decimal d)
  | bytes (bs : List UInt8) : Plain (.bytes bs)
  | text (t : Text) : Plain (.text t)
  | list {items : List Value} (h : ∀ v ∈ items, Plain v) : Plain (.list items)
  | tuple {items : List Value} (h : ∀ v ∈ items, Plain v) : Plain (.tuple items)
  | dict {entries : List (Value × Value)} (hkeys : ∀ e ∈ entries, PlainKey e.1)
      (hvalues : ∀ e ∈ entries, Plain e.2) : Plain (.dict entries)

/-- A key that JSON has no way to write. -/
inductive OddKey : Value → Prop where
  | bytes (bs : List UInt8) : OddKey (.bytes bs)
  | tuple (keys : List Value) : OddKey (.tuple keys)

/-- Somewhere in the value a dictionary has such a key. -/
inductive OddKeyed : Value → Prop where
  | list {items : List Value} {v : Value} (hv : v ∈ items) (h : OddKeyed v) : OddKeyed (.list items)
  | tuple {items : List Value} {v : Value} (hv : v ∈ items) (h : OddKeyed v) :
      OddKeyed (.tuple items)
  | key {entries : List (Value × Value)} {e : Value × Value} (he : e ∈ entries) (h : OddKey e.1) :
      OddKeyed (.dict entries)
  | value {entries : List (Value × Value)} {e : Value × Value} (he : e ∈ entries)
      (h : OddKeyed e.2) : OddKeyed (.dict entries)

variable {items : List Value} {entries : List (Value × Value)} {k : Value}

theorem oddKeyed_list : OddKeyed (.list items) ↔ ∃ v ∈ items, OddKeyed v := by
  constructor
  · intro h
    cases h with
    | list hv h => exact ⟨_, hv, h⟩
  · rintro ⟨v, hv, h⟩
    exact .list hv h

theorem oddKeyed_tuple : OddKeyed (.tuple items) ↔ ∃ v ∈ items, OddKeyed v := by
  constructor
  · intro h
    cases h with
    | tuple hv h => exact ⟨_, hv, h⟩
  · rintro ⟨v, hv, h⟩
    exact .tuple hv h

theorem oddKeyed_dict :
    OddKeyed (.dict entries) ↔ ∃ e ∈ entries, OddKey e.1 ∨ OddKeyed e.2 := by
  constructor
  · intro h
    cases h with
    | key he h => exact ⟨_, he, .inl h⟩
    | value he h => exact ⟨_, he, .inr h⟩
  · rintro ⟨e, he, h | h⟩
    · exact .key he h
    · exact .value he h

/-! ### Keys in words -/

theorem length_le_maxDigits {n : Int} (h : (Text.ofNat n.natAbs).length ≤ plainDigits) :
    (Text.ofNat n.natAbs).length < Integer.maxDigits :=
  Nat.lt_of_le_of_lt h (by decide)

theorem exists_inspectItems (h : ∀ v ∈ items, ∃ t, inspect v = .ok t) :
    ∃ ts, inspectItems items = .ok ts := by
  induction items with
  | nil => exact ⟨[], rfl⟩
  | cons v items ih =>
    obtain ⟨t, ht⟩ := h v List.mem_cons_self
    obtain ⟨ts, hts⟩ := ih fun w hw => h w (List.mem_cons_of_mem _ hw)
    exact ⟨t :: ts, by rw [inspectItems, ht, hts]; rfl⟩

theorem PlainKey.exists_inspect (h : PlainKey k) : ∃ t, inspect k = .ok t := by
  induction h with
  | null => exact ⟨_, rfl⟩
  | bool b => exact ⟨_, rfl⟩
  | int h => exact Integer.exists_write (Nat.le_of_lt (length_le_maxDigits h))
  | float x => exact ⟨_, rfl⟩
  | text t => exact ⟨_, rfl⟩
  | bytes bs => exact ⟨_, rfl⟩
  | tuple h ih =>
    obtain ⟨ts, hts⟩ := exists_inspectItems ih
    exact ⟨_, by rw [inspect, hts]; rfl⟩

/-- Every key of a plain dictionary is displayed. -/
theorem PlainKey.exists_display (h : PlainKey k) : ∃ t, k.display = .ok t := by
  have hinspect := h.exists_inspect
  cases h with
  | text t => exact ⟨t, rfl⟩
  | _ => exact hinspect

end Value

end SpacingClasses
