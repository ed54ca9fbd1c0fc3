import SpacingClasses.Sorting.Basic
import SpacingClasses.Value.Key

/-!
# The order of keys

`Value.keyLess` tells which of two keys comes first, if they have an order, and `Value.sortByKey`
puts entries in the order of their keys.
-/

namespace SpacingClasses.Value

/-- Whether a value is a decimal. -/
def isDecimal : Value → Bool
  | decimal _ => true
  | _ => false

/-- Whether the first of two numbers counts less than the second.  A decimal and something that is
no number have no order; a double that is no number is merely not less than any other double. -/
def quantityLess (a b : Value) (p q : Quantity) : Except Failure Bool :=
  if (p.order? q).isNone && (a.isDecimal || b.isDecimal) then .error .undefinedOrder
  else .ok (p.less q)

mutual

/-- Whether the first of two keys comes before the second: texts in the order of code points,
numbers by what they count, tuples by the first entries that differ. -/
def keyLess : Value → Value → Except Failure Bool
  | text t, text u => .ok (Text.before t u)
  | bytes b, bytes c =>
    .ok (Text.before (b.map fun x => Char.ofNat x.toNat) (c.map fun x => Char.ofNat x.toNat))
  | tuple xs, tuple ys => keysLess xs ys
  | a, b =>
    match Quantity.ofValue? a, Quantity.ofValue? b with
    | some p, some q => quantityLess a b p q
    | _, _ => .error (.unorderedKeys a.fullKind b.fullKind)

/-- Whether one row of keys comes before another. -/
def keysLess : List Value → List Value → Except Failure Bool
  | [], ys => .ok !ys.isEmpty
  | _ :: _, [] => .ok false
  | x :: xs, y :: ys => if sameKey x y then keysLess xs ys else keyLess x y

end

/-- The key of an entry as a text, if it is one. -/
def textKeyed? {α : Type} : Value × α → Option (Text × α)
  | (text key, a) => some (key, a)
  | _ => none

/-- Entries under texts in the order of these, entries with one text as they came. -/
def sortByText {α : Type} (entries : List (Text × α)) : List (Text × α) :=
  entries.mergeSort fun e f => !Text.before f.1 e.1

/-- The entries in the order of their keys.  Texts have a total order; other keys may have none, and
then the comparisons that `Sorting.sort` makes decide. -/
def sortByKey {α : Type} (entries : List (Value × α)) : Except Failure (List (Value × α)) :=
  match entries.mapM textKeyed? with
  | some named => .ok ((sortByText named).map fun (key, a) => (text key, a))
  | none => Sorting.sort (fun e f => keyLess e.1 f.1) entries

end SpacingClasses.Value
