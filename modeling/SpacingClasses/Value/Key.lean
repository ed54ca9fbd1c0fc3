import SpacingClasses.Value.Basic

/-!
# Keys

The keys of a dictionary.  Two keys are the same when they are equal as values, numbers by what
they count: `1`, `1.0` and `true` are one key.  `Value.insert` keeps a repeated key in its first
place.
-/

namespace SpacingClasses

/-- What a numeric value counts. -/
inductive Quantity where
  | below
  /-- A quotient times a power of ten. -/
  | ratio (num : Int) (den : Nat) (exponent : Int)
  | above
  | undefined
  deriving DecidableEq, Repr

namespace Quantity

/-- How `a * 10 ^ k` stands to `b`.  The power is met only when it could matter: it surpasses a
`b` of fewer than `k` bits by itself. -/
def orderShifted (a : Int) (k : Nat) (b : Int) : Ordering :=
  if a = 0 then compare 0 b
  else if b.natAbs.log2 < k then (if a < 0 then .lt else .gt)
  else compare (a * Nat.pow 10 k) b

/-- How two quantities stand to each other; an undefined one stands to none. -/
def order? : Quantity → Quantity → Option Ordering
  | undefined, _ => none
  | _, undefined => none
  | below, below => some .eq
  | above, above => some .eq
  | below, _ => some .lt
  | _, below => some .gt
  | above, _ => some .gt
  | _, above => some .lt
  | ratio a b e, ratio c d f =>
    some <|
      if f ≤ e then orderShifted (a * d) (e - f).toNat (c * b)
      else (orderShifted (c * b) (f - e).toNat (a * d)).swap

/-- Whether two quantities are equal. -/
def same (p q : Quantity) : Bool := p.order? q == some .eq

/-- Whether one quantity is less than another. -/
def less (p q : Quantity) : Bool := p.order? q == some .lt

/-- A count with its sign. -/
def signed (negative : Bool) (n : Nat) : Int := if negative then -n else n

/-- What a double counts. -/
def ofDouble : Double → Quantity
  | .finite negative m => ratio (signed negative m.units) unitsPerOne 0
  | .infinite negative => if negative then below else above
  | .nan => undefined

/-- What a decimal counts. -/
def ofDecimal : Decimal → Quantity
  | .finite negative coefficient exponent => ratio (signed negative coefficient) 1 exponent
  | .infinite negative => if negative then below else above
  | .nan .. => undefined

/-- What a value counts, if it is a number or a truth value. -/
def ofValue? : Value → Option Quantity
  | .bool b => some (ratio (if b then 1 else 0) 1 0)
  | .int n => some (ratio n 1 0)
  | .float x => some (ofDouble x)
  | .decimal d => some (ofDecimal d)
  | _ => none

end Quantity

namespace Value

mutual

/-- Whether two keys are the same. -/
def sameKey : Value → Value → Bool
  | null, null => true
  | text t, text u => t == u
  | bytes b, bytes c => b == c
  | moment m, moment n => m == n
  | tuple xs, tuple ys => sameKeys xs ys
  | scalar x l, scalar y m => sameKey x y && l == m
  | sequence xs, sequence ys => sameKeys xs ys
  | keyed xs, keyed ys => sameNamed xs ys
  | prop n x r, prop m y q => n == m && sameKey x y && r == q
  | a, b =>
    match Quantity.ofValue? a, Quantity.ofValue? b with
    | some p, some q => p.same q
    | _, _ => false

/-- Whether two rows of keys are the same, one by one. -/
def sameKeys : List Value → List Value → Bool
  | [], [] => true
  | x :: xs, y :: ys => sameKey x y && sameKeys xs ys
  | _, _ => false

/-- Whether two rows of keys under names are the same, one by one. -/
def sameNamed : List (Text × Value) → List (Text × Value) → Bool
  | [], [] => true
  | (n, x) :: xs, (m, y) :: ys => n == m && sameKey x y && sameNamed xs ys
  | _, _ => false

end

/-- The entries with a key set to a value: in its place if the key is there, else at the end. -/
def insert (entries : List (Value × Value)) (key value : Value) : List (Value × Value) :=
  match entries with
  | [] => [(key, value)]
  | (k, v) :: rest => if sameKey k key then (k, value) :: rest else (k, v) :: insert rest key value

/-- The dictionary of a row of entries, the last of those with one key counting. -/
def dictOf (entries : List (Value × Value)) : Value :=
  .dict (entries.foldl (fun d e => insert d e.1 e.2) [])

/-- The value under a text key. -/
def find? (entries : List (Value × Value)) (key : Text) : Option Value :=
  (entries.find? fun e => sameKey e.1 (.text key)).map (·.2)

end Value

end SpacingClasses
