import Observatory.Number.Binary64

/-! The fewest digits that read back.

A double is written with the fewest decimal digits that name it and no other
double, and of those with the nearest. The reals that round to `m * 2 ^ q` form an
interval around it, closed exactly when `m` is even; on each decimal grid the two
neighbours of the value are tried, coarse grids first. -/
namespace Observatory.Number

/-- Which neighbour is taken when the value lies halfway between two. -/
inductive Tie where
  | upward
  | toEven
deriving Repr, DecidableEq

/-- A positive rational interval around a value, over one denominator. -/
structure Interval where
  low : Nat
  value : Nat
  high : Nat
  denominator : Nat
  /-- Whether the ends belong to it. -/
  closed : Bool

namespace Interval

/-- The reals that round to `m * 2 ^ q`. Below a power of two the doubles lie twice
as close, except at the bottom of the range. -/
def ofBinary (m : Nat) (q : Int) : Interval :=
  let below := if m = Nat.pow 2 52 ∧ q ≠ -1074 then 1 else 2
  let scale := Nat.pow 2 (q - 2).toNat
  { low := (4 * m - below) * scale
    value := 4 * m * scale
    high := (4 * m + 2) * scale
    denominator := Nat.pow 2 (2 - q).toNat
    closed := m % 2 = 0 }

/-- The interval in units of `10 ^ k`. -/
def inUnits (i : Interval) (k : Int) : Interval :=
  let up := Nat.pow 10 (-k).toNat
  { low := i.low * up
    value := i.value * up
    high := i.high * up
    denominator := i.denominator * Nat.pow 10 k.toNat
    closed := i.closed }

def contains (i : Interval) (d : Nat) : Bool :=
  let x := d * i.denominator
  if i.closed then i.low ≤ x && x ≤ i.high else i.low < x && x < i.high

/-- The whole number in the interval that is nearest to its value, tried among the
two neighbours of the value. -/
def nearest? (tie : Tie) (i : Interval) : Option Nat :=
  let d := i.value / i.denominator
  let rest := i.value % i.denominator
  match i.contains d, i.contains (d + 1) with
  | false, false => none
  | true, false => some d
  | false, true => some (d + 1)
  | true, true =>
    if 2 * rest < i.denominator then some d
    else if 2 * rest > i.denominator then some (d + 1)
    else match tie with
      | .upward => some (d + 1)
      | .toEven => some (if d % 2 = 0 then d else d + 1)

/-- The exponent of the leading decimal digit of the value `m * 2 ^ q`. The
logarithm of two is close enough to 0.30103 for the guess to be off by at most
one. -/
def leadingExponent (i : Interval) (m : Nat) (q : Int) : Int :=
  let guess := ((m.log2 + q) * 30103) / 100000
  let atLeast (k : Int) : Bool := i.denominator * Nat.pow 10 k.toNat ≤ i.value * Nat.pow 10 (-k).toNat
  if atLeast (guess + 1) then guess + 1 else if atLeast guess then guess else guess - 1

end Interval

/-- A number `digits * 10 ^ exponent` without trailing zero digits. -/
def stripZeros : Nat → Nat → Int → Nat × Int
  | 0, digits, exponent => (digits, exponent)
  | fuel + 1, digits, exponent =>
    if digits ≠ 0 ∧ digits % 10 = 0 then stripZeros fuel (digits / 10) (exponent + 1)
    else (digits, exponent)

/-- Digits and decimal exponent of the shortest text of `m * 2 ^ q`, for positive
`m`. Seventeen digits always suffice. -/
def shortest (tie : Tie) (m : Nat) (q : Int) : Nat × Int :=
  let i := Interval.ofBinary m q
  let lead := i.leadingExponent m q
  let found := (List.range 17).findSome? fun (n : Nat) =>
    let k := lead - (n : Int)
    ((i.inUnits k).nearest? tie).map fun digits => (digits, k)
  let (digits, k) := found.getD (0, 0)
  stripZeros 20 digits k

end Observatory.Number
