/-! Doubles taken apart.

A double is not a number, or infinite, or exactly a sign, a whole significand and
a power of two. The sixty-four bits say which: one of sign, eleven of exponent,
fifty-two of fraction. -/
namespace Observatory.Number

/-- What a double stands for. -/
inductive Binary64 where
  | notNumber
  | infinite (negative : Bool)
  /-- The number with absolute value `significand * 2 ^ exponent`. -/
  | finite (negative : Bool) (significand : Nat) (exponent : Int)
deriving Repr, DecidableEq

namespace Binary64

/-- The parts of a double. A biased exponent of zero marks zero and the subnormal
numbers, which have no leading one bit. -/
def ofFloat (x : Float) : Binary64 :=
  let bits : Nat := x.toBits.toNat
  let negative := bits ≥ Nat.pow 2 63
  let biased : Nat := bits / Nat.pow 2 52 % Nat.pow 2 11
  let fraction : Nat := bits % Nat.pow 2 52
  if biased = 2047 then
    if fraction = 0 then .infinite negative else .notNumber
  else if biased = 0 then .finite negative fraction (-1074)
  else .finite negative (Nat.pow 2 52 + fraction) ((biased : Int) - 1075)

end Binary64

/-- The double nearest to a whole number; of two equally near ones, the one with an even
significand. -/
def ofInt64 (n : Int64) : Float := .ofModel (.ofInt64 n)

/-- The smaller of two values. Where one of them is not a number, the other. -/
def lesser {K : Type} [LT K] [DecidableLT K] [BEq K] (a b : K) : K :=
  if a < b || b != b then a else b

/-- The greater of two values. Where one of them is not a number, the other. -/
def greater {K : Type} [LT K] [DecidableLT K] [BEq K] (a b : K) : K :=
  if b < a || b != b then a else b

end Observatory.Number
