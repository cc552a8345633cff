import Observatory.Number.Text

/-! Decimal numbers of ninety-six bits.

A decimal is a whole coefficient of at most `2 ^ 96 - 1` in absolute value over a
power of ten of at most twenty-eight. Zeros at the end of the fraction are part of
it: `10.00` and `10` are different decimals of one value. Quantities are read off
the plain display of their doubles and rounded half away from zero. -/
namespace Observatory.Number

/-- The largest coefficient, `2 ^ 96 - 1`. -/
def Decimal.limit : Nat := 79228162514264337593543950335

/-- The most fraction digits. -/
def Decimal.maxScale : Nat := 28

/-- The number `coefficient / 10 ^ scale`. -/
structure Decimal where
  coefficient : Int
  scale : Nat
  coefficient_le : coefficient.natAbs ≤ Decimal.limit
  scale_le : scale ≤ Decimal.maxScale
deriving DecidableEq

namespace Decimal

/-- The decimal of that coefficient and scale, if it is in range. -/
def of? (coefficient : Int) (scale : Nat) : Option Decimal :=
  if h : coefficient.natAbs ≤ limit ∧ scale ≤ maxScale then some ⟨coefficient, scale, h.1, h.2⟩
  else none

def ofInt64 (n : Int64) : Decimal where
  coefficient := n.toInt
  scale := 0
  coefficient_le := by
    have h₁ := n.toInt_lt
    have h₂ := n.le_toInt
    rw [limit]
    omega
  scale_le := by decide

/-- A natural number and a half unit more or less: the quotient rounded half up. -/
def roundQuotient (n d : Nat) : Nat := (2 * n + d) / (2 * d)

/-- A natural number with the sign of another number. -/
def withSign (negative : Bool) (n : Nat) : Int := if negative then -(n : Int) else n

/-- The decimal written by the plain digits `digits * 10 ^ exponent`. Of more than
twenty-eight fraction digits the last kept one is rounded by the first dropped
one. -/
def ofDigits? (negative : Bool) (digits : Nat) (exponent : Int) : Option Decimal :=
  if 0 ≤ exponent then of? (withSign negative (digits * Nat.pow 10 exponent.toNat)) 0
  else
    let places := (-exponent).toNat
    if places ≤ maxScale then of? (withSign negative digits) places
    else of? (withSign negative (roundQuotient digits (Nat.pow 10 (places - maxScale)))) maxScale

/-- The decimal that plain display of a double names; none if the double is no
number or out of range. -/
def ofFloat? (x : Float) : Option Decimal :=
  match Binary64.ofFloat x with
  | .finite negative m q =>
    if m = 0 then of? 0 0
    else ofDigits? negative (shortest .upward m q).1 (shortest .upward m q).2
  | _ => none

/-- Appends fraction zeros, at most that many, while the coefficient fits. -/
def pad : Nat → Decimal → Decimal
  | 0, x => x
  | n + 1, x =>
    match of? (x.coefficient * 10) (x.scale + 1) with
    | some y => pad n y
    | none => x

/-- Drops fraction digits down to that many places, a half going away from zero. -/
def drop (places : Nat) (x : Decimal) : Decimal :=
  if places < x.scale then
    let quotient := roundQuotient x.coefficient.natAbs (Nat.pow 10 (x.scale - places))
    (of? (withSign (x.coefficient < 0) quotient) places).getD x
  else x

/-- The number with that many places: rounded half away from zero if it has more,
padded with zeros as far as the coefficient allows if it has fewer. -/
def toPlaces (places : Nat) (x : Decimal) : Decimal :=
  let rounded := x.drop places
  rounded.pad (places - rounded.scale)

/-- Rounding to the number of decimals of a dataset. Without one, or with a
negative one, the number stays as it is; twenty-eight places are the most. -/
def round (decimals : Option Int32) (x : Decimal) : Decimal :=
  match decimals with
  | none => x
  | some n => if n < 0 then x else x.toPlaces (min n.toInt.toNat maxScale)

/-- The digits of a decimal, its fraction as long as its scale. -/
def text (x : Decimal) : String :=
  let body := plainText false x.coefficient.natAbs (-(x.scale : Int))
  String.ofList (if x.coefficient < 0 then '-' :: body else body)

end Decimal

/-- A double rounded to the number of decimals of a dataset. -/
def roundFloat? (x : Float) (decimals : Option Int32) : Option Decimal :=
  (Decimal.ofFloat? x).map (·.round decimals)

end Observatory.Number
