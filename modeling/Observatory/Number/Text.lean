import Observatory.Number.Shortest
import Observatory.Text.Numeral

/-! Doubles in text.

A `Layout` fixes what is free once the digits are chosen: up to where numbers are
written without an exponent, how the exponent is signed, and whether a whole
number keeps a fraction digit. Two layouts are in use: plain display, which never
has an exponent, and the form of structured documents. -/
namespace Observatory.Number

/-- How a double is written once its digits are chosen. -/
structure Layout where
  tie : Tie
  /-- The exponents of the leading digit that are written without an exponent, or
  none if all are. -/
  plain : Option (Int × Int)
  /-- Whether a whole number written plainly ends in `.0`. -/
  pointZero : Bool
  /-- Whether a positive exponent has a sign. -/
  plus : Bool

/-- Plain display: no exponent, no fraction for whole numbers, and a half goes up. -/
def Layout.display : Layout := ⟨.upward, none, false, false⟩

/-- Numbers of structured documents: always a fraction or an exponent. -/
def Layout.document : Layout := ⟨.toEven, some (-5, 15), true, true⟩

/-- Numbers that are kept as text in a list of sentinels. -/
def Layout.sentinel : Layout := ⟨.toEven, some (-5, 15), true, false⟩

def digitText (n : Nat) : List Char := Nat.toDigits 10 n

/-- Whole digits and fraction digits of `digits * 10 ^ exponent`. -/
def plainParts (digits : Nat) (exponent : Int) : List Char × List Char :=
  let text := digitText digits
  if 0 ≤ exponent then (text ++ List.replicate exponent.toNat '0', [])
  else
    let places := (-exponent).toNat
    let padded := List.replicate (places + 1 - text.length) '0' ++ text
    (padded.take (padded.length - places), padded.drop (padded.length - places))

/-- The text of `digits * 10 ^ exponent` without an exponent. -/
def plainText (pointZero : Bool) (digits : Nat) (exponent : Int) : List Char :=
  match plainParts digits exponent with
  | (whole, []) => if pointZero then whole ++ ['.', '0'] else whole
  | (whole, fraction) => whole ++ '.' :: fraction

def exponentText (plus : Bool) (n : Int) : List Char :=
  if n < 0 then '-' :: digitText n.natAbs
  else if plus then '+' :: digitText n.natAbs
  else digitText n.natAbs

/-- The text of `digits * 10 ^ exponent` in a layout. -/
def Layout.write (layout : Layout) (digits : Nat) (exponent : Int) : List Char :=
  let text := digitText digits
  let lead := exponent + (text.length : Int) - 1
  let inPlain := match layout.plain with
    | none => true
    | some (low, high) => low ≤ lead && lead ≤ high
  if inPlain then plainText layout.pointZero digits exponent
  else
    let mantissa := match text with
      | first :: second :: rest => first :: '.' :: second :: rest
      | _ => text
    mantissa ++ 'e' :: exponentText layout.plus lead

def Layout.text (layout : Layout) (x : Float) : String :=
  match Binary64.ofFloat x with
  | .notNumber => "NaN"
  | .infinite false => "inf"
  | .infinite true => "-inf"
  | .finite negative m q =>
    let body :=
      if m = 0 then plainText layout.pointZero 0 0
      else layout.write (shortest layout.tie m q).1 (shortest layout.tie m q).2
    String.ofList (if negative then '-' :: body else body)

def display (x : Float) : String := Layout.display.text x

/-- The double nearest to `digits * 10 ^ exponent`, with a sign. A number of more than
310 whole digits is too large for every double, and one with more than 330 zeros after
the point too small, so their powers of ten are not computed. -/
def nearestFloat (negative : Bool) (digits : Nat) (exponent : Int) : Float :=
  let whole := exponent + (digitText digits).length
  let x :=
    if digits = 0 ∨ whole < -330 then 0
    else if 310 < whole then 1 / 0
    else Float.ofScientific digits (exponent < 0) exponent.natAbs
  if negative then -x else x

/-- Reads an exponent: a sign if there is one, then digits. -/
def readExponent? (cs : List Char) : Option Int := Text.signedDigits? 10 cs

/-- Reads digits with an optional point and an optional exponent. At least one
digit stands before the exponent. -/
def readDecimal? (cs : List Char) : Option (Nat × Int) :=
  let whole := cs.takeWhile Text.isDigit
  let afterWhole := cs.dropWhile Text.isDigit
  let (fraction, rest) := match afterWhole with
    | '.' :: more => (more.takeWhile Text.isDigit, more.dropWhile Text.isDigit)
    | _ => ([], afterWhole)
  do
    let digits ← Text.digits? 10 (whole ++ fraction)
    let exponent ← match rest with
      | [] => some 0
      | 'e' :: more => readExponent? more
      | 'E' :: more => readExponent? more
      | _ => none
    return (digits, exponent - (fraction.length : Int))

/-- Reads a double without its sign: a decimal number, or `inf`, `infinity` or
`nan` in any case. -/
def readUnsigned? (negative : Bool) (cs : List Char) : Option Float :=
  let word := cs.map Char.toLower
  let infinity : Float := 1 / 0
  if word = "inf".toList ∨ word = "infinity".toList then some (if negative then -infinity else infinity)
  else if word = "nan".toList then some (0 / 0)
  else (readDecimal? cs).map fun (digits, exponent) => nearestFloat negative digits exponent

/-- Reads a double: the nearest one to the decimal number written. -/
def readFloat? (s : String) : Option Float :=
  match s.toList with
  | '-' :: rest => readUnsigned? true rest
  | '+' :: rest => readUnsigned? false rest
  | cs => readUnsigned? false cs

def isFinite (x : Float) : Bool := x.isFinite

end Observatory.Number
