/-! Whole numbers in text.

A numeral is a non-empty run of digits of a radix, with an optional sign where
signs are allowed. Ids are signed 64-bit numbers, depths unsigned ones; a numeral
outside the range is no number. -/
namespace Observatory.Text

/-- The value of a digit in radix sixteen or less. -/
def digitValue? (radix : Nat) (c : Char) : Option Nat :=
  let value :=
    if '0' ≤ c ∧ c ≤ '9' then some (c.toNat - '0'.toNat)
    else if 'a' ≤ c ∧ c ≤ 'f' then some (c.toNat - 'a'.toNat + 10)
    else if 'A' ≤ c ∧ c ≤ 'F' then some (c.toNat - 'A'.toNat + 10)
    else none
  value.filter (· < radix)

def isDigit (c : Char) : Bool := '0' ≤ c && c ≤ '9'

/-- The value of the digits that follow a number read so far. -/
def digitsFrom? (radix : Nat) : Nat → List Char → Option Nat
  | value, [] => some value
  | value, c :: rest => do digitsFrom? radix (value * radix + (← digitValue? radix c)) rest

/-- The value of a non-empty run of digits. -/
def digits? (radix : Nat) : List Char → Option Nat
  | [] => none
  | cs => digitsFrom? radix 0 cs

/-- The value of an optional sign and a run of digits. -/
def signedDigits? (radix : Nat) : List Char → Option Int
  | '-' :: rest => (digits? radix rest).map fun n => -(n : Int)
  | '+' :: rest => (digits? radix rest).map fun n => (n : Int)
  | cs => (digits? radix cs).map fun n => (n : Int)

/-- The signed 64-bit number of that value, if there is one. -/
def int64OfInt? (n : Int) : Option Int64 :=
  if Int64.minValue.toInt ≤ n ∧ n ≤ Int64.maxValue.toInt then some (Int64.ofInt n) else none

def int32OfInt? (n : Int) : Option Int32 :=
  if Int32.minValue.toInt ≤ n ∧ n ≤ Int32.maxValue.toInt then some (Int32.ofInt n) else none

def uint64OfInt? (n : Int) : Option UInt64 :=
  if 0 ≤ n ∧ n < UInt64.size then some (UInt64.ofNat n.toNat) else none

/-- Reads a signed 64-bit number: an optional sign and decimal digits. -/
def int64? (s : String) : Option Int64 := (signedDigits? 10 s.toList).bind int64OfInt?

/-- Reads an unsigned 64-bit number: an optional plus sign and decimal digits. -/
def uint64? (s : String) : Option UInt64 :=
  match s.toList with
  | '+' :: rest => (digits? 10 rest).bind fun n => uint64OfInt? n
  | cs => (digits? 10 cs).bind fun n => uint64OfInt? n

end Observatory.Text
