import Observatory.Time.Instant

/-! Writing instants.

An instant is written as `YYYY-MM-DDThh:mm:ss` with a fraction of exactly as many
of three, six or nine digits as it needs, none for a whole second, and a mark for
universal time. Years outside 0 to 9999 have a sign. -/
namespace Observatory.Instant

/-- A natural number with zeros in front up to a width. -/
def padded (width n : Nat) : List Char :=
  let digits := Nat.toDigits 10 n
  List.replicate (width - digits.length) '0' ++ digits

/-- A year, with a sign when it has not four digits. -/
def yearText (year : Int) : List Char :=
  if 0 ≤ year ∧ year ≤ 9999 then padded 4 year.toNat
  else (if year < 0 then '-' else '+') :: padded 4 year.natAbs

/-- The shortest exact fraction among none, three, six and nine digits. -/
def fractionText (nanosecond : Nat) : List Char :=
  if nanosecond = 0 then []
  else if nanosecond % 1000000 = 0 then '.' :: padded 3 (nanosecond / 1000000)
  else if nanosecond % 1000 = 0 then '.' :: padded 6 (nanosecond / 1000)
  else '.' :: padded 9 nanosecond

def chars (t : Instant) : List Char :=
  yearText t.date.year ++ '-' :: padded 2 t.date.month ++ '-' :: padded 2 t.date.day ++
    'T' :: padded 2 t.hour.val ++ ':' :: padded 2 t.minute.val ++ ':' :: padded 2 t.second.val ++
    fractionText t.nanosecond.val

/-- The written form in documents, marked by `Z`. -/
def text (t : Instant) : String := String.ofList (t.chars ++ ['Z'])

/-- The form inside displayed intervals, marked by a zero offset. -/
def display (t : Instant) : String := String.ofList (t.chars ++ "+00:00".toList)

end Observatory.Instant
