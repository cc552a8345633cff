import Observatory.Time.Instant
import Observatory.Text.Blank
import Observatory.Text.Numeral

/-! Reading instants.

Three forms are read. The strict form has fixed widths and an offset. The local
form has numbers of any width up to the usual one, each after optional blanks, no
fraction and no offset, and is taken as universal time; a date alone means its
midnight. The lenient form, used inside stored documents, has blanks in more
places and always an offset. -/
namespace Observatory.Instant.Reader

/-! ### Steps -/

/-- A character that has to come next. -/
def literal? (expected : Char) : List Char → Option (List Char)
  | c :: rest => if c = expected then some rest else none
  | [] => none

/-- Leading digits, at most as many as the limit if there is one. -/
def leadingDigits (most : Option Nat) (cs : List Char) : List Char :=
  match most with
  | none => cs.takeWhile Text.isDigit
  | some n => (cs.take n).takeWhile Text.isDigit

/-- A number of at least and at most that many digits. -/
def number? (least : Nat) (most : Option Nat) (cs : List Char) : Option (Nat × List Char) :=
  let digits := leadingDigits most cs
  if digits.length < least then none
  else (Text.digits? 10 digits).map fun n => (n, cs.drop digits.length)

/-- A number of exactly that many digits. -/
def fixed? (width : Nat) (cs : List Char) : Option (Nat × List Char) := number? width (some width) cs

/-- A number of one or two digits after optional blanks. -/
def short? (cs : List Char) : Option (Nat × List Char) := number? 1 (some 2) (Text.trimStart cs)

/-- A year after optional blanks: up to four digits, or a sign and any number of
them. -/
def year? (cs : List Char) : Option (Int × List Char) :=
  match Text.trimStart cs with
  | '+' :: rest => (number? 1 none rest).map fun (n, more) => ((n : Int), more)
  | '-' :: rest => (number? 1 none rest).map fun (n, more) => (-(n : Int), more)
  | rest => (number? 1 (some 4) rest).map fun (n, more) => ((n : Int), more)

/-- The nanoseconds that the digits after a point stand for. Digits past the ninth
are dropped. -/
def nanoseconds? (digits : List Char) : Option Nat :=
  let kept := digits.take 9
  (Text.digits? 10 kept).map fun n => n * Nat.pow 10 (9 - kept.length)

/-- A fraction of a second if a point comes next; at least one digit then. -/
def fraction? : List Char → Option (Nat × List Char)
  | '.' :: rest =>
    let digits := rest.takeWhile Text.isDigit
    (nanoseconds? digits).map fun n => (n, rest.dropWhile Text.isDigit)
  | cs => some (0, cs)

/-- The separator of date and time: `T` in either case or a space. -/
def separator? : List Char → Option (List Char)
  | c :: rest => if c = 'T' ∨ c = 't' ∨ c = ' ' then some rest else none
  | [] => none

/-- Minutes of an offset, after its hours. -/
def offsetMinutes? (sign : Int) (hours : Nat) (cs : List Char) : Option (Int × List Char) := do
  let (minutes, rest) ← fixed? 2 cs
  if hours < 24 ∧ minutes < 60 then some (sign * (hours * 60 + minutes), rest) else none

/-- The sign of an offset. -/
def sign? : List Char → Option (Int × List Char)
  | '+' :: rest => some (1, rest)
  | '-' :: rest => some (-1, rest)
  | '−' :: rest => some (-1, rest)
  | _ => none

/-- An offset in minutes, the text between its hours and minutes being skipped by
the function given. -/
def offset? (skip : List Char → Option (List Char)) (cs : List Char) : Option (Int × List Char) :=
  match cs with
  | 'Z' :: rest => some (0, rest)
  | 'z' :: rest => some (0, rest)
  | _ => do
    let (sign, rest) ← sign? cs
    let (hours, rest) ← fixed? 2 rest
    offsetMinutes? sign hours (← skip rest)

/-- The instant with those fields, at that many minutes ahead of universal time. -/
def instant? (year : Int) (month day hour minute second nanosecond : Nat) (offset : Int) :
    Option Instant := do
  let date ← Date.of? year month day
  if h : hour < 24 ∧ minute < 60 ∧ second < 61 ∧ nanosecond < 1000000000 then
    let t : Instant :=
      ⟨date, ⟨hour, h.1⟩, ⟨minute, h.2.1⟩, ⟨second, h.2.2.1⟩, ⟨nanosecond, h.2.2.2⟩⟩
    t.minutesEarlier? offset
  else none

/-! ### Forms -/

/-- The strict form: fixed widths, an optional fraction, an offset with a colon,
nothing else. -/
def strict? (cs : List Char) : Option Instant := do
  let (year, cs) ← fixed? 4 cs
  let (month, cs) ← fixed? 2 (← literal? '-' cs)
  let (day, cs) ← fixed? 2 (← literal? '-' cs)
  let (hour, cs) ← fixed? 2 (← separator? cs)
  let (minute, cs) ← fixed? 2 (← literal? ':' cs)
  let (second, cs) ← fixed? 2 (← literal? ':' cs)
  let (nanosecond, cs) ← fraction? cs
  let (offset, cs) ← offset? (literal? ':') cs
  if cs.isEmpty then instant? year month day hour minute second nanosecond offset else none

/-- The local form: taken as universal time. -/
def local? (cs : List Char) : Option Instant := do
  let (year, cs) ← year? cs
  let (month, cs) ← short? (← literal? '-' cs)
  let (day, cs) ← short? (← literal? '-' cs)
  let (hour, cs) ← short? (← literal? 'T' cs)
  let (minute, cs) ← short? (← literal? ':' cs)
  let (second, cs) ← short? (← literal? ':' cs)
  if cs.isEmpty then instant? year month day hour minute second 0 0 else none

/-- What is left after the mark `UTC` in any case. -/
def universalMark? : List Char → Option (List Char)
  | a :: b :: c :: rest =>
    if [a, b, c].map Char.toLower = ['u', 't', 'c'] then some rest else none
  | _ => none

/-- The lenient form: blanks before every number and around the marks, an offset in
any case. -/
def lenient? (cs : List Char) : Option Instant := do
  let (year, cs) ← year? cs
  let (month, cs) ← short? (← literal? '-' (Text.trimStart cs))
  let (day, cs) ← short? (← literal? '-' (Text.trimStart cs))
  let (hour, cs) ← short? (← separator? cs)
  let (minute, cs) ← short? (← literal? ':' (Text.trimStart cs))
  let (second, cs) ← short? (← literal? ':' (Text.trimStart cs))
  let (nanosecond, cs) ← fraction? cs
  let cs := Text.trimStart cs
  let (offset, cs) ← match universalMark? cs with
    | some rest => some (0, rest)
    | none => offset? (fun rest => some (rest.dropWhile fun c => c = ':' || Text.isBlank c)) cs
  if (Text.trimStart cs).isEmpty then
    instant? year month day hour minute second nanosecond offset
  else none

end Reader

/-- Reads an instant of a request: the strict form, else the local form, else a date
alone. -/
def read? (s : String) : Option Instant :=
  let cs := s.toList
  Reader.strict? cs <|> Reader.local? cs <|> Reader.local? (cs ++ "T00:00:00".toList)

/-- Reads an instant of a stored document. -/
def readStored? (s : String) : Option Instant := Reader.lenient? s.toList

end Observatory.Instant
