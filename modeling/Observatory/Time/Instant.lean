/-! Dates and instants.

An instant is a date of the proleptic Gregorian calendar and a time of day in
universal time, down to the nanosecond. Second sixty is a leap second: it comes
after second fifty-nine and before the next minute. Instants are ordered by their
fields from the year down. -/
namespace Observatory

def isLeapYear (year : Int) : Bool := (year % 4 == 0 && year % 100 != 0) || year % 400 == 0

/-- The number of days of a month. -/
def daysIn (year : Int) (month : Nat) : Nat :=
  if month = 2 then (if isLeapYear year then 29 else 28)
  else if month = 4 ∨ month = 6 ∨ month = 9 ∨ month = 11 then 30
  else 31

/-- A day that exists, in the range of years that instants have. -/
structure Date where
  year : Int
  month : Nat
  day : Nat
  year_range : -262143 ≤ year ∧ year ≤ 262142
  month_range : 1 ≤ month ∧ month ≤ 12
  day_range : 1 ≤ day ∧ day ≤ daysIn year month
deriving DecidableEq

namespace Date

/-- The day with those numbers, if it exists. -/
def of? (year : Int) (month day : Nat) : Option Date :=
  if h : (-262143 ≤ year ∧ year ≤ 262142) ∧ (1 ≤ month ∧ month ≤ 12) ∧
      (1 ≤ day ∧ day ≤ daysIn year month) then
    some ⟨year, month, day, h.1, h.2.1, h.2.2⟩
  else none

def next? (d : Date) : Option Date :=
  if d.day < daysIn d.year d.month then of? d.year d.month (d.day + 1)
  else if d.month < 12 then of? d.year (d.month + 1) 1
  else of? (d.year + 1) 1 1

def previous? (d : Date) : Option Date :=
  if 1 < d.day then of? d.year d.month (d.day - 1)
  else if 1 < d.month then of? d.year (d.month - 1) (daysIn d.year (d.month - 1))
  else of? (d.year - 1) 12 31

end Date

/-- A moment in universal time. -/
structure Instant where
  date : Date
  hour : Fin 24
  minute : Fin 60
  /-- Sixty in a leap second. -/
  second : Fin 61
  nanosecond : Fin 1000000000
deriving DecidableEq

namespace Instant

/-- The fields as one number, the year weighing most. -/
def ordinal (t : Instant) : Int :=
  (((((t.date.year * 13 + t.date.month) * 32 + t.date.day) * 24 + t.hour.val) * 60 +
    t.minute.val) * 61 + t.second.val) * 1000000000 + t.nanosecond.val

instance : LT Instant := ⟨fun s t => s.ordinal < t.ordinal⟩
instance : LE Instant := ⟨fun s t => s.ordinal ≤ t.ordinal⟩
instance : DecidableLT Instant := fun s t => inferInstanceAs (Decidable (s.ordinal < t.ordinal))
instance : DecidableLE Instant := fun s t => inferInstanceAs (Decidable (s.ordinal ≤ t.ordinal))

instance : Trans (fun s t : Instant => s < t) (fun s t : Instant => s < t)
    (fun s t : Instant => s < t) :=
  ⟨fun h₁ h₂ => Int.lt_trans h₁ h₂⟩

/-- The instant that many minutes earlier, for less than a day. The seconds stay as
they are, a leap second among them. -/
def minutesEarlier? (t : Instant) (minutes : Int) : Option Instant :=
  let total := (t.hour.val * 60 + t.minute.val : Int) - minutes
  let onDay (date? : Option Date) (total : Int) : Option Instant :=
    date?.map fun date =>
      { t with
        date := date
        hour := Fin.ofNat 24 (total.toNat / 60)
        minute := Fin.ofNat 60 (total.toNat % 60) }
  if total < 0 then onDay t.date.previous? (total + 1440)
  else if 1440 ≤ total then onDay t.date.next? (total - 1440)
  else onDay (some t.date) total

end Instant
end Observatory
