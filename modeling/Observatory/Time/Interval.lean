import Observatory.Time.Printer
import Observatory.Time.Reader
import Observatory.Text.Items

/-! Intervals of time.

An interval is closed and may be open-ended on either side. It is written as its
two bounds with a slash between them, an open bound as two dots. -/
namespace Observatory

/-- The instants from a start to an end, both included, each bound optional. -/
structure TimeInterval where
  start : Option Instant
  stop : Option Instant
deriving DecidableEq

/-- Why a text is no instant or interval. -/
inductive TimeError where
  | invalidFormat (text : String)
  | inverted (text : String)
deriving DecidableEq

namespace TimeError

def message : TimeError → String
  | invalidFormat text => "Invalid time format: " ++ text
  | inverted text => "Interval start is after its end: " ++ text

end TimeError

def Instant.parse (s : String) : Except TimeError Instant :=
  match Instant.read? s with
  | some t => .ok t
  | none => .error (.invalidFormat s)

namespace TimeInterval

/-- The interval between two bounds; none if both are open. -/
def ofBounds? (start stop : Option Instant) : Option TimeInterval :=
  if start.isNone && stop.isNone then none else some ⟨start, stop⟩

def contains (i : TimeInterval) (t : Instant) : Bool :=
  i.start.all (· ≤ t) && i.stop.all (t ≤ ·)

/-- Whether the bounds, where both are given, are in order. -/
def isOrdered (i : TimeInterval) : Bool :=
  match i.start, i.stop with
  | some a, some b => a ≤ b
  | _, _ => true

/-- Reads a bound: nothing or two dots leave it open. -/
def parseBound (cs : List Char) : Except TimeError (Option Instant) :=
  let bound := String.ofList (Text.trimChars cs)
  if bound = "" ∨ bound = ".." then .ok none else (Instant.parse bound).map some

/-- Reads an interval: two bounds around a slash, or one instant that is both. -/
def parse (s : String) : Except TimeError TimeInterval :=
  let text := Text.trim s
  match Text.cut '/' text.toList with
  | (_, none) => (Instant.parse text).map fun t => ⟨some t, some t⟩
  | (first, some second) => do
    let start ← parseBound first
    let stop ← parseBound second
    let interval : TimeInterval := ⟨start, stop⟩
    if interval.isOrdered then .ok interval else .error (.inverted text)

def boundText : Option Instant → String
  | none => ".."
  | some t => t.display

def display (i : TimeInterval) : String := boundText i.start ++ "/" ++ boundText i.stop

end TimeInterval
end Observatory
