import Observatory.Model.Observation

/-! Sentinels for missing measurements.

Stores mark a missing measurement by an agreed value such as `-9999`. The configured
texts are compared with numbers where they read as numbers, with texts verbatim. -/
namespace Observatory

/-- The configured sentinels. -/
structure NoData where
  raw : List String
deriving DecidableEq

namespace NoData

/-- How close a double has to come to a sentinel. -/
def tolerance : Float := 1e-4

def ofItems (s : String) : NoData := ⟨Text.items s⟩

/-- The sentinels that read as finite doubles. -/
def decimals (n : NoData) : List Float :=
  n.raw.filterMap fun s => (Number.readFloat? (Text.trim s)).filter Number.isFinite

/-- The sentinels that read as whole numbers. -/
def integers (n : NoData) : List Int64 := n.raw.filterMap fun s => Text.int64? (Text.trim s)

def isEmpty (n : NoData) : Bool := n.raw.isEmpty

/-- Whether a double is a sentinel, up to the tolerance. -/
def matchesDecimal (n : NoData) (x : Float) : Bool :=
  n.decimals.any fun sentinel => (sentinel - x).abs < tolerance

def matchesInteger (n : NoData) (k : Int64) : Bool := n.integers.contains k

def matchesText (n : NoData) (s : String) : Bool := n.raw.contains s

/-- Whether a double that may not be there is missing. -/
def lacksDecimal (n : NoData) (x : Option Float) : Bool := x.all n.matchesDecimal

/-- Whether a whole number that may not be there is missing. -/
def lacksInteger (n : NoData) (k : Option Int64) : Bool := k.all n.matchesInteger

/-- Whether a text that may not be there is missing. -/
def lacksText (n : NoData) (s : Option String) : Bool := s.all n.matchesText

/-- Whether a raw value is missing: null, or a sentinel of its kind. The levels of a
profile are looked at one by one elsewhere. -/
def isMissing (n : NoData) : RawValue → Bool
  | .null => true
  | .quantity x => n.lacksDecimal (some x)
  | .count k => n.lacksInteger (some k)
  | .text s => n.lacksText (some s)
  | .profile _ => false

end NoData
end Observatory
