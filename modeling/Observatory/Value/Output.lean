import Observatory.Model.Dataset
import Observatory.Model.Observation
import Observatory.Number.Decimal

/-! Converted values.

The answer for an observation: its time, its value, and whatever else was asked for.
An answer without time and value stands for a missing observation. -/
namespace Observatory
open Document

/-- A converted value without levels. -/
inductive ScalarValue where
  | quantity (value : Number.Decimal)
  | count (value : Int64)
  | text (value : String)

structure ProfileItem where
  /-- Where the level starts, if levels are given as intervals. -/
  verticalFrom : Option Float
  vertical : Option Float
  value : Option ScalarValue

structure Profile where
  verticalUnit : Option String
  items : List ProfileItem

/-- A converted value. -/
inductive OutputData where
  | scalar (value : ScalarValue)
  | profile (value : Profile)

/-- The answer for one observation. -/
structure OutputValue where
  timestart : Option Instant
  timestamp : Option Instant
  /-- None for a missing measurement. -/
  value : Option OutputData
  validTime : Option TimeInterval
  resultTime : Option Instant
  parameters : List Parameter
  geometry : Option (Geometry Float)

/-- The numeric view of a converted value. -/
def OutputData.decimal? : OutputData → Option Number.Decimal
  | scalar (.quantity d) => some d
  | scalar (.count n) => some (Number.Decimal.ofInt64 n)
  | _ => none

namespace OutputValue

/-- The answer for a missing observation. -/
def empty : OutputValue where
  timestart := none
  timestamp := none
  value := none
  validTime := none
  resultTime := none
  parameters := []
  geometry := none

def isEmpty (o : OutputValue) : Bool := o.timestamp.isNone && o.value.isNone

end OutputValue

/-! ### Documents -/

def ScalarValue.toDocument : ScalarValue → Document
  | quantity d => .text d.text
  | count n => .integer n.toInt
  | text s => .text s

def ProfileItem.toDocument (i : ProfileItem) : Document :=
  .record (
    fieldIfSome "verticalFrom" ofFloat i.verticalFrom ++
    field "verticalTo" (ofOption ofFloat i.vertical) ++
    field "value" (ofOption ScalarValue.toDocument i.value))

def Profile.toDocument (p : Profile) : Document :=
  .record (
    fieldIfSome "verticalUnit" .text p.verticalUnit ++
    field "items" (ofList ProfileItem.toDocument p.items))

def OutputData.toDocument : OutputData → Document
  | scalar v => v.toDocument
  | profile p => p.toDocument

def OutputValue.toDocument (o : OutputValue) : Document :=
  .record (
    fieldIfSome "timestart" Instant.toDocument o.timestart ++
    fieldIfSome "timestamp" Instant.toDocument o.timestamp ++
    field "value" (ofOption OutputData.toDocument o.value) ++
    fieldIfSome "validTime" TimeInterval.toDocument o.validTime ++
    fieldIfSome "resultTime" Instant.toDocument o.resultTime ++
    fieldIfAny "parameters" Parameter.toDocument o.parameters ++
    fieldIfSome "geometry" Geometry.toDocument o.geometry)

end Observatory
