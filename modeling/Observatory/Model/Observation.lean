import Observatory.Time.Document
import Observatory.Space.Document
import Observatory.Model.Dimension

/-! Observations.

An observation carries one raw value, and the value of a profile is a list of
observations, one for each level; so the record is given over the type of its value,
and raw values close the circle. -/
namespace Observatory
open Document

/-- What a parameter is set to. -/
inductive ParameterValue where
  | number (value : Float)
  | text (value : String)

structure Parameter where
  name : String
  value : ParameterValue
  unit : Option String

/-- One measurement with a value of type `V`. -/
structure Measurement (V : Type) where
  id : Id
  dataset : Id
  samplingStart : Option Instant
  samplingEnd : Option Instant
  resultTime : Option Instant
  validStart : Option Instant
  validEnd : Option Instant
  geometry : Option (Geometry Float)
  value : V
  verticalFrom : Option Float
  verticalTo : Option Float
  parameters : List Parameter

/-- The stored value of an observation. -/
inductive RawValue where
  | null
  | quantity (value : Float)
  | count (value : Int64)
  | text (value : String)
  /-- A vertical profile, one observation for each level. -/
  | profile (levels : List (Measurement RawValue))

abbrev Observation := Measurement RawValue

/-- The numeric view of a parameter value; text is trimmed and read as a number. -/
def ParameterValue.number? : ParameterValue → Option Float
  | number x => some x
  | text s => Number.readFloat? (Text.trim s)

def ParameterValue.isText : ParameterValue → Bool
  | number _ => false
  | text _ => true

namespace RawValue

def isNull : RawValue → Bool
  | null => true
  | _ => false

/-- The numeric view used for aggregates: of quantities and counts. -/
def number? : RawValue → Option Float
  | quantity x => some x
  | count n => some (Number.ofInt64 n)
  | _ => none

def kindName : RawValue → String
  | null => "null"
  | quantity _ => "quantity"
  | count _ => "count"
  | text _ => "text"
  | profile _ => "profile"

end RawValue

namespace Measurement

/-- The observation with that id and value and nothing else. -/
def bare {V : Type} (id dataset : Id) (value : V) : Measurement V where
  id := id
  dataset := dataset
  samplingStart := none
  samplingEnd := none
  resultTime := none
  validStart := none
  validEnd := none
  geometry := none
  value := value
  verticalFrom := none
  verticalTo := none
  parameters := []

/-- The observation sampled at one instant. -/
def sampledAt {V : Type} (id dataset : Id) (time : Instant) (value : V) : Measurement V :=
  { bare id dataset value with samplingStart := some time, samplingEnd := some time }

def parameter? {V : Type} (o : Measurement V) (name : String) : Option Parameter :=
  o.parameters.find? (·.name == name)

end Measurement

/-! ### Documents -/

def ParameterValue.toDocument : ParameterValue → Document
  | number x => ofFloat x
  | text s => .text s

/-- Reads a parameter value: a number, else a text. -/
def ParameterValue.ofDocument? (d : Document) : Option ParameterValue := do
  let d ← d.resolve?
  (d.real?.map .number) <|> (d.text?.map .text)

def Parameter.toDocument (p : Parameter) : Document :=
  .record (
    field "name" (.text p.name) ++
    field "value" p.value.toDocument ++
    fieldIfSome "unit" .text p.unit)

def Parameter.ofDocument? (d : Document) : Option Parameter := do
  let fields ← d.structure? ["name", "value", "unit"] 2
  let name ← fields.required "name" text?
  let value ← fields.required "value" ParameterValue.ofDocument?
  let unit ← fields.optional "unit" text?
  return ⟨name, value, unit⟩

/-- An observation as a document, given its value as one. -/
def Measurement.document {V : Type} (o : Measurement V) (value : Document) : Document :=
  .record (
    field "id" (.integer o.id.toInt) ++
    field "dataset" (.integer o.dataset.toInt) ++
    fieldIfSome "sampling_time_start" Instant.toDocument o.samplingStart ++
    fieldIfSome "sampling_time_end" Instant.toDocument o.samplingEnd ++
    fieldIfSome "result_time" Instant.toDocument o.resultTime ++
    fieldIfSome "valid_time_start" Instant.toDocument o.validStart ++
    fieldIfSome "valid_time_end" Instant.toDocument o.validEnd ++
    fieldIfSome "geometry" Geometry.toDocument o.geometry ++
    field "value" value ++
    fieldIfSome "vertical_from" ofFloat o.verticalFrom ++
    fieldIfSome "vertical_to" ofFloat o.verticalTo ++
    fieldIfAny "parameters" Parameter.toDocument o.parameters)

mutual

/-- A raw value as a document: its kind, and its value unless it is null. -/
def RawValue.toDocument : RawValue → Document
  | .null => .record (field "kind" (.text "null"))
  | .quantity x => .record (field "kind" (.text "quantity") ++ field "value" (ofFloat x))
  | .count n => .record (field "kind" (.text "count") ++ field "value" (.integer n.toInt))
  | .text s => .record (field "kind" (.text "text") ++ field "value" (.text s))
  | .profile levels =>
    .record (field "kind" (.text "profile") ++ field "value" (.list (levelsToDocuments levels)))

def levelsToDocuments : List (Measurement RawValue) → List Document
  | [] => []
  | o :: rest => observationToDocument o :: levelsToDocuments rest

def observationToDocument : Measurement RawValue → Document
  | ⟨id, dataset, samplingStart, samplingEnd, resultTime, validStart, validEnd, geometry, value,
      verticalFrom, verticalTo, parameters⟩ =>
    Measurement.document
      ⟨id, dataset, samplingStart, samplingEnd, resultTime, validStart, validEnd, geometry, (),
        verticalFrom, verticalTo, parameters⟩
      (RawValue.toDocument value)

end

def Measurement.toDocument (o : Observation) : Document := observationToDocument o

/-- Reads an observation, given its value. Its other fields are taken from the record
given, with their types settled or not. -/
def Measurement.ofFields? {V : Type} (fields : Fields) (value : V) : Option (Measurement V) := do
  let id ← fields.required "id" int64?
  let dataset ← fields.orElse "dataset" 0 int64?
  let samplingStart ← fields.optional "sampling_time_start" Instant.ofDocument?
  let samplingEnd ← fields.optional "sampling_time_end" Instant.ofDocument?
  let resultTime ← fields.optional "result_time" Instant.ofDocument?
  let validStart ← fields.optional "valid_time_start" Instant.ofDocument?
  let validEnd ← fields.optional "valid_time_end" Instant.ofDocument?
  let geometry ← fields.optional "geometry" Geometry.ofDocument?
  let verticalFrom ← fields.optional "vertical_from" real?
  let verticalTo ← fields.optional "vertical_to" real?
  let parameters ← fields.orElse "parameters" [] (listOf? Parameter.ofDocument?)
  return {
    id, dataset, samplingStart, samplingEnd, resultTime, validStart, validEnd, geometry, value,
    verticalFrom, verticalTo, parameters }

/-- Reads a raw value without levels from its kind and its value. -/
def RawValue.ofScalar? (kind : String) (value : Option Document) : Option RawValue :=
  if kind = "null" then if value.all Document.isNull then some .null else none
  else if kind = "quantity" then value.bind fun d => d.real?.map .quantity
  else if kind = "count" then value.bind fun d => d.int64?.map .count
  else if kind = "text" then value.bind fun d => d.text?.map .text
  else none

/-- A record as it is read where its place is known, or with the types of plain
scalars settled where it is not. -/
def settled? (early : Bool) (fields : Fields) : Option Fields :=
  if early then resolveFields? fields else some fields

/-- Whether a value stands before the kind that says what it is. Its plain scalars
are then given their types first. -/
def valueStandsFirst (fields : Fields) : Bool :=
  ((fields.takeWhile fun f => f.1 != "kind").lookup "value").isSome

def Measurement.fieldNames : List String :=
  ["id", "dataset", "sampling_time_start", "sampling_time_end", "result_time", "valid_time_start",
    "valid_time_end", "geometry", "value", "vertical_from", "vertical_to", "parameters"]

/-- Reads an observation from the values of its fields, in order, given the raw value
among them. -/
def Measurement.ofItems? {V : Type} (early : Bool) (items : List Document) (value : V) :
    Option (Measurement V) := do
  ofFields? (← settled? early (← positional? fieldNames 1 items)) value

/-- Reads the kind of a raw value where it stands in a list. -/
def kindOf? (early : Bool) (d : Document) : Option String :=
  if early then d.resolve?.bind text? else d.text?

mutual

/-- Reads an observation. The flag says that plain scalars are taken for what they
look like. -/
def observationOf? (early : Bool) : Document → Option (Measurement RawValue)
  | .record fields => do
    if !Fields.givenOnce Measurement.fieldNames fields then none
    else
      let value ← (valueIn? early fields).getD (some .null)
      Measurement.ofFields? (← settled? early fields) value
  | .list items => do
    Measurement.ofItems? early items (← (valueAt? early 8 items).getD (some .null))
  | .sequence items => do
    if !early then none
    else Measurement.ofItems? early items (← (valueAt? early 8 items).getD (some .null))
  | _ => none

/-- Reads the raw value in the value field of an observation, if there is one. -/
def valueIn? (early : Bool) : List (String × Document) → Option (Option RawValue)
  | [] => none
  | (name, d) :: rest => if name = "value" then some (rawValueOf? early d) else valueIn? early rest

/-- Reads the raw value after so many other items, if there is one. -/
def valueAt? (early : Bool) : Nat → List Document → Option (Option RawValue)
  | _, [] => none
  | 0, d :: _ => some (rawValueOf? early d)
  | skipped + 1, _ :: rest => valueAt? early skipped rest

def rawValueOf? (early : Bool) : Document → Option RawValue
  | .record fields => do
    if !Fields.givenOnce ["kind", "value"] fields then none
    else
      let kind ← Fields.required (← settled? early fields) "kind" text?
      let early := early || valueStandsFirst fields
      if kind = "profile" then (← levelsIn? early fields).map .profile
      else
        let value ← (fields.lookup "value").mapM fun d => if early then d.resolve? else some d
        RawValue.ofScalar? kind value
  | .list [kind, d] => do
    let kind ← kindOf? early kind
    if kind = "profile" then (levelsOf? early d).map .profile
    else RawValue.ofScalar? kind (← if early then d.resolve? else some d)
  | .sequence [kind, d] => do
    if !early then none
    else
      let kind ← kindOf? early kind
      if kind = "profile" then (levelsOf? early d).map .profile
      else RawValue.ofScalar? kind (← d.resolve?)
  | _ => none

/-- Reads the levels in the value field of a profile, if there is one. -/
def levelsIn? (early : Bool) : List (String × Document) → Option (Option (List (Measurement RawValue)))
  | [] => none
  | (name, d) :: rest => if name = "value" then some (levelsOf? early d) else levelsIn? early rest

def levelsOf? (early : Bool) : Document → Option (List (Measurement RawValue))
  | .list items => levelItems? early items
  | .sequence items => levelItems? early items
  | .plain s => if s = "" ∧ early = false then some [] else none
  | _ => none

def levelItems? (early : Bool) : List Document → Option (List (Measurement RawValue))
  | [] => some []
  | d :: rest => do return (← observationOf? early d) :: (← levelItems? early rest)

end

def RawValue.ofDocument? (d : Document) : Option RawValue := rawValueOf? false d

def Measurement.ofDocument? (d : Document) : Option Observation := observationOf? false d

end Observatory
