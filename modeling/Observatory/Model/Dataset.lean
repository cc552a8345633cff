import Observatory.Collection.SortedSet
import Observatory.Time.Document
import Observatory.Model.Dimension

/-! Datasets.

A dataset is a series of observations with its metadata: the kinds that decide how
its values are converted, one reference per dimension, flags that decide whether it
is served, and settings for numbers and profiles. -/
namespace Observatory
open Document

/-- How the levels of a profile find their vertical coordinate: its unit, and the
names of the parameters that carry it where observations do not. -/
structure VerticalSettings where
  unit : Option String
  parameterName : Option String
  fromName : Option String
  toName : Option String
deriving DecidableEq

/-- A series of observations. -/
structure Dataset where
  id : Id
  identifier : String
  /-- Such as `timeseries`, `trajectory` or `profile`. -/
  datasetKind : String
  /-- `simple`, or a structured kind such as `complex` or `profile`. -/
  observationKind : String
  /-- Such as `quantity`, `count`, `text` or `profile`. -/
  valueKind : String
  phenomenon : Id
  procedure : Id
  offering : Id
  category : Id
  platform : Id
  feature : Option Id
  published : Bool
  deleted : Bool
  disabled : Bool
  /-- Whether the platform moves, so that observations have shapes of their own. -/
  mobile : Bool
  insitu : Bool
  firstValueAt : Option Instant
  lastValueAt : Option Instant
  /-- The decimal places of quantities; none or a negative number leaves them as
  they are. -/
  numberOfDecimals : Option Int32
  resultTimes : SortedSet Instant
  unit : Option String
  vertical : Option VerticalSettings

namespace Dataset

/-- Whether the dataset is served at all. -/
def isVisible (d : Dataset) : Bool := d.feature.isSome && d.published && !d.deleted && !d.disabled

def reference? (d : Dataset) : Dimension → Option Id
  | .offering => some d.offering
  | .phenomenon => some d.phenomenon
  | .procedure => some d.procedure
  | .feature => d.feature
  | .category => some d.category
  | .platform => some d.platform

/-- Whether a result time says more than the end of sampling does. -/
def isDistinctResultTime (result stop : Option Instant) : Bool :=
  match result, stop with
  | some r, some e => r ≠ e
  | some _, none => true
  | none, _ => false

end Dataset

/-! ### Documents -/

def VerticalSettings.toDocument (v : VerticalSettings) : Document :=
  .record (
    fieldIfSome "unit" .text v.unit ++
    fieldIfSome "parameter_name" .text v.parameterName ++
    fieldIfSome "from_name" .text v.fromName ++
    fieldIfSome "to_name" .text v.toName)

def VerticalSettings.ofDocument? (d : Document) : Option VerticalSettings := do
  let fields ← d.structure? ["unit", "parameter_name", "from_name", "to_name"] 0
  let unit ← fields.optional "unit" text?
  let parameterName ← fields.optional "parameter_name" text?
  let fromName ← fields.optional "from_name" text?
  let toName ← fields.optional "to_name" text?
  return { unit, parameterName, fromName, toName }

namespace Dataset

def idDocument (id : Id) : Document := .integer id.toInt

def toDocument (d : Dataset) : Document :=
  .record (
    field "id" (idDocument d.id) ++
    field "identifier" (.text d.identifier) ++
    field "dataset_kind" (.text d.datasetKind) ++
    field "observation_kind" (.text d.observationKind) ++
    field "value_kind" (.text d.valueKind) ++
    field "phenomenon" (idDocument d.phenomenon) ++
    field "procedure" (idDocument d.procedure) ++
    field "offering" (idDocument d.offering) ++
    field "category" (idDocument d.category) ++
    field "platform" (idDocument d.platform) ++
    field "feature" (ofOption idDocument d.feature) ++
    field "published" (.boolean d.published) ++
    field "deleted" (.boolean d.deleted) ++
    field "disabled" (.boolean d.disabled) ++
    field "mobile" (.boolean d.mobile) ++
    field "insitu" (.boolean d.insitu) ++
    fieldIfSome "first_value_at" Instant.toDocument d.firstValueAt ++
    fieldIfSome "last_value_at" Instant.toDocument d.lastValueAt ++
    fieldIfSome "number_of_decimals" (fun n => .integer n.toInt) d.numberOfDecimals ++
    fieldIfAny "result_times" Instant.toDocument d.resultTimes.toList ++
    fieldIfSome "unit" .text d.unit ++
    fieldIfSome "vertical" VerticalSettings.toDocument d.vertical)

def fieldNames : List String :=
  ["id", "identifier", "dataset_kind", "observation_kind", "value_kind", "phenomenon", "procedure",
    "offering", "category", "platform", "feature", "published", "deleted", "disabled", "mobile", "insitu",
    "first_value_at", "last_value_at", "number_of_decimals", "result_times", "unit", "vertical"]

def ofDocument? (d : Document) : Option Dataset := do
  let fields ← d.structure? fieldNames 10
  let id ← fields.required "id" int64?
  let identifier ← fields.orElse "identifier" "" text?
  let datasetKind ← fields.orElse "dataset_kind" "timeseries" text?
  let observationKind ← fields.orElse "observation_kind" "simple" text?
  let valueKind ← fields.required "value_kind" text?
  let phenomenon ← fields.required "phenomenon" int64?
  let procedure ← fields.required "procedure" int64?
  let offering ← fields.required "offering" int64?
  let category ← fields.required "category" int64?
  let platform ← fields.required "platform" int64?
  let feature ← fields.optional "feature" int64?
  let published ← fields.orElse "published" false boolean?
  let deleted ← fields.orElse "deleted" false boolean?
  let disabled ← fields.orElse "disabled" false boolean?
  let mobile ← fields.orElse "mobile" false boolean?
  let insitu ← fields.orElse "insitu" false boolean?
  let firstValueAt ← fields.optional "first_value_at" Instant.ofDocument?
  let lastValueAt ← fields.optional "last_value_at" Instant.ofDocument?
  let numberOfDecimals ← fields.optional "number_of_decimals" int32?
  let resultTimes ← fields.orElse "result_times" ∅ fun d =>
    (d.listOf? Instant.ofDocument?).map SortedSet.ofList
  let unit ← fields.optional "unit" text?
  let vertical ← fields.optional "vertical" VerticalSettings.ofDocument?
  return {
    id, identifier, datasetKind, observationKind, valueKind, phenomenon, procedure, offering,
    category, platform, feature, published, deleted, disabled, mobile, insitu, firstValueAt,
    lastValueAt, numberOfDecimals, resultTimes, unit, vertical }

end Dataset
end Observatory
