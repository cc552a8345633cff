import Observatory.Collection.SortedSet
import Observatory.Error
import Observatory.Model.Options
import Observatory.Space.Document
import Observatory.Text.Case
import Observatory.Time.Document

/-! Requests.

A query lists the keys, kinds, place and time that answers are restricted to; an
empty list restricts nothing. It is read from parameters: comma lists, an envelope, an
interval, truth values and texts. Unknown parameters are left alone. -/
namespace Observatory
open Document

/-- What a request asks for. -/
structure Query where
  offerings : SortedSet String
  features : SortedSet String
  phenomena : SortedSet String
  procedures : SortedSet String
  categories : SortedSet String
  platforms : SortedSet String
  datasets : SortedSet String
  valueTypes : SortedSet String
  datasetTypes : SortedSet String
  bbox : Option (Envelope Float)
  timespan : Option TimeInterval
  options : Options

namespace Query

def unrestricted (options : Options) : Query where
  offerings := ∅
  features := ∅
  phenomena := ∅
  procedures := ∅
  categories := ∅
  platforms := ∅
  datasets := ∅
  valueTypes := ∅
  datasetTypes := ∅
  bbox := none
  timespan := none
  options := options

/-- The keys listed for a dimension. -/
def idsFor (q : Query) : Dimension → SortedSet String
  | .offering => q.offerings
  | .phenomenon => q.phenomena
  | .procedure => q.procedures
  | .feature => q.features
  | .category => q.categories
  | .platform => q.platforms

/-- The query with other keys listed for a dimension. -/
def withIds (q : Query) (dimension : Dimension) (ids : SortedSet String) : Query :=
  match dimension with
  | .offering => { q with offerings := ids }
  | .phenomenon => { q with phenomena := ids }
  | .procedure => { q with procedures := ids }
  | .feature => { q with features := ids }
  | .category => { q with categories := ids }
  | .platform => { q with platforms := ids }

/-! ### Parameters -/

/-- The members of a comma list. -/
def listOf (value : String) : SortedSet String := SortedSet.ofList (Text.items value)

/-- Reads a truth value; an empty text is true. -/
def parseBoolean (name value : String) : Except Error Bool :=
  let word := Text.lower (Text.trim value)
  if word = "true" ∨ word = "1" ∨ word = "" then .ok true
  else if word = "false" ∨ word = "0" then .ok false
  else .error (.invalidParameter name ("expected a boolean, got '" ++ word ++ "'"))

def parseBbox (value : String) : Except Error (Envelope Float) :=
  (Envelope.parse value).mapError fun e => .invalidParameter "bbox" e.message

def parseTimespan (value : String) : Except Error TimeInterval :=
  (TimeInterval.parse value).mapError fun e => .invalidParameter "timespan" e.message

/-- The query with one parameter set. -/
def set (q : Query) (name value : String) : Except Error Query :=
  let options := q.options
  match name with
  | "offerings" => .ok { q with offerings := listOf value }
  | "features" => .ok { q with features := listOf value }
  | "phenomena" => .ok { q with phenomena := listOf value }
  | "procedures" => .ok { q with procedures := listOf value }
  | "categories" => .ok { q with categories := listOf value }
  | "platforms" => .ok { q with platforms := listOf value }
  | "datasets" => .ok { q with datasets := listOf value }
  | "valueTypes" => .ok { q with valueTypes := listOf value }
  | "datasetTypes" => .ok { q with datasetTypes := listOf value }
  | "bbox" => (parseBbox value).map fun e => { q with bbox := some e }
  | "timespan" => (parseTimespan value).map fun i => { q with timespan := some i }
  | "expanded" => (parseBoolean name value).map fun b =>
    { q with options := { options with expanded := b } }
  | "showTimeIntervals" => (parseBoolean name value).map fun b =>
    { q with options := { options with showTimeIntervals := b } }
  | "showVerticalIntervals" => (parseBoolean name value).map fun b =>
    { q with options := { options with showVerticalIntervals := b } }
  | "matchDomainIds" => (parseBoolean name value).map fun b =>
    { q with options := { options with useDomainIdentifiers := b } }
  | "locale" => .ok { q with options := { options with locale := Text.trim value } }
  | "hrefBase" => .ok { q with options := { options with hrefBase := some (Text.trim value) } }
  | _ => .ok q

/-- The query that parameters describe, starting from options of its own. -/
def ofParams (options : Options) (params : List (String × String)) : Except Error Query :=
  params.foldlM (fun q p => q.set p.1 p.2) (unrestricted options)

/-! ### Documents -/

def textsDocument (s : SortedSet String) : Document := ofList .text s.toList

def textsOf? (d : Document) : Option (SortedSet String) := (d.listOf? text?).map SortedSet.ofList

def toDocument (q : Query) : Document :=
  .record (
    field "offerings" (textsDocument q.offerings) ++
    field "features" (textsDocument q.features) ++
    field "phenomena" (textsDocument q.phenomena) ++
    field "procedures" (textsDocument q.procedures) ++
    field "categories" (textsDocument q.categories) ++
    field "platforms" (textsDocument q.platforms) ++
    field "datasets" (textsDocument q.datasets) ++
    field "valueTypes" (textsDocument q.valueTypes) ++
    field "datasetTypes" (textsDocument q.datasetTypes) ++
    field "bbox" (ofOption Envelope.toDocument q.bbox) ++
    field "timespan" (ofOption TimeInterval.toDocument q.timespan) ++
    field "options" q.options.toDocument)

def fieldNames : List String :=
  ["offerings", "features", "phenomena", "procedures", "categories", "platforms", "datasets",
    "valueTypes", "datasetTypes", "bbox", "timespan", "options"]

def ofDocument? (d : Document) : Option Query := do
  let fields ← d.structure? fieldNames 0
  let offerings ← fields.orElse "offerings" ∅ textsOf?
  let features ← fields.orElse "features" ∅ textsOf?
  let phenomena ← fields.orElse "phenomena" ∅ textsOf?
  let procedures ← fields.orElse "procedures" ∅ textsOf?
  let categories ← fields.orElse "categories" ∅ textsOf?
  let platforms ← fields.orElse "platforms" ∅ textsOf?
  let datasets ← fields.orElse "datasets" ∅ textsOf?
  let valueTypes ← fields.orElse "valueTypes" ∅ textsOf?
  let datasetTypes ← fields.orElse "datasetTypes" ∅ textsOf?
  let bbox ← fields.optional "bbox" Envelope.ofDocument?
  let timespan ← fields.optional "timespan" TimeInterval.ofDocument?
  let options ← fields.orElse "options" .standard Options.ofDocument?
  return {
    offerings, features, phenomena, procedures, categories, platforms, datasets, valueTypes,
    datasetTypes, bbox, timespan, options }

end Query
end Observatory
