import Observatory.Model.Observation

/-! Columns and cells.

A predicate looks at a row through columns. Rows of datasets, entities and
observations answer the columns they have and null for all others. -/
namespace Observatory

/-- Which key of an entity a column holds. -/
inductive Key where
  | id
  | identifier
deriving DecidableEq

/-- The key that filters name. -/
def Key.ofDomain (useDomainIdentifiers : Bool) : Key := if useDomainIdentifiers then .identifier else .id

def Key.name : Key → String
  | id => "id"
  | identifier => "identifier"

/-- A column of a row. -/
inductive Column where
  /-- A key of the row itself. -/
  | own (key : Key)
  /-- A key of the entity that the row refers to. -/
  | ref (dimension : Dimension) (key : Key)
  | geometry
  | published
  | deleted
  | disabled
  | valueKind
  | datasetKind
  | samplingEnd
deriving DecidableEq

def Column.name : Column → String
  | own key => key.name
  | ref dimension key => dimension.name ++ "." ++ key.name
  | geometry => "geometry"
  | published => "published"
  | deleted => "deleted"
  | disabled => "disabled"
  | valueKind => "value_type"
  | datasetKind => "dataset_type"
  | samplingEnd => "sampling_time_end"

def Column.all : List Column :=
  [.own .id, .own .identifier] ++
    Dimension.all.flatMap (fun d => [.ref d .id, .ref d .identifier]) ++
    [.geometry, .published, .deleted, .disabled, .valueKind, .datasetKind, .samplingEnd]

def Column.ofName? (s : String) : Option Column := Column.all.find? (·.name == s)

/-- What a row holds in a column. -/
inductive Cell where
  | null
  | int (value : Id)
  | text (value : String)
  | bool (value : Bool)
  | time (value : Instant)
  | geometry (value : Geometry Float)

namespace Cell

def isNull : Cell → Bool
  | null => true
  | _ => false

/-- An id that may be missing. -/
def ofId? : Option Id → Cell
  | some id => int id
  | none => null

def ofText? : Option String → Cell
  | some s => text s
  | none => null

def ofInstant? : Option Instant → Cell
  | some t => time t
  | none => null

def ofShape? : Option (Geometry Float) → Cell
  | some g => geometry g
  | none => null

end Cell

/-- A row: what it holds in each column. -/
abbrev Row := Column → Cell

end Observatory
