import Observatory.Error
import Observatory.Query.Predicate

/-! Single restrictions.

Each restriction is a predicate, or none where nothing is asked for. A list with a key
that is no id, where ids are asked for, matches nothing; it does not fail. -/
namespace Observatory.Restriction

/-- Reads a list of ids, in order. The first key that is no id is refused. -/
def parseIds (dimension : String) (keys : SortedSet String) : Except Error (SortedSet Id) :=
  let parse (key : String) : Except Error Id :=
    match Text.int64? (Text.trim key) with
    | some id => .ok id
    | none => .error (.malformedIdentifier dimension key)
  (keys.toList.mapM parse).map SortedSet.ofList

/-- Restricts a key column to a list of keys. -/
def membership (dimension : String) (keys : SortedSet String) (useDomainIdentifiers : Bool)
    (column : Key → Column) : Option Predicate :=
  if keys.isEmpty then none
  else if useDomainIdentifiers then some (.isIn (column .identifier) (.texts keys))
  else match parseIds dimension keys with
    | .ok ids => some (.isIn (column .id) (.ids ids))
    | .error _ => some .never

/-! ### Of entities -/

def entities (dimension : Dimension) (keys : SortedSet String) (useDomainIdentifiers : Bool) :
    Option Predicate :=
  membership dimension.name keys useDomainIdentifiers .own

/-- Restricts the entities of a dimension to those that some dataset matching the
filter refers to. -/
def referenced (dimension : Dimension) (filter : Predicate) : Predicate :=
  .inSubquery (.own .id) dimension filter

/-! ### Of datasets -/

/-- Restricts datasets to those that are served. -/
def isPublic : Predicate :=
  .all [.isNotNull (.ref .feature .id), .flag .deleted false, .flag .disabled false,
    .flag .published true]

def datasets (keys : SortedSet String) (useDomainIdentifiers : Bool) : Option Predicate :=
  membership "dataset" keys useDomainIdentifiers .own

/-- Restricts datasets to those that refer to one of a list of entities. -/
def datasetsOf (dimension : Dimension) (keys : SortedSet String) (useDomainIdentifiers : Bool) :
    Option Predicate :=
  membership dimension.name keys useDomainIdentifiers (.ref dimension)

/-- Restricts datasets to those whose feature meets an envelope. -/
def bbox (envelope : Option (Envelope Float)) : Option Predicate := envelope.map (.intersects .geometry)

/-- Restricts a text column to a list of texts. -/
def kinds (column : Column) (texts : SortedSet String) : Option Predicate :=
  if texts.isEmpty then none else some (.isIn column (.texts texts))

def valueTypes (texts : SortedSet String) : Option Predicate := kinds .valueKind texts

def datasetTypes (texts : SortedSet String) : Option Predicate := kinds .datasetKind texts

/-! ### Of observations -/

def timespan (interval : Option TimeInterval) : Option Predicate := interval.map (.within .samplingEnd)

end Observatory.Restriction
