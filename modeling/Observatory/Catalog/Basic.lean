import Observatory.Error
import Observatory.Model.Dataset
import Observatory.Model.Entity
import Observatory.Query.Predicate

/-! Catalogs.

A catalog is one table of entities for each dimension, a table of datasets and a table
of observations. Ids need not be unique and references need not lead anywhere: the
first record with an id counts. Queries keep the order of the tables. -/
namespace Observatory

/-- The stored records. -/
structure Catalog where
  entities : Dimension → List Entity
  datasets : List Dataset
  observations : List Observation

namespace Catalog

def empty : Catalog := ⟨fun _ => [], [], []⟩

instance : EmptyCollection Catalog := ⟨empty⟩

def addEntity (c : Catalog) (dimension : Dimension) (e : Entity) : Catalog :=
  { c with entities := fun d => if d = dimension then c.entities d ++ [e] else c.entities d }

def addDataset (c : Catalog) (d : Dataset) : Catalog := { c with datasets := c.datasets ++ [d] }

def addObservations (c : Catalog) (os : List Observation) : Catalog :=
  { c with observations := c.observations ++ os }

/-- The first entity with an id. -/
def entity? (c : Catalog) (dimension : Dimension) (id : Id) : Option Entity :=
  (c.entities dimension).find? (·.id == id)

/-- The first dataset with an id. -/
def dataset? (c : Catalog) (id : Id) : Option Dataset := c.datasets.find? (·.id == id)

/-! ### Rows -/

/-- The entity that a dataset refers to. -/
def referenced? (c : Catalog) (d : Dataset) (dimension : Dimension) : Option Entity :=
  (d.reference? dimension).bind (c.entity? dimension)

/-- A dataset as a row, joined with the entities it refers to. -/
def datasetRow (c : Catalog) (d : Dataset) : Row
  | .own .id => .int d.id
  | .own .identifier => .text d.identifier
  | .ref dimension .id => .ofId? (d.reference? dimension)
  | .ref dimension .identifier => .ofText? ((c.referenced? d dimension).map (·.identifier))
  | .geometry => .ofShape? ((c.referenced? d .feature).bind (·.geometry))
  | .published => .bool d.published
  | .deleted => .bool d.deleted
  | .disabled => .bool d.disabled
  | .valueKind => .text d.valueKind
  | .datasetKind => .text d.datasetKind
  | .samplingEnd => .null

def entityRow (e : Entity) : Row
  | .own .id => .int e.id
  | .own .identifier => .text e.identifier
  | .geometry => .ofShape? e.geometry
  | _ => .null

def observationRow (o : Observation) : Row
  | .own .id => .int o.id
  | .geometry => .ofShape? o.geometry
  | .samplingEnd => .ofInstant? o.samplingEnd
  | _ => .null

/-! ### Queries -/

/-- The ids that the datasets satisfying a predicate without subqueries have for a
dimension. -/
def select (c : Catalog) (projection : Dimension) (p : Predicate) : SortedSet Id :=
  SortedSet.ofList <|
    (c.datasets.filter fun d => p.evaluate Predicate.noSubqueries (c.datasetRow d)).filterMap
      (·.reference? projection)

/-- Answers a subquery: its filter is bound from the inside out, then the datasets are
looked at. -/
def project (c : Catalog) : Resolver := fun projection filter =>
  c.select projection (filter.bindWith fun projection _ bound => c.select projection bound)

/-- The datasets that satisfy a predicate. -/
def datasetsWhere (c : Catalog) (p : Predicate) : List Dataset :=
  let bound := p.bind c.project
  c.datasets.filter fun d => bound.evaluate c.project (c.datasetRow d)

def entitiesWhere (c : Catalog) (dimension : Dimension) (p : Predicate) : List Entity :=
  let bound := p.bind c.project
  (c.entities dimension).filter fun e => bound.evaluate c.project (entityRow e)

def observationsOf (c : Catalog) (d : Dataset) : List Observation :=
  c.observations.filter (·.dataset == d.id)

def observationsWhere (c : Catalog) (d : Dataset) (p : Predicate) : List Observation :=
  (c.observationsOf d).filter fun o => p.evaluate c.project (observationRow o)

/-- The result times of a dataset that say more than the end of sampling does. -/
def resultTimes (c : Catalog) (d : Dataset) : SortedSet Instant :=
  SortedSet.ofList <|
    ((c.observationsOf d).filter fun o => Dataset.isDistinctResultTime o.resultTime o.samplingEnd).filterMap
      (·.resultTime)

end Catalog

/-! ### Aggregates -/

/-- A number that stands for many. -/
inductive Aggregate where
  | least
  | greatest
  | mean
deriving DecidableEq

namespace Aggregate

/-- The finite numbers among the values of observations. -/
def numbers (os : List Observation) : List Float :=
  (os.filterMap (·.value.number?)).filter Number.isFinite

/-- The aggregate of numbers, added up from the left; none if there are none. -/
def of? (a : Aggregate) (xs : List Float) : Option Float :=
  if xs.isEmpty then none
  else some <| match a with
    | least => xs.foldl Number.lesser (1 / 0)
    | greatest => xs.foldl Number.greater (-(1 / 0))
    | mean => xs.foldl (· + ·) (-0.0) / Float.ofNat xs.length

end Aggregate
end Observatory
