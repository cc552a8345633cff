import Observatory.Catalog.Basic

/-! Stores.

A store answers the calls that the service makes; any of them may fail. A catalog is a
store that fails only where a record is missing. -/
namespace Observatory

/-- The calls of the service. -/
structure Store where
  findDataset : Id → Except Error Dataset
  findDatasets : Predicate → Except Error (List Dataset)
  findEntity : Dimension → Id → Except Error Entity
  findEntities : Dimension → Predicate → Except Error (List Entity)
  findObservations : Dataset → Predicate → Except Error (List Observation)
  countObservations : Dataset → Predicate → Except Error Nat
  aggregate : Dataset → Predicate → Aggregate → Except Error (Option Float)
  resultTimes : Dataset → Except Error (SortedSet Instant)

/-- A record that has to be there. -/
def found {α : Type} (e : Error) : Option α → Except Error α
  | some a => .ok a
  | none => .error e

/-- A catalog as a store. -/
def Catalog.store (c : Catalog) : Store where
  findDataset id := found (.noDataset id) (c.dataset? id)
  findDatasets p := .ok (c.datasetsWhere p)
  findEntity dimension id := found (.noEntity dimension id) (c.entity? dimension id)
  findEntities dimension p := .ok (c.entitiesWhere dimension p)
  findObservations d p := .ok (c.observationsWhere d p)
  countObservations d p := .ok (c.observationsWhere d p).length
  aggregate d p a := .ok (a.of? (Aggregate.numbers (c.observationsWhere d p)))
  resultTimes d := .ok (c.resultTimes d)

namespace Store

def datasetsExist (s : Store) (p : Predicate) : Except Error Bool :=
  (s.findDatasets p).map fun ds => !ds.isEmpty

/-- A call that fails if it is out of order, else does what it does. -/
def guarded {α : Type} (broken : List String) (call : String) (answer : Except Error α) :
    Except Error α :=
  if broken.contains call then .error (.storage (call ++ " failed")) else answer

/-- The store with some calls out of order, named as the calls are, those on entities
with their dimension. -/
def withBroken (s : Store) (broken : List String) : Store where
  findDataset id := guarded broken "find_dataset" (s.findDataset id)
  findDatasets p := guarded broken "find_datasets" (s.findDatasets p)
  findEntity dimension id :=
    guarded broken ("find_entity " ++ dimension.name) (s.findEntity dimension id)
  findEntities dimension p :=
    guarded broken ("find_entities " ++ dimension.name) (s.findEntities dimension p)
  findObservations d p := guarded broken "find_observations" (s.findObservations d p)
  countObservations d p := guarded broken "count_observations" (s.countObservations d p)
  aggregate d p a := guarded broken "aggregate_numeric" (s.aggregate d p a)
  resultTimes d := guarded broken "distinct_result_times" (s.resultTimes d)

end Store
end Observatory
