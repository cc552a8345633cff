import Observatory.Query.Composition
import Observatory.Service.Config
import Observatory.Service.Hierarchy
import Observatory.Value.Conversion

/-! The service.

A service answers requests over one store with one configuration. Hidden datasets are
reported as missing. Operations that convert values go through the registry, whose
converters stay made when the operation fails. -/
namespace Observatory

/-- A store with the settings it is served under. -/
structure Service where
  config : Config
  store : Store

/-- An operation that may make converters and may fail; converters made before a
failure stay. -/
abbrev Action (α : Type) := ExceptT Error (StateM Registry) α

/-- Looks a converter up. -/
def Registry.converter (key : TypeKey) : Action Converter := ExceptT.mk fun r => r.resolve key

namespace Service

/-- The registry before anything was asked of the service. -/
def freshRegistry (s : Service) : Registry := .standard s.config.noData

def query (s : Service) (params : List (String × String)) : Except Error Query :=
  Query.ofParams s.config.options params

/-- The value kinds that there are converters for. -/
def knownTypes (s : Service) : SortedSet String := s.freshRegistry.knownTypes

/-! ### Datasets -/

/-- The label of the entity that a dataset refers to, if it refers to one. -/
def labelOf (s : Service) (options : Options) (d : Dataset) (dimension : Dimension) :
    Except Error (Option String) :=
  match d.reference? dimension with
  | none => .ok none
  | some id => (s.store.findEntity dimension id).map fun e => some (e.label options.locale)

/-- The label of a dataset, made of the labels of its phenomenon, its procedure and its
feature. -/
def labelText (phenomenon procedure : String) : Option String → String
  | some feature => phenomenon ++ " " ++ procedure ++ ", " ++ feature
  | none => phenomenon ++ " " ++ procedure

/-- A dataset in short. -/
def condense (s : Service) (options : Options) (d : Dataset) : Except Error DatasetOutput := do
  let phenomenon ← s.labelOf options d .phenomenon
  let procedure ← s.labelOf options d .procedure
  let feature ← s.labelOf options d .feature
  let id := toString d.id
  return {
    id := id
    domainId := d.identifier
    label := labelText (phenomenon.getD "") (procedure.getD "") feature
    href := options.href? "datasets" id
    datasetType := d.datasetKind
    observationType := d.observationKind
    valueType := d.valueKind
    mobile := d.mobile
    uom := d.unit }

/-- The datasets that a query asks for. -/
def datasets (s : Service) (q : Query) : Except Error (List DatasetOutput) := do
  let ds ← s.store.findDatasets q.matchFilters
  ds.mapM (s.condense q.options)

/-- A dataset that is served. -/
def visibleDataset (s : Service) (id : Id) : Except Error Dataset := do
  let d ← s.store.findDataset id
  if d.isVisible then return d else throw (.noDataset id)

/-! ### Data -/

/-- The order of observations: by the end of sampling, those without one first. -/
def inOrder (a b : Observation) : Bool :=
  match a.samplingEnd, b.samplingEnd with
  | none, _ => true
  | some _, none => false
  | some x, some y => x ≤ y

/-- The observations of a dataset that a query asks for, converted to a kind. -/
def convertAll (s : Service) (kind : ValueKind) (d : Dataset) (q : Query) :
    Except Error DataOutput := do
  let os ← s.store.findObservations d q.matchObservations
  let values ← (os.mergeSort inOrder).mapM fun o =>
    Conversion.convert kind s.config.noData d q.options (some o)
  return ⟨d.id, d.valueKind, values⟩

/-- The converted observations of a dataset, ordered by the end of sampling. -/
def data (s : Service) (id : Id) (q : Query) : Action DataOutput := do
  let d ← s.visibleDataset id
  let converter ← Registry.converter (.ofDataset d)
  s.convertAll converter.kind d q

/-! ### Extras -/

/-- An aggregate of the observations, rounded as quantities of the dataset are. -/
def aggregate (s : Service) (d : Dataset) (q : Query) (a : Aggregate) :
    Except Error (Option Number.Decimal) :=
  (s.store.aggregate d q.matchObservations a).map fun x =>
    x.bind fun x => Number.roundFloat? x d.numberOfDecimals

/-- The number of observations and, of numbers, the least, the greatest and the mean. -/
def aggregatesOf (s : Service) (kind : ValueKind) (d : Dataset) (q : Query) :
    Except Error Aggregation := do
  let count ← s.store.countObservations d q.matchObservations
  if kind.isNumeric then
    let least ← s.aggregate d q .least
    let greatest ← s.aggregate d q .greatest
    let mean ← s.aggregate d q .mean
    return ⟨some count, least, greatest, mean⟩
  else return ⟨some count, none, none, none⟩

def aggregation (s : Service) (d : Dataset) (q : Query) : Action Aggregation := fun r =>
  match r.resolve (.ofDataset d) with
  | (.ok converter, r) => (s.aggregatesOf converter.kind d q, r)
  | (.error (.unknownType _), r) => (.ok .none, r)
  | (.error e, r) => (.error e, r)

/-- The result times and the aggregates of a dataset. -/
def datasetExtras (s : Service) (id : Id) (q : Query) : Action DatasetExtras := do
  let d ← s.visibleDataset id
  let times ← s.store.resultTimes d
  let aggregation ← s.aggregation d q
  return {
    resultTimes := if times.isEmpty then none else some times
    aggregation := if aggregation.isEmpty then none else some aggregation }

/-- The datasets that are served and stand on a platform. -/
def onPlatform (platform : Id) : Predicate :=
  .allOf [
    some Restriction.isPublic,
    Restriction.datasetsOf .platform (SortedSet.ofList [toString platform]) false]

/-- The parents of the procedures in use on a platform. -/
def platformExtras (s : Service) (platform : Id) (options : Options) :
    Except Error PlatformExtras := do
  let _ ← s.store.findEntity .platform platform
  let ds ← s.store.findDatasets (onPlatform platform)
  Hierarchy.extrasOf s.store options ds

/-! ### Entities -/

/-- The entities of a dimension that a query reaches. -/
def reachable (s : Service) (dimension : Dimension) (q : Query) :
    Except Error (List CondensedEntity) :=
  (s.store.findEntities dimension (q.matchReachable dimension)).map fun es =>
    es.map fun e => .of e dimension q.options

def parentsOf (s : Service) (dimension : Dimension) (e : Entity) (options : Options) :
    Except Error (SortedSet CondensedEntity) := Hierarchy.parentsOf s.store dimension e options

/-- The ancestors of an entity, as deep as the settings allow. -/
def ancestorsOf (s : Service) (dimension : Dimension) (e : Entity) : Except Error (List Entity) :=
  Hierarchy.ancestorsOf s.store s.config.maxHierarchyDepth.toNat dimension e

end Service
end Observatory
