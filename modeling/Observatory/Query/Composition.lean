import Observatory.Query.Request
import Observatory.Query.Restriction

/-! The predicates of a query. -/
namespace Observatory.Query

/-- The datasets that a query asks for: those that are served and meet every
restriction it has. -/
def matchFilters (q : Query) : Predicate :=
  let byIdentifier := q.options.useDomainIdentifiers
  .allOf [
    some Restriction.isPublic,
    Restriction.datasets q.datasets byIdentifier,
    Restriction.datasetsOf .offering q.offerings byIdentifier,
    Restriction.datasetsOf .feature q.features byIdentifier,
    Restriction.datasetsOf .phenomenon q.phenomena byIdentifier,
    Restriction.datasetsOf .procedure q.procedures byIdentifier,
    Restriction.datasetsOf .category q.categories byIdentifier,
    Restriction.datasetsOf .platform q.platforms byIdentifier,
    Restriction.bbox q.bbox,
    Restriction.valueTypes q.valueTypes,
    Restriction.datasetTypes q.datasetTypes]

/-- The entities of a dimension that a query reaches: those that it lists, if it
lists any, and that some dataset meeting its other restrictions refers to. -/
def matchReachable (dimension : Dimension) (q : Query) : Predicate :=
  .allOf [
    Restriction.entities dimension (q.idsFor dimension) q.options.useDomainIdentifiers,
    some (Restriction.referenced dimension (q.withIds dimension ∅).matchFilters)]

/-- The observations that a query asks for. -/
def matchObservations (q : Query) : Predicate := .allOf [Restriction.timespan q.timespan]

end Observatory.Query
