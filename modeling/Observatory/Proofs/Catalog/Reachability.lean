import Observatory.Proofs.Catalog.Search

/-! Reachable entities.

The entities of a dimension that a query reaches are found by restricting the entities to
those that the query lists and to those that some dataset refers to that meets the rest of
the query. This is what a search for datasets gives when its references are followed
(`findEntities_matchReachable`): what the list asks of an entity it asks of a dataset that
refers to it, as long as the entity is the first with its id or is asked for by id. -/
namespace Observatory

/-! ### A query with other keys for one dimension -/

namespace Query
variable (q : Query) (dimension : Dimension) (ids : SortedSet String)

@[simp] theorem options_withIds : (q.withIds dimension ids).options = q.options := by
  cases dimension <;> rfl

@[simp] theorem datasets_withIds : (q.withIds dimension ids).datasets = q.datasets := by
  cases dimension <;> rfl

@[simp] theorem bbox_withIds : (q.withIds dimension ids).bbox = q.bbox := by
  cases dimension <;> rfl

@[simp] theorem valueTypes_withIds : (q.withIds dimension ids).valueTypes = q.valueTypes := by
  cases dimension <;> rfl

@[simp] theorem datasetTypes_withIds : (q.withIds dimension ids).datasetTypes = q.datasetTypes := by
  cases dimension <;> rfl

@[simp] theorem idsFor_withIds_self : (q.withIds dimension ids).idsFor dimension = ids := by
  cases dimension <;> rfl

theorem idsFor_withIds_of_ne {dimension other : Dimension} (h : other ≠ dimension) :
    (q.withIds dimension ids).idsFor other = q.idsFor other := by
  cases dimension <;> cases other <;> first | rfl | exact absurd rfl h

end Query

namespace Catalog
open Restriction (Admits)
open Predicate (evaluate)

variable (c : Catalog)

/-- What a query asks of a dataset is what it asks without the keys of one dimension, and
that the dataset's reference in that dimension is listed. -/
theorem asked_iff (q : Query) (dimension : Dimension) (d : Dataset) :
    c.Asked q d ↔ c.Asked (q.withIds dimension ∅) d ∧
      Admits (q.idsFor dimension) q.options.useDomainIdentifiers (d.reference? dimension)
        (c.IdentifiedBy d dimension) := by
  constructor
  · intro h
    refine ⟨⟨h.feature, h.published, h.not_deleted, h.not_disabled, by simpa using h.listed,
      fun other => ?_, by simpa using h.place, by simpa using h.valueKind,
      by simpa using h.datasetKind⟩, h.references dimension⟩
    by_cases hother : other = dimension
    · rw [hother, Query.idsFor_withIds_self]
      exact .inl rfl
    · rw [q.idsFor_withIds_of_ne ∅ hother, Query.options_withIds]
      exact h.references other
  · rintro ⟨h, hdimension⟩
    refine ⟨h.feature, h.published, h.not_deleted, h.not_disabled, by simpa using h.listed,
      fun other => ?_, by simpa using h.place, by simpa using h.valueKind,
      by simpa using h.datasetKind⟩
    by_cases hother : other = dimension
    · rw [hother]
      exact hdimension
    · rw [← q.idsFor_withIds_of_ne ∅ hother, ← q.options_withIds dimension ∅]
      exact h.references other

/-! ### Entities -/

/-- What the predicate of reachable entities says of an entity. -/
theorem evaluate_matchReachable (q : Query) (dimension : Dimension) (e : Entity) :
    (q.matchReachable dimension).evaluate c.project (entityRow e) = true ↔
      Admits (q.idsFor dimension) q.options.useDomainIdentifiers (some e.id) (e.identifier = ·) ∧
        ∃ d ∈ c.datasets, c.Asked (q.withIds dimension ∅) d ∧
          d.reference? dimension = some e.id := by
  have hown := Restriction.membership_holds c.project (entityRow e) dimension.name
    (q.idsFor dimension) q.options.useDomainIdentifiers .own
    (show entityRow e (.own .id) = .ofId? (some e.id) from rfl)
    (show entityRow e (.own .identifier) = .ofText? (some e.identifier) from rfl)
    fun _ => Option.some_inj
  have hreferenced : (Restriction.referenced dimension (q.withIds dimension ∅).matchFilters).evaluate
        c.project (entityRow e) = true ↔
      ∃ d ∈ c.datasets, c.Asked (q.withIds dimension ∅) d ∧
        d.reference? dimension = some e.id := by
    unfold Restriction.referenced
    rw [evaluate]
    show (c.project dimension _).contains e.id = true ↔ _
    rw [SortedSet.contains_iff, mem_project]
    simp only [evaluate_matchFilters]
  unfold Query.matchReachable
  rw [Predicate.evaluate_allOf]
  simp only [List.all_cons, List.all_nil, Bool.and_true, Bool.and_eq_true, Option.all_some]
  exact and_congr hown hreferenced

/-- What a list asks of an entity it asks of a dataset that refers to it, where ids are asked
for or no other entity has the id. -/
theorem admits_reference {q : Query} {dimension : Dimension}
    (h : q.options.useDomainIdentifiers = false ∨ ((c.entities dimension).map (·.id)).Nodup)
    {e : Entity} (he : e ∈ c.entities dimension) {d : Dataset}
    (hd : d.reference? dimension = some e.id) :
    Admits (q.idsFor dimension) q.options.useDomainIdentifiers (d.reference? dimension)
        (c.IdentifiedBy d dimension) ↔
      Admits (q.idsFor dimension) q.options.useDomainIdentifiers (some e.id) (e.identifier = ·) := by
  rcases h with hids | hdistinct
  · rw [hids, hd]
    exact Iff.rfl
  · have hrefers : c.RefersTo d dimension e := ⟨e.id, hd, Records.isFirst_of_mem hdistinct he⟩
    have hidentified : c.IdentifiedBy d dimension = (e.identifier = ·) :=
      funext fun key => propext hrefers.identifiedBy_iff
    rw [hd, hidentified]

/-- **The entities that a query reaches are those that the datasets it asks for refer to**, in
the order of their table: moving the keys of a dimension from the datasets to the entities
neither adds nor loses one, whatever keys the query lists. -/
theorem findEntities_matchReachable (dimension : Dimension) (q : Query)
    (h : q.options.useDomainIdentifiers = false ∨ ((c.entities dimension).map (·.id)).Nodup) :
    ∃ found, c.store.findDatasets q.matchFilters = .ok found ∧
      c.store.findEntities dimension (q.matchReachable dimension) =
        .ok ((c.entities dimension).filter fun e =>
          decide (∃ d ∈ found, d.reference? dimension = some e.id)) := by
  refine ⟨c.datasetsWhere q.matchFilters, rfl, congrArg Except.ok ?_⟩
  rw [entitiesWhere_eq]
  apply List.filter_congr
  intro e he
  rw [Bool.eq_iff_iff, evaluate_matchReachable, decide_eq_true_iff]
  constructor
  · rintro ⟨hlisted, d, hd, hrest, href⟩
    refine ⟨d, ?_, href⟩
    rw [datasetsWhere_matchFilters, List.mem_filter, decide_eq_true_iff, c.asked_iff q dimension]
    exact ⟨hd, hrest, (c.admits_reference h he href).mpr hlisted⟩
  · rintro ⟨d, hd, href⟩
    rw [datasetsWhere_matchFilters, List.mem_filter, decide_eq_true_iff, c.asked_iff q dimension] at hd
    obtain ⟨hd, hrest, hlisted⟩ := hd
    exact ⟨(c.admits_reference h he href).mp hlisted, d, hd, hrest, href⟩

/-! ### A catalog with a draft -/

/-- An entity with nothing but its keys. -/
def plainEntity (id : Id) (identifier : String) : Entity where
  id := id
  identifier := identifier
  name := none
  translations := ∅
  parents := []
  geometry := none

/-- A dataset of a phenomenon that may be a draft. -/
def plainDataset (id phenomenon : Id) (published : Bool) : Dataset where
  id := id
  identifier := ""
  datasetKind := "timeseries"
  observationKind := "simple"
  valueKind := "quantity"
  phenomenon := phenomenon
  procedure := 1
  offering := 1
  category := 1
  platform := 1
  feature := some 1
  published := published
  deleted := false
  disabled := false
  mobile := false
  insitu := false
  firstValueAt := none
  lastValueAt := none
  numberOfDecimals := none
  resultTimes := ∅
  unit := none
  vertical := none

/-- An observation without a value. -/
def plainObservation (id dataset : Id) : Observation where
  id := id
  dataset := dataset
  samplingStart := none
  samplingEnd := none
  resultTime := none
  validStart := none
  validEnd := none
  geometry := none
  value := .null
  verticalFrom := none
  verticalTo := none
  parameters := []

/-- Three datasets: one of temperatures, a draft with wind, and one of a phenomenon that is
not stored. -/
def withDraft : Catalog where
  entities
    | .phenomenon => [plainEntity 1 "temp", plainEntity 2 "wind", plainEntity 3 "rain"]
    | _ => []
  datasets := [plainDataset 1 1 true, plainDataset 2 2 false, plainDataset 3 9 true]
  observations := [plainObservation 1 1, plainObservation 2 2, plainObservation 3 1]

/-- A query for phenomena by their domain identifiers, of which one is not stored. -/
def askingPhenomena : Query where
  __ := Query.unrestricted { Options.standard with useDomainIdentifiers := true }
  phenomena := SortedSet.ofList ["temp", "wind", "snow"]

/-- Of the phenomena asked for, the one of the draft is not reached. -/
theorem findEntities_withDraft :
    ((withDraft.entitiesWhere .phenomenon (askingPhenomena.matchReachable .phenomenon)).map (·.id)) =
        [1] ∧
      ((withDraft.entities .phenomenon).map (·.id)).Nodup ∧
      ∃ found, withDraft.store.findDatasets askingPhenomena.matchFilters = .ok found ∧
        withDraft.store.findEntities .phenomenon (askingPhenomena.matchReachable .phenomenon) =
          .ok ((withDraft.entities .phenomenon).filter fun e =>
            decide (∃ d ∈ found, d.reference? .phenomenon = some e.id)) := by
  have hdistinct : ((withDraft.entities .phenomenon).map (·.id)).Nodup := by decide
  refine ⟨by decide, hdistinct, ?_⟩
  exact findEntities_matchReachable withDraft .phenomenon askingPhenomena (.inr hdistinct)

end Catalog
end Observatory
