import Observatory.Proofs.Catalog.Reachability

/-! Hidden datasets.

A catalog without its hidden datasets, and without the observations of any but visible
ones, answers as the catalog itself does: searches that ask for public datasets
(`datasetsWhere_withoutHidden`), reachable entities (`entitiesWhere_withoutHidden`) and
everything that is told of a visible dataset. Looking a dataset up finds it there where it
is visible (`dataset?_withoutHidden`), provided that ids are distinct. -/
namespace Observatory.Catalog
open Predicate (SubqueryFree evaluate)

/-- The datasets that are served. -/
def visible (c : Catalog) : List Dataset := c.datasets.filter (·.isVisible)

/-- The observations of the datasets that are served. -/
def visibleObservations (c : Catalog) : List Observation :=
  c.observations.filter fun o => c.visible.any fun d => o.dataset == d.id

/-- The catalog with the hidden datasets taken out, and with them all observations that do not
belong to a visible one. -/
def withoutHidden (c : Catalog) : Catalog := ⟨c.entities, c.visible, c.visibleObservations⟩

/-- Catalogs that differ at most in hidden datasets and in observations that belong to no
visible one. -/
structure SameVisible (a b : Catalog) : Prop where
  entities : a.entities = b.entities
  datasets : a.visible = b.visible
  observations : a.visibleObservations = b.visibleObservations

theorem SameVisible.withoutHidden_eq {a b : Catalog} (h : SameVisible a b) :
    a.withoutHidden = b.withoutHidden := by
  unfold withoutHidden
  rw [h.entities, h.datasets, h.observations]

variable (c : Catalog)

theorem mem_visible {d : Dataset} : d ∈ c.visible ↔ d ∈ c.datasets ∧ d.isVisible = true :=
  List.mem_filter

/-- Rows are joined with the same entities. -/
theorem datasetRow_withoutHidden (d : Dataset) : c.withoutHidden.datasetRow d = c.datasetRow d :=
  rfl

theorem asked_withoutHidden (q : Query) (d : Dataset) : c.withoutHidden.Asked q d ↔ c.Asked q d := by
  rw [← evaluate_matchFilters _ q Predicate.noSubqueries d, datasetRow_withoutHidden,
    evaluate_matchFilters]

theorem Asked.isVisible {c : Catalog} {q : Query} {d : Dataset} (h : c.Asked q d) :
    d.isVisible = true :=
  (isVisible_iff d).mpr ⟨h.feature, h.published, h.not_deleted, h.not_disabled⟩

/-! ### Searches -/

/-- What only visible datasets satisfy is found without the hidden ones. -/
theorem datasetsWhere_withoutHidden {p : Predicate} (hfree : SubqueryFree p)
    (hvisible : ∀ d, p.evaluate Predicate.noSubqueries (c.datasetRow d) = true →
      d.isVisible = true) :
    c.withoutHidden.datasetsWhere p = c.datasetsWhere p := by
  rw [datasetsWhere_eq, datasetsWhere_eq]
  show (c.datasets.filter _).filter _ = _
  rw [List.filter_filter]
  apply List.filter_congr
  intro d _
  rw [datasetRow_withoutHidden, hfree.evaluate_eq c.project Predicate.noSubqueries,
    hfree.evaluate_eq c.withoutHidden.project Predicate.noSubqueries]
  cases h : p.evaluate Predicate.noSubqueries (c.datasetRow d) with
  | false => rfl
  | true => exact hvisible d h

theorem matchFilters_withoutHidden (q : Query) :
    c.withoutHidden.datasetsWhere q.matchFilters = c.datasetsWhere q.matchFilters :=
  c.datasetsWhere_withoutHidden (subqueryFree_matchFilters q) fun d h =>
    ((c.evaluate_matchFilters q _ d).mp h).isVisible

/-- Entities are reached through visible datasets only. -/
theorem entitiesWhere_withoutHidden (q : Query) (dimension : Dimension) :
    c.withoutHidden.entitiesWhere dimension (q.matchReachable dimension) =
      c.entitiesWhere dimension (q.matchReachable dimension) := by
  rw [entitiesWhere_eq, entitiesWhere_eq]
  show (c.entities dimension).filter _ = _
  apply List.filter_congr
  intro e _
  rw [Bool.eq_iff_iff, evaluate_matchReachable, evaluate_matchReachable]
  refine and_congr_right fun _ => exists_congr fun d => ?_
  rw [asked_withoutHidden]
  constructor
  · rintro ⟨hd, hasked, href⟩
    exact ⟨(c.mem_visible.mp hd).1, hasked, href⟩
  · rintro ⟨hd, hasked, href⟩
    exact ⟨c.mem_visible.mpr ⟨hd, hasked.isVisible⟩, hasked, href⟩

/-- With distinct ids a dataset is found where it is visible, else none is. -/
theorem dataset?_withoutHidden (h : (c.datasets.map (·.id)).Nodup) (id : Id) :
    c.withoutHidden.dataset? id = (c.dataset? id).filter (·.isVisible) :=
  Records.find?_filter h (·.isVisible) id

/-! ### Visible datasets -/

section Visible
variable {d : Dataset} (hd : d ∈ c.visible)
include hd

theorem observationsOf_withoutHidden : c.withoutHidden.observationsOf d = c.observationsOf d := by
  unfold observationsOf
  show (c.observations.filter _).filter _ = _
  rw [List.filter_filter]
  apply List.filter_congr
  intro o _
  cases ho : o.dataset == d.id with
  | false => rfl
  | true =>
    rw [Bool.true_and, List.any_eq_true]
    exact ⟨d, hd, ho⟩

theorem observationsWhere_withoutHidden {p : Predicate} (hfree : SubqueryFree p) :
    c.withoutHidden.observationsWhere d p = c.observationsWhere d p := by
  unfold observationsWhere
  rw [c.observationsOf_withoutHidden hd]
  apply List.filter_congr
  intro o _
  exact hfree.evaluate_eq _ _ (observationRow o)

theorem resultTimes_withoutHidden : c.withoutHidden.resultTimes d = c.resultTimes d := by
  unfold resultTimes
  rw [c.observationsOf_withoutHidden hd]

end Visible

/-! ### The catalog with a draft -/

/-- The sample catalog with the draft and its observation taken out. -/
def withoutDraft : Catalog where
  entities := withDraft.entities
  datasets := [plainDataset 1 1 true, plainDataset 3 9 true]
  observations := [plainObservation 1 1, plainObservation 3 1]

theorem sameVisible_withoutDraft : SameVisible withDraft withoutDraft := ⟨rfl, rfl, rfl⟩

end Observatory.Catalog
