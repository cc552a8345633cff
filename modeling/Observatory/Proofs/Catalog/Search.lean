import Observatory.Proofs.Catalog.References
import Observatory.Proofs.Catalog.Subqueries
import Observatory.Proofs.Query.Restriction
import Observatory.Query.Composition

/-! Dataset search.

`Asked` says what a query asks of a dataset: to be served, to be listed wherever the query
lists keys, to stand in the place asked for and to be of the kinds asked for. A search
with the predicate of a query never fails and gives the stored datasets that meet this
(`findDatasets_matchFilters`). -/
namespace Observatory.Catalog
open Restriction (Admits readId?)
open Predicate (SubqueryFree evaluate)

/-- What a query asks of a dataset. The keys of a reference are the id that it names and the
domain identifier of the entity that it leads to. -/
structure Asked (c : Catalog) (q : Query) (d : Dataset) : Prop where
  feature : d.feature.isSome
  published : d.published = true
  not_deleted : d.deleted = false
  not_disabled : d.disabled = false
  listed : Admits q.datasets q.options.useDomainIdentifiers (some d.id) (d.identifier = ·)
  references : ∀ dimension, Admits (q.idsFor dimension) q.options.useDomainIdentifiers
    (d.reference? dimension) (c.IdentifiedBy d dimension)
  place : ∀ box ∈ q.bbox, ∃ e, c.RefersTo d .feature e ∧
    ∃ shape ∈ e.geometry, shape.intersects box = true
  valueKind : q.valueTypes = ∅ ∨ d.valueKind ∈ q.valueTypes
  datasetKind : q.datasetTypes = ∅ ∨ d.datasetKind ∈ q.datasetTypes

instance (c : Catalog) (q : Query) : DecidablePred (c.Asked q) := fun d =>
  decidable_of_iff
    ((d.feature.isSome ∧ d.published = true ∧ d.deleted = false ∧ d.disabled = false) ∧
      Admits q.datasets q.options.useDomainIdentifiers (some d.id) (d.identifier = ·) ∧
      (∀ dimension ∈ Dimension.all, Admits (q.idsFor dimension) q.options.useDomainIdentifiers
        (d.reference? dimension) (c.IdentifiedBy d dimension)) ∧
      (∀ box ∈ q.bbox, ∃ e, c.RefersTo d .feature e ∧
        ∃ shape ∈ e.geometry, shape.intersects box = true) ∧
      (q.valueTypes = ∅ ∨ d.valueKind ∈ q.valueTypes) ∧
      (q.datasetTypes = ∅ ∨ d.datasetKind ∈ q.datasetTypes))
    ⟨fun ⟨⟨hfeature, hpublished, hdeleted, hdisabled⟩, hlisted, hreferences, hplace, hvalue, hkind⟩ =>
      ⟨hfeature, hpublished, hdeleted, hdisabled, hlisted,
        fun dimension => hreferences dimension dimension.mem_all, hplace, hvalue, hkind⟩,
    fun h => ⟨⟨h.feature, h.published, h.not_deleted, h.not_disabled⟩, h.listed,
      fun dimension _ => h.references dimension, h.place, h.valueKind, h.datasetKind⟩⟩

variable (c : Catalog)

/-! ### What the predicate of a query says of a dataset -/

/-- The public datasets are the visible ones. -/
theorem evaluate_isPublic (resolver : Resolver) (d : Dataset) :
    Restriction.isPublic.evaluate resolver (c.datasetRow d) = d.isVisible := by
  unfold Restriction.isPublic Dataset.isVisible
  rw [Predicate.evaluate_all]
  simp only [List.all_cons, List.all_nil, evaluate, datasetRow, Dataset.reference?]
  cases d.feature <;> cases d.published <;> cases d.deleted <;> cases d.disabled <;> rfl

theorem isVisible_iff (d : Dataset) :
    d.isVisible = true ↔
      d.feature.isSome ∧ d.published = true ∧ d.deleted = false ∧ d.disabled = false := by
  simp [Dataset.isVisible, and_assoc]

theorem datasets_holds (resolver : Resolver) (d : Dataset) (keys : SortedSet String)
    (useDomainIdentifiers : Bool) :
    (Restriction.datasets keys useDomainIdentifiers).all (evaluate resolver (c.datasetRow d)) =
        true ↔ Admits keys useDomainIdentifiers (some d.id) (d.identifier = ·) :=
  Restriction.membership_holds resolver (c.datasetRow d) _ keys useDomainIdentifiers .own rfl rfl
    fun _ => Option.some_inj

theorem datasetsOf_holds (resolver : Resolver) (d : Dataset) (dimension : Dimension)
    (keys : SortedSet String) (useDomainIdentifiers : Bool) :
    (Restriction.datasetsOf dimension keys useDomainIdentifiers).all
        (evaluate resolver (c.datasetRow d)) = true ↔
      Admits keys useDomainIdentifiers (d.reference? dimension) (c.IdentifiedBy d dimension) :=
  Restriction.membership_holds resolver (c.datasetRow d) _ keys useDomainIdentifiers
    (.ref dimension) rfl rfl fun _ => identifier_eq_some_iff

theorem bbox_holds (resolver : Resolver) (d : Dataset) (envelope : Option (Envelope Float)) :
    (Restriction.bbox envelope).all (evaluate resolver (c.datasetRow d)) = true ↔
      ∀ box ∈ envelope, ∃ e, c.RefersTo d .feature e ∧
        ∃ shape ∈ e.geometry, shape.intersects box = true := by
  rw [Restriction.bbox_holds resolver (c.datasetRow d) envelope rfl]
  simp only [Option.mem_def, Option.bind_eq_some_iff, referenced?_eq_some_iff]
  refine forall₂_congr fun box _ => ?_
  constructor
  · intro h
    obtain ⟨shape, ⟨e, he, hshape⟩, hmeets⟩ := h
    exact ⟨e, he, shape, hshape, hmeets⟩
  · intro h
    obtain ⟨e, he, shape, hshape, hmeets⟩ := h
    exact ⟨shape, ⟨e, he, hshape⟩, hmeets⟩

/-- **The predicate of a query holds of the datasets that the query asks for.** -/
theorem evaluate_matchFilters (q : Query) (resolver : Resolver) (d : Dataset) :
    q.matchFilters.evaluate resolver (c.datasetRow d) = true ↔ c.Asked q d := by
  unfold Query.matchFilters
  rw [Predicate.evaluate_allOf]
  simp only [List.all_cons, List.all_nil, Option.all_some, Bool.and_true, Bool.and_eq_true,
    evaluate_isPublic, isVisible_iff, datasets_holds, datasetsOf_holds, bbox_holds,
    Restriction.valueTypes, Restriction.datasetTypes,
    Restriction.kinds_holds resolver (c.datasetRow d) .valueKind q.valueTypes rfl,
    Restriction.kinds_holds resolver (c.datasetRow d) .datasetKind q.datasetTypes rfl]
  constructor
  · rintro ⟨⟨hfeature, hpublished, hdeleted, hdisabled⟩, hlisted, hoffering, hfeatures, hphenomenon,
      hprocedure, hcategory, hplatform, hplace, hvalue, hkind⟩
    refine ⟨hfeature, hpublished, hdeleted, hdisabled, hlisted, fun dimension => ?_, hplace, hvalue,
      hkind⟩
    cases dimension <;> assumption
  · intro h
    exact ⟨⟨h.feature, h.published, h.not_deleted, h.not_disabled⟩, h.listed,
      h.references .offering, h.references .feature, h.references .phenomenon,
      h.references .procedure, h.references .category, h.references .platform, h.place, h.valueKind,
      h.datasetKind⟩

/-- The predicate of a query has no subqueries. -/
theorem subqueryFree_matchFilters (q : Query) : SubqueryFree q.matchFilters := by
  obtain ⟨others, heq, hothers⟩ := Restriction.matchFilters_eq q
  rw [heq]
  apply Predicate.subqueryFree_allOf
  intro o ho p hp
  rcases List.mem_cons.mp ho with rfl | ho
  · obtain rfl := Option.some.inj hp
    exact Restriction.subqueryFree_isPublic
  · exact (hothers o ho p hp).subqueryFree

/-! ### The search -/

theorem datasetsWhere_matchFilters (q : Query) :
    c.datasetsWhere q.matchFilters = c.datasets.filter fun d => decide (c.Asked q d) := by
  rw [datasetsWhere_eq]
  apply List.filter_congr
  intro d _
  rw [Bool.eq_iff_iff, evaluate_matchFilters, decide_eq_true_iff]

/-- The lists of keys of a query. -/
def keyLists (q : Query) : List (SortedSet String) := q.datasets :: Dimension.all.map q.idsFor

/-- A query that asks for ids and lists a key that is none asks for nothing. -/
theorem not_asked_of_unreadable {q : Query} (hids : q.options.useDomainIdentifiers = false)
    (h : ∃ keys ∈ keyLists q, ∃ key ∈ keys, readId? key = none) (d : Dataset) : ¬ c.Asked q d := by
  intro hd
  obtain ⟨keys, hkeys, hkey⟩ := h
  rcases List.mem_cons.mp hkeys with rfl | hkeys
  · have := hd.listed
    rw [hids] at this
    exact Restriction.not_admits_of_unreadable hkey this
  · obtain ⟨dimension, _, rfl⟩ := List.mem_map.mp hkeys
    have := hd.references dimension
    rw [hids] at this
    exact Restriction.not_admits_of_unreadable hkey this

/-- **A search gives exactly the datasets that the query asks for**, each as often as it is
stored and in the order of the table, whatever references dangle and ids repeat. A key that
is no id, where ids are asked for, leaves nothing to find; it is no failure. -/
theorem findDatasets_matchFilters (q : Query) :
    c.store.findDatasets q.matchFilters =
        .ok (c.datasets.filter fun d => decide (c.Asked q d)) ∧
      (q.options.useDomainIdentifiers = false →
        (∃ keys ∈ keyLists q, ∃ key ∈ keys, readId? key = none) →
        c.store.findDatasets q.matchFilters = .ok []) := by
  have hfound : c.store.findDatasets q.matchFilters =
      .ok (c.datasets.filter fun d => decide (c.Asked q d)) :=
    congrArg Except.ok (c.datasetsWhere_matchFilters q)
  refine ⟨hfound, fun hids hkeys => ?_⟩
  have hnone : (c.datasets.filter fun d => decide (c.Asked q d)) = [] := by
    rw [List.filter_eq_nil_iff]
    intro d _
    rw [decide_eq_true_iff]
    exact c.not_asked_of_unreadable hids hkeys d
  rw [hfound, hnone]

end Observatory.Catalog
