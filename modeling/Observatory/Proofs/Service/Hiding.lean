import Observatory.Proofs.Catalog.Hidden
import Observatory.Service.Operations

/-! Hidden datasets are as good as absent.

The service over a catalog answers as the service over the catalog without its hidden
datasets (`sameAnswers_withoutHidden`). Searches keep to visible datasets by the predicates
that they search with, requests for one dataset look at the one that is served under its id
(`Serves`); the two agree on what is hidden. So catalogs that differ in what is hidden only
cannot be told apart (`hidden_as_absent`). -/
namespace Observatory.Service
open Predicate (SubqueryFree evaluate)

/-- The service over a catalog. -/
def onCatalog (config : Config) (c : Catalog) : Service := ⟨config, c.store⟩

/-- Services that answer requests alike. Requests that ask for converters are answered
alike, and leave the same ones made, whichever were made before. -/
structure SameAnswers (s t : Service) : Prop where
  datasets : ∀ q, s.datasets q = t.datasets q
  data : ∀ id q r, s.data id q r = t.data id q r
  datasetExtras : ∀ id q r, s.datasetExtras id q r = t.datasetExtras id q r
  platformExtras : ∀ platform options, s.platformExtras platform options =
    t.platformExtras platform options
  reachable : ∀ dimension q, s.reachable dimension q = t.reachable dimension q

namespace SameAnswers
variable {s t u : Service}

theorem symm (h : SameAnswers s t) : SameAnswers t s where
  datasets q := (h.datasets q).symm
  data id q r := (h.data id q r).symm
  datasetExtras id q r := (h.datasetExtras id q r).symm
  platformExtras platform options := (h.platformExtras platform options).symm
  reachable dimension q := (h.reachable dimension q).symm

theorem trans (h : SameAnswers s t) (h' : SameAnswers t u) : SameAnswers s u where
  datasets q := (h.datasets q).trans (h'.datasets q)
  data id q r := (h.data id q r).trans (h'.data id q r)
  datasetExtras id q r := (h.datasetExtras id q r).trans (h'.datasetExtras id q r)
  platformExtras platform options :=
    (h.platformExtras platform options).trans (h'.platformExtras platform options)
  reachable dimension q := (h.reachable dimension q).trans (h'.reachable dimension q)

end SameAnswers

/-! ### The predicates of the service -/

theorem subqueryFree_matchObservations (q : Query) : SubqueryFree q.matchObservations := by
  apply Predicate.subqueryFree_allOf
  intro o ho p hp
  obtain rfl := List.mem_singleton.mp ho
  obtain ⟨interval, _, rfl⟩ := Option.map_eq_some_iff.mp hp
  exact .within ..

theorem subqueryFree_onPlatform (platform : Id) : SubqueryFree (onPlatform platform) := by
  apply Predicate.subqueryFree_allOf
  intro o ho p hp
  simp only [List.mem_cons, List.not_mem_nil, or_false] at ho
  rcases ho with hpublic | hplatform
  · rw [hpublic] at hp
    obtain rfl := Option.some.inj hp
    exact Restriction.subqueryFree_isPublic
  · rw [hplatform] at hp
    exact (Restriction.plain_membership p hp).subqueryFree

variable (config : Config) (c : Catalog)

/-- What stands on a platform is looked for among the visible datasets. -/
theorem isVisible_of_onPlatform {platform : Id} {resolver : Resolver} {d : Dataset}
    (h : (onPlatform platform).evaluate resolver (c.datasetRow d) = true) : d.isVisible = true := by
  unfold onPlatform at h
  rw [Predicate.evaluate_allOf, List.all_cons, Bool.and_eq_true] at h
  rw [← c.evaluate_isPublic resolver d]
  exact h.1

/-! ### Searches -/

theorem datasets_withoutHidden (q : Query) :
    (onCatalog config c.withoutHidden).datasets q = (onCatalog config c).datasets q := by
  unfold datasets
  show (do
      let ds ← Except.ok (c.withoutHidden.datasetsWhere q.matchFilters)
      ds.mapM ((onCatalog config c).condense q.options)) = _
  rw [c.matchFilters_withoutHidden q]
  rfl

theorem reachable_withoutHidden (dimension : Dimension) (q : Query) :
    (onCatalog config c.withoutHidden).reachable dimension q =
      (onCatalog config c).reachable dimension q := by
  unfold reachable
  show (Except.ok (c.withoutHidden.entitiesWhere dimension (q.matchReachable dimension))).map _ = _
  rw [c.entitiesWhere_withoutHidden q dimension]
  rfl

theorem platformExtras_withoutHidden (platform : Id) (options : Options) :
    (onCatalog config c.withoutHidden).platformExtras platform options =
      (onCatalog config c).platformExtras platform options := by
  have hfound : c.withoutHidden.datasetsWhere (onPlatform platform) =
      c.datasetsWhere (onPlatform platform) :=
    c.datasetsWhere_withoutHidden (subqueryFree_onPlatform platform) fun d h =>
      isVisible_of_onPlatform c h
  unfold platformExtras
  show (do
      let _ ← c.store.findEntity .platform platform
      let ds ← Except.ok (c.withoutHidden.datasetsWhere (onPlatform platform))
      Hierarchy.extrasOf c.store options ds) = _
  rw [hfound]
  rfl

/-! ### One dataset -/

/-- A dataset is served if it is found and visible; else it is reported as missing. -/
theorem visibleDataset_eq (id : Id) :
    (onCatalog config c).visibleDataset id =
      found (.noDataset id) ((c.dataset? id).filter (·.isVisible)) := by
  show (do
      let d ← found (.noDataset id) (c.dataset? id)
      if d.isVisible then return d else throw (Error.noDataset id)) = _
  cases c.dataset? id with
  | none => rfl
  | some d =>
    by_cases hd : d.isVisible = true
    · rw [Option.filter_some_pos hd]
      exact if_pos hd
    · rw [Option.filter_some_neg (Bool.eq_false_iff.mpr hd)]
      exact if_neg hd

theorem visibleDataset_withoutHidden (h : (c.datasets.map (·.id)).Nodup) (id : Id) :
    (onCatalog config c.withoutHidden).visibleDataset id = (onCatalog config c).visibleDataset id := by
  rw [visibleDataset_eq, visibleDataset_eq, c.dataset?_withoutHidden h, Option.filter_filter]
  simp only [Bool.and_self]

/-- A dataset is served under an id: it is the first that is stored with the id, and nothing
hides it. -/
structure Serves (id : Id) (d : Dataset) : Prop where
  first : Records.IsFirst (·.id) id c.datasets d
  feature : d.feature.isSome
  published : d.published = true
  not_deleted : d.deleted = false
  not_disabled : d.disabled = false

section Serves
variable {c} {id : Id} {d : Dataset}

theorem Serves.unique {other : Dataset} (h : Serves c id d) (h' : Serves c id other) : d = other :=
  h.first.unique h'.first

theorem Serves.mem_visible (h : Serves c id d) : d ∈ c.visible := by
  rw [c.mem_visible, Catalog.isVisible_iff]
  exact ⟨h.first.mem, h.feature, h.published, h.not_deleted, h.not_disabled⟩

theorem serves_iff : (c.dataset? id).filter (·.isVisible) = some d ↔ Serves c id d := by
  rw [Option.filter_eq_some_iff, Catalog.isVisible_iff]
  constructor
  · intro ⟨hfound, hfeature, hpublished, hdeleted, hdisabled⟩
    exact ⟨Records.find?_eq_some_iff.mp hfound, hfeature, hpublished, hdeleted, hdisabled⟩
  · intro h
    exact ⟨Records.find?_eq_some_iff.mpr h.first, h.feature, h.published, h.not_deleted,
      h.not_disabled⟩

theorem visibleDataset_of_serves (h : Serves c id d) :
    (onCatalog config c).visibleDataset id = .ok d := by
  rw [visibleDataset_eq, serves_iff.mpr h]
  rfl

theorem visibleDataset_of_not_serves (h : ∀ d, ¬ Serves c id d) :
    (onCatalog config c).visibleDataset id = .error (.noDataset id) := by
  have hnone : (c.dataset? id).filter (·.isVisible) = none :=
    Option.eq_none_iff_forall_ne_some.mpr fun d hd => h d (serves_iff.mp hd)
  rw [visibleDataset_eq, hnone]
  rfl

theorem mem_visible_of_visibleDataset (h : (onCatalog config c).visibleDataset id = .ok d) :
    d ∈ c.visible := by
  by_cases hserved : ∃ d, Serves c id d
  · obtain ⟨d, hserved⟩ := hserved
    rw [visibleDataset_of_serves config hserved] at h
    exact Except.ok.inj h ▸ hserved.mem_visible
  · rw [visibleDataset_of_not_serves config fun d hd => hserved ⟨d, hd⟩] at h
    exact nomatch h

end Serves

section Visible
variable {d : Dataset} (hd : d ∈ c.visible)
include hd

theorem convertAll_withoutHidden (kind : ValueKind) (q : Query) :
    (onCatalog config c.withoutHidden).convertAll kind d q = (onCatalog config c).convertAll kind d q := by
  unfold convertAll
  show (do
      let os ← Except.ok (c.withoutHidden.observationsWhere d q.matchObservations)
      let values ← (os.mergeSort inOrder).mapM _
      return (⟨d.id, d.valueKind, values⟩ : DataOutput)) = _
  rw [c.observationsWhere_withoutHidden hd (subqueryFree_matchObservations q)]
  rfl

theorem aggregate_withoutHidden (q : Query) (a : Aggregate) :
    (onCatalog config c.withoutHidden).aggregate d q a = (onCatalog config c).aggregate d q a := by
  unfold aggregate
  show (Except.ok (a.of? (Aggregate.numbers
    (c.withoutHidden.observationsWhere d q.matchObservations)))).map _ = _
  rw [c.observationsWhere_withoutHidden hd (subqueryFree_matchObservations q)]
  rfl

theorem aggregatesOf_withoutHidden (kind : ValueKind) (q : Query) :
    (onCatalog config c.withoutHidden).aggregatesOf kind d q =
      (onCatalog config c).aggregatesOf kind d q := by
  have hcount : (onCatalog config c.withoutHidden).store.countObservations d q.matchObservations =
      (onCatalog config c).store.countObservations d q.matchObservations := by
    show Except.ok (c.withoutHidden.observationsWhere d q.matchObservations).length = _
    rw [c.observationsWhere_withoutHidden hd (subqueryFree_matchObservations q)]
    rfl
  unfold aggregatesOf
  rw [hcount]
  simp only [aggregate_withoutHidden config c hd]

theorem aggregation_withoutHidden (q : Query) :
    (onCatalog config c.withoutHidden).aggregation d q = (onCatalog config c).aggregation d q := by
  unfold aggregation
  simp only [aggregatesOf_withoutHidden config c hd]

end Visible

/-- Two ways to go on from a lookup are the same if they are where it succeeds. -/
theorem lookup_congr {α β : Type} {lookup : Except Error α} {f g : α → Action β}
    (h : ∀ a, lookup = .ok a → f a = g a) :
    ((liftM lookup : Action α) >>= f) = ((liftM lookup : Action α) >>= g) := by
  cases lookup with
  | error e => rfl
  | ok a => exact h a rfl

theorem data_withoutHidden (h : (c.datasets.map (·.id)).Nodup) (id : Id) (q : Query) :
    (onCatalog config c.withoutHidden).data id q = (onCatalog config c).data id q := by
  unfold data
  rw [visibleDataset_withoutHidden config c h]
  apply lookup_congr
  intro d hd
  have hmem := mem_visible_of_visibleDataset config hd
  simp only [convertAll_withoutHidden config c hmem]

theorem datasetExtras_withoutHidden (h : (c.datasets.map (·.id)).Nodup) (id : Id) (q : Query) :
    (onCatalog config c.withoutHidden).datasetExtras id q = (onCatalog config c).datasetExtras id q := by
  unfold datasetExtras
  rw [visibleDataset_withoutHidden config c h]
  apply lookup_congr
  intro d hd
  have hmem := mem_visible_of_visibleDataset config hd
  have htimes : (onCatalog config c.withoutHidden).store.resultTimes d =
      (onCatalog config c).store.resultTimes d :=
    congrArg Except.ok (c.resultTimes_withoutHidden hmem)
  rw [htimes]
  simp only [aggregation_withoutHidden config c hmem]

/-! ### The service -/

theorem sameAnswers_withoutHidden (h : (c.datasets.map (·.id)).Nodup) :
    SameAnswers (onCatalog config c.withoutHidden) (onCatalog config c) where
  datasets := datasets_withoutHidden config c
  data id q := congrFun (data_withoutHidden config c h id q)
  datasetExtras id q := congrFun (datasetExtras_withoutHidden config c h id q)
  platformExtras := platformExtras_withoutHidden config c
  reachable := reachable_withoutHidden config c

/-- **Hidden datasets cannot be told from absent ones**: services over catalogs with the same
visible records answer alike, whatever else the catalogs hold. A request for a dataset that
is not visible fails in one way, whether the dataset is hidden or not there at all. -/
theorem hidden_as_absent {a b : Catalog} (h : Catalog.SameVisible a b)
    (ha : (a.datasets.map (·.id)).Nodup) (hb : (b.datasets.map (·.id)).Nodup) :
    SameAnswers (onCatalog config a) (onCatalog config b) ∧
      ∀ id, (∀ d ∈ a.visible, d.id ≠ id) → ∀ q r,
        (onCatalog config a).data id q r = (.error (.noDataset id), r) ∧
        (onCatalog config a).datasetExtras id q r = (.error (.noDataset id), r) := by
  constructor
  · have hleft := (sameAnswers_withoutHidden config a ha).symm
    have hright := sameAnswers_withoutHidden config b hb
    rw [← h.withoutHidden_eq] at hright
    exact hleft.trans hright
  · intro id hid q r
    have hmissing := visibleDataset_of_not_serves config fun d (hd : Serves a id d) =>
      hid d hd.mem_visible hd.first.key_eq
    constructor
    · unfold data
      rw [hmissing]
      rfl
    · unfold datasetExtras
      rw [hmissing]
      rfl

/-- The draft is as good as absent. -/
theorem draft_as_absent :
    SameAnswers (onCatalog .standard .withDraft) (onCatalog .standard .withoutDraft) ∧
      ∀ q r, (onCatalog .standard .withDraft).data 2 q r = (.error (.noDataset 2), r) := by
  have h := hidden_as_absent .standard Catalog.sameVisible_withoutDraft (by decide) (by decide)
  exact ⟨h.1, fun q r => (h.2 2 (by decide) q r).1⟩

end Observatory.Service
