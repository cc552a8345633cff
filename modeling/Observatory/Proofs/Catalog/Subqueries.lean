import Observatory.Catalog.Store
import Observatory.Proofs.Collection.SortedSet
import Observatory.Proofs.Query.Binding

/-! Subqueries of a catalog.

A catalog answers a subquery by binding the filter with its own answers and looking at
the datasets (`project_eq`), and looks rows up the same way. Since binding keeps the
meaning, none of this can be told from asking the unbound predicate row by row
(`mem_project`, `datasetsWhere_eq`, `entitiesWhere_eq`), and the calling back ends: calls
nested deeper than the subqueries of a filter are never made (`projectWithin_eq`). -/
namespace Observatory.Catalog
open Predicate (SubqueryFree)

/-- The ids that some datasets have for a dimension. -/
def idsWhere (c : Catalog) (projection : Dimension) (wanted : Dataset → Bool) : SortedSet Id :=
  SortedSet.ofList ((c.datasets.filter wanted).filterMap (·.reference? projection))

/-- Answers subqueries by calling back: the filter is bound with the answers of one call
less, and the rows are looked at with them. Calls nested deeper than that are answered
from outside. -/
def projectWithin (c : Catalog) (outside : Resolver) : Nat → Resolver
  | 0 => outside
  | calls + 1 => fun projection filter =>
    let resolver := c.projectWithin outside calls
    let bound := filter.bind resolver
    c.idsWhere projection fun d => bound.evaluate resolver (c.datasetRow d)

variable (c : Catalog)

theorem mem_idsWhere {projection : Dimension} {wanted : Dataset → Bool} {id : Id} :
    id ∈ c.idsWhere projection wanted ↔
      ∃ d ∈ c.datasets, wanted d = true ∧ d.reference? projection = some id := by
  unfold idsWhere
  rw [SortedSet.mem_ofList, List.mem_filterMap]
  constructor
  · rintro ⟨d, hd, hid⟩
    obtain ⟨hd, hwanted⟩ := List.mem_filter.mp hd
    exact ⟨d, hd, hwanted, hid⟩
  · rintro ⟨d, hd, hwanted, hid⟩
    exact ⟨d, List.mem_filter.mpr ⟨hd, hwanted⟩, hid⟩

theorem idsWhere_congr {projection : Dimension} {first second : Dataset → Bool}
    (h : ∀ d, first d = second d) : c.idsWhere projection first = c.idsWhere projection second := by
  rw [funext h]

/-! ### Answers -/

/-- Without subqueries it does not matter how rows are looked at. -/
theorem select_eq {p : Predicate} (h : SubqueryFree p) (projection : Dimension)
    (resolver : Resolver) :
    c.select projection p =
      c.idsWhere projection fun d => p.evaluate resolver (c.datasetRow d) :=
  c.idsWhere_congr fun d => h.evaluate_eq Predicate.noSubqueries resolver (c.datasetRow d)

/-- Binding from the inside out is binding with the answers of the catalog. -/
theorem bindWith_select (p : Predicate) :
    p.bindWith (fun projection _ bound => c.select projection bound) = p.bind c.project := by
  unfold Predicate.bind
  induction p with
  | and parts ih =>
    rw [Predicate.bindWith_and, Predicate.bindWith_and]
    congr 1
    exact List.map_congr_left ih
  | or parts ih =>
    rw [Predicate.bindWith_or, Predicate.bindWith_or]
    congr 1
    exact List.map_congr_left ih
  | not p ih => rw [Predicate.bindWith, Predicate.bindWith, ih]
  | inSubquery column projection filter _ =>
    rw [Predicate.bindWith, Predicate.bindWith]
    rfl
  | _ => simp only [Predicate.bindWith]

/-- What a catalog answers is what it finds when the filter is bound with its answers. -/
theorem project_eq (projection : Dimension) (filter : Predicate) :
    c.project projection filter =
      c.idsWhere projection fun d =>
        (filter.bind c.project).evaluate c.project (c.datasetRow d) := by
  unfold project
  rw [bindWith_select]
  exact c.select_eq (Predicate.subqueryFree_bindWith _ filter) projection c.project

/-- The answer to a subquery, from its unbound filter. -/
theorem mem_project {projection : Dimension} {filter : Predicate} {id : Id} :
    id ∈ c.project projection filter ↔
      ∃ d ∈ c.datasets, filter.evaluate c.project (c.datasetRow d) = true ∧
        d.reference? projection = some id := by
  rw [project_eq, mem_idsWhere]
  simp only [Predicate.evaluate_bind]

/-- As many nested calls as subqueries stand in each other are enough, whatever would
answer calls beyond them. -/
theorem projectWithin_eq (outside : Resolver) (calls : Nat) (projection : Dimension)
    (filter : Predicate) (h : filter.nesting < calls) :
    c.projectWithin outside calls projection filter = c.project projection filter := by
  induction calls generalizing projection filter with
  | zero => exact absurd h (Nat.not_lt_zero _)
  | succ calls ih =>
    -- Subqueries in the filter are less deep, so one call less answers them.
    have hbind : filter.bind (c.projectWithin outside calls) = filter.bind c.project := by
      apply Predicate.bind_congr
      intro inner deeper hlt
      exact ih inner deeper (by omega)
    rw [project_eq]
    show c.idsWhere projection _ = _
    rw [hbind]
    exact c.idsWhere_congr fun d =>
      (Predicate.subqueryFree_bindWith _ filter).evaluate_eq _ _ (c.datasetRow d)

/-! ### Searches -/

theorem datasetsWhere_eq (p : Predicate) :
    c.datasetsWhere p = c.datasets.filter fun d => p.evaluate c.project (c.datasetRow d) := by
  unfold datasetsWhere
  simp only [Predicate.evaluate_bind]

theorem entitiesWhere_eq (dimension : Dimension) (p : Predicate) :
    c.entitiesWhere dimension p =
      (c.entities dimension).filter fun e => p.evaluate c.project (entityRow e) := by
  unfold entitiesWhere
  simp only [Predicate.evaluate_bind]

/-- **Binding first agrees with asking row by row.** A bound predicate holds where the
unbound one does, whatever resolver it is asked with afterwards. So the answers of a
catalog, which call for each other, are those of a recursion that ends with the deepest
subquery, and they and the two searches hold exactly the rows on which the unbound
predicate holds, in the order of the tables. -/
theorem bound_agrees_with_unbound :
    (∀ (p : Predicate) (resolver other : Resolver) (row : Row),
      (p.bind resolver).evaluate resolver row = p.evaluate resolver row ∧
        SubqueryFree (p.bind resolver) ∧
        (p.bind resolver).evaluate other row = (p.bind resolver).evaluate resolver row) ∧
    (∀ (projection : Dimension) (filter : Predicate),
      c.project projection filter =
          (c.idsWhere projection fun d =>
            (filter.bind c.project).evaluate c.project (c.datasetRow d)) ∧
        (∀ (outside : Resolver) (calls : Nat), filter.nesting < calls →
          c.projectWithin outside calls projection filter = c.project projection filter) ∧
        ∀ id, id ∈ c.project projection filter ↔
          ∃ d ∈ c.datasets, filter.evaluate c.project (c.datasetRow d) = true ∧
            d.reference? projection = some id) ∧
    (∀ p : Predicate, c.store.findDatasets p =
      .ok (c.datasets.filter fun d => p.evaluate c.project (c.datasetRow d))) ∧
    ∀ (dimension : Dimension) (p : Predicate), c.store.findEntities dimension p =
      .ok ((c.entities dimension).filter fun e => p.evaluate c.project (entityRow e)) := by
  refine ⟨fun p resolver other row => ?_, fun projection filter => ?_, fun p => ?_,
    fun dimension p => ?_⟩
  · have hfree : SubqueryFree (p.bind resolver) := Predicate.subqueryFree_bindWith _ p
    exact ⟨Predicate.evaluate_bind resolver row p, hfree, hfree.evaluate_eq other resolver row⟩
  · refine ⟨c.project_eq projection filter, fun outside calls hlt => ?_, fun id => c.mem_project⟩
    exact c.projectWithin_eq outside calls projection filter hlt
  · rw [← datasetsWhere_eq]
    rfl
  · rw [← entitiesWhere_eq]
    rfl

end Observatory.Catalog
