import Observatory.Query.Predicate

/-! What combined predicates mean.

`all`, `any` and `negate` take apart, leave out and fold parts, whatever the parts
look like: the conjunction holds where every part does (`evaluate_all`), the
disjunction where some part does (`evaluate_any`), and the negation where its part
does not (`evaluate_negate`). Inductions over predicates go over the tree, the parts of
conjunctions and disjunctions included (`treeInduction`). -/
namespace Observatory.Predicate

/-- Induction over the tree of a predicate, with the statement at hand for every part
of a conjunction or disjunction, for what is negated and for the filter of a subquery. -/
@[elab_as_elim, induction_eliminator]
theorem treeInduction {motive : Predicate → Prop}
    (always : motive .always) (never : motive .never)
    (and : ∀ parts, (∀ p ∈ parts, motive p) → motive (.and parts))
    (or : ∀ parts, (∀ p ∈ parts, motive p) → motive (.or parts))
    (not : ∀ p, motive p → motive (.not p))
    (isNotNull : ∀ column, motive (.isNotNull column))
    (flag : ∀ column value, motive (.flag column value))
    (isIn : ∀ column values, motive (.isIn column values))
    (intersects : ∀ column envelope, motive (.intersects column envelope))
    (within : ∀ column interval, motive (.within column interval))
    (inSubquery : ∀ column projection filter, motive filter →
      motive (.inSubquery column projection filter))
    (p : Predicate) : motive p := by
  refine Predicate.rec (motive_1 := motive) (motive_2 := fun parts => ∀ p ∈ parts, motive p)
    always never and or not isNotNull flag isIn intersects within inSubquery ?_ ?_ p
  · intro p hp
    exact absurd hp List.not_mem_nil
  · intro first rest hfirst hrest p hp
    rcases List.mem_cons.mp hp with rfl | hp
    · exact hfirst
    · exact hrest p hp

section Evaluation
variable (resolver : Resolver) (row : Row)

theorem evaluateAll_eq (ps : List Predicate) :
    evaluateAll resolver row ps = ps.all (evaluate resolver row) := by
  induction ps with
  | nil => rfl
  | cons p rest ih => rw [evaluateAll, List.all_cons, ih]

theorem evaluateAny_eq (ps : List Predicate) :
    evaluateAny resolver row ps = ps.any (evaluate resolver row) := by
  induction ps with
  | nil => rfl
  | cons p rest ih => rw [evaluateAny, List.any_cons, ih]

theorem evaluate_and (ps : List Predicate) :
    evaluate resolver row (.and ps) = ps.all (evaluate resolver row) := by
  rw [evaluate, evaluateAll_eq]

theorem evaluate_or (ps : List Predicate) :
    evaluate resolver row (.or ps) = ps.any (evaluate resolver row) := by
  rw [evaluate, evaluateAny_eq]

end Evaluation

/-! ### Parts

What one predicate adds to a conjunction or disjunction does not depend on its
neighbours, so the parts that are kept are those that the given predicates add, one
after the other. -/

/-- Whether nothing meets the predicate by its form alone. -/
def isNever : Predicate → Bool
  | never => true
  | _ => false

/-- The parts that a predicate adds to a conjunction. -/
def conjuncts : Predicate → List Predicate
  | always => []
  | and parts => parts
  | p => [p]

/-- The parts that a predicate adds to a disjunction. -/
def disjuncts : Predicate → List Predicate
  | never => []
  | or parts => parts
  | p => [p]

theorem allParts?_eq (ps : List Predicate) :
    allParts? ps = if ps.any isNever then none else some (ps.flatMap conjuncts) := by
  induction ps with
  | nil => rfl
  | cons p rest ih =>
    cases p <;> by_cases h : rest.any isNever = true <;> simp [allParts?, isNever, conjuncts, ih, h]

theorem anyParts?_eq (ps : List Predicate) :
    anyParts? ps = if ps.any isAlways then none else some (ps.flatMap disjuncts) := by
  induction ps with
  | nil => rfl
  | cons p rest ih =>
    cases p <;> by_cases h : rest.any isAlways = true <;>
      simp [anyParts?, isAlways, disjuncts, ih, h]

theorem isNever_iff {p : Predicate} : p.isNever = true ↔ p = .never := by
  cases p <;> simp [isNever]

theorem isAlways_iff {p : Predicate} : p.isAlways = true ↔ p = .always := by
  cases p <;> simp [isAlways]

/-! ### Conjunction and disjunction -/

section Meaning
variable (resolver : Resolver) (row : Row)

theorem evaluate_conjuncts (p : Predicate) :
    (conjuncts p).all (evaluate resolver row) = p.evaluate resolver row := by
  cases p with
  | always => rw [conjuncts, List.all_nil, evaluate]
  | and parts => rw [conjuncts, evaluate_and]
  | _ => exact Bool.and_true _

theorem evaluate_disjuncts (p : Predicate) :
    (disjuncts p).any (evaluate resolver row) = p.evaluate resolver row := by
  cases p with
  | never => rw [disjuncts, List.any_nil, evaluate]
  | or parts => rw [disjuncts, evaluate_or]
  | _ => exact Bool.or_false _

/-- The parts that a conjunction keeps hold together where the given ones do; if it
keeps none because one never holds, neither do the given ones. -/
theorem evaluate_allParts? (ps : List Predicate) :
    (allParts? ps).any (·.all (evaluate resolver row)) = ps.all (evaluate resolver row) := by
  rw [allParts?_eq]
  by_cases h : ps.any isNever = true
  · obtain ⟨p, hp, hnever⟩ := List.any_eq_true.mp h
    rw [if_pos h, Option.any_none, eq_comm, List.all_eq_false]
    refine ⟨p, hp, ?_⟩
    rw [isNever_iff.mp hnever, evaluate]
    exact Bool.false_ne_true
  · rw [if_neg h, Option.any_some, List.all_flatMap]
    simp only [evaluate_conjuncts]

/-- **A conjunction holds exactly where every part does.** -/
theorem evaluate_all (ps : List Predicate) :
    (all ps).evaluate resolver row = ps.all (evaluate resolver row) := by
  rw [← evaluate_allParts?]
  unfold all
  split
  · next h => rw [h, Option.any_none, evaluate]
  · next h => rw [h, Option.any_some, List.all_nil, evaluate]
  · next p h => rw [h, Option.any_some, List.all_cons, List.all_nil, Bool.and_true]
  · next parts _ _ h => rw [h, Option.any_some, evaluate_and]

/-- Of the parts that a disjunction keeps some holds where some given one does; if it
keeps none because one always holds, so does a given one. -/
theorem evaluate_anyParts? (ps : List Predicate) :
    (anyParts? ps).all (·.any (evaluate resolver row)) = ps.any (evaluate resolver row) := by
  rw [anyParts?_eq]
  by_cases h : ps.any isAlways = true
  · obtain ⟨p, hp, halways⟩ := List.any_eq_true.mp h
    rw [if_pos h, Option.all_none, eq_comm, List.any_eq_true]
    refine ⟨p, hp, ?_⟩
    rw [isAlways_iff.mp halways, evaluate]
  · rw [if_neg h, Option.all_some, List.any_flatMap]
    simp only [evaluate_disjuncts]

/-- **A disjunction holds exactly where some part does.** -/
theorem evaluate_any (ps : List Predicate) :
    (any ps).evaluate resolver row = ps.any (evaluate resolver row) := by
  rw [← evaluate_anyParts?]
  unfold any
  split
  · next h => rw [h, Option.all_none, evaluate]
  · next h => rw [h, Option.all_some, List.any_nil, evaluate]
  · next p h => rw [h, Option.all_some, List.any_cons, List.any_nil, Bool.or_false]
  · next parts _ _ h => rw [h, Option.all_some, evaluate_or]

/-- **A negation holds exactly where its part does not.** -/
theorem evaluate_negate (p : Predicate) :
    (negate p).evaluate resolver row = !p.evaluate resolver row := by
  cases p <;> simp [negate, evaluate]

/-- A conjunction of optional parts holds where those do that are there. -/
theorem evaluate_allOf (ps : List (Option Predicate)) :
    (allOf ps).evaluate resolver row = ps.all (·.all (evaluate resolver row)) := by
  rw [allOf, evaluate_all]
  induction ps with
  | nil => rfl
  | cons p rest ih =>
    cases p with
    | none => exact ih
    | some p =>
      show (p :: rest.filterMap id).all _ = _
      rw [List.all_cons, List.all_cons, Option.all_some, ih]

/-- **Combined predicates mean what their names say**, whatever the shape of their parts: all,
any, not, and all of those that are there. -/
theorem evaluate_combined :
    (∀ ps, (all ps).evaluate resolver row = true ↔ ∀ p ∈ ps, p.evaluate resolver row = true) ∧
      (∀ ps, (any ps).evaluate resolver row = true ↔ ∃ p ∈ ps, p.evaluate resolver row = true) ∧
      (∀ p, (negate p).evaluate resolver row = true ↔ ¬p.evaluate resolver row = true) ∧
      ∀ ps, (allOf ps).evaluate resolver row = true ↔
        ∀ p, some p ∈ ps → p.evaluate resolver row = true := by
  refine ⟨fun ps => ?_, fun ps => ?_, fun p => ?_, fun ps => ?_⟩
  · rw [evaluate_all, List.all_eq_true]
  · rw [evaluate_any, List.any_eq_true]
  · rw [evaluate_negate, Bool.not_eq_true', Bool.not_eq_true]
  · rw [evaluate_allOf, List.all_eq_true]
    constructor
    · intro h p hp
      exact h (some p) hp
    · intro h p hp
      cases p with
      | none => rfl
      | some p => exact h p hp

end Meaning
end Observatory.Predicate
