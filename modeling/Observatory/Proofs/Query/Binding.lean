import Observatory.Proofs.Query.Combination

/-! Binding subqueries.

A bound predicate has no subquery left (`subqueryFree_bindWith`), so it means the same
under every resolver (`SubqueryFree.evaluate_eq`), and it means what the predicate meant
under the resolver it was bound with (`evaluate_bind`). How deep subqueries stand in the
filters of others is counted by `nesting`: a resolver is asked for filters of less depth
only (`bind_congr`). -/
namespace Observatory.Predicate

/-- No subquery occurs in the predicate. -/
inductive SubqueryFree : Predicate → Prop
  | always : SubqueryFree .always
  | never : SubqueryFree .never
  | and {parts} (h : ∀ p ∈ parts, SubqueryFree p) : SubqueryFree (.and parts)
  | or {parts} (h : ∀ p ∈ parts, SubqueryFree p) : SubqueryFree (.or parts)
  | not {p} (h : SubqueryFree p) : SubqueryFree (.not p)
  | isNotNull (column) : SubqueryFree (.isNotNull column)
  | flag (column value) : SubqueryFree (.flag column value)
  | isIn (column values) : SubqueryFree (.isIn column values)
  | intersects (column envelope) : SubqueryFree (.intersects column envelope)
  | within (column interval) : SubqueryFree (.within column interval)

/-- Without subqueries the resolver is not consulted. -/
theorem SubqueryFree.evaluate_eq {p : Predicate} (h : SubqueryFree p) (first second : Resolver)
    (row : Row) : p.evaluate first row = p.evaluate second row := by
  induction h with
  | @and parts _ ih =>
    rw [evaluate_and, evaluate_and, Bool.eq_iff_iff, List.all_eq_true, List.all_eq_true]
    exact forall₂_congr fun p hp => by rw [ih p hp]
  | @or parts _ ih =>
    rw [evaluate_or, evaluate_or, Bool.eq_iff_iff, List.any_eq_true, List.any_eq_true]
    exact exists_congr fun p => and_congr_right fun hp => by rw [ih p hp]
  | not _ ih => rw [evaluate, evaluate, ih]
  | _ => simp only [evaluate]

/-! ### Combination keeps subqueries out -/

theorem SubqueryFree.conjuncts {p : Predicate} (h : SubqueryFree p) :
    ∀ part ∈ p.conjuncts, SubqueryFree part := by
  intro part hpart
  cases h with
  | always => exact absurd hpart List.not_mem_nil
  | and h => exact h part hpart
  | _ =>
    obtain rfl := List.mem_singleton.mp hpart
    constructor <;> assumption

theorem SubqueryFree.disjuncts {p : Predicate} (h : SubqueryFree p) :
    ∀ part ∈ p.disjuncts, SubqueryFree part := by
  intro part hpart
  cases h with
  | never => exact absurd hpart List.not_mem_nil
  | or h => exact h part hpart
  | _ =>
    obtain rfl := List.mem_singleton.mp hpart
    constructor <;> assumption

theorem subqueryFree_all {ps : List Predicate} (h : ∀ p ∈ ps, SubqueryFree p) :
    SubqueryFree (all ps) := by
  have hparts : ∀ part ∈ ps.flatMap conjuncts, SubqueryFree part := by
    intro part hpart
    obtain ⟨p, hp, hpart⟩ := List.mem_flatMap.mp hpart
    exact (h p hp).conjuncts part hpart
  unfold all
  rw [allParts?_eq]
  by_cases hnever : ps.any isNever = true
  · rw [if_pos hnever]
    exact .never
  · rw [if_neg hnever]
    split
    · exact .never
    · exact .always
    · next p hp =>
      apply hparts
      rw [Option.some.inj hp]
      exact List.mem_singleton_self p
    · next parts _ _ hp =>
      rw [← Option.some.inj hp]
      exact .and hparts

theorem subqueryFree_any {ps : List Predicate} (h : ∀ p ∈ ps, SubqueryFree p) :
    SubqueryFree (any ps) := by
  have hparts : ∀ part ∈ ps.flatMap disjuncts, SubqueryFree part := by
    intro part hpart
    obtain ⟨p, hp, hpart⟩ := List.mem_flatMap.mp hpart
    exact (h p hp).disjuncts part hpart
  unfold any
  rw [anyParts?_eq]
  by_cases halways : ps.any isAlways = true
  · rw [if_pos halways]
    exact .always
  · rw [if_neg halways]
    split
    · exact .always
    · exact .never
    · next p hp =>
      apply hparts
      rw [Option.some.inj hp]
      exact List.mem_singleton_self p
    · next parts _ _ hp =>
      rw [← Option.some.inj hp]
      exact .or hparts

theorem subqueryFree_negate {p : Predicate} (h : SubqueryFree p) : SubqueryFree (negate p) := by
  cases h with
  | always => exact .never
  | never => exact .always
  | not h => exact h
  | _ => exact .not (by constructor <;> assumption)

/-- A conjunction of optional parts is free of subqueries when those that are there are. -/
theorem subqueryFree_allOf {ps : List (Option Predicate)} (h : ∀ o ∈ ps, ∀ p ∈ o, SubqueryFree p) :
    SubqueryFree (allOf ps) := by
  apply subqueryFree_all
  intro p hp
  obtain ⟨o, ho, hsome⟩ := List.mem_filterMap.mp hp
  exact h o ho p hsome

/-! ### Bound predicates -/

section Bind
variable (find : Dimension → Predicate → Predicate → SortedSet Id)

theorem bindAllWith_eq (ps : List Predicate) : bindAllWith find ps = ps.map (bindWith find) := by
  induction ps with
  | nil => rfl
  | cons p rest ih => rw [bindAllWith, List.map_cons, ih]

theorem bindWith_and (ps : List Predicate) :
    bindWith find (.and ps) = all (ps.map (bindWith find)) := by
  rw [bindWith, bindAllWith_eq]

theorem bindWith_or (ps : List Predicate) :
    bindWith find (.or ps) = any (ps.map (bindWith find)) := by
  rw [bindWith, bindAllWith_eq]

theorem subqueryFree_ofIds (column : Column) (ids : SortedSet Id) :
    SubqueryFree (ofIds column ids) := by
  unfold ofIds
  split
  · exact .never
  · exact .isIn column (.ids ids)

/-- **Nothing is left to resolve in a bound predicate.** -/
theorem subqueryFree_bindWith (p : Predicate) : SubqueryFree (bindWith find p) := by
  induction p with
  | and parts ih =>
    rw [bindWith_and]
    exact subqueryFree_all (List.forall_mem_map.mpr ih)
  | or parts ih =>
    rw [bindWith_or]
    exact subqueryFree_any (List.forall_mem_map.mpr ih)
  | not p ih =>
    rw [bindWith]
    exact subqueryFree_negate ih
  | inSubquery column projection filter _ =>
    rw [bindWith]
    exact subqueryFree_ofIds ..
  | _ => simp only [bindWith]; constructor

end Bind

/-! ### Binding keeps the meaning -/

/-- Membership in a set of ids means the same as a literal set, an empty one included:
nulls and cells of another type are in neither. -/
theorem evaluate_ofIds (resolver : Resolver) (row : Row) (column : Column) (ids : SortedSet Id) :
    (ofIds column ids).evaluate resolver row = holdsId (row column) ids := by
  unfold ofIds
  by_cases h : ids.isEmpty = true
  · rw [if_pos h, evaluate]
    have hids : ids.toList = [] := List.isEmpty_iff.mp h
    cases row column <;> simp [holdsId, SortedSet.contains, hids]
  · rw [if_neg h, evaluate]
    cases row column <;> rfl

/-- **A predicate bound with a resolver holds where it held under that resolver.** -/
theorem evaluate_bind (resolver : Resolver) (row : Row) (p : Predicate) :
    (p.bind resolver).evaluate resolver row = p.evaluate resolver row := by
  unfold bind
  induction p with
  | and parts ih =>
    rw [bindWith_and, evaluate_all, evaluate_and, List.all_map, Bool.eq_iff_iff, List.all_eq_true,
      List.all_eq_true]
    exact forall₂_congr fun p hp => by rw [Function.comp_apply, ih p hp]
  | or parts ih =>
    rw [bindWith_or, evaluate_any, evaluate_or, List.any_map, Bool.eq_iff_iff, List.any_eq_true,
      List.any_eq_true]
    exact exists_congr fun p => and_congr_right fun hp => by rw [Function.comp_apply, ih p hp]
  | not p ih => rw [bindWith, evaluate_negate, ih, evaluate]
  | inSubquery column projection filter _ => rw [bindWith, evaluate_ofIds, evaluate]
  | _ => rw [bindWith]

/-! ### Depth of subqueries -/

mutual

/-- How deep subqueries stand in the filters of subqueries. -/
def nesting : Predicate → Nat
  | and parts => nestingOfAll parts
  | or parts => nestingOfAll parts
  | not p => nesting p
  | inSubquery _ _ filter => nesting filter + 1
  | _ => 0

/-- The depth of the deepest part. -/
def nestingOfAll : List Predicate → Nat
  | [] => 0
  | p :: rest => max (nesting p) (nestingOfAll rest)

end

theorem nesting_le_nestingOfAll {p : Predicate} {ps : List Predicate} (h : p ∈ ps) :
    p.nesting ≤ nestingOfAll ps := by
  induction ps with
  | nil => exact absurd h List.not_mem_nil
  | cons q rest ih =>
    rw [nestingOfAll]
    rcases List.mem_cons.mp h with rfl | h
    · exact Nat.le_max_left ..
    · exact Nat.le_trans (ih h) (Nat.le_max_right ..)

/-- Binding asks the resolver for filters of smaller depth only. -/
theorem bind_congr {first second : Resolver} {p : Predicate}
    (h : ∀ projection filter, filter.nesting < p.nesting →
      first projection filter = second projection filter) :
    p.bind first = p.bind second := by
  unfold bind
  induction p with
  | and parts ih =>
    rw [bindWith_and, bindWith_and]
    congr 1
    apply List.map_congr_left
    intro p hp
    refine ih p hp fun projection filter hlt => h projection filter ?_
    rw [nesting]
    exact Nat.lt_of_lt_of_le hlt (nesting_le_nestingOfAll hp)
  | or parts ih =>
    rw [bindWith_or, bindWith_or]
    congr 1
    apply List.map_congr_left
    intro p hp
    refine ih p hp fun projection filter hlt => h projection filter ?_
    rw [nesting]
    exact Nat.lt_of_lt_of_le hlt (nesting_le_nestingOfAll hp)
  | not p ih =>
    rw [bindWith, bindWith]
    rw [nesting] at h
    rw [ih h]
  | inSubquery column projection filter _ =>
    rw [bindWith, bindWith, h projection filter]
    rw [nesting]
    exact Nat.lt_succ_self _
  | _ => simp only [bindWith]

end Observatory.Predicate
