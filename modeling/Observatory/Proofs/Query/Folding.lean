import Observatory.Proofs.Query.Restriction
import Observatory.Query.Composition

/-! Folded predicates.

A folded predicate has nothing left to fold: constants stand alone, conjunctions and
disjunctions have two parts at least and none of their own kind, and no negation stands
under another. `Folded` says so of the tree, not through the functions that fold.
Predicates are combined by conjunction and disjunction in one manner, a `Joint`, so what
is shown of a joint holds of both: folded predicates give a folded one (`folded_combine`),
and it does not matter in how many steps (`combine_append`). Binding folds whatever it is
given (`folded_bindWith`), and what is folded and has no subqueries is left as it is
(`bindWith_of_folded`). -/
namespace Observatory.Predicate

/-! ### The shape -/

def isAnd : Predicate → Bool
  | and _ => true
  | _ => false

def isOr : Predicate → Bool
  | or _ => true
  | _ => false

def isNot : Predicate → Bool
  | not _ => true
  | _ => false

/-- What may stand below the top of a folded predicate. A subquery may, whatever its filter
looks like; a constant may not. -/
inductive Compact : Predicate → Prop
  | and {parts} (several : 2 ≤ parts.length) (flat : ∀ p ∈ parts, p.isAnd = false)
    (h : ∀ p ∈ parts, Compact p) : Compact (.and parts)
  | or {parts} (several : 2 ≤ parts.length) (flat : ∀ p ∈ parts, p.isOr = false)
    (h : ∀ p ∈ parts, Compact p) : Compact (.or parts)
  | not {p} (single : p.isNot = false) (h : Compact p) : Compact (.not p)
  | isNotNull (column) : Compact (.isNotNull column)
  | flag (column value) : Compact (.flag column value)
  | isIn (column values) : Compact (.isIn column values)
  | intersects (column envelope) : Compact (.intersects column envelope)
  | within (column interval) : Compact (.within column interval)
  | inSubquery (column projection filter) : Compact (.inSubquery column projection filter)

/-- Nothing is left to fold: the predicate is a constant, or there is none in it. -/
inductive Folded : Predicate → Prop
  | always : Folded .always
  | never : Folded .never
  | compact {p} (h : Compact p) : Folded p

/-! ### Joints -/

/-- How predicates are put together. -/
inductive Joint where
  | all
  | any

namespace Joint

def combine : Joint → List Predicate → Predicate
  | all => Predicate.all
  | any => Predicate.any

/-- The constant that is left out. -/
def neutral : Joint → Predicate
  | all => .always
  | any => .never

/-- The constant that decides alone. -/
def absorbing : Joint → Predicate
  | all => .never
  | any => .always

/-- The node that holds several parts. -/
def node : Joint → List Predicate → Predicate
  | all => .and
  | any => .or

def isNode : Joint → Predicate → Bool
  | all => isAnd
  | any => isOr

/-- What a predicate adds. -/
def parts : Joint → Predicate → List Predicate
  | all => conjuncts
  | any => disjuncts

/-- Parts put together, with a node only where there are several. -/
def joined (j : Joint) : List Predicate → Predicate
  | [] => j.neutral
  | [p] => p
  | parts => j.node parts

variable (j : Joint) {ps qs : List Predicate}

theorem combine_of_absorbing (h : j.absorbing ∈ ps) : j.combine ps = j.absorbing := by
  cases j with
  | all =>
    have hnever : ps.any isNever = true := List.any_eq_true.mpr ⟨_, h, rfl⟩
    show Predicate.all ps = .never
    rw [Predicate.all, allParts?_eq, if_pos hnever]
  | any =>
    have halways : ps.any isAlways = true := List.any_eq_true.mpr ⟨_, h, rfl⟩
    show Predicate.any ps = .always
    rw [Predicate.any, anyParts?_eq, if_pos halways]

theorem combine_eq_joined (h : j.absorbing ∉ ps) :
    j.combine ps = j.joined (ps.flatMap j.parts) := by
  cases j with
  | all =>
    have hnever : ¬ ps.any isNever = true := by
      rw [List.any_eq_true]
      intro ⟨p, hp, hpnever⟩
      rw [isNever_iff.mp hpnever] at hp
      exact h hp
    show Predicate.all ps = joined all (ps.flatMap conjuncts)
    rw [Predicate.all, allParts?_eq, if_neg hnever]
    rcases ps.flatMap conjuncts with _ | ⟨p, _ | ⟨q, rest⟩⟩ <;> rfl
  | any =>
    have halways : ¬ ps.any isAlways = true := by
      rw [List.any_eq_true]
      intro ⟨p, hp, hpalways⟩
      rw [isAlways_iff.mp hpalways] at hp
      exact h hp
    show Predicate.any ps = joined any (ps.flatMap disjuncts)
    rw [Predicate.any, anyParts?_eq, if_neg halways]
    rcases ps.flatMap disjuncts with _ | ⟨p, _ | ⟨q, rest⟩⟩ <;> rfl

/-! ### Parts of folded predicates -/

/-- What may stand directly under a node. -/
structure IsPart (p : Predicate) : Prop where
  compact : Compact p
  flat : j.isNode p = false

variable {j}

theorem compact_node_iff : Compact (j.node ps) ↔ 2 ≤ ps.length ∧ ∀ p ∈ ps, j.IsPart p := by
  constructor
  · intro h
    cases j with
    | all => cases h with
      | and several flat h => exact ⟨several, fun p hp => ⟨h p hp, flat p hp⟩⟩
    | any => cases h with
      | or several flat h => exact ⟨several, fun p hp => ⟨h p hp, flat p hp⟩⟩
  · intro ⟨several, h⟩
    have flat : ∀ p ∈ ps, j.isNode p = false := fun p hp => (h p hp).flat
    have compact : ∀ p ∈ ps, Compact p := fun p hp => (h p hp).compact
    cases j with
    | all => exact .and several flat compact
    | any => exact .or several flat compact

/-- A part adds itself alone. -/
theorem IsPart.parts_eq {p : Predicate} (h : j.IsPart p) : j.parts p = [p] := by
  obtain ⟨compact, flat⟩ := h
  cases j with
  | all => cases compact with
    | and => exact nomatch flat
    | _ => rfl
  | any => cases compact with
    | or => exact nomatch flat
    | _ => rfl

theorem IsPart.ne_absorbing {p : Predicate} (h : j.IsPart p) : p ≠ j.absorbing := by
  intro heq
  have hconstant : Compact j.absorbing := heq ▸ h.compact
  cases j <;> cases hconstant

theorem parts_node : j.parts (j.node ps) = ps := by cases j <;> rfl

theorem exists_of_isNode {p : Predicate} (h : j.isNode p = true) : ∃ ps, p = j.node ps := by
  cases j with
  | all => cases p with
    | and parts => exact ⟨parts, rfl⟩
    | _ => exact nomatch h
  | any => cases p with
    | or parts => exact ⟨parts, rfl⟩
    | _ => exact nomatch h

/-- What a folded predicate adds may stand under a node, unless it decides alone. -/
theorem isPart_of_folded {p : Predicate} (h : Folded p) (hne : p ≠ j.absorbing) :
    ∀ part ∈ j.parts p, j.IsPart part := by
  cases h with
  | always => cases j with
    | all => exact List.forall_mem_nil _
    | any => exact absurd rfl hne
  | never => cases j with
    | all => exact absurd rfl hne
    | any => exact List.forall_mem_nil _
  | compact h =>
    cases hnode : j.isNode p with
    | false =>
      have hpart : j.IsPart p := ⟨h, hnode⟩
      rw [hpart.parts_eq]
      exact List.forall_mem_singleton.mpr hpart
    | true =>
      obtain ⟨ps, rfl⟩ := exists_of_isNode hnode
      rw [parts_node]
      exact (compact_node_iff.mp h).2

section Parts
variable (h : ∀ p ∈ ps, j.IsPart p)
include h

theorem flatMap_parts : ps.flatMap j.parts = ps := by
  rw [List.flatMap_congr fun p hp => (h p hp).parts_eq, List.flatMap_singleton']

theorem folded_joined : Folded (j.joined ps) := by
  rcases ps with _ | ⟨p, _ | ⟨q, rest⟩⟩
  · cases j
    · exact .always
    · exact .never
  · exact .compact (h p List.mem_cons_self).compact
  · exact .compact (compact_node_iff.mpr ⟨by simp, h⟩)

theorem parts_joined : j.parts (j.joined ps) = ps := by
  rcases ps with _ | ⟨p, _ | ⟨q, rest⟩⟩
  · cases j <;> rfl
  · exact (h p List.mem_cons_self).parts_eq
  · exact parts_node

theorem joined_ne_absorbing : j.joined ps ≠ j.absorbing := by
  rcases ps with _ | ⟨p, _ | ⟨q, rest⟩⟩
  · cases j <;> exact Predicate.noConfusion
  · exact (h p List.mem_cons_self).ne_absorbing
  · cases j <;> exact Predicate.noConfusion

end Parts

/-! ### Combining folded predicates -/

/-- All that folded predicates add may stand under a node, unless one of them decides alone. -/
theorem isPart_of_mem_flatMap (h : ∀ p ∈ ps, Folded p) (hne : j.absorbing ∉ ps) :
    ∀ part ∈ ps.flatMap j.parts, j.IsPart part := by
  intro part hpart
  obtain ⟨p, hp, hpart⟩ := List.mem_flatMap.mp hpart
  exact isPart_of_folded (h p hp) (fun heq => hne (heq ▸ hp)) part hpart

theorem folded_absorbing : Folded j.absorbing := by
  cases j
  · exact .never
  · exact .always

/-- **Folded predicates combine to a folded one.** -/
theorem folded_combine (h : ∀ p ∈ ps, Folded p) : Folded (j.combine ps) := by
  by_cases hne : j.absorbing ∈ ps
  · rw [combine_of_absorbing j hne]
    exact folded_absorbing
  · rw [combine_eq_joined j hne]
    exact folded_joined (isPart_of_mem_flatMap h hne)

/-- **Folded predicates may be combined in groups first.** -/
theorem combine_append (hps : ∀ p ∈ ps, Folded p) (hqs : ∀ q ∈ qs, Folded q) :
    j.combine (ps ++ qs) = j.combine [j.combine ps, j.combine qs] := by
  by_cases hp : j.absorbing ∈ ps
  · rw [combine_of_absorbing j (List.mem_append_left qs hp), combine_of_absorbing j hp,
      combine_of_absorbing j List.mem_cons_self]
  by_cases hq : j.absorbing ∈ qs
  · rw [combine_of_absorbing j (List.mem_append_right ps hq), combine_of_absorbing j hq,
      combine_of_absorbing j (List.mem_cons_of_mem _ List.mem_cons_self)]
  have hpsParts := isPart_of_mem_flatMap hps hp
  have hqsParts := isPart_of_mem_flatMap hqs hq
  have hneither : j.absorbing ∉ [j.joined (ps.flatMap j.parts), j.joined (qs.flatMap j.parts)] := by
    simp only [List.mem_cons, List.not_mem_nil, or_false, not_or]
    exact ⟨(joined_ne_absorbing hpsParts).symm, (joined_ne_absorbing hqsParts).symm⟩
  rw [combine_eq_joined j (List.not_mem_append hp hq), combine_eq_joined j hp,
    combine_eq_joined j hq, combine_eq_joined j hneither]
  simp only [List.flatMap_cons, List.flatMap_nil, List.append_nil, List.flatMap_append,
    parts_joined hpsParts, parts_joined hqsParts]

/-- The parts of a folded node combine to the node. -/
theorem combine_of_compact (h : Compact (j.node ps)) : j.combine ps = j.node ps := by
  obtain ⟨several, hparts⟩ := compact_node_iff.mp h
  have hne : j.absorbing ∉ ps := fun hmem => (hparts _ hmem).ne_absorbing rfl
  rw [combine_eq_joined j hne, flatMap_parts hparts]
  rcases ps with _ | ⟨p, _ | ⟨q, rest⟩⟩
  · exact absurd several (by decide)
  · exact absurd several (by simp)
  · rfl

end Joint

/-! ### Negation -/

theorem negate_of_compact {p : Predicate} (h : Compact p) (single : p.isNot = false) :
    negate p = .not p := by
  cases h with
  | not => exact nomatch single
  | _ => rfl

theorem folded_negate {p : Predicate} (h : Folded p) : Folded (negate p) := by
  cases h with
  | always => exact .never
  | never => exact .always
  | compact h =>
    cases hnot : p.isNot with
    | false =>
      rw [negate_of_compact h hnot]
      exact .compact (.not hnot h)
    | true =>
      cases h with
      | not _ h => exact .compact h
      | _ => exact nomatch hnot

/-- **A folded predicate is its own double negation.** -/
theorem negate_negate {p : Predicate} (h : Folded p) : negate (negate p) = p := by
  cases h with
  | always => rfl
  | never => rfl
  | compact h =>
    cases hnot : p.isNot with
    | false =>
      rw [negate_of_compact h hnot]
      rfl
    | true =>
      cases h with
      | not single h => exact negate_of_compact h single
      | _ => exact nomatch hnot

/-! ### Binding -/

section Bind
variable (find : Dimension → Predicate → Predicate → SortedSet Id)

theorem folded_ofIds (column : Column) (ids : SortedSet Id) : Folded (ofIds column ids) := by
  unfold ofIds
  split
  · exact .never
  · exact .compact (.isIn column (.ids ids))

/-- **A bound predicate is folded**, whatever the predicate was like. -/
theorem folded_bindWith (p : Predicate) : Folded (bindWith find p) := by
  induction p with
  | always => exact .always
  | never => exact .never
  | and parts ih =>
    rw [bindWith_and]
    exact Joint.folded_combine (j := .all) (List.forall_mem_map.mpr ih)
  | or parts ih =>
    rw [bindWith_or]
    exact Joint.folded_combine (j := .any) (List.forall_mem_map.mpr ih)
  | not p ih =>
    rw [bindWith]
    exact folded_negate ih
  | inSubquery column projection filter _ =>
    rw [bindWith]
    exact folded_ofIds ..
  | _ =>
    rw [bindWith]
    exact .compact (by constructor)

theorem bindWith_of_compact {p : Predicate} (h : Compact p) (hfree : SubqueryFree p) :
    bindWith find p = p := by
  induction h with
  | @and parts several flat h ih =>
    cases hfree with
    | and hfree =>
      have hsame : parts.map (bindWith find) = parts :=
        (List.map_congr_left fun p hp => ih p hp (hfree p hp)).trans (List.map_id' parts)
      rw [bindWith_and, hsame]
      exact Joint.combine_of_compact (j := .all) (.and several flat h)
  | @or parts several flat h ih =>
    cases hfree with
    | or hfree =>
      have hsame : parts.map (bindWith find) = parts :=
        (List.map_congr_left fun p hp => ih p hp (hfree p hp)).trans (List.map_id' parts)
      rw [bindWith_or, hsame]
      exact Joint.combine_of_compact (j := .any) (.or several flat h)
  | not single h ih =>
    cases hfree with
    | not hfree =>
      rw [bindWith, ih hfree]
      exact negate_of_compact h single
  | inSubquery => cases hfree
  | _ => rw [bindWith]

/-- A folded predicate without subqueries has nothing to bind. -/
theorem bindWith_of_folded {p : Predicate} (h : Folded p) (hfree : SubqueryFree p) :
    bindWith find p = p := by
  cases h with
  | always => rw [bindWith]
  | never => rw [bindWith]
  | compact h => exact bindWith_of_compact find h hfree

end Bind

/-! ### Queries -/

theorem folded_allOf {ps : List (Option Predicate)} (h : ∀ o ∈ ps, ∀ p ∈ o, Folded p) :
    Folded (allOf ps) := by
  refine Joint.folded_combine (j := .all) fun p hp => ?_
  obtain ⟨o, ho, hsome⟩ := List.mem_filterMap.mp hp
  exact h o ho p hsome

theorem folded_of_plain {p : Predicate} (h : Restriction.Plain p) : Folded p := by
  cases h with
  | never => exact .never
  | isIn column values => exact .compact (.isIn column values)
  | intersects column envelope => exact .compact (.intersects column envelope)

theorem folded_isPublic : Folded Restriction.isPublic := by
  apply Joint.folded_combine (j := .all)
  intro p hp
  simp only [List.mem_cons, List.not_mem_nil, or_false] at hp
  rcases hp with rfl | rfl | rfl | rfl
  · exact .compact (.isNotNull _)
  iterate 3 exact .compact (.flag _ _)

theorem folded_matchFilters (q : Query) : Folded q.matchFilters := by
  obtain ⟨others, heq, hothers⟩ := Restriction.matchFilters_eq q
  rw [heq]
  apply folded_allOf
  intro o ho p hp
  rcases List.mem_cons.mp ho with rfl | ho
  · obtain rfl := Option.some.inj hp
    exact folded_isPublic
  · exact folded_of_plain (hothers o ho p hp)

theorem folded_matchReachable (q : Query) (dimension : Dimension) :
    Folded (q.matchReachable dimension) := by
  apply folded_allOf
  intro o ho p hp
  simp only [List.mem_cons, List.not_mem_nil, or_false] at ho
  rcases ho with rfl | rfl
  · exact folded_of_plain (Restriction.plain_membership p hp)
  · obtain rfl := Option.some.inj hp
    exact .compact (.inSubquery ..)

/-- **Predicates are folded as they are put together.** Of folded predicates conjunction,
disjunction and negation are folded, a double negation is what it negates, and joining in
groups first gives the same tree. Whatever is bound is folded, and binding it again, with any
resolver, gives the same tree. The predicates of a query are folded. -/
theorem folded_throughout :
    (∀ ps, (∀ p ∈ ps, Folded p) → Folded (all ps) ∧ Folded (any ps)) ∧
    (∀ p, Folded p → Folded (negate p) ∧ negate (negate p) = p) ∧
    (∀ xs ys, (∀ p ∈ xs, Folded p) → (∀ p ∈ ys, Folded p) →
      all (xs ++ ys) = all [all xs, all ys] ∧ any (xs ++ ys) = any [any xs, any ys]) ∧
    (∀ (p : Predicate) (resolver : Resolver), Folded (p.bind resolver) ∧
      ∀ other, (p.bind resolver).bind other = p.bind resolver) ∧
    ∀ q : Query, Folded q.matchFilters ∧ ∀ dimension, Folded (q.matchReachable dimension) := by
  refine ⟨fun ps h => ⟨?_, ?_⟩, fun p h => ⟨folded_negate h, negate_negate h⟩,
    fun xs ys hxs hys => ⟨?_, ?_⟩, fun p resolver => ⟨folded_bindWith _ p, fun other => ?_⟩,
    fun q => ⟨folded_matchFilters q, folded_matchReachable q⟩⟩
  · exact Joint.folded_combine (j := .all) h
  · exact Joint.folded_combine (j := .any) h
  · exact Joint.combine_append (j := .all) hxs hys
  · exact Joint.combine_append (j := .any) hxs hys
  · exact bindWith_of_folded _ (folded_bindWith _ p) (subqueryFree_bindWith _ p)

/-! ### A predicate with something to fold at every level -/

/-- A double negation and an empty conjunction beside a disjunction that hangs on a subquery. -/
def untidy : Predicate :=
  .not (.and [.or [.inSubquery (.own .id) .offering .always, .never],
    .not (.not (.isNotNull .geometry)), .and []])

/-- The resolver that finds one id for everything. -/
def findingOne : Resolver := fun _ _ => SortedSet.ofList [7]

/-- The untidy predicate folds as it is bound: to a constant where the subquery finds nothing,
else to two conditions under a negation. -/
theorem untidy_folded :
    ¬ Folded untidy ∧ untidy.bind noSubqueries = .always ∧
      untidy.bind findingOne =
        .not (.and [.isIn (.own .id) (.ids (SortedSet.ofList [7])), .isNotNull .geometry]) ∧
      Folded (untidy.bind findingOne) ∧
      (untidy.bind findingOne).bind noSubqueries = untidy.bind findingOne ∧
      negate (negate (untidy.bind findingOne)) = untidy.bind findingOne ∧
      all ([.always, untidy.bind findingOne] ++ [.isNotNull .geometry, .never]) =
        all [all [.always, untidy.bind findingOne], all [.isNotNull .geometry, .never]] := by
  obtain ⟨_, hnegate, hgroups, hbind, _⟩ := folded_throughout
  obtain ⟨hfolded, hagain⟩ := hbind untidy findingOne
  have hunfolded : ¬ Folded untidy := by
    intro h
    cases h with
    | compact h => cases h with
      | not _ h => cases h with
        | and _ flat _ => exact absurd (flat (.and []) (by simp)) Bool.noConfusion
  refine ⟨hunfolded, rfl, rfl, hfolded, hagain noSubqueries, (hnegate _ hfolded).2,
    (hgroups _ _ ?_ ?_).1⟩
  · exact List.forall_mem_cons.mpr ⟨.always, List.forall_mem_singleton.mpr hfolded⟩
  · exact List.forall_mem_cons.mpr
      ⟨.compact (.isNotNull _), List.forall_mem_singleton.mpr .never⟩

end Observatory.Predicate
