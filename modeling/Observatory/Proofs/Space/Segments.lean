import Observatory.Space.Geometry
import Mathlib.Analysis.Convex.Segment
import Mathlib.Data.Rat.Cast.Order
import Mathlib.Tactic.Linarith
import Mathlib.Tactic.LinearCombination
import Mathlib.Tactic.FieldSimp

/-! Segments with exact coordinates.

Positions are pairs of rationals and a segment is the set of points between its ends, the
ends included. The test for two segments is exact (`segmentsIntersect_iff`): it finds a
common point however they lie, also where they only touch, lie on one line or are no more
than a point. -/
namespace Observatory

theorem Number.lesser_eq_min (a b : ℚ) : Number.lesser a b = min a b := by
  unfold Number.lesser
  rw [bne_self_eq_false, Bool.or_false, min_def_lt]
  simp only [decide_eq_true_eq]

theorem Number.greater_eq_max (a b : ℚ) : Number.greater a b = max a b := by
  unfold Number.greater
  rw [bne_self_eq_false, Bool.or_false, max_comm, max_def_lt]
  simp only [decide_eq_true_eq]

/-- Where a point is in the plane. -/
def Point.position (p : Point ℚ) : ℚ × ℚ := (p.x, p.y)

namespace Geometry

/-- The points of a segment by how far along it they are. -/
theorem mem_segment_iff {a b : Point ℚ} {p : ℚ × ℚ} :
    p ∈ segment ℚ a.position b.position ↔
      ∃ t, 0 ≤ t ∧ t ≤ 1 ∧ p.1 = a.x + t * (b.x - a.x) ∧ p.2 = a.y + t * (b.y - a.y) := by
  rw [segment_eq_image']
  constructor
  · rintro ⟨t, ⟨h0, h1⟩, rfl⟩
    exact ⟨t, h0, h1, rfl, rfl⟩
  · rintro ⟨t, h0, h1, hx, hy⟩
    exact ⟨t, ⟨h0, h1⟩, Prod.ext hx.symm hy.symm⟩

theorem position_mem_segment_iff {a b p : Point ℚ} :
    p.position ∈ segment ℚ a.position b.position ↔
      ∃ t, 0 ≤ t ∧ t ≤ 1 ∧ p.x = a.x + t * (b.x - a.x) ∧ p.y = a.y + t * (b.y - a.y) :=
  mem_segment_iff

/-! ### Points on the line of a segment -/

theorem inSpan_iff {a b p : Point ℚ} :
    inSpan a b p = true ↔ p.x ∈ segment ℚ a.x b.x ∧ p.y ∈ segment ℚ a.y b.y := by
  unfold inSpan
  rw [segment_eq_Icc', segment_eq_Icc', Number.lesser_eq_min, Number.lesser_eq_min,
    Number.greater_eq_max, Number.greater_eq_max]
  simp only [Bool.and_eq_true, decide_eq_true_eq, Set.mem_Icc, and_assoc]

theorem inSpan_of_mem_segment {a b p : Point ℚ} (h : p.position ∈ segment ℚ a.position b.position) :
    inSpan a b p = true :=
  inSpan_iff.mpr (Prod.segment_subset a.position b.position h)

theorem orientation_of_mem_segment {a b p : Point ℚ}
    (h : p.position ∈ segment ℚ a.position b.position) : orientation a b p = 0 := by
  obtain ⟨t, _, _, hx, hy⟩ := position_mem_segment_iff.mp h
  unfold orientation
  rw [hx, hy]
  ring

/-- A point on the line of two others and in their rectangle lies on their segment. How far
along, a coordinate says in which the two differ. -/
theorem mem_segment_of_inSpan {a b p : Point ℚ} (hline : orientation a b p = 0)
    (hspan : inSpan a b p = true) : p.position ∈ segment ℚ a.position b.position := by
  obtain ⟨hx, hy⟩ := inSpan_iff.mp hspan
  rw [segment_eq_image'] at hx hy
  obtain ⟨t, ⟨ht0, ht1⟩, htx⟩ := hx
  obtain ⟨s, ⟨hs0, hs1⟩, hsy⟩ := hy
  simp only [smul_eq_mul] at htx hsy
  unfold orientation at hline
  rw [position_mem_segment_iff]
  by_cases hne : b.x - a.x = 0
  · refine ⟨s, hs0, hs1, ?_, hsy.symm⟩
    rw [← htx, hne, mul_zero, mul_zero]
  · refine ⟨t, ht0, ht1, htx.symm, mul_left_cancel₀ hne ?_⟩
    linear_combination hline - (b.y - a.y) * htx

/-! ### Crossing -/

theorem opposite_iff {a b : ℚ} : opposite a b = true ↔ a * b < 0 := by
  unfold opposite
  simp only [Bool.or_eq_true, Bool.and_eq_true, decide_eq_true_eq, mul_neg_iff]

/-- Between numbers of opposite signs zero lies at this ratio. -/
theorem ratio_of_opposite {a b : ℚ} (h : opposite a b = true) :
    a - b ≠ 0 ∧ 0 ≤ a / (a - b) ∧ a / (a - b) ≤ 1 := by
  rcases mul_neg_iff.mp (opposite_iff.mp h) with ⟨ha, hb⟩ | ⟨ha, hb⟩
  · have hpos : 0 < a - b := by linarith
    exact ⟨hpos.ne', by positivity, (div_le_one hpos).mpr (by linarith)⟩
  · have hneg : a - b < 0 := by linarith
    exact ⟨hneg.ne, div_nonneg_of_nonpos ha.le hneg.le, (div_le_one_of_neg hneg).mpr (by linarith)⟩

section Pair
variable {p₁ p₂ q₁ q₂ : Point ℚ}

/-- Segments whose ends lie on opposite sides of each other's lines cross. -/
theorem meet_of_opposite (hp : opposite (orientation q₁ q₂ p₁) (orientation q₁ q₂ p₂) = true)
    (hq : opposite (orientation p₁ p₂ q₁) (orientation p₁ p₂ q₂) = true) :
    (segment ℚ p₁.position p₂.position ∩ segment ℚ q₁.position q₂.position).Nonempty := by
  obtain ⟨hne, ht0, ht1⟩ := ratio_of_opposite hp
  obtain ⟨hne', hs0, hs1⟩ := ratio_of_opposite hq
  have hsum : orientation p₁ p₂ q₁ - orientation p₁ p₂ q₂ =
      -(orientation q₁ q₂ p₁ - orientation q₁ q₂ p₂) := by
    unfold orientation
    ring
  set t := orientation q₁ q₂ p₁ / (orientation q₁ q₂ p₁ - orientation q₁ q₂ p₂) with ht
  refine ⟨(p₁.x + t * (p₂.x - p₁.x), p₁.y + t * (p₂.y - p₁.y)),
    mem_segment_iff.mpr ⟨t, ht0, ht1, rfl, rfl⟩, mem_segment_iff.mpr ⟨_, hs0, hs1, ?_, ?_⟩⟩
  all_goals
    rw [hsum, ht]
    field_simp
    unfold orientation
    ring

/-- How far the direction of one segment turns to that of another; zero if they are
parallel. -/
def turn (p₁ p₂ q₁ q₂ : Point ℚ) : ℚ :=
  (p₂.x - p₁.x) * (q₂.y - q₁.y) - (p₂.y - p₁.y) * (q₂.x - q₁.x)

/-- Seen from a common point, the ends of each segment lie off the other's line in proportion
to their distance from that point. -/
theorem orientations_of_common {t s : ℚ} (hx : p₁.x + t * (p₂.x - p₁.x) = q₁.x + s * (q₂.x - q₁.x))
    (hy : p₁.y + t * (p₂.y - p₁.y) = q₁.y + s * (q₂.y - q₁.y)) :
    orientation q₁ q₂ p₁ = t * turn p₁ p₂ q₁ q₂ ∧ orientation q₁ q₂ p₂ = (t - 1) * turn p₁ p₂ q₁ q₂ ∧
      orientation p₁ p₂ q₁ = -s * turn p₁ p₂ q₁ q₂ ∧
      orientation p₁ p₂ q₂ = (1 - s) * turn p₁ p₂ q₁ q₂ := by
  unfold orientation turn
  refine ⟨?_, ?_, ?_, ?_⟩
  · linear_combination (q₂.x - q₁.x) * hy - (q₂.y - q₁.y) * hx
  · linear_combination (q₂.x - q₁.x) * hy - (q₂.y - q₁.y) * hx
  · linear_combination (p₂.y - p₁.y) * hx - (p₂.x - p₁.x) * hy
  · linear_combination (p₂.y - p₁.y) * hx - (p₂.x - p₁.x) * hy

/-- A direction parallel to one that is not zero is a multiple of it. -/
theorem exists_multiple {u v u' v' : ℚ} (h : u * v' - v * u' = 0) (hne : u ≠ 0 ∨ v ≠ 0) :
    ∃ k, u' = k * u ∧ v' = k * v := by
  rcases hne with hu | hv
  · refine ⟨u' / u, by field_simp, ?_⟩
    field_simp
    linear_combination h
  · refine ⟨v' / v, ?_, by field_simp⟩
    field_simp
    linear_combination -h

/-- On a line, a segment that meets the one from zero to one contains zero or ends between
zero and one. -/
theorem exists_end_on_line {c d r : ℚ} (h0 : 0 ≤ r) (h1 : r ≤ 1) (hr : r ∈ segment ℚ c d) :
    0 ∈ segment ℚ c d ∨ (0 ≤ c ∧ c ≤ 1) ∨ (0 ≤ d ∧ d ≤ 1) := by
  rw [segment_eq_Icc'] at hr ⊢
  rcases le_or_gt (min c d) 0 with hmin | hmin
  · exact .inl ⟨hmin, h0.trans hr.2⟩
  · have hle := hr.1.trans h1
    rcases min_choice c d with h | h <;> rw [h] at hmin hle
    · exact .inr (.inl ⟨hmin.le, hle⟩)
    · exact .inr (.inr ⟨hmin.le, hle⟩)

/-- Parallel segments with a common point: an end of one lies on the other. Along the first
segment, the second reaches from `t - s * k` to `t - s * k + k`. -/
theorem exists_end_of_parallel {t s : ℚ} (ht0 : 0 ≤ t) (ht1 : t ≤ 1) (hs0 : 0 ≤ s) (hs1 : s ≤ 1)
    (hx : p₁.x + t * (p₂.x - p₁.x) = q₁.x + s * (q₂.x - q₁.x))
    (hy : p₁.y + t * (p₂.y - p₁.y) = q₁.y + s * (q₂.y - q₁.y)) (h : turn p₁ p₂ q₁ q₂ = 0) :
    p₁.position ∈ segment ℚ q₁.position q₂.position ∨ q₁.position ∈ segment ℚ p₁.position p₂.position ∨
      q₂.position ∈ segment ℚ p₁.position p₂.position := by
  by_cases hne : p₂.x - p₁.x ≠ 0 ∨ p₂.y - p₁.y ≠ 0
  · obtain ⟨k, hkx, hky⟩ := exists_multiple h hne
    have hreach : t ∈ segment ℚ (t - s * k) (t - s * k + k) := by
      rw [segment_eq_image']
      refine ⟨s, ⟨hs0, hs1⟩, ?_⟩
      simp only [smul_eq_mul]
      ring
    rcases exists_end_on_line ht0 ht1 hreach with hzero | ⟨h0, h1⟩ | ⟨h0, h1⟩
    · rw [segment_eq_image'] at hzero
      obtain ⟨r, ⟨hr0, hr1⟩, hr⟩ := hzero
      simp only [smul_eq_mul] at hr
      refine .inl (position_mem_segment_iff.mpr ⟨r, hr0, hr1, ?_, ?_⟩)
      · linear_combination hx + (s - r) * hkx - (p₂.x - p₁.x) * hr
      · linear_combination hy + (s - r) * hky - (p₂.y - p₁.y) * hr
    · refine .inr (.inl (position_mem_segment_iff.mpr ⟨_, h0, h1, ?_, ?_⟩))
      · linear_combination -hx - s * hkx
      · linear_combination -hy - s * hky
    · refine .inr (.inr (position_mem_segment_iff.mpr ⟨_, h0, h1, ?_, ?_⟩))
      · linear_combination -hx + (1 - s) * hkx
      · linear_combination -hy + (1 - s) * hky
  · -- The first segment is no more than a point, which is the common one.
    push Not at hne
    refine .inl (position_mem_segment_iff.mpr ⟨s, hs0, hs1, ?_, ?_⟩)
    · linear_combination hx - t * hne.1
    · linear_combination hy - t * hne.2

/-- Inside a segment its ends lie on opposite sides of a line that is not parallel. -/
theorem mul_neg_of_proper {t d : ℚ} (hd : d ≠ 0) (ht0 : 0 < t) (ht1 : t < 1) :
    t * d * ((t - 1) * d) < 0 := by
  have hpos : 0 < t * (1 - t) * d ^ 2 := by
    have := sub_pos.mpr ht1
    positivity
  linarith

/-- If segments have a common point, they cross or an end of one lies on the other. -/
theorem meet_cases (h : (segment ℚ p₁.position p₂.position ∩ segment ℚ q₁.position q₂.position).Nonempty) :
    (opposite (orientation q₁ q₂ p₁) (orientation q₁ q₂ p₂) = true ∧
      opposite (orientation p₁ p₂ q₁) (orientation p₁ p₂ q₂) = true) ∨
    p₁.position ∈ segment ℚ q₁.position q₂.position ∨ p₂.position ∈ segment ℚ q₁.position q₂.position ∨
      q₁.position ∈ segment ℚ p₁.position p₂.position ∨ q₂.position ∈ segment ℚ p₁.position p₂.position := by
  obtain ⟨p, hp, hq⟩ := h
  obtain ⟨t, ht0, ht1, htx, hty⟩ := mem_segment_iff.mp hp
  obtain ⟨s, hs0, hs1, hsx, hsy⟩ := mem_segment_iff.mp hq
  have hx := htx.symm.trans hsx
  have hy := hty.symm.trans hsy
  by_cases hturn : turn p₁ p₂ q₁ q₂ = 0
  · rcases exists_end_of_parallel ht0 ht1 hs0 hs1 hx hy hturn with h | h | h
    · exact .inr (.inl h)
    · exact .inr (.inr (.inr (.inl h)))
    · exact .inr (.inr (.inr (.inr h)))
  · -- At an end of either segment the common point is that end; elsewhere they cross.
    rcases ht0.eq_or_lt with rfl | ht0
    · refine .inr (.inl (position_mem_segment_iff.mpr ⟨s, hs0, hs1, ?_, ?_⟩))
      · linear_combination hx
      · linear_combination hy
    rcases ht1.eq_or_lt with rfl | ht1
    · refine .inr (.inr (.inl (position_mem_segment_iff.mpr ⟨s, hs0, hs1, ?_, ?_⟩)))
      · linear_combination hx
      · linear_combination hy
    rcases hs0.eq_or_lt with rfl | hs0
    · refine .inr (.inr (.inr (.inl (position_mem_segment_iff.mpr ⟨t, ht0.le, ht1.le, ?_, ?_⟩))))
      · linear_combination -hx
      · linear_combination -hy
    rcases hs1.eq_or_lt with rfl | hs1
    · refine .inr (.inr (.inr (.inr (position_mem_segment_iff.mpr ⟨t, ht0.le, ht1.le, ?_, ?_⟩))))
      · linear_combination -hx
      · linear_combination -hy
    obtain ⟨h₁, h₂, h₃, h₄⟩ := orientations_of_common hx hy
    refine .inl ⟨opposite_iff.mpr ?_, opposite_iff.mpr ?_⟩
    · rw [h₁, h₂]
      exact mul_neg_of_proper hturn ht0 ht1
    · rw [h₃, h₄]
      linarith [mul_neg_of_proper hturn hs0 hs1]

/-- **The test for two segments is exact**: it finds out whether they have a point in common. -/
theorem segmentsIntersect_iff :
    segmentsIntersect p₁ p₂ q₁ q₂ = true ↔
      (segment ℚ p₁.position p₂.position ∩ segment ℚ q₁.position q₂.position).Nonempty := by
  unfold segmentsIntersect
  simp only [Bool.or_eq_true, Bool.and_eq_true, beq_iff_eq, or_assoc]
  constructor
  · rintro (⟨hp, hq⟩ | ⟨hline, hspan⟩ | ⟨hline, hspan⟩ | ⟨hline, hspan⟩ | ⟨hline, hspan⟩)
    · exact meet_of_opposite hp hq
    · exact ⟨_, left_mem_segment .., mem_segment_of_inSpan hline hspan⟩
    · exact ⟨_, right_mem_segment .., mem_segment_of_inSpan hline hspan⟩
    · exact ⟨_, mem_segment_of_inSpan hline hspan, left_mem_segment ..⟩
    · exact ⟨_, mem_segment_of_inSpan hline hspan, right_mem_segment ..⟩
  · intro h
    rcases meet_cases h with h | h | h | h | h
    · exact .inl h
    · exact .inr (.inl ⟨orientation_of_mem_segment h, inSpan_of_mem_segment h⟩)
    · exact .inr (.inr (.inl ⟨orientation_of_mem_segment h, inSpan_of_mem_segment h⟩))
    · exact .inr (.inr (.inr (.inl ⟨orientation_of_mem_segment h, inSpan_of_mem_segment h⟩)))
    · exact .inr (.inr (.inr (.inr ⟨orientation_of_mem_segment h, inSpan_of_mem_segment h⟩)))

/-- The test depends on nothing but the points of the two segments. -/
theorem segmentsIntersect_congr {p₁' p₂' q₁' q₂' : Point ℚ}
    (h : segment ℚ p₁.position p₂.position ∩ segment ℚ q₁.position q₂.position =
      segment ℚ p₁'.position p₂'.position ∩ segment ℚ q₁'.position q₂'.position) :
    segmentsIntersect p₁ p₂ q₁ q₂ = segmentsIntersect p₁' p₂' q₁' q₂' := by
  rw [Bool.eq_iff_iff, segmentsIntersect_iff, segmentsIntersect_iff, h]

end Pair

/-- **Two segments meet in the test exactly where they have a point in common**, so neither which
of them is given first nor the end at which either starts makes a difference. -/
theorem segmentsIntersect_exact (p₁ p₂ q₁ q₂ : Point ℚ) :
    (segmentsIntersect p₁ p₂ q₁ q₂ = true ↔
      ∃ p : ℚ × ℚ, p ∈ segment ℚ p₁.position p₂.position ∧ p ∈ segment ℚ q₁.position q₂.position) ∧
    segmentsIntersect q₁ q₂ p₁ p₂ = segmentsIntersect p₁ p₂ q₁ q₂ ∧
    segmentsIntersect p₂ p₁ q₁ q₂ = segmentsIntersect p₁ p₂ q₁ q₂ ∧
    segmentsIntersect p₁ p₂ q₂ q₁ = segmentsIntersect p₁ p₂ q₁ q₂ := by
  refine ⟨segmentsIntersect_iff, ?_, ?_, ?_⟩
  · exact segmentsIntersect_congr (Set.inter_comm ..)
  · exact segmentsIntersect_congr (by rw [segment_symm])
  · exact segmentsIntersect_congr (by rw [segment_symm ℚ q₂.position])

end Geometry
end Observatory
