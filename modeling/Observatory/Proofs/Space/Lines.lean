import Observatory.Proofs.Space.Segments
import Mathlib.Analysis.Convex.Basic

/-! Lines and envelopes, with exact coordinates.

A line meets an envelope if a vertex or a point between two consecutive vertices lies in it
(`pathIntersects_iff`). To find that out it is enough to look at the vertices and at the four
sides: a segment that starts outside enters through a side (`exists_side`). The envelope of a
shape covers its vertices (`exists_envelopeOf`) and so all points between them (`track_subset`),
and looking at it first changes no answer (`intersects_eq_hits`). -/
namespace Observatory

namespace Envelope

/-- The points of an envelope, its border included. -/
def region (e : Envelope ℚ) : Set (ℚ × ℚ) := Set.Icc e.minX e.maxX ×ˢ Set.Icc e.minY e.maxY

/-- The lower corner comes first. -/
structure Ordered (e : Envelope ℚ) : Prop where
  x_le : e.minX ≤ e.maxX
  y_le : e.minY ≤ e.maxY

theorem mem_region_iff {e : Envelope ℚ} {p : ℚ × ℚ} :
    p ∈ e.region ↔ (e.minX ≤ p.1 ∧ p.1 ≤ e.maxX) ∧ (e.minY ≤ p.2 ∧ p.2 ≤ e.maxY) := Iff.rfl

theorem convex_region (e : Envelope ℚ) : Convex ℚ e.region := (convex_Icc _ _).prod (convex_Icc _ _)

theorem containsPoint_iff {e : Envelope ℚ} {x y : ℚ} : e.containsPoint x y = true ↔ (x, y) ∈ e.region := by
  unfold containsPoint
  simp only [Bool.and_eq_true, decide_eq_true_eq, mem_region_iff, and_assoc]

/-- Envelopes with a common point intersect. -/
theorem intersects_of_mem {a b : Envelope ℚ} {p : ℚ × ℚ} (ha : p ∈ a.region) (hb : p ∈ b.region) :
    a.intersects b = true := by
  obtain ⟨⟨hax, hax'⟩, hay, hay'⟩ := ha
  obtain ⟨⟨hbx, hbx'⟩, hby, hby'⟩ := hb
  unfold intersects
  simp only [Bool.and_eq_true, decide_eq_true_eq]
  exact ⟨⟨⟨hax.trans hbx', hbx.trans hax'⟩, hay.trans hby'⟩, hby.trans hay'⟩

/-! ### Sides -/

section Sides
variable {e : Envelope ℚ}

theorem segment_side_subset (he : e.Ordered) {s : Point ℚ × Point ℚ} (hs : s ∈ e.sides) :
    segment ℚ s.1.position s.2.position ⊆ e.region := by
  have hx : e.minX ∈ Set.Icc e.minX e.maxX := ⟨le_rfl, he.x_le⟩
  have hx' : e.maxX ∈ Set.Icc e.minX e.maxX := ⟨he.x_le, le_rfl⟩
  have hy : e.minY ∈ Set.Icc e.minY e.maxY := ⟨le_rfl, he.y_le⟩
  have hy' : e.maxY ∈ Set.Icc e.minY e.maxY := ⟨he.y_le, le_rfl⟩
  simp only [sides, List.mem_cons, List.not_mem_nil, or_false] at hs
  rcases hs with rfl | rfl | rfl | rfl
  · exact e.convex_region.segment_subset ⟨hx, hy⟩ ⟨hx', hy⟩
  · exact e.convex_region.segment_subset ⟨hx', hy⟩ ⟨hx', hy'⟩
  · exact e.convex_region.segment_subset ⟨hx', hy'⟩ ⟨hx, hy'⟩
  · exact e.convex_region.segment_subset ⟨hx, hy'⟩ ⟨hx, hy⟩

/-- A point of an envelope that has a border's coordinate lies on a side. -/
theorem exists_side_of_border {p : ℚ × ℚ} (hp : p ∈ e.region)
    (hborder : (p.1 = e.minX ∨ p.1 = e.maxX) ∨ (p.2 = e.minY ∨ p.2 = e.maxY)) :
    ∃ s ∈ e.sides, p ∈ segment ℚ s.1.position s.2.position := by
  obtain ⟨x, y⟩ := p
  obtain ⟨hx, hy⟩ := hp
  have hacross : x ∈ segment ℚ e.minX e.maxX := Icc_subset_segment hx
  have hback : x ∈ segment ℚ e.maxX e.minX := segment_symm ℚ e.minX e.maxX ▸ hacross
  have hup : y ∈ segment ℚ e.minY e.maxY := Icc_subset_segment hy
  have hdown : y ∈ segment ℚ e.maxY e.minY := segment_symm ℚ e.minY e.maxY ▸ hup
  simp only [sides, List.exists_mem_cons_iff, List.not_mem_nil, false_and, exists_false, or_false]
  simp only [Point.position, ← Prod.image_mk_segment_left, ← Prod.image_mk_segment_right]
  rcases hborder with (rfl | rfl) | (rfl | rfl)
  · exact .inr (.inr (.inr ⟨y, hdown, rfl⟩))
  · exact .inr (.inl ⟨y, hup, rfl⟩)
  · exact .inl ⟨x, hacross, rfl⟩
  · exact .inr (.inr (.inl ⟨x, hback, rfl⟩))

/-- On the way between two points a coordinate takes every value between theirs. -/
theorem exists_along (f : ℚ × ℚ →ₗ[ℚ] ℚ) {p q : ℚ × ℚ} {c : ℚ} (hc : c ∈ segment ℚ (f p) (f q)) :
    ∃ r ∈ segment ℚ p q, f r = c := by
  rwa [show segment ℚ (f p) (f q) = f '' segment ℚ p q from (image_segment ℚ f.toAffineMap p q).symm] at hc

/-- Between a number and one inside an interval lies a number inside that is the first one or
an end of the interval. -/
theorem exists_clipped {low high c d : ℚ} (hd : d ∈ Set.Icc low high) :
    ∃ r ∈ segment ℚ c d, r ∈ Set.Icc low high ∧ (r = c ∨ r = low ∨ r = high) := by
  obtain ⟨hlow, hhigh⟩ := hd
  rw [segment_eq_Icc']
  rcases lt_or_ge c low with h | h
  · exact ⟨low, ⟨min_le_of_left_le h.le, le_max_of_le_right hlow⟩, ⟨le_rfl, hlow.trans hhigh⟩, .inr (.inl rfl)⟩
  · rcases lt_or_ge high c with h' | h'
    · exact ⟨high, ⟨min_le_of_right_le hhigh, le_max_of_le_left h'.le⟩, ⟨hlow.trans hhigh, le_rfl⟩,
        .inr (.inr rfl)⟩
    · exact ⟨c, ⟨min_le_left _ _, le_max_left _ _⟩, ⟨h, h'⟩, .inl rfl⟩

/-- On the way from a point to one with a coordinate inside an interval, the same holds of that
coordinate. -/
theorem exists_clipped_along (f : ℚ × ℚ →ₗ[ℚ] ℚ) {low high : ℚ} {p q : ℚ × ℚ}
    (hq : f q ∈ Set.Icc low high) :
    ∃ r ∈ segment ℚ p q, f r ∈ Set.Icc low high ∧ (r = p ∨ f r = low ∨ f r = high) := by
  obtain ⟨c, hc, hrange, hcases⟩ := exists_clipped hq
  by_cases hp : f p ∈ Set.Icc low high
  · exact ⟨p, left_mem_segment .., hp, .inl rfl⟩
  · obtain ⟨r, hr, rfl⟩ := exists_along f hc
    refine ⟨r, hr, hrange, .inr (hcases.resolve_left fun h => hp ?_)⟩
    rwa [h] at hrange

/-- **A segment with a point in an envelope and a start outside meets a side**: cut down to
the columns of the envelope and then to its rows, the way from the point to the start ends
on the border. -/
theorem exists_side {p q : ℚ × ℚ} (hq : q ∈ e.region) (hp : p ∉ e.region) :
    ∃ s ∈ e.sides, (segment ℚ p q ∩ segment ℚ s.1.position s.2.position).Nonempty := by
  obtain ⟨r, hr, hrx, hrcases⟩ := exists_clipped_along (LinearMap.fst ℚ ℚ ℚ) (p := p) hq.1
  obtain ⟨t, ht, hty, htcases⟩ := exists_clipped_along (LinearMap.snd ℚ ℚ ℚ) (p := r) hq.2
  have htx : t.1 ∈ Set.Icc e.minX e.maxX :=
    (convex_Icc _ _).segment_subset hrx hq.1 (Prod.segment_subset r q ht).1
  have hmem : t ∈ segment ℚ p q :=
    (convex_segment p q).segment_subset hr (right_mem_segment ..) ht
  have hborder : (t.1 = e.minX ∨ t.1 = e.maxX) ∨ (t.2 = e.minY ∨ t.2 = e.maxY) := by
    rcases htcases with rfl | h
    · rcases hrcases with rfl | h
      · exact absurd ⟨hrx, hty⟩ hp
      · exact .inl h
    · exact .inr h
  obtain ⟨s, hs, hts⟩ := exists_side_of_border ⟨htx, hty⟩ hborder
  exact ⟨s, hs, t, hmem, hts⟩

end Sides

/-! ### The envelope of a shape -/

theorem mem_region_ofPoint (p : Point ℚ) : p.position ∈ p.envelope.region :=
  ⟨⟨le_rfl, le_rfl⟩, le_rfl, le_rfl⟩

theorem mem_region_union {a b : Envelope ℚ} {p : ℚ × ℚ} (h : p ∈ a.region ∨ p ∈ b.region) :
    p ∈ (a.union b).region := by
  simp only [mem_region_iff, union, Number.lesser_eq_min, Number.greater_eq_max, inf_le_iff, le_sup_iff]
  rcases h with ⟨⟨h₁, h₂⟩, h₃, h₄⟩ | ⟨⟨h₁, h₂⟩, h₃, h₄⟩
  · exact ⟨⟨.inl h₁, .inl h₂⟩, .inl h₃, .inl h₄⟩
  · exact ⟨⟨.inr h₁, .inr h₂⟩, .inr h₃, .inr h₄⟩

/-- The envelope that grows over points keeps what it covers and covers every point. -/
theorem mem_region_foldl (points : List (Point ℚ)) (e : Envelope ℚ) {p : ℚ × ℚ}
    (h : p ∈ e.region ∨ ∃ v ∈ points, v.position = p) :
    p ∈ (points.foldl (fun e v => e.union v.envelope) e).region := by
  induction points generalizing e with
  | nil =>
    rcases h with h | ⟨v, hv, _⟩
    · exact h
    · exact absurd hv List.not_mem_nil
  | cons first rest ih =>
    refine ih _ ?_
    rcases h with h | ⟨v, hv, rfl⟩
    · exact .inl (mem_region_union (.inl h))
    · rcases List.mem_cons.mp hv with rfl | hv
      · exact .inl (mem_region_union (.inr (mem_region_ofPoint v)))
      · exact .inr ⟨v, hv, rfl⟩

end Envelope

namespace Geometry
open Envelope (mem_region_ofPoint mem_region_foldl intersects_of_mem containsPoint_iff)

/-- Points have an envelope, and it covers them. -/
theorem exists_envelopeOf {points : List (Point ℚ)} {v : Point ℚ} (hv : v ∈ points) :
    ∃ own, envelopeOf? points = some own ∧ ∀ w ∈ points, w.position ∈ own.region := by
  cases points with
  | nil => exact absurd hv List.not_mem_nil
  | cons first rest =>
    refine ⟨_, rfl, fun w hw => mem_region_foldl rest _ ?_⟩
    rcases List.mem_cons.mp hw with rfl | hw
    · exact .inl (mem_region_ofPoint w)
    · exact .inr ⟨w, hw, rfl⟩

/-! ### Lines -/

/-- The points of a line: its vertices and the points between two consecutive ones. -/
def track (points : List (Point ℚ)) : Set (ℚ × ℚ) :=
  {p | (∃ v ∈ points, v.position = p) ∨
    ∃ a b, [a, b] <:+: points ∧ p ∈ segment ℚ a.position b.position}

theorem segments_cons_cons (a b : Point ℚ) (rest : List (Point ℚ)) :
    segments (a :: b :: rest) = (a, b) :: segments (b :: rest) := rfl

theorem segments_concat {points : List (Point ℚ)} {last : Point ℚ} (h : points.getLast? = some last)
    (next : Point ℚ) : segments (points ++ [next]) = segments points ++ [(last, next)] := by
  induction points with
  | nil => exact nomatch h
  | cons a rest ih =>
    cases rest with
    | nil =>
      obtain rfl : a = last := Option.some.inj h
      rfl
    | cons b rest =>
      rw [List.getLast?_cons_cons] at h
      rw [List.cons_append, List.cons_append, segments_cons_cons, ← List.cons_append, ih h,
        segments_cons_cons, List.cons_append]

theorem mem_segments_iff {points : List (Point ℚ)} {a b : Point ℚ} :
    (a, b) ∈ segments points ↔ [a, b] <:+: points := by
  induction points with
  | nil => simp [segments]
  | cons first rest ih =>
    cases rest with
    | nil => simp [segments, List.infix_cons_iff, List.cons_prefix_cons]
    | cons second rest =>
      rw [segments_cons_cons, List.mem_cons, ih, @List.infix_cons_iff _ _ first (second :: rest), List.cons_prefix_cons,
        List.cons_prefix_cons, Prod.mk.injEq]
      simp only [List.nil_prefix, and_true]

theorem mem_of_pair {points : List (Point ℚ)} {a b : Point ℚ} (h : [a, b] <:+: points) :
    a ∈ points ∧ b ∈ points :=
  ⟨h.subset (by simp), h.subset (by simp)⟩

theorem mem_track_iff {points : List (Point ℚ)} {p : ℚ × ℚ} :
    p ∈ track points ↔ (∃ v ∈ points, v.position = p) ∨
      ∃ s ∈ segments points, p ∈ segment ℚ s.1.position s.2.position := by
  simp only [track, Prod.exists, mem_segments_iff]
  rfl

/-- A line drawn on to a further point gains the segment to it. -/
theorem track_concat {points : List (Point ℚ)} {last : Point ℚ} (h : points.getLast? = some last)
    (next : Point ℚ) :
    track (points ++ [next]) = track points ∪ segment ℚ last.position next.position := by
  ext p
  rw [Set.mem_union, mem_track_iff, mem_track_iff, segments_concat h]
  constructor
  · rintro (⟨v, hv, rfl⟩ | ⟨s, hs, hp⟩)
    · rcases List.mem_append.mp hv with hv | hv
      · exact .inl (.inl ⟨v, hv, rfl⟩)
      · rw [List.mem_singleton.mp hv]
        exact .inr (right_mem_segment ..)
    · rcases List.mem_append.mp hs with hs | hs
      · exact .inl (.inr ⟨s, hs, hp⟩)
      · rw [List.mem_singleton.mp hs] at hp
        exact .inr hp
  · rintro ((⟨v, hv, rfl⟩ | ⟨s, hs, hp⟩) | hp)
    · exact .inl ⟨v, List.mem_append_left _ hv, rfl⟩
    · exact .inr ⟨s, List.mem_append_left _ hs, hp⟩
    · exact .inr ⟨_, List.mem_append_right _ List.mem_cons_self, hp⟩

theorem track_concat_same {points : List (Point ℚ)} {last next : Point ℚ}
    (h : points.getLast? = some last) (hsame : next.position = last.position) :
    track (points ++ [next]) = track points := by
  rw [track_concat h, hsame, segment_same, Set.union_eq_left, Set.singleton_subset_iff]
  exact .inl ⟨last, List.mem_of_getLast? h, rfl⟩

/-- Whatever covers the vertices of a line covers the line. -/
theorem track_subset {points : List (Point ℚ)} {e : Envelope ℚ} (h : ∀ v ∈ points, v.position ∈ e.region) :
    track points ⊆ e.region := by
  rintro p (⟨v, hv, rfl⟩ | ⟨a, b, hab, hp⟩)
  · exact h v hv
  · obtain ⟨ha, hb⟩ := mem_of_pair hab
    exact e.convex_region.segment_subset (h a ha) (h b hb) hp

/-- **A line is found to meet an envelope exactly if they have a point in common.** -/
theorem pathIntersects_iff {e : Envelope ℚ} (he : e.Ordered) (points : List (Point ℚ)) :
    pathIntersects points e = true ↔ (track points ∩ e.region).Nonempty := by
  unfold pathIntersects
  simp only [Bool.or_eq_true, List.any_eq_true, containsPoint_iff, Prod.exists, segmentsIntersect_iff,
    mem_segments_iff]
  constructor
  · rintro (⟨v, hv, hmem⟩ | ⟨a, b, hab, c, d, hside, p, hp, hps⟩)
    · exact ⟨v.position, .inl ⟨v, hv, rfl⟩, hmem⟩
    · exact ⟨p, .inr ⟨a, b, hab, hp⟩, Envelope.segment_side_subset he hside hps⟩
  · rintro ⟨p, ⟨v, hv, rfl⟩ | ⟨a, b, hab, hp⟩, hmem⟩
    · exact .inl ⟨v, hv, hmem⟩
    · by_cases ha : a.position ∈ e.region
      · exact .inl ⟨a, (mem_of_pair hab).1, ha⟩
      · obtain ⟨⟨c, d⟩, hside, q, hq, hqs⟩ := Envelope.exists_side hmem ha
        have hback : q ∈ segment ℚ a.position b.position :=
          (convex_segment _ _).segment_subset (left_mem_segment ..) hp hq
        exact .inr ⟨a, b, hab, c, d, hside, q, hback, hqs⟩

/-- An envelope that meets a line meets the line's own envelope. -/
theorem ownIntersects_of_track {points : List (Point ℚ)} {e : Envelope ℚ}
    (h : (track points ∩ e.region).Nonempty) :
    ∃ own, envelopeOf? points = some own ∧ own.intersects e = true := by
  obtain ⟨p, hp, hmem⟩ := h
  obtain ⟨v, hv⟩ : ∃ v, v ∈ points := by
    rcases hp with ⟨v, hv, _⟩ | ⟨a, b, hab, _⟩
    · exact ⟨v, hv⟩
    · exact ⟨a, (mem_of_pair hab).1⟩
  obtain ⟨own, hown, hcovers⟩ := exists_envelopeOf hv
  exact ⟨own, hown, intersects_of_mem (track_subset hcovers hp) hmem⟩

/-- Looking at the own envelope first changes nothing where it never misses a hit. -/
theorem intersects_eq_hits {g : Geometry ℚ} {e : Envelope ℚ}
    (h : g.hits e = true → ∃ own, g.envelope? = some own ∧ own.intersects e = true) :
    g.intersects e = g.hits e := by
  unfold intersects
  cases hhits : g.hits e with
  | false =>
    cases g.envelope? with
    | none => rfl
    | some own => exact Bool.and_false _
  | true =>
    obtain ⟨own, hown, hintersects⟩ := h hhits
    rw [hown]
    exact Bool.and_eq_true_iff.mpr ⟨hintersects, rfl⟩

/-- **A line or a point is said to intersect an envelope exactly if they have a point in
common**, and whatever hits it has an envelope that intersects it. -/
theorem intersects_iff_common {e : Envelope ℚ} (he : e.Ordered) :
    (∀ points, (lineString points).intersects e = true ↔ (track points ∩ e.region).Nonempty) ∧
      (∀ p, (point p).intersects e = true ↔ p.position ∈ e.region) ∧
      (∀ points, (lineString points).hits e = true →
        ∃ own, (lineString points).envelope? = some own ∧ own.intersects e = true) ∧
      ∀ p, (point p).hits e = true → ∃ own, (point p).envelope? = some own ∧ own.intersects e = true := by
  have hline : ∀ points, (lineString points).hits e = true →
      ∃ own, (lineString points).envelope? = some own ∧ own.intersects e = true := fun points h =>
    ownIntersects_of_track ((pathIntersects_iff he points).mp h)
  have hpoint : ∀ p, (point p).hits e = true →
      ∃ own, (point p).envelope? = some own ∧ own.intersects e = true := fun p h =>
    ⟨_, rfl, intersects_of_mem (mem_region_ofPoint p) (containsPoint_iff.mp h)⟩
  refine ⟨fun points => ?_, fun p => ?_, hline, hpoint⟩
  · rw [intersects_eq_hits (hline points)]
    exact pathIntersects_iff he points
  · rw [intersects_eq_hits (hpoint p)]
    exact containsPoint_iff

/-- A line with a bend meets an envelope that is a single point of it, and does not meet one
in the corner that it goes around. -/
theorem bend_common :
    let bend : List (Point ℚ) := [⟨0, 0, none⟩, ⟨10, 0, none⟩, ⟨10, 10, none⟩]
    let spot : Envelope ℚ := ⟨10, 5, 10, 5⟩
    let corner : Envelope ℚ := ⟨1, 8, 2, 9⟩
    spot.Ordered ∧ corner.Ordered ∧ (track bend ∩ spot.region).Nonempty ∧
      ¬(track bend ∩ corner.region).Nonempty := by
  intro bend spot corner
  have hspot : spot.Ordered := ⟨by decide, by decide⟩
  have hcorner : corner.Ordered := ⟨by decide, by decide⟩
  refine ⟨hspot, hcorner, ((intersects_iff_common hspot).1 bend).mp (by decide +kernel), fun h => ?_⟩
  exact absurd (((intersects_iff_common hcorner).1 bend).mpr h) (by decide +kernel)

end Geometry
end Observatory
