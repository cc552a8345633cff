import Observatory.Proofs.Space.Rings
import Mathlib.Data.List.Rotate

/-! Polygons and envelopes, with exact coordinates.

A polygon meets an envelope if a point of the envelope is a vertex, lies on an edge or is
inside (`extent`, `polygon_hits_iff`). Its own envelope covers all that (`extent_subset`), and
the same points come from every ring with the same edges: from where it starts
(`extent_rotate`), which way around it goes (`extent_reverse`) and whether it returns to its
start (`extent_concat`) nothing depends. -/
namespace Observatory.Geometry
open Envelope (intersects_of_mem)

/-! ### The points of a polygon -/

/-- Whether the ring is closed by a further point or ends where it starts makes no
difference. -/
theorem track_closeRing (ring : List (Point ℚ)) : track (closeRing ring) = track (closed ring) := by
  cases ring with
  | nil => rfl
  | cons first rest =>
    obtain ⟨last, hlast⟩ : ∃ last, (first :: rest).getLast? = some last :=
      ⟨_, List.getLast?_eq_some_getLast (List.cons_ne_nil first rest)⟩
    unfold closeRing
    rw [List.head?_cons, hlast]
    show track (if first.agrees last then first :: rest else first :: rest ++ [first]) = _
    split
    · next hagrees =>
      have hsame : first.position = last.position := by
        simp only [Point.agrees, Bool.and_eq_true, beq_iff_eq] at hagrees
        exact Prod.ext hagrees.1.1 hagrees.1.2
      exact (track_concat_same hlast hsame).symm
    · rfl

/-- The points of a polygon: its vertices, the points on an edge of its ring and those
inside. -/
def extent (ring : List (Point ℚ)) : Set (ℚ × ℚ) :=
  {p | (∃ v ∈ ring, v.position = p) ∨ (∃ s ∈ edges ring, p ∈ segment ℚ s.1.position s.2.position) ∨
    Inside ring p}

theorem mem_closed_iff {ring : List (Point ℚ)} {v : Point ℚ} : v ∈ closed ring ↔ v ∈ ring := by
  rw [closed, List.mem_append, or_iff_left_of_imp List.mem_of_mem_take]

theorem mem_extent_iff {ring : List (Point ℚ)} {p : ℚ × ℚ} :
    p ∈ extent ring ↔ p ∈ track (closed ring) ∨ Inside ring p := by
  rw [mem_track_iff, or_assoc]
  simp only [mem_closed_iff]
  rfl

theorem mem_ring_of_mem_edges {ring : List (Point ℚ)} {s : Point ℚ × Point ℚ} (hs : s ∈ edges ring) :
    s.1 ∈ ring ∧ s.2 ∈ ring := by
  obtain ⟨hstart, hend⟩ := mem_of_pair (mem_segments_iff.mp hs)
  exact ⟨mem_closed_iff.mp hstart, mem_closed_iff.mp hend⟩

/-- Not all of a ring is to the right of a position inside: if it were, every edge that
changes sides of the ray would cross it, and around the ring these are even in number. -/
theorem exists_left_of_inside {ring : List (Point ℚ)} {p : ℚ × ℚ} (h : Inside ring p) :
    ∃ v ∈ ring, v.x ≤ p.1 := by
  by_contra hnone
  push Not at hnone
  have hcrosses : ∀ s ∈ edges ring,
      decide (Crosses p s) = (decide (p.2 < s.1.y) ^^ decide (p.2 < s.2.y)) := by
    intro s hs
    obtain ⟨hstart, hend⟩ := mem_ring_of_mem_edges hs
    have hright : ∀ q ∈ segment ℚ s.1.position s.2.position, q.2 = p.2 → p.1 < q.1 := fun q hq _ =>
      (convex_Ioi p.1).segment_subset (hnone _ hstart) (hnone _ hend) (Prod.segment_subset _ _ hq).1
    rw [Bool.eq_iff_iff, decide_eq_true_eq, crosses_of_right hright]
    by_cases h₁ : p.2 < s.1.y <;> by_cases h₂ : p.2 < s.2.y <;> simp [h₁, h₂]
  have hparity := parity_closed (fun v => decide (p.2 < v.y)) ring
  rw [← parity_congr hcrosses] at hparity
  exact Bool.false_ne_true (hparity.symm.trans (inside_iff.mp h))

/-- Whatever covers the vertices of a polygon covers the polygon. -/
theorem extent_subset {ring : List (Point ℚ)} {e : Envelope ℚ} (hcovers : ∀ v ∈ ring, v.position ∈ e.region) :
    extent ring ⊆ e.region := by
  have htrack : track (closed ring) ⊆ e.region := track_subset fun v hv => hcovers v (mem_closed_iff.mp hv)
  intro p hp
  rcases mem_extent_iff.mp hp with hp | hp
  · exact htrack hp
  · obtain ⟨v, hv, hleft⟩ := exists_left_of_inside hp
    obtain ⟨s, hs, x, hx, hmem⟩ := exists_right_of_inside hp
    have hedge : (x, p.2) ∈ e.region := htrack (mem_track_iff.mpr (.inr ⟨s, hs, hmem⟩))
    exact ⟨⟨(hcovers v hv).1.1.trans hleft, hx.le.trans hedge.1.2⟩, hedge.2⟩

/-! ### The same polygon from other rings -/

/-- A polygon is determined by its vertices and edges, whatever their order and direction. -/
theorem extent_congr {ring ring' : List (Point ℚ)} (turned : Point ℚ × Point ℚ → Point ℚ × Point ℚ)
    (hturned : ∀ s, turned s = s ∨ turned s = s.swap) (hvertices : ∀ v, v ∈ ring' ↔ v ∈ ring)
    (hedges : (edges ring').Perm ((edges ring).map turned)) : extent ring' = extent ring := by
  have hsegment : ∀ s, segment ℚ (turned s).1.position (turned s).2.position =
      segment ℚ s.1.position s.2.position := by
    intro s
    rcases hturned s with h | h <;> rw [h]
    exact segment_symm ..
  have hcross : ∀ p s, decide (Crosses p (turned s)) = decide (Crosses p s) := by
    intro p s
    rcases hturned s with h | h <;> rw [h]
    exact decide_eq_decide.mpr crosses_swap
  have hinside : ∀ p, Inside ring' p ↔ Inside ring p := by
    intro p
    unfold Inside
    rw [hedges.countP_eq, List.countP_map]
    simp only [Function.comp_def, hcross]
  ext p
  simp only [extent, Set.mem_ofPred_eq, hvertices, hedges.mem_iff, List.mem_map, exists_exists_and_eq_and,
    hsegment, hinside]

theorem edges_rotate_one (ring : List (Point ℚ)) : (edges (ring.rotate 1)).Perm (edges ring) := by
  match ring with
  | [] => exact .refl _
  | [first] => rw [List.rotate_singleton]
  | first :: second :: rest =>
    rw [List.rotate_cons_succ, List.rotate_zero, edges_eq rfl List.getLast?_concat]
    exact List.perm_append_singleton _ _

/-- Where a ring starts makes no difference. -/
theorem extent_rotate (ring : List (Point ℚ)) (k : Nat) : extent (ring.rotate k) = extent ring := by
  induction k with
  | zero => rw [List.rotate_zero]
  | succ k ih =>
    rw [← ih, ← List.rotate_rotate]
    refine extent_congr id (fun s => .inl rfl) (fun v => List.mem_rotate) ?_
    rw [List.map_id]
    exact edges_rotate_one _

theorem segments_reverse (points : List (Point ℚ)) :
    segments points.reverse = ((segments points).map Prod.swap).reverse := by
  induction points with
  | nil => rfl
  | cons a rest ih =>
    cases rest with
    | nil => rfl
    | cons b rest =>
      have hlast : (b :: rest).reverse.getLast? = some b := by
        rw [List.getLast?_reverse, List.head?_cons]
      rw [List.reverse_cons, segments_concat hlast, ih, segments_cons_cons, List.map_cons, List.reverse_cons]
      rfl

/-- Which way around a ring goes makes no difference. Turned around behind its first point, it
is the same walk back. -/
theorem extent_reverse (ring : List (Point ℚ)) : extent ring.reverse = extent ring := by
  cases ring with
  | nil => rfl
  | cons first rest =>
    have hrotated : (first :: rest).reverse = (first :: rest.reverse).rotate 1 := by
      rw [List.reverse_cons, List.rotate_cons_succ, List.rotate_zero]
    have hclosed : closed (first :: rest.reverse) = (closed (first :: rest)).reverse := by
      simp [closed]
    rw [hrotated, extent_rotate]
    refine extent_congr Prod.swap (fun s => .inr rfl) (fun v => by simp) ?_
    rw [edges, hclosed, segments_reverse]
    exact List.reverse_perm _

/-- Crossings are a matter of positions. -/
theorem crosses_congr {p : ℚ × ℚ} {s s' : Point ℚ × Point ℚ} (h : s.1.position = s'.1.position)
    (h' : s.2.position = s'.2.position) : Crosses p s ↔ Crosses p s' := by
  have hy : s.1.y = s'.1.y := congrArg Prod.snd h
  have hy' : s.2.y = s'.2.y := congrArg Prod.snd h'
  unfold Crosses
  rw [h, h', hy, hy']

/-- A ring that ends where it starts is the same without its last point. -/
theorem extent_concat {ring : List (Point ℚ)} {first next : Point ℚ} (hfirst : ring.head? = some first)
    (hsame : next.position = first.position) : extent (ring ++ [next]) = extent ring := by
  obtain ⟨last, hlast⟩ : ∃ last, ring.getLast? = some last := by
    cases ring with
    | nil => exact nomatch hfirst
    | cons a rest => exact ⟨_, List.getLast?_eq_some_getLast (List.cons_ne_nil a rest)⟩
  have hhead : (ring ++ [next]).head? = some first := by
    rw [List.head?_append, hfirst, Option.some_or]
  have hclosed : closed (ring ++ [next]) = ring ++ [next] ++ [first] := by
    rw [closed, List.take_one, hhead]
    rfl
  have hclosed' : closed ring = ring ++ [first] := by
    rw [closed, List.take_one, hfirst]
    rfl
  have htrack : track (closed (ring ++ [next])) = track (closed ring) := by
    rw [hclosed, track_concat_same List.getLast?_concat hsame.symm, hclosed', track_concat hlast,
      track_concat hlast, hsame]
  have hinside : ∀ p, Inside (ring ++ [next]) p ↔ Inside ring p := by
    intro p
    have hlevel : ¬Crosses p (next, first) := fun h => h.1 (by rw [show next.y = first.y from congrArg Prod.snd hsame])
    have hedge : Crosses p (last, next) ↔ Crosses p (last, first) := crosses_congr rfl hsame
    unfold Inside
    rw [edges_eq hhead List.getLast?_concat, segments_concat hlast, edges_eq hfirst hlast]
    simp only [List.countP_append, List.countP_singleton, decide_eq_true_eq, hlevel, hedge, if_false, add_zero]
  ext p
  rw [mem_extent_iff, mem_extent_iff, htrack, hinside]

/-! ### Polygons and envelopes -/

/-- **A polygon is found to meet an envelope exactly if they have a point in common.** -/
theorem polygon_hits_iff {e : Envelope ℚ} (he : e.Ordered) (ring : List (Point ℚ)) :
    (polygon ring).hits e = true ↔ (extent ring ∩ e.region).Nonempty := by
  have hpath : pathIntersects (closeRing ring) e = true ↔ (track (closed ring) ∩ e.region).Nonempty := by
    rw [pathIntersects_iff he, track_closeRing]
  show (pathIntersects (closeRing ring) e || ringContains ring e.minX e.minY) = true ↔ _
  rw [Bool.or_eq_true, hpath, ringContains_iff]
  constructor
  · rintro (⟨p, hp, hmem⟩ | h)
    · exact ⟨p, mem_extent_iff.mpr (.inl hp), hmem⟩
    · exact ⟨_, mem_extent_iff.mpr (.inr h), ⟨le_rfl, he.x_le⟩, le_rfl, he.y_le⟩
  · rintro ⟨p, hp, hmem⟩
    by_cases hmeet : (track (closed ring) ∩ e.region).Nonempty
    · exact .inl hmeet
    · have hclear : ∀ q ∈ track (closed ring), q ∉ e.region := fun q hq hq' => hmeet ⟨q, hq, hq'⟩
      have hinside := (mem_extent_iff.mp hp).resolve_left fun hp => hclear p hp hmem
      refine .inr ((inside_iff_of_clear (fun s hs q hq => ?_) hmem).mp hinside)
      exact hclear q (mem_track_iff.mpr (.inr ⟨s, hs, hq⟩))

/-- An envelope that meets a polygon meets the polygon's own envelope. -/
theorem ownIntersects_of_extent {ring : List (Point ℚ)} {e : Envelope ℚ}
    (h : (extent ring ∩ e.region).Nonempty) :
    ∃ own, envelopeOf? ring = some own ∧ own.intersects e = true := by
  obtain ⟨p, hp, hmem⟩ := h
  obtain ⟨v, hv⟩ : ∃ v, v ∈ ring := by
    rcases hp with ⟨v, hv, _⟩ | ⟨s, hs, _⟩ | hinside
    · exact ⟨v, hv⟩
    · exact ⟨_, (mem_ring_of_mem_edges hs).1⟩
    · obtain ⟨v, hv, _⟩ := exists_left_of_inside hinside
      exact ⟨v, hv⟩
  obtain ⟨own, hown, hcovers⟩ := exists_envelopeOf hv
  exact ⟨own, hown, intersects_of_mem (extent_subset hcovers hp) hmem⟩

theorem polygon_intersects_eq_hits {e : Envelope ℚ} (he : e.Ordered) (ring : List (Point ℚ)) :
    (polygon ring).intersects e = (polygon ring).hits e :=
  intersects_eq_hits fun h => ownIntersects_of_extent ((polygon_hits_iff he ring).mp h)

theorem polygon_intersects_iff {e : Envelope ℚ} (he : e.Ordered) (ring : List (Point ℚ)) :
    (polygon ring).intersects e = true ↔ (extent ring ∩ e.region).Nonempty := by
  rw [polygon_intersects_eq_hits he, polygon_hits_iff he]

/-- Rings of the same polygon meet the same envelopes. -/
theorem polygon_intersects_congr {e : Envelope ℚ} (he : e.Ordered) {ring ring' : List (Point ℚ)}
    (h : extent ring' = extent ring) : (polygon ring').intersects e = (polygon ring).intersects e := by
  rw [Bool.eq_iff_iff, polygon_intersects_iff he, polygon_intersects_iff he, h]

/-- **A polygon is said to intersect an envelope exactly if a point of the envelope is a
vertex, lies on an edge or is inside.** One corner stands for an envelope that no edge meets,
looking at the own envelope first changes no answer, and neither does it matter where the ring
starts, which way around it goes or whether it returns to its start. -/
theorem polygon_iff_common {e : Envelope ℚ} (he : e.Ordered) (ring : List (Point ℚ)) :
    ((polygon ring).intersects e = true ↔ (extent ring ∩ e.region).Nonempty) ∧
      ((∀ s ∈ edges ring, ∀ q ∈ segment ℚ s.1.position s.2.position, q ∉ e.region) →
        ∀ p ∈ e.region, Inside ring p ↔ Inside ring (e.minX, e.minY)) ∧
      (polygon ring).intersects e = (polygon ring).hits e ∧
      (∀ k, (polygon (ring.rotate k)).intersects e = (polygon ring).intersects e) ∧
      (polygon ring.reverse).intersects e = (polygon ring).intersects e ∧
      ∀ first next, ring.head? = some first → next.position = first.position →
        (polygon (ring ++ [next])).intersects e = (polygon ring).intersects e := by
  refine ⟨polygon_intersects_iff he ring, fun hclear p hp => inside_iff_of_clear hclear hp,
    polygon_intersects_eq_hits he ring, fun k => ?_, ?_, fun first next hfirst hsame => ?_⟩
  · exact polygon_intersects_congr he (extent_rotate ring k)
  · exact polygon_intersects_congr he (extent_reverse ring)
  · exact polygon_intersects_congr he (extent_concat hfirst hsame)

/-- A triangle has an envelope inside, whose points are all inside, and does not meet one
beyond its long side. -/
theorem triangle_common :
    let triangle : List (Point ℚ) := [⟨0, 0, none⟩, ⟨10, 0, none⟩, ⟨0, 10, none⟩]
    let inner : Envelope ℚ := ⟨1, 1, 2, 2⟩
    let beyond : Envelope ℚ := ⟨8, 8, 9, 9⟩
    inner.Ordered ∧ beyond.Ordered ∧
      (∀ s ∈ edges triangle, ∀ q ∈ segment ℚ s.1.position s.2.position, q ∉ inner.region) ∧
      (∀ p ∈ inner.region, Inside triangle p) ∧ (extent triangle ∩ inner.region).Nonempty ∧
      ¬(extent triangle ∩ beyond.region).Nonempty := by
  intro triangle inner beyond
  have hinner : inner.Ordered := ⟨by decide, by decide⟩
  have hbeyond : beyond.Ordered := ⟨by decide, by decide⟩
  have hclear : ∀ s ∈ edges triangle, ∀ q ∈ segment ℚ s.1.position s.2.position, q ∉ inner.region := by
    intro s hs q hq hmem
    have hmeet := (pathIntersects_iff hinner (closed triangle)).mpr ⟨q, mem_track_iff.mpr (.inr ⟨s, hs, hq⟩), hmem⟩
    exact absurd hmeet (by decide +kernel)
  have hcorner : Inside triangle (1, 1) := by decide +kernel
  obtain ⟨hmeets, hone, _⟩ := polygon_iff_common hinner triangle
  refine ⟨hinner, hbeyond, hclear, fun p hp => (hone hclear p hp).mpr hcorner, hmeets.mp (by decide +kernel),
    fun h => ?_⟩
  exact absurd ((polygon_iff_common hbeyond triangle).1.mpr h) (by decide +kernel)

end Observatory.Geometry
