import Observatory.Proofs.Space.Lines
import Mathlib.Algebra.Group.Nat.Even

/-! Rings and what is inside them, with exact coordinates.

A position is inside a ring if the ray from it to the right crosses an odd number of edges
(`Inside`), and the rule on the edges says just that (`ringContains_iff`). Where no edge meets
an envelope, all its points are inside or none is (`inside_iff_of_clear`): moving sideways
changes no crossing, moving up changes the crossing of an edge exactly where one of its ends is
passed on the right (`crosses_upward`), and around a ring every vertex is the end of two edges
(`parity_closed`). -/
namespace Observatory.Geometry
open Envelope (exists_along)

/-! ### Walks -/

section Walks
variable {α : Type} (f g : α → Bool)

/-- Whether a test holds an odd number of times. -/
def parity : List α → Bool
  | [] => false
  | a :: rest => f a ^^ parity rest

theorem parity_iff (l : List α) : parity f l = true ↔ Odd (l.countP f) := by
  induction l with
  | nil => simp [parity]
  | cons a rest ih =>
    rw [parity, List.countP_cons]
    cases ha : f a with
    | false => simpa using ih
    | true =>
      rw [if_pos rfl, Nat.odd_add_one, ← ih]
      simp

theorem parity_xor (l : List α) : parity (fun a => f a ^^ g a) l = (parity f l ^^ parity g l) := by
  induction l with
  | nil => rfl
  | cons a rest ih =>
    rw [parity, parity, parity, ih, Bool.xor_assoc, Bool.xor_assoc, Bool.xor_left_comm (g a)]

variable {f g}

theorem parity_congr {l : List α} (h : ∀ a ∈ l, f a = g a) : parity f l = parity g l := by
  induction l with
  | nil => rfl
  | cons a rest ih =>
    rw [parity, parity, h a List.mem_cons_self, ih fun b hb => h b (List.mem_cons_of_mem a hb)]

end Walks

/-- Over a walk from one point to another, a mark on points changes along an odd number of
steps exactly if its ends differ in it. -/
theorem parity_walk (mark : Point ℚ → Bool) (a b : Point ℚ) (between : List (Point ℚ)) :
    parity (fun s => mark s.1 ^^ mark s.2) (segments (a :: (between ++ [b]))) = (mark a ^^ mark b) := by
  induction between generalizing a with
  | nil => simp [segments, parity]
  | cons c rest ih =>
    rw [List.cons_append, segments_cons_cons, parity, ih]
    cases mark c <;> simp

/-! ### Rings -/

/-- The ring with its first point repeated at the end. -/
def closed (ring : List (Point ℚ)) : List (Point ℚ) := ring ++ ring.take 1

/-- The edges of a ring: each point with the next, and the last with the first. -/
def edges (ring : List (Point ℚ)) : List (Point ℚ × Point ℚ) := segments (closed ring)

/-- Around a ring a mark on points changes an even number of times. -/
theorem parity_closed (mark : Point ℚ → Bool) (ring : List (Point ℚ)) :
    parity (fun s => mark s.1 ^^ mark s.2) (edges ring) = false := by
  cases ring with
  | nil => rfl
  | cons first rest => exact (parity_walk mark first first rest).trans (Bool.xor_self _)

/-! ### Crossings -/

/-- An edge crosses the ray from a position to the right: one of its ends is above the ray and
the other is not, and at the height of the ray it is to the right of the position. -/
def Crosses (p : ℚ × ℚ) (s : Point ℚ × Point ℚ) : Prop :=
  ¬(p.2 < s.1.y ↔ p.2 < s.2.y) ∧ ∃ x, p.1 < x ∧ (x, p.2) ∈ segment ℚ s.1.position s.2.position

/-- Where an edge is at a height that its ends are on either side of. -/
theorem mem_segment_level {a b : Point ℚ} {x y : ℚ} (h : ¬(y < a.y ↔ y < b.y)) :
    (x, y) ∈ segment ℚ a.position b.position ↔ x = (b.x - a.x) * (y - a.y) / (b.y - a.y) + a.x := by
  have hne : b.y - a.y ≠ 0 := by
    intro hzero
    rw [sub_eq_zero.mp hzero] at h
    exact h Iff.rfl
  rw [mem_segment_iff]
  constructor
  · rintro ⟨t, _, _, hx, hy⟩
    dsimp only at hx hy
    rw [hx, hy]
    field_simp
    ring
  · rintro rfl
    have hbetween : y ∈ segment ℚ a.y b.y := by
      rw [segment_eq_uIcc, Set.mem_uIcc]
      rcases lt_or_ge y a.y with ha | ha
      · exact .inr ⟨not_lt.mp fun hb => h (iff_of_true ha hb), ha.le⟩
      · exact .inl ⟨ha, not_lt.mp fun hb => h (iff_of_false ha.not_gt (not_lt.mpr hb.le))⟩
    rw [segment_eq_image'] at hbetween
    obtain ⟨t, ⟨h0, h1⟩, rfl⟩ := hbetween
    refine ⟨t, h0, h1, ?_, rfl⟩
    simp only [smul_eq_mul]
    field_simp
    ring

theorem crossesRay_iff {a b : Point ℚ} {x y : ℚ} : crossesRay a b x y = true ↔ Crosses (x, y) (a, b) := by
  unfold crossesRay Crosses
  simp only [Bool.and_eq_true, bne_iff_ne, ne_eq, decide_eq_decide, decide_eq_true_eq]
  refine and_congr_right fun h => ?_
  simp only [mem_segment_level h, exists_eq_right]

instance (p : ℚ × ℚ) (s : Point ℚ × Point ℚ) : Decidable (Crosses p s) :=
  decidable_of_iff (crossesRay s.1 s.2 p.1 p.2 = true) crossesRay_iff

theorem crosses_swap {p : ℚ × ℚ} {s : Point ℚ × Point ℚ} : Crosses p s.swap ↔ Crosses p s := by
  unfold Crosses
  rw [Prod.fst_swap, Prod.snd_swap, segment_symm, @iff_comm (p.2 < s.2.y)]

/-- A position is inside a ring if the ray from it to the right crosses an odd number of
edges. -/
def Inside (ring : List (Point ℚ)) (p : ℚ × ℚ) : Prop :=
  Odd ((edges ring).countP fun s => decide (Crosses p s))

instance (ring : List (Point ℚ)) (p : ℚ × ℚ) : Decidable (Inside ring p) :=
  inferInstanceAs (Decidable (Odd _))

theorem inside_iff {ring : List (Point ℚ)} {p : ℚ × ℚ} :
    Inside ring p ↔ parity (fun s => decide (Crosses p s)) (edges ring) = true :=
  (parity_iff _ _).symm

/-- An edge that is crossed has a point level with the ray and to the right. -/
theorem exists_right_of_inside {ring : List (Point ℚ)} {p : ℚ × ℚ} (h : Inside ring p) :
    ∃ s ∈ edges ring, ∃ x, p.1 < x ∧ (x, p.2) ∈ segment ℚ s.1.position s.2.position := by
  obtain ⟨s, hs, hcrosses⟩ := List.countP_pos_iff.mp h.pos
  exact ⟨s, hs, (of_decide_eq_true hcrosses).2⟩

/-! ### Moving the ray -/

/-- Moving sideways without meeting an edge changes none of its crossings. -/
theorem crosses_sideways {s : Point ℚ × Point ℚ} {x x' y : ℚ} (hle : x ≤ x')
    (hclear : ∀ p ∈ segment ℚ s.1.position s.2.position, p.2 = y → x ≤ p.1 → ¬p.1 ≤ x') :
    Crosses (x, y) s ↔ Crosses (x', y) s := by
  refine and_congr_right fun _ => ⟨?_, ?_⟩
  · rintro ⟨r, hr, hmem⟩
    exact ⟨r, not_le.mp (hclear _ hmem rfl hr.le), hmem⟩
  · rintro ⟨r, hr, hmem⟩
    exact ⟨r, hle.trans_lt hr, hmem⟩

/-- An edge that misses an upright stretch lies to one side of it at its heights. -/
theorem sides_of_clear {a b : ℚ × ℚ} {x y y' : ℚ}
    (hclear : ∀ p ∈ segment ℚ a b, p.1 = x → p.2 ∉ Set.Icc y y') :
    (∀ p ∈ segment ℚ a b, p.2 ∈ Set.Icc y y' → x < p.1) ∨
      ∀ p ∈ segment ℚ a b, p.2 ∈ Set.Icc y y' → p.1 < x := by
  by_contra hneither
  push Not at hneither
  obtain ⟨⟨p, hp, hpy, hpx⟩, q, hq, hqy, hqx⟩ := hneither
  have hmid : x ∈ segment ℚ p.1 q.1 := Icc_subset_segment ⟨hpx, hqx⟩
  obtain ⟨r, hr, hrx⟩ := exists_along (LinearMap.fst ℚ ℚ ℚ) hmid
  have hry : r.2 ∈ Set.Icc y y' := (convex_Icc _ _).segment_subset hpy hqy (Prod.segment_subset p q hr).2
  exact hclear r ((convex_segment a b).segment_subset hp hq hr) hrx hry

/-- Whether a point is passed by the ray that moves up: whether it is to the right, above the
lower height and not above the upper one. -/
def passed (x y y' : ℚ) (v : Point ℚ) : Bool := decide (y < v.y ∧ v.y ≤ y' ∧ x < v.x)

/-- Of an edge that lies to the right every height between its ends is crossed. -/
theorem crosses_of_right {s : Point ℚ × Point ℚ} {x h : ℚ}
    (hright : ∀ p ∈ segment ℚ s.1.position s.2.position, p.2 = h → x < p.1) :
    Crosses (x, h) s ↔ ¬(h < s.1.y ↔ h < s.2.y) := by
  refine and_iff_left_of_imp fun hlevel => ?_
  have hmem := (mem_segment_level hlevel).mpr rfl
  exact ⟨_, hright _ hmem rfl, hmem⟩

theorem passed_of_right {v : Point ℚ} {x y y' : ℚ} (hright : v.y ∈ Set.Icc y y' → x < v.x) :
    passed x y y' v = decide (y < v.y ∧ ¬y' < v.y) := by
  unfold passed
  refine decide_eq_decide.mpr ⟨fun ⟨h, h', _⟩ => ⟨h, not_lt.mpr h'⟩, fun ⟨h, h'⟩ => ?_⟩
  exact ⟨h, not_lt.mp h', hright ⟨h.le, not_lt.mp h'⟩⟩

theorem xor_levels {a b a' b' : Prop} [Decidable a] [Decidable b] [Decidable a'] [Decidable b']
    (ha : a' → a) (hb : b' → b) :
    (decide ¬(a ↔ b) ^^ decide ¬(a' ↔ b')) = (decide (a ∧ ¬a') ^^ decide (b ∧ ¬b')) := by
  by_cases h₁ : a <;> by_cases h₂ : b <;> by_cases h₃ : a' <;> by_cases h₄ : b' <;> simp_all

/-- **Moving up without meeting an edge changes its crossing exactly if one of its ends is
passed.** -/
theorem crosses_upward {s : Point ℚ × Point ℚ} {x y y' : ℚ} (hle : y ≤ y')
    (hclear : ∀ p ∈ segment ℚ s.1.position s.2.position, p.1 = x → p.2 ∉ Set.Icc y y') :
    (decide (Crosses (x, y) s) ^^ decide (Crosses (x, y') s)) = (passed x y y' s.1 ^^ passed x y y' s.2) := by
  have hstart := left_mem_segment ℚ s.1.position s.2.position
  have hend := right_mem_segment ℚ s.1.position s.2.position
  rcases sides_of_clear hclear with hright | hleft
  · have hlow : Crosses (x, y) s ↔ ¬(y < s.1.y ↔ y < s.2.y) :=
      crosses_of_right fun p hp h => hright p hp ⟨h.ge, h.le.trans hle⟩
    have hhigh : Crosses (x, y') s ↔ ¬(y' < s.1.y ↔ y' < s.2.y) :=
      crosses_of_right fun p hp h => hright p hp ⟨hle.trans h.ge, h.le⟩
    rw [passed_of_right (hright _ hstart), passed_of_right (hright _ hend)]
    rw [decide_eq_decide.mpr hlow, decide_eq_decide.mpr hhigh, xor_levels hle.trans_lt hle.trans_lt]
  · have hnone : ∀ {h : ℚ}, h ∈ Set.Icc y y' → ¬Crosses (x, h) s := by
      rintro h hrange ⟨_, r, hr, hmem⟩
      exact (hleft _ hmem hrange).not_gt hr
    have hunpassed : ∀ {v : Point ℚ}, (v.y ∈ Set.Icc y y' → v.x < x) → passed x y y' v = false := by
      intro v hv
      exact decide_eq_false fun ⟨h, h', hx⟩ => (hv ⟨h.le, h'⟩).not_gt hx
    rw [decide_eq_false (hnone ⟨le_rfl, hle⟩), decide_eq_false (hnone ⟨hle, le_rfl⟩),
      hunpassed (hleft _ hstart), hunpassed (hleft _ hend)]

section Constant
variable {ring : List (Point ℚ)} {x x' y y' : ℚ}

theorem inside_sideways (hle : x ≤ x')
    (hclear : ∀ s ∈ edges ring, ∀ p ∈ segment ℚ s.1.position s.2.position, p.2 = y → x ≤ p.1 → ¬p.1 ≤ x') :
    Inside ring (x, y) ↔ Inside ring (x', y) := by
  rw [inside_iff, inside_iff, parity_congr fun s hs => decide_eq_decide.mpr (crosses_sideways hle (hclear s hs))]

theorem inside_upward (hle : y ≤ y')
    (hclear : ∀ s ∈ edges ring, ∀ p ∈ segment ℚ s.1.position s.2.position, p.1 = x → p.2 ∉ Set.Icc y y') :
    Inside ring (x, y) ↔ Inside ring (x, y') := by
  have hpassed := parity_closed (passed x y y') ring
  rw [← parity_congr fun s hs => crosses_upward hle (hclear s hs), parity_xor] at hpassed
  have heq : ∀ a b : Bool, (a ^^ b) = false → a = b := by decide
  rw [inside_iff, inside_iff, heq _ _ hpassed]

end Constant

/-- **Where no edge meets an envelope, it is inside the ring as a whole or not at all**, so one
corner decides. -/
theorem inside_iff_of_clear {ring : List (Point ℚ)} {e : Envelope ℚ}
    (hclear : ∀ s ∈ edges ring, ∀ q ∈ segment ℚ s.1.position s.2.position, q ∉ e.region) {p : ℚ × ℚ}
    (hp : p ∈ e.region) : Inside ring p ↔ Inside ring (e.minX, e.minY) := by
  obtain ⟨x, y⟩ := p
  obtain ⟨⟨hx, hx'⟩, hy, hy'⟩ := hp
  calc Inside ring (x, y) ↔ Inside ring (e.minX, y) := Iff.symm (inside_sideways hx fun s hs q hq hlevel h h' =>
        hclear s hs q hq ⟨⟨h, h'.trans hx'⟩, hlevel.ge.trans' hy, hlevel.le.trans hy'⟩)
    _ ↔ Inside ring (e.minX, e.minY) := Iff.symm (inside_upward hy fun s hs q hq hlevel h =>
        hclear s hs q hq ⟨⟨hlevel.ge, hlevel.le.trans (hx.trans hx')⟩, h.1, h.2.trans hy'⟩)

/-! ### The rule on the edges of a ring -/

/-- The edges of a ring, the last one written out. -/
theorem edges_eq {ring : List (Point ℚ)} {first last : Point ℚ} (hfirst : ring.head? = some first)
    (hlast : ring.getLast? = some last) : edges ring = segments ring ++ [(last, first)] := by
  rw [edges, closed, List.take_one, hfirst]
  exact segments_concat hlast first

theorem foldl_toggle {α : Type} (f : α → Bool) (l : List α) (start : Bool) :
    l.foldl (fun inside a => if f a then !inside else inside) start = (start ^^ parity f l) := by
  induction l generalizing start with
  | nil => simp [parity]
  | cons a rest ih =>
    rw [List.foldl_cons, ih, parity]
    cases f a <;> simp

/-- The same edges, each with the point before its own instead of the one after it. -/
theorem ringEdges_perm (ring : List (Point ℚ)) : (ringEdges ring).Perm ((edges ring).map Prod.swap) := by
  cases ring with
  | nil => exact .refl _
  | cons first rest =>
    obtain ⟨last, hlast⟩ : ∃ last, (first :: rest).getLast? = some last :=
      ⟨_, List.getLast?_eq_some_getLast (List.cons_ne_nil first rest)⟩
    have hback : (segments (first :: rest)).map Prod.swap = rest.zip (first :: rest) := List.zip_swap ..
    have hring : ringEdges (first :: rest) = (first, last) :: rest.zip (first :: rest) := by
      rw [ringEdges, hlast]
      rfl
    rw [edges_eq rfl hlast, List.map_append, hback, hring]
    exact (List.perm_append_singleton _ _).symm

theorem ringContains_iff {ring : List (Point ℚ)} {x y : ℚ} :
    ringContains ring x y = true ↔ Inside ring (x, y) := by
  have hcross : ∀ s : Point ℚ × Point ℚ,
      crossesRay s.swap.1 s.swap.2 x y = decide (Crosses (x, y) s) := fun s => by
    rw [Bool.eq_iff_iff, crossesRay_iff, decide_eq_true_eq]
    exact crosses_swap
  unfold ringContains Inside
  rw [foldl_toggle (fun s : Point ℚ × Point ℚ => crossesRay s.1 s.2 x y), Bool.false_xor, parity_iff,
    (ringEdges_perm ring).countP_eq, List.countP_map]
  simp only [Function.comp_def, hcross]

end Observatory.Geometry
