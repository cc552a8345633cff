import Observatory.Number.Decimal
import Observatory.Proofs.Number.Shortest
import Mathlib.Algebra.Order.Floor.Ring

/-! The numbers that decimals are.

Rounding is to the nearest number with so many fraction digits, a half going away from zero
(`rounded`); dropping digits does that and appending zeros does nothing (`toRat_toPlaces`).
So the decimal read off a double, rounded as a dataset asks, is a function of the number
that is written for the double, and keeps the order of doubles (`roundFloat?_mono`). A whole
number of at most fifty-three bits survives the detour over a double
(`roundFloat?_ofInt64`). -/
namespace Observatory.Number
open Binary64 (Legal magnitude magnitude_pos magnitude_nonneg signed)

/-! ### Rounding -/

/-- The whole number nearest to a rational; of two equally near ones, the one farther from
zero. -/
def nearest (r : ℚ) : Int := if r < 0 then -⌊1 / 2 - r⌋ else ⌊r + 1 / 2⌋

theorem nearest_of_nonneg {r : ℚ} (h : 0 ≤ r) : nearest r = ⌊r + 1 / 2⌋ := if_neg (not_lt.mpr h)

theorem nearest_neg (r : ℚ) : nearest (-r) = -nearest r := by
  unfold nearest
  rcases lt_trichotomy r 0 with h | rfl | h
  · rw [if_pos h, if_neg (by linarith), neg_neg, neg_add_eq_sub]
  · norm_num
  · rw [if_pos (by linarith), if_neg (by linarith), sub_neg_eq_add, add_comm]

theorem nearest_mono {r s : ℚ} (h : r ≤ s) : nearest r ≤ nearest s := by
  unfold nearest
  split_ifs with hr hs hs
  · exact neg_le_neg (Int.floor_mono (by linarith))
  · calc -⌊1 / 2 - r⌋ ≤ 0 := neg_nonpos.mpr (Int.floor_nonneg.mpr (by linarith))
      _ ≤ ⌊s + 1 / 2⌋ := Int.floor_nonneg.mpr (by linarith)
  · linarith
  · exact Int.floor_mono (by linarith)

theorem nearest_intCast (n : Int) : nearest n = n := by
  have hhalf : ⌊(1 / 2 : ℚ)⌋ = 0 := by norm_num
  unfold nearest
  split
  · rw [sub_eq_add_neg, ← Int.cast_neg, Int.floor_add_intCast, hhalf, zero_add, neg_neg]
  · rw [add_comm, Int.floor_add_intCast, hhalf, zero_add]

/-- The number with that many fraction digits nearest to a rational; of two equally near
ones, the one farther from zero. -/
def rounded (places : Nat) (r : ℚ) : ℚ := nearest (r * 10 ^ places) / 10 ^ places

theorem rounded_mono (places : Nat) {r s : ℚ} (h : r ≤ s) : rounded places r ≤ rounded places s := by
  have hscaled : r * 10 ^ places ≤ s * 10 ^ places := by gcongr
  have hnearest : (nearest (r * 10 ^ places) : ℚ) ≤ nearest (s * 10 ^ places) := by
    exact_mod_cast nearest_mono hscaled
  unfold rounded
  gcongr

theorem rounded_signed (places : Nat) (negative : Bool) (r : ℚ) :
    rounded places (signed negative r) = signed negative (rounded places r) := by
  cases negative with
  | false => rfl
  | true =>
    show rounded places (-r) = -rounded places r
    unfold rounded
    rw [neg_mul, nearest_neg, Int.cast_neg, neg_div]

/-- A number that has no more fraction digits stays as it is. -/
theorem rounded_of_whole {places : Nat} {r : ℚ} {n : Int} (h : r * 10 ^ places = n) :
    rounded places r = r := by
  unfold rounded
  rw [h, nearest_intCast, ← h]
  field_simp

theorem rounded_intCast (places : Nat) (n : Int) : rounded places n = n :=
  rounded_of_whole (n := n * 10 ^ places) (by push_cast; rfl)

namespace Decimal

/-- The number that a decimal is. -/
def toRat (x : Decimal) : ℚ := x.coefficient / 10 ^ x.scale

/-- Division with a half going up is rounding. -/
theorem roundQuotient_eq (n : Nat) {d : Nat} (hd : 0 < d) :
    (roundQuotient n d : Int) = nearest (n / d) := by
  have hd' : (0 : ℚ) < d := by exact_mod_cast hd
  have hsum : (n / d + 1 / 2 : ℚ) = ((2 * n + d : Nat) : ℚ) / ((2 * d : Nat) : ℚ) := by
    push_cast
    field_simp
  rw [nearest_of_nonneg (by positivity), hsum, Rat.floor_natCast_div_natCast]
  rfl

theorem roundQuotient_le (n : Nat) {d : Nat} (hd : 0 < d) : roundQuotient n d ≤ n := by
  unfold roundQuotient
  rw [← Nat.lt_succ_iff, Nat.div_lt_iff_lt_mul (by omega)]
  nlinarith

theorem withSign_cast (negative : Bool) (n : Nat) : (withSign negative n : ℚ) = signed negative n := by
  cases negative <;> simp [withSign, signed]

theorem natAbs_withSign (negative : Bool) (n : Nat) : (withSign negative n).natAbs = n := by
  cases negative <;> simp [withSign]

theorem withSign_coefficient (n : Int) : withSign (n < 0) n.natAbs = n := by
  unfold withSign
  split <;> rename_i h <;> simp only [decide_eq_true_eq] at h <;> omega

theorem signed_div (negative : Bool) (r s : ℚ) : signed negative r / s = signed negative (r / s) := by
  cases negative with
  | false => rfl
  | true => exact neg_div s r

/-! ### Decimals in range -/

theorem of?_isSome {coefficient : Int} {scale : Nat} (hc : coefficient.natAbs ≤ limit)
    (hs : scale ≤ maxScale) : ∃ x, of? coefficient scale = some x := ⟨_, dif_pos ⟨hc, hs⟩⟩

theorem fields_of? {coefficient : Int} {scale : Nat} {x : Decimal} (h : of? coefficient scale = some x) :
    x.coefficient = coefficient ∧ x.scale = scale := by
  unfold of? at h
  split at h
  · obtain rfl := Option.some.inj h
    exact ⟨rfl, rfl⟩
  · exact nomatch h

theorem toRat_of? {coefficient : Int} {scale : Nat} {x : Decimal} (h : of? coefficient scale = some x) :
    x.toRat = coefficient / 10 ^ scale := by
  obtain ⟨hcoefficient, hscale⟩ := fields_of? h
  rw [toRat, hcoefficient, hscale]

theorem toRat_of?_withSign {negative : Bool} {n scale : Nat} {x : Decimal}
    (h : of? (withSign negative n) scale = some x) : x.toRat = signed negative (n / 10 ^ scale) := by
  rw [toRat_of? h, withSign_cast, signed_div]

theorem toRat_eq_signed (x : Decimal) :
    x.toRat = signed (x.coefficient < 0) (x.coefficient.natAbs / 10 ^ x.scale) := by
  rw [← signed_div, ← withSign_cast, withSign_coefficient, toRat]

theorem toRat_ofInt64 (n : Int64) : (ofInt64 n).toRat = n.toInt := by
  rw [toRat, ofInt64, pow_zero, div_one]

theorem toRat_pad (n : Nat) (x : Decimal) : (pad n x).toRat = x.toRat := by
  induction n generalizing x with
  | zero => rfl
  | succ n ih =>
    unfold pad
    split
    · next y hy =>
      rw [ih, toRat_of? hy, toRat, pow_succ]
      push_cast
      field_simp
    · rfl

/-- A whole number of the unit below, rounded to the unit. -/
theorem roundQuotient_div (n places k : Nat) :
    (roundQuotient n (10 ^ k) : ℚ) / 10 ^ places = rounded places (n / 10 ^ (places + k)) := by
  have hshift : (n / 10 ^ (places + k) : ℚ) * 10 ^ places = n / (10 ^ k : Nat) := by
    rw [pow_add]
    push_cast
    field_simp
  have hquotient : (roundQuotient n (10 ^ k) : ℚ) = (roundQuotient n (10 ^ k) : Int) := by norm_cast
  rw [rounded, hshift, hquotient, roundQuotient_eq n (by positivity)]

/-- With digits dropped a decimal is still in range: the quotient is never greater than the
coefficient. -/
theorem of?_drop {places : Nat} {x : Decimal} (h : places < x.scale) :
    of? (withSign (x.coefficient < 0) (roundQuotient x.coefficient.natAbs (Nat.pow 10 (x.scale - places))))
      places = some (x.drop places) := by
  have hrange : (withSign (x.coefficient < 0)
      (roundQuotient x.coefficient.natAbs (Nat.pow 10 (x.scale - places)))).natAbs ≤ limit := by
    rw [natAbs_withSign]
    exact (roundQuotient_le _ (Nat.pow_pos (by decide))).trans x.coefficient_le
  obtain ⟨y, hy⟩ := of?_isSome hrange (h.le.trans x.scale_le)
  unfold drop
  rw [if_pos h]
  show _ = some ((of? _ places).getD x)
  rw [hy, Option.getD_some]

/-- Dropping digits rounds. -/
theorem toRat_drop (places : Nat) (x : Decimal) : (x.drop places).toRat = rounded places x.toRat := by
  by_cases hlt : places < x.scale
  · obtain ⟨k, hk⟩ : ∃ k, x.scale = places + k := ⟨x.scale - places, by omega⟩
    have hsub : x.scale - places = k := by omega
    rw [toRat_of?_withSign (of?_drop hlt), toRat_eq_signed x, rounded_signed, Nat.pow_eq, hsub, hk,
      roundQuotient_div]
  · obtain ⟨k, hk⟩ : ∃ k, places = x.scale + k := ⟨places - x.scale, by omega⟩
    rw [drop, if_neg hlt]
    refine (rounded_of_whole (n := x.coefficient * 10 ^ k) ?_).symm
    rw [toRat, hk, pow_add]
    push_cast
    field_simp

theorem toRat_toPlaces (places : Nat) (x : Decimal) :
    (x.toPlaces places).toRat = rounded places x.toRat := by
  rw [toPlaces, toRat_pad, toRat_drop]

/-- A rational rounded as a dataset with that many decimals asks. -/
def roundedTo (decimals : Option Int32) (r : ℚ) : ℚ :=
  match decimals with
  | none => r
  | some n => if n < 0 then r else rounded (min n.toInt.toNat maxScale) r

theorem roundedTo_mono (decimals : Option Int32) {r s : ℚ} (h : r ≤ s) :
    roundedTo decimals r ≤ roundedTo decimals s := by
  unfold roundedTo
  split
  · exact h
  · split
    · exact h
    · exact rounded_mono _ h

theorem roundedTo_intCast (decimals : Option Int32) (n : Int) : roundedTo decimals n = n := by
  unfold roundedTo
  split
  · rfl
  · split
    · rfl
    · exact rounded_intCast _ n

theorem toRat_round (decimals : Option Int32) (x : Decimal) :
    (x.round decimals).toRat = roundedTo decimals x.toRat := by
  cases decimals with
  | none => rfl
  | some n =>
    show (if n < 0 then x else x.toPlaces (min n.toInt.toNat maxScale)).toRat =
      if n < 0 then x.toRat else rounded (min n.toInt.toNat maxScale) x.toRat
    split
    · rfl
    · exact toRat_toPlaces _ x

/-! ### Decimals of doubles -/

/-- Plain digits are read as the number they name, rounded to twenty-eight fraction digits. -/
theorem toRat_ofDigits? {negative : Bool} {digits : Nat} {exponent : Int} {x : Decimal}
    (h : ofDigits? negative digits exponent = some x) :
    x.toRat = rounded maxScale (signed negative (decimalRat (digits, exponent))) := by
  rw [rounded_signed]
  unfold ofDigits? at h
  split at h
  · next hwhole =>
    obtain ⟨e, rfl⟩ := Int.eq_ofNat_of_zero_le hwhole
    have hvalue : decimalRat (digits, (e : Int)) = ((digits * 10 ^ e : Nat) : Int) := by
      rw [decimalRat, zpow_natCast]
      push_cast
      rfl
    rw [toRat_of?_withSign h, hvalue, rounded_intCast, pow_zero, div_one, Int.toNat_natCast, Nat.pow_eq,
      Int.cast_natCast]
  · next hfraction =>
    obtain ⟨places, rfl⟩ : ∃ places : Nat, exponent = -places := ⟨exponent.natAbs, by omega⟩
    have hvalue : decimalRat (digits, -(places : Int)) = digits / 10 ^ places := by
      rw [decimalRat, zpow_neg, zpow_natCast, div_eq_mul_inv]
    simp only [neg_neg, Int.toNat_natCast] at h
    rw [hvalue]
    split at h
    · next hle =>
      obtain ⟨k, hk⟩ : ∃ k, maxScale = places + k := ⟨maxScale - places, by omega⟩
      rw [toRat_of?_withSign h, rounded_of_whole (n := digits * 10 ^ k)]
      rw [hk, pow_add]
      push_cast
      field_simp
    · next hgt =>
      obtain ⟨k, rfl⟩ : ∃ k, places = maxScale + k := ⟨places - maxScale, by omega⟩
      rw [Nat.add_sub_cancel_left, Nat.pow_eq] at h
      rw [toRat_of?_withSign h, roundQuotient_div]

end Decimal

/-- The number that is written for a double, zero where the double is none. -/
def Binary64.written : Binary64 → ℚ
  | finite negative m q => signed negative (writtenRat m q)
  | _ => 0

/-- Doubles are written in their order, whatever their signs. -/
theorem signed_writtenRat_mono {negative negative' : Bool} {m m' : Nat} {q q' : Int}
    (h : Legal m q) (h' : Legal m' q')
    (hle : signed negative (magnitude m q) ≤ signed negative' (magnitude m' q')) :
    signed negative (writtenRat m q) ≤ signed negative' (writtenRat m' q') := by
  have hpos := writtenRat_nonneg m q
  have hpos' := writtenRat_nonneg m' q'
  match negative, negative', hle with
  | false, false, hle => exact writtenRat_mono h h' hle
  | true, true, hle => exact neg_le_neg (writtenRat_mono h' h (neg_le_neg_iff.mp hle))
  | true, false, _ => exact (neg_nonpos.mpr hpos).trans hpos'
  | false, true, hle =>
    -- A number that is not negative is at most one that is not positive: both are zero.
    have hle : magnitude m q ≤ -magnitude m' q' := hle
    have hm : m = 0 := Nat.eq_zero_of_not_pos fun hm => by
      linarith [magnitude_pos (q := q) hm, magnitude_nonneg m' q']
    have hm' : m' = 0 := Nat.eq_zero_of_not_pos fun hm' => by
      linarith [magnitude_pos (q := q') hm', magnitude_nonneg m q]
    simp [hm, hm', writtenRat, signed]

namespace Decimal

/-- Only finite doubles are read, zero for itself and any other by its digits. -/
theorem ofFloat?_cases {x : Float} {y : Decimal} (h : ofFloat? x = some y) :
    ∃ negative m q, Binary64.ofFloat x = .finite negative m q ∧
      ((m = 0 ∧ of? 0 0 = some y) ∨
        (m ≠ 0 ∧ ofDigits? negative (shortest .upward m q).1 (shortest .upward m q).2 = some y)) := by
  unfold ofFloat? at h
  cases hx : Binary64.ofFloat x with
  | notNumber =>
    rw [hx] at h
    exact nomatch h
  | infinite negative =>
    rw [hx] at h
    exact nomatch h
  | finite negative m q =>
    rw [hx] at h
    refine ⟨negative, m, q, rfl, ?_⟩
    by_cases hm : m = 0
    · exact .inl ⟨hm, by simpa only [if_pos hm] using h⟩
    · exact .inr ⟨hm, by simpa only [if_neg hm] using h⟩

/-- The decimal read off a double is the number written for it, rounded to twenty-eight
fraction digits. -/
theorem toRat_ofFloat? {x : Float} {y : Decimal} (h : ofFloat? x = some y) :
    y.toRat = rounded maxScale (Binary64.ofFloat x).written := by
  obtain ⟨negative, m, q, hx, ⟨hm, hy⟩ | ⟨hm, hy⟩⟩ := ofFloat?_cases h
  · have hzero : rounded maxScale 0 = 0 := by exact_mod_cast rounded_intCast maxScale 0
    rw [hx, Binary64.written, writtenRat, if_pos hm, rounded_signed, hzero, toRat_of? hy]
    simp [signed]
  · rw [hx, Binary64.written, writtenRat, if_neg hm]
    exact toRat_ofDigits? hy

/-- A whole number of at most fifty-three bits can be read off its double. -/
theorem ofFloat?_ofInt64 {n : Int64} (h : n.toInt.natAbs < 2 ^ 53) :
    (∃ x, ofFloat? (Number.ofInt64 n) = some x) ∧
      (Binary64.ofFloat (Number.ofInt64 n)).written = n.toInt := by
  obtain ⟨negative, m, q, hx, hvalue⟩ := Binary64.ofFloat_ofInt64 n h
  have hlegal := Binary64.legal_of_ofFloat hx
  have hmagnitude : magnitude m q = n.toInt.natAbs := by
    have hnonneg := magnitude_nonneg m q
    rw [Nat.cast_natAbs, Int.cast_abs, ← hvalue]
    cases negative with
    | false => exact (abs_of_nonneg hnonneg).symm
    | true => exact ((abs_neg _).trans (abs_of_nonneg hnonneg)).symm
  unfold ofFloat?
  rw [hx]
  rcases Nat.eq_zero_or_pos m with rfl | hm
  · refine ⟨of?_isSome (Nat.zero_le _) (Nat.zero_le _), ?_⟩
    rw [← hvalue]
    simp [Binary64.written, writtenRat, magnitude, signed]
  · have hpos : 0 < n.toInt.natAbs := by
      have := magnitude_pos (q := q) hm
      rw [hmagnitude] at this
      exact_mod_cast this
    obtain ⟨d, e, hshortest, hdigits⟩ := shortest_whole hlegal hmagnitude hpos h .upward
    refine ⟨?_, ?_⟩
    · have hrange : (withSign negative (d * Nat.pow 10 e)).natAbs ≤ limit := by
        rw [natAbs_withSign, Nat.pow_eq, hdigits]
        exact h.le.trans (by decide)
      obtain ⟨y, hy⟩ := of?_isSome hrange (Nat.zero_le maxScale)
      refine ⟨y, ?_⟩
      simp only [if_neg hm.ne', hshortest]
      rw [ofDigits?, if_pos (Int.natCast_nonneg e), Int.toNat_natCast, hy]
    · rw [Binary64.written, writtenRat_whole hlegal hmagnitude hpos h, ← hmagnitude, hvalue]

end Decimal

theorem toRat_roundFloat? {x : Float} {decimals : Option Int32} {y : Decimal}
    (h : roundFloat? x decimals = some y) :
    y.toRat = Decimal.roundedTo decimals (rounded Decimal.maxScale (Binary64.ofFloat x).written) := by
  obtain ⟨z, hz, rfl⟩ := Option.map_eq_some_iff.mp h
  rw [Decimal.toRat_round, Decimal.toRat_ofFloat? hz]

/-- Only finite doubles are rounded. -/
theorem finite_of_roundFloat? {x : Float} {decimals : Option Int32} {y : Decimal}
    (h : roundFloat? x decimals = some y) :
    ∃ negative m q, Binary64.ofFloat x = .finite negative m q := by
  obtain ⟨z, hz, _⟩ := Option.map_eq_some_iff.mp h
  obtain ⟨negative, m, q, hx, _⟩ := Decimal.ofFloat?_cases hz
  exact ⟨negative, m, q, hx⟩

/-- Rounding to the decimals of a dataset keeps the order of doubles. -/
theorem roundFloat?_mono {x y : Float} {decimals : Option Int32} {a b : Decimal}
    (hx : roundFloat? x decimals = some a) (hy : roundFloat? y decimals = some b)
    (h : (Binary64.ofFloat x).toRat ≤ (Binary64.ofFloat y).toRat) : a.toRat ≤ b.toRat := by
  obtain ⟨negative, m, q, hxf⟩ := finite_of_roundFloat? hx
  obtain ⟨negative', m', q', hyf⟩ := finite_of_roundFloat? hy
  rw [toRat_roundFloat? hx, toRat_roundFloat? hy]
  rw [hxf, hyf] at h ⊢
  exact Decimal.roundedTo_mono _ (rounded_mono _
    (signed_writtenRat_mono (Binary64.legal_of_ofFloat hxf) (Binary64.legal_of_ofFloat hyf) h))

/-- A whole number of at most fifty-three bits comes back from its double unrounded. -/
theorem roundFloat?_ofInt64 {n : Int64} (h : n.toInt.natAbs < 2 ^ 53) (decimals : Option Int32) :
    ∃ x, roundFloat? (ofInt64 n) decimals = some x ∧ x.toRat = n.toInt := by
  obtain ⟨⟨x, hx⟩, hwritten⟩ := Decimal.ofFloat?_ofInt64 h
  have hround : roundFloat? (ofInt64 n) decimals = some (x.round decimals) := by
    rw [roundFloat?, hx, Option.map_some]
  refine ⟨x.round decimals, hround, ?_⟩
  rw [toRat_roundFloat? hround, hwritten, rounded_intCast, Decimal.roundedTo_intCast]

end Observatory.Number
