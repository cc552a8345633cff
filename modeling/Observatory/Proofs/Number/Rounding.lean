import Observatory.Proofs.Number.Decimal
import Observatory.Proofs.Text.Numeral

/-! What rounding to decimals does.

A decimal rounded to so many places is the nearest multiple of a unit of the last one, the one
of greater magnitude where two are equally near, and it is written with that many places or, if
they do not fit, with as many as do (`RoundsTo`, `roundsTo_toPlaces`). So rounding keeps the
order, commutes with the sign and does nothing the second time (`round_half_away`). -/
namespace Observatory.Number

/-! ### The nearest whole number -/

theorem abs_nearest_sub_le (r : ℚ) : |(nearest r : ℚ) - r| ≤ 1 / 2 := by
  unfold nearest
  rw [abs_le]
  split
  · have hfloor := Int.floor_le (1 / 2 - r)
    have hnext := Int.lt_floor_add_one (1 / 2 - r)
    push_cast
    constructor <;> linarith
  · have hfloor := Int.floor_le (r + 1 / 2)
    have hnext := Int.lt_floor_add_one (r + 1 / 2)
    constructor <;> linarith

theorem nearest_nonneg {r : ℚ} (h : 0 ≤ r) : 0 ≤ nearest r := by
  have hzero : nearest 0 = 0 := by exact_mod_cast nearest_intCast 0
  exact hzero ▸ nearest_mono h

/-- Of two whole numbers equally near to a number that is not negative, the nearest one is the
greater. -/
theorem nearest_tie_of_nonneg {r : ℚ} (h : 0 ≤ r) {k : ℤ} (hk : |(k : ℚ) - r| = |(nearest r : ℚ) - r|) :
    |k| ≤ |nearest r| := by
  have hnonneg := nearest_nonneg h
  rw [abs_of_nonneg hnonneg]
  rcases abs_eq_abs.mp hk with hk | hk
  · have hsame : k = nearest r := by
      exact_mod_cast sub_left_injective hk
    rw [hsame, abs_of_nonneg hnonneg]
  · have hfloor : (nearest r : ℚ) ≤ r + 1 / 2 := nearest_of_nonneg h ▸ Int.floor_le _
    have hnext : r + 1 / 2 < (nearest r : ℚ) + 1 := by
      rw [nearest_of_nonneg h]
      exact Int.lt_floor_add_one _
    have hhigh : k < nearest r + 1 := by
      have : (k : ℚ) < (nearest r : ℚ) + 1 := by linarith
      exact_mod_cast this
    have hlow : -nearest r ≤ k := by
      have : -(nearest r : ℚ) ≤ (k : ℚ) := by linarith
      exact_mod_cast this
    exact abs_le.mpr ⟨hlow, Int.lt_add_one_iff.mp hhigh⟩

/-- **Of two whole numbers equally near, the nearest one is that of greater magnitude.** -/
theorem nearest_tie {r : ℚ} {k : ℤ} (hk : |(k : ℚ) - r| = |(nearest r : ℚ) - r|) : |k| ≤ |nearest r| := by
  rcases le_total 0 r with h | h
  · exact nearest_tie_of_nonneg h hk
  · have hneg : |((-k : ℤ) : ℚ) - -r| = |(nearest (-r) : ℚ) - -r| := by
      rw [nearest_neg]
      push_cast
      rw [neg_sub_neg, neg_sub_neg, abs_sub_comm r, abs_sub_comm r, hk]
    simpa only [nearest_neg, abs_neg] using nearest_tie_of_nonneg (neg_nonneg.mpr h) hneg

namespace Decimal

/-! ### Places -/

theorem of?_eq_none {coefficient : Int} {scale : Nat} (h : of? coefficient scale = none)
    (hscale : scale ≤ maxScale) : limit < coefficient.natAbs := by
  unfold of? at h
  split at h
  · exact absurd h (Option.some_ne_none _)
  · next hrange => exact not_le.mp fun hle => hrange ⟨hle, hscale⟩

/-- Padding adds the zeros asked for, or stops where one more does not fit. -/
theorem scale_pad (n : Nat) (x : Decimal) (h : x.scale + n ≤ maxScale) :
    (pad n x).scale = x.scale + n ∨
      ((pad n x).scale < x.scale + n ∧ limit < (pad n x).coefficient.natAbs * 10) := by
  induction n generalizing x with
  | zero => exact .inl rfl
  | succ n ih =>
    unfold pad
    split
    · next y hy =>
      obtain ⟨_, hscale⟩ := fields_of? hy
      have hsum : x.scale + (n + 1) = y.scale + n := by omega
      rw [hsum]
      exact ih y (by omega)
    · next hy =>
      have hfull := of?_eq_none hy (by omega)
      rw [Int.natAbs_mul] at hfull
      exact .inr ⟨by omega, hfull⟩

/-- Where one more zero does not fit, none is added. -/
theorem pad_of_full {x : Decimal} (h : limit < x.coefficient.natAbs * 10) (n : Nat) : pad n x = x := by
  cases n with
  | zero => rfl
  | succ n =>
    have hrange : ¬((x.coefficient * 10).natAbs ≤ limit ∧ x.scale + 1 ≤ maxScale) := by
      rw [Int.natAbs_mul]
      exact fun h' => absurd h'.1 (not_le.mpr h)
    rw [pad, of?, dif_neg hrange]

theorem scale_drop (places : Nat) (x : Decimal) : (x.drop places).scale = min places x.scale := by
  by_cases h : places < x.scale
  · rw [(fields_of? (of?_drop h)).2, min_eq_left h.le]
  · rw [drop, if_neg h, min_eq_right (not_lt.mp h)]

/-- A decimal rounded to places has that many, or as many as fit. -/
theorem scale_toPlaces {places : Nat} (h : places ≤ maxScale) (x : Decimal) :
    (x.toPlaces places).scale = places ∨
      ((x.toPlaces places).scale < places ∧ limit < (x.toPlaces places).coefficient.natAbs * 10) := by
  have hscale : (x.drop places).scale + (places - (x.drop places).scale) = places := by
    rw [scale_drop]
    omega
  have hpad := scale_pad (places - (x.drop places).scale) (x.drop places) (by omega)
  rwa [hscale] at hpad

/-- Rounding to the same places again does nothing. -/
theorem toPlaces_toPlaces {places : Nat} (h : places ≤ maxScale) (x : Decimal) :
    (x.toPlaces places).toPlaces places = x.toPlaces places := by
  have hkept : ∀ y : Decimal, y.scale ≤ places → y.drop places = y := fun y hy => if_neg (not_lt.mpr hy)
  rcases scale_toPlaces h x with hscale | ⟨hscale, hfull⟩
  · rw [toPlaces, hkept _ hscale.le, hscale, Nat.sub_self]
    rfl
  · rw [toPlaces, hkept _ hscale.le, pad_of_full hfull]

/-! ### Signs -/

instance : Neg Decimal :=
  ⟨fun x => ⟨-x.coefficient, x.scale, (Int.natAbs_neg _).trans_le x.coefficient_le, x.scale_le⟩⟩

theorem of?_neg (coefficient : Int) (scale : Nat) :
    of? (-coefficient) scale = (of? coefficient scale).map (- ·) := by
  by_cases h : coefficient.natAbs ≤ limit ∧ scale ≤ maxScale
  · have h' : (-coefficient).natAbs ≤ limit ∧ scale ≤ maxScale := by rwa [Int.natAbs_neg]
    rw [of?, of?, dif_pos h, dif_pos h']
    rfl
  · have h' : ¬((-coefficient).natAbs ≤ limit ∧ scale ≤ maxScale) := by rwa [Int.natAbs_neg]
    rw [of?, of?, dif_neg h, dif_neg h']
    rfl

/-- The quotient of nothing is nothing, so it is no matter that zero has no other sign. -/
theorem withSign_neg (n : Int) (d : Nat) :
    withSign (-n < 0) (roundQuotient n.natAbs d) = -withSign (n < 0) (roundQuotient n.natAbs d) := by
  unfold withSign
  rcases lt_trichotomy n 0 with h | rfl | h
  · simp [h, h.le]
  · have hzero : roundQuotient 0 d = 0 := by
      unfold roundQuotient
      rcases Nat.eq_zero_or_pos d with rfl | hd
      · rfl
      · exact Nat.div_eq_of_lt (by omega)
    simp [hzero]
  · simp [h, h.le]

theorem drop_neg (places : Nat) (x : Decimal) : (-x).drop places = -x.drop places := by
  by_cases h : places < x.scale
  · have hneg : of? (withSign (-x.coefficient < 0) (roundQuotient (-x.coefficient).natAbs
        (Nat.pow 10 (x.scale - places)))) places = some ((-x).drop places) := of?_drop (x := -x) h
    rw [Int.natAbs_neg, withSign_neg, of?_neg, of?_drop h] at hneg
    exact (Option.some.inj hneg).symm
  · rw [drop, drop, if_neg h]
    exact if_neg h

theorem pad_neg (n : Nat) (x : Decimal) : pad n (-x) = -pad n x := by
  induction n generalizing x with
  | zero => rfl
  | succ n ih =>
    have hnext : of? ((-x).coefficient * 10) ((-x).scale + 1) =
        (of? (x.coefficient * 10) (x.scale + 1)).map (- ·) := by
      rw [← of?_neg, ← Int.neg_mul]
      rfl
    rw [pad, pad, hnext]
    cases of? (x.coefficient * 10) (x.scale + 1) with
    | none => rfl
    | some y => exact ih y

theorem toPlaces_neg (places : Nat) (x : Decimal) : (-x).toPlaces places = -x.toPlaces places := by
  rw [toPlaces, drop_neg, toPlaces, ← pad_neg]
  rfl

/-! ### Text -/

/-- How many characters stand behind the point of a text. -/
def fractionDigits (s : String) : Nat := ((s.toList.dropWhile (· != '.')).drop 1).length

theorem ne_point_of_isDigit {c : Char} (h : c.isDigit = true) : (c != '.') = true := by
  refine bne_iff_ne.mpr ?_
  rintro rfl
  exact absurd h (by decide)

/-- Digits are split so that as many are in the fraction as there are places. -/
theorem plainParts_places (digits places : Nat) :
    (∀ c ∈ (plainParts digits (-(places : Int))).1, (c != '.') = true) ∧
      (plainParts digits (-(places : Int))).2.length = places := by
  have hdigit (zeros : Nat) :
      ∀ c ∈ List.replicate zeros '0' ++ digitText digits, (c != '.') = true := fun c hc =>
    ne_point_of_isDigit (Text.isDigit_of_mem_zeros hc)
  rcases Nat.eq_zero_or_pos places with rfl | hpos
  · have hwhole : plainParts digits (-((0 : Nat) : Int)) = (digitText digits ++ [], []) := rfl
    rw [hwhole, List.append_nil]
    exact ⟨hdigit 0, rfl⟩
  · have hfraction : ¬(0 : Int) ≤ -(places : Int) := by omega
    rw [plainParts, if_neg hfraction, neg_neg, Int.toNat_natCast]
    refine ⟨fun c hc => hdigit _ c (List.mem_of_mem_take hc), ?_⟩
    simp only [List.length_drop, List.length_append, List.length_replicate]
    omega

/-- Behind the point of a plain text stands its fraction. -/
theorem plainText_fraction {digits : Nat} {exponent : Int}
    (h : ∀ c ∈ (plainParts digits exponent).1, (c != '.') = true) :
    ((plainText false digits exponent).dropWhile (· != '.')).drop 1 = (plainParts digits exponent).2 := by
  unfold plainText
  generalize plainParts digits exponent = parts at h ⊢
  obtain ⟨whole, fraction⟩ := parts
  cases fraction with
  | nil =>
    show (whole.dropWhile (· != '.')).drop 1 = []
    rw [List.dropWhile_eq_nil_iff.mpr h]
    rfl
  | cons c rest =>
    show ((whole ++ '.' :: c :: rest).dropWhile (· != '.')).drop 1 = c :: rest
    rw [List.dropWhile_append_of_pos h]
    rfl

/-- A decimal is written with its fraction digits. -/
theorem fractionDigits_text (x : Decimal) : fractionDigits x.text = x.scale := by
  obtain ⟨hwhole, hlength⟩ := plainParts_places x.coefficient.natAbs x.scale
  unfold fractionDigits text
  rw [String.toList_ofList]
  split
  · show ((plainText false x.coefficient.natAbs (-(x.scale : Int))).dropWhile (· != '.') |>.drop 1).length = _
    rw [plainText_fraction hwhole, hlength]
  · rw [plainText_fraction hwhole, hlength]

/-! ### Rounding -/

/-- What it means that one decimal is another one rounded to so many places. -/
structure RoundsTo (places : Nat) (x y : Decimal) : Prop where
  /-- It has no more places. -/
  multiple : ∃ n : ℤ, y.toRat = n / 10 ^ places
  /-- It is at most half a unit of the last place away. -/
  near : |y.toRat - x.toRat| ≤ 1 / 10 ^ places / 2
  /-- Of the numbers with no more places that are as near it has the greatest magnitude. -/
  tie : ∀ n : ℤ, |n / 10 ^ places - x.toRat| = |y.toRat - x.toRat| → |(n / 10 ^ places : ℚ)| ≤ |y.toRat|
  /-- It has the same sign or is zero. -/
  sign : y.toRat = 0 ∨ SignType.sign y.toRat = SignType.sign x.toRat
  /-- It is in range. -/
  range : y.coefficient.natAbs ≤ limit
  /-- It is written with that many fraction digits, or with as many as keep it in range. -/
  digits : fractionDigits y.text = places ∨
    (fractionDigits y.text < places ∧ limit < y.coefficient.natAbs * 10)

theorem abs_div_sub (places : Nat) (n : ℤ) (r : ℚ) :
    |n / 10 ^ places - r| = |n - r * 10 ^ places| / 10 ^ places := by
  have hpos : (0 : ℚ) < 10 ^ places := by positivity
  rw [← abs_of_pos hpos, ← abs_div, abs_of_pos hpos, sub_div, mul_div_cancel_right₀ _ hpos.ne']

theorem rounded_zero (places : Nat) : rounded places 0 = 0 := by
  exact_mod_cast rounded_intCast places 0

/-- Rounding changes no sign, but may lead to zero. -/
theorem sign_rounded (places : Nat) (r : ℚ) :
    rounded places r = 0 ∨ SignType.sign (rounded places r) = SignType.sign r := by
  rcases lt_trichotomy r 0 with h | rfl | h
  · have hle : rounded places r ≤ 0 := rounded_zero places ▸ rounded_mono places h.le
    rcases hle.eq_or_lt with hzero | hneg
    · exact .inl hzero
    · exact .inr ((sign_neg hneg).trans (sign_neg h).symm)
  · exact .inl (rounded_zero places)
  · have hle : 0 ≤ rounded places r := rounded_zero places ▸ rounded_mono places h.le
    rcases hle.eq_or_lt with hzero | hpos
    · exact .inl hzero.symm
    · exact .inr ((sign_pos hpos).trans (sign_pos h).symm)

theorem roundsTo_toPlaces {places : Nat} (h : places ≤ maxScale) (x : Decimal) :
    RoundsTo places x (x.toPlaces places) where
  multiple := ⟨_, toRat_toPlaces places x⟩
  near := by
    rw [toRat_toPlaces, rounded, abs_div_sub, div_right_comm]
    gcongr
    exact abs_nearest_sub_le _
  tie := by
    intro n hn
    have hunit : (10 ^ places : ℚ) ≠ 0 := by positivity
    rw [toRat_toPlaces, rounded, abs_div_sub, abs_div_sub, div_left_inj' hunit] at hn
    have hle : |(n : ℚ)| ≤ |(nearest (x.toRat * 10 ^ places) : ℚ)| := by
      exact_mod_cast nearest_tie hn
    rw [toRat_toPlaces, rounded, abs_div, abs_div]
    gcongr
  sign := toRat_toPlaces places x ▸ sign_rounded places x.toRat
  range := (x.toPlaces places).coefficient_le
  digits := by
    rw [fractionDigits_text]
    exact scale_toPlaces h x

/-- Every way to round either leaves numbers alone or goes to places. -/
theorem round_cases (decimals : Option Int32) :
    (∀ x : Decimal, x.round decimals = x) ∨
      ∃ places ≤ maxScale, ∀ x : Decimal, x.round decimals = x.toPlaces places := by
  cases decimals with
  | none => exact .inl fun x => rfl
  | some n =>
    by_cases h : n < 0
    · exact .inl fun x => if_pos h
    · exact .inr ⟨_, min_le_right _ _, fun x => if_neg h⟩

/-- **Quantities are rounded half away from zero**: a decimal that is read off a double is
rounded to the places asked for, twenty-eight at most, and left alone if none or a negative
number is asked for. Rounding keeps the order, commutes with the sign and does nothing the
second time. -/
theorem round_half_away :
    (∀ v decimals x, ofFloat? v = some x → roundFloat? v decimals = some (x.round decimals)) ∧
      (∀ (x : Decimal) (n : Int32), 0 ≤ n →
        RoundsTo (min n.toInt.toNat 28) x (x.round (some n))) ∧
      (∀ (x y : Decimal) (decimals : Option Int32), x.toRat ≤ y.toRat →
        (x.round decimals).toRat ≤ (y.round decimals).toRat) ∧
      (∀ (x : Decimal) (decimals : Option Int32), (-x).round decimals = -x.round decimals) ∧
      (∀ (x : Decimal) (decimals : Option Int32), (x.round decimals).round decimals = x.round decimals) ∧
      ∀ (x : Decimal) (decimals : Option Int32), (∀ n ∈ decimals, n < 0) → x.round decimals = x := by
  refine ⟨fun v decimals x hx => ?_, fun x n hn => ?_, fun x y decimals h => ?_, fun x decimals => ?_,
    fun x decimals => ?_, fun x decimals h => ?_⟩
  · rw [roundFloat?, hx, Option.map_some]
  · have hround : x.round (some n) = x.toPlaces (min n.toInt.toNat maxScale) := if_neg (Int32.not_lt.mpr hn)
    rw [hround]
    exact roundsTo_toPlaces (min_le_right _ _) x
  · rw [toRat_round, toRat_round]
    exact roundedTo_mono decimals h
  · rcases round_cases decimals with h | ⟨places, _, h⟩
    · rw [h, h]
    · rw [h, h, toPlaces_neg]
  · rcases round_cases decimals with h | ⟨places, hplaces, h⟩
    · rw [h]
    · rw [h, h, toPlaces_toPlaces hplaces]
  · cases decimals with
    | none => rfl
    | some n => exact if_pos (h n rfl)

/-- Half a unit of the last place goes away from zero on either side of it. -/
theorem half_cent_rounded :
    let x : Decimal := ⟨12345, 3, by decide, by decide⟩
    (0 : Int32) ≤ 2 ∧ RoundsTo 2 x (x.round (some 2)) ∧ (x.round (some 2)).text = "12.35" ∧
      ((-x).round (some 2)).text = "-12.35" :=
  ⟨by decide, round_half_away.2.1 _ 2 (by decide), by decide +kernel, by decide +kernel⟩

end Decimal
end Observatory.Number
