import Observatory.Proofs.Number.Nearest

/-! Decimal numbers as doubles.

A decimal number is read as the double in whose interval it lies (`ofFloat_nearestFloat`). With
few digits and a small power of ten both are doubles themselves, and one rounding is left;
otherwise the number is rounded from its digits. The numbers that are too great or too small for
every double lie in none of the intervals. -/
namespace Observatory.Number
open Float.Model (UnpackedFloat Format)
open Float.Model.UnpackedFloat (Sign)
open Binary64 (Legal magnitude)

/-! ### Powers of ten -/

/-- The double is that power of ten. -/
def isPowerOfTen (e : Nat) : UnpackedFloat → Bool
  | .finite .positive m q _ => m * 2 ^ q.toNat == 10 ^ e * 2 ^ (-q).toNat
  | _ => false

theorem isPowerOfTen_table :
    ∀ e : Fin 23,
      isPowerOfTen e (Float.exactlyRepresentablePowersOfTen[e]).toModel.unpack = true := by
  decide +kernel

theorem magnitude_of_isPowerOfTen {e : Nat} {u : UnpackedFloat} (h : isPowerOfTen e u = true) :
    ∃ m q hm, u = .finite .positive m q hm ∧ magnitude m q = 10 ^ e := by
  unfold isPowerOfTen at h
  split at h
  · next m q hm =>
    refine ⟨m, q, hm, rfl, ?_⟩
    have hcast : (m * 2 ^ q.toNat : ℚ) = 10 ^ e * 2 ^ (-q).toNat := by
      exact_mod_cast beq_iff_eq.mp h
    rw [pow_toNat 2 (by norm_num), ← mul_assoc] at hcast
    exact mul_right_cancel₀ (by positivity) hcast
  · exact nomatch h

/-- A whole number with its significand shifted up to the top. -/
theorem unpack_toFloat {d : Nat} (hd : 0 < d) (hlt : d < 2 ^ 53) :
    ∃ m q hm, d.toUInt64.toFloat.toModel.unpack = .finite .positive m q hm ∧
      magnitude m q = d ∧ 2 ^ 52 ≤ m := by
  have hlog : d.log2 < 53 := (Nat.log2_lt hd.ne').mpr hlt
  obtain ⟨hm, hround⟩ := Binary64.unpack_round .positive hd hlt
  have hfull := Binary64.log2_shift hd hlog
  refine ⟨_, _, hm, ?_, Binary64.magnitude_shift (by omega), ((Nat.log2_eq_iff hm.ne').mp hfull).1⟩
  rw [← hround]
  have hnat : d.toUInt64.toNat = d := Nat.mod_eq_of_lt (by omega)
  show UnpackedFloat.unpack Format.binary64 (UnpackedFloat.pack Format.binary64
    (UnpackedFloat.normalize Format.binary64 d.toUInt64.toNat 0 .positive)) = _
  rw [hnat]
  unfold UnpackedFloat.normalize
  rw [compare_gt_iff_gt.mpr (by omega)]
  rfl

/-! ### Arithmetic on doubles -/

theorem unpack_mul {x y : Float} {s t : Sign} {m₁ m₂ m : Nat} {e₁ e₂ q : Int} {hm₁ : 0 < m₁}
    {hm₂ : 0 < m₂} (hx : x.toModel.unpack = .finite s m₁ e₁ hm₁)
    (hy : y.toModel.unpack = .finite t m₂ e₂ hm₂)
    (h : ReadsAs (magnitude m₁ e₁ * magnitude m₂ e₂) m q) (hlegal : Legal m q) (hm : 0 < m)
    (hlong : 2 ^ 52 ≤ m₁ * m₂) : (x * y).toModel.unpack = .finite (s * t) m q hm := by
  show UnpackedFloat.unpack Format.binary64 (UnpackedFloat.pack Format.binary64
    (UnpackedFloat.mul Format.binary64 x.toModel.unpack y.toModel.unpack)) = _
  rw [hx, hy, mul_of_readsAs s t h hlegal hm hm₁ hm₂ hlong, Binary64.unpack_pack _ hlegal hm]

theorem unpack_div {x y : Float} {s t : Sign} {m₁ m₂ m : Nat} {e₁ e₂ q : Int} {hm₁ : 0 < m₁}
    {hm₂ : 0 < m₂} (hx : x.toModel.unpack = .finite s m₁ e₁ hm₁)
    (hy : y.toModel.unpack = .finite t m₂ e₂ hm₂)
    (h : ReadsAs (magnitude m₁ e₁ / magnitude m₂ e₂) m q) (hlegal : Legal m q) (hm : 0 < m) :
    (x / y).toModel.unpack = .finite (s / t) m q hm := by
  show UnpackedFloat.unpack Format.binary64 (UnpackedFloat.pack Format.binary64
    (UnpackedFloat.div Format.binary64 x.toModel.unpack y.toModel.unpack)) = _
  rw [hx, hy, div_of_readsAs s t h hlegal hm hm₁ hm₂, Binary64.unpack_pack _ hlegal hm]

theorem unpack_neg {x : Float} {s : Sign} {m : Nat} {q : Int} {hm : 0 < m}
    (hx : x.toModel.unpack = .finite s m q hm) (hlegal : Legal m q) :
    (-x).toModel.unpack = .finite (-s) m q hm := by
  show UnpackedFloat.unpack Format.binary64 (UnpackedFloat.pack Format.binary64
    (UnpackedFloat.neg x.toModel.unpack)) = _
  rw [hx]
  exact Binary64.unpack_pack (-s) hlegal hm

/-! ### Decimal numbers -/

/-- The intervals of all doubles. -/
theorem ReadsAs.bounds {v : ℚ} {m : Nat} {q : Int} (h : ReadsAs v m q) (hlegal : Legal m q)
    (hm : 0 < m) : 2 ^ (-1075 : Int) ≤ v ∧ v < 2 ^ (1024 : Int) := by
  have hgap := (gapBelow_bounds m q).2
  have hone : (1 : ℚ) ≤ m := by exact_mod_cast hm
  have hlt : (m : ℚ) + 1 ≤ 2 ^ 53 := by exact_mod_cast hlegal.lt
  constructor
  · have hleast : (2 : ℚ) ^ (-1076 : Int) ≤ 2 ^ (q - 2) :=
      zpow_le_zpow_right₀ (by norm_num) (by have := hlegal.least; omega)
    calc (2 : ℚ) ^ (-1075 : Int) = 2 * 2 ^ (-1076 : Int) := by
          rw [← zpow_one_add₀ (by norm_num)]
          norm_num
      _ ≤ (4 * m - gapBelow m q) * 2 ^ (q - 2) :=
          mul_le_mul (by linarith) hleast (by positivity) (by linarith)
      _ ≤ v := h.low
  · calc v ≤ (4 * m + 2) * 2 ^ (q - 2) := h.high
      _ < 2 ^ 55 * 2 ^ (q - 2) := by
          gcongr
          linarith
      _ ≤ 2 ^ 55 * 2 ^ (969 : Int) := by
          gcongr
          · norm_num
          · have := hlegal.greatest
            omega
      _ = 2 ^ (1024 : Int) := by
          rw [← zpow_natCast, ← zpow_add₀ (by norm_num)]
          norm_num

/-- Digits and exponent say how great a number is. -/
theorem decimal_bounds {d : Nat} {e : Int} (hd : 0 < d) :
    (10 : ℚ) ^ (e + (digitText d).length - 1) ≤ d * 10 ^ e ∧
      (d * 10 ^ e : ℚ) < 10 ^ (e + (digitText d).length) := by
  have hlength : 0 < (digitText d).length := Nat.length_toDigits_pos
  constructor
  · have hlow : (10 : ℚ) ^ ((digitText d).length - 1) ≤ d := by
      rcases Nat.eq_or_lt_of_le hlength with hone | hmore
      · rw [← hone]
        exact_mod_cast hd
      · have hnot := mt (Nat.length_toDigits_le_iff (by decide) (Nat.sub_pos_of_lt hmore)).mpr
          (not_le.mpr (Nat.sub_lt hlength one_pos))
        exact_mod_cast not_lt.mp hnot
    calc (10 : ℚ) ^ (e + (digitText d).length - 1)
        = 10 ^ (((digitText d).length - 1 : Nat) : Int) * 10 ^ e := by
          rw [← zpow_add₀ (by norm_num)]
          congr 1
          omega
      _ ≤ d * 10 ^ e := by
          rw [zpow_natCast]
          gcongr
  · have hhigh : (d : ℚ) < 10 ^ (digitText d).length := by
      exact_mod_cast (Nat.length_toDigits_le_iff (b := 10) (by decide) hlength).mp le_rfl
    rw [add_comm, zpow_add₀ (by norm_num), zpow_natCast]
    gcongr

section Scientific
variable {d m : Nat} {e q : Int} (h : ReadsAs (d * 10 ^ e) m q) (hlegal : Legal m q) (hm : 0 < m)

include h hm in
theorem digits_pos : 0 < d := by
  have hpos := h.pos hm
  rw [Nat.pos_iff_ne_zero]
  rintro rfl
  rw [Nat.cast_zero, zero_mul] at hpos
  exact lt_irrefl 0 hpos

include h hlegal hm

/-- Few digits and a small power of ten are doubles themselves. -/
theorem unpack_ofScientific_fast (hfast : d < 2 ^ 53 ∧ e.natAbs ≤ 22) :
    (Float.ofScientific d (e < 0) e.natAbs).toModel.unpack = .finite .positive m q hm := by
  have hd := digits_pos h hm
  obtain ⟨m₁, e₁, hm₁, hx, hdigits, hlong⟩ := unpack_toFloat hd hfast.1
  obtain ⟨m₂, e₂, hm₂, hy, hpower⟩ :=
    magnitude_of_isPowerOfTen (isPowerOfTen_table ⟨e.natAbs, by omega⟩)
  rw [Float.ofScientific, dif_pos hfast]
  by_cases he : e < 0
  · rw [if_pos (decide_eq_true he)]
    refine unpack_div hx hy ?_ hlegal hm
    have hvalue : (d * 10 ^ e : ℚ) = d / 10 ^ e.natAbs := by
      rw [div_eq_mul_inv, ← zpow_natCast, ← zpow_neg]
      congr 2
      omega
    rw [hdigits, hpower, ← hvalue]
    exact h
  · rw [if_neg (by rw [decide_eq_true_eq]; exact he)]
    refine unpack_mul hx hy ?_ hlegal hm (hlong.trans (Nat.le_mul_of_pos_right _ hm₂))
    have hvalue : (d * 10 ^ e : ℚ) = d * 10 ^ e.natAbs := by
      rw [← zpow_natCast]
      congr 2
      omega
    rw [hdigits, hpower, ← hvalue]
    exact h

/-- Other numbers are rounded from their digits, by a power of ten or divided by one. -/
theorem ofScientific_of_readsAs (hgreatest : e ≤ 2 ^ 11) (hleast : -(2 ^ 11 + d.log2 : Int) ≤ e) :
    UnpackedFloat.ofScientific Format.binary64 d e = .finite .positive m q hm := by
  have hd := digits_pos h hm
  rw [UnpackedFloat.ofScientific, dif_neg hd.ne', if_neg (not_lt.mpr hgreatest),
    if_neg (not_lt.mpr hleast)]
  by_cases he : 0 ≤ e
  · obtain ⟨n, rfl⟩ := Int.eq_ofNat_of_zero_le he
    rw [if_pos he]
    have hvalue : magnitude (d <<< 53) (-53) * magnitude (10 ^ n) 0 = d * 10 ^ (n : Int) := by
      unfold magnitude
      rw [Nat.shiftLeft_eq]
      push_cast
      norm_num
      ring
    have hlong : 2 ^ 52 ≤ d <<< 53 * 10 ^ n := by
      rw [Nat.shiftLeft_eq]
      calc 2 ^ 52 ≤ 2 ^ 53 := by norm_num
        _ ≤ d * 2 ^ 53 := Nat.le_mul_of_pos_left _ hd
        _ ≤ d * 2 ^ 53 * 10 ^ n := Nat.le_mul_of_pos_right _ (by positivity)
    exact mul_of_readsAs _ _ (hvalue ▸ h) hlegal hm _ _ hlong
  · obtain ⟨n, rfl⟩ : ∃ n : Nat, e = -(n : Int) := ⟨e.natAbs, by omega⟩
    rw [if_neg he]
    have hvalue : magnitude d 0 / magnitude (10 ^ (- -(n : Int)).toNat) 0 =
        d * 10 ^ (-(n : Int)) := by
      rw [neg_neg, Int.toNat_natCast, zpow_neg, zpow_natCast]
      unfold magnitude
      push_cast
      rw [mul_one, mul_one, div_eq_mul_inv]
    exact div_of_readsAs _ _ (hvalue ▸ h) hlegal hm _ _

theorem unpack_ofScientific (hgreatest : e ≤ 2 ^ 11) (hleast : -(2 ^ 11 + d.log2 : Int) ≤ e) :
    (Float.ofScientific d (e < 0) e.natAbs).toModel.unpack = .finite .positive m q hm := by
  by_cases hfast : d < 2 ^ 53 ∧ e.natAbs ≤ 22
  · exact unpack_ofScientific_fast h hlegal hm hfast
  have hexponent :
      (if decide (e < 0) = true then Int.negOfNat e.natAbs else Int.ofNat e.natAbs) = e := by
    split
    · next he =>
      have := of_decide_eq_true he
      rw [Int.negOfNat_eq]
      show -(e.natAbs : Int) = e
      omega
    · next he =>
      have := mt decide_eq_true he
      show (e.natAbs : Int) = e
      omega
  rw [Float.ofScientific, dif_neg hfast]
  simp only [hexponent]
  show UnpackedFloat.unpack Format.binary64 (UnpackedFloat.pack Format.binary64
    (UnpackedFloat.ofScientific Format.binary64 d e)) = _
  rw [ofScientific_of_readsAs h hlegal hm hgreatest hleast, Binary64.unpack_pack _ hlegal hm]

/-- A number in one of the intervals is neither too great nor too small for a double. -/
theorem exponent_bounds :
    -330 ≤ e + (digitText d).length ∧ e + (digitText d).length ≤ 310 := by
  obtain ⟨hlow, hhigh⟩ := decimal_bounds (e := e) (digits_pos h hm)
  obtain ⟨hleast, hgreatest⟩ := h.bounds hlegal hm
  constructor
  · have hlt : (10 : ℚ) ^ (-331 : Int) < 10 ^ (e + (digitText d).length) := by
      have hpow : (2 ^ 1075 : Nat) ≤ 10 ^ 331 := by decide +kernel
      calc (10 : ℚ) ^ (-331 : Int) = (10 ^ 331)⁻¹ := by rw [zpow_neg]; rfl
        _ ≤ (2 ^ 1075)⁻¹ := inv_anti₀ (by positivity) (by exact_mod_cast hpow)
        _ = 2 ^ (-1075 : Int) := by rw [zpow_neg]; rfl
        _ ≤ _ := hleast
        _ < _ := hhigh
    have := (zpow_lt_zpow_iff_right₀ (by norm_num)).mp hlt
    omega
  · have hlt : (10 : ℚ) ^ (e + (digitText d).length - 1) < 10 ^ (310 : Int) := by
      have hpow : (2 ^ 1024 : Nat) ≤ 10 ^ 310 := by decide +kernel
      calc _ ≤ _ := hlow
        _ < 2 ^ (1024 : Int) := hgreatest
        _ ≤ 10 ^ (310 : Int) := by exact_mod_cast hpow
    have := (zpow_lt_zpow_iff_right₀ (by norm_num)).mp hlt
    omega

/-- **A decimal number is read as the double in whose interval it lies.** -/
theorem ofFloat_nearestFloat (negative : Bool) :
    Binary64.ofFloat (nearestFloat negative d e) = .finite negative m q := by
  have hd := digits_pos h hm
  obtain ⟨hleast, hgreatest⟩ := exponent_bounds h hlegal hm
  have hlog : (digitText d).length ≤ d.log2 + 1 := by
    refine (Nat.length_toDigits_le_iff (by decide) (Nat.succ_pos _)).mpr ?_
    calc d < 2 ^ (d.log2 + 1) := ((Nat.log2_eq_iff hd.ne').mp rfl).2
      _ ≤ 10 ^ (d.log2 + 1) := Nat.pow_le_pow_left (by norm_num) _
  have hfound := unpack_ofScientific h hlegal hm (by omega) (by omega)
  have hguards : ¬ (d = 0 ∨ e + (digitText d).length < -330) := by omega
  unfold nearestFloat
  simp only [if_neg hguards, if_neg (not_lt.mpr hgreatest)]
  rw [Binary64.ofFloat_eq]
  cases negative with
  | false =>
    rw [if_neg Bool.false_ne_true, hfound]
    rfl
  | true =>
    rw [if_pos rfl, unpack_neg hfound hlegal]
    rfl

end Scientific

end Observatory.Number
