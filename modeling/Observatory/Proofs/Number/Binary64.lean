import Mathlib
import Observatory.Number.Text

/-! The numbers that doubles stand for.

A finite double is a sign, a significand and an exponent within fixed limits (`Legal`), so it
stands for a rational number. Comparing doubles compares these (`compare_unpack`), the least
and the greatest of a list are found by comparing (`foldl_lesser`, `foldl_greater`), and of two
doubles that are numbers one is at most the other (`le_iff_not_lt`). A double survives being
packed into its bits (`unpack_pack`), and whole numbers of at most fifty-three bits are doubles
themselves (`ofFloat_ofInt64`). -/
namespace Observatory.Number
open Float.Model (UnpackedFloat Format totalExponent)
open Float.Model.UnpackedFloat (Sign unpackMantissa unpackExponent unpackSign packComponents
  unpackExponent_packComponents unpackMantissa_packComponents)

namespace Binary64

/-! ### Bits -/

section Bits
variable (b : BitVec Format.binary64.numBits)

theorem toNat_unpackMantissa : (unpackMantissa b).toNat = b.toNat % 2 ^ 52 := by
  simp [unpackMantissa]

theorem toNat_unpackExponent : (unpackExponent b).toNat = b.toNat / 2 ^ 52 % 2 ^ 11 := by
  simp [unpackExponent, Nat.shiftRight_eq_div_pow]

theorem toNat_unpackSign : (unpackSign b).toNat = b.toNat / 2 ^ 63 := by
  have hlt : b.toNat < 2 ^ 64 := b.isLt
  show (BitVec.extractLsb 63 63 b).toNat = _
  rw [BitVec.extractLsb_toNat, Nat.shiftRight_eq_div_pow]
  exact Nat.mod_eq_of_lt (by omega)
end Bits

/-- Whether a sign is that of the negative numbers. -/
def isNegative : Sign → Bool
  | .negative => true
  | .positive => false

/-- The parts of an unpacked double. Zeros have the least exponent. -/
def ofUnpacked : UnpackedFloat → Binary64
  | .notANumber => .notNumber
  | .infinity s => .infinite (isNegative s)
  | .zero s => .finite (isNegative s) 0 (-1074)
  | .finite s m q _ => .finite (isNegative s) m q

theorem isNegative_unpackSign (b : BitVec Format.binary64.numBits) :
    isNegative (Sign.ofBitVec (unpackSign b)) = decide (b.toNat ≥ 2 ^ 63) := by
  have hlt : b.toNat < 2 ^ 64 := b.isLt
  have hsign : unpackSign b = 0#1 ↔ b.toNat / 2 ^ 63 = 0 := by
    rw [← BitVec.toNat_inj, toNat_unpackSign]
    rfl
  unfold Sign.ofBitVec
  split
  · next h =>
    have := hsign.mp h
    exact (decide_eq_false (by omega)).symm
  · next h =>
    have := mt hsign.mpr h
    exact (decide_eq_true (by omega)).symm

/-- The sixty-four bits of a double say which parts it has. -/
theorem ofUnpacked_unpack (b : BitVec Format.binary64.numBits) :
    ofUnpacked (UnpackedFloat.unpack Format.binary64 b) =
      if b.toNat / 2 ^ 52 % 2 ^ 11 = 2047 then
        if b.toNat % 2 ^ 52 = 0 then .infinite (decide (b.toNat ≥ 2 ^ 63)) else .notNumber
      else if b.toNat / 2 ^ 52 % 2 ^ 11 = 0 then
        .finite (decide (b.toNat ≥ 2 ^ 63)) (b.toNat % 2 ^ 52) (-1074)
      else .finite (decide (b.toNat ≥ 2 ^ 63)) (2 ^ 52 + b.toNat % 2 ^ 52)
        ((b.toNat / 2 ^ 52 % 2 ^ 11 : Nat) - 1075) := by
  have hm := toNat_unpackMantissa b
  have he := toNat_unpackExponent b
  have hm0 : unpackMantissa b = 0#_ ↔ b.toNat % 2 ^ 52 = 0 := by
    rw [← BitVec.toNat_inj, hm]; rfl
  have he0 : unpackExponent b = 0#_ ↔ b.toNat / 2 ^ 52 % 2 ^ 11 = 0 := by
    rw [← BitVec.toNat_inj, he]; rfl
  have he1 : unpackExponent b = -1#_ ↔ b.toNat / 2 ^ 52 % 2 ^ 11 = 2047 := by
    rw [← BitVec.toNat_inj, he]; rfl
  rw [← isNegative_unpackSign b]
  unfold UnpackedFloat.unpack
  simp only [he1, he0, hm0]
  split_ifs with h1 h2 h3 h4
  · rfl
  · rfl
  · rw [h4]; rfl
  · rw [ofUnpacked, hm, he, h3]
    rfl
  · rw [ofUnpacked, BitVec.toNat_append, he, ← Nat.shiftLeft_add_eq_or_of_lt (unpackMantissa b).isLt, hm]
    rfl

/-- The parts of a double are those that arithmetic on doubles takes it apart into. -/
theorem ofFloat_eq (x : Float) : ofFloat x = ofUnpacked x.toModel.unpack :=
  (ofUnpacked_unpack x.toModel.toBits.toBitVec).symm

/-- The bits of a double that is a number, sign first. -/
def bits : Binary64 → Nat
  | .notNumber => 0
  | .infinite negative => (if negative then 2 ^ 63 else 0) + 2047 * 2 ^ 52
  | .finite negative m q =>
    (if negative then 2 ^ 63 else 0) + if m < 2 ^ 52 then m else (q + 1074).toNat * 2 ^ 52 + m

theorem toNat_toBits {x : Float} (h : ofFloat x ≠ .notNumber) :
    x.toBits.toNat = (ofFloat x).bits := by
  have hlt : x.toBits.toNat < 2 ^ 64 := x.toBits.toNat_lt
  simp only [ofFloat, Nat.pow_eq] at h ⊢
  generalize x.toBits.toNat = n at *
  have hsign (k : Nat) :
      (if decide (n ≥ 2 ^ 63) then 2 ^ 63 else 0) + k = n / 2 ^ 63 * 2 ^ 63 + k := by
    by_cases hn : n ≥ 2 ^ 63
    · rw [decide_eq_true hn, if_pos rfl]
      omega
    · rw [decide_eq_false hn, if_neg Bool.false_ne_true]
      omega
  split_ifs at h ⊢
  · rw [bits, hsign]
    omega
  · exact absurd rfl h
  · rw [bits, hsign, if_pos (by omega)]
    omega
  · rw [bits, hsign, if_neg (by omega)]
    omega

/-- A double is known by its parts if it is a number. -/
theorem ofFloat_injective {x y : Float} (h : ofFloat x = ofFloat y)
    (hx : ofFloat x ≠ .notNumber) : x = y := by
  have hbits : x.toBits.toNat = y.toBits.toNat := by
    rw [toNat_toBits hx, h, toNat_toBits (h ▸ hx)]
  obtain ⟨⟨a, ha⟩⟩ := x
  obtain ⟨⟨b, hb⟩⟩ := y
  obtain rfl : a = b := UInt64.toNat_inj.mp hbits
  rfl

/-! ### Values -/

/-- The significands and exponents that doubles have. -/
structure Legal (m : Nat) (q : Int) : Prop where
  lt : m < 2 ^ 53
  least : -1074 ≤ q
  greatest : q ≤ 971
  normal : -1074 < q → 2 ^ 52 ≤ m

theorem legal_of_ofFloat {x : Float} {negative : Bool} {m : Nat} {q : Int}
    (h : ofFloat x = .finite negative m q) : Legal m q := by
  have hbits : x.toBits.toNat < 2 ^ 64 := x.toBits.toNat_lt
  have hfraction : x.toBits.toNat % 2 ^ 52 < 2 ^ 52 := Nat.mod_lt _ (by decide)
  have hbiased : x.toBits.toNat / 2 ^ 52 % 2 ^ 11 < 2 ^ 11 := Nat.mod_lt _ (by decide)
  simp only [ofFloat, Nat.pow_eq] at h
  split_ifs at h with h1 h2 h3
  · obtain ⟨-, rfl, rfl⟩ := finite.inj h
    exact ⟨by omega, by omega, by omega, by omega⟩
  · obtain ⟨-, rfl, rfl⟩ := finite.inj h
    exact ⟨by omega, by omega, by omega, by omega⟩

/-- The number `m * 2 ^ q`. -/
def magnitude (m : Nat) (q : Int) : ℚ := m * 2 ^ q

def signed (negative : Bool) (r : ℚ) : ℚ := if negative then -r else r

/-- The number that a double stands for, zero where it is none. -/
def toRat : Binary64 → ℚ
  | finite negative m q => signed negative (magnitude m q)
  | _ => 0

section Magnitude
variable {m m' : Nat} {q q' : Int}

theorem magnitude_nonneg (m : Nat) (q : Int) : 0 ≤ magnitude m q := by
  unfold magnitude
  positivity

theorem magnitude_pos (hm : 0 < m) : 0 < magnitude m q := by
  have : (0 : ℚ) < m := Nat.cast_pos.mpr hm
  unfold magnitude
  positivity

/-- A double with a greater exponent is greater. -/
theorem magnitude_lt_of_exponent_lt (h : Legal m q) (h' : Legal m' q') (hq : q < q') :
    magnitude m q < magnitude m' q' := by
  have hm : (m : ℚ) < 2 ^ 53 := by exact_mod_cast h.lt
  have hm' : (2 : ℚ) ^ 52 ≤ m' := by exact_mod_cast h'.normal (by have := h.least; omega)
  have hstep : (2 : ℚ) ^ (q + 1) ≤ 2 ^ q' := zpow_le_zpow_right₀ (by norm_num) hq
  calc (m : ℚ) * 2 ^ q < 2 ^ 53 * 2 ^ q := by gcongr
    _ = 2 ^ 52 * 2 ^ (q + 1) := by rw [zpow_add_one₀ (by norm_num)]; ring
    _ ≤ m' * 2 ^ q' := by gcongr

/-- Doubles are ordered by exponent, then by significand. -/
theorem magnitude_lt_iff (h : Legal m q) (h' : Legal m' q') :
    magnitude m q < magnitude m' q' ↔ q < q' ∨ q = q' ∧ m < m' := by
  rcases lt_trichotomy q q' with hq | rfl | hq
  · exact ⟨fun _ => .inl hq, fun _ => magnitude_lt_of_exponent_lt h h' hq⟩
  · have hpos : (0 : ℚ) < 2 ^ q := by positivity
    unfold magnitude
    rw [mul_lt_mul_iff_left₀ hpos, Nat.cast_lt]
    omega
  · have hgt := magnitude_lt_of_exponent_lt h' h hq
    constructor
    · intro hlt
      exact absurd hlt (not_lt.mpr hgt.le)
    · intro hlt
      omega

end Magnitude

/-! ### Order -/

/-- A finite double is a zero, or a number of an allowed significand and exponent. -/
theorem unpack_cases {x : Float} (h : isFinite x = true) :
    (∃ s, x.toModel.unpack = .zero s) ∨
      ∃ s m q hm, x.toModel.unpack = .finite s m q hm ∧ Legal m q := by
  have hfinite : x.toModel.unpack.isFinite = true := h
  cases hu : x.toModel.unpack with
  | notANumber => rw [hu] at hfinite; exact nomatch hfinite
  | infinity s => rw [hu] at hfinite; exact nomatch hfinite
  | zero s => exact .inl ⟨s, rfl⟩
  | finite s m q hm =>
    exact .inr ⟨s, m, q, hm, rfl, legal_of_ofFloat (by rw [ofFloat_eq, hu]; rfl)⟩

theorem isFinite_of_ofFloat {x : Float} {negative : Bool} {m : Nat} {q : Int}
    (h : ofFloat x = .finite negative m q) : isFinite x = true := by
  rw [ofFloat_eq] at h
  show x.toModel.unpack.isFinite = true
  cases hu : x.toModel.unpack with
  | notANumber => rw [hu] at h; exact nomatch h
  | infinity s => rw [hu] at h; exact nomatch h
  | zero s => rfl
  | finite s m q hm => rfl

theorem compare_magnitude {m m' : Nat} {q q' : Int} (h : Legal m q) (h' : Legal m' q') :
    (compare q q').then (compare m m') = compare (magnitude m q) (magnitude m' q') := by
  have hlt := magnitude_lt_iff h h'
  have hgt := magnitude_lt_iff h' h
  rcases lt_trichotomy (magnitude m q) (magnitude m' q') with hr | hr | hr
  · rw [compare_lt_iff_lt.mpr hr, Ordering.then_eq_lt, compare_lt_iff_lt, compare_eq_iff_eq,
      compare_lt_iff_lt]
    exact hlt.mp hr
  · have hq : ¬ (q < q' ∨ q = q' ∧ m < m') := fun hq => (hlt.mpr hq).ne hr
    have hq' : ¬ (q' < q ∨ q' = q ∧ m' < m) := fun hq => (hgt.mpr hq).ne hr.symm
    rw [compare_eq_iff_eq.mpr hr, Ordering.then_eq_eq, compare_eq_iff_eq, compare_eq_iff_eq]
    omega
  · rw [compare_gt_iff_gt.mpr hr, Ordering.then_eq_gt, compare_gt_iff_gt, compare_eq_iff_eq,
      compare_gt_iff_gt]
    exact (hgt.mp hr).imp_right fun ⟨hq, hm⟩ => ⟨hq.symm, hm⟩

theorem compare_neg (a b : ℚ) : compare (-a) (-b) = (compare a b).swap := by
  rcases lt_trichotomy a b with h | rfl | h
  · rw [compare_lt_iff_lt.mpr h, compare_gt_iff_gt.mpr (neg_lt_neg h)]
    rfl
  · rw [compare_eq_iff_eq.mpr rfl, compare_eq_iff_eq.mpr rfl]
    rfl
  · rw [compare_gt_iff_gt.mpr h, compare_lt_iff_lt.mpr (neg_lt_neg h)]
    rfl

section Unpacked
variable (s : Sign) {m : Nat} {q : Int} (hm : 0 < m)

@[simp]
theorem toRat_zero : (ofUnpacked (.zero s)).toRat = 0 := by
  cases s <;> simp [ofUnpacked, toRat, signed, isNegative, magnitude]

@[simp]
theorem toRat_positive : (ofUnpacked (.finite .positive m q hm)).toRat = magnitude m q := rfl

@[simp]
theorem toRat_negative : (ofUnpacked (.finite .negative m q hm)).toRat = -magnitude m q := rfl

end Unpacked

/-- The comparison of finite doubles is that of their numbers. -/
theorem compare_unpack {x y : Float} (hx : isFinite x = true) (hy : isFinite y = true) :
    x.toModel.unpack.compare y.toModel.unpack =
      some (compare (ofFloat x).toRat (ofFloat y).toRat) := by
  rw [ofFloat_eq, ofFloat_eq]
  rcases unpack_cases hx with ⟨s, hu⟩ | ⟨s, m, q, hm, hu, h⟩ <;>
    rcases unpack_cases hy with ⟨t, hv⟩ | ⟨t, m', q', hm', hv, h'⟩ <;>
    rw [hu, hv]
  · simp [UnpackedFloat.compare]
  · have hpos' := magnitude_pos (q := q') hm'
    cases t
    · have hlt : -magnitude m' q' < 0 := by linarith
      rw [toRat_zero, toRat_negative, compare_gt_iff_gt.mpr hlt]
      rfl
    · rw [toRat_zero, toRat_positive, compare_lt_iff_lt.mpr hpos']
      rfl
  · have hpos := magnitude_pos (q := q) hm
    cases s
    · have hlt : -magnitude m q < 0 := by linarith
      rw [toRat_zero, toRat_negative, compare_lt_iff_lt.mpr hlt]
      rfl
    · rw [toRat_zero, toRat_positive, compare_gt_iff_gt.mpr hpos]
      rfl
  · have hpos := magnitude_pos (q := q) hm
    have hpos' := magnitude_pos (q := q') hm'
    cases s <;> cases t
    · rw [toRat_negative, toRat_negative, compare_neg, ← compare_magnitude h h']
      rfl
    · have hlt : -magnitude m q < magnitude m' q' := by linarith
      rw [toRat_negative, toRat_positive, compare_lt_iff_lt.mpr hlt]
      rfl
    · have hlt : -magnitude m' q' < magnitude m q := by linarith
      rw [toRat_positive, toRat_negative, compare_gt_iff_gt.mpr hlt]
      rfl
    · rw [toRat_positive, toRat_positive, ← compare_magnitude h h']
      rfl

theorem float_lt_iff {x y : Float} (hx : isFinite x = true) (hy : isFinite y = true) :
    x < y ↔ (ofFloat x).toRat < (ofFloat y).toRat := by
  show decide (x.toModel < y.toModel) = true ↔ _
  rw [decide_eq_true_eq]
  show (x.toModel.unpack.compare y.toModel.unpack == some .lt) = true ↔ _
  rw [compare_unpack hx hy, beq_iff_eq, Option.some.injEq, compare_lt_iff_lt]

theorem bne_self {x : Float} (hx : isFinite x = true) : (x != x) = false := by
  show (!(x.toModel.unpack.compare x.toModel.unpack == some .eq)) = false
  rw [compare_unpack hx hx, compare_eq_iff_eq.mpr rfl]
  rfl

/-- Positive infinity is not less than a finite double. -/
theorem not_infinity_lt {x : Float} (hx : isFinite x = true) : ¬ (1 / 0 : Float) < x := by
  show ¬ decide ((1 / 0 : Float).toModel < x.toModel) = true
  rw [decide_eq_true_eq]
  show ¬ (UnpackedFloat.compare (.infinity .positive) x.toModel.unpack == some .lt) = true
  rcases unpack_cases hx with ⟨s, hu⟩ | ⟨s, m, q, hm, hu, _⟩ <;> rw [hu] <;>
    exact Bool.false_ne_true

/-- Negative infinity is not greater than a finite double. -/
theorem not_lt_infinity {x : Float} (hx : isFinite x = true) : ¬ x < (-(1 / 0) : Float) := by
  show ¬ decide (x.toModel < (-(1 / 0) : Float).toModel) = true
  rw [decide_eq_true_eq]
  show ¬ (x.toModel.unpack.compare (.infinity .negative) == some .lt) = true
  rcases unpack_cases hx with ⟨s, hu⟩ | ⟨s, m, q, hm, hu, _⟩ <;> rw [hu] <;> cases s <;>
    exact Bool.false_ne_true

section Compare
variable (u v : UnpackedFloat)

theorem compare_swap : v.compare u = (u.compare v).map Ordering.swap := by
  have hfinite (m m' : Nat) (q q' : Int) :
      (compare q' q).then (compare m' m) = ((compare q q').then (compare m m')).swap := by
    rw [Ordering.swap_then, ← Std.OrientedOrd.eq_swap, ← Std.OrientedOrd.eq_swap]
  rcases u with (_ | _) | _ | _ | ⟨_ | _, m, q, hm⟩ <;>
    rcases v with (_ | _) | _ | _ | ⟨_ | _, m', q', hm'⟩ <;> try rfl
  · exact congrArg (fun o => some o.swap) (hfinite m m' q q')
  · exact congrArg some (hfinite m m' q q')

/-- What is not a number cannot be compared. -/
theorem isSome_compare_iff :
    (u.compare v).isSome = true ↔ ofUnpacked u ≠ .notNumber ∧ ofUnpacked v ≠ .notNumber := by
  rcases u with (_ | _) | _ | _ | ⟨_ | _, m, q, hm⟩ <;>
    rcases v with (_ | _) | _ | _ | ⟨_ | _, m', q', hm'⟩ <;>
    simp [UnpackedFloat.compare, ofUnpacked]

end Compare

section Total
variable {x y : Float}

theorem lt_iff_compare : x < y ↔ x.toModel.unpack.compare y.toModel.unpack = some .lt := by
  show decide (x.toModel < y.toModel) = true ↔ _
  rw [decide_eq_true_eq]
  exact beq_iff_eq

theorem le_iff_compare : x ≤ y ↔
    ∃ o : Ordering, x.toModel.unpack.compare y.toModel.unpack = some o ∧ o.isLE = true := by
  show decide (x.toModel ≤ y.toModel) = true ↔ _
  rw [decide_eq_true_eq]
  show (x.toModel.unpack.compare y.toModel.unpack).any (·.isLE) = true ↔ _
  rw [Option.any_eq_true]

/-- Doubles that are numbers are ordered, infinities among them. -/
theorem le_iff_not_lt (hx : ofFloat x ≠ .notNumber) (hy : ofFloat y ≠ .notNumber) :
    x ≤ y ↔ ¬ y < x := by
  rw [ofFloat_eq] at hx hy
  obtain ⟨o, ho⟩ := Option.isSome_iff_exists.mp ((isSome_compare_iff _ _).mpr ⟨hx, hy⟩)
  rw [le_iff_compare, lt_iff_compare, compare_swap x.toModel.unpack, ho]
  cases o <;> simp

theorem ne_notNumber_of_le (h : x ≤ y) : ofFloat x ≠ .notNumber ∧ ofFloat y ≠ .notNumber := by
  obtain ⟨o, ho, _⟩ := le_iff_compare.mp h
  rw [ofFloat_eq, ofFloat_eq, ← isSome_compare_iff, ho]
  rfl

theorem not_lt_self (x : Float) : ¬ x < x := by
  intro h
  have hswap := compare_swap x.toModel.unpack x.toModel.unpack
  rw [lt_iff_compare.mp h] at hswap
  exact nomatch hswap

end Total

/-! ### The least and the greatest -/

theorem lesser_cases {a b : Float} (ha : isFinite a = true) (hb : isFinite b = true) :
    (lesser a b = a ∧ (ofFloat a).toRat ≤ (ofFloat b).toRat) ∨
      (lesser a b = b ∧ (ofFloat b).toRat ≤ (ofFloat a).toRat) := by
  unfold lesser
  rw [bne_self hb, Bool.or_false]
  by_cases h : a < b
  · rw [decide_eq_true h, if_pos rfl]
    exact .inl ⟨rfl, ((float_lt_iff ha hb).mp h).le⟩
  · rw [decide_eq_false h, if_neg Bool.false_ne_true]
    exact .inr ⟨rfl, not_lt.mp (mt (float_lt_iff ha hb).mpr h)⟩

theorem greater_cases {a b : Float} (ha : isFinite a = true) (hb : isFinite b = true) :
    (greater a b = a ∧ (ofFloat a).toRat ≥ (ofFloat b).toRat) ∨
      (greater a b = b ∧ (ofFloat b).toRat ≥ (ofFloat a).toRat) := by
  unfold greater
  rw [bne_self hb, Bool.or_false]
  by_cases h : b < a
  · rw [decide_eq_true h, if_pos rfl]
    exact .inl ⟨rfl, ((float_lt_iff hb ha).mp h).le⟩
  · rw [decide_eq_false h, if_neg Bool.false_ne_true]
    exact .inr ⟨rfl, not_lt.mp (mt (float_lt_iff hb ha).mpr h)⟩

section Fold
variable {choose : Float → Float → Float} {r : ℚ → ℚ → Prop}

/-- What is chosen from the left is one of the finite doubles gone through, and stands to all
of them as each choice does to what it is made from. -/
theorem foldl_chosen (hrefl : ∀ a, r a a) (htrans : ∀ a b c, r a b → r b c → r a c)
    (hchoose : ∀ a b, isFinite a = true → isFinite b = true →
      (choose a b = a ∧ r (ofFloat a).toRat (ofFloat b).toRat) ∨
        (choose a b = b ∧ r (ofFloat b).toRat (ofFloat a).toRat))
    (xs : List Float) (a : Float) (ha : isFinite a = true) (hxs : ∀ x ∈ xs, isFinite x = true) :
    xs.foldl choose a ∈ a :: xs ∧
      ∀ x ∈ a :: xs, r (ofFloat (xs.foldl choose a)).toRat (ofFloat x).toRat := by
  induction xs generalizing a with
  | nil => exact ⟨List.mem_cons_self .., fun x hx => List.mem_singleton.mp hx ▸ hrefl _⟩
  | cons b rest ih =>
    have hb := hxs b (List.mem_cons_self ..)
    have hrest (x : Float) (hx : x ∈ rest) := hxs x (List.mem_cons_of_mem b hx)
    rw [List.foldl_cons]
    rcases hchoose a b ha hb with ⟨hchosen, hr⟩ | ⟨hchosen, hr⟩ <;> rw [hchosen]
    · obtain ⟨hmem, hall⟩ := ih a ha hrest
      refine ⟨?_, fun x hx => ?_⟩
      · rcases List.mem_cons.mp hmem with h | h
        · exact List.mem_cons.mpr (.inl h)
        · exact List.mem_cons_of_mem a (List.mem_cons_of_mem b h)
      · rcases List.mem_cons.mp hx with rfl | hx
        · exact hall x (List.mem_cons_self ..)
        · rcases List.mem_cons.mp hx with rfl | hx
          · exact htrans _ _ _ (hall a (List.mem_cons_self ..)) hr
          · exact hall x (List.mem_cons_of_mem a hx)
    · obtain ⟨hmem, hall⟩ := ih b hb hrest
      refine ⟨List.mem_cons_of_mem a hmem, fun x hx => ?_⟩
      rcases List.mem_cons.mp hx with rfl | hx
      · exact htrans _ _ _ (hall b (List.mem_cons_self ..)) hr
      · exact hall x hx

end Fold

section Extreme
variable {xs : List Float} (hxs : ∀ x ∈ xs, isFinite x = true) (hne : xs ≠ [])
include hxs hne

theorem foldl_lesser :
    xs.foldl lesser (1 / 0) ∈ xs ∧
      ∀ x ∈ xs, (ofFloat (xs.foldl lesser (1 / 0))).toRat ≤ (ofFloat x).toRat := by
  obtain ⟨a, rest, rfl⟩ := List.exists_cons_of_ne_nil hne
  have ha := hxs a (List.mem_cons_self ..)
  have hfirst : lesser (1 / 0) a = a := by
    unfold lesser
    rw [bne_self ha, decide_eq_false (not_infinity_lt ha)]
    rfl
  rw [List.foldl_cons, hfirst]
  exact foldl_chosen le_refl (fun _ _ _ => le_trans) (fun _ _ => lesser_cases) rest a ha
    fun x hx => hxs x (List.mem_cons_of_mem a hx)

theorem foldl_greater :
    xs.foldl greater (-(1 / 0)) ∈ xs ∧
      ∀ x ∈ xs, (ofFloat (xs.foldl greater (-(1 / 0)))).toRat ≥ (ofFloat x).toRat := by
  obtain ⟨a, rest, rfl⟩ := List.exists_cons_of_ne_nil hne
  have ha := hxs a (List.mem_cons_self ..)
  have hfirst : greater (-(1 / 0)) a = a := by
    unfold greater
    rw [bne_self ha, decide_eq_false (not_lt_infinity ha)]
    rfl
  rw [List.foldl_cons, hfirst]
  exact foldl_chosen (r := (· ≥ ·)) (fun a => le_refl a) (fun _ _ _ => ge_trans)
    (fun _ _ => greater_cases) rest a ha fun x hx => hxs x (List.mem_cons_of_mem a hx)

end Extreme

/-! ### Packing -/

theorem sign_packComponents (s : Sign) (e : BitVec Format.binary64.exponentBits)
    (f : BitVec Format.binary64.mantissaBitsWithoutImplicit) :
    Sign.ofBitVec (unpackSign (packComponents Format.binary64 s e f)) = s := by
  have htop : (packComponents Format.binary64 s e f).getLsbD 63 = s.toBitVec.getLsbD 0 := by
    show ((s.toBitVec ++ e) ++ f).getLsbD 63 = _
    rw [BitVec.getLsbD_append, BitVec.getLsbD_append]
    rfl
  have hsign : unpackSign (packComponents Format.binary64 s e f) = s.toBitVec := by
    ext i hi
    obtain rfl : i = 0 := by omega
    simpa [unpackSign] using htop
  rw [hsign]
  cases s <;> rfl

/-- A biased exponent adds the leading bit to the fraction that is kept of a significand. -/
theorem unpack_normal (s : Sign) {biased m : Nat} (hm : 0 < m) (hpos : 0 < biased)
    (hlt : biased < 2047) (hlow : 2 ^ 52 ≤ m) (hhigh : m < 2 ^ 53) :
    UnpackedFloat.unpack Format.binary64 (packComponents Format.binary64 s (BitVec.ofNat _ biased)
      (BitVec.ofNat _ m)) = .finite s m (biased - 1075) hm := by
  have hbits : (BitVec.ofNat Format.binary64.exponentBits biased).toNat = biased :=
    Nat.mod_eq_of_lt (by show biased < 2 ^ 11; omega)
  have hfraction :
      (BitVec.ofNat Format.binary64.mantissaBitsWithoutImplicit m).toNat = m - 2 ^ 52 := by
    show m % 2 ^ 52 = m - 2 ^ 52
    omega
  have hne1 : BitVec.ofNat Format.binary64.exponentBits biased ≠ -1#_ := by
    intro h
    have hall : (-1#(Format.binary64.exponentBits)).toNat = 2047 := rfl
    rw [← h, hbits] at hall
    omega
  have hne0 : BitVec.ofNat Format.binary64.exponentBits biased ≠ 0#_ := by
    intro h
    have hnone : (0#(Format.binary64.exponentBits)).toNat = 0 := rfl
    rw [← h, hbits] at hnone
    omega
  unfold UnpackedFloat.unpack
  simp only [unpackExponent_packComponents, unpackMantissa_packComponents, sign_packComponents,
    if_neg hne1, if_neg hne0]
  congr 1
  · have hleading : (1#1).toNat <<< Format.binary64.mantissaBitsWithoutImplicit = 2 ^ 52 := rfl
    rw [BitVec.toNat_append, ← Nat.shiftLeft_add_eq_or_of_lt (BitVec.isLt _), hfraction, hleading,
      Nat.add_sub_cancel' hlow]
  · rw [hbits]
    rfl

theorem unpack_subnormal (s : Sign) {m : Nat} (hm : 0 < m) (hlt : m < 2 ^ 52) :
    UnpackedFloat.unpack Format.binary64 (packComponents Format.binary64 s 0#_ (BitVec.ofNat _ m)) =
      .finite s m (-1074) hm := by
  have hfraction : (BitVec.ofNat Format.binary64.mantissaBitsWithoutImplicit m).toNat = m :=
    Nat.mod_eq_of_lt hlt
  have hne : BitVec.ofNat Format.binary64.mantissaBitsWithoutImplicit m ≠ 0#_ := by
    intro h
    have hnone : (0#(Format.binary64.mantissaBitsWithoutImplicit)).toNat = 0 := rfl
    rw [← h, hfraction] at hnone
    omega
  have hne1 : (0#(Format.binary64.exponentBits)) ≠ -1#_ := by decide
  unfold UnpackedFloat.unpack
  simp only [unpackExponent_packComponents, unpackMantissa_packComponents, sign_packComponents,
    if_neg hne1, dif_neg hne, hfraction]
  rfl

/-- A double survives being packed. -/
theorem unpack_pack (s : Sign) {m : Nat} {q : Int} (h : Legal m q) (hm : 0 < m) :
    UnpackedFloat.unpack Format.binary64
      (UnpackedFloat.pack Format.binary64 (.finite s m q hm)) = .finite s m q hm := by
  obtain ⟨hlt, hleast, hgreatest, hnormal⟩ := h
  obtain ⟨biased, hbiased⟩ : ∃ biased : Nat, (biased : Int) = q + 1075 :=
    ⟨(q + 1075).toNat, by omega⟩
  have hexponent : (q + Format.binary64.exponentBias +
      Format.binary64.mantissaBitsWithoutImplicit).toNat = biased := by
    show (q + 1023 + 52).toNat = biased
    omega
  have hsmall : ¬ 2 ^ Format.binary64.exponentBits ≤ biased + 1 := by
    show ¬ 2 ^ 11 ≤ biased + 1
    omega
  rw [UnpackedFloat.pack, hexponent, if_neg hsmall]
  by_cases hfull : 2 ^ 52 ≤ m
  · have hbits : m.log2 + 1 = Format.binary64.mantissaBits := by
      rw [(Nat.log2_eq_iff hm.ne').mpr ⟨hfull, hlt⟩]
      rfl
    rw [if_pos hbits, unpack_normal s hm (by omega) (by omega) hfull hlt]
    congr 1
    omega
  · have hbits : ¬ m.log2 + 1 = Format.binary64.mantissaBits := by
      have hlog := (Nat.log2_lt hm.ne').mpr (not_le.mp hfull)
      show ¬ m.log2 + 1 = 53
      omega
    obtain rfl : q = -1074 := by omega
    rw [if_neg hbits, unpack_subnormal s hm (not_le.mp hfull)]

/-! ### Whole numbers -/

/-- A significand shifted up has its full length. -/
theorem log2_shift {m : Nat} (hm : 0 < m) (hlog : m.log2 < 53) :
    (m * 2 ^ (52 - m.log2)).log2 = 52 := by
  obtain ⟨hlow, hhigh⟩ := (Nat.log2_eq_iff hm.ne').mp rfl
  have hpow : 2 ^ m.log2 * 2 ^ (52 - m.log2) = 2 ^ 52 := by
    rw [← Nat.pow_add, Nat.add_sub_cancel' (by omega)]
  refine (Nat.log2_eq_iff (Nat.mul_pos hm (Nat.two_pow_pos _)).ne').mpr ⟨?_, ?_⟩
  · rw [← hpow]
    exact Nat.mul_le_mul_right _ hlow
  · calc m * 2 ^ (52 - m.log2) < 2 ^ (m.log2 + 1) * 2 ^ (52 - m.log2) :=
          Nat.mul_lt_mul_of_pos_right hhigh (Nat.two_pow_pos _)
      _ = 2 ^ (52 + 1) := by rw [Nat.pow_succ, Nat.pow_succ, ← hpow]; ring

/-- A whole number of at most fifty-three bits, its significand shifted up to the top. -/
theorem round_whole (s : Sign) {m : Nat} (hm : 0 < m) (hlt : m < 2 ^ 53) :
    ∃ h, UnpackedFloat.round Format.binary64 s m 0 =
      .finite s (m * 2 ^ (52 - m.log2)) ((m.log2 : Int) - 52) h := by
  have hlog : m.log2 < 53 := (Nat.log2_lt hm.ne').mpr hlt
  have hpos : 0 < m * 2 ^ (52 - m.log2) := Nat.mul_pos hm (Nat.two_pow_pos _)
  have hfull := log2_shift hm hlog
  have htarget : Format.binary64.targetExponent (totalExponent m 0) = (m.log2 : Int) - 52 := by
    show max ((m.log2 : Int) + 1 + 0 - 53) (-1074) = _
    omega
  have hdecrease : UnpackedFloat.decreaseExponent m 0 ((m.log2 : Int) - 52) =
      (m * 2 ^ (52 - m.log2), (m.log2 : Int) - 52) := by
    have hshift : (0 - ((m.log2 : Int) - 52)).toNat = 52 - m.log2 := by omega
    show (m <<< (0 - ((m.log2 : Int) - 52)).toNat, (0 : Int) - (0 - ((m.log2 : Int) - 52)).toNat) = _
    rw [hshift, Nat.shiftLeft_eq]
    exact Prod.ext rfl (by omega)
  have hstay : UnpackedFloat.shiftToTargetExponent Format.binary64 (m * 2 ^ (52 - m.log2))
      ((m.log2 : Int) - 52) .exact = (⟨m * 2 ^ (52 - m.log2), false, false⟩, (m.log2 : Int) - 52) := by
    have h0 : (Format.binary64.targetExponent
        (totalExponent (m * 2 ^ (52 - m.log2)) ((m.log2 : Int) - 52)) - ((m.log2 : Int) - 52)).toNat = 0 := by
      unfold totalExponent
      rw [hfull]
      show (max ((52 : Int) + 1 + ((m.log2 : Int) - 52) - 53) (-1074) - ((m.log2 : Int) - 52)).toNat = 0
      omega
    unfold UnpackedFloat.shiftToTargetExponent UnpackedFloat.shiftToExponent
    simp only [h0]
    exact Prod.ext rfl (by show (m.log2 : Int) - 52 + (0 : Nat) = m.log2 - 52; omega)
  refine ⟨hpos, ?_⟩
  unfold UnpackedFloat.round
  rw [htarget]
  simp only [hdecrease]
  -- The first shift changes nothing, so nor does the second, after the significand is rounded.
  unfold UnpackedFloat.roundWithAccuracy
  simp only [hstay, UnpackedFloat.ExtendedMantissa.roundedMantissa,
    UnpackedFloat.ExtendedMantissa.accuracy, UnpackedFloat.Accuracy.roundToNearestEven]
  exact dif_neg hpos.ne'

theorem magnitude_shift {m : Nat} (hlog : m.log2 ≤ 52) :
    magnitude (m * 2 ^ (52 - m.log2)) ((m.log2 : Int) - 52) = m := by
  have hzero : ((52 - m.log2 : Nat) : Int) + ((m.log2 : Int) - 52) = 0 := by omega
  unfold magnitude
  rw [Nat.cast_mul, Nat.cast_pow, Nat.cast_ofNat, mul_assoc, ← zpow_natCast,
    ← zpow_add₀ (by norm_num), hzero, zpow_zero, mul_one]

theorem unpack_round (s : Sign) {m : Nat} (hm : 0 < m) (hlt : m < 2 ^ 53) :
    ∃ h, UnpackedFloat.unpack Format.binary64 (UnpackedFloat.pack Format.binary64
      (UnpackedFloat.round Format.binary64 s m 0)) =
        .finite s (m * 2 ^ (52 - m.log2)) ((m.log2 : Int) - 52) h := by
  have hlog : m.log2 < 53 := (Nat.log2_lt hm.ne').mpr hlt
  have hfull := log2_shift hm hlog
  obtain ⟨hlow, hhigh⟩ := (Nat.log2_eq_iff (Nat.mul_pos hm (Nat.two_pow_pos _)).ne').mp hfull
  obtain ⟨hpos, hround⟩ := round_whole s hm hlt
  rw [hround]
  exact ⟨hpos, unpack_pack s ⟨hhigh, by omega, by omega, fun _ => hlow⟩ hpos⟩

/-- A whole number of at most fifty-three bits is a double. -/
theorem ofFloat_ofInt64 (n : Int64) (h : n.toInt.natAbs < 2 ^ 53) :
    ∃ negative m q, ofFloat (ofInt64 n) = .finite negative m q ∧
      signed negative (magnitude m q) = n.toInt := by
  have hunpack : ofFloat (ofInt64 n) = ofUnpacked (UnpackedFloat.unpack Format.binary64
      (UnpackedFloat.pack Format.binary64
        (UnpackedFloat.normalize Format.binary64 n.toInt 0 .positive))) := ofFloat_eq _
  rw [hunpack]
  unfold UnpackedFloat.normalize
  rcases lt_trichotomy n.toInt 0 with hn | hn | hn
  · obtain ⟨m, hm⟩ : ∃ m : Nat, n.toInt = -m := ⟨n.toInt.natAbs, by omega⟩
    have hpos : 0 < m := by omega
    have hlog : m.log2 < 53 := (Nat.log2_lt hpos.ne').mpr (by omega)
    obtain ⟨hfull, hround⟩ := unpack_round .negative hpos (by omega)
    rw [compare_lt_iff_lt.mpr hn, hm, neg_neg, Int.toNat_natCast, hround]
    refine ⟨_, _, _, rfl, ?_⟩
    rw [magnitude_shift (by omega)]
    push_cast
    rfl
  · rw [compare_eq_iff_eq.mpr hn, hn]
    refine ⟨false, 0, -1074, rfl, ?_⟩
    simp [signed, magnitude]
  · obtain ⟨m, hm⟩ : ∃ m : Nat, n.toInt = m := ⟨n.toInt.natAbs, by omega⟩
    have hpos : 0 < m := by omega
    have hlog : m.log2 < 53 := (Nat.log2_lt hpos.ne').mpr (by omega)
    obtain ⟨hfull, hround⟩ := unpack_round .positive hpos (by omega)
    rw [compare_gt_iff_gt.mpr hn, hm, Int.toNat_natCast, hround]
    refine ⟨_, _, _, rfl, ?_⟩
    rw [magnitude_shift (by omega)]
    rfl

end Binary64
end Observatory.Number
