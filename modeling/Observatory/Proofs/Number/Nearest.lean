import Observatory.Proofs.Number.Shortest

/-! The double nearest to a number.

Where a result does not fit, arithmetic on doubles keeps the next bit beside the significand,
and whether anything follows it. That is as much of the number as rounding asks for
(`nearestEven_roundedMantissa`), so products and quotients are rounded to the double whose interval
they lie in (`mul_of_readsAs`, `div_of_readsAs`). -/
namespace Observatory.Number
open Float.Model (UnpackedFloat Format totalExponent)
open Float.Model.UnpackedFloat (Sign ExtendedMantissa Accuracy)
open Binary64 (Legal magnitude magnitude_pos magnitude_nonneg magnitude_lt_iff signed)

/-! ### Significands with two more bits -/

/-- A significand and the bit after it, as a number of halves. -/
def halves (em : ExtendedMantissa) : Nat := 2 * em.mantissa + em.roundBit.toNat

theorem halves_of_not {em : ExtendedMantissa} (h : em.roundBit = false) :
    (halves em : ℚ) = 2 * em.mantissa := by
  rw [halves, h]
  exact Nat.cast_mul 2 em.mantissa

theorem halves_of_round {em : ExtendedMantissa} (h : em.roundBit = true) :
    (halves em : ℚ) = 2 * em.mantissa + 1 := by
  rw [halves, h]
  exact_mod_cast rfl

/-- A significand keeps of a number, counted in units of its last place, how many halves it
has and whether there is more. -/
structure Keeps (em : ExtendedMantissa) (x : ℚ) : Prop where
  below : (halves em : ℚ) ≤ 2 * x
  above : 2 * x < halves em + 1
  more : em.stickyBit = true ↔ (halves em : ℚ) < 2 * x

section Keeps
variable {m : Nat} {x : ℚ}

theorem keeps_whole (h : x = m) : Keeps ⟨m, false, false⟩ x := by
  have hhalves : (halves ⟨m, false, false⟩ : ℚ) = 2 * m := halves_of_not rfl
  refine ⟨?_, ?_, iff_of_false Bool.false_ne_true ?_⟩ <;> rw [hhalves, h] <;> linarith

theorem keeps_below_half (h : m < x) (h' : 2 * x < 2 * m + 1) : Keeps ⟨m, false, true⟩ x := by
  have hhalves : (halves ⟨m, false, true⟩ : ℚ) = 2 * m := halves_of_not rfl
  refine ⟨?_, ?_, iff_of_true rfl ?_⟩ <;> rw [hhalves] <;> linarith

theorem keeps_half (h : 2 * x = 2 * m + 1) : Keeps ⟨m, true, false⟩ x := by
  have hhalves : (halves ⟨m, true, false⟩ : ℚ) = 2 * m + 1 := halves_of_round rfl
  refine ⟨?_, ?_, iff_of_false Bool.false_ne_true ?_⟩ <;> rw [hhalves] <;> linarith

theorem keeps_above_half (h : 2 * m + 1 < 2 * x) (h' : x < m + 1) : Keeps ⟨m, true, true⟩ x := by
  have hhalves : (halves ⟨m, true, true⟩ : ℚ) = 2 * m + 1 := halves_of_round rfl
  refine ⟨?_, ?_, iff_of_true rfl ?_⟩ <;> rw [hhalves] <;> linarith

end Keeps

/-- A quotient is kept as its whole part and what its remainder says. -/
theorem keeps_quotient (n : Nat) {d : Nat} (hd : 0 < d) :
    Keeps (.ofMantissaAndAccuracy (n / d) (UnpackedFloat.accuracyOfFraction (n % d) d))
      (n / d) := by
  have hpos : (0 : ℚ) < d := by exact_mod_cast hd
  have hsplit : (n : ℚ) = d * (n / d : Nat) + (n % d : Nat) := by
    exact_mod_cast (Nat.div_add_mod n d).symm
  have hrest : ((n % d : Nat) : ℚ) < d := by exact_mod_cast Nat.mod_lt n hd
  have hquotient : (n : ℚ) / d * d = n := div_mul_cancel₀ _ hpos.ne'
  generalize (n : ℚ) / d = x at *
  generalize n / d = m at *
  generalize n % d = r at *
  unfold UnpackedFloat.accuracyOfFraction
  by_cases hzero : r = 0
  · rw [if_pos hzero]
    rw [hzero] at hsplit
    exact keeps_whole (mul_right_cancel₀ hpos.ne' (by rw [hquotient, hsplit]; push_cast; ring))
  have hr : (0 : ℚ) < r := by exact_mod_cast Nat.pos_of_ne_zero hzero
  rw [if_neg hzero]
  rcases lt_trichotomy (2 * r) d with h | h | h
  · have hhalf : (2 * r : ℚ) < d := by exact_mod_cast h
    rw [compare_lt_iff_lt.mpr h]
    refine keeps_below_half (lt_of_mul_lt_mul_right ?_ hpos.le) (lt_of_mul_lt_mul_right ?_ hpos.le)
    · linarith
    · linarith
  · have hhalf : (2 * r : ℚ) = d := by exact_mod_cast h
    rw [compare_eq_iff_eq.mpr h]
    exact keeps_half (mul_right_cancel₀ hpos.ne' (by linarith))
  · have hhalf : (d : ℚ) < 2 * r := by exact_mod_cast h
    rw [compare_gt_iff_gt.mpr h]
    refine keeps_above_half (lt_of_mul_lt_mul_right ?_ hpos.le) (lt_of_mul_lt_mul_right ?_ hpos.le)
    · linarith
    · linarith

section Shift
variable {em : ExtendedMantissa} {x : ℚ}

theorem halves_shiftRightOne (em : ExtendedMantissa) : halves em.shiftRightOne = em.mantissa := by
  show 2 * (em.mantissa / 2) + (em.mantissa % 2 != 0).toNat = em.mantissa
  rcases Nat.mod_two_eq_zero_or_one em.mantissa with h | h <;> rw [h]
  · show 2 * (em.mantissa / 2) + 0 = em.mantissa
    omega
  · show 2 * (em.mantissa / 2) + 1 = em.mantissa
    omega

theorem Keeps.mantissa_le (h : Keeps em x) : em.mantissa ≤ x ∧ x < em.mantissa + 1 := by
  obtain ⟨hbelow, habove, _⟩ := h
  cases hround : em.roundBit with
  | false =>
    rw [halves_of_not hround] at hbelow habove
    constructor <;> linarith
  | true =>
    rw [halves_of_round hround] at hbelow habove
    constructor <;> linarith

/-- The bit that is shifted out takes the place of the half, and what came after it is not
forgotten. -/
theorem Keeps.shiftRightOne (h : Keeps em x) : Keeps em.shiftRightOne (x / 2) := by
  obtain ⟨hlow, hhigh⟩ := h.mantissa_le
  have hdouble : 2 * (x / 2) = x := by ring
  constructor <;> rw [halves_shiftRightOne, hdouble]
  case below => exact hlow
  case above => exact hhigh
  case more =>
    show (em.roundBit || em.stickyBit) = true ↔ _
    cases hround : em.roundBit with
    | true =>
      have hbelow := halves_of_round hround ▸ h.below
      exact iff_of_true rfl (by linarith)
    | false =>
      rw [Bool.false_or, h.more, halves_of_not hround]
      exact mul_lt_mul_iff_right₀ two_pos

theorem Keeps.shiftRight (h : Keeps em x) (n : Nat) : Keeps (em >>> n) (x / 2 ^ n) := by
  show Keeps (n.repeat ExtendedMantissa.shiftRightOne em) _
  induction n with
  | zero => rwa [pow_zero, div_one]
  | succ n ih =>
    rw [pow_succ, ← div_div]
    exact ih.shiftRightOne

end Shift

/-! ### The nearest whole number -/

/-- A whole number is the nearest to a number, and even if there are two. -/
structure NearestEven (n : Nat) (x : ℚ) : Prop where
  low : 2 * n - 1 ≤ 2 * x
  high : 2 * x ≤ 2 * n + 1
  tie : n % 2 = 1 → 2 * n - 1 < 2 * x ∧ 2 * x < 2 * n + 1

theorem NearestEven.le {n n' : Nat} {x : ℚ} (h : NearestEven n x) (h' : NearestEven n' x) :
    n ≤ n' := by
  by_contra hlt
  have hstep : n' + 1 ≤ n := by omega
  have hcast : (n' : ℚ) + 1 ≤ n := by exact_mod_cast hstep
  have hlow := h.low
  have hhigh := h'.high
  -- Both are nearest at a tie only, and of two neighbours one is odd.
  have hnext : n = n' + 1 := by
    have : (n : ℚ) ≤ n' + 1 := by linarith
    exact le_antisymm (by exact_mod_cast this) hstep
  rcases Nat.mod_two_eq_zero_or_one n with heven | hodd
  · have := (h'.tie (by omega)).2
    linarith
  · have := (h.tie hodd).1
    linarith

theorem NearestEven.unique {n n' : Nat} {x : ℚ} (h : NearestEven n x) (h' : NearestEven n' x) :
    n = n' :=
  le_antisymm (h.le h') (h'.le h)

/-- The two bits are enough to find the nearest whole number. -/
theorem nearestEven_roundedMantissa {em : ExtendedMantissa} {x : ℚ} (h : Keeps em x) :
    NearestEven em.roundedMantissa x := by
  obtain ⟨m, round, sticky⟩ := em
  obtain ⟨hbelow, habove, hmore⟩ := h
  cases round with
  | false =>
    rw [halves_of_not rfl] at hbelow habove hmore
    have hnearest : NearestEven m x :=
      ⟨by linarith, by linarith, fun _ => ⟨by linarith, by linarith⟩⟩
    cases sticky <;> exact hnearest
  | true =>
    rw [halves_of_round rfl] at hbelow habove hmore
    cases sticky with
    | false =>
      have hhalf : 2 * x = 2 * m + 1 :=
        le_antisymm (not_lt.mp (mt hmore.mpr Bool.false_ne_true)) hbelow
      show NearestEven (m + m % 2) x
      rcases Nat.mod_two_eq_zero_or_one m with heven | hodd
      · rw [heven]
        exact ⟨by push_cast; linarith, by push_cast; linarith, fun hodd => by omega⟩
      · rw [hodd]
        exact ⟨by push_cast; linarith, by push_cast; linarith, fun hodd => by omega⟩
    | true =>
      have hhalf := hmore.mp rfl
      show NearestEven (m + 1) x
      constructor <;> push_cast
      case low => linarith
      case high => linarith
      case tie => exact fun _ => ⟨by linarith, by linarith⟩

/-! ### The interval of a double -/

variable {v : ℚ} {m : Nat} {q : Int}

/-- The exponent that the doubles around a number with that leading bit have. -/
def exponentAt (k : Int) : Int := max (k - 52) (-1074)

theorem ReadsAs.pos (h : ReadsAs v m q) (hm : 0 < m) : 0 < v := by
  have hgap := (gapBelow_bounds m q).2
  have hone : (1 : ℚ) ≤ m := by exact_mod_cast hm
  have hlowest : 0 < lowest m q := mul_pos (by linarith) (by positivity)
  exact hlowest.trans_le h.low

/-- The same in quarters of the last place. -/
theorem ReadsAs.quarters (h : ReadsAs v m q) :
    ∃ t : ℚ, v = t * 2 ^ (q - 2) ∧ 4 * m - gapBelow m q ≤ t ∧ t ≤ 4 * m + 2 ∧
      (m % 2 = 1 → 4 * m - gapBelow m q < t ∧ t < 4 * m + 2) := by
  have hpos : (0 : ℚ) < 2 ^ (q - 2) := by positivity
  obtain ⟨t, rfl⟩ : ∃ t : ℚ, v = t * 2 ^ (q - 2) :=
    ⟨v / 2 ^ (q - 2), (div_mul_cancel₀ _ hpos.ne').symm⟩
  obtain ⟨hlow, hhigh, htie⟩ := h
  simp only [lowest, highest, mul_le_mul_iff_left₀ hpos, mul_lt_mul_iff_left₀ hpos]
    at hlow hhigh htie
  exact ⟨t, rfl, hlow, hhigh, htie⟩

section Quarters
variable {t : ℚ} {k : Int} {n : Nat}

theorem pow_quarters (q : Int) (n : Nat) : (2 : ℚ) ^ n * 2 ^ (q - 2) = 2 ^ (n + q - 2) := by
  rw [← zpow_natCast, ← zpow_add₀ (by norm_num), add_sub_assoc]

/-- A number of less than a power of two quarters has its leading bit below that power. -/
theorem lt_of_quarters (hk : 2 ^ k ≤ t * 2 ^ (q - 2)) (ht : t < 2 ^ n) : k < n + q - 2 := by
  have hlt : t * 2 ^ (q - 2) < 2 ^ (n + q - 2) := by
    rw [← pow_quarters]
    exact mul_lt_mul_of_pos_right ht (by positivity)
  exact (zpow_lt_zpow_iff_right₀ one_lt_two).mp (hk.trans_lt hlt)

theorem le_of_quarters (hk : t * 2 ^ (q - 2) < 2 ^ (k + 1)) (ht : 2 ^ n ≤ t) : n + q - 2 ≤ k := by
  have hle : (2 : ℚ) ^ (n + q - 2) ≤ t * 2 ^ (q - 2) := by
    rw [← pow_quarters]
    exact mul_le_mul_of_nonneg_right ht (by positivity)
  exact Int.lt_add_one_iff.mp ((zpow_lt_zpow_iff_right₀ one_lt_two).mp (hle.trans_lt hk))

theorem quarters_div_place : t * 2 ^ (q - 2) / 2 ^ q = t / 4 := by
  rw [zpow_sub₀ (by norm_num)]
  field_simp
  norm_num

theorem quarters_div_half_place : t * 2 ^ (q - 2) / 2 ^ (q - 1) = t / 2 := by
  rw [zpow_sub₀ (by norm_num), zpow_sub₀ (by norm_num)]
  field_simp

end Quarters

/-- A number is nearest to the significand, in units of its last place. Just below a power of
two the last place is half as great, and the number is nearest to a significand of one more bit
that has to be shortened then. -/
theorem ReadsAs.nearest (h : ReadsAs v m q) (hlegal : Legal m q) {k : Int} (hk : 2 ^ k ≤ v)
    (hk' : v < 2 ^ (k + 1)) :
    (exponentAt k = q ∧ NearestEven m (v / 2 ^ q)) ∨
      (exponentAt k = q - 1 ∧ m = 2 ^ 52 ∧ NearestEven (2 ^ 53) (v / 2 ^ (q - 1))) := by
  obtain ⟨t, rfl, hlow, hhigh, htie⟩ := h.quarters
  have hgap := gapBelow_bounds m q
  have hleast := hlegal.least
  have hnearest : NearestEven m (t * 2 ^ (q - 2) / 2 ^ q) := by
    rw [quarters_div_place]
    refine ⟨by linarith, by linarith, fun hodd => ?_⟩
    obtain ⟨hlow, hhigh⟩ := htie hodd
    exact ⟨by linarith, by linarith⟩
  have hlt : (m : ℚ) + 1 ≤ 2 ^ 53 := by exact_mod_cast hlegal.lt
  have hmost := lt_of_quarters (n := 55) hk (by norm_num at hlt ⊢; linarith)
  unfold exponentAt
  by_cases hsubnormal : q = -1074
  · exact .inl ⟨by omega, hnearest⟩
  have hnormal := hlegal.normal (by omega)
  by_cases hfull : 2 ^ 54 ≤ t
  · have := le_of_quarters hk' hfull
    exact .inl ⟨by omega, hnearest⟩
  obtain ⟨hone, hpower, _⟩ | ⟨htwo, hne⟩ := gapBelow_cases m q
  · rw [hone, hpower] at hlow
    rw [hpower] at hhigh
    push_cast at hlow hhigh
    have := lt_of_quarters hk (not_le.mp hfull)
    have := le_of_quarters (n := 53) hk' (by linarith)
    refine .inr ⟨by omega, hpower, ?_⟩
    rw [quarters_div_half_place]
    constructor <;> push_cast
    case low => linarith
    case high => linarith
    case tie => exact fun hodd => absurd hodd (by norm_num)
  · -- Further up the interval does not reach down to the power of two.
    have hnext : (2 : ℚ) ^ 52 + 1 ≤ m := by exact_mod_cast (by omega : 2 ^ 52 + 1 ≤ m)
    rw [htwo] at hlow
    push_cast at hlow
    exact absurd (by linarith) hfull

/-! ### Rounding -/

theorem targetExponent_eq (M : Nat) (E : Int) :
    Format.binary64.targetExponent (totalExponent M E) = exponentAt (M.log2 + E) := by
  show max ((M.log2 : Int) + 1 + E - 53) (-1074) = max ((M.log2 : Int) + E - 52) (-1074)
  omega

theorem mantissa_ofMantissaAndAccuracy (M : Nat) (acc : Accuracy) :
    (ExtendedMantissa.ofMantissaAndAccuracy M acc).mantissa = M := by
  cases acc with
  | exact => rfl
  | inexact side => cases side <;> rfl

section Round
variable {M : Nat} {E : Int} {acc : Accuracy} {k : Int}

/-- The exponent that is aimed at is that of the doubles around the number, which a significand
without bits says nothing about. -/
theorem exponentAt_of_keeps (h : Keeps (.ofMantissaAndAccuracy M acc) (v / 2 ^ E))
    (hk : 2 ^ k ≤ v) (hk' : v < 2 ^ (k + 1)) (hE : E ≤ exponentAt k) :
    exponentAt (M.log2 + E) = exponentAt k := by
  have hpos : (0 : ℚ) < 2 ^ E := by positivity
  obtain ⟨hlow, hhigh⟩ := h.mantissa_le
  rw [mantissa_ofMantissaAndAccuracy] at hlow hhigh
  rcases Nat.eq_zero_or_pos M with rfl | hM
  · have hlt : (2 : ℚ) ^ k < 2 ^ E := by
      rw [Nat.cast_zero, zero_add, div_lt_one hpos] at hhigh
      exact hk.trans_lt hhigh
    have := (zpow_lt_zpow_iff_right₀ one_lt_two).mp hlt
    have hzero : Nat.log2 0 = 0 := by simp
    unfold exponentAt at hE ⊢
    omega
  · obtain ⟨hlog, hlog'⟩ := (Nat.log2_eq_iff hM.ne').mp rfl
    have hle : (2 : ℚ) ^ (M.log2 + E) ≤ v := by
      have hcast : (2 : ℚ) ^ M.log2 ≤ M := by exact_mod_cast hlog
      rw [zpow_add₀ (by norm_num), zpow_natCast, ← le_div_iff₀ hpos]
      exact hcast.trans hlow
    have hlt : v < (2 : ℚ) ^ (M.log2 + E + 1) := by
      have hcast : (M : ℚ) + 1 ≤ 2 ^ (M.log2 + 1) := by exact_mod_cast hlog'
      rw [add_right_comm, zpow_add₀ (by norm_num), ← div_lt_iff₀ hpos]
      exact_mod_cast hhigh.trans_le hcast
    have := (zpow_lt_zpow_iff_right₀ one_lt_two).mp (hle.trans_lt hk')
    have := (zpow_lt_zpow_iff_right₀ one_lt_two).mp (hk.trans_lt hlt)
    congr 1
    omega

/-- A significand is shifted to the exponent of the doubles around the number. -/
theorem shiftToTargetExponent_keeps (h : Keeps (.ofMantissaAndAccuracy M acc) (v / 2 ^ E))
    (hk : 2 ^ k ≤ v) (hk' : v < 2 ^ (k + 1)) (hE : E ≤ exponentAt k) :
    ∃ em, UnpackedFloat.shiftToTargetExponent Format.binary64 M E acc = (em, exponentAt k) ∧
      Keeps em (v / 2 ^ exponentAt k) := by
  have hshift : exponentAt k = E + ((exponentAt k - E).toNat : Int) := by omega
  refine ⟨ExtendedMantissa.ofMantissaAndAccuracy M acc >>> (exponentAt k - E).toNat, ?_, ?_⟩
  · show UnpackedFloat.shiftToExponent M E acc _ = _
    rw [targetExponent_eq, exponentAt_of_keeps h hk hk' hE]
    exact Prod.ext rfl hshift.symm
  · have hscale : v / 2 ^ exponentAt k = v / 2 ^ E / 2 ^ (exponentAt k - E).toNat := by
      rw [div_div, ← zpow_natCast, ← zpow_add₀ (by norm_num), ← hshift]
    rw [hscale]
    exact h.shiftRight _

/-- A significand that fits is left as it is. -/
theorem shiftToTargetExponent_legal (h : Legal m q) :
    UnpackedFloat.shiftToTargetExponent Format.binary64 m q .exact = (⟨m, false, false⟩, q) := by
  have hlog : m.log2 ≤ 52 := by
    rcases Nat.eq_zero_or_pos m with rfl | hm
    · simp
    · exact Nat.lt_succ_iff.mp ((Nat.log2_lt hm.ne').mpr h.lt)
  have hstay : (exponentAt (m.log2 + q) - q).toNat = 0 := by
    have := h.least
    unfold exponentAt
    omega
  show UnpackedFloat.shiftToExponent m q .exact _ = _
  rw [targetExponent_eq]
  unfold UnpackedFloat.shiftToExponent
  simp only [hstay]
  exact Prod.ext rfl (add_zero q)

/-- A significand that rounding made a bit too long is shortened. -/
theorem shiftToTargetExponent_carry (h : -1074 ≤ q) :
    UnpackedFloat.shiftToTargetExponent Format.binary64 (2 ^ 53) q .exact =
      (⟨2 ^ 52, false, false⟩, q + 1) := by
  have hstep : (exponentAt ((2 ^ 53 : Nat).log2 + q) - q).toNat = 1 := by
    rw [Nat.log2_two_pow]
    unfold exponentAt
    omega
  show UnpackedFloat.shiftToExponent (2 ^ 53) q .exact _ = _
  rw [targetExponent_eq]
  unfold UnpackedFloat.shiftToExponent
  simp only [hstep]
  rfl

/-- **A number is rounded to the double in whose interval it lies.** -/
theorem roundWithAccuracy_of_readsAs (s : Sign) (h : ReadsAs v m q) (hlegal : Legal m q)
    (hm : 0 < m) (hkeeps : Keeps (.ofMantissaAndAccuracy M acc) (v / 2 ^ E))
    (hE : E ≤ exponentAt (Int.log 2 v)) :
    UnpackedFloat.roundWithAccuracy Format.binary64 s M E acc = .finite s m q hm := by
  have hk : (2 : ℚ) ^ Int.log 2 v ≤ v := Int.zpow_log_le_self (by norm_num) (h.pos hm)
  have hk' : v < (2 : ℚ) ^ (Int.log 2 v + 1) := Int.lt_zpow_succ_log_self (by norm_num) v
  obtain ⟨em, hfirst, hem⟩ := shiftToTargetExponent_keeps hkeeps hk hk' hE
  unfold UnpackedFloat.roundWithAccuracy
  rcases h.nearest hlegal hk hk' with ⟨hexponent, hnearest⟩ | ⟨hexponent, rfl, hnearest⟩
  · rw [hexponent] at hfirst hem
    have hrounded := (nearestEven_roundedMantissa hem).unique hnearest
    simp only [hfirst, hrounded, shiftToTargetExponent_legal hlegal]
    exact dif_neg hm.ne'
  · have hleast : -1074 ≤ q - 1 := by
      rw [← hexponent]
      exact le_max_right _ _
    rw [hexponent] at hfirst hem
    have hrounded := (nearestEven_roundedMantissa hem).unique hnearest
    simp only [hfirst, hrounded, shiftToTargetExponent_carry hleast, sub_add_cancel]
    exact dif_neg hm.ne'

end Round

/-! ### Products and quotients -/

section Arithmetic
variable {m₁ m₂ : Nat} {e₁ e₂ : Int}

theorem mul_of_readsAs (s t : Sign) (h : ReadsAs (magnitude m₁ e₁ * magnitude m₂ e₂) m q)
    (hlegal : Legal m q) (hm : 0 < m) (hm₁ : 0 < m₁) (hm₂ : 0 < m₂)
    (hlong : 2 ^ 52 ≤ m₁ * m₂) :
    UnpackedFloat.mul Format.binary64 (.finite s m₁ e₁ hm₁) (.finite t m₂ e₂ hm₂) =
      .finite (s * t) m q hm := by
  have hproduct : magnitude m₁ e₁ * magnitude m₂ e₂ = magnitude (m₁ * m₂) (e₁ + e₂) := by
    unfold magnitude
    rw [zpow_add₀ (by norm_num)]
    push_cast
    ring
  rw [hproduct] at h
  refine roundWithAccuracy_of_readsAs _ h hlegal hm (keeps_whole ?_) ?_
  · exact mul_div_cancel_right₀ _ (by positivity)
  · have hleast : (2 : ℚ) ^ (52 + (e₁ + e₂)) ≤ magnitude (m₁ * m₂) (e₁ + e₂) := by
      have hcast : (2 : ℚ) ^ 52 ≤ (m₁ * m₂ : Nat) := by exact_mod_cast hlong
      rw [zpow_add₀ (by norm_num)]
      exact mul_le_mul_of_nonneg_right hcast (by positivity)
    have := (Int.zpow_le_iff_le_log one_lt_two (h.pos hm)).mp hleast
    unfold exponentAt
    omega

/-- The leading bit of a quotient is at most one place below the difference. -/
theorem le_quotient (hm₁ : 0 < m₁) (hm₂ : 0 < m₂) :
    (2 : ℚ) ^ (m₁.log2 + e₁ - (m₂.log2 + 1 + e₂)) ≤ magnitude m₁ e₁ / magnitude m₂ e₂ := by
  have hlow : (2 : ℚ) ^ m₁.log2 ≤ m₁ := by
    exact_mod_cast ((Nat.log2_eq_iff hm₁.ne').mp rfl).1
  have hhigh : (m₂ : ℚ) ≤ 2 ^ (m₂.log2 + 1) := by
    exact_mod_cast ((Nat.log2_eq_iff hm₂.ne').mp rfl).2.le
  have hpos : (0 : ℚ) < m₂ := by exact_mod_cast hm₂
  rw [zpow_sub₀ (by norm_num), zpow_add₀ (by norm_num), zpow_add₀ (by norm_num)]
  unfold magnitude
  gcongr
  · exact_mod_cast hlow
  · exact_mod_cast hhigh

theorem div_of_readsAs (s t : Sign) (h : ReadsAs (magnitude m₁ e₁ / magnitude m₂ e₂) m q)
    (hlegal : Legal m q) (hm : 0 < m) (hm₁ : 0 < m₁) (hm₂ : 0 < m₂) :
    UnpackedFloat.div Format.binary64 (.finite s m₁ e₁ hm₁) (.finite t m₂ e₂ hm₂) =
      .finite (s / t) m q hm := by
  have hlog := (Int.zpow_le_iff_le_log one_lt_two (h.pos hm)).mp (le_quotient hm₁ hm₂)
  have htarget : Format.binary64.targetExponent (totalExponent m₁ e₁ - totalExponent m₂ e₂) ≤
      exponentAt (Int.log 2 (magnitude m₁ e₁ / magnitude m₂ e₂)) := by
    show max ((m₁.log2 : Int) + 1 + e₁ - ((m₂.log2 : Int) + 1 + e₂) - 53) (-1074) ≤ _
    unfold exponentAt
    omega
  refine roundWithAccuracy_of_readsAs _ h hlegal hm ?_ ((min_le_right _ _).trans htarget)
  -- The numerator is shifted up until the quotient has bits enough.
  generalize Format.binary64.targetExponent _ = target
  have hshift : ((e₁ - e₂ - min (e₁ - e₂) target).toNat : Int) =
      e₁ - e₂ - min (e₁ - e₂) target := by omega
  have hscale : magnitude m₁ e₁ / magnitude m₂ e₂ / 2 ^ min (e₁ - e₂) target =
      (m₁ <<< (e₁ - e₂ - min (e₁ - e₂) target).toNat : Nat) / m₂ := by
    rw [Nat.shiftLeft_eq]
    push_cast
    rw [← zpow_natCast, hshift, zpow_sub₀ (by norm_num), zpow_sub₀ (by norm_num)]
    unfold magnitude
    field_simp
  rw [hscale]
  exact keeps_quotient _ hm₂

end Arithmetic

end Observatory.Number
