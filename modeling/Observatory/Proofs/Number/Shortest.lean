import Observatory.Proofs.Number.Binary64

/-! The digits that a double is written with.

The digits found for a double name a number that rounds to the double
(`readsAs_shortest`): on the finest of the grids tried, one of the two neighbours does. So
doubles are written in their order (`writtenRat_mono`), and a whole number of at most
fifty-three bits is written as it is (`writtenRat_whole`). -/
namespace Observatory.Number
open Binary64 (Legal magnitude magnitude_pos magnitude_nonneg magnitude_lt_iff signed)

variable {m m' : Nat} {q q' : Int}

/-! ### The interval of a double -/

/-- Twice the distance down to the next double, in units of the last place of the
significand. -/
def gapBelow (m : Nat) (q : Int) : Nat := if m = Nat.pow 2 52 ∧ q ≠ -1074 then 1 else 2

/-- The least real that rounds to `m * 2 ^ q`, up to a tie. -/
def lowest (m : Nat) (q : Int) : ℚ := (4 * m - gapBelow m q) * 2 ^ (q - 2)

/-- The greatest real that rounds to `m * 2 ^ q`, up to a tie. -/
def highest (m : Nat) (q : Int) : ℚ := (4 * m + 2) * 2 ^ (q - 2)

/-- A number lies in the interval of `m * 2 ^ q`, whose ends belong to it if `m` is even. -/
structure ReadsAs (v : ℚ) (m : Nat) (q : Int) : Prop where
  low : lowest m q ≤ v
  high : v ≤ highest m q
  tie : m % 2 = 1 → lowest m q < v ∧ v < highest m q

theorem gapBelow_cases (m : Nat) (q : Int) :
    (gapBelow m q = 1 ∧ m = 2 ^ 52 ∧ q ≠ -1074) ∨ (gapBelow m q = 2 ∧ (m ≠ 2 ^ 52 ∨ q = -1074)) := by
  unfold gapBelow
  split
  · next h => exact .inl ⟨rfl, h⟩
  · next h => exact .inr ⟨rfl, (not_and_or.mp h).imp id not_not.mp⟩

theorem gapBelow_bounds (m : Nat) (q : Int) : (1 : ℚ) ≤ gapBelow m q ∧ (gapBelow m q : ℚ) ≤ 2 := by
  rcases gapBelow_cases m q with ⟨hgap, _⟩ | ⟨hgap, _⟩ <;> rw [hgap] <;> norm_num

theorem magnitude_eq (m : Nat) (q : Int) : magnitude m q = 4 * m * 2 ^ (q - 2) := by
  unfold magnitude
  rw [zpow_sub₀ (by norm_num)]
  ring

theorem pow_toNat (b : ℚ) (hb : b ≠ 0) (k : Int) : b ^ k.toNat = b ^ k * b ^ (-k).toNat := by
  rw [← zpow_natCast, ← zpow_natCast, ← zpow_add₀ hb]
  congr 1
  omega

/-- The interval in units of `10 ^ k`, all of it scaled up to whole numbers. -/
theorem inUnits_scaled (hm : 0 < m) (k : Int) :
    ∃ u : ℚ, 0 < u ∧
      (((Interval.ofBinary m q).inUnits k).low : ℚ) = lowest m q * u ∧
      (((Interval.ofBinary m q).inUnits k).value : ℚ) = magnitude m q * u ∧
      (((Interval.ofBinary m q).inUnits k).high : ℚ) = highest m q * u ∧
      (((Interval.ofBinary m q).inUnits k).denominator : ℚ) = 10 ^ k * u := by
  have htwo := pow_toNat 2 (by norm_num) (q - 2)
  have hten := pow_toNat 10 (by norm_num) k
  have hneg : -(q - 2) = 2 - q := by ring
  rw [hneg] at htwo
  have hgap : gapBelow m q ≤ 4 * m := by
    rcases gapBelow_cases m q with ⟨h, _⟩ | ⟨h, _⟩ <;> omega
  refine ⟨2 ^ (2 - q).toNat * 10 ^ (-k).toNat, by positivity, ?_, ?_, ?_, ?_⟩
  · show (((4 * m - gapBelow m q) * Nat.pow 2 (q - 2).toNat * Nat.pow 10 (-k).toNat : Nat) : ℚ) = _
    rw [Nat.pow_eq, Nat.pow_eq]
    push_cast [hgap]
    rw [htwo, lowest]
    ring
  · show ((4 * m * Nat.pow 2 (q - 2).toNat * Nat.pow 10 (-k).toNat : Nat) : ℚ) = _
    rw [Nat.pow_eq, Nat.pow_eq]
    push_cast
    rw [htwo, magnitude_eq]
    ring
  · show (((4 * m + 2) * Nat.pow 2 (q - 2).toNat * Nat.pow 10 (-k).toNat : Nat) : ℚ) = _
    rw [Nat.pow_eq, Nat.pow_eq]
    push_cast
    rw [htwo, highest]
    ring
  · show ((Nat.pow 2 (2 - q).toNat * Nat.pow 10 k.toNat : Nat) : ℚ) = _
    rw [Nat.pow_eq, Nat.pow_eq]
    push_cast
    rw [hten]
    ring

theorem denominator_inUnits_pos (hm : 0 < m) (k : Int) :
    0 < ((Interval.ofBinary m q).inUnits k).denominator := by
  obtain ⟨u, hu, _, _, _, hdenominator⟩ := inUnits_scaled (q := q) hm k
  have hcast : (0 : ℚ) < ((Interval.ofBinary m q).inUnits k).denominator := by
    rw [hdenominator]
    positivity
  exact_mod_cast hcast

/-- What the interval contains in whole numbers is what it contains. -/
theorem readsAs_of_contains (hm : 0 < m) {k : Int} {d : Nat}
    (h : ((Interval.ofBinary m q).inUnits k).contains d = true) : ReadsAs (d * 10 ^ k) m q := by
  obtain ⟨u, hu, hlow, _, hhigh, hdenominator⟩ := inUnits_scaled (q := q) hm k
  have hclosed : ((Interval.ofBinary m q).inUnits k).closed = decide (m % 2 = 0) := rfl
  generalize (Interval.ofBinary m q).inUnits k = i at *
  have hunits : (d * 10 ^ k * u : ℚ) = (d * i.denominator : Nat) := by
    rw [Nat.cast_mul, hdenominator, mul_assoc]
  have hle : i.low ≤ d * i.denominator ∧ d * i.denominator ≤ i.high := by
    unfold Interval.contains at h
    split at h <;> rw [Bool.and_eq_true, decide_eq_true_eq, decide_eq_true_eq] at h <;> omega
  refine ⟨le_of_mul_le_mul_right ?_ hu, le_of_mul_le_mul_right ?_ hu, fun hodd => ?_⟩
  · rw [hunits, ← hlow]
    exact_mod_cast hle.1
  · rw [hunits, ← hhigh]
    exact_mod_cast hle.2
  · have hopen : ¬ i.closed = true := by
      rw [hclosed, decide_eq_true_eq]
      omega
    unfold Interval.contains at h
    rw [if_neg hopen, Bool.and_eq_true, decide_eq_true_eq, decide_eq_true_eq] at h
    refine ⟨lt_of_mul_lt_mul_right ?_ hu.le, lt_of_mul_lt_mul_right ?_ hu.le⟩
    · rw [hunits, ← hlow]
      exact_mod_cast h.1
    · rw [hunits, ← hhigh]
      exact_mod_cast h.2

/-- A whole number of units strictly between the ends of the interval is in it. -/
theorem contains_of_bounds (hm : 0 < m) {k : Int} {d : Nat} (hlow : lowest m q < d * 10 ^ k)
    (hhigh : d * 10 ^ k < highest m q) : ((Interval.ofBinary m q).inUnits k).contains d = true := by
  obtain ⟨u, hu, hl, _, hh, hdenominator⟩ := inUnits_scaled (q := q) hm k
  generalize (Interval.ofBinary m q).inUnits k = i at *
  have hlow' : i.low < d * i.denominator := by
    have : (i.low : ℚ) < d * i.denominator := by
      rw [hl, hdenominator, ← mul_assoc]
      exact mul_lt_mul_of_pos_right hlow hu
    exact_mod_cast this
  have hhigh' : d * i.denominator < i.high := by
    have : (d * i.denominator : ℚ) < i.high := by
      rw [hh, hdenominator, ← mul_assoc]
      exact mul_lt_mul_of_pos_right hhigh hu
    exact_mod_cast this
  unfold Interval.contains
  split <;> rw [Bool.and_eq_true, decide_eq_true_eq, decide_eq_true_eq] <;> omega

/-- The intervals of two doubles overlap in a tie at most. -/
theorem highest_le_lowest (h : Legal m q) (h' : Legal m' q') (hlt : magnitude m q < magnitude m' q') :
    highest m q ≤ lowest m' q' := by
  unfold highest lowest
  rcases (magnitude_lt_iff h h').mp hlt with hq | ⟨rfl, hm⟩
  · have hm : (m : ℚ) + 1 ≤ 2 ^ 53 := by exact_mod_cast h.lt
    have hm' : (2 : ℚ) ^ 54 - 1 ≤ 4 * m' - gapBelow m' q' := by
      have hnormal := h'.normal (by have := h.least; omega)
      rcases gapBelow_cases m' q' with ⟨hgap, rfl, _⟩ | ⟨hgap, hne⟩
      · rw [hgap]
        norm_num
      · have hsucc : (2 : ℚ) ^ 52 + 1 ≤ m' := by
          have := h.least
          exact_mod_cast (by omega : 2 ^ 52 + 1 ≤ m')
        rw [hgap]
        push_cast
        linarith
    have hstep : (2 : ℚ) ^ (q - 2 + 1) ≤ 2 ^ (q' - 2) := zpow_le_zpow_right₀ (by norm_num) (by omega)
    calc (4 * m + 2 : ℚ) * 2 ^ (q - 2) ≤ (2 ^ 55 - 2) * 2 ^ (q - 2) := by
          gcongr
          linarith
      _ = (2 ^ 54 - 1) * 2 ^ (q - 2 + 1) := by
          rw [zpow_add_one₀ (by norm_num)]
          ring
      _ ≤ (4 * m' - gapBelow m' q') * 2 ^ (q' - 2) := by
          gcongr
  · have hm : (m : ℚ) + 1 ≤ m' := by exact_mod_cast hm
    have hgap := (gapBelow_bounds m' q).2
    gcongr
    linarith

/-! ### The leading digit -/

/-- One below the guess for the leading exponent of a power of two is never too great. In the
range of doubles it is enough that the logarithm of two lies between 31/103 and 16/53. -/
theorem pow_guess_le {e : Int} (hleast : -1074 ≤ e) (hgreatest : e ≤ 1023) :
    (10 : ℚ) ^ (e * 30103 / 100000 - 1) ≤ 2 ^ e := by
  have hguess : e * 30103 / 100000 * 100000 ≤ e * 30103 := Int.ediv_mul_le _ (by norm_num)
  generalize e * 30103 / 100000 = g at *
  rcases le_or_gt 0 e with he | he
  · obtain ⟨n, rfl⟩ := Int.eq_ofNat_of_zero_le he
    refine (pow_le_pow_iff_left₀ (by positivity) (by positivity) (by norm_num : 103 ≠ 0)).mp ?_
    calc ((10 : ℚ) ^ (g - 1)) ^ 103 = 10 ^ ((g - 1) * 103) := by rw [zpow_mul]; norm_cast
      _ ≤ 10 ^ ((31 * n : Nat) : Int) := zpow_le_zpow_right₀ (by norm_num) (by push_cast; omega)
      _ = (10 ^ 31) ^ n := by rw [zpow_natCast, pow_mul]
      _ ≤ (2 ^ 103) ^ n := by gcongr; norm_num
      _ = (2 ^ (n : Int)) ^ 103 := by rw [zpow_natCast, ← pow_mul, ← pow_mul, mul_comm]
  · obtain ⟨n, rfl⟩ : ∃ n : Nat, e = -(n : Int) := ⟨e.natAbs, by omega⟩
    refine (pow_le_pow_iff_left₀ (by positivity) (by positivity) (by norm_num : 53 ≠ 0)).mp ?_
    calc ((10 : ℚ) ^ (g - 1)) ^ 53 = 10 ^ ((g - 1) * 53) := by rw [zpow_mul]; norm_cast
      _ ≤ 10 ^ (-((16 * n : Nat) : Int)) :=
          zpow_le_zpow_right₀ (by norm_num) (by push_cast; omega)
      _ = ((10 ^ 16) ^ n)⁻¹ := by rw [zpow_neg, zpow_natCast, pow_mul]
      _ ≤ ((2 ^ 53) ^ n)⁻¹ := by
          apply inv_anti₀ (by positivity)
          gcongr
          norm_num
      _ = (2 ^ (-(n : Int))) ^ 53 := by
          rw [zpow_neg, zpow_natCast, inv_pow, ← pow_mul, ← pow_mul, mul_comm]

/-- The power of ten of the leading digit is not above the number. -/
theorem pow_leadingExponent_le (h : Legal m q) (hm : 0 < m) :
    (10 : ℚ) ^ (Interval.ofBinary m q).leadingExponent m q ≤ magnitude m q := by
  have hatLeast (k : Int)
      (hk : (Interval.ofBinary m q).denominator * Nat.pow 10 k.toNat ≤
        (Interval.ofBinary m q).value * Nat.pow 10 (-k).toNat) : (10 : ℚ) ^ k ≤ magnitude m q := by
    obtain ⟨u, hu, _, hvalue, _, hdenominator⟩ := inUnits_scaled (q := q) hm k
    have hk : (((Interval.ofBinary m q).inUnits k).denominator : ℚ) ≤
        ((Interval.ofBinary m q).inUnits k).value := by exact_mod_cast hk
    rw [hvalue, hdenominator] at hk
    exact le_of_mul_le_mul_right hk hu
  have hlog : m.log2 < 53 := (Nat.log2_lt hm.ne').mpr h.lt
  have hpower : (2 : ℚ) ^ ((m.log2 : Int) + q) ≤ magnitude m q := by
    have hle : (2 : ℚ) ^ m.log2 ≤ m := by exact_mod_cast ((Nat.log2_eq_iff hm.ne').mp rfl).1
    rw [zpow_add₀ (by norm_num), zpow_natCast]
    unfold magnitude
    gcongr
  unfold Interval.leadingExponent
  simp only [decide_eq_true_eq]
  split
  · next hk => exact hatLeast _ hk
  · split
    · next hk => exact hatLeast _ hk
    · exact (pow_guess_le (by have := h.least; omega) (by have := h.greatest; omega)).trans hpower

/-! ### The grids -/

/-- What is found on a grid is one of the two neighbours of the value, and in the interval. -/
theorem contains_of_nearest? {tie : Tie} {i : Interval} {d : Nat} (h : i.nearest? tie = some d) :
    i.contains d = true := by
  unfold Interval.nearest? at h
  cases hd : i.contains (i.value / i.denominator) <;>
    cases hnext : i.contains (i.value / i.denominator + 1) <;> simp only [hd, hnext] at h
  · exact nomatch h
  · exact Option.some.inj h ▸ hnext
  · exact Option.some.inj h ▸ hd
  · have hcases : d = i.value / i.denominator ∨ d = i.value / i.denominator + 1 := by
      cases tie <;> simp only at h <;> split_ifs at h <;> have hd := Option.some.inj h <;> omega
    rcases hcases with rfl | rfl
    · exact hd
    · exact hnext

theorem isSome_nearest? {tie : Tie} {i : Interval}
    (h : i.contains (i.value / i.denominator) = true ∨ i.contains (i.value / i.denominator + 1) = true) :
    (i.nearest? tie).isSome = true := by
  unfold Interval.nearest?
  cases hd : i.contains (i.value / i.denominator) <;>
    cases hnext : i.contains (i.value / i.denominator + 1) <;> simp only [hd, hnext] at h ⊢
  · simp at h
  · rfl
  · rfl
  · split_ifs <;> cases tie <;> rfl

/-- A value on the grid is found. -/
theorem nearest?_of_dvd {tie : Tie} {i : Interval} {d : Nat} (hpos : 0 < i.denominator)
    (hvalue : i.value = d * i.denominator) (hd : i.contains d = true) :
    i.nearest? tie = some d := by
  have hdiv : i.value / i.denominator = d := by rw [hvalue, Nat.mul_div_cancel _ hpos]
  have hmod : i.value % i.denominator = 0 := by rw [hvalue, Nat.mul_mod_left]
  unfold Interval.nearest?
  rw [hdiv, hmod]
  simp only [hd, Nat.mul_zero]
  cases i.contains (d + 1)
  · rfl
  · exact if_pos hpos

/-- The two neighbours of the value on a grid. -/
theorem neighbours (hm : 0 < m) (k : Int) :
    let i := (Interval.ofBinary m q).inUnits k
    ((i.value / i.denominator : Nat) : ℚ) * 10 ^ k ≤ magnitude m q ∧
      magnitude m q < ((i.value / i.denominator + 1 : Nat) : ℚ) * 10 ^ k := by
  intro i
  obtain ⟨u, hu, _, hvalue, _, hdenominator⟩ := inUnits_scaled (q := q) hm k
  have hpos : 0 < i.denominator := denominator_inUnits_pos hm k
  have hlow : ((i.value / i.denominator : Nat) : ℚ) * i.denominator ≤ i.value := by
    exact_mod_cast Nat.div_mul_le_self i.value i.denominator
  have hhigh : (i.value : ℚ) < ((i.value / i.denominator + 1 : Nat) : ℚ) * i.denominator := by
    have := Nat.lt_div_mul_add (a := i.value) hpos
    exact_mod_cast (by rw [Nat.add_mul, Nat.one_mul]; exact this)
  rw [hvalue, hdenominator, ← mul_assoc] at hlow hhigh
  exact ⟨le_of_mul_le_mul_right hlow hu, lt_of_mul_lt_mul_right hhigh hu.le⟩

/-- With seventeen digits the grid is finer than the interval on either side. -/
theorem unit_lt (h : Legal m q) (hm : 0 < m) :
    (10 : ℚ) ^ ((Interval.ofBinary m q).leadingExponent m q - 16) < 2 * (gapBelow m q * 2 ^ (q - 2)) := by
  have hlead := pow_leadingExponent_le h hm
  generalize (Interval.ofBinary m q).leadingExponent m q = lead at *
  have hcount : (2 * m : ℚ) < gapBelow m q * 10 ^ 16 := by
    rcases gapBelow_cases m q with ⟨hgap, rfl, _⟩ | ⟨hgap, _⟩ <;> rw [hgap]
    · norm_num
    · have hlt : (m : ℚ) < 2 ^ 53 := by exact_mod_cast h.lt
      push_cast
      linarith
  have hunit : (10 : ℚ) ^ (lead - 16) * 10 ^ 16 ≤ magnitude m q := by
    refine le_trans (le_of_eq ?_) hlead
    rw [← zpow_natCast, ← zpow_add₀ (by norm_num)]
    congr 1
    omega
  have hscaled := mul_lt_mul_of_pos_right hcount (show (0 : ℚ) < 2 ^ (q - 2) by positivity)
  rw [magnitude_eq] at hunit
  linarith

/-- On the finest grid a neighbour of the value is in the interval. -/
theorem finest_isSome (h : Legal m q) (hm : 0 < m) (tie : Tie) :
    (((Interval.ofBinary m q).inUnits
      ((Interval.ofBinary m q).leadingExponent m q - 16)).nearest? tie).isSome = true := by
  have hunit := unit_lt h hm
  generalize (Interval.ofBinary m q).leadingExponent m q - 16 = k at *
  obtain ⟨hbelow, habove⟩ := neighbours (q := q) hm k
  have hvalue := magnitude_eq m q
  have hgapBelow := mul_le_mul_of_nonneg_right (gapBelow_bounds m q).2 (show (0 : ℚ) ≤ 2 ^ (q - 2) by positivity)
  have hpos : (0 : ℚ) < 2 ^ (q - 2) := by positivity
  apply isSome_nearest?
  rcases le_or_gt (2 * (magnitude m q - ((((Interval.ofBinary m q).inUnits k).value /
    ((Interval.ofBinary m q).inUnits k).denominator : Nat) : ℚ) * 10 ^ k)) (10 ^ k) with hnear | hfar
  · left
    apply contains_of_bounds hm
    · unfold lowest
      linarith
    · unfold highest
      linarith
  · right
    push_cast at habove
    apply contains_of_bounds hm
    · unfold lowest
      push_cast
      linarith
    · unfold highest
      push_cast
      linarith

/-! ### The digits found -/

/-- The number that digits and an exponent stand for. -/
def decimalRat (p : Nat × Int) : ℚ := p.1 * 10 ^ p.2

theorem decimalRat_stripZeros (fuel digits : Nat) (exponent : Int) :
    decimalRat (stripZeros fuel digits exponent) = decimalRat (digits, exponent) := by
  induction fuel generalizing digits exponent with
  | zero => rfl
  | succ fuel ih =>
    unfold stripZeros
    split
    · next h =>
      have hdigits : ((digits / 10 : Nat) : ℚ) * 10 = digits := by
        exact_mod_cast Nat.div_mul_cancel (Nat.dvd_of_mod_eq_zero h.2)
      rw [ih]
      unfold decimalRat
      rw [zpow_add_one₀ (by norm_num), ← hdigits]
      ring
    · rfl

/-- Zeros are stripped until none is left, as far as the steps allow. -/
theorem stripZeros_cases (fuel digits : Nat) (exponent : Int) :
    (stripZeros fuel digits exponent).1 = 0 ∨ (stripZeros fuel digits exponent).1 % 10 ≠ 0 ∨
      (stripZeros fuel digits exponent).2 = exponent + fuel := by
  induction fuel generalizing digits exponent with
  | zero => exact .inr (.inr (add_zero exponent).symm)
  | succ fuel ih =>
    unfold stripZeros
    split
    · exact (ih (digits / 10) (exponent + 1)).imp_right (.imp_right fun h => by rw [h]; push_cast; ring)
    · next h => exact (not_and_or.mp h).imp not_not.mp .inl

/-- The digits are those found on one of seventeen grids, without trailing zeros. -/
theorem shortest_cases (h : Legal m q) (hm : 0 < m) (tie : Tie) :
    ∃ n d : Nat, n < 17 ∧
      ((Interval.ofBinary m q).inUnits
        ((Interval.ofBinary m q).leadingExponent m q - (n : Int))).nearest? tie = some d ∧
      shortest tie m q = stripZeros 20 d ((Interval.ofBinary m q).leadingExponent m q - (n : Int)) := by
  have hfinest := finest_isSome h hm tie
  unfold shortest
  simp only
  generalize (Interval.ofBinary m q).leadingExponent m q = lead at *
  generalize hsearch : ((List.range 17).findSome? fun (n : Nat) =>
    (((Interval.ofBinary m q).inUnits (lead - (n : Int))).nearest? tie).map
      fun digits => (digits, lead - (n : Int))) = found
  cases found with
  | none =>
    have hnone := List.findSome?_eq_none_iff.mp hsearch 16 (List.mem_range.mpr (by decide))
    rw [Option.map_eq_none_iff] at hnone
    have hnone : ((Interval.ofBinary m q).inUnits (lead - 16)).nearest? tie = none := hnone
    rw [hnone] at hfinest
    exact absurd hfinest Bool.false_ne_true
  | some found =>
    obtain ⟨n, hn, hfound⟩ := List.exists_of_findSome?_eq_some hsearch
    obtain ⟨d, hd, rfl⟩ := Option.map_eq_some_iff.mp hfound
    exact ⟨n, d, List.mem_range.mp hn, hd, rfl⟩

/-- The number written rounds to the double. -/
theorem readsAs_shortest (h : Legal m q) (hm : 0 < m) (tie : Tie) :
    ReadsAs (decimalRat (shortest tie m q)) m q := by
  obtain ⟨n, d, _, hd, hshortest⟩ := shortest_cases h hm tie
  rw [hshortest, decimalRat_stripZeros]
  exact readsAs_of_contains hm (contains_of_nearest? hd)

/-- The number that is written for `m * 2 ^ q`. -/
def writtenRat (m : Nat) (q : Int) : ℚ := if m = 0 then 0 else decimalRat (shortest .upward m q)

theorem writtenRat_nonneg (m : Nat) (q : Int) : 0 ≤ writtenRat m q := by
  unfold writtenRat decimalRat
  split
  · exact le_refl 0
  · positivity

/-- Doubles are written in their order. -/
theorem writtenRat_mono (h : Legal m q) (h' : Legal m' q') (hle : magnitude m q ≤ magnitude m' q') :
    writtenRat m q ≤ writtenRat m' q' := by
  rcases hle.lt_or_eq with hlt | heq
  · have hm' : 0 < m' := by
      rw [Nat.pos_iff_ne_zero]
      rintro rfl
      have hzero : magnitude 0 q' = 0 := by simp [magnitude]
      exact absurd (magnitude_nonneg m q) (not_le.mpr (hzero ▸ hlt))
    rcases Nat.eq_zero_or_pos m with rfl | hm
    · rw [writtenRat, if_pos rfl]
      exact writtenRat_nonneg m' q'
    · rw [writtenRat, writtenRat, if_neg hm.ne', if_neg hm'.ne']
      calc decimalRat (shortest .upward m q) ≤ highest m q := (readsAs_shortest h hm .upward).high
        _ ≤ lowest m' q' := highest_le_lowest h h' hlt
        _ ≤ decimalRat (shortest .upward m' q') := (readsAs_shortest h' hm' .upward).low
  · have hlt := mt (magnitude_lt_iff h h').mpr heq.not_lt
    have hgt := mt (magnitude_lt_iff h' h).mpr heq.symm.not_lt
    obtain rfl : q = q' := by omega
    obtain rfl : m = m' := by omega
    exact le_refl _

/-! ### Whole numbers -/

/-- The interval of a whole number of at most fifty-three bits holds no other whole number. -/
theorem interval_of_whole {n : Nat} (h : Legal m q) (hn : magnitude m q = n) (hlt : n < 2 ^ 53) :
    ((n : ℚ) - 1 < lowest m q ∧ lowest m q < n) ∧ (n < highest m q ∧ highest m q < (n : ℚ) + 1) := by
  have hq : q ≤ 0 := by
    by_contra hq
    have hnormal : (2 : ℚ) ^ 52 ≤ m := by exact_mod_cast h.normal (by omega)
    have hstep : (2 : ℚ) ^ (1 : Int) ≤ 2 ^ q := zpow_le_zpow_right₀ (by norm_num) (by omega)
    have hlt : (n : ℚ) < 2 ^ 53 := by exact_mod_cast hlt
    have hbig : (2 : ℚ) ^ 52 * 2 ^ (1 : Int) ≤ m * 2 ^ q := by gcongr
    rw [← hn] at hlt
    unfold magnitude at hlt
    norm_num at hbig
    linarith
  have hunit : (2 : ℚ) ^ (q - 2) ≤ 1 / 4 := by
    calc (2 : ℚ) ^ (q - 2) ≤ 2 ^ (-2 : Int) := zpow_le_zpow_right₀ (by norm_num) (by omega)
      _ = 1 / 4 := by norm_num
  have hscale : (0 : ℚ) < 2 ^ (q - 2) := by positivity
  have hvalue := magnitude_eq m q
  have hgap := gapBelow_bounds m q
  have hgapBelow := mul_le_mul_of_nonneg_right hgap.2 hscale.le
  have hgapAbove := mul_le_mul_of_nonneg_right hgap.1 hscale.le
  rw [hn] at hvalue
  unfold lowest highest
  refine ⟨⟨?_, ?_⟩, ?_, ?_⟩ <;> linarith

section Whole
variable {n : Nat} (h : Legal m q) (hn : magnitude m q = n) (hpos : 0 < n)
include hn hpos

theorem significand_pos_of_whole : 0 < m := by
  rw [Nat.pos_iff_ne_zero]
  rintro rfl
  have hzero : (n : ℚ) = 0 := by rw [← hn]; simp [magnitude]
  exact hpos.ne' (by exact_mod_cast hzero)

theorem leadingExponent_nonneg : 0 ≤ (Interval.ofBinary m q).leadingExponent m q := by
  have hm := significand_pos_of_whole hn hpos
  have hlog : 0 ≤ (m.log2 : Int) + q := by
    by_contra hneg
    have hlt : (m : ℚ) < 2 ^ (m.log2 + 1) := by exact_mod_cast ((Nat.log2_eq_iff hm.ne').mp rfl).2
    have hone : (1 : ℚ) ≤ n := by exact_mod_cast hpos
    have hsmall : magnitude m q < 1 := by
      calc (m : ℚ) * 2 ^ q < 2 ^ (m.log2 + 1) * 2 ^ q := by gcongr
        _ = 2 ^ ((m.log2 + 1 : Nat) + q) := by rw [zpow_add₀ (by norm_num), zpow_natCast]
        _ ≤ 2 ^ (0 : Int) := zpow_le_zpow_right₀ (by norm_num) (by push_cast; omega)
        _ = 1 := zpow_zero 2
    linarith
  have hzero : (Interval.ofBinary m q).denominator * Nat.pow 10 (0 : Int).toNat ≤
      (Interval.ofBinary m q).value * Nat.pow 10 (-(0 : Int)).toNat := by
    obtain ⟨u, hu, _, hvalue, _, hdenominator⟩ := inUnits_scaled (q := q) hm 0
    have hcast : (((Interval.ofBinary m q).inUnits 0).denominator : ℚ) ≤
        ((Interval.ofBinary m q).inUnits 0).value := by
      have hone : (1 : ℚ) ≤ n := by exact_mod_cast hpos
      rw [hvalue, hdenominator, hn, zpow_zero]
      gcongr
    exact_mod_cast hcast
  have hguess : 0 ≤ ((m.log2 : Int) + q) * 30103 / 100000 :=
    Int.ediv_nonneg (by omega) (by norm_num)
  unfold Interval.leadingExponent
  simp only [decide_eq_true_eq]
  generalize ((m.log2 : Int) + q) * 30103 / 100000 = guess at *
  split
  · omega
  · split
    · exact hguess
    · next hfar =>
      rcases hguess.lt_or_eq with hlt | rfl
      · omega
      · exact absurd hzero hfar

include h

/-- On a grid that it is on, a whole number is found itself. -/
theorem nearest?_whole (hlt : n < 2 ^ 53) (tie : Tie) (places : Nat) :
    ((Interval.ofBinary m q).inUnits (-(places : Int))).nearest? tie = some (n * 10 ^ places) := by
  have hm := significand_pos_of_whole hn hpos
  obtain ⟨⟨_, hlow⟩, hhigh, _⟩ := interval_of_whole h hn hlt
  have hgrid : ((n * 10 ^ places : Nat) : ℚ) * 10 ^ (-(places : Int)) = n := by
    rw [zpow_neg, zpow_natCast]
    push_cast
    field_simp
  obtain ⟨u, hu, _, hvalue, _, hdenominator⟩ := inUnits_scaled (q := q) hm (-(places : Int))
  have hmultiple : ((Interval.ofBinary m q).inUnits (-(places : Int))).value =
      n * 10 ^ places * ((Interval.ofBinary m q).inUnits (-(places : Int))).denominator := by
    have hcast : (((Interval.ofBinary m q).inUnits (-(places : Int))).value : ℚ) =
        (n * 10 ^ places : Nat) *
          ((Interval.ofBinary m q).inUnits (-(places : Int))).denominator := by
      rw [hvalue, hdenominator, ← mul_assoc, hgrid, hn]
    exact_mod_cast hcast
  rw [← hgrid] at hlow hhigh
  exact nearest?_of_dvd (denominator_inUnits_pos hm _) hmultiple (contains_of_bounds hm hlow hhigh)

/-- A whole number of at most fifty-three bits is written as the number it is. -/
theorem decimalRat_shortest_whole (hlt : n < 2 ^ 53) (tie : Tie) :
    decimalRat (shortest tie m q) = n := by
  have hm := significand_pos_of_whole hn hpos
  obtain ⟨j, d, _, hd, hshortest⟩ := shortest_cases h hm tie
  rw [hshortest, decimalRat_stripZeros]
  generalize (Interval.ofBinary m q).leadingExponent m q - (j : Int) = k at *
  unfold decimalRat
  rcases le_or_gt k 0 with hk | hk
  · obtain ⟨places, rfl⟩ : ∃ places : Nat, k = -(places : Int) := ⟨k.natAbs, by omega⟩
    obtain rfl := Option.some.inj ((nearest?_whole h hn hpos hlt tie places).symm.trans hd)
    rw [zpow_neg, zpow_natCast]
    push_cast
    field_simp
  · -- What is found on a coarser grid is whole too, and the interval holds no other.
    obtain ⟨hlow, hhigh, _⟩ := readsAs_of_contains hm (contains_of_nearest? hd)
    obtain ⟨⟨hbelow, _⟩, _, habove⟩ := interval_of_whole h hn hlt
    obtain ⟨e, rfl⟩ := Int.eq_ofNat_of_zero_le hk.le
    rw [zpow_natCast] at hlow hhigh ⊢
    have hleft : n < d * 10 ^ e + 1 := by
      have : (n : ℚ) < d * 10 ^ e + 1 := by linarith
      exact_mod_cast this
    have hright : d * 10 ^ e < n + 1 := by
      have : (d : ℚ) * 10 ^ e < n + 1 := by linarith
      exact_mod_cast this
    exact_mod_cast (show d * 10 ^ e = n by omega)

/-- A whole number of at most fifty-three bits is written as it is, without a fraction. -/
theorem shortest_whole (hlt : n < 2 ^ 53) (tie : Tie) :
    ∃ d e : Nat, shortest tie m q = (d, (e : Int)) ∧ d * 10 ^ e = n := by
  have hm := significand_pos_of_whole hn hpos
  have hvalue := decimalRat_shortest_whole h hn hpos hlt tie
  have hlead := leadingExponent_nonneg hn hpos
  obtain ⟨j, d, hj, _, hshortest⟩ := shortest_cases h hm tie
  have hcases := stripZeros_cases 20 d ((Interval.ofBinary m q).leadingExponent m q - (j : Int))
  rw [← hshortest] at hcases
  generalize shortest tie m q = p at *
  obtain ⟨digits, exponent⟩ := p
  unfold decimalRat at hvalue
  simp only at hvalue hcases
  have hdigits : digits ≠ 0 := by
    rintro rfl
    have hzero : (n : ℚ) = 0 := by rw [← hvalue]; simp
    exact hpos.ne' (by exact_mod_cast hzero)
  rcases le_or_gt 0 exponent with he | he
  · obtain ⟨e, rfl⟩ := Int.eq_ofNat_of_zero_le he
    rw [zpow_natCast] at hvalue
    exact ⟨digits, e, rfl, by exact_mod_cast hvalue⟩
  · -- A fraction would end in a zero that is still there.
    exfalso
    obtain ⟨places, rfl⟩ : ∃ places : Nat, exponent = -((places + 1 : Nat) : Int) :=
      ⟨exponent.natAbs - 1, by omega⟩
    have hmultiple : digits = n * 10 ^ places * 10 := by
      rw [zpow_neg, zpow_natCast, ← div_eq_mul_inv, div_eq_iff (by positivity)] at hvalue
      have hvalue : digits = n * 10 ^ (places + 1) := by exact_mod_cast hvalue
      rw [hvalue, pow_succ, mul_assoc]
    have hmod : digits % 10 = 0 := by rw [hmultiple, Nat.mul_mod_left]
    rcases hcases with hzero | hmod' | hexponent
    · exact hdigits hzero
    · exact hmod' hmod
    · omega

theorem writtenRat_whole (hlt : n < 2 ^ 53) : writtenRat m q = n := by
  rw [writtenRat, if_neg (significand_pos_of_whole hn hpos).ne',
    decimalRat_shortest_whole h hn hpos hlt .upward]

end Whole

end Observatory.Number
