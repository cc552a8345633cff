import Mathlib.Data.List.TakeWhile
import Observatory.Text.Blank
import Observatory.Text.Numeral

/-! Numerals that are written and read back.

A natural number is read back from its digits (`digits?_toDigits`), whatever zeros stand in
front of them (`digits?_zeros`), and a signed 64-bit number from its decimal form
(`int64?_toString`), which has no blanks to trim (`trim_toString`). Nothing but a run of digits
is read as a natural number (`isSome_digits?_iff`), and nothing but such a run, with a sign or
without, as a signed one (`isSome_signedDigits?_iff`). -/
namespace Observatory.Text

/-! ### Digits -/

theorem isDigit_bounds {c : Char} (h : c.isDigit = true) : 48 ≤ c.toNat ∧ c.toNat ≤ 57 := by
  simp only [Char.isDigit, Bool.and_eq_true, decide_eq_true_eq, ge_iff_le,
    UInt32.le_iff_toNat_le] at h
  exact h

theorem digitValue?_of_isDigit {c : Char} (h : c.isDigit = true) :
    digitValue? 10 c = some (c.toNat - 48) := by
  have hrange : '0' ≤ c ∧ c ≤ '9' := by
    simpa [Char.isDigit, Char.le_def] using h
  have hbounds := isDigit_bounds h
  unfold digitValue?
  rw [if_pos hrange]
  exact Option.filter_some_pos (by simp; omega)

theorem digitsFrom?_eq {cs : List Char} (h : ∀ c ∈ cs, c.isDigit = true) (value : Nat) :
    digitsFrom? 10 value cs = some (Nat.ofDigitChars 10 cs value) := by
  induction cs generalizing value with
  | nil => rfl
  | cons c rest ih =>
    obtain ⟨hc, hrest⟩ := List.forall_mem_cons.mp h
    rw [digitsFrom?, digitValue?_of_isDigit hc]
    show digitsFrom? 10 (value * 10 + (c.toNat - 48)) rest = _
    rw [ih hrest, Nat.mul_comm]
    rfl

theorem isDigit_of_mem_toDigits {n : Nat} {c : Char} (h : c ∈ Nat.toDigits 10 n) :
    c.isDigit = true := Nat.isDigit_of_mem_toDigits (by decide) (by decide) h

theorem digits?_eq {cs : List Char} (hne : cs ≠ []) (h : ∀ c ∈ cs, c.isDigit = true) :
    digits? 10 cs = some (Nat.ofDigitChars 10 cs 0) := by
  cases cs with
  | nil => exact absurd rfl hne
  | cons c rest => exact digitsFrom?_eq h 0

theorem isDigit_of_mem_zeros {zeros n : Nat} {c : Char}
    (h : c ∈ List.replicate zeros '0' ++ Nat.toDigits 10 n) : c.isDigit = true := by
  rcases List.mem_append.mp h with h | h
  · rw [List.eq_of_mem_replicate h]
    rfl
  · exact isDigit_of_mem_toDigits h

/-- **A number is read back from its digits**, also with zeros in front. -/
theorem digits?_zeros (zeros n : Nat) :
    digits? 10 (List.replicate zeros '0' ++ Nat.toDigits 10 n) = some n := by
  rw [digits?_eq (List.append_ne_nil_of_right_ne_nil _ Nat.toDigits_ne_nil)
      fun c => isDigit_of_mem_zeros,
    Nat.ofDigitChars_append, Nat.ofDigitChars_replicate_zero, Nat.mul_zero,
    Nat.ofDigitChars_ten_toDigits]

theorem digits?_toDigits (n : Nat) : digits? 10 (Nat.toDigits 10 n) = some n := digits?_zeros 0 n

/-- A run of digits, at least one. -/
structure IsDigits (cs : List Char) : Prop where
  ne_nil : cs ≠ []
  isDigit : ∀ c ∈ cs, isDigit c = true

theorem isDigit_of_digitValue? {c : Char} (h : (digitValue? 10 c).isSome = true) :
    isDigit c = true := by
  unfold digitValue? at h
  unfold isDigit
  by_cases hrange : '0' ≤ c ∧ c ≤ '9'
  · rw [decide_eq_true hrange.1, decide_eq_true hrange.2]
    rfl
  · -- The letters stand for ten and more.
    exfalso
    obtain ⟨n, hn⟩ := Option.isSome_iff_exists.mp h
    rw [if_neg hrange] at hn
    obtain ⟨hvalue, hlt⟩ := Option.filter_eq_some_iff.mp hn
    rw [decide_eq_true_eq] at hlt
    split_ifs at hvalue
    · have := Option.some.inj hvalue
      omega
    · have := Option.some.inj hvalue
      omega

theorem isDigit_of_digitsFrom? {value : Nat} {cs : List Char}
    (h : (digitsFrom? 10 value cs).isSome = true) : ∀ c ∈ cs, isDigit c = true := by
  induction cs generalizing value with
  | nil => exact fun c hc => nomatch hc
  | cons c rest ih =>
    unfold digitsFrom? at h
    cases hc : digitValue? 10 c with
    | none => rw [hc] at h; exact nomatch h
    | some n =>
      rw [hc] at h
      exact List.forall_mem_cons.mpr ⟨isDigit_of_digitValue? (by rw [hc]; rfl), ih h⟩

theorem isSome_digits?_iff {cs : List Char} : (digits? 10 cs).isSome = true ↔ IsDigits cs := by
  constructor
  · intro h
    cases cs with
    | nil => exact nomatch h
    | cons c rest => exact ⟨List.cons_ne_nil c rest, isDigit_of_digitsFrom? h⟩
  · intro h
    rw [digits?_eq h.ne_nil h.isDigit]
    rfl

section Run
variable {digits rest : List Char} (h : ∀ c ∈ digits, isDigit c = true)
  (hrest : rest.takeWhile isDigit = [])
include h hrest

/-- A run of digits ends where something else follows. -/
theorem takeWhile_isDigit_append : (digits ++ rest).takeWhile isDigit = digits := by
  rw [List.takeWhile_append_of_pos h, hrest, List.append_nil]

theorem dropWhile_isDigit_append : (digits ++ rest).dropWhile isDigit = rest := by
  have hsplit : (digits ++ rest).takeWhile isDigit ++ (digits ++ rest).dropWhile isDigit =
      digits ++ rest := List.takeWhile_append_dropWhile
  rw [takeWhile_isDigit_append h hrest] at hsplit
  exact List.append_cancel_left hsplit

end Run

/-! ### Signed numbers -/

/-- A run of digits with a sign, if there is one. -/
inductive IsSignedDigits : List Char → Prop where
  | unsigned {digits : List Char} : IsDigits digits → IsSignedDigits digits
  | signed {sign : Char} {digits : List Char} :
    sign = '+' ∨ sign = '-' → IsDigits digits → IsSignedDigits (sign :: digits)

theorem not_isDigits_sign {sign : Char} {rest : List Char} (h : sign = '+' ∨ sign = '-') :
    ¬ IsDigits (sign :: rest) := by
  intro hdigits
  have hsign := hdigits.isDigit sign List.mem_cons_self
  rcases h with rfl | rfl <;> exact absurd hsign (by decide)

theorem isSome_signedDigits?_iff {cs : List Char} :
    (signedDigits? 10 cs).isSome = true ↔ IsSignedDigits cs := by
  have hsign {sign : Char} {rest : List Char} (h : sign = '+' ∨ sign = '-') :
      IsSignedDigits (sign :: rest) ↔ IsDigits rest := by
    constructor
    · intro hsigned
      cases hsigned with
      | unsigned hdigits => exact absurd hdigits (not_isDigits_sign h)
      | signed _ hdigits => exact hdigits
    · exact .signed h
  have hcast (digits : Option Nat) : (digits >>= fun n => pure (n : Int)).isSome = digits.isSome := by
    cases digits <;> rfl
  unfold signedDigits?
  split
  · rw [Option.isSome_map, hcast, isSome_digits?_iff, hsign (.inr rfl)]
  · rw [Option.isSome_map, hcast, isSome_digits?_iff, hsign (.inl rfl)]
  · next cs hminus hplus =>
    rw [Option.isSome_map, hcast, isSome_digits?_iff]
    refine ⟨.unsigned, fun h => ?_⟩
    cases h with
    | unsigned hdigits => exact hdigits
    | signed h hdigits =>
      rcases h with rfl | rfl
      · exact absurd rfl (hplus _)
      · exact absurd rfl (hminus _)

theorem signedDigits?_toDigits (n : Nat) :
    signedDigits? 10 (Nat.toDigits 10 n) = some (n : Int) := by
  have hread := digits?_toDigits n
  cases hcs : Nat.toDigits 10 n with
  | nil => exact absurd hcs Nat.toDigits_ne_nil
  | cons c rest =>
    rw [hcs] at hread
    have hc : c.isDigit = true := isDigit_of_mem_toDigits (hcs ▸ List.mem_cons_self)
    unfold signedDigits?
    split
    · next h =>
      obtain ⟨rfl, _⟩ := List.cons.inj h
      exact absurd hc (by decide)
    · next h =>
      obtain ⟨rfl, _⟩ := List.cons.inj h
      exact absurd hc (by decide)
    · rw [hread]
      rfl

/-- The decimal form of a whole number. -/
theorem toList_toString (k : Int) :
    (toString k).toList =
      if 0 ≤ k then Nat.toDigits 10 k.natAbs else '-' :: Nat.toDigits 10 k.natAbs := by
  cases k with
  | ofNat n =>
    rw [if_pos (show 0 ≤ Int.ofNat n from Int.natCast_nonneg n)]
    exact Nat.toList_repr
  | negSucc n =>
    rw [if_neg (by simp)]
    simp [toString, Int.repr]

theorem signedDigits?_toString (k : Int) : signedDigits? 10 (toString k).toList = some k := by
  rw [toList_toString]
  split
  · next h =>
    rw [signedDigits?_toDigits, Int.natAbs_of_nonneg h]
  · next h =>
    rw [signedDigits?, digits?_toDigits]
    show some (-(k.natAbs : Int)) = some k
    rw [Option.some.injEq]
    omega

theorem int64OfInt?_toInt (id : Int64) : int64OfInt? id.toInt = some id := by
  unfold int64OfInt?
  rw [if_pos ⟨id.le_toInt, id.toInt_le⟩, Int64.ofInt_toInt]

/-- **A signed 64-bit number is read back from its decimal form.** -/
theorem int64?_toString (id : Int64) : int64? (toString id) = some id := by
  show (signedDigits? 10 (toString id.toInt).toList).bind int64OfInt? = some id
  rw [signedDigits?_toString]
  exact int64OfInt?_toInt id

/-! ### Blanks -/

theorem trimChars_of_forall {cs : List Char} (h : ∀ c ∈ cs, isBlank c = false) :
    trimChars cs = cs := by
  have hstart : trimStart cs = cs :=
    List.dropWhile_eq_self_iff.mpr fun hpos => by
      rw [h _ (List.getElem_mem hpos)]
      exact Bool.false_ne_true
  have hend : cs.reverse.dropWhile isBlank = cs.reverse :=
    List.dropWhile_eq_self_iff.mpr fun hpos => by
      rw [h _ (List.mem_reverse.mp (List.getElem_mem hpos))]
      exact Bool.false_ne_true
  rw [trimChars, hstart, trimEnd, hend, List.reverse_reverse]

theorem isBlank_of_isDigit {c : Char} (h : c.isDigit = true) : isBlank c = false := by
  have hbounds := isDigit_bounds h
  simp only [isBlank, blankRanges, List.any_cons, List.any_nil, Bool.or_false, Bool.or_eq_false_iff,
    Bool.and_eq_false_iff, decide_eq_false_iff_not]
  omega

/-- There is nothing to trim about a decimal form. -/
theorem trim_toString (id : Int64) : trim (toString id) = toString id := by
  have hdigits : ∀ c ∈ Nat.toDigits 10 id.toInt.natAbs, isBlank c = false := fun c hc =>
    isBlank_of_isDigit (isDigit_of_mem_toDigits hc)
  have hplain : ∀ c ∈ (toString id.toInt).toList, isBlank c = false := by
    rw [toList_toString]
    split
    · exact hdigits
    · exact List.forall_mem_cons.mpr ⟨by decide, hdigits⟩
  show String.ofList (trimChars (toString id.toInt).toList) = toString id.toInt
  rw [trimChars_of_forall hplain, String.ofList_toList]

end Observatory.Text
