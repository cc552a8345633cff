import Observatory.Proofs.Number.Scientific
import Observatory.Proofs.Text.Numeral

/-! Doubles that are written and read back.

A text is read as a double exactly if it has the form of one (`isSome_readFloat?_iff`), and a
double that is a number is read back from its display (`readFloat?_display`): the digits are
written without an exponent, whatever zeros that takes, and the number they stand for lies in the
interval of the double. -/
namespace Observatory.Number

/-! ### The form of a number -/

open Text (isDigit IsDigits IsSignedDigits)

/-- The exponent that a number ends in, zero if it is left out. -/
def exponentOf? : List Char → Option Int
  | [] => some 0
  | 'e' :: more => readExponent? more
  | 'E' :: more => readExponent? more
  | _ => none

/-- An exponent: a mark and a signed run of digits. It may be left out. -/
inductive IsExponent : List Char → Prop where
  | none : IsExponent []
  | marked {mark : Char} {cs : List Char} :
    mark = 'e' ∨ mark = 'E' → IsSignedDigits cs → IsExponent (mark :: cs)

theorem isSome_exponentOf?_iff {cs : List Char} :
    (exponentOf? cs).isSome = true ↔ IsExponent cs := by
  have hmark {mark : Char} {more : List Char} (h : mark = 'e' ∨ mark = 'E') :
      IsExponent (mark :: more) ↔ IsSignedDigits more := by
    refine ⟨fun hexponent => ?_, .marked h⟩
    cases hexponent with
    | marked _ hdigits => exact hdigits
  unfold exponentOf?
  split
  · exact iff_of_true rfl .none
  · exact Text.isSome_signedDigits?_iff.trans (hmark (.inl rfl)).symm
  · exact Text.isSome_signedDigits?_iff.trans (hmark (.inr rfl)).symm
  · next hnone hlower hupper =>
    refine iff_of_false Bool.false_ne_true fun h => ?_
    cases h with
    | none => exact hnone rfl
    | marked h _ =>
      rcases h with rfl | rfl
      · exact hlower _ rfl
      · exact hupper _ rfl

/-- A decimal number: digits with a point before, between or behind them, or with none, and an
exponent. -/
inductive IsDecimal : List Char → Prop where
  | whole {digits exponent : List Char} :
    IsDigits digits → IsExponent exponent → IsDecimal (digits ++ exponent)
  | point {whole fraction exponent : List Char} :
    IsDigits (whole ++ fraction) → IsExponent exponent →
      IsDecimal (whole ++ '.' :: (fraction ++ exponent))

/-- The fraction that follows the whole digits, none without a point, and what is behind it. -/
def fractionOf : List Char → List Char × List Char
  | '.' :: more => (more.takeWhile isDigit, more.dropWhile isDigit)
  | cs => ([], cs)

theorem fractionOf_of_ne {cs : List Char} (h : ∀ more, cs ≠ '.' :: more) :
    fractionOf cs = ([], cs) := by
  unfold fractionOf
  split
  · exact absurd rfl (h _)
  · rfl

/-- A number is read part by part. -/
theorem readDecimal?_eq (cs : List Char) :
    readDecimal? cs =
      (Text.digits? 10 (cs.takeWhile isDigit ++ (fractionOf (cs.dropWhile isDigit)).1)).bind
        fun n => (exponentOf? (fractionOf (cs.dropWhile isDigit)).2).bind fun k =>
          some (n, k - ((fractionOf (cs.dropWhile isDigit)).1.length : Int)) := by
  have hexponent {rest : List Char} (n : Nat) (places : Int) :
      ((exponentOf? rest).bind fun k => some (n, k - places)) =
        match rest with
        | [] => some (n, 0 - places)
        | 'e' :: more => (readExponent? more).bind fun k => some (n, k - places)
        | 'E' :: more => (readExponent? more).bind fun k => some (n, k - places)
        | _ => none := by
    unfold exponentOf?
    split <;> rfl
  simp only [hexponent]
  unfold readDecimal?
  generalize cs.dropWhile isDigit = after
  unfold fractionOf
  split
  · rfl
  · simp only
    rfl

section Decimal
variable {whole fraction rest : List Char} (hrest : rest.takeWhile isDigit = [])
include hrest

theorem readDecimal?_whole (h : ∀ c ∈ whole, isDigit c = true)
    (hpoint : ∀ more, rest ≠ '.' :: more) :
    readDecimal? (whole ++ rest) =
      (Text.digits? 10 whole).bind fun n => (exponentOf? rest).bind fun k => some (n, k) := by
  rw [readDecimal?_eq, Text.takeWhile_isDigit_append h hrest, Text.dropWhile_isDigit_append h hrest,
    fractionOf_of_ne hpoint, List.append_nil]
  simp only [List.length_nil, Nat.cast_zero, sub_zero]

theorem readDecimal?_point (h : ∀ c ∈ whole ++ fraction, isDigit c = true) :
    readDecimal? (whole ++ '.' :: (fraction ++ rest)) =
      (Text.digits? 10 (whole ++ fraction)).bind fun n =>
        (exponentOf? rest).bind fun k => some (n, k - (fraction.length : Int)) := by
  have hwhole (c : Char) (hc : c ∈ whole) := h c (List.mem_append_left _ hc)
  have hfraction (c : Char) (hc : c ∈ fraction) := h c (List.mem_append_right _ hc)
  have hparts : fractionOf ('.' :: (fraction ++ rest)) = (fraction, rest) := by
    show ((fraction ++ rest).takeWhile isDigit, (fraction ++ rest).dropWhile isDigit) = _
    rw [Text.takeWhile_isDigit_append hfraction hrest,
      Text.dropWhile_isDigit_append hfraction hrest]
  rw [readDecimal?_eq, Text.takeWhile_isDigit_append hwhole (by rfl),
    Text.dropWhile_isDigit_append hwhole (by rfl), hparts]

end Decimal

/-- Every text is digits, a point and more digits if there is a point, and a rest. -/
theorem decimal_parts (cs : List Char) :
    (∃ whole rest, cs = whole ++ rest ∧ (∀ c ∈ whole, isDigit c = true) ∧
        rest.takeWhile isDigit = [] ∧ ∀ more, rest ≠ '.' :: more) ∨
      ∃ whole fraction rest, cs = whole ++ '.' :: (fraction ++ rest) ∧
        (∀ c ∈ whole ++ fraction, isDigit c = true) ∧ rest.takeWhile isDigit = [] := by
  have hdigits (cs : List Char) : ∀ c ∈ cs.takeWhile isDigit, isDigit c = true := fun c =>
    List.mem_takeWhile_imp
  have hrest (cs : List Char) : (cs.dropWhile isDigit).takeWhile isDigit = [] :=
    List.takeWhile_eq_nil_iff.mpr (List.dropWhile_get_zero_not _ _)
  have hsplit := List.takeWhile_append_dropWhile (p := isDigit) (l := cs)
  by_cases hpoint : ∃ more, cs.dropWhile isDigit = '.' :: more
  · obtain ⟨more, hmore⟩ := hpoint
    refine .inr ⟨cs.takeWhile isDigit, more.takeWhile isDigit, more.dropWhile isDigit, ?_, ?_,
      hrest more⟩
    · rw [List.takeWhile_append_dropWhile, ← hmore, hsplit]
    · exact List.forall_mem_append.mpr ⟨hdigits cs, hdigits more⟩
  · exact .inl ⟨cs.takeWhile isDigit, cs.dropWhile isDigit, hsplit.symm, hdigits cs, hrest cs,
      not_exists.mp hpoint⟩

theorem takeWhile_of_isExponent {cs : List Char} (h : IsExponent cs) :
    cs.takeWhile isDigit = [] ∧ ∀ more, cs ≠ '.' :: more := by
  cases h with
  | none => exact ⟨rfl, nofun⟩
  | marked hmark _ => rcases hmark with rfl | rfl <;> exact ⟨rfl, nofun⟩

theorem isSome_parts_iff {digits rest : List Char} {f : Nat → Int → Nat × Int} :
    ((Text.digits? 10 digits).bind fun n => (exponentOf? rest).bind fun k =>
        some (f n k)).isSome = true ↔ IsDigits digits ∧ IsExponent rest := by
  rw [← Text.isSome_digits?_iff, ← isSome_exponentOf?_iff]
  cases Text.digits? 10 digits <;> cases exponentOf? rest <;> simp

theorem isSome_readDecimal?_iff {cs : List Char} :
    (readDecimal? cs).isSome = true ↔ IsDecimal cs := by
  constructor
  · intro h
    rcases decimal_parts cs with ⟨whole, rest, rfl, hwhole, hrest, hpoint⟩ |
      ⟨whole, fraction, rest, rfl, hdigits, hrest⟩
    · rw [readDecimal?_whole hrest hwhole hpoint, isSome_parts_iff] at h
      exact .whole h.1 h.2
    · rw [readDecimal?_point hrest hdigits, isSome_parts_iff] at h
      exact .point h.1 h.2
  · intro h
    cases h with
    | whole hdigits hexponent =>
      obtain ⟨hrest, hpoint⟩ := takeWhile_of_isExponent hexponent
      rw [readDecimal?_whole hrest hdigits.isDigit hpoint, isSome_parts_iff]
      exact ⟨hdigits, hexponent⟩
    | point hdigits hexponent =>
      obtain ⟨hrest, _⟩ := takeWhile_of_isExponent hexponent
      rw [readDecimal?_point hrest hdigits.isDigit, isSome_parts_iff]
      exact ⟨hdigits, hexponent⟩

/-- The names of the doubles that have no digits, in any case. -/
def IsWord (cs : List Char) : Prop :=
  cs.map Char.toLower ∈ ["inf".toList, "infinity".toList, "nan".toList]

/-- The text of a double: a word or a decimal number, with a sign if there is one. -/
inductive IsDouble : List Char → Prop where
  | unsigned {cs : List Char} : IsWord cs ∨ IsDecimal cs → IsDouble cs
  | signed {sign : Char} {cs : List Char} :
    sign = '+' ∨ sign = '-' → IsWord cs ∨ IsDecimal cs → IsDouble (sign :: cs)

theorem isSome_readUnsigned?_iff {negative : Bool} {cs : List Char} :
    (readUnsigned? negative cs).isSome = true ↔ IsWord cs ∨ IsDecimal cs := by
  unfold readUnsigned? IsWord
  simp only [List.mem_cons, List.not_mem_nil, or_false]
  by_cases hinf : cs.map Char.toLower = "inf".toList ∨ cs.map Char.toLower = "infinity".toList
  · rw [if_pos hinf]
    exact iff_of_true rfl (.inl (or_assoc.mp (.inl hinf)))
  · rw [if_neg hinf]
    by_cases hnan : cs.map Char.toLower = "nan".toList
    · rw [if_pos hnan]
      exact iff_of_true rfl (.inl (.inr (.inr hnan)))
    · rw [if_neg hnan, Option.isSome_map, isSome_readDecimal?_iff]
      refine ⟨.inr, fun h => h.resolve_left fun hword => ?_⟩
      exact (or_assoc.mpr hword).elim hinf hnan

theorem isDigit_or_point {c : Char} {cs : List Char} (h : IsDecimal (c :: cs)) :
    isDigit c = true ∨ c = '.' := by
  generalize htext : c :: cs = text at h
  cases h with
  | @whole digits _ hdigits _ =>
    obtain ⟨d, ds, rfl⟩ := List.exists_cons_of_ne_nil hdigits.ne_nil
    exact .inl ((List.cons.inj htext).1 ▸ hdigits.isDigit d List.mem_cons_self)
  | @point whole _ _ hdigits _ =>
    cases whole with
    | nil => exact .inr (List.cons.inj htext).1
    | cons d ds => exact .inl ((List.cons.inj htext).1 ▸ hdigits.isDigit d List.mem_cons_self)

/-- What starts with a sign is neither a word nor a number. -/
theorem not_unsigned_sign {sign : Char} {cs : List Char} (h : sign = '+' ∨ sign = '-') :
    ¬ (IsWord (sign :: cs) ∨ IsDecimal (sign :: cs)) := by
  rintro (hword | hdecimal)
  · rcases h with rfl | rfl <;> simp [IsWord] at hword
  · rcases isDigit_or_point hdecimal with hdigit | hpoint
    · rcases h with rfl | rfl <;> exact absurd hdigit (by decide)
    · rcases h with rfl | rfl <;> exact absurd hpoint (by decide)

/-- **A text is read as a double exactly if it has the form of one.** -/
theorem isSome_readFloat?_iff {s : String} :
    (readFloat? s).isSome = true ↔ IsDouble s.toList := by
  have hsigned {sign : Char} {cs : List Char} (h : sign = '+' ∨ sign = '-') :
      IsDouble (sign :: cs) ↔ IsWord cs ∨ IsDecimal cs := by
    refine ⟨fun hdouble => ?_, .signed h⟩
    cases hdouble with
    | unsigned hplain => exact absurd hplain (not_unsigned_sign h)
    | signed _ hplain => exact hplain
  unfold readFloat?
  generalize s.toList = cs
  split
  · rw [isSome_readUnsigned?_iff, hsigned (.inr rfl)]
  · rw [isSome_readUnsigned?_iff, hsigned (.inl rfl)]
  · next hminus hplus =>
    rw [isSome_readUnsigned?_iff]
    refine ⟨.unsigned, fun h => ?_⟩
    cases h with
    | unsigned hplain => exact hplain
    | signed h _ =>
      rcases h with rfl | rfl
      · exact absurd rfl (hplus _)
      · exact absurd rfl (hminus _)

theorem isDouble_of_readFloat? {s : String} {x : Float} (h : readFloat? s = some x) :
    IsDouble s.toList := by
  rw [← isSome_readFloat?_iff, h]
  rfl

/-! ### Plain texts -/

/-- A plain text is whole digits, or digits around a point. -/
theorem plainText_cases (d : Nat) (e : Int) :
    (0 ≤ e ∧ plainText false d e = digitText d ++ List.replicate e.toNat '0') ∨
      ∃ whole fraction zeros, plainText false d e = whole ++ '.' :: fraction ∧ whole ≠ [] ∧
        whole ++ fraction = List.replicate zeros '0' ++ digitText d ∧
        (fraction.length : Int) = -e := by
  by_cases he : 0 ≤ e
  · refine .inl ⟨he, ?_⟩
    unfold plainText plainParts
    rw [if_pos he]
    rfl
  · refine .inr ?_
    obtain ⟨places, rfl⟩ : ∃ places : Nat, e = -(places : Int) := ⟨e.natAbs, by omega⟩
    obtain ⟨padded, hpadded⟩ : ∃ padded, padded =
        List.replicate (places + 1 - (digitText d).length) '0' ++ digitText d := ⟨_, rfl⟩
    have hparts : plainParts d (-(places : Int)) =
        (padded.take (padded.length - places), padded.drop (padded.length - places)) := by
      rw [plainParts, if_neg he, neg_neg, Int.toNat_natCast, hpadded]
    have hlength : places + 1 ≤ padded.length := by
      rw [hpadded, List.length_append, List.length_replicate]
      omega
    have hfraction : (padded.drop (padded.length - places)).length = places := by
      rw [List.length_drop]
      omega
    refine ⟨padded.take (padded.length - places), padded.drop (padded.length - places),
      places + 1 - (digitText d).length, ?_, ?_, ?_, ?_⟩
    · rw [plainText, hparts]
      cases hdrop : padded.drop (padded.length - places) with
      | nil =>
        rw [hdrop, List.length_nil] at hfraction
        omega
      | cons c rest => rfl
    · rw [← List.length_pos_iff, List.length_take]
      omega
    · rw [List.take_append_drop, hpadded]
    · rw [hfraction, neg_neg]

theorem isDigit_of_mem_zerosBehind {d n : Nat} {c : Char}
    (h : c ∈ digitText d ++ List.replicate n '0') : isDigit c = true := by
  have hfront : c ∈ List.replicate n '0' ++ digitText d :=
    List.mem_append.mpr (List.mem_append.mp h).symm
  exact Text.isDigit_of_mem_zeros hfront

theorem digits?_zerosBehind (d n : Nat) :
    Text.digits? 10 (digitText d ++ List.replicate n '0') = some (d * 10 ^ n) := by
  have hne : digitText d ++ List.replicate n '0' ≠ [] :=
    List.append_ne_nil_of_left_ne_nil Nat.toDigits_ne_nil _
  have hvalue : Nat.ofDigitChars 10 (digitText d) 0 = d := Nat.ofDigitChars_ten_toDigits
  rw [Text.digits?_eq hne fun c => isDigit_of_mem_zerosBehind, Nat.ofDigitChars_append, hvalue,
    Nat.ofDigitChars_replicate_zero, mul_comm]

/-- A plain text is read as the number that it is written for. -/
theorem readDecimal?_plainText (d : Nat) (e : Int) :
    ∃ p, readDecimal? (plainText false d e) = some p ∧ decimalRat p = decimalRat (d, e) := by
  rcases plainText_cases d e with ⟨he, htext⟩ | ⟨whole, fraction, zeros, htext, _, hdigits, hplaces⟩
  · obtain ⟨n, rfl⟩ := Int.eq_ofNat_of_zero_le he
    rw [htext, ← List.append_nil (_ ++ _), readDecimal?_whole rfl
      (fun c => isDigit_of_mem_zerosBehind) (fun _ => (List.cons_ne_nil _ _).symm),
      digits?_zerosBehind]
    refine ⟨_, rfl, ?_⟩
    show ((d * 10 ^ n : Nat) : ℚ) * 10 ^ (0 : Int) = d * 10 ^ (n : Int)
    rw [zpow_zero, mul_one, zpow_natCast]
    push_cast
    rfl
  · have hread : Text.digits? 10 (whole ++ fraction) = some d := by
      rw [hdigits]
      exact Text.digits?_zeros zeros d
    rw [htext, ← List.append_nil fraction, readDecimal?_point rfl
      (fun c hc => Text.isDigit_of_mem_zeros (hdigits ▸ hc)), hread, hplaces]
    refine ⟨_, rfl, ?_⟩
    rw [zero_sub, neg_neg]

/-! ### Texts of doubles -/

theorem toLower_of_isDigit {c : Char} (h : isDigit c = true) : c.toLower = c := by
  have hbounds : 48 ≤ c.toNat ∧ c.toNat ≤ 57 := Text.isDigit_bounds h
  have hlow : ¬ (c.val ≥ 65 ∧ c.val ≤ 90) := by
    rw [ge_iff_le, UInt32.le_iff_toNat_le, UInt32.le_iff_toNat_le]
    show ¬ (65 ≤ c.toNat ∧ c.toNat ≤ 90)
    omega
  exact dif_neg hlow

/-- What starts with a digit is no word. -/
theorem readUnsigned?_digit (negative : Bool) {c : Char} (hc : isDigit c = true)
    (rest : List Char) :
    readUnsigned? negative (c :: rest) =
      (readDecimal? (c :: rest)).map fun p => nearestFloat negative p.1 p.2 := by
  have hlower := toLower_of_isDigit hc
  have hword {w : Char} {ws : List Char} (hw : isDigit w = false) :
      (c :: rest).map Char.toLower ≠ w :: ws := by
    rw [List.map_cons, hlower]
    intro h
    rw [(List.cons.inj h).1, hw] at hc
    exact Bool.false_ne_true hc
  have hinf : ¬ ((c :: rest).map Char.toLower = "inf".toList ∨
      (c :: rest).map Char.toLower = "infinity".toList) :=
    not_or.mpr ⟨hword (by decide), hword (by decide)⟩
  have hnan : (c :: rest).map Char.toLower ≠ "nan".toList := hword (by decide)
  unfold readUnsigned?
  simp only [if_neg hinf, if_neg hnan]

/-- What starts with a digit has no sign. -/
theorem readFloat?_digit {c : Char} (hc : isDigit c = true) (rest : List Char) (negative : Bool) :
    readFloat? (String.ofList (if negative then '-' :: c :: rest else c :: rest)) =
      readUnsigned? negative (c :: rest) := by
  unfold readFloat?
  rw [String.toList_ofList]
  cases negative with
  | true => rfl
  | false =>
    simp only [Bool.false_eq_true, if_false]
    split
    · next h =>
      obtain ⟨rfl, _⟩ := List.cons.inj h
      exact absurd hc (by decide)
    · next h =>
      obtain ⟨rfl, _⟩ := List.cons.inj h
      exact absurd hc (by decide)
    · rfl

theorem plainText_cons (d : Nat) (e : Int) :
    ∃ c rest, plainText false d e = c :: rest ∧ isDigit c = true := by
  rcases plainText_cases d e with ⟨_, htext⟩ | ⟨whole, fraction, zeros, htext, hne, hdigits, _⟩
  · cases hd : digitText d with
    | nil => exact absurd hd Nat.toDigits_ne_nil
    | cons c rest =>
      rw [htext, hd]
      exact ⟨c, _, rfl, Text.isDigit_of_mem_toDigits (hd ▸ List.mem_cons_self)⟩
  · obtain ⟨c, rest, rfl⟩ := List.exists_cons_of_ne_nil hne
    have hmem : c ∈ c :: rest ++ fraction := List.mem_cons_self
    exact ⟨c, _, htext, Text.isDigit_of_mem_zeros (hdigits ▸ hmem)⟩

/-- A plain text is read as the double nearest to its number. -/
theorem readFloat?_plainText (negative : Bool) (d : Nat) (e : Int) :
    ∃ p, readFloat? (String.ofList (if negative then '-' :: plainText false d e
        else plainText false d e)) = some (nearestFloat negative p.1 p.2) ∧
      decimalRat p = decimalRat (d, e) := by
  obtain ⟨p, hp, hvalue⟩ := readDecimal?_plainText d e
  obtain ⟨c, rest, htext, hc⟩ := plainText_cons d e
  rw [htext] at hp ⊢
  rw [readFloat?_digit hc, readUnsigned?_digit negative hc, hp]
  exact ⟨p, rfl, hvalue⟩

theorem ofFloat_nearestFloat_zero (negative : Bool) (e : Int) :
    Binary64.ofFloat (nearestFloat negative 0 e) = .finite negative 0 (-1074) := by
  unfold nearestFloat
  simp only [true_or, if_true]
  cases negative <;> rfl

theorem digits_eq_zero {p : Nat × Int} (h : decimalRat p = decimalRat (0, 0)) : p.1 = 0 := by
  have hzero : (p.1 : ℚ) * 10 ^ p.2 = 0 := by
    rw [← decimalRat, h, decimalRat]
    norm_num
  rcases mul_eq_zero.mp hzero with h | h
  · exact_mod_cast h
  · exact absurd h (by positivity)

/-- The digits and the exponent that a finite double is displayed with. -/
def displayDigits (m : Nat) (q : Int) : Nat × Int := if m = 0 then (0, 0) else shortest .upward m q

section Finite
variable {x : Float} {negative : Bool} {m : Nat} {q : Int}
  (hx : Binary64.ofFloat x = .finite negative m q)
include hx

theorem display_finite :
    display x = String.ofList
      (if negative then '-' :: plainText false (displayDigits m q).1 (displayDigits m q).2
        else plainText false (displayDigits m q).1 (displayDigits m q).2) := by
  unfold display Layout.text displayDigits
  rw [hx]
  by_cases hm : m = 0
  · simp only [if_pos hm]
    rfl
  · simp only [if_neg hm]
    rfl

theorem ofFloat_nearestFloat_display {p : Nat × Int}
    (h : decimalRat p = decimalRat (displayDigits m q)) :
    Binary64.ofFloat (nearestFloat negative p.1 p.2) = .finite negative m q := by
  have hlegal := Binary64.legal_of_ofFloat hx
  unfold displayDigits at h
  rcases Nat.eq_zero_or_pos m with rfl | hm
  · have hq : q = -1074 := by
      have := hlegal.least
      have := hlegal.normal
      omega
    rw [hq, digits_eq_zero h, ofFloat_nearestFloat_zero]
  · rw [if_neg hm.ne'] at h
    have hreads : ReadsAs (p.1 * 10 ^ p.2) m q := by
      show ReadsAs (decimalRat p) m q
      rw [h]
      exact readsAs_shortest hlegal hm .upward
    exact ofFloat_nearestFloat hreads hlegal hm negative

end Finite

/-- **A double that is a number is read back from its display.** -/
theorem readFloat?_display {x : Float} (h : Binary64.ofFloat x ≠ .notNumber) :
    readFloat? (display x) = some x := by
  have hself {y : Float} (hy : Binary64.ofFloat y = Binary64.ofFloat x) : some y = some x :=
    congrArg some (Binary64.ofFloat_injective hy (hy ▸ h))
  cases hx : Binary64.ofFloat x with
  | notNumber => exact absurd hx h
  | infinite negative =>
    unfold display Layout.text
    rw [hx]
    cases negative <;> exact hself hx.symm
  | finite negative m q =>
    rw [display_finite hx]
    obtain ⟨p, hread, hvalue⟩ :=
      readFloat?_plainText negative (displayDigits m q).1 (displayDigits m q).2
    exact hread.trans (hself ((ofFloat_nearestFloat_display hx hvalue).trans hx.symm))

theorem mem_plainText {d : Nat} {e : Int} {c : Char} (h : c ∈ plainText false d e) :
    isDigit c = true ∨ c = '.' := by
  rcases plainText_cases d e with ⟨_, htext⟩ | ⟨whole, fraction, zeros, htext, _, hdigits, _⟩
  · exact .inl (isDigit_of_mem_zerosBehind (htext ▸ h))
  · rw [htext] at h
    rcases List.mem_append.mp h with h | h
    · exact .inl (Text.isDigit_of_mem_zeros (hdigits ▸ List.mem_append_left fraction h))
    · rcases List.mem_cons.mp h with rfl | h
      · exact .inr rfl
      · exact .inl (Text.isDigit_of_mem_zeros (hdigits ▸ List.mem_append_right whole h))

/-- The characters of a display that are no digits. -/
def displayMarks : List Char := ['-', '.', 'N', 'a', 'i', 'n', 'f']

theorem mem_display {x : Float} {c : Char} (h : c ∈ (display x).toList) :
    isDigit c = true ∨ c ∈ displayMarks := by
  have hword {word : String} (hx : display x = word)
      (hletters : word.toList.all (displayMarks.contains ·) = true) : c ∈ displayMarks :=
    List.contains_iff_mem.mp (List.all_eq_true.mp hletters c (hx ▸ h))
  cases hx : Binary64.ofFloat x with
  | notNumber =>
    have hname : display x = "NaN" := by
      unfold display Layout.text
      rw [hx]
    exact .inr (hword hname (by decide))
  | infinite negative =>
    have hname : display x = if negative then "-inf" else "inf" := by
      unfold display Layout.text
      rw [hx]
      cases negative <;> rfl
    exact .inr (hword hname (by cases negative <;> decide))
  | finite negative m q =>
    have hbody {d : Nat} {e : Int} (h : c ∈ plainText false d e) :
        isDigit c = true ∨ c ∈ displayMarks := by
      rcases mem_plainText h with hdigit | rfl
      · exact .inl hdigit
      · exact .inr (by decide)
    rw [display_finite hx, String.toList_ofList] at h
    split at h
    · rcases List.mem_cons.mp h with rfl | h
      · exact .inr (by decide)
      · exact hbody h
    · exact hbody h

/-- There is neither a comma nor a blank in a display. -/
theorem display_no_comma {x : Float} {c : Char} (h : c ∈ (display x).toList) :
    Text.isBlank c = false ∧ c ≠ ',' := by
  rcases mem_display h with hdigit | hmark
  · refine ⟨Text.isBlank_of_isDigit hdigit, ?_⟩
    rintro rfl
    exact absurd hdigit (by decide)
  · have hmarks : displayMarks.all (fun c => !Text.isBlank c && c != ',') = true := by decide
    have hc := List.all_eq_true.mp hmarks c hmark
    rwa [Bool.and_eq_true, Bool.not_eq_true', bne_iff_ne] at hc

end Observatory.Number
