import Observatory.Proofs.Text.Numeral
import Observatory.Time.Printer
import Observatory.Time.Reader

/-! Stored instants.

Every instant is read back from its written form (`readStored?_text`): years of any number
of digits, leap seconds, and fractions with as few groups of digits as they need. Each part
of the form is read back whatever follows it, so the parts are read one after the other. -/
namespace Observatory.Instant
open Text (isBlank trimStart)
open Reader

/-! ### Numbers of fixed width -/

theorem isDigit_of_mem_padded {width n : Nat} {c : Char} (h : c ∈ padded width n) :
    Text.isDigit c = true := Text.isDigit_of_mem_zeros h

theorem digits?_padded (width n : Nat) : Text.digits? 10 (padded width n) = some n :=
  Text.digits?_zeros _ n

theorem padded_eq_cons (width n : Nat) :
    ∃ c cs, padded width n = c :: cs ∧ Text.isDigit c = true := by
  cases h : padded width n with
  | nil => exact absurd (List.append_eq_nil_iff.mp h).2 Nat.toDigits_ne_nil
  | cons c cs => exact ⟨c, cs, rfl, isDigit_of_mem_padded (h ▸ List.mem_cons_self)⟩

theorem length_padded {width n : Nat} (hwidth : 0 < width) (h : n < Nat.pow 10 width) :
    (padded width n).length = width := by
  have hle : (Nat.toDigits 10 n).length ≤ width :=
    (Nat.length_toDigits_le_iff (by decide) hwidth).mpr h
  show (List.replicate (width - _) '0' ++ _).length = width
  rw [List.length_append, List.length_replicate]
  omega

theorem trimStart_cons {c : Char} (h : isBlank c = false) (rest : List Char) :
    trimStart (c :: rest) = c :: rest :=
  List.dropWhile_cons_of_neg (by rw [h]; exact Bool.false_ne_true)

theorem literal?_trimStart {c : Char} (h : isBlank c = false) (rest : List Char) :
    literal? c (trimStart (c :: rest)) = some rest := by
  rw [trimStart_cons h]
  exact if_pos rfl

/-- No blanks stand in front of a digit. -/
theorem trimStart_digit {c : Char} (h : Text.isDigit c = true) (rest : List Char) :
    trimStart (c :: rest) = c :: rest := trimStart_cons (Text.isBlank_of_isDigit h) rest

/-- Digits end where something else follows. -/
theorem takeWhile_padded (width n : Nat) {rest : List Char}
    (hrest : rest.takeWhile Text.isDigit = []) :
    (padded width n ++ rest).takeWhile Text.isDigit = padded width n :=
  Text.takeWhile_isDigit_append (fun _ => isDigit_of_mem_padded) hrest

theorem length_padded_pos (width n : Nat) : 1 ≤ (padded width n).length := by
  obtain ⟨c, cs, hcons, _⟩ := padded_eq_cons width n
  rw [hcons, List.length_cons]
  omega

/-- Leading digits, if they are enough, are read as the number that they are written for. -/
theorem number?_of_leadingDigits {least width n : Nat} {most : Option Nat} {rest : List Char}
    (hleast : least ≤ (padded width n).length)
    (h : leadingDigits most (padded width n ++ rest) = padded width n) :
    number? least most (padded width n ++ rest) = some (n, rest) := by
  unfold number?
  rw [h]
  show (if (padded width n).length < least then none else _) = _
  rw [if_neg (not_lt.mpr hleast), digits?_padded, Option.map_some, List.drop_left]

theorem number?_padded (width n : Nat) {rest : List Char}
    (hrest : rest.takeWhile Text.isDigit = []) :
    number? 1 none (padded width n ++ rest) = some (n, rest) :=
  number?_of_leadingDigits (length_padded_pos width n) (takeWhile_padded width n hrest)

/-- A number as wide as it may be ends there, whatever follows. -/
theorem leadingDigits_width {width n : Nat} (hwidth : 0 < width) (h : n < Nat.pow 10 width)
    (rest : List Char) :
    leadingDigits (some width) (padded width n ++ rest) = padded width n := by
  show ((padded width n ++ rest).take width).takeWhile Text.isDigit = padded width n
  rw [List.take_left' (length_padded hwidth h)]
  exact List.takeWhile_eq_self_iff.mpr fun c => isDigit_of_mem_padded

theorem number?_width {width n : Nat} (hwidth : 0 < width) (h : n < Nat.pow 10 width)
    (rest : List Char) : number? 1 (some width) (padded width n ++ rest) = some (n, rest) :=
  number?_of_leadingDigits (length_padded_pos width n) (leadingDigits_width hwidth h rest)

/-- A number of a fixed width is read back whatever follows. -/
theorem fixed?_padded {width n : Nat} (hwidth : 0 < width) (h : n < Nat.pow 10 width)
    (rest : List Char) : fixed? width (padded width n ++ rest) = some (n, rest) :=
  number?_of_leadingDigits (length_padded hwidth h).ge (leadingDigits_width hwidth h rest)

theorem short?_padded {n : Nat} (h : n < 100) (rest : List Char) :
    short? (padded 2 n ++ rest) = some (n, rest) := by
  have hnumber : number? 1 (some 2) (padded 2 n ++ rest) = some (n, rest) :=
    number?_width (by decide) h rest
  obtain ⟨c, cs, hcons, hc⟩ := padded_eq_cons 2 n
  rw [hcons] at hnumber ⊢
  rw [List.cons_append] at hnumber ⊢
  rw [short?, trimStart_digit hc, hnumber]

/-! ### Years -/

/-- A year that starts with a digit has at most four. -/
theorem year?_digit {c : Char} (hc : Text.isDigit c = true) (rest : List Char) :
    year? (c :: rest) = (number? 1 (some 4) (c :: rest)).map fun (n, more) => ((n : Int), more) := by
  unfold year?
  rw [trimStart_digit hc]
  split
  · next h =>
    obtain ⟨rfl, _⟩ := List.cons.inj h
    exact absurd hc (by decide)
  · next h =>
    obtain ⟨rfl, _⟩ := List.cons.inj h
    exact absurd hc (by decide)
  · rfl

theorem year?_yearText (year : Int) {rest : List Char}
    (hrest : rest.takeWhile Text.isDigit = []) :
    year? (yearText year ++ rest) = some (year, rest) := by
  unfold yearText
  by_cases h : 0 ≤ year ∧ year ≤ 9999
  · have hnumber : number? 1 (some 4) (padded 4 year.toNat ++ rest) = some (year.toNat, rest) :=
      number?_width (by decide) (show year.toNat < 10000 by omega) rest
    obtain ⟨c, cs, hcons, hc⟩ := padded_eq_cons 4 year.toNat
    rw [hcons, List.cons_append] at hnumber
    rw [if_pos h, hcons, List.cons_append, year?_digit hc, hnumber]
    show some (((year.toNat : Nat) : Int), rest) = _
    rw [Int.toNat_of_nonneg h.1]
  · have hnumber := number?_padded 4 year.natAbs hrest
    rw [if_neg h]
    by_cases hnegative : year < 0
    · rw [if_pos hnegative]
      show (number? 1 none (padded 4 year.natAbs ++ rest)).map _ = _
      rw [hnumber]
      show some (-((year.natAbs : Nat) : Int), rest) = _
      rw [Int.ofNat_natAbs_of_nonpos (by omega), Int.neg_neg]
    · rw [if_neg hnegative]
      show (number? 1 none (padded 4 year.natAbs ++ rest)).map _ = _
      rw [hnumber]
      show some (((year.natAbs : Nat) : Int), rest) = _
      rw [Int.natAbs_of_nonneg (by omega)]

/-! ### Fractions -/

theorem nanoseconds?_padded {width n : Nat} (hwidth : 0 < width ∧ width ≤ 9)
    (h : n < Nat.pow 10 width) :
    nanoseconds? (padded width n) = some (n * Nat.pow 10 (9 - width)) := by
  have hlength := length_padded hwidth.1 h
  unfold nanoseconds?
  rw [List.take_of_length_le (by omega)]
  show (Text.digits? 10 (padded width n)).map _ = _
  rw [digits?_padded, hlength]
  rfl

theorem fraction?_padded {width n : Nat} (hwidth : 0 < width ∧ width ≤ 9)
    (h : n < Nat.pow 10 width) {rest : List Char} (hrest : rest.takeWhile Text.isDigit = []) :
    fraction? ('.' :: (padded width n ++ rest)) = some (n * Nat.pow 10 (9 - width), rest) := by
  have hdrop : (padded width n ++ rest).dropWhile Text.isDigit = rest :=
    Text.dropWhile_isDigit_append (fun _ => isDigit_of_mem_padded) hrest
  show (nanoseconds? ((padded width n ++ rest).takeWhile Text.isDigit)).map _ = _
  rw [takeWhile_padded width n hrest, nanoseconds?_padded hwidth h, hdrop]
  rfl

/-- Nanoseconds are read back from as few groups of digits as they need. -/
theorem fraction?_fractionText {n : Nat} (h : n < 1000000000) {c : Char} {rest : List Char}
    (hdigit : Text.isDigit c = false) (hpoint : c ≠ '.') :
    fraction? (fractionText n ++ c :: rest) = some (n, c :: rest) := by
  have hrest : (c :: rest).takeWhile Text.isDigit = [] :=
    List.takeWhile_cons_of_neg (by rw [hdigit]; exact Bool.false_ne_true)
  unfold fractionText
  by_cases hzero : n = 0
  · rw [if_pos hzero, hzero, List.nil_append]
    unfold fraction?
    split
    · next h => exact absurd (List.cons.inj h).1 hpoint
    · rfl
  rw [if_neg hzero]
  by_cases hmilli : n % 1000000 = 0
  · have hlt : n / 1000000 < 1000 := by omega
    rw [if_pos hmilli, List.cons_append, fraction?_padded (by decide) hlt hrest]
    show some (n / 1000000 * 1000000, _) = _
    rw [Nat.div_mul_cancel (Nat.dvd_of_mod_eq_zero hmilli)]
  rw [if_neg hmilli]
  by_cases hmicro : n % 1000 = 0
  · have hlt : n / 1000 < 1000000 := by omega
    rw [if_pos hmicro, List.cons_append, fraction?_padded (by decide) hlt hrest]
    show some (n / 1000 * 1000, _) = _
    rw [Nat.div_mul_cancel (Nat.dvd_of_mod_eq_zero hmicro)]
  · rw [if_neg hmicro, List.cons_append, fraction?_padded (by decide) h hrest]
    show some (n * 1, _) = _
    rw [Nat.mul_one]

/-! ### Instants -/

/-- No minutes earlier is the same instant. -/
theorem minutesEarlier?_zero (t : Instant) : t.minutesEarlier? 0 = some t := by
  have hhour := t.hour.isLt
  have hminute := t.minute.isLt
  unfold minutesEarlier?
  have hfirst : ¬ ((t.hour.val * 60 + t.minute.val : Int) - 0 < 0) := by omega
  have hlast : ¬ (1440 ≤ (t.hour.val * 60 + t.minute.val : Int) - 0) := by omega
  have htotal : ((t.hour.val * 60 + t.minute.val : Int) - 0).toNat =
      t.hour.val * 60 + t.minute.val := by
    omega
  simp only [if_neg hfirst, if_neg hlast, htotal, Option.map_some]
  have hhours : Fin.ofNat 24 ((t.hour.val * 60 + t.minute.val) / 60) = t.hour := by
    ext
    show (t.hour.val * 60 + t.minute.val) / 60 % 24 = t.hour.val
    omega
  have hminutes : Fin.ofNat 60 ((t.hour.val * 60 + t.minute.val) % 60) = t.minute := by
    ext
    show (t.hour.val * 60 + t.minute.val) % 60 % 60 = t.minute.val
    omega
  rw [hhours, hminutes]

theorem of?_self (d : Date) : Date.of? d.year d.month d.day = some d := by
  unfold Date.of?
  rw [dif_pos ⟨d.year_range, d.month_range, d.day_range⟩]

theorem instant?_self (t : Instant) :
    instant? t.date.year t.date.month t.date.day t.hour t.minute t.second t.nanosecond 0 =
      some t := by
  unfold instant?
  rw [of?_self]
  show (if h : _ then _ else none) = _
  rw [dif_pos ⟨t.hour.isLt, t.minute.isLt, t.second.isLt, t.nanosecond.isLt⟩]
  exact minutesEarlier?_zero t

theorem day_lt (d : Date) : d.day < 100 := by
  have hday := d.day_range.2
  have hdays : daysIn d.year d.month ≤ 31 := by
    unfold daysIn
    split
    · split <;> omega
    · split <;> omega
  omega

/-- All numbers of an instant between its year and its fraction have two digits. -/
theorem two_digits (t : Instant) :
    t.date.month < 100 ∧ t.date.day < 100 ∧ t.hour.val < 100 ∧ t.minute.val < 100 ∧
      t.second.val < 100 := by
  have hmonth := t.date.month_range
  have hday := day_lt t.date
  omega

theorem chars_append (t : Instant) (rest : List Char) :
    t.chars ++ rest =
      yearText t.date.year ++ '-' :: (padded 2 t.date.month ++ '-' :: (padded 2 t.date.day ++
        'T' :: (padded 2 t.hour.val ++ ':' :: (padded 2 t.minute.val ++ ':' ::
          (padded 2 t.second.val ++ (fractionText t.nanosecond.val ++ rest)))))) := by
  simp [chars]

/-- **Every instant is read back from its written form.** -/
theorem readStored?_text (t : Instant) : readStored? t.text = some t := by
  obtain ⟨hmonth, hday, hhour, hminute, hsecond⟩ := two_digits t
  have hdash (cs : List Char) : literal? '-' (trimStart ('-' :: cs)) = some cs :=
    literal?_trimStart (by decide) cs
  have hcolon (cs : List Char) : literal? ':' (trimStart (':' :: cs)) = some cs :=
    literal?_trimStart (by decide) cs
  have hseparator (cs : List Char) : separator? ('T' :: cs) = some cs := rfl
  have hfraction : fraction? (fractionText t.nanosecond.val ++ ['Z']) =
      some (t.nanosecond.val, ['Z']) :=
    fraction?_fractionText t.nanosecond.isLt (by decide) (by decide)
  unfold readStored? text lenient?
  rw [String.toList_ofList, chars_append]
  -- Each part is read with what follows it left over.
  refine Option.bind_eq_some_iff.mpr ⟨_, year?_yearText t.date.year (by rfl), ?_⟩
  refine Option.bind_eq_some_iff.mpr ⟨_, hdash _, ?_⟩
  refine Option.bind_eq_some_iff.mpr ⟨_, short?_padded hmonth _, ?_⟩
  refine Option.bind_eq_some_iff.mpr ⟨_, hdash _, ?_⟩
  refine Option.bind_eq_some_iff.mpr ⟨_, short?_padded hday _, ?_⟩
  refine Option.bind_eq_some_iff.mpr ⟨_, hseparator _, ?_⟩
  refine Option.bind_eq_some_iff.mpr ⟨_, short?_padded hhour _, ?_⟩
  refine Option.bind_eq_some_iff.mpr ⟨_, hcolon _, ?_⟩
  refine Option.bind_eq_some_iff.mpr ⟨_, short?_padded hminute _, ?_⟩
  refine Option.bind_eq_some_iff.mpr ⟨_, hcolon _, ?_⟩
  refine Option.bind_eq_some_iff.mpr ⟨_, short?_padded hsecond _, ?_⟩
  refine Option.bind_eq_some_iff.mpr ⟨_, hfraction, ?_⟩
  exact instant?_self t

end Observatory.Instant
