import Observatory.Proofs.Outcomes
import Observatory.Proofs.Text.Items
import Observatory.Proofs.Time.Stored
import Observatory.Time.Interval

/-! Intervals that are written and read back.

Every interval that is read has its bounds in order, and an interval with its bounds in order is
read back from its display (`parse_display`), if its years have four digits: the strict form takes
no other. The display of an instant starts with a digit and has neither a slash nor a blank, so
the bounds are told apart from each other and from the dots of an open bound. -/
namespace Observatory

/-! ### Displays of instants -/

namespace Instant
open Text (isBlank)
open Reader

/-- A year that is written without a sign. -/
def HasPlainYear (t : Instant) : Prop := 0 ≤ t.date.year ∧ t.date.year ≤ 9999

variable {t : Instant}

theorem yearText_of_plain (h : HasPlainYear t) :
    yearText t.date.year = padded 4 t.date.year.toNat := if_pos h

/-- **An instant is read back from its display** by the strict form. -/
theorem strict?_display (h : HasPlainYear t) : strict? t.display.toList = some t := by
  have hyear : t.date.year.toNat < Nat.pow 10 4 := by
    show t.date.year.toNat < 10000
    have := h.2
    omega
  obtain ⟨hmonth, hday, hhour, hminute, hsecond⟩ := two_digits t
  have hliteral (c : Char) (cs : List Char) : literal? c (c :: cs) = some cs := if_pos rfl
  have hseparator (cs : List Char) : separator? ('T' :: cs) = some cs := rfl
  have hfraction : fraction? (fractionText t.nanosecond.val ++ "+00:00".toList) =
      some (t.nanosecond.val, "+00:00".toList) :=
    fraction?_fractionText t.nanosecond.isLt (by decide) (by decide)
  have hoffset : offset? (literal? ':') "+00:00".toList = some (0, []) := by decide
  unfold strict? display
  rw [String.toList_ofList, chars_append, yearText_of_plain h]
  -- Each part is read with what follows it left over.
  refine Option.bind_eq_some_iff.mpr ⟨_, fixed?_padded (by decide) hyear _, ?_⟩
  refine Option.bind_eq_some_iff.mpr ⟨_, hliteral _ _, ?_⟩
  refine Option.bind_eq_some_iff.mpr ⟨_, fixed?_padded (by decide) hmonth _, ?_⟩
  refine Option.bind_eq_some_iff.mpr ⟨_, hliteral _ _, ?_⟩
  refine Option.bind_eq_some_iff.mpr ⟨_, fixed?_padded (by decide) hday _, ?_⟩
  refine Option.bind_eq_some_iff.mpr ⟨_, hseparator _, ?_⟩
  refine Option.bind_eq_some_iff.mpr ⟨_, fixed?_padded (by decide) hhour _, ?_⟩
  refine Option.bind_eq_some_iff.mpr ⟨_, hliteral _ _, ?_⟩
  refine Option.bind_eq_some_iff.mpr ⟨_, fixed?_padded (by decide) hminute _, ?_⟩
  refine Option.bind_eq_some_iff.mpr ⟨_, hliteral _ _, ?_⟩
  refine Option.bind_eq_some_iff.mpr ⟨_, fixed?_padded (by decide) hsecond _, ?_⟩
  refine Option.bind_eq_some_iff.mpr ⟨_, hfraction, ?_⟩
  refine Option.bind_eq_some_iff.mpr ⟨_, hoffset, ?_⟩
  show instant? t.date.year.toNat t.date.month t.date.day t.hour t.minute t.second
    t.nanosecond 0 = _
  rw [Int.toNat_of_nonneg h.1]
  exact instant?_self t

theorem parse_display_instant (h : HasPlainYear t) : Instant.parse t.display = .ok t := by
  unfold Instant.parse read?
  simp only [strict?_display h]
  rfl

/-- Neither a blank nor a slash. -/
def IsPlain (c : Char) : Prop := isBlank c = false ∧ c ≠ '/'

instance : DecidablePred IsPlain := fun c =>
  inferInstanceAs (Decidable (isBlank c = false ∧ c ≠ '/'))

theorem isPlain_of_all {cs : List Char} (h : cs.all (fun c => IsPlain c) = true) :
    ∀ c ∈ cs, IsPlain c := fun c hc => of_decide_eq_true (List.all_eq_true.mp h c hc)

theorem isPlain_of_isDigit {c : Char} (h : Text.isDigit c = true) : IsPlain c := by
  refine ⟨Text.isBlank_of_isDigit h, ?_⟩
  rintro rfl
  exact absurd h (by decide)

theorem isPlain_padded (width n : Nat) : ∀ c ∈ padded width n, IsPlain c := fun _ hc =>
  isPlain_of_isDigit (isDigit_of_mem_padded hc)

theorem isPlain_yearText (year : Int) : ∀ c ∈ yearText year, IsPlain c := by
  unfold yearText
  split
  · exact isPlain_padded _ _
  · refine List.forall_mem_cons.mpr ⟨?_, isPlain_padded _ _⟩
    split <;> decide

theorem isPlain_fractionText (n : Nat) : ∀ c ∈ fractionText n, IsPlain c := by
  have hpoint : IsPlain '.' := by decide
  unfold fractionText
  split_ifs
  · exact fun _ => nofun
  · exact List.forall_mem_cons.mpr ⟨hpoint, isPlain_padded _ _⟩
  · exact List.forall_mem_cons.mpr ⟨hpoint, isPlain_padded _ _⟩
  · exact List.forall_mem_cons.mpr ⟨hpoint, isPlain_padded _ _⟩

/-- There is neither a blank nor a slash in a display. -/
theorem isPlain_display (t : Instant) : ∀ c ∈ t.display.toList, IsPlain c := by
  have hdash : IsPlain '-' := by decide
  have hcolon : IsPlain ':' := by decide
  have hseparator : IsPlain 'T' := by decide
  have hoffset : ∀ c ∈ "+00:00".toList, IsPlain c := isPlain_of_all (by decide)
  unfold display
  rw [String.toList_ofList, chars_append]
  simp only [List.forall_mem_append, List.forall_mem_cons]
  exact ⟨isPlain_yearText _, hdash, isPlain_padded _ _, hdash, isPlain_padded _ _, hseparator,
    isPlain_padded _ _, hcolon, isPlain_padded _ _, hcolon, isPlain_padded _ _,
    isPlain_fractionText _, hoffset⟩

/-- The display of a plain year starts with a digit. -/
theorem display_cons (h : HasPlainYear t) :
    ∃ c rest, t.display.toList = c :: rest ∧ Text.isDigit c = true := by
  obtain ⟨c, cs, hcons, hc⟩ := padded_eq_cons 4 t.date.year.toNat
  unfold display
  rw [String.toList_ofList, chars_append, yearText_of_plain h, hcons]
  exact ⟨c, _, rfl, hc⟩

end Instant

/-! ### Displays of intervals -/

namespace TimeInterval
open Instant (HasPlainYear IsPlain)
open Outcomes

theorem isPlain_boundText (bound : Option Instant) : ∀ c ∈ (boundText bound).toList, IsPlain c := by
  cases bound with
  | none => exact Instant.isPlain_of_all (by decide)
  | some t => exact t.isPlain_display

theorem parseBound_boundText {bound : Option Instant} (h : ∀ t ∈ bound, HasPlainYear t) :
    parseBound (boundText bound).toList = .ok bound := by
  have htrim : Text.trimChars (boundText bound).toList = (boundText bound).toList :=
    Text.trimChars_of_forall fun c hc => (isPlain_boundText bound c hc).1
  unfold parseBound
  rw [htrim, String.ofList_toList]
  cases bound with
  | none => rfl
  | some t =>
    have hyear := h t rfl
    obtain ⟨c, rest, hcons, hc⟩ := Instant.display_cons hyear
    have hgiven : ¬ (boundText (some t) = "" ∨ boundText (some t) = "..") := by
      rintro (hempty | hdots)
      · exact List.cons_ne_nil c rest (hcons.symm.trans (congrArg String.toList hempty))
      · have hpoint : c = '.' :=
          (List.cons.inj (hcons.symm.trans (congrArg String.toList hdots))).1
        exact absurd hc (by rw [hpoint]; decide)
    rw [if_neg hgiven]
    show Except.map some (Instant.parse t.display) = _
    rw [Instant.parse_display_instant hyear]
    rfl

/-- The bounds of an interval, where both are given, are in order. -/
theorem isOrdered_iff {i : TimeInterval} :
    i.isOrdered = true ↔ ∀ a b, i.start = some a → i.stop = some b → a ≤ b := by
  unfold isOrdered
  split
  · next a b ha hb =>
    rw [decide_eq_true_eq]
    constructor
    · intro h a' b' ha' hb'
      rw [Option.some.inj (ha'.symm.trans ha), Option.some.inj (hb'.symm.trans hb)]
      exact h
    · intro h
      exact h a b ha hb
  · next hbounds => exact iff_of_true rfl fun a b ha hb => (hbounds a b ha hb).elim

theorem isOrdered_of_parse {s : String} {i : TimeInterval} (h : parse s = .ok i) :
    i.isOrdered = true := by
  unfold parse at h
  rcases hcut : Text.cut '/' (Text.trim s).toList with ⟨first, _ | second⟩
  · simp only [hcut] at h
    obtain ⟨t, _, rfl⟩ := exists_of_map_ok h
    exact decide_eq_true (Int.le_refl t.ordinal)
  · simp only [hcut] at h
    obtain ⟨start, _, h⟩ := exists_of_bind_ok h
    obtain ⟨stop, _, h⟩ := exists_of_bind_ok h
    split at h
    · next hordered =>
      obtain rfl := Except.ok.inj h
      exact hordered
    · exact nomatch h

/-- An interval with its bounds in order is read back from its display. -/
theorem parse_display {i : TimeInterval} (hstart : ∀ t ∈ i.start, HasPlainYear t)
    (hstop : ∀ t ∈ i.stop, HasPlainYear t) (hordered : i.isOrdered = true) :
    parse i.display = .ok i := by
  have hchars : i.display.toList =
      (boundText i.start).toList ++ '/' :: (boundText i.stop).toList := by simp [display]
  have hplain : ∀ c ∈ i.display.toList, Text.isBlank c = false := by
    rw [hchars]
    refine List.forall_mem_append.mpr ⟨fun c hc => (isPlain_boundText _ c hc).1, ?_⟩
    exact List.forall_mem_cons.mpr ⟨by decide, fun c hc => (isPlain_boundText _ c hc).1⟩
  have htrim : Text.trim i.display = i.display := by
    rw [Text.trim, Text.trimChars_of_forall hplain, String.ofList_toList]
  have hcut : Text.cut '/' i.display.toList =
      ((boundText i.start).toList, some (boundText i.stop).toList) := by
    rw [hchars]
    exact Text.cut_append (fun hmem => (isPlain_boundText i.start _ hmem).2 rfl) _
  unfold parse
  simp only [htrim, hcut, parseBound_boundText hstart, parseBound_boundText hstop]
  exact if_pos hordered

/-- **Intervals that are read are in order, and intervals in order are read back** from their
displays, with one bound, with two or with none: fractions and leap seconds are kept. -/
theorem parse_ordered_display :
    (∀ s i, parse s = .ok i → ∀ a b, i.start = some a → i.stop = some b → a ≤ b) ∧
      ∀ i : TimeInterval,
        (∀ t, i.start = some t ∨ i.stop = some t → 0 ≤ t.date.year ∧ t.date.year ≤ 9999) →
          (∀ a b, i.start = some a → i.stop = some b → a ≤ b) → parse i.display = .ok i :=
  ⟨fun _ _ h => isOrdered_iff.mp (isOrdered_of_parse h),
    fun _ hyears hordered => parse_display (fun t ht => hyears t (.inl ht))
      (fun t ht => hyears t (.inr ht)) (isOrdered_iff.mpr hordered)⟩

/-- The middle of a leap second. -/
def leapSecond : Instant :=
  (Instant.Reader.instant? 2016 12 31 23 59 60 500000000 0).get (by decide)

/-- The midnight after it. -/
def newYear : Instant := (Instant.Reader.instant? 2017 1 1 0 0 0 0 0).get (by decide)

theorem parse_ordered_leapSecond :
    parse "2016-12-31T23:59:60.5Z / 2017-01-01" = .ok ⟨some leapSecond, some newYear⟩ ∧
      leapSecond ≤ newYear ∧
      parse (display ⟨some leapSecond, some newYear⟩) = .ok ⟨some leapSecond, some newYear⟩ ∧
      parse (display ⟨none, some leapSecond⟩) = .ok ⟨none, some leapSecond⟩ := by
  have hread : parse "2016-12-31T23:59:60.5Z / 2017-01-01" =
      .ok ⟨some leapSecond, some newYear⟩ := by decide +kernel
  have hordered : leapSecond ≤ newYear := parse_ordered_display.1 _ _ hread _ _ rfl rfl
  refine ⟨hread, hordered, parse_ordered_display.2 _ ?_ ?_, parse_ordered_display.2 _ ?_ ?_⟩
  · rintro t (ht | ht) <;> obtain rfl := Option.some.inj ht <;> decide
  · rintro a b ha hb
    obtain rfl := Option.some.inj ha
    obtain rfl := Option.some.inj hb
    exact hordered
  · rintro t (ht | ht)
    · exact nomatch ht
    · obtain rfl := Option.some.inj ht
      decide
  · exact fun _ _ => nofun

end TimeInterval
end Observatory
