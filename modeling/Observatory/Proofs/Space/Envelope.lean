import Observatory.Proofs.Number.Reading
import Observatory.Proofs.Text.Items
import Observatory.Space.Envelope

/-! Envelopes that are written and read back.

What a text is read as is settled by its commas, then by its first part that is no double, then
by the order of the corners (`parse_outcome`). Where every part is a number the corners that are
accepted are in order (`parse_wellFormed`); something that is not a number exceeds nothing, so it
is accepted as a corner (`parse_notNumber`). An envelope with its corners in order is read back
from its display, whatever blanks stand around the commas (`parse_display_padded`). -/
namespace Observatory.Envelope
open Number (readFloat? IsDouble isSome_readFloat?_iff)
open Number.Binary64 (ofFloat le_iff_not_lt ne_notNumber_of_le not_lt_self)
open Text (commaPieces Padded)

/-- The texts are read as the coordinates, lower corner first. -/
def Reads (parts : List String) (e : Envelope Float) : Prop :=
  parts.map readFloat? = [some e.minX, some e.minY, some e.maxX, some e.maxY]

/-- One corner exceeds the other. -/
def Inverted (e : Envelope Float) : Prop := e.maxX < e.minX ∨ e.maxY < e.minY

/-! ### What a text is read as -/

/-- The first of the parts that is no double. -/
def firstInvalid? (parts : List String) : Option String :=
  parts.find? fun part => (readFloat? part).isNone

/-- What is said about a text with those parts. -/
inductive Outcome (s : String) (parts : List String) :
    Except ParseError (Envelope Float) → Prop where
  | invalidFormat : parts.length ≠ 4 → Outcome s parts (.error (.invalidFormat s))
  | invalidNumber {part : String} :
    parts.length = 4 → firstInvalid? parts = some part →
      Outcome s parts (.error (.invalidNumber part))
  | invertedCorners {e : Envelope Float} :
    Reads parts e → Inverted e → Outcome s parts (.error (.invertedCorners s))
  | ok {e : Envelope Float} : Reads parts e → ¬ Inverted e → Outcome s parts (.ok e)

theorem isNone_readFloat?_iff {part : String} :
    (readFloat? part).isNone = true ↔ ¬ IsDouble part.toList := by
  rw [← isSome_readFloat?_iff, Option.isNone_iff_eq_none, Option.not_isSome_iff_eq_none]

theorem firstInvalid?_eq_some_iff {parts : List String} {part : String} :
    firstInvalid? parts = some part ↔
      ∃ before after, parts = before ++ part :: after ∧ (∀ p ∈ before, IsDouble p.toList) ∧
        ¬ IsDouble part.toList := by
  have hdouble (p : String) : (!(readFloat? p).isNone) = true ↔ IsDouble p.toList := by
    rw [Bool.not_eq_true', ← Bool.not_eq_true, isNone_readFloat?_iff, not_not]
  unfold firstInvalid?
  rw [List.find?_eq_some_iff_append, isNone_readFloat?_iff]
  simp only [hdouble]
  constructor
  · rintro ⟨hpart, before, after, hparts, hbefore⟩
    exact ⟨before, after, hparts, hbefore, hpart⟩
  · rintro ⟨before, after, hparts, hbefore, hpart⟩
    exact ⟨hpart, before, after, hparts, hbefore⟩

/-- A coordinate is read, or it is the first part that is no double. -/
theorem outcome_bind {s : String} {parts before after : List String} {part : String}
    {next : Float → Except ParseError (Envelope Float)} (hlength : parts.length = 4)
    (hparts : parts = before ++ part :: after) (hbefore : ∀ p ∈ before, IsDouble p.toList)
    (hnext : ∀ x, readFloat? part = some x → Outcome s parts (next x)) :
    Outcome s parts (parseCoordinate part >>= next) := by
  unfold parseCoordinate
  cases hread : readFloat? part with
  | some x => exact hnext x hread
  | none =>
    have hpart : ¬ IsDouble part.toList := isNone_readFloat?_iff.mp (hread ▸ rfl)
    exact .invalidNumber hlength
      (firstInvalid?_eq_some_iff.mpr ⟨before, after, hparts, hbefore, hpart⟩)

theorem parse_outcome (s : String) : Outcome s (commaPieces s) (parse s) := by
  unfold parse
  split
  · next a b c d hparts =>
    rw [hparts]
    -- Each part is read with those before it read already.
    refine outcome_bind rfl (List.nil_append _).symm (fun _ => nofun) fun minX ha => ?_
    have ha' := Number.isDouble_of_readFloat? ha
    refine outcome_bind rfl (show _ = [a] ++ _ from rfl) (by simpa using ha') fun minY hb => ?_
    have hb' := Number.isDouble_of_readFloat? hb
    refine outcome_bind rfl (show _ = [a, b] ++ _ from rfl) (by simpa using ⟨ha', hb'⟩)
      fun maxX hc => ?_
    have hc' := Number.isDouble_of_readFloat? hc
    refine outcome_bind rfl (show _ = [a, b, c] ++ _ from rfl) (by simpa using ⟨ha', hb', hc'⟩)
      fun maxY hd => ?_
    have hreads : Reads [a, b, c, d] ⟨minX, minY, maxX, maxY⟩ := by
      simp only [Reads, List.map_cons, List.map_nil, ha, hb, hc, hd]
    split
    · next h => exact .invertedCorners hreads h
    · next h => exact .ok hreads h
  · next hparts =>
    refine .invalidFormat fun hlength => ?_
    match h : commaPieces s, hlength with
    | [a, b, c, d], _ => exact hparts a b c d h

/-- The parts of a text are four if it has three commas. -/
theorem length_commaPieces (s : String) : (commaPieces s).length = s.toList.count ',' + 1 := by
  rw [commaPieces, List.length_map, Text.length_pieces]

theorem Reads.length {parts : List String} {e : Envelope Float} (h : Reads parts e) :
    parts.length = 4 := by
  have hlength := congrArg List.length h
  rwa [List.length_map] at hlength

theorem Reads.unique {parts : List String} {e e' : Envelope Float} (h : Reads parts e)
    (h' : Reads parts e') : e = e' := by
  have hcoordinates := h.symm.trans h'
  simp only [List.cons.injEq, Option.some.injEq, and_true] at hcoordinates
  obtain ⟨hminX, hminY, hmaxX, hmaxY⟩ := hcoordinates
  cases e
  cases e'
  simp_all

theorem Reads.firstInvalid?_eq {parts : List String} {e : Envelope Float} (h : Reads parts e) :
    firstInvalid? parts = none := by
  refine List.find?_eq_none.mpr fun p hp hnone => ?_
  have hread : readFloat? p ∈ parts.map readFloat? := List.mem_map_of_mem hp
  rw [h, Option.isNone_iff_eq_none.mp hnone] at hread
  simp at hread

/-- What is said about a text is said about no other outcome. -/
theorem Outcome.unique {s : String} {parts : List String}
    {r r' : Except ParseError (Envelope Float)} (h : Outcome s parts r) (h' : Outcome s parts r') : r = r' := by
  cases h with
  | invalidFormat hlength =>
    cases h' with
    | invalidFormat _ => rfl
    | invalidNumber hlength' _ => exact absurd hlength' hlength
    | invertedCorners hreads _ => exact absurd hreads.length hlength
    | ok hreads _ => exact absurd hreads.length hlength
  | invalidNumber hlength hfirst =>
    cases h' with
    | invalidFormat hlength' => exact absurd hlength hlength'
    | invalidNumber _ hfirst' => rw [Option.some.inj (hfirst.symm.trans hfirst')]
    | invertedCorners hreads _ => exact nomatch hfirst.symm.trans hreads.firstInvalid?_eq
    | ok hreads _ => exact nomatch hfirst.symm.trans hreads.firstInvalid?_eq
  | invertedCorners hreads hinverted =>
    cases h' with
    | invalidFormat hlength => exact absurd hreads.length hlength
    | invalidNumber _ hfirst => exact nomatch hfirst.symm.trans hreads.firstInvalid?_eq
    | invertedCorners _ _ => rfl
    | ok hreads' hordered => exact absurd (hreads.unique hreads' ▸ hinverted) hordered
  | ok hreads hordered =>
    cases h' with
    | invalidFormat hlength => exact absurd hreads.length hlength
    | invalidNumber _ hfirst => exact nomatch hfirst.symm.trans hreads.firstInvalid?_eq
    | invertedCorners hreads' hinverted => exact absurd (hreads'.unique hreads ▸ hinverted) hordered
    | ok hreads' _ => rw [hreads.unique hreads']

/-- A text is read as what is said about it. -/
theorem parse_eq_iff {s : String} {r : Except ParseError (Envelope Float)} :
    parse s = r ↔ Outcome s (commaPieces s) r :=
  ⟨fun h => h ▸ parse_outcome s, (parse_outcome s).unique⟩

section Iff
variable {s t part : String} {e : Envelope Float}

theorem parse_invalidFormat_iff :
    parse s = .error (.invalidFormat t) ↔ t = s ∧ s.toList.count ',' ≠ 3 := by
  have hlength : (commaPieces s).length ≠ 4 ↔ s.toList.count ',' ≠ 3 := by
    rw [length_commaPieces]
    omega
  rw [parse_eq_iff, ← hlength]
  constructor
  · intro h
    cases h with
    | invalidFormat h => exact ⟨rfl, h⟩
  · rintro ⟨rfl, h⟩
    exact .invalidFormat h

theorem parse_invalidNumber_iff :
    parse s = .error (.invalidNumber part) ↔
      s.toList.count ',' = 3 ∧ ∃ before after, commaPieces s = before ++ part :: after ∧
        (∀ p ∈ before, IsDouble p.toList) ∧ ¬ IsDouble part.toList := by
  have hlength : (commaPieces s).length = 4 ↔ s.toList.count ',' = 3 := by
    rw [length_commaPieces]
    omega
  rw [parse_eq_iff, ← hlength, ← firstInvalid?_eq_some_iff]
  constructor
  · intro h
    cases h with
    | invalidNumber hlength hfirst => exact ⟨hlength, hfirst⟩
  · rintro ⟨hlength, hfirst⟩
    exact .invalidNumber hlength hfirst

theorem parse_invertedCorners_iff :
    parse s = .error (.invertedCorners t) ↔
      t = s ∧ ∃ e, Reads (commaPieces s) e ∧ Inverted e := by
  rw [parse_eq_iff]
  constructor
  · intro h
    cases h with
    | invertedCorners hreads hinverted => exact ⟨rfl, _, hreads, hinverted⟩
  · rintro ⟨rfl, e, hreads, hinverted⟩
    exact .invertedCorners hreads hinverted

theorem parse_ok_iff : parse s = .ok e ↔ Reads (commaPieces s) e ∧ ¬ Inverted e := by
  rw [parse_eq_iff]
  constructor
  · intro h
    cases h with
    | ok hreads hordered => exact ⟨hreads, hordered⟩
  · rintro ⟨hreads, hordered⟩
    exact .ok hreads hordered

end Iff

/-! ### Corners in order -/

/-- The lower corner is below the upper one, so all coordinates are numbers. -/
structure IsOrdered (e : Envelope Float) : Prop where
  x : e.minX ≤ e.maxX
  y : e.minY ≤ e.maxY

section Ordered
variable {e : Envelope Float}

/-- Where all coordinates are numbers, the corners are in order or they are inverted. -/
theorem isOrdered_iff (hnumbers : ∀ x ∈ [e.minX, e.minY, e.maxX, e.maxY], ofFloat x ≠ .notNumber) :
    IsOrdered e ↔ ¬ Inverted e := by
  have hx : e.minX ≤ e.maxX ↔ ¬ e.maxX < e.minX :=
    le_iff_not_lt (hnumbers _ (by simp)) (hnumbers _ (by simp))
  have hy : e.minY ≤ e.maxY ↔ ¬ e.maxY < e.minY :=
    le_iff_not_lt (hnumbers _ (by simp)) (hnumbers _ (by simp))
  unfold Inverted
  rw [not_or, ← hx, ← hy]
  exact ⟨fun h => ⟨h.x, h.y⟩, fun h => ⟨h.1, h.2⟩⟩

theorem IsOrdered.not_inverted (h : IsOrdered e) : ¬ Inverted e := by
  obtain ⟨hminX, hmaxX⟩ := ne_notNumber_of_le h.x
  obtain ⟨hminY, hmaxY⟩ := ne_notNumber_of_le h.y
  exact (isOrdered_iff (by simpa using ⟨hminX, hminY, hmaxX, hmaxY⟩)).mp h

/-- An envelope whose corners are in order contains all four of its corners. -/
theorem IsOrdered.contains_corners (h : IsOrdered e) {x y : Float} (hx : x = e.minX ∨ x = e.maxX)
    (hy : y = e.minY ∨ y = e.maxY) : e.containsPoint x y = true := by
  have hself {x : Float} (hx : ofFloat x ≠ .notNumber) : x ≤ x :=
    (le_iff_not_lt hx hx).mpr (not_lt_self x)
  obtain ⟨hminX, hmaxX⟩ := ne_notNumber_of_le h.x
  obtain ⟨hminY, hmaxY⟩ := ne_notNumber_of_le h.y
  have hx' : e.minX ≤ x ∧ x ≤ e.maxX := by
    rcases hx with rfl | rfl
    · exact ⟨hself hminX, h.x⟩
    · exact ⟨h.x, hself hmaxX⟩
  have hy' : e.minY ≤ y ∧ y ≤ e.maxY := by
    rcases hy with rfl | rfl
    · exact ⟨hself hminY, h.y⟩
    · exact ⟨h.y, hself hmaxY⟩
  simp only [containsPoint, Bool.and_eq_true, decide_eq_true_eq]
  exact ⟨⟨⟨hx'.1, hx'.2⟩, hy'.1⟩, hy'.2⟩

theorem Reads.numbers {parts : List String} (h : Reads parts e)
    (hnumbers : ∀ part ∈ parts, ∀ x, readFloat? part = some x → ofFloat x ≠ .notNumber) :
    ∀ x ∈ [e.minX, e.minY, e.maxX, e.maxY], ofFloat x ≠ .notNumber := by
  intro x hx
  have hmem : some x ∈ parts.map readFloat? := by
    rw [h]
    exact List.mem_map_of_mem hx
  obtain ⟨part, hpart, hread⟩ := List.mem_map.mp hmem
  exact hnumbers part hpart x hread

end Ordered

/-- **Each refusal has its own reason, and the corners that are accepted are in order** where no
part is read as something that is not a number: the refusals are for not three commas, for a part
that is no double and for corners that are not in order. -/
theorem parse_wellFormed (s : String) :
    (∀ t, parse s = .error (.invalidFormat t) ↔ t = s ∧ s.toList.count ',' ≠ 3) ∧
    (∀ part, parse s = .error (.invalidNumber part) ↔
      s.toList.count ',' = 3 ∧ ∃ before after, commaPieces s = before ++ part :: after ∧
        (∀ p ∈ before, IsDouble p.toList) ∧ ¬ IsDouble part.toList) ∧
    ((∀ part ∈ commaPieces s, ∀ x, readFloat? part = some x → ofFloat x ≠ .notNumber) →
      (∀ e, parse s = .ok e →
        e.minX ≤ e.maxX ∧ e.minY ≤ e.maxY ∧
          ∀ x y, (x = e.minX ∨ x = e.maxX) → (y = e.minY ∨ y = e.maxY) →
            e.containsPoint x y = true) ∧
      ∀ t, parse s = .error (.invertedCorners t) ↔
        t = s ∧ ∃ e, Reads (commaPieces s) e ∧ ¬ (e.minX ≤ e.maxX ∧ e.minY ≤ e.maxY)) := by
  refine ⟨fun t => parse_invalidFormat_iff, fun part => parse_invalidNumber_iff, fun hnumbers => ?_⟩
  have hordered {e : Envelope Float} (h : Reads (commaPieces s) e) :
      ¬ Inverted e ↔ e.minX ≤ e.maxX ∧ e.minY ≤ e.maxY := by
    rw [← isOrdered_iff (h.numbers hnumbers)]
    exact ⟨fun h => ⟨h.x, h.y⟩, fun h => ⟨h.1, h.2⟩⟩
  refine ⟨fun e h => ?_, fun t => ?_⟩
  · obtain ⟨hreads, hinverted⟩ := parse_ok_iff.mp h
    obtain ⟨hx, hy⟩ := (hordered hreads).mp hinverted
    exact ⟨hx, hy, fun x y => IsOrdered.contains_corners ⟨hx, hy⟩⟩
  · rw [parse_invertedCorners_iff]
    refine and_congr_right fun _ => exists_congr fun e => and_congr_right fun hreads => ?_
    rw [← hordered hreads, not_not]

/-- A unit square, and the same corners the other way round. -/
theorem parse_wellFormed_unit :
    (∃ e, parse "0, 0,1 ,1" = .ok e ∧ e.minX ≤ e.maxX ∧ e.minY ≤ e.maxY) ∧
      parse "1,1,0,0" = .error (.invertedCorners "1,1,0,0") := by
  have hnumbers {s : String} (h : (commaPieces s).all
      (fun part => (readFloat? part).all fun x => ofFloat x ≠ .notNumber) = true) :
      ∀ part ∈ commaPieces s, ∀ x, readFloat? part = some x → ofFloat x ≠ .notNumber := by
    intro part hpart x hread
    have hall := List.all_eq_true.mp h part hpart
    rw [hread, Option.all_some, decide_eq_true_eq] at hall
    exact hall
  have hok : parse "0, 0,1 ,1" = .ok ⟨0, 0, 1, 1⟩ := by decide +kernel
  obtain ⟨_, _, hunit⟩ := parse_wellFormed "0, 0,1 ,1"
  obtain ⟨_, _, hswapped⟩ := parse_wellFormed "1,1,0,0"
  obtain ⟨hx, hy, _⟩ := (hunit (hnumbers (by decide +kernel))).1 _ hok
  refine ⟨⟨_, hok, hx, hy⟩, ?_⟩
  refine ((hswapped (hnumbers (by decide +kernel))).2 _).mpr ⟨rfl, ⟨1, 1, 0, 0⟩, ?_, ?_⟩
  · unfold Reads
    decide +kernel
  · decide +kernel

/-- A corner that is not a number is accepted, and the envelope does not contain it. -/
theorem parse_notNumber :
    ∃ e, parse "0,NaN,1,1" = .ok e ∧ ¬ e.minY ≤ e.maxY ∧ e.containsPoint e.minX e.minY = false :=
  ⟨⟨0, 0 / 0, 1, 1⟩, by decide +kernel, by decide +kernel, by decide +kernel⟩

/-! ### Displays -/

section Display
variable {e : Envelope Float}

/-- The coordinates of an envelope, written. -/
def coordinateTexts (e : Envelope Float) : List String :=
  [Number.display e.minX, Number.display e.minY, Number.display e.maxX, Number.display e.maxY]

theorem IsOrdered.reads_texts (h : IsOrdered e) : Reads (coordinateTexts e) e := by
  obtain ⟨hminX, hmaxX⟩ := ne_notNumber_of_le h.x
  obtain ⟨hminY, hmaxY⟩ := ne_notNumber_of_le h.y
  simp only [Reads, coordinateTexts, List.map_cons, List.map_nil, Number.readFloat?_display hminX,
    Number.readFloat?_display hminY, Number.readFloat?_display hmaxX,
    Number.readFloat?_display hmaxY]

theorem isPiece_texts : ∀ cs ∈ (coordinateTexts e).map String.toList, Text.IsPiece cs := by
  intro cs hcs
  obtain ⟨text, htext, rfl⟩ := List.mem_map.mp hcs
  have hdisplay : ∃ x, text = Number.display x := by
    simp only [coordinateTexts, List.mem_cons, List.not_mem_nil, or_false] at htext
    rcases htext with rfl | rfl | rfl | rfl <;> exact ⟨_, rfl⟩
  obtain ⟨x, rfl⟩ := hdisplay
  exact Text.isPiece_of_forall fun c => Number.display_no_comma

theorem parse_padded (h : IsOrdered e) {ps : List (List Char)}
    (hps : List.Forall₂ Padded ((coordinateTexts e).map String.toList) ps) :
    parse (String.ofList ([','].intercalate ps)) = .ok e := by
  have htexts : ((coordinateTexts e).map String.toList).map String.ofList = coordinateTexts e := by
    simp only [List.map_map, Function.comp_def, String.ofList_toList, List.map_id']
  refine parse_ok_iff.mpr ⟨?_, h.not_inverted⟩
  rw [Text.commaPieces_padded hps (List.cons_ne_nil _ _) isPiece_texts, htexts]
  exact h.reads_texts

theorem display_eq (e : Envelope Float) :
    e.display = String.ofList ([','].intercalate ((coordinateTexts e).map String.toList)) := by
  rw [← String.toList_inj, String.toList_ofList]
  simp [display, coordinateTexts, List.intercalate]

/-- **An envelope with its corners in order is read back from its display**, whatever blanks stand
around the commas and at the ends. Infinite coordinates and the sign of a zero are kept. -/
theorem parse_display_padded (hx : e.minX ≤ e.maxX) (hy : e.minY ≤ e.maxY) :
    parse e.display = .ok e ∧
      ∀ a b c d, Padded (Number.display e.minX).toList a → Padded (Number.display e.minY).toList b →
        Padded (Number.display e.maxX).toList c → Padded (Number.display e.maxY).toList d →
          parse (String.ofList (a ++ ',' :: (b ++ ',' :: (c ++ ',' :: d)))) = .ok e := by
  have h : IsOrdered e := ⟨hx, hy⟩
  constructor
  · rw [display_eq]
    exact parse_padded h (List.forall₂_same.mpr fun cs _ => .self cs)
  · intro a b c d ha hb hc hd
    have hjoined : a ++ ',' :: (b ++ ',' :: (c ++ ',' :: d)) = [','].intercalate [a, b, c, d] := by
      simp [List.intercalate]
    rw [hjoined]
    exact parse_padded h (.cons ha (.cons hb (.cons hc (.cons hd .nil))))

/-- Half a plane from a negative zero up, with an em space around one of the commas. -/
theorem parse_display_halfPlane :
    ∃ e : Envelope Float, e.minX = -(1 / 0) ∧ e.minY = -0 ∧ parse e.display = .ok e ∧
      parse (String.ofList ((Number.display e.minX).toList ++ '\u2003' :: ',' :: '\u2003' ::
        ((Number.display e.minY).toList ++ ',' :: ((Number.display e.maxX).toList ++
          ',' :: (Number.display e.maxY).toList)))) = .ok e := by
  obtain ⟨hself, hpadded⟩ := parse_display_padded (e := ⟨-(1 / 0), -0, 1 / 0, 1 / 0⟩)
    (by decide +kernel) (by decide +kernel)
  have hspace : ∀ c ∈ ['\u2003'], Text.isBlank c = true := by
    intro c hc
    rw [List.mem_singleton.mp hc]
    rfl
  have hbehind (cs : List Char) : Padded cs ([] ++ cs ++ ['\u2003']) :=
    .around (fun _ => nofun) hspace
  have hbefore (cs : List Char) : Padded cs (['\u2003'] ++ cs ++ []) :=
    .around hspace (fun _ => nofun)
  refine ⟨_, rfl, rfl, hself, ?_⟩
  have hspaced := hpadded _ _ _ _ (hbehind _) (hbefore _) (.self _) (.self _)
  rwa [List.nil_append, List.append_nil, List.append_assoc] at hspaced

end Display

end Observatory.Envelope
