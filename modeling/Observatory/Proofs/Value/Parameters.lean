import Observatory.Model.Observation
import Observatory.Proofs.Number.Reading
import Observatory.Proofs.Text.Spelling

/-! Numbers of parameters.

A parameter is a number, or it is a text that a number can stand in, with blanks around it
(`NumberOf`). The text of a double has no blanks in it (`IsDouble.not_blank`), so there is one
way to take the blanks off, and trimming takes it (`number?_eq_some_iff`). -/
namespace Observatory

/-! ### Blanks -/

namespace Number
open Text (isBlank blankRanges IsDigits IsSignedDigits)

theorem not_blank_of_isDigits {cs : List Char} (h : IsDigits cs) : ∀ c ∈ cs, isBlank c = false :=
  fun c hc => Text.isBlank_of_isDigit (h.isDigit c hc)

theorem not_blank_of_isSignedDigits {cs : List Char} (h : IsSignedDigits cs) :
    ∀ c ∈ cs, isBlank c = false := by
  cases h with
  | unsigned hdigits => exact not_blank_of_isDigits hdigits
  | signed hsign hdigits =>
    refine List.forall_mem_cons.mpr ⟨?_, not_blank_of_isDigits hdigits⟩
    rcases hsign with rfl | rfl <;> decide

theorem IsExponent.not_blank {cs : List Char} (h : IsExponent cs) : ∀ c ∈ cs, isBlank c = false := by
  cases h with
  | none => exact fun _ => nofun
  | marked hmark hdigits =>
    refine List.forall_mem_cons.mpr ⟨?_, not_blank_of_isSignedDigits hdigits⟩
    rcases hmark with rfl | rfl <;> decide

theorem IsDecimal.not_blank {cs : List Char} (h : IsDecimal cs) : ∀ c ∈ cs, isBlank c = false := by
  cases h with
  | whole hdigits hexponent =>
    exact List.forall_mem_append.mpr ⟨not_blank_of_isDigits hdigits, hexponent.not_blank⟩
  | point hdigits hexponent =>
    obtain ⟨hwhole, hfraction⟩ := List.forall_mem_append.mp (not_blank_of_isDigits hdigits)
    refine List.forall_mem_append.mpr ⟨hwhole, List.forall_mem_cons.mpr ⟨by decide, ?_⟩⟩
    exact List.forall_mem_append.mpr ⟨hfraction, hexponent.not_blank⟩

theorem IsWord.not_blank {cs : List Char} (h : IsWord cs) : ∀ c ∈ cs, isBlank c = false := by
  have hwords : ∀ word ∈ ["inf".toList, "infinity".toList, "nan".toList],
      ∀ c ∈ word, isBlank c = false := by simp [isBlank, blankRanges]
  intro c hc
  have hlower : c.toLower ∈ cs.map Char.toLower := List.mem_map_of_mem hc
  rw [← Text.isBlank_toLower]
  exact hwords _ h _ hlower

/-- The text of a double has no blanks in it. -/
theorem IsDouble.not_blank {cs : List Char} (h : IsDouble cs) : ∀ c ∈ cs, isBlank c = false := by
  cases h with
  | unsigned hplain => exact hplain.elim IsWord.not_blank IsDecimal.not_blank
  | signed hsign hplain =>
    refine List.forall_mem_cons.mpr ⟨?_, hplain.elim IsWord.not_blank IsDecimal.not_blank⟩
    rcases hsign with rfl | rfl <;> decide

end Number

/-! ### Numbers -/

/-- The number of a parameter: a number is its own, and a text has the number that is read from
it, blanks around it aside. -/
inductive NumberOf : ParameterValue → Float → Prop
  | number (x : Float) : NumberOf (.number x) x
  | text {s : String} {inner : List Char} {x : Float} (padded : Text.Padded inner s.toList)
    (read : Number.readFloat? (String.ofList inner) = some x) : NumberOf (.text s) x

namespace ParameterValue

theorem isDouble_of_read {cs : List Char} {x : Float}
    (h : Number.readFloat? (String.ofList cs) = some x) : Number.IsDouble cs := by
  have hdouble := Number.isDouble_of_readFloat? h
  rwa [String.toList_ofList] at hdouble

/-- Trimming leaves the double that stands in a text. -/
theorem trimChars_of_isDouble {inner cs : List Char} (hpadded : Text.Padded inner cs)
    (hdouble : Number.IsDouble inner) : Text.trimChars cs = inner := by
  rw [hpadded.trimChars_eq, Text.trimChars_of_forall hdouble.not_blank]

/-- Parameters are read as the numbers they are. -/
theorem number?_eq_some_iff {v : ParameterValue} {x : Float} :
    v.number? = some x ↔ NumberOf v x := by
  constructor
  · intro h
    cases v with
    | number y => exact Option.some.inj h ▸ .number y
    | text s => exact .text (Text.padded_trimChars s.toList) h
  · intro h
    cases h with
    | number => rfl
    | @text s inner _ padded read =>
      have htrim : Text.trim s = String.ofList inner :=
        congrArg String.ofList (trimChars_of_isDouble padded (isDouble_of_read read))
      rw [number?, htrim, read]

/-- A text has a number exactly if there is a double in it, with nothing but blanks around. -/
theorem exists_numberOf_text_iff {s : String} :
    (∃ x, NumberOf (.text s) x) ↔ ∃ inner, Text.Padded inner s.toList ∧ Number.IsDouble inner := by
  constructor
  · rintro ⟨x, h⟩
    cases h with
    | text padded read => exact ⟨_, padded, isDouble_of_read read⟩
  · rintro ⟨inner, hpadded, hdouble⟩
    have hread : (Number.readFloat? (String.ofList inner)).isSome = true := by
      rwa [Number.isSome_readFloat?_iff, String.toList_ofList]
    obtain ⟨x, hx⟩ := Option.isSome_iff_exists.mp hread
    exact ⟨x, .text hpadded hx⟩

end ParameterValue
end Observatory
