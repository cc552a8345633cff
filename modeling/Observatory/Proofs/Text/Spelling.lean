import Mathlib
import Observatory.Proofs.Text.Items
import Observatory.Text.Case

/-! Spellings of a text.

A kind can be written with letters in either case and with blanks around it. `Respelled` leads
from one spelling to another by such changes. Among the spellings of a text one is canonical:
it has no capital letters and no blank at either end (`isCanonical_canonical`). Texts are
spellings of each other exactly where their canonical spellings are the same
(`respelled_iff`). -/
namespace Observatory.Text

/-! ### Letters in lower case -/

/-- The case of a letter has nothing to do with blanks. -/
theorem isBlank_toLower (c : Char) : isBlank c.toLower = isBlank c := by
  by_cases h : c.isUpper = true
  · have hupper : 65 ≤ c.toNat ∧ c.toNat ≤ 90 := by
      simpa [Char.isUpper, UInt32.le_iff_toNat_le] using h
    have hlower : c.toLower.toNat = c.toNat + 32 := by
      have hvalid : (c.toNat + 32).isValidChar := by omega
      rw [Char.toLower_eq_of_isUpper h, Char.toNat_ofNat, if_pos hvalid]
    rw [Bool.eq_iff_iff]
    simp only [isBlank, blankRanges, List.any_cons, List.any_nil, Bool.or_false, Bool.or_eq_true,
      Bool.and_eq_true, decide_eq_true_eq, hlower]
    omega
  · rw [Char.toLower_eq_of_not_isUpper h]

theorem trimChars_map_toLower (cs : List Char) :
    trimChars (cs.map Char.toLower) = (trimChars cs).map Char.toLower := by
  have hblank : isBlank ∘ Char.toLower = isBlank := funext isBlank_toLower
  simp only [trimChars, trimStart, trimEnd, List.dropWhile_map, ← List.map_reverse, hblank]

/-! ### The canonical spelling -/

/-- The spelling without capital letters and without blanks around. -/
def canonical (s : String) : String := lower (trim s)

theorem toList_canonical (s : String) :
    (canonical s).toList = (trimChars s.toList).map Char.toLower := by
  simp [canonical, lower, trim]

theorem canonical_canonical (s : String) : canonical (canonical s) = canonical s := by
  apply String.toList_injective
  simp [toList_canonical, trimChars_map_toLower, trimChars_trimChars, Function.comp_def]

theorem canonical_eq_empty_iff {s : String} : canonical s = "" ↔ trim s = "" := by
  simp [canonical, lower]

/-- A text without capital letters, and without a blank at either end. -/
structure IsCanonical (s : String) : Prop where
  small : ∀ c ∈ s.toList, c.toLower = c
  first : ∀ c ∈ s.toList.head?, isBlank c = false
  last : ∀ c ∈ s.toList.getLast?, isBlank c = false

theorem canonical_eq_self_iff {s : String} : canonical s = s ↔ IsCanonical s := by
  rw [← String.toList_inj, toList_canonical]
  constructor
  · intro h
    have htrimmed : trimChars s.toList = s.toList := by
      rw [← h, trimChars_map_toLower, trimChars_trimChars]
    obtain ⟨hfirst, hlast⟩ := trimChars_eq_self_iff.mp htrimmed
    refine ⟨fun c hc => ?_, hfirst, hlast⟩
    rw [← h] at hc
    obtain ⟨d, _, rfl⟩ := List.mem_map.mp hc
    exact Char.toLower_toLower_eq_toLower d
  · intro h
    rw [trimChars_eq_self_iff.mpr ⟨h.first, h.last⟩, List.map_congr_left h.small, List.map_id']

theorem isCanonical_canonical (s : String) : IsCanonical (canonical s) :=
  canonical_eq_self_iff.mp (canonical_canonical s)

/-- Canonical texts make a canonical one with a hyphen between them, if the second is not
empty. -/
theorem IsCanonical.hyphenated {s t : String} (hs : IsCanonical s) (ht : IsCanonical t)
    (hne : t ≠ "") : IsCanonical (s ++ "-" ++ t) := by
  have htext : (s ++ "-" ++ t).toList = s.toList ++ '-' :: t.toList := by simp
  have hlist : t.toList ≠ [] := by simpa using hne
  refine ⟨fun c hc => ?_, fun c hc => ?_, fun c hc => ?_⟩
  · rw [htext, List.mem_append, List.mem_cons] at hc
    rcases hc with hc | rfl | hc
    · exact hs.small c hc
    · rfl
    · exact ht.small c hc
  · -- An empty text has the hyphen in front.
    rw [htext, List.head?_append] at hc
    cases hfirst : s.toList.head? with
    | none =>
      rw [hfirst] at hc
      obtain rfl := Option.some.inj hc
      rfl
    | some d =>
      rw [hfirst] at hc
      exact hs.first c (hfirst ▸ hc)
  · rw [htext, List.append_cons, List.getLast?_append_of_ne_nil _ hlist] at hc
    exact ht.last c hc

/-! ### From one spelling to another -/

/-- A change that leaves a text the same but for its spelling: letters get another case, or
blanks are put around the text. -/
inductive Respelling (s : String) : String → Prop
  | recased {t : String} (h : List.Forall₂ (fun c d => c.toLower = d.toLower) s.toList t.toList) :
    Respelling s t
  | padded {t : String} (h : Padded s.toList t.toList) : Respelling s t

/-- Texts that such changes, made or undone, lead from one to the other. -/
def Respelled : String → String → Prop := Relation.EqvGen Respelling

theorem Respelling.canonical_eq {s t : String} (h : Respelling s t) : canonical s = canonical t := by
  rw [← String.toList_inj, toList_canonical, toList_canonical]
  cases h with
  | recased h =>
    have hlower : s.toList.map Char.toLower = t.toList.map Char.toLower := by
      rw [← List.forall₂_eq_eq_eq, List.forall₂_map_left_iff, List.forall₂_map_right_iff]
      exact h
    rw [← trimChars_map_toLower, hlower, trimChars_map_toLower]
  | padded h => rw [h.trimChars_eq]

theorem respelled_canonical (s : String) : Respelled s (canonical s) := by
  have htrim : Respelling (trim s) s := .padded (by simpa [trim] using padded_trimChars s.toList)
  have hlower : Respelling (canonical s) (trim s) := .recased (by
    simp [canonical, lower, List.forall₂_map_left_iff, List.forall₂_same])
  exact .symm _ _ (.trans _ _ _ (.rel _ _ hlower) (.rel _ _ htrim))

/-- **Texts are spellings of each other exactly where their canonical spellings agree.** -/
theorem respelled_iff {s t : String} : Respelled s t ↔ canonical s = canonical t := by
  constructor
  · intro h
    induction h with
    | rel _ _ h => exact h.canonical_eq
    | refl => rfl
    | symm _ _ _ ih => exact ih.symm
    | trans _ _ _ _ _ ih ih' => exact ih.trans ih'
  · intro h
    have ht := respelled_canonical t
    rw [← h] at ht
    exact .trans _ _ _ (respelled_canonical s) (.symm _ _ ht)

instance (s t : String) : Decidable (Respelled s t) := decidable_of_iff _ respelled_iff.symm

end Observatory.Text
