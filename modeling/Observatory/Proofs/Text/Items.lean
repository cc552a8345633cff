import Mathlib.Data.List.Forall2
import Observatory.Proofs.Text.Numeral
import Observatory.Text.Items

/-! Texts between commas.

A text has one piece more than it has separators (`length_pieces`), and the pieces that are
joined come apart again (`pieces_intercalate`). Trimming takes off the blanks around a text,
which are all that it takes off (`padded_trimChars`), so they are not part of a piece
(`commaPieces_padded`). A comma list can be read in one way: as the items that it was joined
from, whatever blanks and empty pieces are among them (`items_eq_iff`). -/
namespace Observatory.Text

/-! ### Pieces -/

section Pieces
variable (separator : Char)

/-- What is no separator belongs to the first piece. -/
theorem pieces_cons_of_ne {c : Char} (h : c ≠ separator) (cs : List Char) :
    pieces separator (c :: cs) = (pieces separator cs).modifyHead (c :: ·) := by
  cases hcs : pieces separator cs with
  | nil => exact absurd hcs (pieces_ne_nil separator cs)
  | cons piece others =>
    unfold pieces
    rw [hcs]
    exact if_neg h

/-- The pieces are those that the core library splits a list into. -/
theorem pieces_eq_splitOn (cs : List Char) : pieces separator cs = cs.splitOn separator := by
  induction cs with
  | nil => exact (List.splitOn_nil separator).symm
  | cons c rest ih =>
    rw [List.splitOn_cons_eq_if_modifyHead, ← ih]
    by_cases h : c = separator
    · rw [h, pieces_cons_separator, if_pos BEq.rfl]
    · rw [pieces_cons_of_ne separator h, if_neg (mt beq_iff_eq.mp h)]

/-- There is one piece more than there are separators. -/
theorem length_pieces (cs : List Char) : (pieces separator cs).length = cs.count separator + 1 := by
  induction cs with
  | nil => rfl
  | cons c rest ih =>
    by_cases h : c = separator
    · rw [h, pieces_cons_separator, List.length_cons, ih, List.count_cons_self]
    · rw [pieces_cons_of_ne separator h, List.length_modifyHead, ih, List.count_cons_of_ne h]

/-- There is no separator within a piece. -/
theorem not_mem_of_mem_pieces (cs : List Char) : ∀ p ∈ pieces separator cs, separator ∉ p := by
  induction cs with
  | nil => exact List.forall_mem_singleton.mpr List.not_mem_nil
  | cons c rest ih =>
    by_cases h : c = separator
    · rw [h, pieces_cons_separator]
      exact List.forall_mem_cons.mpr ⟨List.not_mem_nil, ih⟩
    · rw [pieces_cons_of_ne separator h]
      cases hrest : pieces separator rest with
      | nil => exact absurd hrest (pieces_ne_nil separator rest)
      | cons piece others =>
        rw [hrest] at ih
        obtain ⟨hpiece, hothers⟩ := List.forall_mem_cons.mp ih
        exact List.forall_mem_cons.mpr
          ⟨List.not_mem_cons_of_ne_of_not_mem (Ne.symm h) hpiece, hothers⟩

/-- The pieces, joined by the separator, are the text. -/
theorem intercalate_pieces (cs : List Char) : [separator].intercalate (pieces separator cs) = cs := by
  rw [pieces_eq_splitOn, List.intercalate_splitOn]

/-- Pieces that are joined come apart again. -/
theorem pieces_intercalate {ps : List (List Char)} (h : ∀ p ∈ ps, separator ∉ p) (hne : ps ≠ []) :
    pieces separator ([separator].intercalate ps) = ps := by
  rw [pieces_eq_splitOn]
  exact List.splitOn_intercalate separator h hne

end Pieces

/-! ### Blanks around a text -/

/-- A text with blanks in front of it and behind it, or none. -/
inductive Padded (cs : List Char) : List Char → Prop where
  | around {before after : List Char} :
    (∀ c ∈ before, isBlank c = true) → (∀ c ∈ after, isBlank c = true) →
      Padded cs (before ++ cs ++ after)

theorem Padded.self (cs : List Char) : Padded cs cs := by
  have h : Padded cs ([] ++ cs ++ []) := .around (fun _ => nofun) (fun _ => nofun)
  rwa [List.nil_append, List.append_nil] at h

variable {cs padded : List Char}

theorem trimEnd_append_blanks {after : List Char} (h : ∀ c ∈ after, isBlank c = true)
    (cs : List Char) : trimEnd (cs ++ after) = trimEnd cs := by
  unfold trimEnd
  rw [List.reverse_append, List.dropWhile_append_of_pos fun c hc => h c (List.mem_reverse.mp hc)]

theorem trimChars_cons_of_blank {c : Char} (h : isBlank c = true) (cs : List Char) :
    trimChars (c :: cs) = trimChars cs :=
  congrArg trimEnd (List.dropWhile_cons_of_pos h)

/-- Blanks around a text are trimmed. -/
theorem Padded.trimChars_eq (h : Padded cs padded) : trimChars padded = trimChars cs := by
  obtain ⟨hbefore, hafter⟩ := h
  unfold trimChars trimStart
  rw [List.append_assoc, List.dropWhile_append_of_pos hbefore, List.dropWhile_append]
  split
  · next hempty =>
    rw [List.isEmpty_iff.mp hempty, List.dropWhile_eq_nil_iff.mpr hafter]
  · rw [trimEnd_append_blanks hafter]

theorem Padded.not_mem (h : Padded cs padded) {c : Char} (hblank : isBlank c = false)
    (hc : c ∉ cs) : c ∉ padded := by
  obtain ⟨hbefore, hafter⟩ := h
  intro hmem
  rcases List.mem_append.mp hmem with hmem | hmem
  · rcases List.mem_append.mp hmem with hmem | hmem
    · exact absurd (hbefore c hmem) (by rw [hblank]; exact Bool.false_ne_true)
    · exact hc hmem
  · exact absurd (hafter c hmem) (by rw [hblank]; exact Bool.false_ne_true)

theorem Padded.subset (h : Padded cs padded) : cs ⊆ padded := by
  obtain ⟨_, _⟩ := h
  exact fun _ hc => List.mem_append_left _ (List.mem_append_right _ hc)

/-! ### Trimmed texts -/

theorem dropWhile_isBlank_eq_self_iff :
    cs.dropWhile isBlank = cs ↔ ∀ c ∈ cs.head?, isBlank c = false := by
  cases cs with
  | nil => simp
  | cons c rest =>
    rw [List.dropWhile_eq_self_iff]
    simp

theorem trimEnd_eq_self_iff : trimEnd cs = cs ↔ ∀ c ∈ cs.getLast?, isBlank c = false := by
  rw [trimEnd, List.reverse_eq_iff, dropWhile_isBlank_eq_self_iff, List.head?_reverse]

theorem length_trimEnd_le (cs : List Char) : (trimEnd cs).length ≤ cs.length := by
  have hsuffix : cs.reverse.dropWhile isBlank <:+ cs.reverse := List.dropWhile_suffix isBlank
  simpa [trimEnd] using hsuffix.length_le

/-- There is nothing to trim about a text exactly where it has no blank at either end. -/
theorem trimChars_eq_self_iff :
    trimChars cs = cs ↔
      (∀ c ∈ cs.head?, isBlank c = false) ∧ ∀ c ∈ cs.getLast?, isBlank c = false := by
  constructor
  · intro h
    have hlength : (trimChars cs).length ≤ (trimStart cs).length := length_trimEnd_le _
    rw [h] at hlength
    have hstart : trimStart cs = cs := (List.dropWhile_suffix isBlank).eq_of_length_le hlength
    refine ⟨dropWhile_isBlank_eq_self_iff.mp hstart, trimEnd_eq_self_iff.mp ?_⟩
    rwa [trimChars, hstart] at h
  · intro h
    obtain ⟨hfirst, hlast⟩ := h
    rw [trimChars, trimStart, dropWhile_isBlank_eq_self_iff.mpr hfirst, trimEnd_eq_self_iff.mpr hlast]

/-- A text is its trimmed form with blanks around it. -/
theorem padded_trimChars (cs : List Char) : Padded (trimChars cs) cs := by
  have hstart : cs.takeWhile isBlank ++ trimStart cs = cs := List.takeWhile_append_dropWhile
  have hend : trimChars cs ++ ((trimStart cs).reverse.takeWhile isBlank).reverse = trimStart cs := by
    rw [trimChars, trimEnd, ← List.reverse_append, List.takeWhile_append_dropWhile,
      List.reverse_reverse]
  have hpadded : Padded (trimChars cs) (cs.takeWhile isBlank ++ trimChars cs ++
      ((trimStart cs).reverse.takeWhile isBlank).reverse) :=
    .around (fun _ => List.mem_takeWhile_imp)
      fun _ hc => List.mem_takeWhile_imp (List.mem_reverse.mp hc)
  rwa [List.append_assoc, hend, hstart] at hpadded

theorem trimChars_trimChars (cs : List Char) : trimChars (trimChars cs) = trimChars cs :=
  (padded_trimChars cs).trimChars_eq.symm

/-! ### Texts between commas -/

/-- A text that can stand between commas: it has none itself, and nothing to trim. -/
structure IsPiece (cs : List Char) : Prop where
  no_comma : ',' ∉ cs
  trimmed : trimChars cs = cs

/-- A text without commas and blanks can stand between commas. -/
theorem isPiece_of_forall (h : ∀ c ∈ cs, isBlank c = false ∧ c ≠ ',') : IsPiece cs where
  no_comma hmem := (h ',' hmem).2 rfl
  trimmed := trimChars_of_forall fun c hc => (h c hc).1

variable {texts ps : List (List Char)}

theorem not_mem_padded (h : List.Forall₂ Padded texts ps) (htexts : ∀ cs ∈ texts, IsPiece cs) :
    ∀ p ∈ ps, ',' ∉ p := by
  induction h with
  | nil => exact fun _ => nofun
  | cons hpadded _ ih =>
    obtain ⟨hfirst, hrest⟩ := List.forall_mem_cons.mp htexts
    exact List.forall_mem_cons.mpr ⟨hpadded.not_mem (by decide) hfirst.no_comma, ih hrest⟩

theorem map_trimChars_padded (h : List.Forall₂ Padded texts ps)
    (htexts : ∀ cs ∈ texts, IsPiece cs) : ps.map trimChars = texts := by
  induction h with
  | nil => rfl
  | cons hpadded _ ih =>
    obtain ⟨hfirst, hrest⟩ := List.forall_mem_cons.mp htexts
    rw [List.map_cons, hpadded.trimChars_eq, hfirst.trimmed, ih hrest]

/-- **Texts joined by commas, with any blanks around them, are the pieces.** -/
theorem commaPieces_padded (h : List.Forall₂ Padded texts ps) (hne : texts ≠ [])
    (htexts : ∀ cs ∈ texts, IsPiece cs) :
    commaPieces (String.ofList ([','].intercalate ps)) = texts.map String.ofList := by
  have hps : ps ≠ [] := by
    rintro rfl
    exact hne (List.forall₂_nil_right_iff.mp h)
  unfold commaPieces
  rw [String.toList_ofList, pieces_intercalate ',' (not_mem_padded h htexts) hps,
    ← map_trimChars_padded h htexts, List.map_map]
  rfl

/-! ### Items -/

/-- What a comma list can hold: a text that is not empty and has no comma, and no blank at
either end. -/
structure IsListItem (s : String) : Prop where
  nonempty : s ≠ ""
  no_comma : ',' ∉ s.toList
  first : ∀ c ∈ s.toList.head?, isBlank c = false
  last : ∀ c ∈ s.toList.getLast?, isBlank c = false

theorem IsListItem.isPiece {s : String} (h : IsListItem s) : IsPiece s.toList where
  no_comma := h.no_comma
  trimmed := trimChars_eq_self_iff.mpr ⟨h.first, h.last⟩

/-- A text in which items are joined by commas, with any empty texts among them and any blanks
around each. -/
inductive Joined (xs : List String) : String → Prop where
  | commas {texts : List String} {ps : List (List Char)} :
    texts.filter (· ≠ "") = xs → List.Forall₂ Padded (texts.map String.toList) ps →
      Joined xs (String.ofList ([','].intercalate ps))

theorem mem_items_iff {s x : String} :
    x ∈ items s ↔ x ≠ "" ∧ ∃ p ∈ pieces ',' s.toList, String.ofList (trimChars p) = x := by
  simp only [items, commaPieces, List.mem_filter, List.mem_map, decide_eq_true_eq]
  exact and_comm

/-- Whatever text is split, what comes out can stand in a list. -/
theorem isListItem_of_mem_items {s x : String} (h : x ∈ items s) : IsListItem x := by
  obtain ⟨hne, p, hp, rfl⟩ := mem_items_iff.mp h
  have hends := trimChars_eq_self_iff.mp (trimChars_trimChars p)
  have hcomma : ',' ∉ trimChars p := fun hmem =>
    not_mem_of_mem_pieces ',' s.toList p hp ((padded_trimChars p).subset hmem)
  rw [← String.toList_ofList (l := trimChars p)] at hends hcomma
  exact ⟨hne, hcomma, hends.1, hends.2⟩

/-- Every text is its items, joined. -/
theorem joined_items (s : String) : Joined (items s) s := by
  have hpadded : List.Forall₂ Padded ((commaPieces s).map String.toList) (pieces ',' s.toList) := by
    rw [commaPieces, List.map_map, List.forall₂_map_left_iff, List.forall₂_same]
    intro p _
    rw [Function.comp_apply, String.toList_ofList]
    exact padded_trimChars p
  have hjoined := Joined.commas (rfl : _ = items s) hpadded
  rwa [intercalate_pieces, String.ofList_toList] at hjoined

/-- Items that are joined come apart again. -/
theorem Joined.items_eq {xs : List String} {s : String} (h : Joined xs s)
    (hxs : ∀ x ∈ xs, IsListItem x) : items s = xs := by
  obtain @⟨texts, ps, htexts, hpadded⟩ := h
  by_cases hne : texts = []
  · subst hne
    obtain rfl := List.forall₂_nil_left_iff.mp hpadded
    exact htexts
  · -- Each of the texts is an item, or empty.
    have hpieces : ∀ cs ∈ texts.map String.toList, IsPiece cs := by
      refine List.forall_mem_map.mpr fun t ht => ?_
      by_cases hempty : t = ""
      · subst hempty
        exact isPiece_of_forall nofun
      · exact (hxs t (htexts ▸ List.mem_filter.mpr ⟨ht, decide_eq_true hempty⟩)).isPiece
    rw [items, commaPieces_padded hpadded (mt List.map_eq_nil_iff.mp hne) hpieces, List.map_map,
      ← htexts]
    simp

/-- **A comma list can be read in one way only:** it has the items that it was joined from. -/
theorem items_eq_iff {xs : List String} {s : String} :
    items s = xs ↔ (∀ x ∈ xs, IsListItem x) ∧ Joined xs s := by
  constructor
  · rintro rfl
    exact ⟨fun _ => isListItem_of_mem_items, joined_items s⟩
  · rintro ⟨hxs, hjoined⟩
    exact hjoined.items_eq hxs

/-! ### Two parts of a text -/

/-- A text is cut at its first separator. -/
theorem cut_append {separator : Char} {before : List Char} (h : separator ∉ before)
    (after : List Char) : cut separator (before ++ separator :: after) = (before, some after) := by
  induction before with
  | nil => exact if_pos rfl
  | cons c rest ih =>
    obtain ⟨hc, hrest⟩ := not_or.mp (mt List.mem_cons.mpr h)
    rw [List.cons_append, cut, if_neg (Ne.symm hc), ih hrest]

end Observatory.Text
