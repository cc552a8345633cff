import Mathlib.Data.List.Sort
import Observatory.Collection.SortedSet

/-! Members of sorted sets.

A sorted set is looked at through its members alone: what insertion adds
(`mem_insert`), what the set of a list holds (`mem_ofList`), when a set is empty, and that
sets with the same members are the same (`eq_of_mem_iff`).
The order has to be total for this: insertion leaves out an element that is neither
below nor above one that is there, so such elements must be equal. -/
namespace Observatory.SortedSet

/-- A set is known by its members. -/
theorem eq_of_mem_iff {α : Type} [LT α] [Std.Asymm (α := α) (· < ·)] {s t : SortedSet α}
    (h : ∀ a, a ∈ s ↔ a ∈ t) : s = t := ext (s.sorted.eq_of_mem_iff t.sorted h)

section Order
variable {α : Type} [LT α] [DecidableLT α]

theorem mem_insertSorted [Std.Trichotomous (α := α) (· < ·)] {a x : α} {xs : List α} :
    x ∈ insertSorted a xs ↔ x = a ∨ x ∈ xs := by
  refine ⟨mem_of_mem_insertSorted, fun h => ?_⟩
  induction xs with
  | nil => simpa [insertSorted] using h
  | cons b rest ih =>
    simp only [insertSorted]
    by_cases hab : a < b
    · rw [if_pos hab]
      simpa using h
    · rw [if_neg hab]
      by_cases hba : b < a
      · rw [if_pos hba]
        rcases h with rfl | h
        · exact List.mem_cons_of_mem b (ih (.inl rfl))
        · rcases List.mem_cons.mp h with rfl | h
          · exact List.mem_cons_self ..
          · exact List.mem_cons_of_mem b (ih (.inr h))
      · rw [if_neg hba]
        -- Neither below nor above: the element is there already.
        have hb : a = b := Std.Trichotomous.trichotomous a b hab hba
        rcases h with rfl | h
        · rw [hb]
          exact List.mem_cons_self ..
        · exact h

variable [Trans (fun a b : α => a < b) (fun a b : α => a < b) (fun a b : α => a < b)]
variable [Std.Trichotomous (α := α) (· < ·)]

theorem mem_insert {s : SortedSet α} {a x : α} : x ∈ s.insert a ↔ x = a ∨ x ∈ s :=
  mem_insertSorted

theorem mem_foldl_insert {xs : List α} {s : SortedSet α} {x : α} :
    x ∈ xs.foldl insert s ↔ x ∈ s ∨ x ∈ xs := by
  induction xs generalizing s with
  | nil => simp
  | cons a rest ih =>
    rw [List.foldl_cons, ih, mem_insert, List.mem_cons]
    constructor
    · rintro ((h | h) | h)
      · exact .inr (.inl h)
      · exact .inl h
      · exact .inr (.inr h)
    · rintro (h | h | h)
      · exact .inl (.inr h)
      · exact .inl (.inl h)
      · exact .inr h

/-- The set of a list has the elements of the list as its members. -/
theorem mem_ofList {xs : List α} {x : α} : x ∈ ofList xs ↔ x ∈ xs := by
  have hempty : x ∉ (∅ : SortedSet α) := List.not_mem_nil
  rw [ofList, mem_foldl_insert]
  exact ⟨fun h => h.resolve_left hempty, .inr⟩

/-- A set is the set of its own members. -/
theorem ofList_toList [Std.Asymm (α := α) (· < ·)] (s : SortedSet α) : ofList s.toList = s :=
  eq_of_mem_iff fun _ => mem_ofList

end Order

variable {α : Type} [LT α]

theorem contains_iff [BEq α] [LawfulBEq α] {s : SortedSet α} {a : α} :
    s.contains a = true ↔ a ∈ s := List.contains_iff_mem

theorem isEmpty_iff {s : SortedSet α} : s.isEmpty = true ↔ s = ∅ := by
  unfold isEmpty
  rw [List.isEmpty_iff]
  constructor
  · intro h
    exact ext (show s.toList = (∅ : SortedSet α).toList from h)
  · rintro rfl
    rfl

/-- Whether some member has a property can be told. -/
instance {s : SortedSet α} {p : α → Prop} [DecidablePred p] : Decidable (∃ a ∈ s, p a) :=
  inferInstanceAs (Decidable (∃ a ∈ s.toList, p a))

/-- Whether every member has a property can be told. -/
instance {s : SortedSet α} {p : α → Prop} [DecidablePred p] : Decidable (∀ a ∈ s, p a) :=
  inferInstanceAs (Decidable (∀ a ∈ s.toList, p a))

instance [DecidableEq α] {s : SortedSet α} {a : α} : Decidable (a ∈ s) :=
  inferInstanceAs (Decidable (a ∈ s.toList))

end Observatory.SortedSet
