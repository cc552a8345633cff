import Observatory.Collection.Order

/-! Finite sets as strictly increasing lists.

Sets of ids, of texts, of instants and of condensed entities are written in order
and without repetition, so a set is its increasing list: two sets with the same
members are the same value. -/
namespace Observatory

/-- A finite set of an ordered type. -/
structure SortedSet (α : Type) [LT α] where
  /-- The members in increasing order. -/
  toList : List α
  sorted : toList.Pairwise (· < ·)

namespace SortedSet
section Insert
variable {α : Type} [LT α] [DecidableLT α]

/-- Puts an element in its place among increasing elements; one that is there
stays. -/
def insertSorted (a : α) : List α → List α
  | [] => [a]
  | b :: rest =>
    if a < b then a :: b :: rest
    else if b < a then b :: insertSorted a rest
    else b :: rest

theorem mem_of_mem_insertSorted {a x : α} {xs : List α} (h : x ∈ insertSorted a xs) :
    x = a ∨ x ∈ xs := by
  induction xs with
  | nil => simpa [insertSorted] using h
  | cons b rest ih =>
    simp only [insertSorted] at h
    split at h
    · simpa using h
    · split at h
      · rcases List.mem_cons.1 h with h | h
        · simp [h]
        · rcases ih h with h | h <;> simp [h]
      · exact .inr h

variable [Trans (fun a b : α => a < b) (fun a b : α => a < b) (fun a b : α => a < b)]

theorem sorted_insertSorted (a : α) {xs : List α} (h : xs.Pairwise (· < ·)) :
    (insertSorted a xs).Pairwise (· < ·) := by
  induction xs with
  | nil => simp [insertSorted]
  | cons b rest ih =>
    obtain ⟨hb, hrest⟩ := List.pairwise_cons.1 h
    simp only [insertSorted]
    split
    · next hab =>
      refine List.pairwise_cons.2 ⟨fun x hx => ?_, h⟩
      rcases List.mem_cons.1 hx with rfl | hx
      · exact hab
      · exact Trans.trans hab (hb x hx)
    · split
      · next hba =>
        refine List.pairwise_cons.2 ⟨fun x hx => ?_, ih hrest⟩
        rcases mem_of_mem_insertSorted hx with rfl | hx
        · exact hba
        · exact hb x hx
      · exact h

def insert (s : SortedSet α) (a : α) : SortedSet α :=
  ⟨insertSorted a s.toList, sorted_insertSorted a s.sorted⟩

end Insert

variable {α : Type} [LT α]

def empty : SortedSet α := ⟨[], .nil⟩

instance : EmptyCollection (SortedSet α) := ⟨empty⟩
instance : Inhabited (SortedSet α) := ⟨empty⟩

@[ext] theorem ext {s t : SortedSet α} (h : s.toList = t.toList) : s = t := by
  cases s; cases t; cases h; rfl

instance [DecidableEq α] : DecidableEq (SortedSet α) := fun s t =>
  decidable_of_iff (s.toList = t.toList) ⟨ext, fun h => h ▸ rfl⟩

instance : Membership α (SortedSet α) := ⟨fun s a => a ∈ s.toList⟩

def contains [BEq α] (s : SortedSet α) (a : α) : Bool := s.toList.contains a

def isEmpty (s : SortedSet α) : Bool := s.toList.isEmpty

def size (s : SortedSet α) : Nat := s.toList.length

section Build
variable [DecidableLT α]
  [Trans (fun a b : α => a < b) (fun a b : α => a < b) (fun a b : α => a < b)]

def ofList (xs : List α) : SortedSet α := xs.foldl insert ∅

def union (s t : SortedSet α) : SortedSet α := t.toList.foldl insert s

end Build
end SortedSet
end Observatory
