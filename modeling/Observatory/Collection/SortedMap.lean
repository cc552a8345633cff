import Observatory.Collection.Order

/-! Finite maps as lists with increasing keys.

Translations are kept by locale and written in the order of the locales. -/
namespace Observatory

/-- A finite map from an ordered type. -/
structure SortedMap (κ β : Type) [LT κ] where
  /-- The entries in increasing order of their keys. -/
  entries : List (κ × β)
  sorted : entries.Pairwise fun x y => x.1 < y.1

namespace SortedMap
section Insert
variable {κ β : Type} [LT κ] [DecidableLT κ]

/-- Puts an entry in its place among entries with increasing keys; it takes the
place of an entry with its key. -/
def insertSorted (k : κ) (v : β) : List (κ × β) → List (κ × β)
  | [] => [(k, v)]
  | entry :: rest =>
    if k < entry.1 then (k, v) :: entry :: rest
    else if entry.1 < k then entry :: insertSorted k v rest
    else (entry.1, v) :: rest

theorem key_of_mem_insertSorted {k : κ} {v : β} {e : κ × β} {xs : List (κ × β)}
    (h : e ∈ insertSorted k v xs) : e.1 = k ∨ ∃ x ∈ xs, x.1 = e.1 := by
  induction xs with
  | nil =>
    simp only [insertSorted, List.mem_singleton] at h
    simp [h]
  | cons entry rest ih =>
    simp only [insertSorted] at h
    split at h
    · rcases List.mem_cons.1 h with rfl | h
      · simp
      · exact .inr ⟨e, h, rfl⟩
    · split at h
      · rcases List.mem_cons.1 h with rfl | h
        · exact .inr ⟨e, by simp, rfl⟩
        · rcases ih h with h | ⟨x, hx, hk⟩
          · exact .inl h
          · exact .inr ⟨x, by simp [hx], hk⟩
      · rcases List.mem_cons.1 h with rfl | h
        · exact .inr ⟨entry, by simp, rfl⟩
        · exact .inr ⟨e, by simp [h], rfl⟩

variable [Trans (fun a b : κ => a < b) (fun a b : κ => a < b) (fun a b : κ => a < b)]

theorem sorted_insertSorted (k : κ) (v : β) {xs : List (κ × β)}
    (h : xs.Pairwise fun x y => x.1 < y.1) :
    (insertSorted k v xs).Pairwise fun x y => x.1 < y.1 := by
  induction xs with
  | nil => simp [insertSorted]
  | cons entry rest ih =>
    obtain ⟨he, hrest⟩ := List.pairwise_cons.1 h
    simp only [insertSorted]
    split
    · next hk =>
      refine List.pairwise_cons.2 ⟨fun x hx => ?_, h⟩
      rcases List.mem_cons.1 hx with rfl | hx
      · exact hk
      · exact Trans.trans hk (he x hx)
    · split
      · next hk =>
        refine List.pairwise_cons.2 ⟨fun x hx => ?_, ih hrest⟩
        rcases key_of_mem_insertSorted hx with hx | ⟨y, hy, hx⟩
        · exact hx ▸ hk
        · exact hx ▸ he y hy
      · exact List.pairwise_cons.2 ⟨fun x hx => he x hx, hrest⟩

def insert (m : SortedMap κ β) (k : κ) (v : β) : SortedMap κ β :=
  ⟨insertSorted k v m.entries, sorted_insertSorted k v m.sorted⟩

end Insert

variable {κ β : Type} [LT κ]

def empty : SortedMap κ β := ⟨[], .nil⟩

instance : EmptyCollection (SortedMap κ β) := ⟨empty⟩
instance : Inhabited (SortedMap κ β) := ⟨empty⟩

@[ext] theorem ext {m n : SortedMap κ β} (h : m.entries = n.entries) : m = n := by
  cases m; cases n; cases h; rfl

def isEmpty (m : SortedMap κ β) : Bool := m.entries.isEmpty

def find? [BEq κ] (m : SortedMap κ β) (k : κ) : Option β := m.entries.lookup k

/-- The map of a list of entries, later ones taking the place of earlier ones with
their key. -/
def ofList [DecidableLT κ]
    [Trans (fun a b : κ => a < b) (fun a b : κ => a < b) (fun a b : κ => a < b)]
    (entries : List (κ × β)) : SortedMap κ β :=
  entries.foldl (fun m entry => m.insert entry.1 entry.2) ∅

end SortedMap
end Observatory
