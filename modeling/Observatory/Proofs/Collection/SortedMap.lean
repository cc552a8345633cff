import Observatory.Collection.SortedMap

/-! Maps of their own entries.

Entries that come in the order of their keys are put at the end one after the other, so
that a map is the map of its entries (`ofList_entries`). -/
namespace Observatory.SortedMap
variable {κ β : Type} [LT κ] [DecidableLT κ] [Std.Asymm (α := κ) (· < ·)]

/-- An entry above all others is put at the end. -/
theorem insertSorted_last {k : κ} {v : β} {xs : List (κ × β)} (h : ∀ x ∈ xs, x.1 < k) :
    insertSorted k v xs = xs ++ [(k, v)] := by
  induction xs with
  | nil => rfl
  | cons entry rest ih =>
    obtain ⟨hentry, hrest⟩ := List.forall_mem_cons.mp h
    rw [insertSorted, if_neg (Std.Asymm.asymm _ _ hentry), if_pos hentry, ih hrest, List.cons_append]

variable [Trans (fun a b : κ => a < b) (fun a b : κ => a < b) (fun a b : κ => a < b)]

theorem entries_foldl_insert {xs : List (κ × β)} {m : SortedMap κ β}
    (h : (m.entries ++ xs).Pairwise fun x y => x.1 < y.1) :
    (xs.foldl (fun m entry => m.insert entry.1 entry.2) m).entries = m.entries ++ xs := by
  induction xs generalizing m with
  | nil => exact (List.append_nil _).symm
  | cons entry rest ih =>
    have hlast : (m.insert entry.1 entry.2).entries = m.entries ++ [entry] :=
      insertSorted_last fun x hx => (List.pairwise_append.mp h).2.2 x hx entry List.mem_cons_self
    have hsplit : m.entries ++ entry :: rest = (m.insert entry.1 entry.2).entries ++ rest := by
      rw [hlast, List.append_assoc]
      rfl
    rw [hsplit] at h ⊢
    exact ih h

/-- A map is the map of its own entries. -/
theorem ofList_entries (m : SortedMap κ β) : ofList m.entries = m :=
  ext (entries_foldl_insert m.sorted)

end Observatory.SortedMap
