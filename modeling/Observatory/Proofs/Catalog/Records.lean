import Mathlib.Data.List.Nodup

/-! Looking records up by a key.

The first record with a key counts (`IsFirst`), and it is the one that is found
(`find?_eq_some_iff`). Where keys are distinct there is one such record at most: a stored
record is found under its own key (`find?_of_mem`), and among some of the records it is
found unless it is left out (`find?_filter`). -/
namespace Observatory.Records

/-- The first record that has a key: it has the key, and none of the records before it has. -/
structure IsFirst {α κ : Type} (key : α → κ) (k : κ) (xs : List α) (x : α) : Prop where
  key_eq : key x = k
  first : ∃ before after, xs = before ++ x :: after ∧ ∀ y ∈ before, key y ≠ k

variable {α κ : Type} [DecidableEq κ] {key : α → κ} {xs : List α}

theorem find?_eq_some_iff {k : κ} {x : α} :
    xs.find? (key · == k) = some x ↔ IsFirst key k xs x := by
  rw [List.find?_eq_some_iff_append]
  constructor
  · intro ⟨hkey, before, after, hxs, hbefore⟩
    exact ⟨eq_of_beq hkey, before, after, hxs, fun y hy => by simpa using hbefore y hy⟩
  · intro ⟨hkey, before, after, hxs, hbefore⟩
    exact ⟨beq_iff_eq.mpr hkey, before, after, hxs, fun y hy => by simpa using hbefore y hy⟩

theorem head?_filter_iff {k : κ} {x : α} :
    (xs.filter fun y => decide (key y = k)).head? = some x ↔ IsFirst key k xs x := by
  rw [List.head?_filter]
  exact find?_eq_some_iff

/-- There is a first record with a key if there is one at all. -/
theorem exists_isFirst_iff {k : κ} : (∃ x, IsFirst key k xs x) ↔ ∃ x ∈ xs, key x = k := by
  simp only [← find?_eq_some_iff, ← Option.isSome_iff_exists, List.find?_isSome, beq_iff_eq]

namespace IsFirst
variable {k : κ} {x y : α}

theorem mem (h : IsFirst key k xs x) : x ∈ xs := List.mem_of_find?_eq_some (find?_eq_some_iff.mpr h)

theorem unique (h : IsFirst key k xs x) (h' : IsFirst key k xs y) : x = y := by
  rw [← find?_eq_some_iff] at h h'
  exact Option.some.inj (h.symm.trans h')

end IsFirst

theorem key_of_find? {k : κ} {x : α} (h : xs.find? (key · == k) = some x) : key x = k := by
  have := List.find?_some h
  exact eq_of_beq this

theorem find?_of_mem (h : (xs.map key).Nodup) {x : α} (hx : x ∈ xs) :
    xs.find? (key · == key x) = some x := by
  cases hfind : xs.find? (key · == key x) with
  | none =>
    have := List.find?_eq_none.mp hfind x hx
    exact absurd (beq_self_eq_true (key x)) this
  | some y =>
    rw [List.inj_on_of_nodup_map h (List.mem_of_find?_eq_some hfind) hx (key_of_find? hfind)]

/-- Where keys are distinct every record is the first with its key. -/
theorem isFirst_of_mem (h : (xs.map key).Nodup) {x : α} (hx : x ∈ xs) : IsFirst key (key x) xs x :=
  find?_eq_some_iff.mp (find?_of_mem h hx)

theorem find?_filter (h : (xs.map key).Nodup) (keep : α → Bool) (k : κ) :
    (xs.filter keep).find? (key · == k) = (xs.find? (key · == k)).filter keep := by
  cases hfind : xs.find? (key · == k) with
  | none =>
    rw [Option.filter_none, List.find?_eq_none]
    intro x hx
    exact List.find?_eq_none.mp hfind x (List.mem_of_mem_filter hx)
  | some x =>
    have hx : x ∈ xs := List.mem_of_find?_eq_some hfind
    have hkey : key x = k := key_of_find? hfind
    by_cases hkeep : keep x = true
    · have hsub : ((xs.filter keep).map key).Nodup := h.sublist (List.filter_sublist.map key)
      rw [Option.filter_some_pos hkeep, ← hkey]
      exact find?_of_mem hsub (List.mem_filter.mpr ⟨hx, hkeep⟩)
    · rw [Option.filter_some_neg (by simpa using hkeep), List.find?_eq_none]
      intro y hy hyk
      obtain ⟨hy, hykeep⟩ := List.mem_filter.mp hy
      -- There is no other record with this key.
      have hyx : y = x := List.inj_on_of_nodup_map h hy hx ((eq_of_beq hyk).trans hkey.symm)
      exact hkeep (hyx ▸ hykeep)

end Observatory.Records
