import Mathlib.Data.List.Basic
import Mathlib.Data.List.Forall2

/-! Outcomes, and lists of them.

An outcome that is carried on succeeds only where each of its parts does (`exists_of_map_ok`,
`exists_of_bind_ok`). A list is gone through in order and the first failure ends it: where every
element succeeds so does the list (`mapM_ok`, `mapM_answers`), where some element fails so does
the list (`mapM_fails`), and it is the first of them that is reported (`mapM_first`). -/
namespace Observatory.Outcomes

/-! ### One outcome -/

section One
variable {α β γ ε : Type} {r : Except ε α}

theorem map_map (r : Except ε α) (f : α → β) (g : β → γ) :
    (r.map f).map g = r.map fun a => g (f a) := by
  cases r <;> rfl

theorem exists_of_map_ok {f : α → β} {b : β} (h : r.map f = .ok b) : ∃ a, r = .ok a ∧ f a = b := by
  cases r with
  | ok a => exact ⟨a, rfl, Except.ok.inj h⟩
  | error e => exact nomatch h

theorem exists_of_bind_ok {f : α → Except ε β} {b : β} (h : (r >>= f) = .ok b) :
    ∃ a, r = .ok a ∧ f a = .ok b := by
  cases r with
  | ok a => exact ⟨a, rfl, h⟩
  | error e => exact nomatch h

end One

/-! ### Lists of outcomes -/

variable {α β ε : Type} {f : α → Except ε β}

theorem mapM_ok {g : α → β} {xs : List α} (h : ∀ x ∈ xs, f x = .ok (g x)) :
    xs.mapM f = .ok (xs.map g) := by
  induction xs with
  | nil => rfl
  | cons x rest ih =>
    rw [List.mapM_cons, h x (List.mem_cons_self ..),
      ih fun y hy => h y (List.mem_cons_of_mem x hy)]
    rfl

theorem mapM_fails {xs : List α} (h : ∃ x ∈ xs, ∃ e, f x = .error e) :
    ∃ e, xs.mapM f = .error e := by
  induction xs with
  | nil =>
    obtain ⟨x, hx, _⟩ := h
    exact absurd hx List.not_mem_nil
  | cons x rest ih =>
    rw [List.mapM_cons]
    cases hx : f x with
    | error e => exact ⟨e, rfl⟩
    | ok y =>
      obtain ⟨z, hz, e, he⟩ := h
      rcases List.mem_cons.mp hz with rfl | hz
      · rw [hx] at he
        exact absurd he (by simp)
      · obtain ⟨e, hrest⟩ := ih ⟨z, hz, e, he⟩
        exact ⟨e, by rw [hrest]; rfl⟩

/-- Where every element succeeds, there is one answer for each, in order. -/
theorem mapM_answers {xs : List α} (h : ∀ x ∈ xs, ∃ y, f x = .ok y) :
    ∃ ys, xs.mapM f = .ok ys ∧ List.Forall₂ (fun x y => f x = .ok y) xs ys := by
  induction xs with
  | nil => exact ⟨[], rfl, .nil⟩
  | cons x rest ih =>
    obtain ⟨y, hy⟩ := h x (List.mem_cons_self ..)
    obtain ⟨ys, hys, hall⟩ := ih fun z hz => h z (List.mem_cons_of_mem x hz)
    refine ⟨y :: ys, ?_, .cons hy hall⟩
    rw [List.mapM_cons, hy, hys]
    rfl

/-- An answer of the list is that of an element. -/
theorem exists_of_answer {xs : List α} {ys : List β} {y : β}
    (h : List.Forall₂ (fun x y => f x = .ok y) xs ys) (hy : y ∈ ys) : ∃ x ∈ xs, f x = .ok y := by
  induction h with
  | nil => exact absurd hy List.not_mem_nil
  | @cons x z xs ys hx _ ih =>
    rcases List.mem_cons.mp hy with rfl | hy
    · exact ⟨x, List.mem_cons_self .., hx⟩
    · obtain ⟨w, hw, hwy⟩ := ih hy
      exact ⟨w, List.mem_cons_of_mem x hw, hwy⟩

/-- What each answer keeps of its element, the answers keep of the list. -/
theorem map_answers {γ : Type} {g : β → γ} {k : α → γ} {xs : List α} {ys : List β}
    (h : List.Forall₂ (fun x y => f x = .ok y) xs ys) (hg : ∀ x y, f x = .ok y → g y = k x) :
    ys.map g = xs.map k := by
  induction h with
  | nil => rfl
  | @cons x y xs ys hy _ ih => rw [List.map_cons, List.map_cons, hg x y hy, ih]

/-- The first element that is rejected is reported. -/
theorem mapM_first {p : α → Bool} {xs : List α} {x : α} {e : ε} (hx : xs.find? p = some x)
    (he : f x = .error e) (hok : ∀ y, p y = false → ∃ z, f y = .ok z) : xs.mapM f = .error e := by
  induction xs with
  | nil => exact nomatch hx
  | cons y rest ih =>
    rw [List.mapM_cons]
    rw [List.find?_cons] at hx
    cases hy : p y with
    | true =>
      rw [hy] at hx
      obtain rfl := Option.some.inj hx
      rw [he]
      rfl
    | false =>
      rw [hy] at hx
      obtain ⟨z, hz⟩ := hok y hy
      rw [hz, ih hx]
      rfl

end Observatory.Outcomes
