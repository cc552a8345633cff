import Mathlib.Data.Int.Order.Basic
import Mathlib.Tactic.SplitIfs
import Observatory.Time.Instant

/-! The order of instants.

Instants are ordered by their ordinals. The ordinal tells every field of an instant
(`ordinal_injective`), so of two instants one comes first unless they are the same, and sets of
instants can be looked at through their members. -/
namespace Observatory.Instant

/-- The fields of an instant can be told from its ordinal, so no two instants tie. -/
theorem ordinal_injective : Function.Injective Instant.ordinal := by
  rintro ⟨⟨year, month, day, _, hmonth, hday⟩, hour, minute, second, nano⟩
    ⟨⟨year', month', day', _, hmonth', hday'⟩, hour', minute', second', nano'⟩ h
  have hdays (y : Int) (m : Nat) : daysIn y m ≤ 31 := by
    unfold daysIn
    split_ifs <;> decide
  have hlast := hdays year month
  have hlast' := hdays year' month'
  simp only [ordinal] at h
  obtain ⟨hn, hn'⟩ := And.intro nano.isLt nano'.isLt
  obtain ⟨hs, hs'⟩ := And.intro second.isLt second'.isLt
  obtain ⟨hm, hm'⟩ := And.intro minute.isLt minute'.isLt
  obtain ⟨hh, hh'⟩ := And.intro hour.isLt hour'.isLt
  have e₁ : nano.val = nano'.val := by omega
  have e₂ : second.val = second'.val := by omega
  have e₃ : minute.val = minute'.val := by omega
  have e₄ : hour.val = hour'.val := by omega
  have e₅ : day = day' := by omega
  have e₆ : month = month' := by omega
  have e₇ : year = year' := by omega
  obtain rfl := Fin.ext e₁
  obtain rfl := Fin.ext e₂
  obtain rfl := Fin.ext e₃
  obtain rfl := Fin.ext e₄
  subst e₅ e₆ e₇
  rfl

instance : Std.Asymm (α := Instant) (· < ·) := ⟨fun _ _ h h' => Int.lt_asymm h h'⟩

instance : Std.Trichotomous (α := Instant) (· < ·) :=
  ⟨fun _ _ h h' => ordinal_injective (Int.le_antisymm (Int.not_lt.mp h') (Int.not_lt.mp h))⟩

end Observatory.Instant
