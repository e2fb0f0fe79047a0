import Mathlib.Logic.Function.Basic

/-!
# Partial maps that are updated at one place

What a map to an `Option` holds after `Function.update`: the new value, or an old one elsewhere.
-/

set_option autoImplicit false

namespace PartialMap

variable {κ α : Type} [DecidableEq κ] {f : κ → Option α} {k i : κ} {x : α}

theorem update_eq_some {y : Option α} (h : Function.update f k y i = some x) :
    i = k ∧ y = some x ∨ i ≠ k ∧ f i = some x := by
  by_cases hi : i = k
  · subst hi
    rw [Function.update_self] at h
    exact .inl ⟨rfl, h⟩
  · rw [Function.update_of_ne hi] at h
    exact .inr ⟨hi, h⟩

theorem update_some_eq_some {y : α} (h : Function.update f k (some y) i = some x) :
    i = k ∧ x = y ∨ i ≠ k ∧ f i = some x :=
  (update_eq_some h).imp_left fun ⟨hi, hy⟩ => ⟨hi, (Option.some.inj hy).symm⟩

theorem update_none_eq_some (h : Function.update f k none i = some x) : i ≠ k ∧ f i = some x :=
  (update_eq_some h).resolve_left fun ⟨_, hnone⟩ => nomatch hnone

end PartialMap
