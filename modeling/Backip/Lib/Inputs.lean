import Mathlib.Data.List.Basic

/-!
# Machines that only wait for their inputs

If in every state at most one event can occur, or else only inputs can, then what happens is a
function of the inputs: two runs with the same inputs are one run, one of them further on
(`prefix_of_inputs`).
-/

set_option autoImplicit false

section

variable {σ ε α : Type}

/-- Two events can occur in one state only if both are inputs; inputs are told apart. -/
structure Forced (step : σ → ε → Option σ) (input : ε → Option α) : Prop where
  forced : ∀ s e e' s₁ s₂, step s e = some s₁ → step s e' = some s₂ →
    e = e' ∨ (input e).isSome = true ∧ (input e').isSome = true
  inj : ∀ e e' a, input e = some a → input e' = some a → e = e'

/-- The state after the events. -/
def after? (step : σ → ε → Option σ) : σ → List ε → Option σ
  | s, [] => some s
  | s, e :: es => (step s e).bind fun s' => after? step s' es

variable {step : σ → ε → Option σ} {input : ε → Option α}

theorem after?_append (s : σ) (es es' : List ε) :
    after? step s (es ++ es') = (after? step s es).bind fun s' => after? step s' es' := by
  induction es generalizing s with
  | nil => rfl
  | cons e es ih =>
    rw [List.cons_append, after?, after?]
    cases step s e with
    | none => rfl
    | some s' => exact ih s'

theorem Forced.prefix_of_inputs (h : Forced step input) {s s₁ s₂ : σ} {es es' : List ε}
    (h₁ : after? step s es = some s₁) (h₂ : after? step s es' = some s₂)
    (hin : es.filterMap input = es'.filterMap input) : es <+: es' ∨ es' <+: es := by
  induction es generalizing s es' with
  | nil => exact .inl List.nil_prefix
  | cons e es ih =>
    cases es' with
    | nil => exact .inr List.nil_prefix
    | cons e' es' =>
      obtain ⟨t, ht, h₁⟩ := Option.bind_eq_some_iff.1 h₁
      obtain ⟨t', ht', h₂⟩ := Option.bind_eq_some_iff.1 h₂
      have he : e = e' := by
        rcases h.forced s e e' t t' ht ht' with he | ⟨hi, hi'⟩
        · exact he
        · obtain ⟨a, ha⟩ := Option.isSome_iff_exists.1 hi
          obtain ⟨a', ha'⟩ := Option.isSome_iff_exists.1 hi'
          rw [List.filterMap_cons_some ha, List.filterMap_cons_some ha'] at hin
          obtain ⟨rfl, -⟩ := List.cons.inj hin
          exact h.inj e e' a ha ha'
      subst he
      obtain rfl := Option.some.inj (ht.symm.trans ht')
      have hrest : es.filterMap input = es'.filterMap input := by
        cases ha : input e with
        | none => rwa [List.filterMap_cons_none ha, List.filterMap_cons_none ha] at hin
        | some a =>
          rw [List.filterMap_cons_some ha, List.filterMap_cons_some ha] at hin
          exact (List.cons.inj hin).2
      exact (ih h₁ h₂ hrest).imp (List.prefix_cons_inj e).2 (List.prefix_cons_inj e).2

end
