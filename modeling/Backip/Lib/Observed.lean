import Mathlib.Data.List.Basic

/-!
# The part of a state that is observed

A part of a state may be absent. If an event changes it only as far as the event is visible, then
what it is after a run is a function of the visible events since it last came into being
(`Unentered.observed`).
-/

set_option autoImplicit false

section

variable {σ ε ω : Type} (step : σ → ε → σ) (obs : σ → Option ω)

/-- The part comes into being. -/
def Enters (s : σ) (e : ε) : Prop := obs s = none ∧ obs (step s e) ≠ none

/-- In a run the part does not come into being. -/
def Unentered : σ → List ε → Prop
  | _, [] => True
  | s, e :: es => ¬Enters step obs s e ∧ Unentered (step s e) es

instance decidableEnters (s : σ) (e : ε) : Decidable (Enters step obs s e) :=
  inferInstanceAs (Decidable (obs s = none ∧ obs (step s e) ≠ none))

instance decidableUnentered (s : σ) : (es : List ε) → Decidable (Unentered step obs s es)
  | [] => .isTrue trivial
  | e :: es =>
    have := decidableUnentered (step s e) es
    inferInstanceAs (Decidable (¬Enters step obs s e ∧ Unentered step obs (step s e) es))

variable {step obs} {s : σ} {es : List ε}

theorem Unentered.absent (h : Unentered step obs s es) (hs : obs s = none) :
    obs (es.foldl step s) = none := by
  induction es generalizing s with
  | nil => exact hs
  | cons e es ih => exact ih h.2 (not_not.1 fun hc => h.1 ⟨hs, hc⟩)

/-- The rule for runs: `visible` is what an event shows, `act` what that does. -/
theorem Unentered.observed {α : Type} {visible : ε → Option α} {act : ω → α → ω} {Inv : σ → Prop}
    (hinv : ∀ s e, Inv s → Inv (step s e))
    (hstep : ∀ s e o, Inv s → obs s = some o →
      obs (step s e) = none ∨ obs (step s e) = some ((visible e).elim o (act o)))
    {o : ω} (hs : Inv s) (ho : obs s = some o) (h : Unentered step obs s es) :
    obs (es.foldl step s) = none ∨
      obs (es.foldl step s) = some ((es.filterMap visible).foldl act o) := by
  induction es generalizing s o with
  | nil => exact .inr ho
  | cons e es ih =>
    rcases hstep s e o hs ho with hnone | hsome
    · exact .inl (h.2.absent hnone)
    · rw [List.foldl_cons]
      have := ih (hinv s e hs) hsome h.2
      cases hv : visible e with
      | none => rwa [List.filterMap_cons_none hv, ← Option.elim_none o (act o), ← hv]
      | some a =>
        rw [List.filterMap_cons_some hv, List.foldl_cons]
        rwa [hv] at this

end
