import Mathlib.Data.List.Basic

/-!
# Computations that read memory

`Probe α` reads bytes of a memory and remembers the addresses it read, in order. `Within lo hi` says
that all of them lie in a range; its rules follow the structure of the computation.
-/

set_option autoImplicit false

/-- A computation over a memory of bytes. -/
structure Probe (α : Type) where
  /-- The result, and the addresses that were read. -/
  run : (Int → UInt8) → α × List Int

namespace Probe

variable {α β : Type} {lo hi : Int} {mem : Int → UInt8}

/-- The byte at an address. -/
def read (a : Int) : Probe UInt8 := ⟨fun mem => (mem a, [a])⟩

instance : Monad Probe where
  pure a := ⟨fun _ => (a, [])⟩
  bind x f := ⟨fun mem => ((f (x.run mem).1).run mem |>.1,
    (x.run mem).2 ++ ((f (x.run mem).1).run mem).2)⟩

def val (x : Probe α) (mem : Int → UInt8) : α := (x.run mem).1

def reads (x : Probe α) (mem : Int → UInt8) : List Int := (x.run mem).2

@[simp] theorem val_read (a : Int) : (read a).val mem = mem a := rfl

@[simp] theorem val_pure (a : α) : (pure a : Probe α).val mem = a := rfl

@[simp] theorem val_bind (x : Probe α) (f : α → Probe β) :
    (x >>= f).val mem = (f (x.val mem)).val mem :=
  rfl

@[simp] theorem reads_read (a : Int) : (read a).reads mem = [a] := rfl

@[simp] theorem reads_pure (a : α) : (pure a : Probe α).reads mem = [] := rfl

@[simp] theorem reads_bind (x : Probe α) (f : α → Probe β) :
    (x >>= f).reads mem = x.reads mem ++ (f (x.val mem)).reads mem :=
  rfl

/-- Only bytes from `lo` up to `hi` are read. -/
def Within (lo hi : Int) (x : Probe α) (mem : Int → UInt8) : Prop :=
  ∀ a ∈ x.reads mem, lo ≤ a ∧ a < hi

theorem within_read {a : Int} : Within lo hi (read a) mem ↔ lo ≤ a ∧ a < hi := by
  simp [Within]

theorem within_pure (a : α) : Within lo hi (pure a : Probe α) mem := by
  simp [Within]

theorem within_bind {x : Probe α} {f : α → Probe β} :
    Within lo hi (x >>= f) mem ↔ Within lo hi x mem ∧ Within lo hi (f (x.val mem)) mem := by
  simp only [Within, reads_bind, List.forall_mem_append]

/-- A loop whose turns read only there. -/
theorem within_foldlM {γ : Type} {f : γ → α → Probe γ} {l : List α} (c : γ)
    (h : ∀ c, ∀ a ∈ l, Within lo hi (f c a) mem) : Within lo hi (l.foldlM f c) mem := by
  induction l generalizing c with
  | nil => exact within_pure c
  | cons a l ih =>
    rw [List.foldlM_cons, within_bind]
    exact ⟨h c a (.head _), ih _ fun c b hb => h c b (.tail _ hb)⟩

end Probe
