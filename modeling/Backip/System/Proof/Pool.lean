import Backip.Lib.Machine
import Backip.System.PoolP
import Mathlib.Data.List.Nodup
import Mathlib.Data.List.Perm.Subperm

/-!
# A pool and its clients

`PoolP.Lent` is a pool with the objects its clients have: obtained by `get` and not yet given back.
Clients only give back what they have. The free objects and those outside are the objects of the pool,
each once (`Lent.Whole`), from which all that clients rely on follows (`PoolP.conserves`).

`free`, which is what `Pool.size` returns, and `index` are `uint8_t`s in the code. They are at most
`size`, and `size` is one too.
-/

set_option autoImplicit false

namespace PoolP

variable {α : Type} {size : Nat}

structure Lent (α : Type) (size : Nat) where
  pool : PoolP α size
  outside : List α

inductive Event (α : Type)
  | get
  | put (x : α)
deriving DecidableEq, Repr

namespace Lent

variable [DecidableEq α]

def step (s : Lent α size) : Event α → Option (Lent α size)
  | .get =>
    let r := s.pool.get
    some ⟨r.2, r.1.toList ++ s.outside⟩
  | .put x =>
    if x ∈ s.outside then
      let r := s.pool.put x
      some ⟨r.2, if r.1 = .success then s.outside.erase x else s.outside⟩
    else none

/-- A pool from `Init.init` on, where `pool i` is the address of `pool[i]`. -/
def machine (pool : Nat → α) (hsize : 0 < size) : Machine (Lent α size) (Event α) where
  init s := s = ⟨PoolP.init pool hsize, []⟩
  step := step

omit [DecidableEq α] in
/-- Every object of the pool is free or outside. -/
def Whole (pool : Nat → α) (s : Lent α size) : Prop :=
  (s.pool.toList ++ s.outside).Perm ((List.range size).map pool)

variable {pool : Nat → α} {s s' : Lent α size}

omit [DecidableEq α] in
theorem Whole.length (h : s.Whole pool) : s.pool.toList.length + s.outside.length = size := by
  rw [← List.length_append, h.length_eq, List.length_map, List.length_range]

omit [DecidableEq α] in
/-- While an object is outside, the pool has room. -/
theorem Whole.room (h : s.Whole pool) {x : α} (hx : x ∈ s.outside) : s.pool.toList.length < size := by
  have hlen := h.length
  have hpos := List.length_pos_of_mem hx
  omega

theorem Whole.step {e : Event α} (h : s.Whole pool) (hs : s.step e = some s') : s'.Whole pool := by
  cases e with
  | get =>
    cases hs
    cases hl : s.pool.toList with
    | nil =>
      rw [get_nil hl]
      exact h
    | cons x l =>
      obtain ⟨hx, hrest⟩ := get_cons hl
      rw [Whole, hl] at h
      rw [Whole, hx, hrest]
      exact List.perm_middle.trans h
  | put x =>
    obtain ⟨hx, hs⟩ := Option.ite_none_right_eq_some.1 hs
    cases hs
    obtain ⟨hret, hput⟩ := put_ok x (h.room hx)
    rw [Whole, hput, if_pos hret, List.append_assoc, List.singleton_append]
    exact ((List.perm_cons_erase hx).symm.append_left _).trans h

theorem reachable_whole (hsize : 0 < size) (h : (machine pool hsize).Reachable s) : s.Whole pool := by
  refine h.inv ⟨fun s hi => ?_, fun s e s' hw hs => hw.step hs⟩
  rw [show s = _ from hi, Whole, toList_init, List.append_nil]

end Lent

open Lent

variable [DecidableEq α]

/-- **A pool conserves its objects.** -/
theorem conserves (pool : Nat → α) (hsize : 0 < size)
    (hdistinct : ∀ i < size, ∀ j < size, pool i = pool j → i = j) {s : Lent α size}
    (h : (machine pool hsize).Reachable s) :
    (∀ x, s.pool.get.1 = some x → x ∉ s.outside) ∧
      (s.pool.get.1 = none ↔ ∀ i < size, pool i ∈ s.outside) ∧
      (∀ x ∈ s.outside, (s.pool.put x).1 = .success) ∧
      (∀ x, s.pool.free = size → s.pool.put x = (.fail, s.pool)) ∧
      s.pool.free + s.outside.length = size := by
  have hw := reachable_whole hsize h
  have hnodup : (s.pool.toList ++ s.outside).Nodup := by
    refine hw.nodup_iff.2 (List.Nodup.map_on ?_ List.nodup_range)
    exact fun i hi j hj => hdistinct i (List.mem_range.1 hi) j (List.mem_range.1 hj)
  have hlen := hw.length
  refine ⟨fun x hx => ?_, ?_, fun x hx => (put_ok x (hw.room hx)).1, fun x hfull => ?_, ?_⟩
  · cases hl : s.pool.toList with
    | nil => rw [get_nil hl] at hx; cases hx
    | cons y l =>
      obtain rfl : y = x := Option.some.inj ((get_cons hl).1.symm.trans hx)
      rw [hl] at hnodup
      exact fun hout => (List.nodup_cons.1 hnodup).1 (List.mem_append_right _ hout)
  · cases hl : s.pool.toList with
    | nil =>
      rw [get_nil hl]
      refine iff_of_true rfl fun i hi => ?_
      rw [Whole, hl, List.nil_append] at hw
      exact hw.symm.subset (List.mem_map_of_mem (List.mem_range.2 hi))
    | cons x l =>
      rw [(get_cons hl).1]
      refine iff_of_false nofun fun hall => ?_
      -- the objects outside would be as many as the pool has
      have hle := (List.subperm_of_subset (hw.nodup_iff.1 hnodup)
        (fun y hy => by
          obtain ⟨i, hi, rfl⟩ := List.mem_map.1 hy
          exact hall i (List.mem_range.1 hi))).length_le
      rw [List.length_map, List.length_range] at hle
      rw [hl, List.length_cons] at hlen
      omega
  · exact put_full x (by rw [length_toList, hfull])
  · rw [← length_toList]
    exact hlen

/-- Both objects of a pool of two are outside, and one comes back. -/
theorem conserves_two : ∃ s, (machine id (by decide : 0 < 2)).Reachable s ∧ s.outside = [0] ∧
    s.pool.free + s.outside.length = 2 := by
  obtain ⟨h, s, hr, hs⟩ := Machine.exists_run_of_exec
    (M := machine id (by decide : 0 < 2)) rfl [.get, .get, .get, .put 1]
    (fun _ s => s.outside = [0]) (by decide)
  exact ⟨s, ⟨h, hr⟩, of_decide_eq_true hs,
    (conserves id (by decide) (fun _ _ _ _ h => h) ⟨h, hr⟩).2.2.2.2⟩

end PoolP
