import Backip.Lib.Ring
import Backip.System.Types

/-!
# Pools of objects (`tos/system/PoolP.nc`)

`PoolP α size` is the state of one `PoolP` instance whose objects have addresses of type `α`: the
array `queue` of free objects (`none`: `NULL`), used as a ring from `index` on. The fields after
the variables say what every reachable state keeps, so that `get` and `put` never leave it.

`PoolP.toList` is the abstraction, the free objects in the order `get` hands them out; all that
callers use is `get_cons`, `get_nil` (the first free object, or `NULL` when there is none) and
`put_ok`, `put_full` (an object put back is handed out last; a full pool refuses it).
-/

set_option autoImplicit false

structure PoolP (α : Type) (size : Nat) where
  free : Nat
  index : Nat
  queue : Nat → Option α
  free_le : free ≤ size
  index_lt : index < size
  live : ∀ i < free, (queue (Ring.idx size index i)).isSome

namespace PoolP

variable {α : Type} {size : Nat}

/-- `Init.init`, where `pool i` is the address of `pool[i]`. -/
def init (pool : Nat → α) (hsize : 0 < size) : PoolP α size where
  free := size
  index := 0
  queue i := some (pool i)
  free_le := Nat.le_refl _
  index_lt := hsize
  live _ _ := rfl

/-- `Pool.empty`. -/
def empty (p : PoolP α size) : Bool := p.free == 0

/-- The free objects, in the order `get` hands them out. -/
def toList (p : PoolP α size) : List α :=
  (Ring.window p.queue size p.index p.free).filterMap id

/-- `Pool.get`. -/
def get (p : PoolP α size) : Option α × PoolP α size :=
  if h : p.free = 0 then (none, p)
  else
    (p.queue p.index,
      { free := p.free - 1
        index := if p.index + 1 = size then 0 else p.index + 1
        queue := Function.update p.queue p.index none
        free_le := by have := p.free_le; omega
        index_lt := by have := p.index_lt; split <;> omega
        live := fun i hi => by
          have h1 := p.index_lt
          have h2 := p.free_le
          have hne : Ring.idx size (if p.index + 1 = size then 0 else p.index + 1) i ≠ p.index := by
            unfold Ring.idx; split <;> split <;> omega
          have heq : Ring.idx size (if p.index + 1 = size then 0 else p.index + 1) i
              = Ring.idx size p.index (i + 1) := by
            unfold Ring.idx; split <;> split <;> split <;> omega
          rw [Function.update_of_ne hne, heq]
          exact p.live (i + 1) (by omega) })

/-- `Pool.put`. -/
def put (p : PoolP α size) (newVal : α) : TinyError × PoolP α size :=
  if h : p.free ≥ size then (.fail, p)
  else
    let emptyIndex := if p.index + p.free ≥ size then p.index + p.free - size else p.index + p.free
    (.success,
      { free := p.free + 1
        index := p.index
        queue := Function.update p.queue emptyIndex (some newVal)
        free_le := by omega
        index_lt := p.index_lt
        live := fun i hi => by
          by_cases he : Ring.idx size p.index i = emptyIndex
          · rw [he, Function.update_self]; rfl
          · rw [Function.update_of_ne he]
            refine p.live i (Nat.lt_of_le_of_ne (by omega) fun hif => he ?_)
            subst hif
            simp only [Ring.idx, emptyIndex]
            split <;> split <;> omega })

/-! ## What the operations do to the free objects -/

theorem window_eq_map (p : PoolP α size) :
    Ring.window p.queue size p.index p.free = p.toList.map some := by
  have h : ∀ o ∈ Ring.window p.queue size p.index p.free, o.isSome := by
    intro o ho
    obtain ⟨i, hi, rfl⟩ := Ring.mem_window.1 ho
    exact p.live i hi
  unfold toList
  generalize Ring.window p.queue size p.index p.free = l at h ⊢
  induction l with
  | nil => rfl
  | cons o l ih =>
    obtain ⟨x, rfl⟩ := Option.isSome_iff_exists.1 (h o (.head _))
    simp only [List.filterMap_cons, id, List.map_cons, List.cons.injEq, true_and]
    exact ih fun o ho => h o (.tail _ ho)

theorem toList_of_window {p : PoolP α size} {l : List α}
    (h : Ring.window p.queue size p.index p.free = l.map some) : p.toList = l := by
  rw [toList, h, List.filterMap_map]
  exact List.filterMap_some

@[simp] theorem length_toList (p : PoolP α size) : p.toList.length = p.free := by
  rw [← List.length_map (f := some), ← window_eq_map, Ring.length_window]

theorem length_le (p : PoolP α size) : p.toList.length ≤ size := by
  rw [length_toList]; exact p.free_le

theorem toList_init (pool : Nat → α) (hsize : 0 < size) :
    (init pool hsize).toList = (List.range size).map pool := by
  refine toList_of_window ?_
  simp only [Ring.window, init, List.map_map]
  apply List.map_congr_left
  intro i hi
  rw [List.mem_range] at hi
  simp [Ring.idx, hi]

theorem empty_iff (p : PoolP α size) : p.empty = true ↔ p.toList = [] := by
  rw [← List.length_eq_zero_iff, length_toList, empty, beq_iff_eq]

/-- `get` hands out the first free object. -/
theorem get_cons {p : PoolP α size} {x : α} {l : List α} (h : p.toList = x :: l) :
    p.get.1 = some x ∧ p.get.2.toList = l := by
  have hlen : p.free = l.length + 1 := by rw [← length_toList, h]; rfl
  have h1 := p.index_lt
  have h2 := p.free_le
  have hw := p.window_eq_map
  rw [h, hlen, Ring.window_cons p.queue h1 (by omega)] at hw
  simp only [List.map_cons, List.cons.injEq] at hw
  obtain ⟨hx, hl⟩ := hw
  have hidx : (if p.index + 1 = size then 0 else p.index + 1) = Ring.idx size p.index 1 := by
    unfold Ring.idx; split <;> split <;> omega
  unfold get
  rw [dif_neg (show p.free ≠ 0 by omega)]
  refine ⟨hx, toList_of_window ?_⟩
  dsimp only
  rw [hidx, show p.free - 1 = l.length by omega, ← hl]
  apply Ring.window_update_of_ne _
  intro i hi he
  rw [Ring.idx_idx h1 (by omega)] at he
  have := Ring.idx_inj (by omega : 1 + i < size) (by omega : 0 < size)
    (he.trans (Ring.idx_zero h1).symm)
  omega

theorem get_nil {p : PoolP α size} (h : p.toList = []) : p.get = (none, p) := by
  have : p.free = 0 := by rw [← length_toList, h]; rfl
  simp [get, this]

/-- An object put back is handed out last. -/
theorem put_ok {p : PoolP α size} (x : α) (h : p.toList.length < size) :
    (p.put x).1 = .success ∧ (p.put x).2.toList = p.toList ++ [x] := by
  rw [length_toList] at h
  have hidx : (if p.index + p.free ≥ size then p.index + p.free - size else p.index + p.free)
      = Ring.idx size p.index p.free := by
    unfold Ring.idx; split <;> split <;> omega
  unfold put
  rw [dif_neg (show ¬ p.free ≥ size by omega)]
  refine ⟨rfl, toList_of_window ?_⟩
  dsimp only
  rw [hidx, Ring.window_push _ _ h, window_eq_map, List.map_append]
  rfl

/-- A full pool refuses an object. -/
theorem put_full {p : PoolP α size} (x : α) (h : p.toList.length = size) :
    p.put x = (.fail, p) := by
  rw [length_toList] at h
  simp [put, h]

end PoolP
