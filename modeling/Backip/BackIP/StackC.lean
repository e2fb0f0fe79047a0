import Backip.Lib.Ring
import Backip.System.Types

/-!
# The bounded stack (`tos/lib/net/backip/StackC.nc`)

`StackC α STACK_SIZE` is the state of one `StackC` instance: the array `stack`, used as a ring,
whose `size` elements stand in the cells from `bottom` up to `top`. With no element `top` and
`bottom` are the same cell, the one the next push writes. The fields after the variables say so.

`StackC.toList` is the abstraction, the elements from the bottom up. Each operation is its
operation on that list: `toList_pushTop`, `toList_pushBottom`, `toList_popTop`,
`toList_popBottom`.
-/

set_option autoImplicit false

structure StackC (α : Type) (STACK_SIZE : Nat) where
  stack : Nat → α
  top : Nat
  bottom : Nat
  size : Nat
  bottom_lt : bottom < STACK_SIZE
  size_le : size ≤ STACK_SIZE
  top_eq : top = Ring.idx STACK_SIZE bottom (size - 1)

namespace StackC

variable {α : Type} {STACK_SIZE : Nat}

/-- The initial state, with `stack` the array's initial contents. -/
def init (stack : Nat → α) (hsize : 0 < STACK_SIZE) : StackC α STACK_SIZE where
  stack := stack
  top := 0
  bottom := 0
  size := 0
  bottom_lt := hsize
  size_le := Nat.zero_le _
  top_eq := by simp [Ring.idx]

/-- `Stack.empty`. -/
def empty (s : StackC α STACK_SIZE) : Bool := s.size == 0

/-- `Stack.maxSize`. -/
def maxSize (_ : StackC α STACK_SIZE) : Nat := STACK_SIZE

/-- `Stack.popTop`. -/
def popTop (s : StackC α STACK_SIZE) : α × StackC α STACK_SIZE :=
  let t := s.stack s.top
  if s.size = 0 then (t, s)
  else
    (t,
      { stack := s.stack
        top := if s.size > 1 then if s.top = 0 then STACK_SIZE - 1 else s.top - 1 else s.top
        bottom := s.bottom
        size := s.size - 1
        bottom_lt := s.bottom_lt
        size_le := by have := s.size_le; omega
        top_eq := by
          have h1 := s.bottom_lt
          have h2 := s.size_le
          have h3 := s.top_eq
          unfold Ring.idx at h3 ⊢
          split at h3 <;> split <;> split <;> (try split) <;> omega })

/-- `Stack.popBottom`. -/
def popBottom (s : StackC α STACK_SIZE) : α × StackC α STACK_SIZE :=
  let t := s.stack s.bottom
  if s.size = 0 then (t, s)
  else
    (t,
      { stack := s.stack
        top := s.top
        bottom :=
          if s.size > 1 then if s.bottom = STACK_SIZE - 1 then 0 else s.bottom + 1 else s.bottom
        size := s.size - 1
        bottom_lt := by have := s.bottom_lt; split <;> (try split) <;> omega
        size_le := by have := s.size_le; omega
        top_eq := by
          have h1 := s.bottom_lt
          have h2 := s.size_le
          have h3 := s.top_eq
          unfold Ring.idx at h3 ⊢
          split at h3 <;> split <;> (try split) <;> (try split) <;> omega })

/-- `Stack.pushTop`. -/
def pushTop (s : StackC α STACK_SIZE) (newVal : α) : TinyError × StackC α STACK_SIZE :=
  if h : s.size = STACK_SIZE then (.fail, s)
  else
    let top := if s.size > 0 then if s.top = STACK_SIZE - 1 then 0 else s.top + 1 else s.top
    (.success,
      { stack := Function.update s.stack top newVal
        top := top
        bottom := s.bottom
        size := s.size + 1
        bottom_lt := s.bottom_lt
        size_le := by have := s.size_le; omega
        top_eq := by
          have h1 := s.bottom_lt
          have h2 := s.size_le
          have h3 := s.top_eq
          dsimp only [top]
          unfold Ring.idx at h3 ⊢
          split at h3 <;> split <;> (try split) <;> (try split) <;> omega })

/-- `Stack.pushBottom`. -/
def pushBottom (s : StackC α STACK_SIZE) (newVal : α) : TinyError × StackC α STACK_SIZE :=
  if h : s.size = STACK_SIZE then (.fail, s)
  else
    let bottom :=
      if s.size > 0 then if s.bottom = 0 then STACK_SIZE - 1 else s.bottom - 1 else s.bottom
    (.success,
      { stack := Function.update s.stack bottom newVal
        top := s.top
        bottom := bottom
        size := s.size + 1
        bottom_lt := by have := s.bottom_lt; dsimp only [bottom]; split <;> (try split) <;> omega
        size_le := by have := s.size_le; omega
        top_eq := by
          have h1 := s.bottom_lt
          have h2 := s.size_le
          have h3 := s.top_eq
          dsimp only [bottom]
          unfold Ring.idx at h3 ⊢
          split at h3 <;> split <;> (try split) <;> (try split) <;> omega })

/-- `Stack.element`: the sum is a `uint8_t`. -/
def element (s : StackC α STACK_SIZE) (idx : Nat) : α :=
  let idx := (idx + s.bottom) % 256
  s.stack (idx % STACK_SIZE)

/-- The elements, from the bottom up. -/
def toList (s : StackC α STACK_SIZE) : List α := Ring.window s.stack STACK_SIZE s.bottom s.size

/-! ## The operations on the list of elements -/

@[simp] theorem length_toList (s : StackC α STACK_SIZE) : s.toList.length = s.size :=
  Ring.length_window ..

theorem length_le (s : StackC α STACK_SIZE) : s.toList.length ≤ STACK_SIZE := by
  rw [length_toList]; exact s.size_le

@[simp] theorem toList_init (stack : Nat → α) (hsize : 0 < STACK_SIZE) :
    (init stack hsize).toList = [] := rfl

theorem empty_iff (s : StackC α STACK_SIZE) : s.empty = true ↔ s.toList = [] := by
  rw [← List.length_eq_zero_iff, length_toList, empty, beq_iff_eq]

theorem toList_popTop {s : StackC α STACK_SIZE} {l : List α} {x : α} (h : s.toList = l ++ [x]) :
    s.popTop.1 = x ∧ s.popTop.2.toList = l := by
  have hsz : s.size = l.length + 1 := by rw [← length_toList, h, List.length_append]; rfl
  have ht := s.top_eq
  rw [toList, hsz, Ring.window_snoc] at h
  obtain ⟨hl, hx⟩ := List.append_inj' h rfl
  rw [hsz, Nat.add_sub_cancel] at ht
  unfold popTop
  rw [if_neg (show s.size ≠ 0 by omega)]
  refine ⟨(congrArg s.stack ht).trans (List.cons.inj hx).1, ?_⟩
  unfold toList
  dsimp only
  rw [hsz, Nat.add_sub_cancel, hl]

theorem toList_popBottom {s : StackC α STACK_SIZE} {l : List α} {x : α} (h : s.toList = x :: l) :
    s.popBottom.1 = x ∧ s.popBottom.2.toList = l := by
  have hsz : s.size = l.length + 1 := by rw [← length_toList, h, List.length_cons]
  have h1 := s.bottom_lt
  have h2 := s.size_le
  rw [toList, hsz, Ring.window_cons s.stack h1 (by omega)] at h
  obtain ⟨hx, hl⟩ := List.cons.inj h
  unfold popBottom
  rw [if_neg (show s.size ≠ 0 by omega)]
  refine ⟨hx, ?_⟩
  unfold toList
  dsimp only
  rw [hsz, Nat.add_sub_cancel]
  by_cases hl0 : l.length = 0
  · rw [List.length_eq_zero_iff.1 hl0]
    rfl
  · have hb : (if l.length + 1 > 1 then if s.bottom = STACK_SIZE - 1 then 0 else s.bottom + 1
        else s.bottom) = Ring.idx STACK_SIZE s.bottom 1 := by
      unfold Ring.idx; split <;> split <;> (try split) <;> omega
    rw [hb, hl]

theorem toList_pushTop {s : StackC α STACK_SIZE} (x : α) (h : s.toList.length < STACK_SIZE) :
    (s.pushTop x).1 = .success ∧ (s.pushTop x).2.toList = s.toList ++ [x] := by
  rw [length_toList] at h
  have hidx : (if s.size > 0 then if s.top = STACK_SIZE - 1 then 0 else s.top + 1 else s.top)
      = Ring.idx STACK_SIZE s.bottom s.size := by
    have h1 := s.bottom_lt
    have h3 := s.top_eq
    unfold Ring.idx at h3 ⊢
    split at h3 <;> split <;> (try split) <;> (try split) <;> omega
  unfold pushTop
  rw [dif_neg (show s.size ≠ STACK_SIZE by omega)]
  refine ⟨rfl, ?_⟩
  rw [toList]
  dsimp only
  rw [hidx, Ring.window_push _ _ h, toList]

theorem toList_pushBottom {s : StackC α STACK_SIZE} (x : α) (h : s.toList.length < STACK_SIZE) :
    (s.pushBottom x).1 = .success ∧ (s.pushBottom x).2.toList = x :: s.toList := by
  rw [length_toList] at h
  have h1 := s.bottom_lt
  unfold pushBottom
  rw [dif_neg (show s.size ≠ STACK_SIZE by omega)]
  refine ⟨rfl, ?_⟩
  rw [toList]
  dsimp only
  generalize hb : (if s.size > 0 then if s.bottom = 0 then STACK_SIZE - 1 else s.bottom - 1
    else s.bottom) = b
  have hblt : b < STACK_SIZE := by
    subst hb
    split <;> (try split) <;> omega
  rw [Ring.window_cons _ hblt (by omega), Function.update_self, toList]
  congr 1
  by_cases h0 : s.size = 0
  · rw [h0]
    rfl
  · have hidx : Ring.idx STACK_SIZE b 1 = s.bottom := by
      subst hb
      unfold Ring.idx
      split <;> (try split) <;> (try split) <;> omega
    rw [hidx]
    apply Ring.window_update_of_ne
    intro i hi
    have hne := mt (Ring.idx_inj (N := STACK_SIZE) (b := b) (i := 1 + i) (j := 0) (by omega)
      (by omega)) (by omega)
    rw [← hidx, Ring.idx_idx hblt (by omega)]
    rwa [Ring.idx_zero hblt] at hne

end StackC
