import Mathlib.Data.List.Basic
import Mathlib.Logic.Function.Basic

/-!
# Bounded lists, and circular windows of an array

`Deque.step N` is what pushing and popping at the two ends of a list of at most `N` elements does:
the answer and the list left. A push into a full list is refused, and there is nothing to pop of an
empty one. The top of a list is its end.

An array of `N` cells used as a ring: `Ring.idx N b i` is the cell `i` places after cell `b`, and
`Ring.window a N b k` the contents of the `k` cells from cell `b` on. A bounded queue, a bounded
deque and a pool of free objects are all such a window together with the array. The lemmas say what
a write outside the window, a longer and a shorter window do:

* `window_snoc`, `window_cons`: one cell more at the end, at the front;
* `window_update`: a write to the cell just past the window leaves the window alone.

Indices stay below `N` and wrap by one comparison, so that all side conditions are linear.
-/

set_option autoImplicit false

namespace Deque

inductive Op (α : Type)
  | pushTop (x : α)
  | pushBottom (x : α)
  | popTop
  | popBottom
deriving DecidableEq, Repr

/-- Whether there was room for an element, and the element there was. -/
inductive Answer (α : Type)
  | pushed (ok : Bool)
  | popped (x : Option α)
deriving DecidableEq, Repr

variable {α : Type}

def step (N : Nat) (l : List α) : Op α → Answer α × List α
  | .pushTop x => if l.length = N then (.pushed false, l) else (.pushed true, l ++ [x])
  | .pushBottom x => if l.length = N then (.pushed false, l) else (.pushed true, x :: l)
  | .popTop => (.popped l.getLast?, l.dropLast)
  | .popBottom => (.popped l.head?, l.tail)

/-- The answers in order, and the list left. -/
def run (N : Nat) (l : List α) : List (Op α) → List (Answer α) × List α
  | [] => ([], l)
  | op :: ops =>
    let r := step N l op
    let rest := run N r.2 ops
    (r.1 :: rest.1, rest.2)

end Deque

/-! ## Windows -/

namespace Ring

/-- The cell `i` places after cell `b` (`b < N`, `i ≤ N`). -/
def idx (N b i : Nat) : Nat := if b + i < N then b + i else b + i - N

@[simp] theorem idx_zero {N b : Nat} (hb : b < N) : idx N b 0 = b := by
  simp [idx, hb]

theorem idx_idx {N b i j : Nat} (hb : b < N) (hij : i + j ≤ N) :
    idx N (idx N b i) j = idx N b (i + j) := by
  unfold idx; split <;> split <;> split <;> omega

theorem idx_inj {N b i j : Nat} (hi : i < N) (hj : j < N)
    (h : idx N b i = idx N b j) : i = j := by
  unfold idx at h; split at h <;> split at h <;> omega

variable {α : Type}

/-- The contents of the `k` cells from cell `b` on. -/
def window (a : Nat → α) (N b k : Nat) : List α := (List.range k).map fun i => a (idx N b i)

@[simp] theorem length_window (a : Nat → α) (N b k : Nat) : (window a N b k).length = k := by
  simp [window]

theorem mem_window {a : Nat → α} {N b k : Nat} {x : α} :
    x ∈ window a N b k ↔ ∃ i < k, a (idx N b i) = x := by
  simp [window]

theorem getElem?_window {a : Nat → α} {N b k i : Nat} {x : α} :
    (window a N b k)[i]? = some x ↔ i < k ∧ a (idx N b i) = x := by
  rw [List.getElem?_eq_some_iff]
  simp [window]

/-- One cell more at the end. -/
theorem window_snoc (a : Nat → α) (N b k : Nat) :
    window a N b (k + 1) = window a N b k ++ [a (idx N b k)] := by
  simp [window, List.range_succ]

/-- One cell more at the front. -/
theorem window_cons (a : Nat → α) {N b k : Nat} (hb : b < N) (hk : k + 1 ≤ N) :
    window a N b (k + 1) = a b :: window a N (idx N b 1) k := by
  simp only [window, List.range_succ_eq_map, List.map_cons, List.map_map, idx_zero hb,
    List.cons.injEq, true_and]
  apply List.map_congr_left
  intro i hi
  rw [List.mem_range] at hi
  rw [idx_idx hb (by omega), Function.comp, Nat.succ_eq_add_one, Nat.add_comm i 1]

/-- A window is determined by its cells. -/
theorem window_congr {a a' : Nat → α} {N b k : Nat}
    (h : ∀ i < k, a (idx N b i) = a' (idx N b i)) : window a N b k = window a' N b k :=
  List.map_congr_left fun i hi => h i (List.mem_range.1 hi)

/-- A write outside the window. -/
theorem window_update_of_ne {a : Nat → α} {N b k j : Nat} (x : α)
    (h : ∀ i < k, idx N b i ≠ j) : window (Function.update a j x) N b k = window a N b k :=
  window_congr fun i hi => Function.update_of_ne (h i hi) _ _

/-- A write to the cell just past the window. -/
theorem window_update (a : Nat → α) {N b k : Nat} (x : α) (hk : k < N) :
    window (Function.update a (idx N b k) x) N b k = window a N b k :=
  window_update_of_ne x fun i hi h => by
    have := idx_inj (by omega) hk h
    omega

/-- A write to the cell just past the window, and the window one cell longer. -/
theorem window_push (a : Nat → α) {N b k : Nat} (x : α) (hk : k < N) :
    window (Function.update a (idx N b k) x) N b (k + 1) = window a N b k ++ [x] := by
  rw [window_snoc, window_update a x hk, Function.update_self]

end Ring
