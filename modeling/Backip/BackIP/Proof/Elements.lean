import Backip.BackIP.Proof.StackList
import Backip.System.QueueC

/-!
# Elements by their index

`Stack.element` and `Queue.element` add the index to the cell of the first element in a `uint8_t`. A
sum that overflows leads to another cell, so the element found is the wrong one unless the two cells
have the same contents (`elements_agree_iff`). No sum overflows in a ring of at most 128 cells
(`StackC.element_eq`, `QueueC.element_eq`).
-/

set_option autoImplicit false

namespace Ring

variable {α : Type} {N b i : Nat}

/-- The cell of index `i` from cell `b` on, by a sum in a `uint8_t`. -/
def byteIdx (N b i : Nat) : Nat := (i + b) % 256 % N

theorem byteIdx_of_lt (hb : b < N) (hi : i < N) (h : b + i < 256) : byteIdx N b i = idx N b i := by
  rw [byteIdx, Nat.add_comm, Nat.mod_eq_of_lt h, idx]
  split
  · exact Nat.mod_eq_of_lt ‹_›
  · rw [Nat.mod_eq_sub_mod (by omega), Nat.mod_eq_of_lt (by omega)]

/-- After an overflow. -/
theorem byteIdx_of_le (hb : b < N) (hi : i < N) (hN : N ≤ 255) (h : 256 ≤ b + i) :
    byteIdx N b i = b + i - 256 ∧ idx N b i = b + i - N := by
  refine ⟨?_, if_neg (by omega)⟩
  have hsum : (b + i) % 256 = b + i - 256 := by omega
  rw [byteIdx, Nat.add_comm, hsum, Nat.mod_eq_of_lt (by omega)]

/-- The sum of `b` and `i` does not overflow, or the cell that it leads to has the contents of the right
one. -/
def Found (a : Nat → α) (N b i : Nat) : Prop := b + i < 256 ∨ a (b + i - 256) = a (b + i - N)

theorem byteIdx_iff {a : Nat → α} (hb : b < N) (hi : i < N) (hN : N ≤ 255) :
    a (byteIdx N b i) = a (idx N b i) ↔ Found a N b i := by
  by_cases h : b + i < 256
  · rw [byteIdx_of_lt hb hi h]
    exact iff_of_true rfl (.inl h)
  · obtain ⟨hbyte, hidx⟩ := byteIdx_of_le hb hi hN (by omega)
    rw [hbyte, hidx]
    exact ⟨.inr, fun hf => hf.resolve_left h⟩

end Ring

open Ring (Found byteIdx byteIdx_iff)

variable {α : Type} {N : Nat}

theorem StackC.element_iff (s : StackC α N) (hN : N ≤ 255) {i : Nat} {x : α}
    (hx : s.toList[i]? = some x) : s.element i = x ↔ Found s.stack N s.bottom i := by
  obtain ⟨hi, rfl⟩ := Ring.getElem?_window.1 hx
  exact byteIdx_iff s.bottom_lt (Nat.lt_of_lt_of_le hi s.size_le) hN

theorem QueueC.element_iff (q : QueueC α N) (hN : N ≤ 255) {i : Nat} {x : α}
    (hx : q.toList[i]? = some x) : q.element i = x ↔ Found q.queue N q.head i := by
  obtain ⟨hi, rfl⟩ := Ring.getElem?_window.1 hx
  have hsize := q.size_le
  have hlt := q.head_lt
  have hcell : q.element i = q.queue (byteIdx N q.head i) := by
    -- one subtraction is enough: the sum of two indices is less than twice the capacity
    have hcell (j : Nat) (hj : j < 2 * N) : (if j ≥ N then j - N else j) = j % N := by
      split
      · rw [Nat.mod_eq_sub_mod ‹_›, Nat.mod_eq_of_lt (by omega)]
      · rw [Nat.mod_eq_of_lt (by omega)]
    exact congrArg q.queue (hcell _ (by omega))
  rw [hcell]
  exact byteIdx_iff hlt (by omega) hN

/-- **Indexed access agrees with the order of the ring** exactly where the sum does not overflow, or the
cell that it leads to has the same contents. -/
theorem elements_agree_iff (a : Nat → α) (hpos : 0 < N) (hN : N ≤ 255) :
    (∀ (ops : List (Deque.Op α)) (i : Nat) (x : α), (Deque.run N [] ops).2[i]? = some x →
      let s := ((StackC.init a hpos).run ops).2
      (s.element i = x ↔
        s.bottom + i < 256 ∨ s.stack (s.bottom + i - 256) = s.stack (s.bottom + i - N))) ∧
    ∀ (ops : List (QueueC.Op α)) (i : Nat) (x : α), (QueueC.listRun N [] ops)[i]? = some x →
      let q := (QueueC.init a hpos).run ops
      (q.element i = x ↔
        q.head + i < 256 ∨ q.queue (q.head + i - 256) = q.queue (q.head + i - N)) := by
  refine ⟨fun ops i x hx => ?_, fun ops i x hx => ?_⟩
  · have hlist := ((StackC.shows_toList (StackC.init a hpos)).run ops).2.list
    exact StackC.element_iff _ hN (hlist ▸ hx)
  · have hlist := QueueC.toList_run (QueueC.init a hpos) ops
    exact QueueC.element_iff _ hN (hlist ▸ hx)


/-- A stack of three cells that was pushed to at both ends. -/
theorem elements_agree_three : ((StackC.init (fun _ => 0) (show 0 < 3 by decide)).run
    [.pushBottom 1, .pushBottom 2, .pushTop 3]).2.element 2 = 3 :=
  ((elements_agree_iff (fun _ => 0) (show 0 < 3 by decide) (by decide)).1
    [.pushBottom 1, .pushBottom 2, .pushTop 3] 2 3 (by decide)).2 (.inl (by decide))

/-- The list `2, 1, 3` on a stack that begins in cell 254 of 255, and `1, 2, 3` in a queue that does:
the element of index 2 is taken from cell 0. -/
theorem element_wrong :
    ((Deque.run 255 [] [.pushBottom 1, .pushBottom 2, .pushTop 3]).2[2]? = some 3 ∧
      ((StackC.init (fun _ => 0) (show 0 < 255 by decide)).run
        [.pushBottom 1, .pushBottom 2, .pushTop 3]).2.element 2 = 1) ∧
    let ops := (List.replicate 254 [.enqueue 0, .dequeue]).flatten ++
      [.enqueue 1, .enqueue 2, .enqueue 3]
    (QueueC.listRun 255 [] ops)[2]? = some 3 ∧
      ((QueueC.init (fun _ => 0) (show 0 < 255 by decide)).run ops).element 2 = 2 := by
  refine ⟨⟨by decide, by decide⟩, ?_⟩
  decide +kernel

/-! ## Rings of at most 128 cells -/

theorem StackC.element_eq (s : StackC α N) (hN : N ≤ 128) {i : Nat} {x : α}
    (hx : s.toList[i]? = some x) : s.element i = x := by
  have hi := (Ring.getElem?_window.1 hx).1
  have hb := s.bottom_lt
  have hsize := s.size_le
  exact (s.element_iff (by omega) hx).2 (.inl (by omega))

theorem QueueC.element_eq (q : QueueC α N) (hN : N ≤ 128) {i : Nat} {x : α}
    (hx : q.toList[i]? = some x) : q.element i = x := by
  have hi := (Ring.getElem?_window.1 hx).1
  have hb := q.head_lt
  have hsize := q.size_le
  exact (q.element_iff (by omega) hx).2 (.inl (by omega))
