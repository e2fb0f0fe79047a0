import Backip.Lib.Ring
import Backip.System.Types

/-!
# Bounded queues (`tos/system/QueueC.nc`)

`QueueC α QUEUE_SIZE` is the state of one `QueueC` instance: the array `queue`, used as a ring,
whose `size` elements stand in the cells from `head` up to `tail`. The fields after the variables
say so.

`QueueC.toList` is the abstraction, the elements from the head on: `head_cons` and `dequeue_cons`
take from its front, `enqueue_ok` appends to it.
-/

set_option autoImplicit false

structure QueueC (α : Type) (QUEUE_SIZE : Nat) where
  queue : Nat → α
  head : Nat
  tail : Nat
  size : Nat
  head_lt : head < QUEUE_SIZE
  size_le : size ≤ QUEUE_SIZE
  tail_eq : tail = Ring.idx QUEUE_SIZE head size

namespace QueueC

variable {α : Type} {QUEUE_SIZE : Nat}

/-- The initial state, with `queue` the array's initial contents. -/
def init (queue : Nat → α) (hsize : 0 < QUEUE_SIZE) : QueueC α QUEUE_SIZE where
  queue := queue
  head := 0
  tail := 0
  size := 0
  head_lt := hsize
  size_le := Nat.zero_le _
  tail_eq := (Ring.idx_zero hsize).symm

/-- `Queue.empty`. -/
def empty (q : QueueC α QUEUE_SIZE) : Bool := q.size == 0

/-- `Queue.maxSize`. -/
def maxSize (_ : QueueC α QUEUE_SIZE) : Nat := QUEUE_SIZE

/-- `Queue.head`. -/
def first (q : QueueC α QUEUE_SIZE) : α := q.queue q.head

/-- `Queue.dequeue`. -/
def dequeue (q : QueueC α QUEUE_SIZE) : α × QueueC α QUEUE_SIZE :=
  let t := q.first
  if h : q.size = 0 then (t, q)
  else
    (t,
      { queue := q.queue
        head := if q.head + 1 = QUEUE_SIZE then 0 else q.head + 1
        tail := q.tail
        size := q.size - 1
        head_lt := by have := q.head_lt; split <;> omega
        size_le := by have := q.size_le; omega
        tail_eq := by
          have h1 := q.head_lt
          have h2 := q.size_le
          have h3 := q.tail_eq
          unfold Ring.idx at h3 ⊢
          split at h3 <;> split <;> split <;> omega })

/-- `Queue.enqueue`. -/
def enqueue (q : QueueC α QUEUE_SIZE) (newVal : α) : TinyError × QueueC α QUEUE_SIZE :=
  if h : q.size < QUEUE_SIZE then
    (.success,
      { queue := Function.update q.queue q.tail newVal
        head := q.head
        tail := if q.tail + 1 = QUEUE_SIZE then 0 else q.tail + 1
        size := q.size + 1
        head_lt := q.head_lt
        size_le := h
        tail_eq := by
          have h1 := q.head_lt
          have h3 := q.tail_eq
          unfold Ring.idx at h3 ⊢
          split at h3 <;> split <;> split <;> omega })
  else (.fail, q)

/-- `Queue.element`: the sum is a `uint8_t`. -/
def element (q : QueueC α QUEUE_SIZE) (idx : Nat) : α :=
  let idx := (idx + q.head) % 256
  q.queue (if idx ≥ QUEUE_SIZE then idx - QUEUE_SIZE else idx)

/-- The elements, from the head on. -/
def toList (q : QueueC α QUEUE_SIZE) : List α := Ring.window q.queue QUEUE_SIZE q.head q.size

/-! ## The operations on the list of elements -/

@[simp] theorem length_toList (q : QueueC α QUEUE_SIZE) : q.toList.length = q.size :=
  Ring.length_window ..

theorem length_le (q : QueueC α QUEUE_SIZE) : q.toList.length ≤ QUEUE_SIZE := by
  rw [length_toList]; exact q.size_le

theorem empty_iff (q : QueueC α QUEUE_SIZE) : q.empty = true ↔ q.toList = [] := by
  rw [← List.length_eq_zero_iff, length_toList, empty, beq_iff_eq]

/-- `head` is the first element, and `dequeue` takes it. -/
theorem dequeue_cons {q : QueueC α QUEUE_SIZE} {x : α} {l : List α} (h : q.toList = x :: l) :
    q.first = x ∧ q.dequeue.2.toList = l := by
  have hsz : q.size = l.length + 1 := by rw [← length_toList, h, List.length_cons]
  have h1 := q.head_lt
  have h2 := q.size_le
  rw [toList, hsz, Ring.window_cons q.queue h1 (by omega)] at h
  obtain ⟨hx, hl⟩ := List.cons.inj h
  refine ⟨hx, ?_⟩
  unfold dequeue
  rw [dif_neg (show q.size ≠ 0 by omega)]
  unfold toList
  dsimp only
  have hh : (if q.head + 1 = QUEUE_SIZE then 0 else q.head + 1) = Ring.idx QUEUE_SIZE q.head 1 := by
    unfold Ring.idx
    split <;> split <;> omega
  rw [hsz, Nat.add_sub_cancel, hh, hl]

/-- An element is appended where there is room. -/
theorem enqueue_ok {q : QueueC α QUEUE_SIZE} (x : α) (h : q.toList.length < QUEUE_SIZE) :
    (q.enqueue x).1 = .success ∧ (q.enqueue x).2.toList = q.toList ++ [x] := by
  rw [length_toList] at h
  unfold enqueue
  rw [dif_pos h]
  refine ⟨rfl, ?_⟩
  unfold toList
  dsimp only
  rw [q.tail_eq, Ring.window_push _ _ h]

/-- A full queue refuses an element. -/
theorem enqueue_refused {q : QueueC α QUEUE_SIZE} {x : α} (h : (q.enqueue x).1 ≠ .success) :
    (q.enqueue x).2 = q := by
  unfold enqueue at h ⊢
  split
  · next hlt => exact absurd (by rw [dif_pos hlt]) h
  · rfl

end QueueC

/-! ## Runs

`QueueC.Op` are the commands that change a queue and `QueueC.listStep` what they do to a list of at
most `QUEUE_SIZE` elements. A run of the commands leaves the list that it leaves of the list
(`toList_run`). -/

namespace QueueC

variable {α : Type} {QUEUE_SIZE : Nat}

inductive Op (α : Type)
  | enqueue (x : α)
  | dequeue
deriving DecidableEq, Repr

def step (q : QueueC α QUEUE_SIZE) : Op α → QueueC α QUEUE_SIZE
  | .enqueue x => (q.enqueue x).2
  | .dequeue => q.dequeue.2

def run (q : QueueC α QUEUE_SIZE) (ops : List (Op α)) : QueueC α QUEUE_SIZE := ops.foldl step q

def listStep (N : Nat) (l : List α) : Op α → List α
  | .enqueue x => if l.length = N then l else l ++ [x]
  | .dequeue => l.tail

def listRun (N : Nat) (l : List α) (ops : List (Op α)) : List α := ops.foldl (listStep N) l

theorem toList_step (q : QueueC α QUEUE_SIZE) (op : Op α) :
    (q.step op).toList = listStep QUEUE_SIZE q.toList op := by
  cases op with
  | enqueue x =>
    rw [listStep, step]
    split
    · next hfull =>
      rw [length_toList] at hfull
      rw [enqueue, dif_neg (by omega)]
    · next hroom => exact (enqueue_ok x (Nat.lt_of_le_of_ne q.length_le hroom)).2
  | dequeue =>
    rw [listStep, step]
    cases hl : q.toList with
    | nil =>
      have hsize : q.size = 0 := by rw [← length_toList, hl]; rfl
      rw [dequeue, dif_pos hsize]
      exact hl
    | cons x l => exact (dequeue_cons hl).2

theorem toList_run (q : QueueC α QUEUE_SIZE) (ops : List (Op α)) :
    (q.run ops).toList = listRun QUEUE_SIZE q.toList ops := by
  induction ops generalizing q with
  | nil => rfl
  | cons op ops ih => exact (ih (q.step op)).trans (by rw [toList_step]; rfl)

end QueueC
