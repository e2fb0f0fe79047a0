import Backip.BackIP.StackC
import Backip.Lib.Ring

/-!
# The stack is a bounded double-ended list

`StackC.Shows s l`: all that can be asked of the stack `s` is as it is for the list `l`. Every
operation keeps it (`Shows.step`) and answers as it does on the list, so a run does
(`StackC.refines`). What a pop of an empty stack returns is not said: it is what the array happens
to have there.
-/

set_option autoImplicit false

namespace StackC

variable {α : Type} {STACK_SIZE : Nat}

open Deque (Op)

/-- What a push and a pop return. -/
inductive Answer (α : Type)
  | pushed (ret : TinyError)
  | popped (x : α)
deriving DecidableEq, Repr

/-- `Stack.top`. -/
def topElement (s : StackC α STACK_SIZE) : α := s.stack s.top

/-- `Stack.bottom`. -/
def bottomElement (s : StackC α STACK_SIZE) : α := s.stack s.bottom

def step (s : StackC α STACK_SIZE) : Op α → Answer α × StackC α STACK_SIZE
  | .pushTop x => (.pushed (s.pushTop x).1, (s.pushTop x).2)
  | .pushBottom x => (.pushed (s.pushBottom x).1, (s.pushBottom x).2)
  | .popTop => (.popped s.popTop.1, s.popTop.2)
  | .popBottom => (.popped s.popBottom.1, s.popBottom.2)

/-- The answers in order, and the state left. -/
def run (s : StackC α STACK_SIZE) : List (Op α) → List (Answer α) × StackC α STACK_SIZE
  | [] => ([], s)
  | op :: ops =>
    let r := s.step op
    let rest := r.2.run ops
    (r.1 :: rest.1, rest.2)

/-- The code's answer is the one for the list. -/
inductive Answer.Means : Answer α → Deque.Answer α → Prop
  | accepted : Means (.pushed .success) (.pushed true)
  | refused : Means (.pushed .fail) (.pushed false)
  | popped (x : α) : Means (.popped x) (.popped (some x))
  | nothing (x : α) : Means (.popped x) (.popped none)

/-- The stack is the list, for all that can be asked of it. -/
structure Shows (s : StackC α STACK_SIZE) (l : List α) : Prop where
  list : s.toList = l
  room : l.length ≤ STACK_SIZE
  size : s.size = l.length
  empty : s.empty = true ↔ l = []
  maxSize : s.maxSize = STACK_SIZE
  top : ∀ x, l.getLast? = some x → s.topElement = x
  bottom : ∀ x, l.head? = some x → s.bottomElement = x

theorem shows_toList (s : StackC α STACK_SIZE) : s.Shows s.toList where
  list := rfl
  room := s.length_le
  size := s.length_toList.symm
  empty := s.empty_iff
  maxSize := rfl
  top x h := by
    obtain ⟨l, hl⟩ := List.getLast?_eq_some_iff.1 h
    have hpop := (toList_popTop hl).1
    unfold popTop at hpop
    split at hpop <;> exact hpop
  bottom x h := by
    obtain ⟨l, hl⟩ := List.head?_eq_some_iff.1 h
    have hpop := (toList_popBottom hl).1
    unfold popBottom at hpop
    split at hpop <;> exact hpop

/-! ## Refused pushes and pops of nothing -/

theorem pushTop_full {s : StackC α STACK_SIZE} (x : α) (h : s.size = STACK_SIZE) :
    s.pushTop x = (.fail, s) := dif_pos h

theorem pushBottom_full {s : StackC α STACK_SIZE} (x : α) (h : s.size = STACK_SIZE) :
    s.pushBottom x = (.fail, s) := dif_pos h

theorem popTop_empty {s : StackC α STACK_SIZE} (h : s.size = 0) : s.popTop.2 = s := by
  rw [popTop, if_pos h]

theorem popBottom_empty {s : StackC α STACK_SIZE} (h : s.size = 0) : s.popBottom.2 = s := by
  rw [popBottom, if_pos h]

/-! ## Runs -/

/-- One operation. -/
theorem Shows.step {s : StackC α STACK_SIZE} {l : List α} (h : s.Shows l) (op : Op α) :
    (s.step op).1.Means (Deque.step STACK_SIZE l op).1 ∧
      (s.step op).2.Shows (Deque.step STACK_SIZE l op).2 := by
  suffices (s.step op).1.Means (Deque.step STACK_SIZE l op).1 ∧
      (s.step op).2.toList = (Deque.step STACK_SIZE l op).2 from
    ⟨this.1, this.2 ▸ shows_toList _⟩
  have hlist := h.list
  cases op with
  | pushTop x =>
    by_cases hfull : l.length = STACK_SIZE
    · simp only [StackC.step, Deque.step, if_pos hfull, pushTop_full x (h.size.trans hfull)]
      exact ⟨.refused, hlist⟩
    · have hlt : s.toList.length < STACK_SIZE := by rw [hlist]; exact Nat.lt_of_le_of_ne h.room hfull
      obtain ⟨hret, hpush⟩ := toList_pushTop x hlt
      simp only [StackC.step, Deque.step, if_neg hfull, hret, hpush, hlist]
      exact ⟨.accepted, trivial⟩
  | pushBottom x =>
    by_cases hfull : l.length = STACK_SIZE
    · simp only [StackC.step, Deque.step, if_pos hfull, pushBottom_full x (h.size.trans hfull)]
      exact ⟨.refused, hlist⟩
    · have hlt : s.toList.length < STACK_SIZE := by rw [hlist]; exact Nat.lt_of_le_of_ne h.room hfull
      obtain ⟨hret, hpush⟩ := toList_pushBottom x hlt
      simp only [StackC.step, Deque.step, if_neg hfull, hret, hpush, hlist]
      exact ⟨.accepted, trivial⟩
  | popTop =>
    rcases List.eq_nil_or_concat' l with rfl | ⟨l, x, rfl⟩
    · exact ⟨.nothing _, by rw [StackC.step, popTop_empty h.size]; exact hlist⟩
    · obtain ⟨hx, hl⟩ := toList_popTop hlist
      simp only [StackC.step, Deque.step, List.getLast?_append, List.getLast?_singleton,
        Option.some_or, List.dropLast_concat, hx, hl]
      exact ⟨.popped x, trivial⟩
  | popBottom =>
    cases l with
    | nil => exact ⟨.nothing _, by rw [StackC.step, popBottom_empty h.size]; exact hlist⟩
    | cons x l =>
      obtain ⟨hx, hl⟩ := toList_popBottom hlist
      simp only [StackC.step, Deque.step, List.head?_cons, List.tail_cons, hx, hl]
      exact ⟨.popped x, trivial⟩

theorem Shows.run {s : StackC α STACK_SIZE} {l : List α} (h : s.Shows l) (ops : List (Op α)) :
    List.Forall₂ Answer.Means (s.run ops).1 (Deque.run STACK_SIZE l ops).1 ∧
      (s.run ops).2.Shows (Deque.run STACK_SIZE l ops).2 := by
  induction ops generalizing s l with
  | nil => exact ⟨.nil, h⟩
  | cons op ops ih =>
    obtain ⟨hmeans, hnext⟩ := h.step op
    obtain ⟨hrest, hlast⟩ := ih hnext
    exact ⟨.cons hmeans hrest, hlast⟩

/-- **The stack refines a bounded double-ended list**: the answers are those for the list, what can
be asked of the state is as for the list, and a push is refused, and changes nothing, exactly when
the list is full. -/
theorem refines (stack : Nat → α) (hsize : 0 < STACK_SIZE) (ops : List (Op α)) :
    let s := ((init stack hsize).run ops).2
    let l := (Deque.run STACK_SIZE [] ops).2
    List.Forall₂ Answer.Means ((init stack hsize).run ops).1 (Deque.run STACK_SIZE [] ops).1 ∧
      s.Shows l ∧
      ∀ x, ((s.pushTop x).1 = .fail ↔ l.length = STACK_SIZE) ∧
        ((s.pushBottom x).1 = .fail ↔ l.length = STACK_SIZE) ∧
        (l.length = STACK_SIZE → (s.pushTop x).2 = s ∧ (s.pushBottom x).2 = s) := by
  intro s l
  obtain ⟨hanswers, hshows⟩ := Shows.run (shows_toList (init stack hsize)) ops
  refine ⟨hanswers, hshows, fun x => ?_⟩
  by_cases hfull : l.length = STACK_SIZE
  · have htop : s.pushTop x = (.fail, s) := pushTop_full x (hshows.size.trans hfull)
    have hbottom : s.pushBottom x = (.fail, s) := pushBottom_full x (hshows.size.trans hfull)
    rw [htop, hbottom]
    exact ⟨iff_of_true rfl hfull, iff_of_true rfl hfull, fun _ => ⟨rfl, rfl⟩⟩
  · have hlt : s.toList.length < STACK_SIZE := by
      rw [hshows.list]
      exact Nat.lt_of_le_of_ne hshows.room hfull
    rw [(toList_pushTop x hlt).1, (toList_pushBottom x hlt).1]
    exact ⟨iff_of_false nofun hfull, iff_of_false nofun hfull, fun h => absurd h hfull⟩

/-- A stack of two cells. -/
def twoCells : StackC Nat 2 := init (fun _ => 0) (by decide)

/-- It is filled from both ends, asked for more than it has room for, and emptied from the bottom. -/
theorem refines_two : List.Forall₂ Answer.Means
    (twoCells.run [.pushTop 1, .pushBottom 2, .pushTop 3, .popBottom, .popBottom, .popBottom]).1
    [.pushed true, .pushed true, .pushed false, .popped (some 2), .popped (some 1), .popped none] :=
  (refines (fun _ => 0) (show 0 < 2 by decide)
    [.pushTop 1, .pushBottom 2, .pushTop 3, .popBottom, .popBottom, .popBottom]).1

end StackC
