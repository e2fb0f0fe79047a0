import Backip.Lib.LinkedQueue
import Backip.Lib.Machine
import Backip.System.Types
import Mathlib.Tactic.ByContra

/-!
# The task scheduler (`tos/system/SchedulerBasicP.nc`)

The tasks that wait are linked through `m_next`, one byte for each task. A run posts tasks, from
anywhere and also from the tasks it runs, and runs the next task (`machine`); `accepted` and `ran`
are the tasks in the order they were posted with success and run.

* `scheduler_fifo`: the links always hold a list of distinct tasks, the ones accepted and not yet
  run, and the commands are the ones of that list.
-/

set_option autoImplicit false

namespace SchedulerBasicP

abbrev noTask : UInt8 := 255

/-- `m_head`, `m_tail` and `m_next`. -/
abbrev Scheduler := LinkedQueue UInt8

/-- `popTask`. -/
def popTask (s : Scheduler) : UInt8 × Scheduler := s.pop noTask

/-- `isWaiting`. -/
def isWaiting (s : Scheduler) (id : UInt8) : Bool := s.waiting noTask id

/-- `pushTask`. -/
def pushTask (s : Scheduler) (id : UInt8) : Bool × Scheduler :=
  if !isWaiting s id then (true, s.push noTask id) else (false, s)

/-- `Scheduler.init`. -/
def init : Scheduler := .empty noTask

/-- `Scheduler.runNextTask`: the task whose `runTask` it signals, if it returns `TRUE`. -/
def runNextTask (s : Scheduler) : Option UInt8 × Scheduler :=
  let r := popTask s
  if r.1 = noTask then (none, r.2) else (some r.1, r.2)

/-- `TaskBasic.postTask`. -/
def postTask (s : Scheduler) (id : UInt8) : TinyError × Scheduler :=
  let r := pushTask s id
  (if r.1 then .success else .ebusy, r.2)

inductive Event
  | postTask (id : UInt8)
  | runNextTask
deriving DecidableEq, Repr

/-- A scheduler of `numTasks` tasks. -/
def machine (numTasks : Nat) : Machine Scheduler Event where
  init s := s = init
  step
    | s, .postTask id => if id.toNat < numTasks then some (postTask s id).2 else none
    | s, .runNextTask => some (runNextTask s).2

/-- The posts that returned `SUCCESS`, the first one first. -/
def accepted : List (Scheduler × Event) → List UInt8
  | [] => []
  | (s, .postTask id) :: h =>
    if (postTask s id).1 = .success then accepted h ++ [id] else accepted h
  | (_, .runNextTask) :: h => accepted h

/-- The tasks that were run, the first one first. -/
def ran : List (Scheduler × Event) → List UInt8
  | [] => []
  | (_, .postTask _) :: h => ran h
  | (s, .runNextTask) :: h => ran h ++ (runNextTask s).1.toList

/-! ## The commands on the list -/

/-- The links hold the list, of tasks that there are. -/
structure Holds (numTasks : Nat) (s : Scheduler) (l : List UInt8) : Prop where
  represents : s.Represents noTask l
  bounded : ∀ id ∈ l, id.toNat < numTasks

variable {n : Nat} {s s' : Scheduler} {l : List UInt8} {id : UInt8} {e : Event}
  {h : List (Scheduler × Event)}

theorem ne_noTask (hn : n ≤ 254) (hid : id.toNat < n) : id ≠ noTask := by
  rintro rfl
  have : noTask.toNat = 255 := rfl
  omega

theorem Holds.isWaiting_iff (hs : Holds n s l) (hn : n ≤ 254) (hid : id.toNat < n) :
    isWaiting s id = true ↔ id ∈ l :=
  hs.represents.waiting_iff (ne_noTask hn hid)

theorem Holds.postTask_waiting (hs : Holds n s l) (hn : n ≤ 254) (hid : id.toNat < n)
    (hmem : id ∈ l) : postTask s id = (.ebusy, s) := by
  have hwait := (hs.isWaiting_iff hn hid).2 hmem
  simp [postTask, pushTask, hwait]

theorem Holds.postTask_new (hs : Holds n s l) (hn : n ≤ 254) (hid : id.toNat < n)
    (hmem : id ∉ l) : ∃ s', postTask s id = (.success, s') ∧ Holds n s' (l ++ [id]) := by
  have hwait : isWaiting s id = false := by
    rw [Bool.eq_false_iff]
    exact fun hw => hmem ((hs.isWaiting_iff hn hid).1 hw)
  refine ⟨s.push noTask id, by simp [postTask, pushTask, hwait],
    hs.represents.push (ne_noTask hn hid) hmem, fun a ha => ?_⟩
  rcases List.mem_append.1 ha with ha | ha
  · exact hs.bounded a ha
  · obtain rfl := List.mem_singleton.1 ha
    exact hid

theorem Holds.runNextTask_nil (hs : Holds n s []) : runNextTask s = (none, s) := by
  simp [runNextTask, popTask, hs.represents.pop_nil]

theorem Holds.runNextTask_cons (hs : Holds n s (id :: l)) :
    ∃ s', runNextTask s = (some id, s') ∧ Holds n s' l := by
  obtain ⟨hid, hl⟩ := hs.represents.pop_cons
  have hno : id ≠ noTask := hs.represents.linked.ne_no (.head _)
  refine ⟨(s.pop noTask).2, ?_, hl, fun a ha => hs.bounded a (.tail _ ha)⟩
  simp only [runNextTask, popTask, hid, if_neg hno]

/-! ## Runs -/

/-- A step keeps the list, and the account of what was accepted and run. -/
theorem Holds.step (hs : Holds n s l) (hn : n ≤ 254) (hacc : accepted h = ran h ++ l)
    (hst : (machine n).step s e = some s') :
    ∃ l', Holds n s' l' ∧ accepted ((s, e) :: h) = ran ((s, e) :: h) ++ l' := by
  cases e with
  | postTask id =>
    simp only [machine] at hst
    split at hst
    · rename_i hid
      obtain rfl := Option.some.inj hst
      by_cases hmem : id ∈ l
      · have hpost := hs.postTask_waiting hn hid hmem
        rw [accepted, ran, hpost]
        exact ⟨l, hs, hacc⟩
      · obtain ⟨s', hpost, hs'⟩ := hs.postTask_new hn hid hmem
        rw [accepted, ran, hpost, if_pos rfl, hacc]
        exact ⟨l ++ [id], hs', List.append_assoc ..⟩
    · cases hst
  | runNextTask =>
    obtain rfl := Option.some.inj hst
    cases l with
    | nil =>
      rw [accepted, ran, hs.runNextTask_nil]
      exact ⟨[], hs, by simpa using hacc⟩
    | cons id l =>
      obtain ⟨s', hrun, hs'⟩ := hs.runNextTask_cons
      rw [accepted, ran, hrun]
      exact ⟨l, hs', by simpa using hacc⟩

theorem holds_of_run (hn : n ≤ 254) (hr : (machine n).Run h s) :
    ∃ l, Holds n s l ∧ accepted h = ran h ++ l := by
  induction hr with
  | init hi =>
    obtain rfl : _ = init := hi
    exact ⟨[], ⟨LinkedQueue.represents_empty noTask, nofun⟩, rfl⟩
  | step _ hst ih =>
    obtain ⟨l, hs, hacc⟩ := ih
    exact hs.step hn hacc hst

/-- What waits is run by as many calls of `runNextTask`. -/
theorem Holds.drain (hs : Holds n s l) : ∃ h' s',
    (machine n).exec (List.replicate l.length .runNextTask) h s = some (h', s') ∧
      ran h' = ran h ++ l := by
  induction l generalizing s h with
  | nil => exact ⟨h, s, rfl, by simp⟩
  | cons id l ih =>
    obtain ⟨s1, hrun, hs1⟩ := hs.runNextTask_cons
    obtain ⟨h', s', hexec, hran⟩ := ih (h := (s, .runNextTask) :: h) hs1
    have hstep : (machine n).step s .runNextTask = some s1 := by
      simp only [machine, hrun]
    refine ⟨h', s', ?_, ?_⟩
    · rw [List.length_cons, List.replicate_succ, Machine.exec, hstep]
      exact hexec
    · rw [hran, ran, hrun]
      simp

/-- **The scheduler is a queue without duplicates.** -/
theorem scheduler_fifo (hn : n ≤ 254) (hr : (machine n).Run h s) :
    ∃ l, s.Represents noTask l ∧ (∀ id ∈ l, id.toNat < n) ∧ accepted h = ran h ++ l ∧
      (∀ id, id.toNat < n → (isWaiting s id = true ↔ id ∈ l)) ∧
      (∀ id, id.toNat < n → id ∈ l → postTask s id = (.ebusy, s)) ∧
      (∀ id, id.toNat < n → id ∉ l →
        ∃ s', postTask s id = (.success, s') ∧ s'.Represents noTask (l ++ [id])) ∧
      (l = [] → runNextTask s = (none, s)) ∧
      (∀ id rest, l = id :: rest →
        ∃ s', runNextTask s = (some id, s') ∧ s'.Represents noTask rest) ∧
      ∃ h' s', (machine n).exec (List.replicate l.length .runNextTask) h s = some (h', s') ∧
        ran h' = accepted h := by
  obtain ⟨l, hs, hacc⟩ := holds_of_run hn hr
  refine ⟨l, hs.represents, hs.bounded, hacc, fun id hid => hs.isWaiting_iff hn hid,
    fun id hid hmem => hs.postTask_waiting hn hid hmem, fun id hid hmem => ?_, ?_, ?_, ?_⟩
  · obtain ⟨s', hpost, hs'⟩ := hs.postTask_new hn hid hmem
    exact ⟨s', hpost, hs'.represents⟩
  · rintro rfl
    exact hs.runNextTask_nil
  · rintro id rest rfl
    obtain ⟨s', hrun, hs'⟩ := hs.runNextTask_cons
    exact ⟨s', hrun, hs'.represents⟩
  · obtain ⟨h', s', hexec, hran⟩ := hs.drain (h := h)
    exact ⟨h', s', hexec, hran.trans hacc.symm⟩

/-- Three posts, one of them by a task that waits already. -/
theorem scheduler_fifo_posts : ∃ h s, (machine 3).Run h s ∧ accepted h = [2, 0] ∧
    ∃ l, s.Represents noTask l ∧ accepted h = ran h ++ l := by
  obtain ⟨h, s, hr, hp⟩ := Machine.exists_run_of_exec (M := machine 3) (s := init) rfl
    [.postTask 2, .postTask 0, .postTask 2, .runNextTask] (fun h _ => accepted h = [2, 0])
    (by decide)
  obtain ⟨l, hrep, -, hacc, -⟩ := scheduler_fifo (by decide) hr
  exact ⟨h, s, hr, of_decide_eq_true hp, l, hrep, hacc⟩

end SchedulerBasicP
