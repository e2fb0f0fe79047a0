import Backip.Lib.Machine
import Backip.Lib.WrappingClock

/-!
# Timers from alarms (`tos/lib/timer/AlarmToTimerC.nc`)

`AlarmToTimer` is the module's state with its task `fired` and the `Alarm` it uses, of which the
time at which it is due and what `getAlarm` returns are kept. Times are the real ones, which do not
wrap, counted from a round of the clock before the node starts; `getNow` is what its 32 bits show.

`Alarm.fired` is an interrupt: it comes at any time from the one at which the alarm is due, also in
the middle of the task, before and behind its call of `start`. Commands are only called between
tasks, or by the handler of `Timer.fired`, behind the signal. An interrupt in the middle of a
command does the same as one before it.

Beside the state the machine keeps what the timer is for: the last start and when its next firing is
due (`goal`), on behalf of which start the alarm was set, last fired, and the signal is about to be
made.
-/

set_option autoImplicit false

namespace AlarmToTimerC

/-- How far the task `fired` has come, if it runs. -/
inductive Phase
  | idle
  | begun
  | signalling
deriving DecidableEq, Repr

structure AlarmToTimer where
  mDt : UInt32
  mOneshot : Bool
  /-- When `Alarm` is due, if it is running. -/
  alarm : Option Nat
  /-- `Alarm.getAlarm`. -/
  alarmAt : UInt32
  /-- `fired` is posted. -/
  posted : Bool
  phase : Phase
  time : Nat

namespace AlarmToTimer

variable (s : AlarmToTimer)

/-- `Alarm.getNow`. -/
def getNow : UInt32 := .ofNat s.time

/-- `dt` ticks after the last time the clock showed `t0`. -/
def deadline (t0 dt : UInt32) : Nat := s.time + dt.toNat - (s.getNow - t0).toNat

/-- `Alarm.startAt`. -/
def alarmStartAt (t0 dt : UInt32) : AlarmToTimer :=
  { s with alarm := some (s.deadline t0 dt), alarmAt := t0 + dt }

/-- `start`. -/
def start (t0 dt : UInt32) (oneshot : Bool) : AlarmToTimer :=
  alarmStartAt { s with mDt := dt, mOneshot := oneshot } t0 dt

/-- `Timer.stop`. -/
def stop : AlarmToTimer := { s with alarm := none }

/-- `Alarm.fired`. -/
def alarmFired : AlarmToTimer := { s with alarm := none, posted := true }

/-- `fired` begins to run. -/
def fired : AlarmToTimer := { s with posted := false, phase := .begun }

/-- `fired`, up to the signal. -/
def restart : AlarmToTimer :=
  let s := { s with phase := .signalling }
  if s.mOneshot = false then s.start s.alarmAt s.mDt false else s

end AlarmToTimer

/-! ## Runs -/

/-- The number of a start, and when its next firing is due. -/
structure Goal where
  start : Nat
  deadline : Nat
deriving DecidableEq, Repr

structure State where
  impl : AlarmToTimer
  starts : Nat
  /-- What the timer is for, if it is started. -/
  goal : Option Goal
  /-- On whose behalf the alarm was set, last fired, and the task `fired` runs. -/
  armed : Goal
  cause : Goal
  serving : Goal
  /-- The timer was started or stopped since the alarm last fired, and the task is posted. -/
  touched : Bool

inductive Event
  | elapse (ticks : Nat)
  | startPeriodic (dt : UInt32)
  | startOneShot (dt : UInt32)
  | startPeriodicAt (t0 dt : UInt32)
  | startOneShotAt (t0 dt : UInt32)
  | stop
  | alarmFired
  | fired
  | restart
  /-- `fired` signals `Timer.fired`. -/
  | signal
deriving DecidableEq, Repr

namespace State

def start (s : State) (t0 dt : UInt32) (oneshot : Bool) : State :=
  let goal : Goal := ⟨s.starts + 1, s.impl.deadline t0 dt⟩
  { s with
    impl := s.impl.start t0 dt oneshot
    starts := s.starts + 1
    goal := some goal
    armed := goal
    touched := s.impl.posted }

def stop (s : State) : State :=
  { s with impl := s.impl.stop, goal := none, touched := s.impl.posted }

def alarmFired (s : State) : State :=
  { s with
    impl := s.impl.alarmFired
    cause := s.armed
    touched := false }

/-- The next goal of a periodic timer. -/
def next (s : State) (g : Goal) : Goal := ⟨g.start, g.deadline + s.impl.mDt.toNat⟩

def fired (s : State) : State :=
  { s with impl := s.impl.fired, serving := s.cause, touched := false }

def restart (s : State) : State :=
  { s with
    impl := s.impl.restart
    goal := if s.impl.mOneshot then none else s.goal.map s.next
    armed := if s.impl.mOneshot then s.armed else s.next s.serving }

/-- A command is called. -/
def call (s s' : State) : Option State := if s.impl.phase = .idle then some s' else none

def step (s : State) : Event → Option State
  | .elapse ticks => some { s with impl := { s.impl with time := s.impl.time + ticks } }
  | .startPeriodic dt => s.call (s.start s.impl.getNow dt false)
  | .startOneShot dt => s.call (s.start s.impl.getNow dt true)
  | .startPeriodicAt t0 dt => s.call (s.start t0 dt false)
  | .startOneShotAt t0 dt => s.call (s.start t0 dt true)
  | .stop => s.call s.stop
  | .alarmFired =>
    if s.impl.alarm.any (fun due => due ≤ s.impl.time) = true then some s.alarmFired else none
  | .fired => if s.impl.posted = true ∧ s.impl.phase = .idle then some s.fired else none
  | .restart => if s.impl.phase = .begun then some s.restart else none
  | .signal =>
    if s.impl.phase = .signalling then some { s with impl := { s.impl with phase := .idle } }
    else none

end State

def boot (time : Nat) : State where
  impl :=
    { mDt := 0
      mOneshot := false
      alarm := none
      alarmAt := 0
      posted := false
      phase := .idle
      time := time }
  starts := 0
  goal := none
  armed := ⟨0, 0⟩
  cause := ⟨0, 0⟩
  serving := ⟨0, 0⟩
  touched := false

def machine : Machine State Event where
  init s := ∃ time, 2 ^ 32 ≤ time ∧ s = boot time
  step := State.step

/-- A stopped timer has no alarm. The task runs on behalf of the last start, which was not stopped
since and whose next firing is due, and so does its signal. -/
structure Respects (s : State) (e : Event) : Prop where
  stopped : s.goal = none → s.impl.alarm = none
  fired : e = .fired →
    ∃ g, s.goal = some g ∧ s.cause.start = g.start ∧ g.deadline ≤ s.impl.time
  signal : e = .signal → s.serving.start = s.starts ∧ s.serving.deadline ≤ s.impl.time

/-- No task runs between a start or stop and the next `Alarm.fired`. -/
def Untouched (s : State) (e : Event) : Prop := e = .fired → s.touched = false

instance (s : State) (e : Event) : Decidable (Untouched s e) := inferInstanceAs (Decidable (_ → _))

/-! ## The clock -/

namespace AlarmToTimer

variable {s : AlarmToTimer}

theorem deadline_next {d : Nat} (h : d ≤ s.time) (dt : UInt32) :
    d + dt.toNat ≤ s.deadline (.ofNat d) dt := by
  have hle := WrappingClock.toNat_sub_le h
  rw [deadline, getNow]
  omega

/-- What the clock shows at the deadline. -/
theorem ofNat_deadline (h : 2 ^ 32 ≤ s.time) (t0 dt : UInt32) :
    UInt32.ofNat (s.deadline t0 dt) = t0 + dt := by
  have hlt := (s.getNow - t0).toNat_lt
  rw [deadline, UInt32.ofNat_sub (by omega), UInt32.ofNat_add, UInt32.ofNat_toNat,
    UInt32.ofNat_toNat, getNow]
  rw [UInt32.sub_eq_iff_eq_add]
  rw [UInt32.add_comm t0 dt, UInt32.add_assoc, UInt32.add_comm t0, UInt32.sub_add_cancel,
    UInt32.add_comm]

end AlarmToTimer

/-! ## The timer and its alarm -/

/-- The alarm has fired for `g`, and the task has not yet run. -/
structure Due (s : State) (g : Goal) : Prop where
  goal : s.goal = some g
  le : g.deadline ≤ s.impl.time
  alarm : s.impl.alarm = none
  alarmAt : s.impl.alarmAt = .ofNat g.deadline

/-- The alarm runs for the goal, and a task that is posted and not touched since is due for it. -/
structure Inv (s : State) : Prop where
  time : 2 ^ 32 ≤ s.impl.time
  goal : ∀ g, s.goal = some g → g.start = s.starts
  alarm : ∀ due, s.impl.alarm = some due →
    s.goal = some s.armed ∧ s.armed.deadline ≤ due ∧ s.impl.alarmAt = .ofNat s.armed.deadline
  cause : s.impl.posted = true → s.cause.start ≤ s.starts
  posted : s.impl.posted = true → s.touched = false → Due s s.cause
  touched : s.impl.posted = true → s.touched = true → ∀ g, s.goal = some g → s.cause.start < g.start
  begun : s.impl.phase = .begun → s.impl.posted = false ∧ Due s s.serving
  signalling : s.impl.phase = .signalling →
    s.serving.start = s.starts ∧ s.serving.deadline ≤ s.impl.time

theorem boot_inv {time : Nat} (h : 2 ^ 32 ≤ time) : Inv (boot time) where
  time := h
  goal g hg := by cases hg
  alarm due hdue := by cases hdue
  cause hp := by cases hp
  posted hp := by cases hp
  touched hp := by cases hp
  begun hp := by cases hp
  signalling hp := by cases hp

namespace Inv

variable {s : State}

theorem elapse (h : Inv s) (ticks : Nat) :
    Inv { s with impl := { s.impl with time := s.impl.time + ticks } } where
  time := Nat.le_add_right_of_le h.time
  goal := h.goal
  alarm := h.alarm
  cause := h.cause
  posted hp ht :=
    have hd := h.posted hp ht
    ⟨hd.goal, Nat.le_add_right_of_le hd.le, hd.alarm, hd.alarmAt⟩
  touched := h.touched
  begun hp :=
    have ⟨hposted, hd⟩ := h.begun hp
    ⟨hposted, hd.goal, Nat.le_add_right_of_le hd.le, hd.alarm, hd.alarmAt⟩
  signalling hp := (h.signalling hp).imp_right Nat.le_add_right_of_le

theorem start (h : Inv s) (hidle : s.impl.phase = .idle) (t0 dt : UInt32) (oneshot : Bool) :
    Inv (s.start t0 dt oneshot) where
  time := h.time
  goal g hg := by
    cases hg
    rfl
  alarm due hdue := by
    cases hdue
    exact ⟨rfl, Nat.le_refl _, (AlarmToTimer.ofNat_deadline h.time t0 dt).symm⟩
  cause hp := Nat.le_succ_of_le (h.cause hp)
  posted hp ht := absurd (hp.symm.trans ht) (by decide)
  touched hp ht g hg := by
    cases hg
    exact Nat.lt_succ_of_le (h.cause hp)
  begun hp := absurd (hidle.symm.trans hp) (by decide)
  signalling hp := absurd (hidle.symm.trans hp) (by decide)

theorem stop (h : Inv s) (hidle : s.impl.phase = .idle) : Inv s.stop where
  time := h.time
  goal g hg := by cases hg
  alarm due hdue := by cases hdue
  cause := h.cause
  posted hp ht := absurd (hp.symm.trans ht) (by decide)
  touched hp ht g hg := by cases hg
  begun hp := absurd (hidle.symm.trans hp) (by decide)
  signalling hp := absurd (hidle.symm.trans hp) (by decide)

/-- The interrupt comes while the task begins only if the task was touched: its alarm is not
running. -/
theorem alarmFired (h : Inv s) {due : Nat} (hdue : s.impl.alarm = some due)
    (hle : due ≤ s.impl.time) : Inv s.alarmFired := by
  obtain ⟨hgoal, hdl, hat⟩ := h.alarm due hdue
  exact
    { time := h.time
      goal := h.goal
      alarm := fun due hdue => by cases hdue
      cause := fun _ => Nat.le_of_eq (h.goal _ hgoal)
      posted := fun _ _ => ⟨hgoal, Nat.le_trans hdl hle, rfl, hat⟩
      touched := fun _ ht => by cases ht
      begun := fun hp => by
        have hnone := (h.begun hp).2.alarm
        rw [hdue] at hnone
        cases hnone
      signalling := h.signalling }

theorem fired (h : Inv s) (hposted : s.impl.posted = true) (ht : s.touched = false) :
    Inv s.fired where
  time := h.time
  goal := h.goal
  alarm := h.alarm
  cause hp := by cases hp
  posted hp := by cases hp
  touched hp := by cases hp
  begun _ :=
    have hd := h.posted hposted ht
    ⟨rfl, hd.goal, hd.le, hd.alarm, hd.alarmAt⟩
  signalling hp := by cases hp

/-- A periodic timer goes on from the deadline at which it fired. -/
theorem restart (h : Inv s) (hbegun : s.impl.phase = .begun) : Inv s.restart := by
  obtain ⟨hposted, hgoal, hle, halarm, hat⟩ := h.begun hbegun
  have hstart : s.serving.start = s.starts := h.goal _ hgoal
  by_cases hone : s.impl.mOneshot = false
  · have himpl : s.impl.restart =
        { s.impl with
          phase := .signalling
          alarm := some (s.impl.deadline s.impl.alarmAt s.impl.mDt)
          alarmAt := s.impl.alarmAt + s.impl.mDt
          mOneshot := false } := if_pos hone
    have hrestart : s.restart =
        { s with
          impl := s.impl.restart
          goal := some (s.next s.serving)
          armed := s.next s.serving } := by
      rw [State.restart, hone, hgoal]
      rfl
    rw [hrestart, himpl]
    exact
      { time := h.time
        goal := fun g hg => by
          cases hg
          exact hstart
        alarm := fun due hdue => by
          cases hdue
          refine ⟨rfl, ?_, ?_⟩
          · rw [hat]
            exact AlarmToTimer.deadline_next hle s.impl.mDt
          · rw [State.next, UInt32.ofNat_add, UInt32.ofNat_toNat, hat]
        cause := h.cause
        posted := fun hp => absurd (hposted.symm.trans hp) (by decide)
        touched := fun hp => absurd (hposted.symm.trans hp) (by decide)
        begun := fun hp => by cases hp
        signalling := fun _ => ⟨hstart, hle⟩ }
  · have himpl : s.impl.restart = { s.impl with phase := .signalling } := if_neg hone
    have hrestart : s.restart = { s with impl := s.impl.restart, goal := none } := by
      rw [State.restart, eq_true_of_ne_false hone]
      rfl
    rw [hrestart, himpl]
    exact
      { time := h.time
        goal := fun g hg => by cases hg
        alarm := fun due hdue => by cases halarm.symm.trans hdue
        cause := h.cause
        posted := fun hp => absurd (hposted.symm.trans hp) (by decide)
        touched := fun hp => absurd (hposted.symm.trans hp) (by decide)
        begun := fun hp => by cases hp
        signalling := fun _ => ⟨hstart, hle⟩ }

theorem signal (h : Inv s) : Inv { s with impl := { s.impl with phase := .idle } } where
  time := h.time
  goal := h.goal
  alarm := h.alarm
  cause := h.cause
  posted hp ht :=
    have hd := h.posted hp ht
    ⟨hd.goal, hd.le, hd.alarm, hd.alarmAt⟩
  touched := h.touched
  begun hp := by cases hp
  signalling hp := by cases hp

end Inv

/-- What a step needs to be taken, and what it does. -/
inductive Step (s : State) : Event → State → Prop
  | elapse (ticks : Nat) :
    Step s (.elapse ticks) { s with impl := { s.impl with time := s.impl.time + ticks } }
  | startPeriodic (dt : UInt32) : s.impl.phase = .idle →
    Step s (.startPeriodic dt) (s.start s.impl.getNow dt false)
  | startOneShot (dt : UInt32) : s.impl.phase = .idle →
    Step s (.startOneShot dt) (s.start s.impl.getNow dt true)
  | startPeriodicAt (t0 dt : UInt32) : s.impl.phase = .idle →
    Step s (.startPeriodicAt t0 dt) (s.start t0 dt false)
  | startOneShotAt (t0 dt : UInt32) : s.impl.phase = .idle →
    Step s (.startOneShotAt t0 dt) (s.start t0 dt true)
  | stop : s.impl.phase = .idle → Step s .stop s.stop
  | alarmFired (due : Nat) : s.impl.alarm = some due → due ≤ s.impl.time →
    Step s .alarmFired s.alarmFired
  | fired : s.impl.posted = true → s.impl.phase = .idle → Step s .fired s.fired
  | restart : s.impl.phase = .begun → Step s .restart s.restart
  | signal : s.impl.phase = .signalling →
    Step s .signal { s with impl := { s.impl with phase := .idle } }

theorem call_spec {s s' s₁ : State} (h : s.call s₁ = some s') :
    s.impl.phase = .idle ∧ s' = s₁ := by
  obtain ⟨hidle, h⟩ := Option.ite_none_right_eq_some.1 h
  exact ⟨hidle, (Option.some.inj h).symm⟩

theorem step_spec {s s' : State} {e : Event} (h : s.step e = some s') : Step s e s' := by
  cases e with
  | elapse ticks =>
    cases h
    exact .elapse ticks
  | startPeriodic dt =>
    obtain ⟨hidle, rfl⟩ := call_spec h
    exact .startPeriodic dt hidle
  | startOneShot dt =>
    obtain ⟨hidle, rfl⟩ := call_spec h
    exact .startOneShot dt hidle
  | startPeriodicAt t0 dt =>
    obtain ⟨hidle, rfl⟩ := call_spec h
    exact .startPeriodicAt t0 dt hidle
  | startOneShotAt t0 dt =>
    obtain ⟨hidle, rfl⟩ := call_spec h
    exact .startOneShotAt t0 dt hidle
  | stop =>
    obtain ⟨hidle, rfl⟩ := call_spec h
    exact .stop hidle
  | alarmFired =>
    obtain ⟨hany, h⟩ := Option.ite_none_right_eq_some.1 h
    cases h
    cases hdue : s.impl.alarm with
    | none =>
      rw [hdue] at hany
      cases hany
    | some due =>
      rw [hdue] at hany
      exact .alarmFired due hdue (of_decide_eq_true hany)
  | fired =>
    obtain ⟨⟨hposted, hidle⟩, h⟩ := Option.ite_none_right_eq_some.1 h
    cases h
    exact .fired hposted hidle
  | restart =>
    obtain ⟨hbegun, h⟩ := Option.ite_none_right_eq_some.1 h
    cases h
    exact .restart hbegun
  | signal =>
    obtain ⟨hsignalling, h⟩ := Option.ite_none_right_eq_some.1 h
    cases h
    exact .signal hsignalling

theorem step_inv {s s' : State} {e : Event} (h : Inv s) (hu : Untouched s e)
    (hs : s.step e = some s') : Inv s' := by
  cases step_spec hs with
  | elapse ticks => exact h.elapse ticks
  | startPeriodic dt hidle => exact h.start hidle _ dt false
  | startOneShot dt hidle => exact h.start hidle _ dt true
  | startPeriodicAt t0 dt hidle => exact h.start hidle t0 dt false
  | startOneShotAt t0 dt hidle => exact h.start hidle t0 dt true
  | stop hidle => exact h.stop hidle
  | alarmFired due hdue hle => exact h.alarmFired hdue hle
  | fired hposted _ => exact h.fired hposted (hu rfl)
  | restart hbegun => exact h.restart hbegun
  | signal _ => exact h.signal

theorem respects_step {s s' : State} {e : Event} (h : Inv s) (hs : s.step e = some s') :
    Respects s e ↔ Untouched s e := by
  constructor
  · rintro hr rfl
    cases step_spec hs with
    | fired hposted _ =>
      obtain ⟨g, hg, hstart, _⟩ := hr.fired rfl
      refine eq_false_of_ne_true fun ht => ?_
      exact Nat.ne_of_lt (h.touched hposted ht g hg) hstart
  · intro hu
    refine ⟨?_, ?_, ?_⟩
    · intro hgoal
      cases halarm : s.impl.alarm with
      | none => rfl
      | some due => cases hgoal.symm.trans (h.alarm due halarm).1
    · rintro rfl
      cases step_spec hs with
      | fired hposted _ =>
        have hd := h.posted hposted (hu rfl)
        exact ⟨s.cause, hd.goal, rfl, hd.le⟩
    · rintro rfl
      cases step_spec hs with
      | signal hsignalling => exact h.signalling hsignalling

/-- **Stop and restart.** The timer respects them in a run exactly if no task runs that was posted
before the last start or stop. -/
theorem respects_iff {h : List (State × Event)} {s : State} (hr : machine.Run h s) :
    (∀ p ∈ h, Respects p.1 p.2) ↔ ∀ p ∈ h, Untouched p.1 p.2 := by
  refine hr.forall_steps_iff (J := Inv) ?_ (fun _ _ _ => step_inv) (fun _ _ _ => respects_step)
  rintro s ⟨time, htime, rfl⟩
  exact boot_inv htime

/-- A periodic timer is restarted behind its first firing. -/
theorem respects_periodic : ∃ h s, machine.Run h s ∧
    h.map Prod.snd = [.startOneShot 7, .signal, .restart, .fired, .alarmFired, .elapse 12,
      .startPeriodic 10] ∧
    ∀ p ∈ h, Respects p.1 p.2 := by
  obtain ⟨h, s, hr, hs⟩ := Machine.exists_run_of_exec (M := machine)
    ⟨2 ^ 32, Nat.le_refl _, rfl⟩
    [.startPeriodic 10, .elapse 12, .alarmFired, .fired, .restart, .signal, .startOneShot 7]
    (fun h _ => h.map Prod.snd = [.startOneShot 7, .signal, .restart, .fired, .alarmFired,
      .elapse 12, .startPeriodic 10] ∧ ∀ p ∈ h, Untouched p.1 p.2) (by decide)
  obtain ⟨hevents, hu⟩ := of_decide_eq_true hs
  exact ⟨h, s, hr, hevents, (respects_iff hr).2 hu⟩

/-- The alarm has fired when the timer is stopped: the task runs all the same, sets the alarm again,
and signals. -/
theorem stopped_periodic : ∃ h s, machine.Run h s ∧
    h.map Prod.snd = [.signal, .restart, .fired, .stop, .alarmFired, .elapse 10,
      .startPeriodic 10] ∧
    s.goal = none ∧ s.impl.alarm = some (2 ^ 32 + 20) ∧ ¬ ∀ p ∈ h, Respects p.1 p.2 := by
  obtain ⟨h, s, hr, hs⟩ := Machine.exists_run_of_exec (M := machine)
    ⟨2 ^ 32, Nat.le_refl _, rfl⟩
    [.startPeriodic 10, .elapse 10, .alarmFired, .stop, .fired, .restart, .signal]
    (fun h s => h.map Prod.snd = [.signal, .restart, .fired, .stop, .alarmFired, .elapse 10,
        .startPeriodic 10] ∧
      s.goal = none ∧ s.impl.alarm = some (2 ^ 32 + 20) ∧
      ∃ p ∈ h, p.1.goal = none ∧ p.1.impl.alarm ≠ none ∧ p.2 = .signal) (by decide)
  obtain ⟨hevents, hgoal, halarm, p, hp, hstopped, hset, _⟩ := of_decide_eq_true hs
  exact ⟨h, s, hr, hevents, hgoal, halarm, fun hall => hset ((hall p hp).stopped hstopped)⟩

end AlarmToTimerC
