import Backip.Lib.Machine
import Backip.Lib.WrappingClock
import Mathlib.Algebra.Group.Nat.Defs
import Mathlib.Logic.Function.Basic

/-!
# Virtual alarms over one alarm (`tos/lib/timer/VirtualizeAlarmC.nc`)

Times are the real ones, which do not wrap: `getNow` is what the counter shows of them. Time goes by
in a handler of `Alarm.fired`, which lasts until the event `handled`, and over the loop of
`signalAlarms`, whose rounds are the events `iterate`; commands come outside of `AlarmFrom.fired` or
from a handler. `AlarmFrom` is late by less than half a round of the counter.

`Started` is what an alarm is for, from `startAt` until it fires or is stopped.
-/

set_option autoImplicit false

namespace VirtualizeAlarmC

/-- `alarm_t`. -/
structure Alarm where
  t0 : Nat
  dt : Nat
deriving DecidableEq, Repr

/-- The loop of `signalAlarms`, and whether it is in a handler. -/
structure Loop where
  id : Nat
  handling : Bool
deriving DecidableEq, Repr

structure Alarms where
  alarm : Nat → Alarm
  isset : Nat → Bool
  /-- `is_signaling`, with the loop. -/
  signaling : Option Loop
  /-- `AlarmFrom`, if it is running, with the time `t0`. -/
  alarmFrom : Option Alarm
  time : Nat

-- `sizeof(size_type)`, and `num_alarms`
variable (size numAlarms : Nat) (s : Alarms)

/-- A round of the counter. -/
def round : Nat := 2 ^ (8 * size)

/-- `AlarmFrom.getNow`. -/
def getNow : Nat := s.time % round size

/-- `now - t0`. -/
def elapsed (now t0 : Nat) : Nat := WrappingClock.elapsed (round size) now t0

/-- `setNextAlarm`: what it makes of an alarm that is set. -/
def rebase (now : Nat) (p : Alarm) : Alarm :=
  let elapsed := elapsed size now p.t0
  if p.dt ≤ elapsed then ⟨(p.t0 + p.dt) % round size, 0⟩ else ⟨now, p.dt - elapsed⟩

/-- The loop of `setNextAlarm`. -/
structure Scan where
  alarm : Nat → Alarm
  dt : Nat
  isset : Bool

def scan (now : Nat) (ids : List Nat) : Scan :=
  ids.foldl (fun m id =>
    if s.isset id then
      let p := rebase size now (m.alarm id)
      let alarm := Function.update m.alarm id p
      if p.dt ≤ m.dt then ⟨alarm, p.dt, true⟩ else { m with alarm }
    else m) ⟨s.alarm, round size - 1, false⟩

def setNextAlarm : Alarms :=
  if s.signaling = none then
    let m := scan size s (getNow size s) (List.range numAlarms)
    let s := { s with alarm := m.alarm }
    if m.isset then
      let dt := if m.dt.testBit (8 * size - 1) then m.dt / 2 else m.dt
      { s with alarmFrom := some ⟨s.time, dt⟩ }
    else { s with alarmFrom := none }
  else s

/-- `Alarm.startAt`. -/
def startAt (id t0 dt : Nat) : Alarms :=
  setNextAlarm size numAlarms
    { s with
      alarm := Function.update s.alarm id ⟨t0, dt⟩, isset := Function.update s.isset id true }

/-- `Alarm.stop`. -/
def stop (id : Nat) : Alarms := { s with isset := Function.update s.isset id false }

/-- `Alarm.isRunning`. -/
def isRunning (id : Nat) : Bool := s.isset id

/-- `Alarm.getAlarm`. -/
def getAlarm (id : Nat) : Nat := ((s.alarm id).t0 + (s.alarm id).dt) % round size

/-- A round of the loop of `signalAlarms`, up to a handler: whether the alarm fires. The `id` has
eight bits. -/
def iterate (id : Nat) : Bool × Alarms :=
  if s.isset id && decide ((s.alarm id).dt ≤ elapsed size (getNow size s) (s.alarm id).t0) then
    (true, { s with isset := Function.update s.isset id false, signaling := some ⟨id, true⟩ })
  else (false, { s with signaling := some ⟨(id + 1) % 256, false⟩ })

/-! ## Runs -/

/-- What an alarm is for. It is `fresh` if a handler of the present `AlarmFrom.fired` started it. -/
structure Started where
  t0 : Nat
  dt : Nat
  fresh : Bool
deriving DecidableEq, Repr

namespace Started

def deadline (x : Started) : Nat := x.t0 + x.dt

end Started

structure State where
  impl : Alarms
  started : Nat → Option Started
  /-- When the `AlarmFrom` that fired last was due. -/
  due : Nat

/-- What happens. -/
inductive Action
  | startAt (id t0 dt : Nat)
  | stop (id : Nat)
  | fromFired
  | iterate
  | handled
  /-- The end of `AlarmFrom.fired`. -/
  | fromFiredDone
deriving DecidableEq, Repr

/-- An action, and when. -/
abbrev Event : Type := Action × Nat

/-- Commands come from a handler, or outside of `AlarmFrom.fired`. -/
def Alarms.accepts (s : Alarms) : Bool := s.signaling.all (·.handling)

def react (s : State) : Action → Option State
  | .startAt id t0 dt =>
    if id < numAlarms ∧ s.impl.accepts = true ∧ t0 ≤ s.impl.time ∧
        s.impl.time + dt < t0 + round size then
      some { s with
        impl := startAt size numAlarms s.impl id (t0 % round size) dt
        started := Function.update s.started id (some ⟨t0, dt, s.impl.signaling.isSome⟩) }
    else none
  | .stop id =>
    if id < numAlarms ∧ s.impl.accepts = true then
      some { s with impl := stop s.impl id, started := Function.update s.started id none }
    else none
  | .fromFired =>
    match s.impl.signaling, s.impl.alarmFrom with
    | none, some a =>
      if a.t0 + a.dt ≤ s.impl.time then
        some { s with
          impl := { s.impl with alarmFrom := none, signaling := some ⟨0, false⟩ }
          due := a.t0 + a.dt }
      else none
    | _, _ => none
  | .iterate =>
    match s.impl.signaling with
    | some ⟨id, false⟩ =>
      if id < numAlarms then
        let r := iterate size s.impl id
        some { s with
          impl := r.2
          started := if r.1 then Function.update s.started id none else s.started }
      else none
    | _ => none
  | .handled =>
    match s.impl.signaling with
    | some ⟨id, true⟩ =>
      some { s with impl := { s.impl with signaling := some ⟨(id + 1) % 256, false⟩ } }
    | _ => none
  | .fromFiredDone =>
    match s.impl.signaling with
    | some ⟨id, false⟩ =>
      if numAlarms ≤ id then
        some { s with
          impl := setNextAlarm size numAlarms { s.impl with signaling := none }
          started := fun id => (s.started id).map fun x => { x with fresh := false } }
      else none
    | _ => none

/-- `now` is not in the past, nor so late that `AlarmFrom` had fired. -/
def Alarms.Reaches (s : Alarms) (now : Nat) : Prop :=
  s.time ≤ now ∧ ∀ a ∈ s.alarmFrom, now < a.t0 + a.dt + round size / 2

instance (now : Nat) : Decidable (s.Reaches size now) := inferInstanceAs (Decidable (_ ∧ _))

def State.at (s : State) (now : Nat) : State := { s with impl := { s.impl with time := now } }

def step (s : State) (e : Event) : Option State :=
  if s.impl.Reaches size e.2 then react size numAlarms (s.at e.2) e.1 else none

/-- `m` is cleared when the node starts. -/
def boot (time : Nat) : State where
  impl :=
    { alarm := fun _ => ⟨0, 0⟩
      isset := fun _ => false
      signaling := none
      alarmFrom := none
      time }
  started _ := none
  due := 0

def machine : Machine State Event where
  init s := ∃ time, s = boot time
  step := step size numAlarms

/-- The events of `AlarmFrom.fired`. -/
def Action.ofSource : Action → Bool
  | .fromFired | .iterate | .handled | .fromFiredDone => true
  | .startAt .. | .stop _ => false

/-- An alarm fires once, when it is due, unless it is stopped. -/
structure Obeys (s : State) : Prop where
  /-- An alarm that fires is started, and `dt` ticks have gone by; it is started no longer. -/
  fires : ∀ id now s', s.impl.signaling = some ⟨id, false⟩ →
    (machine size numAlarms).step s (.iterate, now) = some s' →
    s'.impl.signaling = some ⟨id, true⟩ →
    (∃ x ∈ s.started id, x.deadline ≤ now) ∧ s'.started id = none
  running : ∀ id, isRunning s.impl id = (s.started id).isSome
  getAlarm : ∀ id, ∀ x ∈ s.started id,
    VirtualizeAlarmC.getAlarm size s.impl id = x.deadline % round size
  /-- `AlarmFrom` leads to the alarm's `fired`. -/
  served : ∀ id, s.started id ≠ none → ∃ es h s', (∀ e ∈ es, e.1.ofSource = true) ∧
    (machine size numAlarms).exec es [] s = some (h, s') ∧ s'.started id = none

/-- Outside of `AlarmFrom.fired`, `AlarmFrom` is due by the deadlines, or was due at once where one
had passed. -/
def InTime (s : State) : Prop :=
  s.impl.signaling = none → ∀ id, ∀ x ∈ s.started id, ∃ a ∈ s.impl.alarmFrom,
    a.t0 + a.dt ≤ x.deadline ∨ a.dt = 0 ∧ x.deadline ≤ a.t0

end VirtualizeAlarmC
