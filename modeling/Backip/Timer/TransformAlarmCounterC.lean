import Backip.Lib.Machine
import Mathlib.Algebra.Group.Nat.Defs

/-!
# Alarms on a slower and wider counter (`tos/lib/timer/TransformAlarmCounterC.nc`)

`CounterFrom` counts the source ticks modulo `2 ^ fromBits` and signals `overflow` for each round,
at most one round late; `AlarmFrom` fires not early, any time late. Handlers run at once, but for
`Counter.overflow`, whose handler may use the alarm in the middle of `CounterFrom.overflow`.

`started` is what the alarm is for: the tick of the widened counter before which it must not fire,
from `startAt` until it fires or is stopped. A `startAt` names its `t0` as a tick of the past.
-/

set_option autoImplicit false

namespace TransformAlarmCounterC

/-- The sizes of the types, in bits, and `bit_shift_right`. -/
structure Widths where
  fromBits : Nat
  toBits : Nat
  shift : Nat
  upperBits : Nat
  shift_lt : shift < fromBits
  wider : fromBits < toBits + shift
  upper : toBits + shift ≤ fromBits + upperBits

namespace Widths

variable (w : Widths)

/-- `HIGH_SHIFT_LEFT`. -/
def highShiftLeft : Nat := w.fromBits - w.shift

/-- `MAX_DELAY`. -/
def maxDelay : Nat := 2 ^ (w.fromBits - 1 - w.shift)

end Widths

structure Alarm where
  mUpper : Nat
  mT0 : Nat
  mDt : Nat
  mSkipOverflows : Nat
  /-- When `AlarmFrom` is due, in source ticks, if it is running. -/
  alarmFrom : Option Nat
  /-- `Counter.overflow` is being handled. -/
  handling : Bool
  /-- The source ticks, and the rounds of `CounterFrom` that were signalled. -/
  ticks : Nat
  rounds : Nat

variable (w : Widths) (s : Alarm)

/-- `CounterFrom.get`. -/
def fromGet : Nat := s.ticks % 2 ^ w.fromBits

/-- `CounterFrom.isOverflowPending`. -/
def isOverflowPending : Bool := s.rounds < s.ticks / 2 ^ w.fromBits

/-- `Counter.get`. -/
def get : Nat :=
  let high := if isOverflowPending w s then (s.mUpper + 1) % 2 ^ w.upperBits else s.mUpper
  let low := fromGet w s
  (high * 2 ^ w.highShiftLeft) % 2 ^ w.toBits ||| low / 2 ^ w.shift

/-- `AlarmFrom.startAt`: due `dt` source ticks after the last time the counter was `t0`. -/
def startFrom (t0 dt : Nat) : Alarm :=
  let last := s.ticks - (fromGet w s + 2 ^ w.fromBits - t0) % 2 ^ w.fromBits
  { s with alarmFrom := some (last + dt) }

/-- The end of `set_alarm`. -/
def startRemaining (now remaining : Nat) : Alarm :=
  startFrom w s (now * 2 ^ w.shift % 2 ^ w.fromBits) (remaining * 2 ^ w.shift % 2 ^ w.fromBits)

/-- `set_alarm`. -/
def setAlarm : Alarm :=
  let now := get w s
  let elapsed := (now + 2 ^ w.toBits - s.mT0) % 2 ^ w.toBits
  let s := { s with mSkipOverflows := 0 }
  if elapsed ≥ s.mDt then
    startRemaining w { s with mT0 := (s.mT0 + s.mDt) % 2 ^ w.toBits, mDt := 0 } now 0
  else
    let remaining := s.mDt - elapsed
    if remaining > w.maxDelay * 2 then
      if remaining ≥ w.maxDelay * 2 * 256 % 2 ^ w.toBits then { s with mSkipOverflows := 255 }
      else { s with mSkipOverflows := remaining / (w.maxDelay * 2) }
    else if remaining > w.maxDelay then
      startRemaining w
        { s with mT0 := (now + w.maxDelay) % 2 ^ w.toBits, mDt := remaining - w.maxDelay }
        now w.maxDelay
    else
      startRemaining w { s with mT0 := (s.mT0 + s.mDt) % 2 ^ w.toBits, mDt := 0 } now remaining

/-- `Alarm.startAt`. -/
def startAt (t0 dt : Nat) : Alarm := setAlarm w { s with mT0 := t0, mDt := dt }

/-- `Alarm.stop`. -/
def stop : Alarm := { s with alarmFrom := none }

/-- `Alarm.isRunning`. -/
def isRunning : Bool := s.alarmFrom.isSome || decide (s.mSkipOverflows ≠ 0)

/-- `AlarmFrom.fired`: whether it signals `Alarm.fired`. -/
def fromFired : Bool × Alarm :=
  let s := { s with alarmFrom := none }
  if s.mDt = 0 then (true, s) else (false, setAlarm w s)

/-- `CounterFrom.overflow`, up to the signal. -/
def overflow : Alarm :=
  { s with mUpper := (s.mUpper + 1) % 2 ^ w.upperBits, rounds := s.rounds + 1, handling := true }

/-- `CounterFrom.overflow`, behind the signal. -/
def overflowDone : Alarm :=
  let s := { s with handling := false }
  if s.mSkipOverflows ≠ 0 then
    let s := { s with mSkipOverflows := s.mSkipOverflows - 1 }
    if s.mSkipOverflows = 0 then setAlarm w s else s
  else s

/-! ## Runs -/

inductive Event
  /-- Source ticks go by. -/
  | elapse (ticks : Nat)
  | overflow
  | overflowDone
  | fromFired
  | startAt (t0 dt : Nat)
  | stop
deriving DecidableEq, Repr

/-- The ticks of the widened counter. -/
def Alarm.now : Nat := s.ticks / 2 ^ w.shift

structure State where
  impl : Alarm
  started : Option Nat

def step (s : State) : Event → Option State
  | .elapse ticks =>
    if (s.impl.ticks + ticks) / 2 ^ w.fromBits ≤ s.impl.rounds + 1 then
      some ⟨{ s.impl with ticks := s.impl.ticks + ticks }, s.started⟩
    else none
  | .overflow =>
    if isOverflowPending w s.impl = true ∧ s.impl.handling = false then
      some ⟨overflow w s.impl, s.started⟩
    else none
  | .overflowDone =>
    if s.impl.handling = true then some ⟨overflowDone w s.impl, s.started⟩ else none
  | .fromFired =>
    if s.impl.alarmFrom.any (fun due => due ≤ s.impl.ticks) = true ∧ s.impl.handling = false then
      let r := fromFired w s.impl
      some ⟨r.2, if r.1 then none else s.started⟩
    else none
  | .startAt t0 dt =>
    if t0 ≤ s.impl.now w ∧ dt < 2 ^ w.toBits then
      some ⟨startAt w s.impl (t0 % 2 ^ w.toBits) dt, some (t0 + dt)⟩
    else none
  | .stop => some ⟨stop s.impl, none⟩

def boot : State where
  impl :=
    { mUpper := 0
      mT0 := 0
      mDt := 0
      mSkipOverflows := 0
      alarmFrom := none
      handling := false
      ticks := 0
      rounds := 0 }
  started := none

def machine : Machine State Event where
  init s := s = boot
  step := step w

/-- The events of the counter and of `AlarmFrom`. -/
def Event.ofSource : Event → Bool
  | .elapse _ | .overflow | .overflowDone | .fromFired => true
  | .startAt .. | .stop => false

/-- The alarm obeys `startAt` and `stop`. -/
structure Obeys (s : State) : Prop where
  /-- Where `Alarm.fired` is signalled, the alarm is started, and `dt` ticks have gone by. -/
  fires : ∀ s', (machine w).step s .fromFired = some s' → (fromFired w s.impl).1 = true →
    (∃ deadline ∈ s.started, deadline ≤ s.impl.now w) ∧ s'.started = none
  stopped : s.started = none → isRunning s.impl = false
  /-- A started alarm is running, and the counter and `AlarmFrom` lead to its `fired`. -/
  served : s.started ≠ none → isRunning s.impl = true ∧
    ∃ es h s', (∀ e ∈ es, Event.ofSource e = true) ∧
      (machine w).exec es [] s = some (h, s') ∧ s'.started = none

end TransformAlarmCounterC
