import Backip.Lib.Machine
import Mathlib.Algebra.Group.Int.Defs
import Mathlib.Algebra.Group.Nat.Defs
import Mathlib.Logic.Function.Basic

/-!
# Virtual timers over one timer (`tos/lib/timer/VirtualizeTimerC.nc`)

`Timers` is the module's state with its task and the timer `TimerFrom`, of which only the time at
which it is due is kept. A call of `Timer.fired` lasts until the event `handled`; commands of its
handler come in between. Times are the real ones, which do not wrap: `getNow` is what the 32 bits of
the counter show.

`Armed` is what a timer is for: started at `t0` for `dt`, and how often it has fired since. The
machine keeps it beside the module's state.
-/

set_option autoImplicit false

namespace VirtualizeTimerC

/-- `Timer_t`. -/
structure Timer where
  t0 : UInt32
  dt : UInt32
  isoneshot : Bool
  isrunning : Bool
deriving DecidableEq, Repr

structure Timers where
  timers : Nat → Timer
  /-- `updateFromTimer` is posted. -/
  posted : Bool
  /-- When `TimerFrom` is due, if it is running. -/
  timerFrom : Option Nat
  /-- A handler of `Timer.fired` is executing. -/
  handling : Bool
  time : Nat

namespace Timers

/-- `TimerFrom.getNow`. -/
def getNow (s : Timers) : UInt32 := .ofNat s.time

def set (s : Timers) (num : Nat) (t : Timer) : Timers :=
  { s with timers := Function.update s.timers num t }

end Timers

/-- The test of `fireTimers`. -/
def Timer.due (t : Timer) (now : UInt32) : Bool := t.isrunning && decide (t.dt ≤ now - t.t0)

/-- What `fireTimers` leaves of a timer that fires. -/
def Timer.fire (t : Timer) : Timer :=
  if t.isoneshot then { t with isrunning := false } else { t with t0 := t.t0 + t.dt }

/-- `fireTimers` up to the call of `Timer.fired`: the timer that fires. Without one it goes on to
post `updateFromTimer`. -/
def fireTimers (numTimers : Nat) (s : Timers) (now : UInt32) : Option Nat × Timers :=
  match (List.range numTimers).find? fun num => (s.timers num).due now with
  | some num => (some num, { s.set num (s.timers num).fire with handling := true })
  | none => (none, { s with posted := true })

/-- `remaining` in `updateFromTimer`, an `int32_t`. -/
def Timer.remaining (t : Timer) (now : UInt32) : Int := (t.dt - (now - t.t0)).toBitVec.toInt

/-- The loop of `updateFromTimer`: `min_remaining`, if it `isset`. -/
def scan (nums : List Nat) (s : Timers) (now : UInt32) : Int × Bool :=
  nums.foldl (fun m num =>
    if (s.timers num).isrunning && decide ((s.timers num).remaining now < m.1) then
      ((s.timers num).remaining now, true)
    else m) (2 ^ 31 - 1, false)

/-- `updateFromTimer`, up to the call of `Timer.fired`. -/
def updateFromTimer (numTimers : Nat) (s : Timers) : Option Nat × Timers :=
  let now := s.getNow
  let s := { s with posted := false, timerFrom := none }
  let m := scan (List.range numTimers) s now
  if m.2 then
    if m.1 ≤ 0 then fireTimers numTimers s now
    else (none, { s with timerFrom := some (s.time + m.1.toNat) })
  else (none, s)

/-- `startTimer`. -/
def startTimer (s : Timers) (num : Nat) (t0 dt : UInt32) (isoneshot : Bool) : Timers :=
  { s.set num ⟨t0, dt, isoneshot, true⟩ with posted := true }

/-- `Timer.stop`. -/
def stop (s : Timers) (num : Nat) : Timers :=
  s.set num { s.timers num with isrunning := false }

/-! ## Runs -/

/-- What happens, and when. A `start` is one of the four commands, with its `t0`. -/
inductive Event
  | start (num : Nat) (t0 : Nat) (dt : UInt32) (isoneshot : Bool) (now : Nat)
  | stop (num : Nat) (now : Nat)
  | timerFromFired (now : Nat)
  | updateFromTimer (now : Nat)
  | handled (now : Nat)
deriving DecidableEq, Repr

/-- The timer that fires, and the state. `dt` is at most the maximum that the module supports. -/
def react (numTimers : Nat) (s : Timers) : Event → Option (Option Nat × Timers)
  | .start num t0 dt isoneshot now =>
    if num < numTimers ∧ s.time ≤ now ∧ t0 ≤ now ∧ dt.toNat < 2 ^ 31 then
      some (none, startTimer { s with time := now } num (.ofNat t0) dt isoneshot)
    else none
  | .stop num now =>
    if num < numTimers ∧ s.time ≤ now then
      some (none, VirtualizeTimerC.stop { s with time := now } num)
    else none
  | .timerFromFired now =>
    if s.handling = false ∧ s.time ≤ now then
      let s := { s with time := now, timerFrom := none }
      some (fireTimers numTimers s s.getNow)
    else none
  | .updateFromTimer now =>
    if s.posted = true ∧ s.handling = false ∧ s.time ≤ now then
      some (VirtualizeTimerC.updateFromTimer numTimers { s with time := now })
    else none
  | .handled now =>
    if s.handling = true ∧ s.time ≤ now then
      some (none, { s with time := now, handling := false, posted := true })
    else none

/-- A timer that has been started at `t0`, has fired `count` times since, and is running. -/
structure Armed where
  t0 : Nat
  dt : Nat
  oneShot : Bool
  count : Nat
deriving DecidableEq, Repr

namespace Armed

/-- When the firing before the next one was due. -/
def base (x : Armed) : Nat := x.t0 + x.count * x.dt

/-- When the next firing is due. -/
def deadline (x : Armed) : Nat := x.t0 + (x.count + 1) * x.dt

/-- After a firing. -/
def fired (x : Armed) : Option Armed :=
  if x.oneShot then none else some { x with count := x.count + 1 }

end Armed

/-- The module's state, and what its timers are for. -/
structure State where
  impl : Timers
  armed : Nat → Option Armed

/-- What an event, with the timer that fires in it, makes of what the timers are for. -/
def arm (armed : Nat → Option Armed) : Event → Option Nat → Nat → Option Armed
  | .start num t0 dt isoneshot _, _ => Function.update armed num (some ⟨t0, dt.toNat, isoneshot, 0⟩)
  | .stop num _, _ => Function.update armed num none
  | _, some num => Function.update armed num ((armed num).bind Armed.fired)
  | _, none => armed

/-- `m_timers` is cleared when the node starts. -/
def boot : State where
  impl :=
    { timers := fun _ => ⟨0, 0, false, false⟩
      posted := false
      timerFrom := none
      handling := false
      time := 0 }
  armed _ := none

def machine (numTimers : Nat) : Machine State Event where
  init s := s = boot
  step s e := (react numTimers s.impl e).map fun r => ⟨r.2, arm s.armed e r.1⟩

end VirtualizeTimerC
