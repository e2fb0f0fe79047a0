import Backip.Lib.Machine
import Backip.System.Types
import Mathlib.Algebra.Group.Nat.Defs
import Mathlib.Data.List.FinRange
import Mathlib.Logic.Function.Basic

/-!
# Trickle timers

`TrickleTimerImplP` runs `count` Trickle timers over one one-shot `Timer`, with the scale that
`TrickleTimerMilliC` wires. An interval of a trickle is `period << scale` long; the firing point
lies in its second half, `remainder` before its end. Left open are the random numbers and the time
`elapsed` since the `Timer` was started, when `adjustTimer` asks for it. `period << (scale - 1)` is
computed in the platform's `int`.
-/

set_option autoImplicit false

namespace TrickleTimerImplP

/-- The `scale` that `TrickleTimerMilliC` passes. -/
def scale : Nat := 10

/-- The parameters of `TrickleTimerMilliC`, and the platform. -/
structure Config where
  low : UInt16
  high : UInt16
  k : UInt8
  count : UInt8
  int : IntWidth
  one_le_low : 1 ≤ low.toNat
  low_le_high : low.toNat ≤ high.toNat
  count_pos : 0 < count.toNat

/-- The numbers of the trickles. -/
abbrev Config.Id (cfg : Config) : Type := Fin cfg.count.toNat

/-- `trickle_t` -/
structure Trickle where
  period : UInt16
  time : UInt32
  remainder : UInt32
  count : UInt8
  deriving DecidableEq

variable {cfg : Config}

/-- The `period` of `generateTime`: doubled, in sixteen bits, if the trickle was running. -/
def Trickle.doubled (cfg : Config) (t : Trickle) : UInt16 :=
  if t.time ≠ 0 then
    let period := t.period * 2
    if period > cfg.high then cfg.high else period
  else t.period

/-- `period << (scale - 1)` in the platform's `int` -/
def shifted (cfg : Config) (period : UInt16) : Nat :=
  cfg.int.wrap (period.toNat * 2 ^ (scale - 1))

/-- `generateTime`, given `Random.rand16()`. Nothing where it takes a remainder by zero. -/
def Trickle.generateTime (cfg : Config) (t : Trickle) (rand : UInt16) : Option Trickle :=
  let period := t.doubled cfg
  if shifted cfg period = 0 then none
  else
    let newTime := period.toUInt32 <<< (UInt32.ofNat (scale - 1))
    let rval := UInt16.ofNat (rand.toNat % shifted cfg period)
    let newTime := newTime + rval.toUInt32
    some { t with
      period := period
      time := t.remainder + newTime
      remainder := (period.toUInt32 <<< UInt32.ofNat scale) - newTime }

structure State (cfg : Config) where
  trickles : cfg.Id → Trickle
  pending : cfg.Id → Bool
  changed : cfg.Id → Bool
  /-- The time the `Timer` was last started with, while it runs. -/
  timer : Option UInt32
  /-- A remainder by zero was taken; what comes then is not defined. -/
  fault : Bool

namespace State

/-- The state after `Init.init`. -/
def init (cfg : Config) : State cfg where
  trickles _ := ⟨cfg.high, 0, 0, 0⟩
  pending _ := false
  changed _ := false
  timer := none
  fault := false

/-! ## `adjustTimer` -/

/-- `trickles[i].time` after the pass of `adjustTimer` over it -/
def adjusted (elapsed : UInt32) (changed : Bool) (t : Trickle) : Trickle :=
  if t.time = 0 then t
  else if !changed then
    if t.time > elapsed then { t with time := t.time - elapsed } else { t with time := 1 }
  else t

/-- `lowest`, where there is one, after a trickle's time -/
def lower (lowest : Option UInt32) (timeRemaining : UInt32) : Option UInt32 :=
  if timeRemaining = 0 then lowest
  else match lowest with
    | none => some timeRemaining
    | some lowest => some (if timeRemaining < lowest then timeRemaining else lowest)

/-- The least of the times of the running trickles. -/
def lowest (trickles : cfg.Id → Trickle) : Option UInt32 :=
  (List.finRange _).foldl (fun lowest i => lower lowest (trickles i).time) none

def adjustTimer (elapsed : UInt32) (s : State cfg) : State cfg :=
  let trickles i := adjusted elapsed (s.changed i) (s.trickles i)
  { s with
    trickles := trickles
    changed := fun i => if (s.trickles i).time = 0 then s.changed i else false
    timer := lowest trickles }

/-! ## Commands and events -/

/-- Trickle `i` becomes `t` by a call of `generateTime`, and `Changed` is set. -/
def generate (cfg : Config) (s : State cfg) (i : cfg.Id) (t : Trickle) (rand : UInt16)
    (elapsed : UInt32) : State cfg :=
  match t.generateTime cfg rand with
  | none => { s with fault := true }
  | some t' =>
    adjustTimer elapsed { s with
      trickles := Function.update s.trickles i t'
      changed := Function.update s.changed i true }

/-- `TrickleTimer.start[i]()`; a running trickle answers `EBUSY`. -/
def start (s : State cfg) (i : cfg.Id) (rand : UInt16) (elapsed : UInt32) : State cfg :=
  if (s.trickles i).time ≠ 0 then s
  else s.generate cfg i { s.trickles i with time := 0, remainder := 0, count := 0 } rand elapsed

/-- `TrickleTimer.stop[i]()` -/
def stop (s : State cfg) (i : cfg.Id) (elapsed : UInt32) : State cfg :=
  adjustTimer elapsed { s with
    trickles := Function.update s.trickles i { s.trickles i with time := 0, period := cfg.high } }

/-- `TrickleTimer.reset[i]()` -/
def reset (s : State cfg) (i : cfg.Id) (rand : UInt16) (elapsed : UInt32) : State cfg :=
  let t := { s.trickles i with period := cfg.low, count := 0 }
  if (s.trickles i).time ≠ 0 then
    s.generate cfg i { t with time := 0, remainder := 0 } rand elapsed
  else { s with trickles := Function.update s.trickles i t }

/-- `TrickleTimer.incrementCounter[i]()` -/
def incrementCounter (s : State cfg) (i : cfg.Id) : State cfg :=
  { s with
    trickles := Function.update s.trickles i
      { s.trickles i with count := (s.trickles i).count + 1 } }

/-- `timerTask`: the first pending trickle fires. -/
def timerTask (s : State cfg) : State cfg :=
  match (List.finRange _).find? s.pending with
  | some i => { s with pending := Function.update s.pending i false }
  | none => s

/-- Trickle `i` is at its firing point when the `Timer` fires. -/
def Ends (s : State cfg) (i : cfg.Id) : Prop :=
  (s.trickles i).time ≠ 0 ∧ s.timer = some (s.trickles i).time

instance (s : State cfg) (i : cfg.Id) : Decidable (s.Ends i) := by
  unfold Ends
  infer_instance

/-- What `Timer.fired` makes of trickle `i`. -/
def next (s : State cfg) (rand : cfg.Id → UInt16) (i : cfg.Id) : Option Trickle :=
  if s.Ends i then
    ((s.trickles i).generateTime cfg (rand i)).map fun t => { t with count := 0 }
  else some (s.trickles i)

/-- `Timer.fired` -/
def fired (s : State cfg) (rand : cfg.Id → UInt16) (elapsed : UInt32) : State cfg :=
  if ∀ i, (s.next rand i).isSome then
    adjustTimer elapsed { s with
      trickles := fun i => (s.next rand i).getD (s.trickles i)
      pending := fun i => s.pending i || (decide (s.Ends i) && (s.trickles i).count < cfg.k)
      changed := fun i => s.changed i || decide (s.Ends i) }
  else { s with fault := true }

end State

inductive Event (cfg : Config)
  | start (i : cfg.Id) (rand : UInt16) (elapsed : UInt32)
  | stop (i : cfg.Id) (elapsed : UInt32)
  | reset (i : cfg.Id) (rand : UInt16) (elapsed : UInt32)
  | incrementCounter (i : cfg.Id)
  | fired (rand : cfg.Id → UInt16) (elapsed : UInt32)
  | timerTask

namespace State

def step (s : State cfg) (e : Event cfg) : Option (State cfg) :=
  if s.fault then none
  else match e with
    | .start i rand elapsed => some (s.start i rand elapsed)
    | .stop i elapsed => some (s.stop i elapsed)
    | .reset i rand elapsed => some (s.reset i rand elapsed)
    | .incrementCounter i => some (s.incrementCounter i)
    | .fired rand elapsed => if s.timer.isSome then some (s.fired rand elapsed) else none
    | .timerTask => some s.timerTask

def machine (cfg : Config) : Machine (State cfg) (Event cfg) where
  init s := s = init cfg
  step := step

/-! ## The algorithm -/

/-- The periods are within the bounds. -/
def InRange (s : State cfg) : Prop :=
  ∀ i, cfg.low.toNat ≤ (s.trickles i).period.toNat ∧ (s.trickles i).period.toNat ≤ cfg.high.toNat

/-- The period of trickle `i` after a step: the least after a reset, the greatest after a stop,
twice the last one up to the greatest after a firing point. -/
def period (s : State cfg) (i : cfg.Id) : Event cfg → Nat
  | .reset j _ _ => if j = i then cfg.low.toNat else (s.trickles i).period.toNat
  | .stop j _ => if j = i then cfg.high.toNat else (s.trickles i).period.toNat
  | .fired _ _ =>
    if s.Ends i then min (2 * (s.trickles i).period.toNat) cfg.high.toNat
    else (s.trickles i).period.toNat
  | _ => (s.trickles i).period.toNat

/-- What is left of trickle `i`'s interval when it begins another one in a step: nothing if the
trickle is started or reset. -/
def left (s : State cfg) (i : cfg.Id) : Event cfg → Option Nat
  | .start j _ _ => if j = i ∧ (s.trickles i).time = 0 then some 0 else none
  | .reset j _ _ => if j = i ∧ (s.trickles i).time ≠ 0 then some 0 else none
  | .fired _ _ => if s.Ends i then some (s.trickles i).remainder.toNat else none
  | _ => none

/-- Trickle `t` has an interval before it that starts in `left` and fires `point` after its start,
in the second half. -/
def Begins (t : Trickle) (left : Nat) : Prop :=
  ∃ point, t.time.toNat = left + point ∧
    point + t.remainder.toNat = t.period.toNat * 2 ^ scale ∧
    t.period.toNat * 2 ^ scale ≤ 2 * point ∧ point < t.period.toNat * 2 ^ scale

/-- A step does as the algorithm says: no remainder by zero, the period follows the law, a new
interval starts where the last one ends, and otherwise what is left of the interval stays. -/
structure Obeys (s : State cfg) (e : Event cfg) (s' : State cfg) : Prop where
  fault : s'.fault = false
  period : ∀ i, (s'.trickles i).period.toNat = s.period i e
  begins : ∀ i, ∀ l ∈ s.left i e, Begins (s'.trickles i) l
  stays : ∀ i, s.left i e = none → (s'.trickles i).remainder = (s.trickles i).remainder

end State

/-- Twice a period fits in sixteen bits, and on a platform with an `int` of 16 bits no period that a
trickle gets to is a multiple of 128. -/
def Config.Safe (cfg : Config) : Prop :=
  cfg.high.toNat < 2 ^ 15 ∧
    (cfg.int = .bits16 → ∀ j, min (cfg.low.toNat * 2 ^ j) cfg.high.toNat % 128 ≠ 0)

end TrickleTimerImplP
