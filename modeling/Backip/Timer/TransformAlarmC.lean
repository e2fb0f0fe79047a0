import Backip.Lib.Machine
import Backip.Timer.Proof.TransformAlarm
import Mathlib.Algebra.Group.Nat.Defs
import Mathlib.Tactic.SplitIfs

/-!
# Alarms on a slower and wider counter (`tos/lib/timer/TransformAlarmC.nc`)

`Counter` is a counter that is widened already: it shows the ticks of the wide type modulo
`2 ^ toBits`. `AlarmFrom` counts source ticks, `2 ^ shift` of them to a wide one; it takes its `t0`
for the last time at which its own counter showed it, and fires not early, any time late.

`deadline` is not in the code: the tick before which the started alarm must not fire. Nor is
`delays`, the delays that `AlarmFrom` was started with.

`remaining_eq`: the four cases of `set_alarm` are one, that of `TransformAlarmCounterC`. With it
`set_alarm` is characterised (`setAlarm_spec`): `AlarmFrom` is due at the deadline, or half a round on,
with so much less left to wait. `Chain` is the invariant of a started alarm; every hop takes `MAX_DELAY`
off what is left (`Chain.hop`), so that the chain ends (`chain_of_run`).
-/

set_option autoImplicit false

namespace TransformAlarmC

/-- The sizes of the types, in bits, and `bit_shift_right`. `MAX_DELAY` is a value of the wide
type. -/
structure Widths where
  fromBits : Nat
  toBits : Nat
  shift : Nat
  shift_lt : shift < fromBits
  fits : fromBits - 1 - shift < toBits

/-- `MAX_DELAY`. -/
def Widths.maxDelay (w : Widths) : Nat := 2 ^ (w.fromBits - 1 - w.shift)

structure Alarm where
  mT0 : Nat
  mDt : Nat
  /-- When `AlarmFrom` is due, in source ticks, if it is running. -/
  alarmFrom : Option Nat
  delays : List Nat
  /-- The source ticks. -/
  ticks : Nat

/-- What `set_alarm` finds to remain, with types of `toBits` bits. -/
def remaining (toBits now t0 dt : Nat) : Nat :=
  let expires := (t0 + dt) % 2 ^ toBits
  let remaining := (expires + 2 ^ toBits - now) % 2 ^ toBits
  if t0 ≤ now then
    -- if it wraps, it's > now
    if expires ≥ t0 ∧ expires ≤ now then 0 else remaining
  else
    -- didn't wrap so < now
    if expires ≥ t0 ∨ expires ≤ now then 0 else remaining

variable (w : Widths) (s : Alarm)

/-- The ticks of the wide type. -/
def Alarm.now : Nat := s.ticks / 2 ^ w.shift

/-- `Counter.get`. -/
def get : Nat := s.now w % 2 ^ w.toBits

/-- `AlarmFrom.startAt`: due `dt` source ticks after the last time its counter was `t0`. -/
def startFrom (t0 dt : Nat) : Alarm :=
  let last := s.ticks - (s.ticks % 2 ^ w.fromBits + 2 ^ w.fromBits - t0) % 2 ^ w.fromBits
  { s with alarmFrom := some (last + dt), delays := dt :: s.delays }

/-- The end of `set_alarm`: `now` and `remaining` in source ticks. -/
def startRemaining (now remaining : Nat) : Alarm :=
  startFrom w s (now % 2 ^ w.fromBits * 2 ^ w.shift % 2 ^ w.fromBits)
    (remaining % 2 ^ w.fromBits * 2 ^ w.shift % 2 ^ w.fromBits)

/-- `set_alarm`. -/
def setAlarm : Alarm :=
  let now := get w s
  let remaining := remaining w.toBits now s.mT0 s.mDt
  if remaining > w.maxDelay then
    startRemaining w
      { s with mT0 := (now + w.maxDelay) % 2 ^ w.toBits, mDt := remaining - w.maxDelay }
      now w.maxDelay
  else
    startRemaining w { s with mT0 := (s.mT0 + s.mDt) % 2 ^ w.toBits, mDt := 0 } now remaining

/-- `Alarm.startAt`. -/
def startAt (t0 dt : Nat) : Alarm := setAlarm w { s with mT0 := t0, mDt := dt }

/-- `Alarm.stop`. -/
def stop : Alarm := { s with alarmFrom := none }

/-- `AlarmFrom.fired`: whether it signals `Alarm.fired`. -/
def fromFired : Bool × Alarm :=
  let s := { s with alarmFrom := none }
  if s.mDt = 0 then (true, s) else (false, setAlarm w s)

/-! ## Runs -/

inductive Event
  /-- Source ticks go by. -/
  | elapse (ticks : Nat)
  | fromFired
  | startAt (t0 dt : Nat)
  | stop
deriving DecidableEq, Repr

structure State where
  impl : Alarm
  deadline : Option Nat

/-- The last tick at which the counter was `t0`, and `dt` ticks. -/
def deadlineAt (t0 dt : Nat) : Nat :=
  s.now w + dt - (get w s + 2 ^ w.toBits - t0) % 2 ^ w.toBits

def step (s : State) : Event → Option State
  | .elapse ticks => some ⟨{ s.impl with ticks := s.impl.ticks + ticks }, s.deadline⟩
  | .fromFired =>
    if s.impl.alarmFrom.any (fun due => due ≤ s.impl.ticks) = true then
      let r := fromFired w s.impl
      some ⟨r.2, if r.1 then none else s.deadline⟩
    else none
  | .startAt t0 dt =>
    if t0 < 2 ^ w.toBits ∧ dt < 2 ^ w.toBits then
      some ⟨startAt w s.impl t0 dt, some (deadlineAt w s.impl t0 dt)⟩
    else none
  | .stop => some ⟨stop s.impl, none⟩

def machine : Machine State Event where
  init s := s = ⟨⟨0, 0, none, [], 0⟩, none⟩
  step := step w

/-- The events of the clock and of `AlarmFrom`. -/
def Event.ofSource : Event → Bool
  | .elapse _ | .fromFired => true
  | .startAt .. | .stop => false

/-- The step is a hop of the chain: `AlarmFrom.fired`. -/
def Hop (p : State × Event) : Bool := p.2 = .fromFired

/-- The step signals `Alarm.fired`. -/
def Fires (p : State × Event) : Bool := Hop p && (fromFired w p.1.impl).1

end TransformAlarmC

namespace TransformAlarmC

variable {w : Widths} {a : Alarm} {s s' : State} {base deadline : Nat}

/-- The wrapped comparisons of `set_alarm` say whether `dt` has elapsed since `t0`. -/
theorem remaining_eq {toBits now t0 dt : Nat} (hnow : now < 2 ^ toBits) (ht0 : t0 < 2 ^ toBits)
    (hdt : dt < 2 ^ toBits) :
    remaining toBits now t0 dt =
      if WrappingClock.elapsed (2 ^ toBits) now t0 ≥ dt then 0
      else dt - WrappingClock.elapsed (2 ^ toBits) now t0 := by
  rw [remaining, WrappingClock.elapsed]
  generalize 2 ^ toBits = N at hnow ht0 hdt
  have hexpires : (t0 + dt) % N = if t0 + dt < N then t0 + dt else t0 + dt - N := by
    split
    · exact Nat.mod_eq_of_lt ‹_›
    · rw [Nat.mod_eq_sub_mod (by omega), Nat.mod_eq_of_lt (by omega)]
  have hdiff {x y : Nat} (hx : x < N) (hy : y < N) :
      (x + N - y) % N = if y ≤ x then x - y else x + N - y := by
    split
    · rw [Nat.mod_eq_sub_mod (by omega), Nat.mod_eq_of_lt (by omega)]
      omega
    · exact Nat.mod_eq_of_lt (by omega)
  have hlt : (t0 + dt) % N < N := Nat.mod_lt _ (Nat.zero_lt_of_lt hnow)
  rw [hdiff hlt hnow, hdiff hnow ht0]
  generalize (t0 + dt) % N = expires at hexpires hlt ⊢
  split_ifs at hexpires ⊢ <;> omega

/-! ## `TransformAlarmCounterC` -/

/-- `set_alarm` of `TransformAlarmCounterC`, once it knows what remains. -/
def counterRearm (w : TransformAlarmCounterC.Widths) (a : TransformAlarmCounterC.Alarm)
    (remaining : Nat) : TransformAlarmCounterC.Alarm :=
  let now := TransformAlarmCounterC.get w a
  if remaining > w.maxDelay * 2 then
    { a with mSkipOverflows :=
        if remaining ≥ w.maxDelay * 2 * 256 % 2 ^ w.toBits then 255 else remaining / (w.maxDelay * 2) }
  else
    TransformAlarmCounterC.startRemaining w
      { a with
        mSkipOverflows := 0
        mT0 := if remaining > w.maxDelay then (now + w.maxDelay) % 2 ^ w.toBits
          else (a.mT0 + a.mDt) % 2 ^ w.toBits
        mDt := remaining - w.maxDelay }
      now (min remaining w.maxDelay)

theorem counter_get_lt (w : TransformAlarmCounterC.Widths) (a : TransformAlarmCounterC.Alarm) :
    TransformAlarmCounterC.get w a < 2 ^ w.toBits :=
  Nat.or_lt_two_pow (Nat.mod_lt _ (Nat.two_pow_pos _))
    (Nat.lt_trans (TransformAlarmCounterC.fromGet_lt w a) w.period_lt)

/-- Both modules find the same time to remain. -/
theorem counter_setAlarm {w : TransformAlarmCounterC.Widths} {a : TransformAlarmCounterC.Alarm}
    (ht0 : a.mT0 < 2 ^ w.toBits) (hdt : a.mDt < 2 ^ w.toBits) :
    TransformAlarmCounterC.setAlarm w a =
      counterRearm w a (remaining w.toBits (TransformAlarmCounterC.get w a) a.mT0 a.mDt) := by
  rw [remaining_eq (counter_get_lt w a) ht0 hdt, WrappingClock.elapsed]
  unfold TransformAlarmCounterC.setAlarm counterRearm
  dsimp only
  generalize (TransformAlarmCounterC.get w a + 2 ^ w.toBits - a.mT0) % 2 ^ w.toBits = elapsed
  by_cases hdone : elapsed ≥ a.mDt
  · rw [if_pos hdone, if_pos hdone, if_neg (Nat.not_lt_zero _), if_neg (Nat.not_lt_zero _),
      Nat.zero_sub, Nat.zero_min]
  · rw [if_neg hdone, if_neg hdone]
    by_cases hfar : a.mDt - elapsed > w.maxDelay * 2
    · rw [if_pos hfar, if_pos hfar]
      split <;> rfl
    · rw [if_neg hfar, if_neg hfar]
      by_cases hhalf : a.mDt - elapsed > w.maxDelay
      · rw [if_pos hhalf, if_pos hhalf, Nat.min_eq_right (Nat.le_of_lt hhalf)]
      · rw [if_neg hhalf, if_neg hhalf, Nat.min_eq_left (Nat.le_of_not_lt hhalf),
          Nat.sub_eq_zero_of_le (Nat.le_of_not_lt hhalf)]

/-! ## `set_alarm` -/

theorem maxDelay_mul (w : Widths) : w.maxDelay * 2 ^ w.shift = 2 ^ (w.fromBits - 1) := by
  have hlt := w.shift_lt
  rw [Widths.maxDelay, ← Nat.pow_add]
  congr 1
  omega

theorem half_lt (w : Widths) : 2 ^ (w.fromBits - 1) < 2 ^ w.fromBits := by
  have hlt := w.shift_lt
  exact Nat.pow_lt_pow_right (by decide) (by omega)

/-- A reading of the counter, in the source ticks of `AlarmFrom`. -/
theorem get_mul_shift (w : Widths) (now : Nat) :
    now % 2 ^ w.toBits % 2 ^ w.fromBits * 2 ^ w.shift % 2 ^ w.fromBits =
      now * 2 ^ w.shift % 2 ^ w.fromBits := by
  have hround : 2 ^ w.toBits * 2 ^ w.shift =
      2 ^ w.fromBits * 2 ^ (w.toBits + w.shift - w.fromBits) := by
    have hlt := w.shift_lt
    have hfits := w.fits
    rw [← Nat.pow_add, ← Nat.pow_add]
    congr 1
    omega
  rw [Nat.mod_mul_mod, ← Nat.mul_mod_mul_right, hround, Nat.mod_mul_right_mod]

/-- `AlarmFrom` is due when the counter is `remaining` ticks on. -/
theorem startRemaining_eq (w : Widths) (a : Alarm) {remaining : Nat} (hle : remaining ≤ w.maxDelay) :
    startRemaining w a (a.now w % 2 ^ w.toBits) remaining =
      { a with
        alarmFrom := some ((a.now w + remaining) * 2 ^ w.shift)
        delays := remaining * 2 ^ w.shift :: a.delays } := by
  have hdelay : remaining * 2 ^ w.shift < 2 ^ w.fromBits := by
    refine Nat.lt_of_le_of_lt (Nat.mul_le_mul_right _ hle) ?_
    rw [maxDelay_mul]
    exact half_lt w
  have hpast : a.now w * 2 ^ w.shift ≤ a.ticks := Nat.div_mul_le_self _ _
  have hround : a.ticks - a.now w * 2 ^ w.shift < 2 ^ w.fromBits := by
    have hdiv := Nat.div_add_mod' a.ticks (2 ^ w.shift)
    have hmod : a.ticks % 2 ^ w.shift < 2 ^ w.shift := Nat.mod_lt _ (Nat.two_pow_pos _)
    have hle : 2 ^ w.shift ≤ 2 ^ w.fromBits :=
      Nat.pow_le_pow_right (by decide) (Nat.le_of_lt w.shift_lt)
    change a.ticks - a.ticks / 2 ^ w.shift * 2 ^ w.shift < _
    omega
  have hback : (a.ticks % 2 ^ w.fromBits + 2 ^ w.fromBits - a.now w * 2 ^ w.shift % 2 ^ w.fromBits) %
      2 ^ w.fromBits = a.ticks - a.now w * 2 ^ w.shift :=
    WrappingClock.elapsed_of_lt hpast hround
  rw [startRemaining, get_mul_shift, Nat.mod_mul_mod, Nat.mod_eq_of_lt hdelay, startFrom, hback,
    Nat.sub_sub_self hpast, Nat.add_mul]

/-- The time that `set_alarm` finds to remain. -/
def left (w : Widths) (a : Alarm) : Nat :=
  a.mDt - WrappingClock.elapsed (2 ^ w.toBits) (get w a) a.mT0

/-- The results of `set_alarm`. -/
inductive Rearmed (w : Widths) (a : Alarm) : Alarm → Prop
  | near : left w a ≤ w.maxDelay → Rearmed w a
      { a with
        mT0 := (a.mT0 + a.mDt) % 2 ^ w.toBits, mDt := 0,
        alarmFrom := some ((a.now w + left w a) * 2 ^ w.shift),
        delays := left w a * 2 ^ w.shift :: a.delays }
  | half : w.maxDelay < left w a → Rearmed w a
      { a with
        mT0 := (a.now w + w.maxDelay) % 2 ^ w.toBits, mDt := left w a - w.maxDelay,
        alarmFrom := some ((a.now w + w.maxDelay) * 2 ^ w.shift),
        delays := w.maxDelay * 2 ^ w.shift :: a.delays }

theorem setAlarm_spec (ht0 : a.mT0 < 2 ^ w.toBits) (hdt : a.mDt < 2 ^ w.toBits) :
    Rearmed w a (setAlarm w a) := by
  have hget : get w a < 2 ^ w.toBits := Nat.mod_lt _ (Nat.two_pow_pos _)
  have hleft : remaining w.toBits (get w a) a.mT0 a.mDt = left w a := by
    rw [remaining_eq hget ht0 hdt, left]
    split
    · exact (Nat.sub_eq_zero_of_le ‹_›).symm
    · rfl
  rw [setAlarm, hleft]
  split
  · rename_i hhalf
    have hstart := startRemaining_eq w { a with
      mT0 := (a.now w + w.maxDelay) % 2 ^ w.toBits, mDt := left w a - w.maxDelay } (Nat.le_refl _)
    rw [get, Nat.mod_add_mod]
    exact hstart ▸ .half hhalf
  · rename_i hnear
    have hle := Nat.le_of_not_lt hnear
    have hstart := startRemaining_eq w { a with
      mT0 := (a.mT0 + a.mDt) % 2 ^ w.toBits, mDt := 0 } hle
    exact hstart ▸ .near hle

/-! ## The chain -/

/-- What leads a started alarm to its deadline. -/
inductive Chain (w : Widths) (a : Alarm) (deadline : Nat) : Prop
  /-- `AlarmFrom` is due at the deadline. -/
  | due (due : Nat) : a.mDt = 0 → a.alarmFrom = some due → deadline * 2 ^ w.shift ≤ due →
      Chain w a deadline
  /-- `AlarmFrom` is due on the way. -/
  | half (base due : Nat) : a.mDt ≠ 0 → a.mDt < 2 ^ w.toBits → base % 2 ^ w.toBits = a.mT0 →
      deadline ≤ base + a.mDt → a.alarmFrom = some due → base * 2 ^ w.shift ≤ due →
      Chain w a deadline

theorem Chain.isSome (h : Chain w a deadline) : a.alarmFrom.isSome = true := by
  cases h with
  | due _ _ hfrom _ => rw [hfrom]; rfl
  | half _ _ _ _ _ _ hfrom _ => rw [hfrom]; rfl

/-- The delays that `AlarmFrom` was started with are at most half its range. -/
def Short (w : Widths) (a : Alarm) : Prop := ∀ dt ∈ a.delays, dt ≤ 2 ^ (w.fromBits - 1)

/-- **`set_alarm`** begins a chain to the deadline, or goes on with it: what is left is less by
`MAX_DELAY`, or nothing. -/
theorem setAlarm_chain (hshort : Short w a) (ht0 : a.mT0 < 2 ^ w.toBits) (hdt : a.mDt < 2 ^ w.toBits)
    (hdeadline : deadline ≤ a.now w + left w a) :
    Chain w (setAlarm w a) deadline ∧ Short w (setAlarm w a) ∧
      ((setAlarm w a).mDt = 0 ∨ (setAlarm w a).mDt + w.maxDelay ≤ a.mDt) := by
  have hset := setAlarm_spec ht0 hdt
  generalize setAlarm w a = t at hset
  have hleft : left w a ≤ a.mDt := Nat.sub_le _ _
  cases hset with
  | near hle =>
    refine ⟨.due _ rfl rfl (Nat.mul_le_mul_right _ hdeadline), ?_, .inl rfl⟩
    refine List.forall_mem_cons.2 ⟨?_, hshort⟩
    rw [← maxDelay_mul]
    exact Nat.mul_le_mul_right _ hle
  | half hlt =>
    refine ⟨.half (a.now w + w.maxDelay) _ (Nat.sub_ne_zero_of_lt hlt) ?_ rfl ?_ rfl (Nat.le_refl _),
      List.forall_mem_cons.2 ⟨Nat.le_of_eq (maxDelay_mul w), hshort⟩, .inr ?_⟩
    · exact Nat.lt_of_le_of_lt (Nat.le_trans (Nat.sub_le _ _) hleft) hdt
    · change deadline ≤ a.now w + w.maxDelay + (left w a - w.maxDelay)
      omega
    · change left w a - w.maxDelay + w.maxDelay ≤ a.mDt
      omega

/-- **A hop**: the alarm fires at the deadline or later, or goes on with less to wait. -/
theorem Chain.hop (h : Chain w a deadline) (hshort : Short w a)
    (hdue : a.alarmFrom.any (fun due => due ≤ a.ticks) = true) :
    a.mDt = 0 ∧ deadline ≤ a.now w ∧ fromFired w a = (true, { a with alarmFrom := none }) ∨
    a.mDt ≠ 0 ∧ (fromFired w a).1 = false ∧ Chain w (fromFired w a).2 deadline ∧
      Short w (fromFired w a).2 ∧
      ((fromFired w a).2.mDt = 0 ∨ (fromFired w a).2.mDt + w.maxDelay ≤ a.mDt) := by
  cases h with
  | due due hdt hfrom hle =>
    rw [hfrom] at hdue
    have hpast : due ≤ a.ticks := of_decide_eq_true hdue
    refine .inl ⟨hdt, ?_, if_pos hdt⟩
    exact (Nat.le_div_iff_mul_le (Nat.two_pow_pos _)).2 (Nat.le_trans hle hpast)
  | half base due hdt hlt hbase hdeadline hfrom hle =>
    rw [hfrom] at hdue
    have hpast : due ≤ a.ticks := of_decide_eq_true hdue
    have hnow : base ≤ a.now w :=
      (Nat.le_div_iff_mul_le (Nat.two_pow_pos _)).2 (Nat.le_trans hle hpast)
    have hfired : fromFired w a = (false, setAlarm w { a with alarmFrom := none }) := if_neg hdt
    have helapsed : WrappingClock.elapsed (2 ^ w.toBits) (get w a) a.mT0 ≤ a.now w - base := by
      rw [← hbase, get, WrappingClock.elapsed_eq (Nat.two_pow_pos _) hnow]
      exact Nat.mod_le _ _
    rw [hfired]
    refine .inr ⟨hdt, rfl, setAlarm_chain (a := { a with alarmFrom := none }) hshort ?_ hlt ?_⟩
    · change a.mT0 < _
      rw [← hbase]
      exact Nat.mod_lt _ (Nat.two_pow_pos _)
    · change deadline ≤ a.now w +
        (a.mDt - WrappingClock.elapsed (2 ^ w.toBits) (get w a) a.mT0)
      omega

/-- A started alarm is on its way, and a stopped one does not fire. -/
structure Good (w : Widths) (s : State) : Prop where
  short : Short w s.impl
  stopped : s.deadline = none → s.impl.alarmFrom = none
  started : ∀ deadline, s.deadline = some deadline → Chain w s.impl deadline

/-- The alarm does not look at the time. -/
theorem Chain.elapse (h : Chain w a deadline) (ticks : Nat) :
    Chain w { a with ticks := a.ticks + ticks } deadline := by
  cases h with
  | due due h₁ h₂ h₃ => exact .due due h₁ h₂ h₃
  | half base due h₁ h₂ h₃ h₄ h₅ h₆ => exact .half base due h₁ h₂ h₃ h₄ h₅ h₆

theorem startAt_chain (h : Short w a) {t0 dt : Nat} (ht0 : t0 < 2 ^ w.toBits) (hdt : dt < 2 ^ w.toBits) :
    Chain w (startAt w a t0 dt) (deadlineAt w a t0 dt) ∧ Short w (startAt w a t0 dt) ∧
      ((startAt w a t0 dt).mDt = 0 ∨ (startAt w a t0 dt).mDt + w.maxDelay ≤ dt) := by
  refine setAlarm_chain (a := { a with mT0 := t0, mDt := dt }) h ht0 hdt ?_
  change a.now w + dt - WrappingClock.elapsed (2 ^ w.toBits) (get w a) t0 ≤
    a.now w + (dt - WrappingClock.elapsed (2 ^ w.toBits) (get w a) t0)
  omega

theorem Good.step {e : Event} (h : Good w s) (hs : (machine w).step s e = some s') : Good w s' := by
  cases e with
  | elapse ticks =>
    cases hs
    exact ⟨h.short, h.stopped, fun d hd => (h.started d hd).elapse ticks⟩
  | fromFired =>
    obtain ⟨hdue, hs⟩ := Option.ite_none_right_eq_some.1 hs
    cases hs
    cases hd : s.deadline with
    | none =>
      rw [h.stopped hd] at hdue
      cases hdue
    | some deadline =>
      rcases (h.started deadline hd).hop h.short hdue with ⟨-, -, hfired⟩ | ⟨-, hret, hchain, hshort, -⟩
      · rw [hfired]
        exact ⟨h.short, fun _ => rfl, nofun⟩
      · refine ⟨hshort, fun hnone => ?_, fun d hd => ?_⟩ <;> rw [hret] at *
        · cases hnone
        · cases hd
          exact hchain
  | startAt t0 dt =>
    obtain ⟨⟨ht0, hdt⟩, hs⟩ := Option.ite_none_right_eq_some.1 hs
    cases hs
    obtain ⟨hchain, hshort, -⟩ := startAt_chain h.short ht0 hdt
    exact ⟨hshort, nofun, fun d hd => by cases hd; exact hchain⟩
  | stop =>
    cases hs
    exact ⟨h.short, fun _ => rfl, nofun⟩

theorem reachable_good (h : (machine w).Reachable s) : Good w s := by
  refine h.inv ⟨fun s hi => ?_, fun _ _ _ h hs => h.step hs⟩
  rw [show s = _ from hi]
  exact ⟨nofun, fun _ => rfl, nofun⟩

/-- What is left of `dt` after `hops` hops, each of `MAX_DELAY`. -/
def Paid (w : Widths) (a : Alarm) (dt hops : Nat) : Prop :=
  a.mDt = 0 ∧ hops * w.maxDelay ≤ dt ∨ (hops + 1) * w.maxDelay + a.mDt ≤ dt

theorem Paid.le {dt hops : Nat} (h : Paid w a dt hops) : hops ≤ dt / w.maxDelay := by
  have hpos : 0 < w.maxDelay := Nat.two_pow_pos _
  rw [Nat.le_div_iff_mul_le hpos]
  rcases h with ⟨-, hle⟩ | hle
  · exact hle
  · rw [Nat.succ_mul] at hle
    omega

/-- A hop pays for itself. -/
theorem Paid.hop {a' : Alarm} {dt hops : Nat} (h : Paid w a dt hops) (hdt : a.mDt ≠ 0)
    (hnext : a'.mDt = 0 ∨ a'.mDt + w.maxDelay ≤ a.mDt) : Paid w a' dt (hops + 1) := by
  rcases h with ⟨hzero, -⟩ | hle
  · exact absurd hzero hdt
  · rcases hnext with hzero | hless
    · exact .inl ⟨hzero, by omega⟩
    · rw [Nat.succ_mul] at hle
      refine .inr ?_
      rw [Nat.succ_mul, Nat.succ_mul]
      omega

/-- The alarm has not fired yet, and is on its way; or it has fired once, and is stopped. -/
inductive Progress (w : Widths) (deadline dt fires hops : Nat) (s : State) : Prop
  | waits : fires = 0 → s.deadline = some deadline → Paid w s.impl dt hops →
      Progress w deadline dt fires hops s
  | fired : fires = 1 → s.deadline = none → hops ≤ dt / w.maxDelay + 1 →
      Progress w deadline dt fires hops s

theorem progress_of_run {h₁ h₂ : List (State × Event)} {s₀ : State} {t0 dt : Nat}
    (hr : (machine w).Run (h₂ ++ (s₀, .startAt t0 dt) :: h₁) s)
    (hsource : ∀ p ∈ h₂, p.2.ofSource = true) :
    Progress w (deadlineAt w s₀.impl t0 dt) dt (h₂.countP (Fires w)) (h₂.countP Hop) s ∧
      ∀ p ∈ h₂, Fires w p = true → deadlineAt w s₀.impl t0 dt ≤ p.1.impl.now w := by
  induction h₂ generalizing s with
  | nil =>
    cases hr with
    | step hr hs =>
      obtain ⟨⟨ht0, hdt⟩, hs⟩ := Option.ite_none_right_eq_some.1 hs
      cases hs
      obtain ⟨-, -, hpaid⟩ := startAt_chain (reachable_good ⟨_, hr⟩).short ht0 hdt
      refine ⟨.waits rfl rfl (hpaid.imp (fun hzero => ⟨hzero, by simp⟩) fun hle => ?_), nofun⟩
      rw [List.countP_nil, Nat.zero_add, Nat.one_mul, Nat.add_comm]
      exact hle
  | cons p h₂ ih =>
    obtain ⟨hp, hrest⟩ := List.forall_mem_cons.1 hsource
    cases hr with
    | @step _ s' _ e hr hs =>
      obtain ⟨hprog, htimely⟩ := ih hr hrest
      have hgood := reachable_good ⟨_, hr⟩
      rw [List.countP_cons, List.countP_cons]
      cases e with
      | startAt t0 dt => cases hp
      | stop => cases hp
      | elapse ticks =>
        cases hs
        refine ⟨?_, List.forall_mem_cons.2 ⟨nofun, htimely⟩⟩
        cases hprog with
        | waits h0 hd hpaid => exact .waits h0 hd hpaid
        | fired h1 hd hle => exact .fired h1 hd hle
      | fromFired =>
        obtain ⟨hdue, hs⟩ := Option.ite_none_right_eq_some.1 hs
        cases hs
        have hhop : Hop (s', .fromFired) = true := rfl
        have hfires : Fires w (s', .fromFired) = (fromFired w s'.impl).1 := rfl
        rw [hhop, hfires]
        cases hprog with
        | fired h1 hd hle =>
          rw [hgood.stopped hd] at hdue
          cases hdue
        | waits h0 hd hpaid =>
          rw [h0]
          rcases (hgood.started _ hd).hop hgood.short hdue with ⟨-, hle, hfired⟩ | ⟨hdt, hret, -, -, hless⟩
          · rw [hfired]
            exact ⟨.fired rfl rfl (Nat.succ_le_succ hpaid.le),
              List.forall_mem_cons.2 ⟨fun _ => hle, htimely⟩⟩
          · rw [hret]
            refine ⟨.waits rfl hd (hpaid.hop hdt hless), List.forall_mem_cons.2 ⟨fun hf => ?_, htimely⟩⟩
            rw [hfires, hret] at hf
            cases hf

/-- **`TransformAlarmC` fires once and on time**: the wrapped comparisons are the modular test, the same as
`TransformAlarmCounterC`'s; no delay is longer than half the source range; and after `startAt` every
sequence of firings of `AlarmFrom` ends, with one `Alarm.fired` and not before the deadline: until then
`AlarmFrom` is running, it fires `dt / MAX_DELAY` times at most before that, and is stopped then. -/
theorem fires_once (w : Widths) :
    (∀ now t0 dt : Nat, now < 2 ^ w.toBits → t0 < 2 ^ w.toBits → dt < 2 ^ w.toBits →
      remaining w.toBits now t0 dt =
        let elapsed := (now + 2 ^ w.toBits - t0) % 2 ^ w.toBits
        if elapsed ≥ dt then 0 else dt - elapsed) ∧
    (∀ (v : TransformAlarmCounterC.Widths) (a : TransformAlarmCounterC.Alarm),
      a.mT0 < 2 ^ v.toBits → a.mDt < 2 ^ v.toBits → TransformAlarmCounterC.setAlarm v a =
        counterRearm v a (remaining v.toBits (TransformAlarmCounterC.get v a) a.mT0 a.mDt)) ∧
    (∀ s, (machine w).Reachable s → ∀ dt ∈ s.impl.delays, dt ≤ 2 ^ (w.fromBits - 1)) ∧
    ∀ h₁ h₂ s₀ s t0 dt, (machine w).Run (h₂ ++ (s₀, .startAt t0 dt) :: h₁) s →
      (∀ p ∈ h₂, p.2.ofSource = true) →
      (h₂.countP (Fires w) = 0 ∧ s.impl.alarmFrom.isSome = true ∧ h₂.countP Hop ≤ dt / w.maxDelay ∨
        h₂.countP (Fires w) = 1 ∧ s.impl.alarmFrom = none) ∧
      ∀ p ∈ h₂, Fires w p = true → deadlineAt w s₀.impl t0 dt ≤ p.1.impl.now w := by
  refine ⟨fun now t0 dt => remaining_eq, fun v a => counter_setAlarm, fun s h => (reachable_good h).short,
    fun h₁ h₂ s₀ s t0 dt hr hsource => ?_⟩
  obtain ⟨hprog, htimely⟩ := progress_of_run hr hsource
  have hgood := reachable_good ⟨_, hr⟩
  refine ⟨?_, htimely⟩
  cases hprog with
  | waits h0 hd hpaid => exact .inl ⟨h0, (hgood.started _ hd).isSome, hpaid.le⟩
  | fired h1 hd _ => exact .inr ⟨h1, hgood.stopped hd⟩

/-- A counter of 8 bits over one of 4, a bit slower. -/
def smallWidths : Widths := ⟨4, 8, 1, by decide, by decide⟩

/-- Six ticks are waited for in two hops. -/
theorem fires_once_small : ∃ h₂ s₀ s, (machine smallWidths).Run (h₂ ++ [(s₀, .startAt 0 6)]) s ∧
    h₂.countP Hop = 2 ∧ s.impl.alarmFrom = none ∧
    ∀ p ∈ h₂, Fires smallWidths p = true → 6 ≤ p.1.impl.now smallWidths := by
  obtain ⟨h, s, hr, hs⟩ := Machine.exists_run_of_exec (M := machine smallWidths) rfl
    [.startAt 0 6, .elapse 8, .fromFired, .elapse 4, .fromFired]
    (fun h s => h.getLast?.any (fun p => p.2 = .startAt 0 6 && deadlineAt smallWidths p.1.impl 0 6 = 6) &&
      h.dropLast.all (·.2.ofSource) && h.dropLast.countP Hop = 2 && s.impl.alarmFrom = none) (by decide)
  simp only [Bool.and_eq_true, Option.any_eq_true, decide_eq_true_eq, List.all_eq_true] at hs
  obtain ⟨⟨⟨⟨⟨s₀, e⟩, hlast, rfl, hdeadline⟩, hsource⟩, hhops⟩, hstopped⟩ := hs
  obtain ⟨h₂, rfl⟩ := List.getLast?_eq_some_iff.1 hlast
  rw [List.dropLast_concat] at hsource hhops
  have htimely := ((fires_once smallWidths).2.2.2 [] h₂ s₀ s 0 6 hr hsource).2
  rw [hdeadline] at htimely
  exact ⟨h₂, s₀, s, hr, hhops, hstopped, htimely⟩

end TransformAlarmC
