import Backip.Lib.WrappingClock
import Backip.Timer.Proof.Trickle
import Mathlib.Data.Finset.Card
import Mathlib.Data.Fintype.Basic

/-!
# Trickle timers in time

`Timed` is the module with its task and the clock. A call is made at one time, `adjustTimer` reads
the clock at another and starts the `Timer` at a third (`Instants`). The `Timer` fires at any time
from the one at which it is due. A run ends where a remainder by zero is taken.

Beside the state it keeps what the trickles are for: which were started and not stopped since, until
when each has to wait, and how often each has expired with a count below `k` and was signalled.

Two things come between an expiry and its signal. A trickle may be stopped, and one may expire again
before the task has come to it: both leave its bit of `Pending` as it is (`Careful`, `works_iff`).
-/

set_option autoImplicit false

namespace TrickleTimerImplP

/-- When a call is made, `adjustTimer` reads the clock, and the `Timer` is started. -/
structure Instants where
  called : Nat
  read : Nat
  started : Nat
deriving DecidableEq, Repr

def Instants.Ordered (t : Instants) (time : Nat) : Prop :=
  time ≤ t.called ∧ t.called ≤ t.read ∧ t.read ≤ t.started

instance (t : Instants) (time : Nat) : Decidable (t.Ordered time) :=
  inferInstanceAs (Decidable (_ ∧ _))

structure Timed (cfg : Config) where
  impl : State cfg
  /-- `timerTask` is posted. -/
  posted : Bool
  time : Nat
  /-- `Timer.gett0` -/
  t0 : Nat
  /-- The trickles that were started and not stopped since. -/
  started : cfg.Id → Bool
  /-- When the time is up that the trickle was given. -/
  deadline : cfg.Id → Nat
  /-- How often the trickle expired with a count below `k`, and was signalled. -/
  expiries : cfg.Id → Nat
  signals : cfg.Id → Nat

namespace Timed

variable {cfg : Config} (s : Timed cfg)

/-- `Timer.getNow() - Timer.gett0()` -/
def elapsed (read : Nat) : UInt32 := .ofNat read - .ofNat s.t0

/-- When the `Timer` is due. -/
def due : Option Nat := s.impl.timer.map fun dt => s.t0 + dt.toNat

/-- When what remains of trickle `i`'s time is up. -/
def up (i : cfg.Id) : Nat := s.t0 + (s.impl.trickles i).time.toNat

/-- A call that comes to `adjustTimer`, with what it leaves of the module, and the trickles to which
it gives a new time. -/
def adjust (t : Instants) (impl : State cfg) (renewed : cfg.Id → Bool) : Timed cfg :=
  { s with
    impl := impl
    time := t.started
    t0 := if impl.timer.isSome then t.started else s.t0
    deadline := fun i =>
      if renewed i then t.called + (impl.trickles i).time.toNat else s.deadline i }

/-- `TrickleTimer.start[i]()` -/
def start (i : cfg.Id) (rand : UInt16) (t : Instants) : Timed cfg :=
  let impl := s.impl.start i rand (s.elapsed t.read)
  if (s.impl.trickles i).time ≠ 0 then { s with impl := impl, time := t.started }
  else
    { s.adjust t impl (fun j => decide (j = i)) with
      started := Function.update s.started i true }

/-- `TrickleTimer.stop[i]()` -/
def stop (i : cfg.Id) (t : Instants) : Timed cfg :=
  { s.adjust t (s.impl.stop i (s.elapsed t.read)) (fun _ => false) with
    started := Function.update s.started i false }

/-- `TrickleTimer.reset[i]()` -/
def reset (i : cfg.Id) (rand : UInt16) (t : Instants) : Timed cfg :=
  let impl := s.impl.reset i rand (s.elapsed t.read)
  if (s.impl.trickles i).time ≠ 0 then s.adjust t impl (fun j => decide (j = i))
  else { s with impl := impl, time := t.started }

/-- `TrickleTimer.incrementCounter[i]()` -/
def incrementCounter (i : cfg.Id) : Timed cfg := { s with impl := s.impl.incrementCounter i }

/-- Trickle `i` expires when the `Timer` fires, and is to be signalled. -/
def Expires (i : cfg.Id) : Prop := s.impl.Ends i ∧ (s.impl.trickles i).count < cfg.k

instance (i : cfg.Id) : Decidable (s.Expires i) := inferInstanceAs (Decidable (_ ∧ _))

/-- `Timer.fired` -/
def fired (rand : cfg.Id → UInt16) (t : Instants) : Timed cfg :=
  { s.adjust t (s.impl.fired rand (s.elapsed t.read)) (fun i => decide (s.impl.Ends i)) with
    posted := s.posted || decide (∃ i, s.Expires i)
    expiries := fun i => s.expiries i + if s.Expires i then 1 else 0 }

/-- The trickle that `timerTask` signals. -/
def served : Option cfg.Id := (List.finRange _).find? s.impl.pending

/-- `timerTask` -/
def timerTask : Timed cfg :=
  { s with
    impl := s.impl.timerTask
    posted := s.served.isSome
    signals := fun i => s.signals i + if s.served = some i then 1 else 0 }

/-! ## Runs -/

inductive Event (cfg : Config)
  | start (i : cfg.Id) (rand : UInt16) (t : Instants)
  | stop (i : cfg.Id) (t : Instants)
  | reset (i : cfg.Id) (rand : UInt16) (t : Instants)
  | incrementCounter (i : cfg.Id)
  | fired (rand : cfg.Id → UInt16) (t : Instants)
  | timerTask

/-- The state after a call that takes no remainder by zero. -/
def defined : Option (Timed cfg) := if s.impl.fault then none else some s

def step : Event cfg → Option (Timed cfg)
  | .start i rand t => if t.Ordered s.time then (s.start i rand t).defined else none
  | .stop i t => if t.Ordered s.time then (s.stop i t).defined else none
  | .reset i rand t => if t.Ordered s.time then (s.reset i rand t).defined else none
  | .incrementCounter i => some (s.incrementCounter i)
  | .fired rand t =>
    if t.Ordered s.time ∧ s.due.any (fun due => due ≤ t.called) = true then (s.fired rand t).defined
    else none
  | .timerTask => if s.posted then some s.timerTask else none

/-- The state after `Init.init`. -/
def init (cfg : Config) (time : Nat) : Timed cfg where
  impl := State.init cfg
  posted := false
  time := time
  t0 := 0
  started _ := false
  deadline _ := 0
  expiries _ := 0
  signals _ := 0

def machine (cfg : Config) : Machine (Timed cfg) (Event cfg) where
  init s := ∃ time, s = init cfg time
  step := step

/-- Each expiry with a count below `k` was signalled once, or is pending. -/
def Balanced (s : Timed cfg) : Prop := ∀ i, s.expiries i = s.signals i + (s.impl.pending i).toNat

/-- The step does what the trickles are for. -/
structure Works (s : Timed cfg) (e : Event cfg) : Prop where
  /-- The `Timer` is due no later than any trickle. -/
  due : ∀ i, (s.impl.trickles i).time ≠ 0 → ∃ due, s.due = some due ∧ due ≤ s.up i
  /-- A trickle expires when its time is up. -/
  expires : ∀ rand t, e = .fired rand t → ∀ i, s.impl.Ends i → s.deadline i ≤ t.called
  yields : ∀ s', s.step e = some s' → s'.Balanced
  /-- No trickle is signalled that is stopped. -/
  signals : e = .timerTask → ∀ i, s.served = some i → s.started i = true

/-- No trickle expires, with a count below `k`, that is pending, and the task comes to none whose
time is zero. -/
def Careful (s : Timed cfg) : Event cfg → Prop
  | .fired _ _ => ∀ i, s.Expires i → s.impl.pending i = false
  | .timerTask => ∀ i, s.served = some i → (s.impl.trickles i).time ≠ 0
  | _ => True

instance (s : Timed cfg) (e : Event cfg) : Decidable (Careful s e) :=
  match e with
  | .fired _ _ => inferInstanceAs (Decidable (∀ i, s.Expires i → s.impl.pending i = false))
  | .timerTask =>
    inferInstanceAs (Decidable (∀ i, s.served = some i → (s.impl.trickles i).time ≠ 0))
  | .start .. | .stop .. | .reset .. | .incrementCounter .. => inferInstanceAs (Decidable True)

end Timed

/-! ## The `Timer` and the remaining times -/

namespace State

variable {cfg : Config} {i : cfg.Id}

theorem lower_of_some (lowest timeRemaining : UInt32) :
    ∃ r, lower (some lowest) timeRemaining = some r ∧ r ≤ lowest := by
  unfold lower
  by_cases h0 : timeRemaining = 0
  · rw [if_pos h0]
    exact ⟨lowest, rfl, UInt32.le_refl _⟩
  · rw [if_neg h0]
    by_cases hlt : timeRemaining < lowest
    · exact ⟨timeRemaining, congrArg some (if_pos hlt), UInt32.le_of_lt hlt⟩
    · exact ⟨lowest, congrArg some (if_neg hlt), UInt32.le_refl _⟩

theorem lower_of_running (lowest : Option UInt32) {timeRemaining : UInt32}
    (h0 : timeRemaining ≠ 0) :
    ∃ r, lower lowest timeRemaining = some r ∧ r ≤ timeRemaining := by
  unfold lower
  rw [if_neg h0]
  cases lowest with
  | none => exact ⟨timeRemaining, rfl, UInt32.le_refl _⟩
  | some lowest =>
    by_cases hlt : timeRemaining < lowest
    · exact ⟨timeRemaining, congrArg some (if_pos hlt), UInt32.le_refl _⟩
    · exact ⟨lowest, congrArg some (if_neg hlt), UInt32.not_lt.1 hlt⟩

theorem foldl_lower_of_some {f : cfg.Id → Trickle} (l : List cfg.Id) (lowest : UInt32) :
    ∃ r, l.foldl (fun lowest i => lower lowest (f i).time) (some lowest) = some r ∧ r ≤ lowest := by
  induction l generalizing lowest with
  | nil => exact ⟨lowest, rfl, UInt32.le_refl _⟩
  | cons j l ih =>
    obtain ⟨r, hr, hle⟩ := lower_of_some lowest (f j).time
    obtain ⟨r', hr', hle'⟩ := ih r
    exact ⟨r', by rw [List.foldl_cons, hr, hr'], UInt32.le_trans hle' hle⟩

theorem foldl_lower_of_mem {f : cfg.Id → Trickle} (hi : (f i).time ≠ 0) {l : List cfg.Id}
    (hl : i ∈ l) (acc : Option UInt32) :
    ∃ r, l.foldl (fun lowest i => lower lowest (f i).time) acc = some r ∧ r ≤ (f i).time := by
  induction l generalizing acc with
  | nil => cases hl
  | cons j l ih =>
    rw [List.foldl_cons]
    rcases List.mem_cons.1 hl with rfl | hl
    · obtain ⟨r, hr, hle⟩ := lower_of_running acc hi
      obtain ⟨r', hr', hle'⟩ := foldl_lower_of_some l r
      exact ⟨r', by rw [hr, hr'], UInt32.le_trans hle' hle⟩
    · exact ih hl _

/-- The least time is that of no running trickle beyond its own. -/
theorem lowest_le {f : cfg.Id → Trickle} (hi : (f i).time ≠ 0) :
    ∃ r, lowest f = some r ∧ r ≤ (f i).time :=
  foldl_lower_of_mem hi (List.mem_finRange i) none

variable {elapsed : UInt32} {t : Trickle}

theorem adjusted_time_ne {c : Bool} : (adjusted elapsed c t).time ≠ 0 ↔ t.time ≠ 0 := by
  unfold adjusted
  by_cases h0 : t.time = 0
  · rw [if_pos h0]
  · rw [if_neg h0]
    refine iff_of_true ?_ h0
    by_cases hc : (!c) = true
    · rw [if_pos hc]
      by_cases hlt : t.time > elapsed
      · rw [if_pos hlt]
        intro hzero
        have hsub := congrArg UInt32.toNat hzero
        have hlt' := UInt32.lt_iff_toNat_lt.1 hlt
        rw [UInt32.toNat_sub_of_le _ _ (UInt32.le_of_lt hlt), UInt32.toNat_zero] at hsub
        omega
      · rw [if_neg hlt]
        exact (by decide : (1 : UInt32) ≠ 0)
    · rw [if_neg hc]
      exact h0

/-- What remains is up no earlier, however much less than the real time `elapsed` is. -/
theorem adjusted_up {t0 started deadline : Nat} (h0 : t.time ≠ 0)
    (h : deadline ≤ t0 + t.time.toNat) (hclock : t0 ≤ started)
    (helapsed : elapsed.toNat ≤ started - t0) :
    deadline ≤ started + (adjusted elapsed false t).time.toNat := by
  unfold adjusted
  rw [if_neg h0, if_pos Bool.not_false]
  by_cases hlt : t.time > elapsed
  · rw [if_pos hlt, UInt32.toNat_sub_of_le _ _ (UInt32.le_of_lt hlt)]
    omega
  · have hle := UInt32.le_iff_toNat_le.1 (UInt32.not_lt.1 hlt)
    rw [if_neg hlt]
    omega

end State

theorem Trickle.generated {cfg : Config} {t t' : Trickle} {rand : UInt16}
    (h : t.generateTime cfg rand = some t') (hrem : t.remainder.toNat ≤ 2 ^ 25) :
    t'.time ≠ 0 ∧ t'.remainder.toNat ≤ 2 ^ 25 := by
  have hbegins := generateTime_spec h hrem
  refine ⟨hbegins.time_ne ?_, hbegins.remainder_le⟩
  have hne := generateTime_isSome.1 (Option.isSome_of_eq_some h)
  have hle := shifted_le cfg (t.doubled cfg)
  rw [generateTime_period h]
  omega

namespace Timed

variable {cfg : Config} {s s' : Timed cfg} {t : Instants} {i : cfg.Id}

/-- Between two calls: the `Timer` is due no later than any trickle, and what remains to a trickle
is up no earlier than its time. -/
structure Timers (s : Timed cfg) : Prop where
  fault : s.impl.fault = false
  changed : ∀ i, s.impl.changed i = false
  remainder : ∀ i, (s.impl.trickles i).remainder.toNat ≤ 2 ^ 25
  clock : s.t0 ≤ s.time
  due : ∀ i, (s.impl.trickles i).time ≠ 0 →
    ∃ dt, s.impl.timer = some dt ∧ dt ≤ (s.impl.trickles i).time
  up : ∀ i, (s.impl.trickles i).time ≠ 0 → s.deadline i ≤ s.up i

theorem Timers.adjust (h : Timers s) (ht : t.Ordered s.time) {base : State cfg}
    {renewed : cfg.Id → Bool} (hfault : base.fault = false)
    (hrem : ∀ i, (base.trickles i).remainder.toNat ≤ 2 ^ 25)
    (hnew : ∀ i, renewed i = true → base.changed i = true ∧ (base.trickles i).time ≠ 0)
    (hold : ∀ i, renewed i = false → base.changed i = false ∧
      ((base.trickles i).time ≠ 0 → (base.trickles i).time = (s.impl.trickles i).time)) :
    Timers (s.adjust t (State.adjustTimer (s.elapsed t.read) base) renewed) := by
  obtain ⟨htime, hread, hstarted⟩ := ht
  have hclock := h.clock
  have hdue : ∀ i, (State.adjusted (s.elapsed t.read) (base.changed i) (base.trickles i)).time ≠ 0 →
      ∃ dt, (State.adjustTimer (s.elapsed t.read) base).timer = some dt ∧
        dt ≤ (State.adjusted (s.elapsed t.read) (base.changed i) (base.trickles i)).time :=
    fun i hi => State.lowest_le hi
  refine ⟨hfault, ?_, ?_, ?_, hdue, ?_⟩
  · intro i
    change (if (base.trickles i).time = 0 then base.changed i else false) = false
    by_cases h0 : (base.trickles i).time = 0
    · rw [if_pos h0]
      exact (hold i (eq_false_of_ne_true fun hr => (hnew i hr).2 h0)).1
    · rw [if_neg h0]
  · intro i
    change ((State.adjustTimer (s.elapsed t.read) base).trickles i).remainder.toNat ≤ 2 ^ 25
    rw [State.adjustTimer_remainder]
    exact hrem i
  · dsimp only [Timed.adjust]
    split <;> omega
  · intro i hi
    obtain ⟨dt, hdt, _⟩ := hdue i hi
    have hstart : (s.adjust t (State.adjustTimer (s.elapsed t.read) base) renewed).t0 = t.started :=
      if_pos (Option.isSome_of_eq_some hdt)
    rw [Timed.up, hstart]
    have h0 := State.adjusted_time_ne.1 hi
    change (if renewed i then _ else s.deadline i) ≤ _
    cases hr : renewed i with
    | true =>
      rw [if_pos rfl]
      exact Nat.add_le_add_right (Nat.le_trans hread hstarted) _
    | false =>
      obtain ⟨hchanged, hsame⟩ := hold i hr
      have hup := h.up i (hsame h0 ▸ h0)
      rw [Timed.up, ← hsame h0] at hup
      have helapsed := WrappingClock.toNat_sub_le (Nat.le_trans hclock (Nat.le_trans htime hread))
      rw [if_neg Bool.false_ne_true]
      change s.deadline i ≤ t.started +
        (State.adjusted (s.elapsed t.read) (base.changed i) (base.trickles i)).time.toNat
      rw [hchanged]
      refine State.adjusted_up h0 hup (by omega) (Nat.le_trans helapsed ?_)
      omega

/-- The `Timer` and the times have nothing to do with the task and with what it signals. -/
theorem Timers.frame (h : Timers s) (pending : cfg.Id → Bool) (posted : Bool)
    (started : cfg.Id → Bool) (expiries signals : cfg.Id → Nat) :
    Timers
      { s with
        impl := { s.impl with pending := pending }
        posted := posted
        started := started
        expiries := expiries
        signals := signals } :=
  ⟨h.fault, h.changed, h.remainder, h.clock, h.due, h.up⟩

theorem Timers.later (h : Timers s) (ht : t.Ordered s.time) :
    Timers { s with time := t.started } where
  fault := h.fault
  changed := h.changed
  remainder := h.remainder
  clock := Nat.le_trans h.clock (Nat.le_trans ht.1 (Nat.le_trans ht.2.1 ht.2.2))
  due := h.due
  up := h.up

/-- A trickle is changed whose times are not. -/
theorem Timers.update (h : Timers s) (i : cfg.Id) (tr : Trickle)
    (htime : tr.time = (s.impl.trickles i).time)
    (hrem : tr.remainder = (s.impl.trickles i).remainder) :
    Timers { s with impl := { s.impl with trickles := Function.update s.impl.trickles i tr } } := by
  have hsame : ∀ j, (Function.update s.impl.trickles i tr j).time = (s.impl.trickles j).time := by
    intro j
    by_cases hj : j = i
    · subst hj
      rw [Function.update_self, htime]
    · rw [Function.update_of_ne hj]
  refine ⟨h.fault, h.changed, fun j => ?_, h.clock, fun j hj => ?_, fun j hj => ?_⟩
  · exact (State.update_remainder hrem).symm ▸ h.remainder j
  · have hdue := h.due j (hsame j ▸ hj)
    rwa [← hsame j] at hdue
  · have hup := h.up j (hsame j ▸ hj)
    rwa [Timed.up, ← hsame j] at hup

/-- A trickle is given a new time. -/
theorem Timers.generate (h : Timers s) (ht : t.Ordered s.time) {tr : Trickle} {rand : UInt16}
    (hrem : tr.remainder.toNat ≤ 2 ^ 25)
    (hfault : (s.impl.generate cfg i tr rand (s.elapsed t.read)).fault = false) :
    Timers (s.adjust t (s.impl.generate cfg i tr rand (s.elapsed t.read))
        (fun j => decide (j = i))) ∧
      ∀ j, ((s.impl.generate cfg i tr rand (s.elapsed t.read)).trickles j).time ≠ 0 ↔
        j = i ∨ (s.impl.trickles j).time ≠ 0 := by
  unfold State.generate at hfault ⊢
  cases hgen : tr.generateTime cfg rand with
  | none =>
    rw [hgen] at hfault
    cases hfault
  | some tr' =>
    obtain ⟨hne, hrem'⟩ := Trickle.generated hgen hrem
    refine ⟨h.adjust ht h.fault (fun j => ?_) (fun j hj => ?_) (fun j hj => ?_), fun j => ?_⟩
    · dsimp only
      by_cases hj : j = i
      · subst hj
        rwa [Function.update_self]
      · rw [Function.update_of_ne hj]
        exact h.remainder j
    · obtain rfl := of_decide_eq_true hj
      dsimp only
      rw [Function.update_self, Function.update_self]
      exact ⟨rfl, hne⟩
    · have hj := of_decide_eq_false hj
      dsimp only
      rw [Function.update_of_ne hj, Function.update_of_ne hj]
      exact ⟨h.changed j, fun _ => rfl⟩
    · refine State.adjusted_time_ne.trans ?_
      dsimp only
      by_cases hj : j = i
      · subst hj
        rw [Function.update_self]
        exact iff_of_true hne (.inl rfl)
      · rw [Function.update_of_ne hj, or_iff_right hj]

theorem generate_pending (s : State cfg) (tr : Trickle) (rand : UInt16) (elapsed : UInt32) :
    (s.generate cfg i tr rand elapsed).pending = s.pending := by
  unfold State.generate
  cases tr.generateTime cfg rand with
  | none => rfl
  | some tr' => rfl

/-! ## What every step keeps -/

/-- The trickles whose time is not zero are those started, and the task is posted for those
pending. -/
structure Inv (s : Timed cfg) : Prop extends Timers s where
  started : ∀ i, s.started i = true ↔ (s.impl.trickles i).time ≠ 0
  posted : ∀ i, s.impl.pending i = true → s.posted = true

namespace Inv

theorem start {rand : UInt16} (h : Inv s) (ht : t.Ordered s.time)
    (hfault : (s.start i rand t).impl.fault = false) : Inv (s.start i rand t) := by
  unfold Timed.start at hfault ⊢
  dsimp only at hfault ⊢
  by_cases hrun : (s.impl.trickles i).time ≠ 0
  · have himpl : s.impl.start i rand (s.elapsed t.read) = s.impl := if_pos hrun
    rw [if_pos hrun, himpl]
    exact ⟨h.toTimers.later ht, h.started, h.posted⟩
  · have himpl : s.impl.start i rand (s.elapsed t.read) = _ := if_neg hrun
    rw [if_neg hrun, himpl] at hfault ⊢
    obtain ⟨htimers, hrunning⟩ := h.toTimers.generate ht (Nat.zero_le _) hfault
    refine ⟨htimers.frame _ _ _ _ _, fun j => ?_, fun j hj => ?_⟩
    · refine Iff.trans ?_ (hrunning j).symm
      dsimp only
      by_cases hj : j = i
      · subst hj
        rw [Function.update_self]
        exact iff_of_true rfl (.inl rfl)
      · rw [Function.update_of_ne hj, or_iff_right hj]
        exact h.started j
    · dsimp only [Timed.adjust] at hj
      rw [generate_pending] at hj
      exact h.posted j hj

theorem stop (h : Inv s) (ht : t.Ordered s.time) : Inv (s.stop i t) := by
  have htimers : Timers (s.adjust t (s.impl.stop i (s.elapsed t.read)) fun _ => false) := by
    refine h.toTimers.adjust ht h.fault (fun j => ?_) (fun j hj => by cases hj) (fun j _ => ?_)
    · dsimp only
      rw [State.update_remainder]
      · exact h.remainder j
      · rfl
    · refine ⟨h.changed j, fun hj => ?_⟩
      dsimp only at hj ⊢
      by_cases hji : j = i
      · subst hji
        rw [Function.update_self] at hj
        exact absurd rfl hj
      · rw [Function.update_of_ne hji]
  refine ⟨htimers.frame _ _ _ _ _, fun j => ?_, h.posted⟩
  refine Iff.trans ?_ State.adjusted_time_ne.symm
  dsimp only [Timed.stop]
  by_cases hj : j = i
  · subst hj
    rw [Function.update_self, Function.update_self]
    exact iff_of_false Bool.false_ne_true fun hne => hne rfl
  · rw [Function.update_of_ne hj, Function.update_of_ne hj]
    exact h.started j

theorem reset {rand : UInt16} (h : Inv s) (ht : t.Ordered s.time)
    (hfault : (s.reset i rand t).impl.fault = false) : Inv (s.reset i rand t) := by
  unfold Timed.reset at hfault ⊢
  dsimp only at hfault ⊢
  by_cases hrun : (s.impl.trickles i).time ≠ 0
  · have himpl : s.impl.reset i rand (s.elapsed t.read) = _ := if_pos hrun
    rw [if_pos hrun, himpl] at hfault ⊢
    obtain ⟨htimers, hrunning⟩ := h.toTimers.generate ht (Nat.zero_le _) hfault
    refine ⟨htimers, fun j => ?_, fun j hj => ?_⟩
    · refine Iff.trans ?_ (hrunning j).symm
      by_cases hj : j = i
      · subst hj
        exact iff_of_true ((h.started j).2 hrun) (.inl rfl)
      · rw [or_iff_right hj]
        exact h.started j
    · dsimp only [Timed.adjust] at hj
      rw [generate_pending] at hj
      exact h.posted j hj
  · have himpl : s.impl.reset i rand (s.elapsed t.read) = _ := if_neg hrun
    rw [if_neg hrun, himpl]
    have htimers :=
      h.toTimers.update i { s.impl.trickles i with period := cfg.low, count := 0 } rfl rfl
    refine ⟨htimers.later ht, fun j => ?_, h.posted⟩
    dsimp only
    by_cases hj : j = i
    · subst hj
      rw [Function.update_self]
      exact h.started j
    · rw [Function.update_of_ne hj]
      exact h.started j

theorem incrementCounter (h : Inv s) : Inv (s.incrementCounter i) := by
  refine ⟨h.toTimers.update i _ rfl rfl, fun j => ?_, h.posted⟩
  dsimp only [Timed.incrementCounter, State.incrementCounter]
  by_cases hj : j = i
  · subst hj
    rw [Function.update_self]
    exact h.started j
  · rw [Function.update_of_ne hj]
    exact h.started j

theorem fired {rand : cfg.Id → UInt16} (h : Inv s) (ht : t.Ordered s.time)
    (hfault : (s.fired rand t).impl.fault = false) : Inv (s.fired rand t) := by
  have hsome : ∀ i, (s.impl.next rand i).isSome := by
    by_contra hnone
    have himpl : s.impl.fired rand (s.elapsed t.read) = _ := if_neg hnone
    rw [Timed.fired, himpl] at hfault
    cases hfault
  have himpl : s.impl.fired rand (s.elapsed t.read) = _ := if_pos hsome
  have hends : ∀ i, s.impl.Ends i → ((s.impl.next rand i).getD (s.impl.trickles i)).time ≠ 0 ∧
      ((s.impl.next rand i).getD (s.impl.trickles i)).remainder.toNat ≤ 2 ^ 25 := by
    intro i hi
    have hi' := hsome i
    cases hgen : (s.impl.trickles i).generateTime cfg (rand i) with
    | none =>
      rw [State.next, if_pos hi, hgen] at hi'
      cases hi'
    | some tr =>
      have hnew := Trickle.generated hgen (h.remainder i)
      rw [State.next_of_ends hi hgen]
      exact hnew
  have hstays : ∀ i, ¬s.impl.Ends i →
      (s.impl.next rand i).getD (s.impl.trickles i) = s.impl.trickles i := by
    intro i hi
    rw [State.next_of_not_ends hi]
    rfl
  have htimers : Timers (s.adjust t (s.impl.fired rand (s.elapsed t.read))
      fun i => decide (s.impl.Ends i)) := by
    rw [himpl]
    refine h.toTimers.adjust ht h.fault (fun j => ?_) (fun j hj => ?_) (fun j hj => ?_)
    · by_cases hj : s.impl.Ends j
      · exact (hends j hj).2
      · dsimp only
        rw [hstays j hj]
        exact h.remainder j
    · dsimp only
      rw [hj, Bool.or_true]
      exact ⟨rfl, (hends j (of_decide_eq_true hj)).1⟩
    · dsimp only
      rw [hj, Bool.or_false]
      refine ⟨h.changed j, fun _ => ?_⟩
      rw [hstays j (of_decide_eq_false hj)]
  refine ⟨htimers.frame _ _ _ _ _, fun j => ?_, fun j hj => ?_⟩
  · dsimp only [Timed.fired, Timed.adjust]
    rw [himpl]
    refine (h.started j).trans (Iff.trans ?_ State.adjusted_time_ne.symm)
    dsimp only
    by_cases hj : s.impl.Ends j
    · exact iff_of_true hj.1 (hends j hj).1
    · rw [hstays j hj]
  · dsimp only [Timed.fired, Timed.adjust] at hj ⊢
    rw [himpl] at hj
    rcases Bool.or_eq_true _ _ ▸ hj with hpending | hnew
    · rw [h.posted j hpending, Bool.true_or]
    · obtain ⟨hi, hk⟩ := Bool.and_eq_true _ _ ▸ hnew
      rw [decide_eq_true ⟨j, of_decide_eq_true hi, of_decide_eq_true hk⟩, Bool.or_true]

theorem timerTask (h : Inv s) : Inv s.timerTask := by
  unfold Timed.timerTask State.timerTask
  rw [← Timed.served]
  cases hserved : s.served with
  | none =>
    refine ⟨h.toTimers.frame _ _ _ _ _, h.started, fun j hj => ?_⟩
    exact absurd hj (List.find?_eq_none.1 hserved j (List.mem_finRange j))
  | some i =>
    exact ⟨h.toTimers.frame _ _ _ _ _, h.started, fun _ _ => rfl⟩

end Inv

/-- What a step needs to be taken, and what it does. -/
inductive Step (s : Timed cfg) : Event cfg → Timed cfg → Prop
  | start (i : cfg.Id) (rand : UInt16) (t : Instants) : t.Ordered s.time →
    (s.start i rand t).impl.fault = false → Step s (.start i rand t) (s.start i rand t)
  | stop (i : cfg.Id) (t : Instants) : t.Ordered s.time → Step s (.stop i t) (s.stop i t)
  | reset (i : cfg.Id) (rand : UInt16) (t : Instants) : t.Ordered s.time →
    (s.reset i rand t).impl.fault = false → Step s (.reset i rand t) (s.reset i rand t)
  | incrementCounter (i : cfg.Id) : Step s (.incrementCounter i) (s.incrementCounter i)
  | fired (rand : cfg.Id → UInt16) (t : Instants) (due : Nat) : t.Ordered s.time →
    s.due = some due → due ≤ t.called → (s.fired rand t).impl.fault = false →
    Step s (.fired rand t) (s.fired rand t)
  | timerTask : s.posted = true → Step s .timerTask s.timerTask

theorem defined_spec (h : s.defined = some s') : s.impl.fault = false ∧ s' = s := by
  obtain ⟨hfault, h⟩ := Option.ite_none_left_eq_some.1 h
  exact ⟨eq_false_of_ne_true hfault, (Option.some.inj h).symm⟩

theorem step_spec {e : Event cfg} (h : s.step e = some s') : Step s e s' := by
  cases e with
  | start i rand t =>
    obtain ⟨ht, h⟩ := Option.ite_none_right_eq_some.1 h
    obtain ⟨hfault, rfl⟩ := defined_spec h
    exact .start i rand t ht hfault
  | stop i t =>
    obtain ⟨ht, h⟩ := Option.ite_none_right_eq_some.1 h
    obtain ⟨_, rfl⟩ := defined_spec h
    exact .stop i t ht
  | reset i rand t =>
    obtain ⟨ht, h⟩ := Option.ite_none_right_eq_some.1 h
    obtain ⟨hfault, rfl⟩ := defined_spec h
    exact .reset i rand t ht hfault
  | incrementCounter i =>
    cases h
    exact .incrementCounter i
  | fired rand t =>
    obtain ⟨⟨ht, hany⟩, h⟩ := Option.ite_none_right_eq_some.1 h
    obtain ⟨hfault, rfl⟩ := defined_spec h
    cases hdue : s.due with
    | none =>
      rw [hdue] at hany
      cases hany
    | some due =>
      rw [hdue] at hany
      exact .fired rand t due ht hdue (of_decide_eq_true hany) hfault
  | timerTask =>
    obtain ⟨hposted, h⟩ := Option.ite_none_right_eq_some.1 h
    cases h
    exact .timerTask hposted

theorem step_inv {e : Event cfg} (h : Inv s) (hs : s.step e = some s') : Inv s' := by
  cases step_spec hs with
  | start i rand t ht hfault => exact h.start ht hfault
  | stop i t ht => exact h.stop ht
  | reset i rand t ht hfault => exact h.reset ht hfault
  | incrementCounter i => exact h.incrementCounter
  | fired rand t due ht _ _ hfault => exact h.fired ht hfault
  | timerTask _ => exact h.timerTask

theorem init_inv (cfg : Config) (time : Nat) : Inv (init cfg time) where
  fault := rfl
  changed _ := rfl
  remainder _ := Nat.zero_le _
  clock := Nat.zero_le _
  due _ hi := absurd rfl hi
  up _ hi := absurd rfl hi
  started _ := iff_of_false Bool.false_ne_true fun hi => hi rfl
  posted _ hi := by cases hi

/-! ## What careful steps keep -/

theorem fired_pending {rand : cfg.Id → UInt16} (hfault : (s.fired rand t).impl.fault = false)
    (i : cfg.Id) :
    (s.fired rand t).impl.pending i = (s.impl.pending i || decide (s.Expires i)) := by
  dsimp only [Timed.fired, Timed.adjust] at hfault ⊢
  unfold State.fired at hfault ⊢
  split
  next hsome =>
    exact congrArg (s.impl.pending i || ·) (Bool.decide_and _ _).symm
  next hnone =>
    rw [if_neg hnone] at hfault
    cases hfault

/-- An expiry sets the bit, which must not be set. -/
theorem balanced_fired {rand : cfg.Id → UInt16} (hb : Balanced s)
    (hfault : (s.fired rand t).impl.fault = false) :
    Balanced (s.fired rand t) ↔ ∀ i, s.Expires i → s.impl.pending i = false := by
  refine forall_congr' fun i => ?_
  have hi := hb i
  rw [fired_pending hfault i]
  change s.expiries i + (if s.Expires i then 1 else 0) = s.signals i + _ ↔ _
  by_cases he : s.Expires i
  · rw [if_pos he, decide_eq_true he, Bool.or_true, Bool.toNat_true, hi]
    cases s.impl.pending i with
    | false => exact iff_of_true rfl fun _ => rfl
    | true => exact iff_of_false (by rw [Bool.toNat_true]; omega) fun h => absurd (h he) (by decide)
  · rw [if_neg he, decide_eq_false he, Bool.or_false]
    exact iff_of_true hi fun h => absurd h he

/-- `timerTask` signals the trickle whose bit it clears. -/
theorem timerTask_total (s : Timed cfg) (i : cfg.Id) :
    s.timerTask.signals i + (s.timerTask.impl.pending i).toNat =
      s.signals i + (s.impl.pending i).toNat := by
  unfold Timed.timerTask State.timerTask
  rw [← Timed.served]
  dsimp only
  cases hserved : s.served with
  | none =>
    rw [if_neg nofun]
    rfl
  | some j =>
    have hpending : s.impl.pending j = true := List.find?_some hserved
    dsimp only
    by_cases hij : i = j
    · subst hij
      rw [if_pos rfl, Function.update_self, hpending]
      rfl
    · rw [if_neg fun heq => hij (Option.some.inj heq).symm, Function.update_of_ne hij, Nat.add_zero]

theorem balanced_timerTask (hb : Balanced s) : Balanced s.timerTask := fun i =>
  (hb i).trans (timerTask_total s i).symm

theorem step_balanced {e : Event cfg} (hb : Balanced s) (hc : Careful s e)
    (hs : s.step e = some s') : Balanced s' := by
  cases step_spec hs with
  | start i rand t _ _ =>
    unfold Timed.start State.start
    dsimp only
    by_cases hrun : (s.impl.trickles i).time ≠ 0
    · rw [if_pos hrun, if_pos hrun]
      exact hb
    · rw [if_neg hrun, if_neg hrun]
      intro j
      dsimp only [Timed.adjust]
      rw [generate_pending]
      exact hb j
  | stop i t _ => exact hb
  | reset i rand t _ _ =>
    unfold Timed.reset State.reset
    dsimp only
    by_cases hrun : (s.impl.trickles i).time ≠ 0
    · rw [if_pos hrun, if_pos hrun]
      intro j
      dsimp only [Timed.adjust]
      rw [generate_pending]
      exact hb j
    · rw [if_neg hrun, if_neg hrun]
      exact hb
  | incrementCounter i => exact hb
  | fired rand t due _ _ _ hfault => exact (balanced_fired hb hfault).2 hc
  | timerTask _ => exact balanced_timerTask hb

theorem works_step {e : Event cfg} (h : Inv s) (hb : Balanced s) (hs : s.step e = some s') :
    Works s e ↔ Careful s e := by
  constructor
  · intro hw
    cases step_spec hs with
    | start i rand t _ _ => trivial
    | stop i t _ => trivial
    | reset i rand t _ _ => trivial
    | incrementCounter i => trivial
    | fired rand t due _ _ _ hfault => exact (balanced_fired hb hfault).1 (hw.yields _ hs)
    | timerTask _ => exact fun i hi => (h.started i).1 (hw.signals rfl i hi)
  · intro hc
    refine ⟨fun i hi => ?_, ?_, ?_, ?_⟩
    · obtain ⟨dt, hdt, hle⟩ := h.due i hi
      exact ⟨s.t0 + dt.toNat, by rw [Timed.due, hdt]; rfl,
        Nat.add_le_add_left (UInt32.le_iff_toNat_le.1 hle) _⟩
    · rintro rand t rfl i hi
      cases step_spec hs with
      | fired _ _ due _ hdue hle _ =>
        rw [Timed.due, hi.2] at hdue
        have hup : s.up i = due := Option.some.inj hdue
        exact Nat.le_trans (h.up i hi.1) (hup.symm ▸ hle)
    · intro s₁ hs₁
      cases hs.symm.trans hs₁
      exact step_balanced hb hc hs
    · rintro rfl i hi
      exact (h.started i).2 (hc i hi)

theorem run_inv {h : List (Timed cfg × Event cfg)} (hr : (machine cfg).Run h s) : Inv s := by
  refine hr.inv (P := Inv) ⟨?_, fun _ _ _ hi hs => step_inv hi hs⟩
  rintro s ⟨time, rfl⟩
  exact init_inv cfg time

/-- The trickles that are pending. -/
def pendings (s : Timed cfg) : Finset cfg.Id := Finset.univ.filter fun i => s.impl.pending i = true

theorem pendings_timerTask (hi : s.served = some i) : s.timerTask.pendings ⊂ s.pendings := by
  have hpending : s.impl.pending i = true := List.find?_some hi
  have hclear : s.timerTask.impl.pending = Function.update s.impl.pending i false := by
    unfold Timed.timerTask State.timerTask
    rw [← Timed.served, hi]
  refine (Finset.ssubset_iff_of_subset fun j hj => ?_).2 ⟨i, ?_, ?_⟩
  · have hj := (Finset.mem_filter.1 hj).2
    rw [hclear] at hj
    by_cases hji : j = i
    · subst hji
      exact Finset.mem_filter.2 ⟨Finset.mem_univ _, hpending⟩
    · rw [Function.update_of_ne hji] at hj
      exact Finset.mem_filter.2 ⟨Finset.mem_univ _, hj⟩
  · exact Finset.mem_filter.2 ⟨Finset.mem_univ _, hpending⟩
  · intro hmem
    have hset := (Finset.mem_filter.1 hmem).2
    rw [hclear, Function.update_self] at hset
    cases hset

/-- By induction on how many trickles are pending: each run of the task signals one. -/
theorem leads_signalled (total : cfg.Id → Nat) (n : Nat) :
    ∀ s : Timed cfg, Inv s → s.pendings.card = n →
      (∀ i, s.signals i + (s.impl.pending i).toNat = total i) →
      (machine cfg).Leads (· = .timerTask)
        (fun s' => ∀ i, s'.impl.pending i = false ∧ s'.signals i = total i) s := by
  induction n using Nat.strong_induction_on with
  | _ n ih =>
    intro s h hn htotal
    cases hserved : s.served with
    | none =>
      refine .here fun i => ?_
      have hclear : s.impl.pending i = false :=
        eq_false_of_ne_true (List.find?_eq_none.1 hserved i (List.mem_finRange i))
      have hi := htotal i
      rw [hclear] at hi
      exact ⟨hclear, hi⟩
    | some i =>
      have hposted := h.posted i (List.find?_some hserved)
      have hfewer := Finset.card_lt_card (pendings_timerTask hserved)
      refine .step rfl (if_pos hposted) ?_
      exact ih _ (hn ▸ hfewer) s.timerTask h.timerTask rfl fun j =>
        (timerTask_total s j).trans (htotal j)

/-- **Multiplexing and suppression.** The trickles work in a run exactly if its steps are careful,
and from where it ends the task signals each trickle that is pending once. -/
theorem works_iff {h : List (Timed cfg × Event cfg)} (hr : (machine cfg).Run h s) :
    ((∀ p ∈ h, Works p.1 p.2) ↔ ∀ p ∈ h, Careful p.1 p.2) ∧
      (machine cfg).Leads (· = .timerTask)
        (fun s' => ∀ i, s'.impl.pending i = false ∧
          s'.signals i = s.signals i + (s.impl.pending i).toNat) s := by
  refine ⟨hr.forall_steps_iff (J := fun s => Inv s ∧ Balanced s) ?_ ?_ ?_,
    leads_signalled _ _ s (run_inv hr) rfl fun _ => rfl⟩
  · rintro s ⟨time, rfl⟩
    exact ⟨init_inv cfg time, fun _ => rfl⟩
  · rintro s e s' ⟨hi, hb⟩ hc hs
    exact ⟨step_inv hi hs, step_balanced hb hc hs⟩
  · rintro s e s' ⟨hi, hb⟩ hs
    exact works_step hi hb hs

/-- Two trickles, of which the shortest interval is half the longest. -/
def pair : Config where
  low := 1
  high := 2
  k := 1
  count := 2
  int := .bits16
  one_le_low := State.exampleConfig.one_le_low
  low_le_high := by decide
  count_pos := by decide

/-- The two trickles. -/
def first : pair.Id := ⟨0, by decide⟩

def second : pair.Id := ⟨1, by decide⟩

/-- Both trickles expire, the second one late, and are signalled. -/
theorem works_pair : ∃ h s, (machine pair).Run h s ∧ s.signals first = 1 ∧ s.signals second = 1 ∧
    ∀ p ∈ h, Works p.1 p.2 := by
  obtain ⟨h, s, hr, hs⟩ := Machine.exists_run_of_exec (M := machine pair) ⟨0, rfl⟩
    [.start first 5 ⟨0, 0, 0⟩, .start second 9 ⟨3, 3, 4⟩,
      .fired (fun _ => 7) ⟨1030, 1030, 1030⟩, .timerTask,
      .fired (fun _ => 7) ⟨1600, 1600, 1600⟩, .timerTask]
    (fun h s => s.signals first = 1 ∧ s.signals second = 1 ∧ ∀ p ∈ h, Careful p.1 p.2)
    (by decide)
  obtain ⟨hfirst, hsecond, hcareful⟩ := of_decide_eq_true hs
  exact ⟨h, s, hr, hfirst, hsecond, (works_iff hr).1.2 hcareful⟩

/-- The first trickle is stopped after it expired, and signalled. -/
theorem stopped_pair : ∃ s s', (machine pair).Reachable s ∧ s.step .timerTask = some s' ∧
    s.started first = false ∧ s.served = some first ∧ s'.signals first = 1 ∧
    ¬Works s .timerTask := by
  obtain ⟨h, s, hr, hs⟩ := Machine.exists_run_of_exec (M := machine pair) ⟨0, rfl⟩
    [.start first 5 ⟨0, 0, 0⟩, .fired (fun _ => 7) ⟨1030, 1030, 1030⟩,
      .stop first ⟨1031, 1031, 1031⟩]
    (fun _ s => s.started first = false ∧ s.served = some first ∧ s.posted = true ∧
      s.timerTask.signals first = 1) (by decide)
  obtain ⟨hstopped, hserved, hposted, hsignal⟩ := of_decide_eq_true hs
  refine ⟨s, s.timerTask, ⟨h, hr⟩, if_pos hposted, hstopped, hserved, hsignal, fun hw => ?_⟩
  exact Bool.false_ne_true (hstopped.symm.trans (hw.signals rfl _ hserved))

end Timed

end TrickleTimerImplP
