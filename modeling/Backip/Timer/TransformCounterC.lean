import Backip.Lib.Machine
import Backip.Lib.WrappingClock
import Mathlib.Algebra.Order.Group.Nat

/-!
# Slower and wider counters (`tos/lib/timer/TransformCounterC.nc`)

`CounterFrom` counts the source ticks modulo `2 ^ fromBits`. Its flag is set when it wraps, until
the overflow is serviced: signalled, or cleared. Ticks go by at any time, also in the middle of
`Counter.get`, but no overflow comes before the last one is serviced. Interrupts do not come in the
middle of a command, each of which is atomic; in `clearOverflow` the order of the ticks and the
command makes no difference.

`m_upper` has the rounds that were serviced, as far as its bits go (`Counts`), so that `Counter.get`
shows the tick at which it read the low bits it returns (`widened_exact`).
-/

set_option autoImplicit false

namespace TransformCounterC

/-- The sizes of the types, in bits, and `bit_shift_right`. -/
structure Widths where
  fromBits : Nat
  toBits : Nat
  shift : Nat
  upperBits : Nat
  shift_lt : shift < fromBits
  wider : fromBits ≤ toBits + shift
  upper : toBits + shift ≤ fromBits + upperBits

namespace Widths

variable (w : Widths)

/-- `HIGH_SHIFT_LEFT`. -/
def highShiftLeft : Nat := w.fromBits - w.shift

/-- `NUM_UPPER_BITS`. -/
def numUpperBits : Nat := w.toBits + w.shift - w.fromBits

/-- `OVERFLOW_MASK`. -/
def overflowMask : Nat := if w.numUpperBits ≠ 0 then 2 * 2 ^ (w.numUpperBits - 1) - 1 else 0

end Widths

structure Counter where
  mUpper : Nat
  /-- The source ticks. -/
  ticks : Nat
  /-- `CounterFrom.isOverflowPending`. -/
  pending : Bool

variable (w : Widths) (c : Counter)

/-- `CounterFrom.get`. -/
def fromGet : Nat := c.ticks % 2 ^ w.fromBits

def elapse (ticks : Nat) : Counter :=
  { c with
    ticks := c.ticks + ticks
    pending := c.pending || decide (c.ticks / 2 ^ w.fromBits < (c.ticks + ticks) / 2 ^ w.fromBits) }

/-- The result of `Counter.get`, in `to_size_type`. -/
def combine (high low : Nat) : Nat :=
  high % 2 ^ w.toBits * 2 ^ w.highShiftLeft % 2 ^ w.toBits ||| low / 2 ^ w.shift % 2 ^ w.toBits

/-- `Counter.get`, of which `wait` ticks go by before it reads the flag and `wait'` before it reads
the low bits again. -/
def get (wait wait' : Nat) : Nat × Counter :=
  let high := c.mUpper
  let low := fromGet w c
  let c := elapse w c wait
  if c.pending then
    let high := (high + 1) % 2 ^ w.upperBits
    let c := elapse w c wait'
    (combine w high (fromGet w c), c)
  else (combine w high low, c)

/-- `Counter.isOverflowPending`. -/
def isOverflowPending : Bool :=
  decide (c.mUpper &&& w.overflowMask = w.overflowMask) && c.pending

/-- `m_upper++`, and the overflow of `CounterFrom` is serviced. -/
def count : Counter := { c with mUpper := (c.mUpper + 1) % 2 ^ w.upperBits, pending := false }

/-- `Counter.clearOverflow`. -/
def clearOverflow : Counter := if isOverflowPending w c then count w c else c

/-- `CounterFrom.overflow`: whether it signals `Counter.overflow`. -/
def overflow : Bool × Counter :=
  let c := count w c
  (decide (c.mUpper &&& w.overflowMask = 0), c)

/-! ## Runs -/

/-- What became of a wrap of the widened counter. -/
inductive Wrap
  | signalled
  | cleared
deriving DecidableEq, Repr

structure State where
  impl : Counter
  /-- The wraps that were serviced, the last one first. -/
  wraps : List Wrap

inductive Event
  | elapse (ticks : Nat)
  | get (wait wait' : Nat)
  | clearOverflow
  | overflow
deriving DecidableEq, Repr

/-- At most one overflow of `CounterFrom` is unserviced when `ticks` have gone by. -/
def Serviced (ticks : Nat) : Prop :=
  (c.ticks + ticks) / 2 ^ w.fromBits + c.pending.toNat ≤ c.ticks / 2 ^ w.fromBits + 1

instance (ticks : Nat) : Decidable (Serviced w c ticks) := inferInstanceAs (Decidable (_ ≤ _))

/-- The same while `Counter.get` runs. -/
def ServicedGet (wait wait' : Nat) : Prop :=
  Serviced w c wait ∧ ((elapse w c wait).pending = true → Serviced w (elapse w c wait) wait')

instance (wait wait' : Nat) : Decidable (ServicedGet w c wait wait') :=
  inferInstanceAs (Decidable (_ ∧ (_ → _)))

def step (s : State) : Event → Option State
  | .elapse ticks =>
    if Serviced w s.impl ticks then some { s with impl := elapse w s.impl ticks } else none
  | .get wait wait' =>
    if ServicedGet w s.impl wait wait' then some { s with impl := (get w s.impl wait wait').2 }
    else none
  | .clearOverflow =>
    some
      { impl := clearOverflow w s.impl
        wraps := if isOverflowPending w s.impl then .cleared :: s.wraps else s.wraps }
  | .overflow =>
    if s.impl.pending then
      some
        { impl := (overflow w s.impl).2
          wraps := if (overflow w s.impl).1 then .signalled :: s.wraps else s.wraps }
    else none

def machine : Machine State Event where
  init s := s = ⟨⟨0, 0, false⟩, []⟩
  step := step w

/-- `tick` is an instant of the call of `Counter.get`, whose tick of the widened counter is
returned. -/
structure Shows (wait wait' tick : Nat) : Prop where
  begun : c.ticks ≤ tick
  ended : tick ≤ (get w c wait wait').2.ticks
  value : (get w c wait wait').1 = tick / 2 ^ w.shift % 2 ^ w.toBits

/-! ## The widths -/

namespace Widths

variable {w : Widths}

theorem overflowMask_eq (w : Widths) : w.overflowMask = 2 ^ w.numUpperBits - 1 := by
  unfold overflowMask
  cases w.numUpperBits with
  | zero => rfl
  | succ n => rw [if_pos (Nat.succ_ne_zero n), Nat.succ_sub_one, Nat.pow_succ']

theorem and_overflowMask (w : Widths) (x : Nat) :
    x &&& w.overflowMask = x % 2 ^ w.numUpperBits := by
  rw [overflowMask_eq, Nat.and_two_pow_sub_one_eq_mod]

/-- A round of `m_upper` is a multiple of one of the widened counter. -/
theorem mod_upper (w : Widths) (x : Nat) :
    x % 2 ^ w.upperBits % 2 ^ w.numUpperBits = x % 2 ^ w.numUpperBits := by
  refine Nat.mod_mod_of_dvd x (Nat.pow_dvd_pow 2 ?_)
  have hupper := w.upper
  unfold numUpperBits
  omega

/-- The rounds of the widened counter. -/
theorem div_wrap (w : Widths) (ticks : Nat) :
    ticks / 2 ^ (w.toBits + w.shift) = ticks / 2 ^ w.fromBits / 2 ^ w.numUpperBits := by
  have hwider := w.wider
  rw [Nat.div_div_eq_div_mul, ← Nat.pow_add, numUpperBits, Nat.add_sub_cancel' hwider]

theorem combine_eq (w : Widths) (ticks : Nat) :
    combine w (ticks / 2 ^ w.fromBits % 2 ^ w.upperBits) (ticks % 2 ^ w.fromBits) =
      ticks / 2 ^ w.shift % 2 ^ w.toBits := by
  have hlow : ticks % 2 ^ w.fromBits / 2 ^ w.shift < 2 ^ w.toBits := by
    refine Nat.div_lt_of_lt_mul ?_
    rw [← Nat.pow_add]
    refine Nat.lt_of_lt_of_le (Nat.mod_lt _ (Nat.two_pow_pos _)) ?_
    refine Nat.pow_le_pow_right (by decide) ?_
    rw [Nat.add_comm]
    exact w.wider
  rw [combine, Nat.mod_mul_mod, Nat.mod_eq_of_lt hlow]
  exact WrappingClock.widen (Nat.le_of_lt w.shift_lt) w.wider w.upper ticks

end Widths

/-! ## The rounds that were serviced -/

section

variable {w : Widths} {c : Counter} {s s' : State} {rounds : Nat}

/-- `rounds` overflows of `CounterFrom` were serviced, and `m_upper` has counted them. -/
structure Counts (w : Widths) (c : Counter) (rounds : Nat) : Prop where
  ticks : c.ticks / 2 ^ w.fromBits = rounds + c.pending.toNat
  upper : c.mUpper = rounds % 2 ^ w.upperBits

theorem Counts.elapse (h : Counts w c rounds) {ticks : Nat} (hs : Serviced w c ticks) :
    Counts w (elapse w c ticks) rounds := by
  refine ⟨?_, h.upper⟩
  have hticks := h.ticks
  have hle : c.ticks / 2 ^ w.fromBits ≤ (c.ticks + ticks) / 2 ^ w.fromBits :=
    Nat.div_le_div_right (Nat.le_add_right _ _)
  unfold Serviced at hs
  unfold TransformCounterC.elapse
  dsimp only
  by_cases hlt : c.ticks / 2 ^ w.fromBits < (c.ticks + ticks) / 2 ^ w.fromBits
  · rw [decide_eq_true hlt, Bool.or_true, Bool.toNat_true]
    omega
  · rw [decide_eq_false hlt, Bool.or_false]
    omega

theorem Counts.count (h : Counts w c rounds) (hp : c.pending = true) :
    Counts w (count w c) (rounds + 1) := by
  refine ⟨?_, ?_⟩
  · have hticks := h.ticks
    rwa [hp] at hticks
  · rw [TransformCounterC.count, h.upper, Nat.mod_add_mod]

/-- The bits of `m_upper` that the widened counter has. -/
theorem Counts.and_mask (h : Counts w c rounds) :
    c.mUpper &&& w.overflowMask = rounds % 2 ^ w.numUpperBits := by
  rw [w.and_overflowMask, h.upper, w.mod_upper]

/-- The overflow of `CounterFrom` is one of the widened counter. -/
theorem Counts.isOverflowPending_iff (h : Counts w c rounds) :
    isOverflowPending w c = true ↔ c.pending = true ∧ 2 ^ w.numUpperBits ∣ rounds + 1 := by
  rw [isOverflowPending, h.and_mask, w.overflowMask_eq, Bool.and_eq_true, decide_eq_true_iff,
    and_comm, Nat.mod_eq_sub_iff Nat.one_pos (Nat.two_pow_pos _)]

/-- `Counter.overflow` is signalled for the rounds with which the widened counter wraps. -/
theorem Counts.overflow_fst (h : Counts w c rounds) (hp : c.pending = true) :
    (overflow w c).1 = true ↔ 2 ^ w.numUpperBits ∣ rounds + 1 := by
  rw [overflow, (h.count hp).and_mask, decide_eq_true_iff, Nat.dvd_iff_mod_eq_zero]

/-! ## `Counter.get` -/

theorem Counts.combine (h : Counts w c rounds) :
    combine w ((rounds + c.pending.toNat) % 2 ^ w.upperBits) (fromGet w c) =
      c.ticks / 2 ^ w.shift % 2 ^ w.toBits := by
  rw [← h.ticks]
  exact w.combine_eq c.ticks

theorem get_pending {wait : Nat} (hp : (elapse w c wait).pending = true) (wait' : Nat) :
    get w c wait wait' =
      (TransformCounterC.combine w ((c.mUpper + 1) % 2 ^ w.upperBits)
        (fromGet w (elapse w (elapse w c wait) wait')), elapse w (elapse w c wait) wait') :=
  if_pos hp

theorem get_current {wait : Nat} (hp : ¬ (elapse w c wait).pending = true) (wait' : Nat) :
    get w c wait wait' = (TransformCounterC.combine w c.mUpper (fromGet w c), elapse w c wait) :=
  if_neg hp

theorem elapse_pending (hp : c.pending = true) (ticks : Nat) :
    (elapse w c ticks).pending = true := by
  rw [elapse, hp, Bool.true_or]

theorem Counts.get (h : Counts w c rounds) {wait wait' : Nat} (hs : ServicedGet w c wait wait') :
    Counts w (get w c wait wait').2 rounds := by
  by_cases hp : (TransformCounterC.elapse w c wait).pending = true
  · rw [get_pending hp]
    exact (h.elapse hs.1).elapse (hs.2 hp)
  · rw [get_current hp]
    exact h.elapse hs.1

theorem ticks_le_get (w : Widths) (c : Counter) (wait wait' : Nat) :
    c.ticks ≤ (TransformCounterC.get w c wait wait').2.ticks := by
  by_cases hp : (elapse w c wait).pending = true
  · rw [get_pending hp]
    exact Nat.le_add_right_of_le (Nat.le_add_right _ _)
  · rw [get_current hp]
    exact Nat.le_add_right _ _

/-- The instant is that of the last reading of the low bits. -/
theorem Counts.shows (h : Counts w c rounds) {wait wait' : Nat} (hs : ServicedGet w c wait wait') :
    ∃ tick, Shows w c wait wait' tick := by
  by_cases hp : (TransformCounterC.elapse w c wait).pending = true
  · have hlast := ((h.elapse hs.1).elapse (hs.2 hp)).combine
    refine ⟨_, ticks_le_get w c wait wait', Nat.le_refl _, ?_⟩
    rw [get_pending hp, ← hlast, elapse_pending hp, h.upper, Nat.mod_add_mod, Bool.toNat_true]
  · -- the flag was not set when the low bits were read either
    have hclear : c.pending = false := by
      refine eq_false_of_ne_true fun hset => hp (elapse_pending hset wait)
    refine ⟨c.ticks, Nat.le_refl _, ticks_le_get w c wait wait', ?_⟩
    rw [get_current hp, ← h.combine, hclear, h.upper, Bool.toNat_false, Nat.add_zero]

/-! ## Runs -/

/-- The wraps that were serviced are those of the rounds that were serviced. -/
def Inv (w : Widths) (s : State) : Prop :=
  ∃ rounds, Counts w s.impl rounds ∧ s.wraps.length = rounds / 2 ^ w.numUpperBits

/-- What a step needs to be taken, and what it does. -/
inductive Step (w : Widths) (s : State) : Event → State → Prop
  | elapse (ticks : Nat) : Serviced w s.impl ticks →
    Step w s (.elapse ticks) { s with impl := elapse w s.impl ticks }
  | get (wait wait' : Nat) : ServicedGet w s.impl wait wait' →
    Step w s (.get wait wait') { s with impl := (TransformCounterC.get w s.impl wait wait').2 }
  | cleared : isOverflowPending w s.impl = true →
    Step w s .clearOverflow { impl := count w s.impl, wraps := .cleared :: s.wraps }
  | notCleared : isOverflowPending w s.impl = false → Step w s .clearOverflow s
  | overflow : s.impl.pending = true →
    Step w s .overflow
      { impl := count w s.impl
        wraps := if (overflow w s.impl).1 then .signalled :: s.wraps else s.wraps }

theorem step_spec {e : Event} (h : step w s e = some s') : Step w s e s' := by
  cases e with
  | elapse ticks =>
    obtain ⟨hs, h⟩ := Option.ite_none_right_eq_some.1 h
    cases h
    exact .elapse ticks hs
  | get wait wait' =>
    obtain ⟨hs, h⟩ := Option.ite_none_right_eq_some.1 h
    cases h
    exact .get wait wait' hs
  | clearOverflow =>
    cases h
    by_cases hp : isOverflowPending w s.impl = true
    · rw [clearOverflow, if_pos hp, if_pos hp]
      exact .cleared hp
    · rw [clearOverflow, if_neg hp, if_neg hp]
      exact .notCleared (eq_false_of_ne_true hp)
  | overflow =>
    obtain ⟨hp, h⟩ := Option.ite_none_right_eq_some.1 h
    cases h
    exact .overflow hp

theorem step_inv {e : Event} (hi : Inv w s) (h : step w s e = some s') : Inv w s' := by
  obtain ⟨rounds, hc, hlen⟩ := hi
  cases step_spec h with
  | elapse ticks hs => exact ⟨rounds, hc.elapse hs, hlen⟩
  | get wait wait' hs => exact ⟨rounds, hc.get hs, hlen⟩
  | cleared hp =>
    obtain ⟨hpending, hdvd⟩ := hc.isOverflowPending_iff.1 hp
    refine ⟨rounds + 1, hc.count hpending, ?_⟩
    rw [Nat.succ_div, if_pos hdvd, List.length_cons, hlen]
  | notCleared _ => exact ⟨rounds, hc, hlen⟩
  | overflow hp =>
    refine ⟨rounds + 1, hc.count hp, ?_⟩
    rw [Nat.succ_div]
    by_cases hdvd : 2 ^ w.numUpperBits ∣ rounds + 1
    · rw [if_pos ((hc.overflow_fst hp).2 hdvd), if_pos hdvd, List.length_cons, hlen]
    · rw [if_neg fun hsig => hdvd ((hc.overflow_fst hp).1 hsig), if_neg hdvd, hlen, Nat.add_zero]

theorem run_inv {h : List (State × Event)} (hr : (machine w).Run h s) : Inv w s := by
  refine hr.inv (P := Inv w) ⟨?_, fun _ _ _ hi hs => step_inv hi hs⟩
  rintro s rfl
  exact ⟨0, ⟨Nat.zero_div _, (Nat.zero_mod _).symm⟩, (Nat.zero_div _).symm⟩

/-- Each wrap of the widened counter was serviced once, or is pending. -/
theorem Inv.wraps (hi : Inv w s) :
    s.wraps.length + (isOverflowPending w s.impl).toNat =
      s.impl.ticks / 2 ^ (w.toBits + w.shift) := by
  obtain ⟨rounds, hc, hlen⟩ := hi
  rw [w.div_wrap, hc.ticks, hlen]
  by_cases hp : isOverflowPending w s.impl = true
  · obtain ⟨hpending, hdvd⟩ := hc.isOverflowPending_iff.1 hp
    rw [hp, hpending, Bool.toNat_true, Nat.succ_div, if_pos hdvd]
  · rw [eq_false_of_ne_true hp, Bool.toNat_false, Nat.add_zero]
    cases hpending : s.impl.pending with
    | false => rw [Bool.toNat_false, Nat.add_zero]
    | true =>
      have hdvd : ¬ 2 ^ w.numUpperBits ∣ rounds + 1 := fun hdvd =>
        hp (hc.isOverflowPending_iff.2 ⟨hpending, hdvd⟩)
      rw [Bool.toNat_true, Nat.succ_div, if_neg hdvd, Nat.add_zero]

theorem ticks_le_step {e : Event} (h : step w s e = some s') : s.impl.ticks ≤ s'.impl.ticks := by
  cases step_spec h with
  | elapse ticks _ => exact Nat.le_add_right _ _
  | get wait wait' _ => exact ticks_le_get w _ wait wait'
  | cleared _ => exact Nat.le_refl _
  | notCleared _ => exact Nat.le_refl _
  | overflow _ => exact Nat.le_refl _

theorem run_steps {h : List (State × Event)} (hr : (machine w).Run h s) :
    ∀ p ∈ h, Inv w p.1 ∧ ∃ s₁, step w p.1 p.2 = some s₁ := by
  induction hr with
  | init _ => simp
  | step hr hs ih => exact List.forall_mem_cons.2 ⟨⟨run_inv hr, _, hs⟩, ih⟩

/-- The calls of a run come one after the other. -/
theorem ticks_le_run {h : List (State × Event)} (hr : (machine w).Run h s) :
    ∀ p ∈ h, ∀ s₁, step w p.1 p.2 = some s₁ → s₁.impl.ticks ≤ s.impl.ticks := by
  induction hr with
  | init _ => simp
  | step _ hs ih =>
    refine List.forall_mem_cons.2 ⟨?_, fun p hp s₁ hs₁ => ?_⟩
    · intro s₁ hs₁
      cases hs.symm.trans hs₁
      exact Nat.le_refl _
    · exact Nat.le_trans (ih p hp s₁ hs₁) (ticks_le_step hs)

/-- Of two instants the later one shows less only if the widened counter wraps in between. -/
theorem wrap_between {tick₁ tick₂ : Nat} (hle : tick₁ ≤ tick₂)
    (hlt : tick₂ / 2 ^ w.shift % 2 ^ w.toBits < tick₁ / 2 ^ w.shift % 2 ^ w.toBits) :
    tick₁ / 2 ^ (w.toBits + w.shift) < tick₂ / 2 ^ (w.toBits + w.shift) := by
  have hround : ∀ tick, tick / 2 ^ (w.toBits + w.shift) = tick / 2 ^ w.shift / 2 ^ w.toBits := by
    intro tick
    rw [Nat.div_div_eq_div_mul, ← Nat.pow_add, Nat.add_comm]
  have hshift : tick₁ / 2 ^ w.shift ≤ tick₂ / 2 ^ w.shift := Nat.div_le_div_right hle
  rw [hround, hround]
  refine Nat.lt_of_le_of_ne (Nat.div_le_div_right hshift) fun heq => ?_
  have h₁ := Nat.div_add_mod (tick₁ / 2 ^ w.shift) (2 ^ w.toBits)
  have h₂ := Nat.div_add_mod (tick₂ / 2 ^ w.shift) (2 ^ w.toBits)
  rw [heq] at h₁
  omega

/-- What `later` returns is less than what `earlier` returned only if the widened counter wrapped
between the instants that they show. -/
def Ordered (w : Widths) (later earlier : State × Event) : Prop :=
  ∀ wait₁ wait₁' wait₂ wait₂' tick₁ tick₂,
    earlier.2 = .get wait₁ wait₁' → Shows w earlier.1.impl wait₁ wait₁' tick₁ →
    later.2 = .get wait₂ wait₂' → Shows w later.1.impl wait₂ wait₂' tick₂ →
    (get w later.1.impl wait₂ wait₂').1 < (get w earlier.1.impl wait₁ wait₁').1 →
    tick₁ / 2 ^ (w.toBits + w.shift) < tick₂ / 2 ^ (w.toBits + w.shift)

theorem run_ordered {h : List (State × Event)} (hr : (machine w).Run h s) :
    h.Pairwise (Ordered w) := by
  induction hr with
  | init _ => exact .nil
  | step hr hs ih =>
    refine .cons ?_ ih
    rintro ⟨s₁, e₁⟩ hp wait₁ wait₁' wait₂ wait₂' tick₁ tick₂ rfl hshows₁ - hshows₂ hlt
    obtain ⟨_, s₁', hs₁⟩ := run_steps hr _ hp
    have hbetween := ticks_le_run hr _ hp s₁' hs₁
    cases step_spec hs₁ with
    | get _ _ _ =>
      refine wrap_between ?_ (hshows₂.value ▸ hshows₁.value ▸ hlt)
      exact Nat.le_trans hshows₁.ended (Nat.le_trans hbetween hshows₂.begun)

/-- **Widened counters.** Each call of `Counter.get` returns the tick of the widened counter at some
instant of the call, later calls return no less unless it wraps, and each of its wraps is signalled
once, or cleared, or pending. -/
theorem widened_exact {h : List (State × Event)} (hr : (machine w).Run h s) :
    (∀ p ∈ h, ∀ wait wait', p.2 = .get wait wait' → ∃ tick, Shows w p.1.impl wait wait' tick) ∧
      h.Pairwise (Ordered w) ∧
      s.wraps.length + (isOverflowPending w s.impl).toNat =
        s.impl.ticks / 2 ^ (w.toBits + w.shift) := by
  refine ⟨?_, run_ordered hr, (run_inv hr).wraps⟩
  rintro ⟨s₁, e₁⟩ hp wait wait' rfl
  obtain ⟨⟨rounds, hc, _⟩, s₁', hs₁⟩ := run_steps hr _ hp
  cases step_spec hs₁ with
  | get _ _ hs => exact hc.shows hs

end

/-- A counter of 16 bits, each tick of it 32 of one of 32 bits. -/
def micro : Widths where
  fromBits := 16
  toBits := 32
  shift := 5
  upperBits := 32
  shift_lt := by decide
  wider := by decide
  upper := by decide

/-- The source wraps in the middle of a call, behind the first reading of the low bits. -/
theorem widened_exact_micro : ∃ h s, (machine micro).Run h s ∧
    h.map Prod.snd = [.overflow, .get 1 64, .get 0 0, .elapse 65535] ∧
    (get micro ⟨0, 65535, false⟩ 1 64).1 = 2050 ∧
    h.Pairwise (Ordered micro) ∧ s.wraps.length + (isOverflowPending micro s.impl).toNat = 0 := by
  obtain ⟨h, s, hr, hs⟩ := Machine.exists_run_of_exec (M := machine micro) rfl
    [.elapse 65535, .get 0 0, .get 1 64, .overflow]
    (fun h s => h.map Prod.snd = [.overflow, .get 1 64, .get 0 0, .elapse 65535] ∧
      s.impl.ticks = 65600) (by decide)
  obtain ⟨hevents, hticks⟩ := of_decide_eq_true hs
  obtain ⟨_, hordered, hwraps⟩ := widened_exact hr
  rw [hticks] at hwraps
  exact ⟨h, s, hr, hevents, by decide, hordered, hwraps⟩

end TransformCounterC
