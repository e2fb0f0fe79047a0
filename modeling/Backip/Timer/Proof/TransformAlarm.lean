import Backip.Lib.WrappingClock
import Backip.Timer.TransformAlarmCounterC

/-!
# Transformed alarms: the clock and the invariant

`Clock` says that the widened counter shows the ticks it stands for (`Clock.get_eq`). From it
`set_alarm` is characterised once (`Rearmed`), and `Good` is the invariant of the runs in which no
`stop` finds overflows to be skipped (`Fits`).
-/

set_option autoImplicit false

namespace TransformAlarmCounterC

open WrappingClock

variable {w : Widths} {a : Alarm} {s s' : State} {e : Event} {now base deadline : Nat}

/-! ## The widths -/

namespace Widths

variable (w : Widths)

/-- The ticks of the widened counter from one overflow of `CounterFrom` to the next. -/
def period : Nat := 2 ^ (w.fromBits - w.shift)

theorem period_eq : w.period = w.maxDelay * 2 := by
  have hlt := w.shift_lt
  rw [period, maxDelay, ← Nat.pow_succ]
  congr 1
  omega

theorem maxDelay_pos : 0 < w.maxDelay := Nat.two_pow_pos _

theorem from_eq : 2 ^ w.fromBits = w.period * 2 ^ w.shift := by
  have hlt := w.shift_lt
  rw [period, ← Nat.pow_add]
  congr 1
  omega

theorem to_eq : 2 ^ w.toBits = w.period * 2 ^ (w.toBits + w.shift - w.fromBits) := by
  have hlt := w.shift_lt
  have hwider := w.wider
  rw [period, ← Nat.pow_add]
  congr 1
  omega

theorem period_lt : w.period < 2 ^ w.toBits := by
  have hlt := w.shift_lt
  have hwider := w.wider
  exact Nat.pow_lt_pow_right (by decide) (by omega)

end Widths

/-! ## The clock -/

/-- The module has counted the rounds it was signalled, and at most one is missing. -/
structure Clock (w : Widths) (a : Alarm) : Prop where
  upper : a.mUpper = a.rounds % 2 ^ w.upperBits
  le : a.rounds ≤ a.ticks / 2 ^ w.fromBits
  ge : a.ticks / 2 ^ w.fromBits ≤ a.rounds + 1

/-- The rounds that have gone by. -/
theorem Clock.high (h : Clock w a) :
    (if isOverflowPending w a then (a.mUpper + 1) % 2 ^ w.upperBits else a.mUpper) =
      a.ticks / 2 ^ w.fromBits % 2 ^ w.upperBits := by
  have hle := h.le
  have hge := h.ge
  by_cases hp : a.rounds < a.ticks / 2 ^ w.fromBits
  · have heq : a.ticks / 2 ^ w.fromBits = a.rounds + 1 := by omega
    rw [isOverflowPending, decide_eq_true hp, if_pos rfl, h.upper, heq, Nat.mod_add_mod]
  · have heq : a.ticks / 2 ^ w.fromBits = a.rounds := by omega
    rw [isOverflowPending, decide_eq_false hp, if_neg nofun, h.upper, heq]

/-- The ticks of the widened counter, by rounds of `CounterFrom`. -/
theorem now_eq (w : Widths) (a : Alarm) :
    a.now w = w.period * (a.ticks / 2 ^ w.fromBits) + fromGet w a / 2 ^ w.shift := by
  have hdiv := Nat.div_add_mod a.ticks (2 ^ w.fromBits)
  have hpos : 0 < 2 ^ w.shift := Nat.two_pow_pos _
  have hsplit : 2 ^ w.fromBits * (a.ticks / 2 ^ w.fromBits) =
      2 ^ w.shift * (w.period * (a.ticks / 2 ^ w.fromBits)) := by
    rw [w.from_eq]
    ac_rfl
  rw [hsplit] at hdiv
  calc a.now w
      = (2 ^ w.shift * (w.period * (a.ticks / 2 ^ w.fromBits)) + fromGet w a) / 2 ^ w.shift := by
        rw [fromGet, hdiv, Alarm.now]
    _ = _ := Nat.mul_add_div hpos _ _

theorem fromGet_lt (w : Widths) (a : Alarm) : fromGet w a / 2 ^ w.shift < w.period := by
  have hlt : fromGet w a < w.period * 2 ^ w.shift := by
    rw [← w.from_eq]
    exact Nat.mod_lt _ (Nat.two_pow_pos _)
  exact Nat.div_lt_of_lt_mul (Nat.mul_comm _ _ ▸ hlt)

/-- **The widened counter** shows the ticks it stands for. -/
theorem Clock.get_eq (h : Clock w a) : get w a = a.now w % 2 ^ w.toBits := by
  unfold get
  dsimp only
  rw [h.high]
  exact widen (Nat.le_of_lt w.shift_lt) (Nat.le_of_lt w.wider) w.upper a.ticks

theorem Clock.elapsed_eq (h : Clock w a) (hbase : base % 2 ^ w.toBits = a.mT0)
    (hle : base ≤ a.now w) :
    (get w a + 2 ^ w.toBits - a.mT0) % 2 ^ w.toBits = (a.now w - base) % 2 ^ w.toBits := by
  rw [h.get_eq, ← hbase]
  exact WrappingClock.elapsed_eq (Nat.two_pow_pos _) hle

/-! ## `set_alarm` -/

/-- A reading of the widened counter, in the source ticks of `CounterFrom`. -/
theorem now_mul_shift (w : Widths) (now : Nat) :
    now % 2 ^ w.toBits * 2 ^ w.shift % 2 ^ w.fromBits = now * 2 ^ w.shift % 2 ^ w.fromBits := by
  have hround : 2 ^ w.toBits * 2 ^ w.shift =
      2 ^ w.fromBits * 2 ^ (w.toBits + w.shift - w.fromBits) := by
    rw [w.to_eq, w.from_eq]
    ac_rfl
  rw [← Nat.mul_mod_mul_right, hround, Nat.mod_mul_right_mod]

theorem now_mul_le (w : Widths) (a : Alarm) : a.now w * 2 ^ w.shift ≤ a.ticks :=
  Nat.div_mul_le_self _ _

theorem sub_now_mul (w : Widths) (a : Alarm) : a.ticks - a.now w * 2 ^ w.shift < 2 ^ w.fromBits := by
  have hdiv := Nat.div_add_mod a.ticks (2 ^ w.shift)
  have hmod : a.ticks % 2 ^ w.shift < 2 ^ w.shift := Nat.mod_lt _ (Nat.two_pow_pos _)
  have hle : 2 ^ w.shift ≤ 2 ^ w.fromBits :=
    Nat.pow_le_pow_right (by decide) (Nat.le_of_lt w.shift_lt)
  have hcomm : a.now w * 2 ^ w.shift = 2 ^ w.shift * (a.ticks / 2 ^ w.shift) := Nat.mul_comm _ _
  omega

/-- `AlarmFrom` is due when the widened counter is `remaining` ticks on. -/
theorem startRemaining_eq (w : Widths) (a : Alarm) {remaining : Nat}
    (hle : remaining ≤ w.maxDelay) :
    startRemaining w a (a.now w % 2 ^ w.toBits) remaining =
      { a with alarmFrom := some ((a.now w + remaining) * 2 ^ w.shift) } := by
  have hdelay : remaining * 2 ^ w.shift < 2 ^ w.fromBits := by
    have hlt : remaining < w.period := by
      have hpos := w.maxDelay_pos
      rw [w.period_eq]
      omega
    rw [w.from_eq]
    exact Nat.mul_lt_mul_of_pos_right hlt (Nat.two_pow_pos _)
  have hback : (fromGet w a + 2 ^ w.fromBits - a.now w * 2 ^ w.shift % 2 ^ w.fromBits) %
      2 ^ w.fromBits = a.ticks - a.now w * 2 ^ w.shift :=
    elapsed_of_lt (now_mul_le w a) (sub_now_mul w a)
  rw [startRemaining, now_mul_shift, Nat.mod_eq_of_lt hdelay, startFrom, hback,
    Nat.sub_sub_self (now_mul_le w a), Nat.add_mul]

/-- What is left of the delay, with the reading of `m_t0` as the tick `base` of the past. -/
def left (w : Widths) (a : Alarm) (base : Nat) : Nat :=
  a.mDt - (a.now w - base) % 2 ^ w.toBits

/-- The results of `set_alarm`. -/
inductive Rearmed (w : Widths) (a : Alarm) (base : Nat) : Alarm → Prop
  | near (mT0 : Nat) : left w a base ≤ w.maxDelay → Rearmed w a base
      { a with
        mT0, mDt := 0, mSkipOverflows := 0,
        alarmFrom := some ((a.now w + left w a base) * 2 ^ w.shift) }
  | half : w.maxDelay < left w a base → left w a base ≤ w.period → Rearmed w a base
      { a with
        mT0 := (a.now w + w.maxDelay) % 2 ^ w.toBits, mDt := left w a base - w.maxDelay,
        mSkipOverflows := 0, alarmFrom := some ((a.now w + w.maxDelay) * 2 ^ w.shift) }
  | far (skip : Nat) : w.period < left w a base → skip ≠ 0 →
      skip = 255 ∧ w.period * 256 % 2 ^ w.toBits ≤ left w a base ∨
      skip = left w a base / w.period ∧ left w a base < w.period * 256 % 2 ^ w.toBits →
      Rearmed w a base { a with mSkipOverflows := skip }

theorem Clock.setAlarm (h : Clock w a) (hbase : base % 2 ^ w.toBits = a.mT0)
    (hle : base ≤ a.now w) : Rearmed w a base (setAlarm w a) := by
  have helapsed := h.elapsed_eq hbase hle
  unfold TransformAlarmCounterC.setAlarm
  dsimp only
  rw [helapsed, h.get_eq, ← w.period_eq]
  split
  · rename_i hdone
    have hleft : left w a base = 0 := Nat.sub_eq_zero_of_le hdone
    have hstart := startRemaining_eq w { a with
      mT0 := (a.mT0 + a.mDt) % 2 ^ w.toBits, mDt := 0, mSkipOverflows := 0 } (Nat.zero_le _)
    have hnear : Rearmed w a base { a with
        mT0 := (a.mT0 + a.mDt) % 2 ^ w.toBits, mDt := 0, mSkipOverflows := 0,
        alarmFrom := some ((a.now w + left w a base) * 2 ^ w.shift) } :=
      .near _ (hleft ▸ Nat.zero_le _)
    rw [hleft] at hnear
    exact hstart ▸ hnear
  · change Rearmed w a base (if w.period < left w a base then _ else _)
    split
    · rename_i hfar
      have hpos : 0 < w.period := Nat.two_pow_pos _
      split
      · rename_i hmany
        exact .far 255 hfar (by decide) (.inl ⟨rfl, hmany⟩)
      · rename_i hfew
        refine .far _ hfar ?_ (.inr ⟨rfl, Nat.lt_of_not_le hfew⟩)
        exact Nat.ne_of_gt (Nat.div_pos (Nat.le_of_lt hfar) hpos)
    · rename_i hfar
      change Rearmed w a base (if w.maxDelay < left w a base then _ else _)
      split
      · rename_i hhalf
        have hstart := startRemaining_eq w { a with
          mT0 := (a.now w + w.maxDelay) % 2 ^ w.toBits,
          mDt := left w a base - w.maxDelay, mSkipOverflows := 0 } (Nat.le_refl _)
        rw [Nat.mod_add_mod]
        exact hstart ▸ .half hhalf (Nat.le_of_not_lt hfar)
      · rename_i hnear
        have hle := Nat.le_of_not_lt hnear
        have hstart := startRemaining_eq w { a with
          mT0 := (a.mT0 + a.mDt) % 2 ^ w.toBits, mDt := 0, mSkipOverflows := 0 } hle
        exact hstart ▸ .near _ hle

/-! ## The invariant -/

/-- What leads a started alarm to its deadline. -/
inductive Pending (w : Widths) (a : Alarm) (deadline : Nat) : Prop
  /-- `AlarmFrom` is due at the deadline. -/
  | due (due : Nat) : a.mDt = 0 → a.mSkipOverflows = 0 → a.alarmFrom = some due →
      deadline * 2 ^ w.shift ≤ due → Pending w a deadline
  /-- Overflows are counted. -/
  | skips (base : Nat) : a.mDt ≠ 0 → base % 2 ^ w.toBits = a.mT0 → deadline ≤ base + a.mDt →
      a.mSkipOverflows ≠ 0 → base ≤ a.now w → Pending w a deadline
  /-- `AlarmFrom` is due on the way. -/
  | half (base due : Nat) : a.mDt ≠ 0 → base % 2 ^ w.toBits = a.mT0 → deadline ≤ base + a.mDt →
      a.mSkipOverflows = 0 → a.alarmFrom = some due → base * 2 ^ w.shift ≤ due →
      Pending w a deadline

structure Good (w : Widths) (s : State) : Prop where
  clock : Clock w s.impl
  dt : s.impl.mDt < 2 ^ w.toBits
  stopped : s.started = none → s.impl.alarmFrom = none ∧ s.impl.mSkipOverflows = 0
  started : ∀ deadline, s.started = some deadline → Pending w s.impl deadline

theorem le_left (base : Nat) (hle : base ≤ a.now w) :
    base + a.mDt ≤ a.now w + left w a base := by
  have hmod := Nat.mod_le (a.now w - base) (2 ^ w.toBits)
  rw [left]
  omega

/-- **`set_alarm`** leads the alarm to its deadline. -/
theorem Clock.pending (h : Clock w a) (hbase : base % 2 ^ w.toBits = a.mT0) (hle : base ≤ a.now w)
    (hdeadline : deadline ≤ base + a.mDt) : Pending w (TransformAlarmCounterC.setAlarm w a) deadline ∧
    Clock w (TransformAlarmCounterC.setAlarm w a) ∧
    (TransformAlarmCounterC.setAlarm w a).mDt ≤ a.mDt := by
  have hleft := le_left base hle
  have hset := h.setAlarm hbase hle
  generalize TransformAlarmCounterC.setAlarm w a = t at hset
  cases hset with
  | near mT0 _ =>
    exact ⟨.due _ rfl rfl rfl (Nat.mul_le_mul_right _ (Nat.le_trans hdeadline hleft)),
      ⟨h.upper, h.le, h.ge⟩, Nat.zero_le _⟩
  | half hmin _ =>
    refine ⟨.half (a.now w + w.maxDelay) _ (Nat.sub_ne_zero_of_lt hmin) rfl ?_ rfl rfl
      (Nat.le_refl _), ⟨h.upper, h.le, h.ge⟩, Nat.le_trans (Nat.sub_le _ _) (Nat.sub_le _ _)⟩
    change deadline ≤ a.now w + w.maxDelay + (left w a base - w.maxDelay)
    omega
  | far skip hfar hne =>
    have hdt : a.mDt ≠ 0 := by
      rintro hzero
      rw [left, hzero, Nat.zero_sub] at hfar
      exact Nat.not_lt_zero _ hfar
    exact ⟨.skips base hdt hbase hdeadline hne hle, ⟨h.upper, h.le, h.ge⟩, Nat.le_refl _⟩

/-! ## The steps -/

/-- No `stop` finds overflows to be skipped. -/
def Fits (s : State) : Event → Prop
  | .stop => s.impl.mSkipOverflows = 0
  | _ => True

instance (s : State) : (e : Event) → Decidable (Fits s e)
  | .stop => inferInstanceAs (Decidable (_ = _))
  | .elapse _ | .overflow | .overflowDone | .fromFired | .startAt .. =>
    inferInstanceAs (Decidable True)

theorem good_boot (w : Widths) : Good w boot where
  clock :=
    { upper := (Nat.zero_mod _).symm
      le := Nat.zero_le _
      ge := Nat.le_trans (Nat.le_of_eq (Nat.zero_div _)) (Nat.zero_le _) }
  dt := Nat.two_pow_pos _
  stopped _ := ⟨rfl, rfl⟩
  started := nofun

/-- The alarm does not look at the time. -/
theorem Pending.elapse (h : Pending w a deadline) (ticks rounds mUpper : Nat) (handling : Bool) :
    Pending w { a with ticks := a.ticks + ticks, rounds, mUpper, handling } deadline := by
  have hnow : a.now w ≤ ({ a with ticks := a.ticks + ticks, rounds, mUpper, handling } : Alarm).now w :=
    Nat.div_le_div_right (Nat.le_add_right _ _)
  cases h with
  | due due h₁ h₂ h₃ h₄ => exact .due due h₁ h₂ h₃ h₄
  | skips base h₁ h₂ h₃ h₄ h₅ => exact .skips base h₁ h₂ h₃ h₄ (Nat.le_trans h₅ hnow)
  | half base due h₁ h₂ h₃ h₄ h₅ h₆ => exact .half base due h₁ h₂ h₃ h₄ h₅ h₆

theorem Good.elapse (h : Good w s) {ticks : Nat}
    (hle : (s.impl.ticks + ticks) / 2 ^ w.fromBits ≤ s.impl.rounds + 1) :
    Good w ⟨{ s.impl with ticks := s.impl.ticks + ticks }, s.started⟩ where
  clock :=
    { upper := h.clock.upper
      le := Nat.le_trans h.clock.le (Nat.div_le_div_right (Nat.le_add_right _ _))
      ge := hle }
  dt := h.dt
  stopped := h.stopped
  started deadline hs := (h.started deadline hs).elapse ticks _ _ _

theorem Good.overflow (h : Good w s) (hpending : isOverflowPending w s.impl = true) :
    Good w ⟨overflow w s.impl, s.started⟩ where
  clock :=
    { upper := by
        change (s.impl.mUpper + 1) % _ = (s.impl.rounds + 1) % _
        rw [h.clock.upper, Nat.mod_add_mod]
      le := Nat.succ_le_of_lt (of_decide_eq_true hpending)
      ge := Nat.le_succ_of_le h.clock.ge }
  dt := h.dt
  stopped := h.stopped
  started deadline hs := (h.started deadline hs).elapse 0 _ _ _

/-- A start of the alarm, or a look at where it stands. -/
theorem Clock.good (h : Clock w a) (hdt : a.mDt < 2 ^ w.toBits)
    (hbase : base % 2 ^ w.toBits = a.mT0) (hle : base ≤ a.now w)
    (hdeadline : deadline ≤ base + a.mDt) :
    Good w ⟨TransformAlarmCounterC.setAlarm w a, some deadline⟩ := by
  obtain ⟨hpending, hclock, hdt'⟩ := h.pending hbase hle hdeadline
  refine ⟨hclock, Nat.lt_of_le_of_lt hdt' hdt, nofun, fun d hd => ?_⟩
  obtain rfl := Option.some.inj hd
  exact hpending

theorem Good.overflowDone (h : Good w s) : Good w ⟨overflowDone w s.impl, s.started⟩ := by
  obtain ⟨a, started⟩ := s
  have hclock : Clock w a := h.clock
  have hsame : Good w ⟨{ a with handling := false }, started⟩ :=
    ⟨⟨hclock.upper, hclock.le, hclock.ge⟩, h.dt, h.stopped,
      fun d hd => (h.started d hd).elapse 0 _ _ _⟩
  unfold TransformAlarmCounterC.overflowDone
  dsimp only
  split
  · rename_i hne
    cases started with
    | none => exact absurd (h.stopped rfl).2 hne
    | some deadline =>
      cases h.started deadline rfl with
      | due _ _ hzero => exact absurd hzero hne
      | half _ _ _ _ _ hzero => exact absurd hzero hne
      | skips base hdt hbase hdeadline _ hle =>
        split
        · exact Clock.good (a := { a with
              handling := false, mSkipOverflows := a.mSkipOverflows - 1 })
            ⟨hclock.upper, hclock.le, hclock.ge⟩ h.dt hbase hle hdeadline
        · rename_i hmore
          refine ⟨⟨hclock.upper, hclock.le, hclock.ge⟩, h.dt, nofun, fun d hd => ?_⟩
          obtain rfl := Option.some.inj hd
          exact .skips base hdt hbase hdeadline hmore hle
  · exact hsame

/-- `AlarmFrom` is not early. -/
theorem now_of_due {due : Nat} (h : base * 2 ^ w.shift ≤ due) (hdue : due ≤ a.ticks) :
    base ≤ a.now w :=
  (Nat.le_div_iff_mul_le (Nat.two_pow_pos _)).2 (Nat.le_trans h hdue)

/-- Where `Alarm.fired` is signalled, the alarm is started and due; else it goes on to its deadline. -/
theorem Good.fromFired (h : Good w s)
    (hdue : s.impl.alarmFrom.any (fun due => due ≤ s.impl.ticks) = true) :
    ∃ deadline, s.started = some deadline ∧
      ((fromFired w s.impl).1 = true → deadline ≤ s.impl.now w) ∧
      Good w ⟨(fromFired w s.impl).2, if (fromFired w s.impl).1 then none else some deadline⟩ := by
  obtain ⟨a, started⟩ := s
  have hclock : Clock w a := h.clock
  have hclock' : Clock w { a with alarmFrom := none } := ⟨hclock.upper, hclock.le, hclock.ge⟩
  cases started with
  | none =>
    have hnone : a.alarmFrom = none := (h.stopped rfl).1
    change a.alarmFrom.any _ = true at hdue
    rw [hnone] at hdue
    cases hdue
  | some deadline =>
    refine ⟨deadline, rfl, ?_⟩
    have hrest : a.mDt ≠ 0 → ∀ base, base % 2 ^ w.toBits = a.mT0 → base ≤ a.now w →
        deadline ≤ base + a.mDt →
        ((TransformAlarmCounterC.fromFired w a).1 = true → deadline ≤ a.now w) ∧
        Good w ⟨(TransformAlarmCounterC.fromFired w a).2,
          if (TransformAlarmCounterC.fromFired w a).1 then none else some deadline⟩ := by
      intro hdt base hbase hle hdeadline
      have hfired : TransformAlarmCounterC.fromFired w a =
          (false, setAlarm w { a with alarmFrom := none }) := if_neg hdt
      rw [hfired]
      exact ⟨nofun, hclock'.good h.dt hbase hle hdeadline⟩
    cases h.started deadline rfl with
    | due due hdt hskip hfrom hdeadline =>
      have hfired : TransformAlarmCounterC.fromFired w a = (true, { a with alarmFrom := none }) :=
        if_pos hdt
      have hle : due ≤ a.ticks := by
        have hfrom : a.alarmFrom = some due := hfrom
        change a.alarmFrom.any _ = true at hdue
        rw [hfrom] at hdue
        exact of_decide_eq_true hdue
      refine ⟨fun _ => now_of_due hdeadline hle, ?_⟩
      rw [hfired]
      exact ⟨hclock', h.dt, fun _ => ⟨rfl, hskip⟩, nofun⟩
    | skips base hdt hbase hdeadline _ hle => exact hrest hdt base hbase hle hdeadline
    | half base due hdt hbase hdeadline _ hfrom hway =>
      have hle : due ≤ a.ticks := by
        have hfrom : a.alarmFrom = some due := hfrom
        change a.alarmFrom.any _ = true at hdue
        rw [hfrom] at hdue
        exact of_decide_eq_true hdue
      exact hrest hdt base hbase (now_of_due hway hle) hdeadline

theorem Good.step (h : Good w s) (hfit : Fits s e) (hst : (machine w).step s e = some s') :
    Good w s' := by
  cases e with
  | elapse ticks =>
    simp only [machine, TransformAlarmCounterC.step] at hst
    split at hst
    · rename_i hle
      obtain rfl := Option.some.inj hst
      exact h.elapse hle
    · cases hst
  | overflow =>
    simp only [machine, TransformAlarmCounterC.step] at hst
    split at hst
    · rename_i hpending
      obtain rfl := Option.some.inj hst
      exact h.overflow hpending.1
    · cases hst
  | overflowDone =>
    simp only [machine, TransformAlarmCounterC.step] at hst
    split at hst
    · obtain rfl := Option.some.inj hst
      exact h.overflowDone
    · cases hst
  | fromFired =>
    simp only [machine, TransformAlarmCounterC.step] at hst
    split at hst
    · rename_i hdue
      obtain rfl := Option.some.inj hst
      obtain ⟨deadline, hstarted, -, hgood⟩ := h.fromFired hdue.1
      rw [hstarted]
      exact hgood
    · cases hst
  | startAt t0 dt =>
    simp only [machine, TransformAlarmCounterC.step] at hst
    split at hst
    · rename_i hargs
      obtain rfl := Option.some.inj hst
      exact Clock.good (a := { s.impl with mT0 := t0 % 2 ^ w.toBits, mDt := dt })
        ⟨h.clock.upper, h.clock.le, h.clock.ge⟩ hargs.2 rfl hargs.1 (Nat.le_refl _)
    · cases hst
  | stop =>
    obtain rfl := Option.some.inj hst
    exact ⟨⟨h.clock.upper, h.clock.le, h.clock.ge⟩, h.dt, fun _ => ⟨rfl, hfit⟩, nofun⟩

end TransformAlarmCounterC
