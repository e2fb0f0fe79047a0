import Backip.Timer.Proof.TransformAlarm
import Mathlib

/-!
# Transformed alarms obey `startAt` and `stop`

From a look at a started alarm (`Look`) the events of the counter and of `AlarmFrom` lead to its
`fired`: at once (`Look.served_near`), over half a round (`Look.served_half`), or over rounds of the
counter (`Look.served_far`). Where `MAX_DELAY * 2 * 256` fits into the type, rounds bring the
deadline nearer; where it does not, 255 rounds are one round less than rounds of the widened
counter, and take the alarm back by one.

* `alarm_obeys`: `Alarm.fired` is signalled once for a `startAt` and not early, a started alarm leads
  to it, and a stopped alarm does not run, where no `stop` finds overflows to be skipped (`Fits`).
-/

set_option autoImplicit false

namespace TransformAlarmCounterC

variable {w : Widths} {a a' : Alarm} {s : State} {base deadline due : Nat} {started : Option Nat}

/-- The counter and `AlarmFrom` lead to the alarm's `fired`. -/
def Served (w : Widths) (s : State) : Prop :=
  (machine w).Leads (fun e => e.ofSource = true) (fun s => s.started = none) s

/-- No event is left over. -/
structure Calm (w : Widths) (a : Alarm) : Prop where
  clock : Clock w a
  idle : a.handling = false
  rounds : a.ticks / 2 ^ w.fromBits = a.rounds

/-- The state at the next overflow. -/
def nextRound (w : Widths) (a : Alarm) : Alarm :=
  { a with
    ticks := (a.rounds + 1) * 2 ^ w.fromBits, rounds := a.rounds + 1,
    mUpper := (a.mUpper + 1) % 2 ^ w.upperBits }

theorem Calm.next (h : Calm w a) : Calm w (nextRound w a) := by
  have hdiv : (a.rounds + 1) * 2 ^ w.fromBits / 2 ^ w.fromBits = a.rounds + 1 :=
    Nat.mul_div_cancel _ (Nat.two_pow_pos _)
  refine ⟨⟨?_, Nat.le_of_eq hdiv.symm, Nat.le_trans (Nat.le_of_eq hdiv) (Nat.le_succ _)⟩, h.idle, hdiv⟩
  change (a.mUpper + 1) % _ = (a.rounds + 1) % _
  rw [h.clock.upper, Nat.mod_add_mod]

/-- The ticks before the next overflow. -/
theorem Calm.ticks_lt (h : Calm w a) : a.ticks < (a.rounds + 1) * 2 ^ w.fromBits := by
  rw [← h.rounds]
  exact Nat.lt_of_div_lt_div (c := 2 ^ w.fromBits)
    (by rw [Nat.mul_div_cancel _ (Nat.two_pow_pos _)]; exact Nat.lt_succ_self _)

/-- Time goes by up to the next overflow, which is handled. -/
theorem Calm.round (h : Calm w a)
    (hserved : Served w ⟨overflowDone w { nextRound w a with handling := true }, started⟩) :
    Served w ⟨a, started⟩ := by
  have hlt := h.ticks_lt
  have hdiv : (a.rounds + 1) * 2 ^ w.fromBits / 2 ^ w.fromBits = a.rounds + 1 :=
    Nat.mul_div_cancel _ (Nat.two_pow_pos _)
  have hsum : a.ticks + ((a.rounds + 1) * 2 ^ w.fromBits - a.ticks) =
      (a.rounds + 1) * 2 ^ w.fromBits := Nat.add_sub_cancel' (Nat.le_of_lt hlt)
  have helapse : (machine w).step ⟨a, started⟩
      (.elapse ((a.rounds + 1) * 2 ^ w.fromBits - a.ticks)) =
      some ⟨{ a with ticks := (a.rounds + 1) * 2 ^ w.fromBits }, started⟩ := by
    simp only [machine, step, hsum, hdiv, Nat.le_refl, if_true]
  have hoverflow : (machine w).step
      ⟨{ a with ticks := (a.rounds + 1) * 2 ^ w.fromBits }, started⟩ .overflow =
      some ⟨{ nextRound w a with handling := true }, started⟩ := by
    refine if_pos ⟨decide_eq_true ?_, h.idle⟩
    change a.rounds < (a.rounds + 1) * 2 ^ w.fromBits / 2 ^ w.fromBits
    rw [hdiv]
    exact Nat.lt_succ_self _
  have hdone : (machine w).step ⟨{ nextRound w a with handling := true }, started⟩ .overflowDone =
      some ⟨overflowDone w { nextRound w a with handling := true }, started⟩ := by
    simp only [machine, step, if_true]
  exact .step rfl helapse (.step rfl hoverflow (.step rfl hdone hserved))

/-! ## `AlarmFrom` is due -/

theorem Calm.handled (h : Calm w a) :
    ({ ({ nextRound w a with handling := true } : Alarm) with handling := false } : Alarm) =
      nextRound w a := by
  rw [nextRound, h.idle]

theorem Calm.overflowDone_zero (h : Calm w a) (hskip : a.mSkipOverflows = 0) :
    overflowDone w { nextRound w a with handling := true } = nextRound w a := by
  have hskip : (nextRound w a).mSkipOverflows = 0 := hskip
  unfold overflowDone
  dsimp only
  rw [if_neg (not_not_intro hskip)]
  exact h.handled

/-- Time goes by until `AlarmFrom` is due. -/
theorem Calm.reach (h : Calm w a) (hskip : a.mSkipOverflows = 0) (hle : a.ticks ≤ due)
    (hserved : ∀ rounds mUpper, Calm w { a with ticks := due, rounds, mUpper } →
      Served w ⟨{ a with ticks := due, rounds, mUpper }, started⟩) :
    Served w ⟨a, started⟩ := by
  obtain ⟨k, hk⟩ := Nat.exists_eq_add_of_le (Nat.div_le_div_right (c := 2 ^ w.fromBits) hle)
  rw [h.rounds] at hk
  induction k generalizing a with
  | zero =>
    have hsum : a.ticks + (due - a.ticks) = due := Nat.add_sub_cancel' hle
    have helapse : (machine w).step ⟨a, started⟩ (.elapse (due - a.ticks)) =
        some ⟨{ a with ticks := due }, started⟩ := by
      simp only [machine, step, hsum, hk, Nat.add_zero, Nat.le_succ, if_true]
    refine .step rfl helapse (hserved a.rounds a.mUpper ⟨⟨h.clock.upper, ?_, ?_⟩, h.idle, hk⟩)
    · exact Nat.le_of_eq hk.symm
    · exact Nat.le_trans (Nat.le_of_eq hk) (Nat.le_succ _)
  | succ k ih =>
    refine h.round ?_
    rw [h.overflowDone_zero hskip]
    refine ih h.next hskip ?_ (fun rounds mUpper => hserved rounds mUpper) ?_
    · refine Nat.le_trans (Nat.mul_le_mul_right _ ?_) (Nat.div_mul_le_self due _)
      rw [hk, Nat.add_comm k, ← Nat.add_assoc]
      exact Nat.le_add_right _ _
    · rw [hk, Nat.add_comm k, ← Nat.add_assoc]
      rfl

/-- `AlarmFrom` fires. -/
theorem Calm.fire (h : Calm w a) (hfrom : a.alarmFrom = some due) (hdue : due ≤ a.ticks) :
    (machine w).step ⟨a, started⟩ .fromFired =
      some ⟨(fromFired w a).2, if (fromFired w a).1 then none else started⟩ := by
  refine if_pos ⟨?_, h.idle⟩
  change a.alarmFrom.any _ = true
  rw [hfrom]
  exact decide_eq_true hdue

/-- The alarm fires at its deadline. -/
theorem Calm.served_due (h : Calm w a) (hdt : a.mDt = 0) (hskip : a.mSkipOverflows = 0)
    (hfrom : a.alarmFrom = some due) : Served w ⟨a, started⟩ := by
  have hfire : ∀ a : Alarm, Calm w a → a.mDt = 0 → a.alarmFrom = some due → due ≤ a.ticks →
      Served w ⟨a, started⟩ := by
    intro a h hdt hfrom hdue
    have hfired : fromFired w a = (true, { a with alarmFrom := none }) := if_pos hdt
    refine .step (e := .fromFired) rfl (h.fire hfrom hdue) (.here ?_)
    rw [hfired]
    rfl
  rcases Nat.le_total due a.ticks with hpast | hnext
  · exact hfire a h hdt hfrom hpast
  · exact h.reach hskip hnext fun _ _ h' => hfire _ h' hdt hfrom (Nat.le_refl _)

/-! ## A look at the alarm -/

/-- The readings of a look: it is not early, and the delay fits into its type. -/
structure Look (w : Widths) (a : Alarm) (t0 : Nat) : Prop where
  calm : Calm w a
  shown : t0 % 2 ^ w.toBits = a.mT0
  past : t0 ≤ a.now w
  dt : a.mDt < 2 ^ w.toBits

theorem Look.rearmed (h : Look w a base) : Rearmed w a base (setAlarm w a) :=
  h.calm.clock.setAlarm h.shown h.past

/-- The deadline is near. -/
theorem Look.served_near (h : Look w a base) (hnear : left w a base ≤ w.maxDelay) :
    Served w ⟨setAlarm w a, started⟩ := by
  have hset := h.rearmed
  generalize setAlarm w a = t at hset
  cases hset with
  | near mT0 _ =>
    exact Calm.served_due (a := { a with
        mT0, mDt := 0, mSkipOverflows := 0,
        alarmFrom := some ((a.now w + left w a base) * 2 ^ w.shift) })
      ⟨⟨h.calm.clock.upper, h.calm.clock.le, h.calm.clock.ge⟩, h.calm.idle, h.calm.rounds⟩ rfl rfl rfl
  | half hmin _ => exact absurd hmin (Nat.not_lt_of_le hnear)
  | far skip hfar =>
    have hpos := w.maxDelay_pos
    have hperiod := w.period_eq
    omega

theorem ticks_le (w : Widths) (a : Alarm) {delay : Nat} (hpos : 0 < delay) :
    a.ticks ≤ (a.now w + delay) * 2 ^ w.shift := by
  have hlt : a.ticks < (a.now w + 1) * 2 ^ w.shift :=
    Nat.lt_mul_of_div_lt (Nat.lt_succ_self _) (Nat.two_pow_pos _)
  exact Nat.le_of_lt (Nat.lt_of_lt_of_le hlt (Nat.mul_le_mul_right _ (Nat.add_le_add_left hpos _)))

/-- The deadline is at most a round away. -/
theorem Look.served_half (h : Look w a base) (hhalf : left w a base ≤ w.period) :
    Served w ⟨setAlarm w a, started⟩ := by
  by_cases hnear : left w a base ≤ w.maxDelay
  · exact h.served_near hnear
  · have hset := h.rearmed
    generalize setAlarm w a = t at hset
    cases hset with
    | near mT0 hle => exact absurd hle hnear
    | half hmin _ =>
      have hdt : left w a base - w.maxDelay ≠ 0 := Nat.sub_ne_zero_of_lt hmin
      refine Calm.reach (a := { a with
          mT0 := (a.now w + w.maxDelay) % 2 ^ w.toBits, mDt := left w a base - w.maxDelay,
          mSkipOverflows := 0, alarmFrom := some ((a.now w + w.maxDelay) * 2 ^ w.shift) })
        ⟨⟨h.calm.clock.upper, h.calm.clock.le, h.calm.clock.ge⟩, h.calm.idle, h.calm.rounds⟩ rfl
        (ticks_le w a w.maxDelay_pos) fun rounds mUpper hcalm => ?_
      refine .step (e := .fromFired) rfl (hcalm.fire rfl (Nat.le_refl _)) ?_
      have hfired : ∀ b : Alarm, b.mDt ≠ 0 →
          fromFired w b = (false, setAlarm w { b with alarmFrom := none }) := fun _ hb => if_neg hb
      rw [hfired _ hdt]
      have hlook : Look w { a with
          mT0 := (a.now w + w.maxDelay) % 2 ^ w.toBits, mDt := left w a base - w.maxDelay,
          mSkipOverflows := 0, alarmFrom := none,
          ticks := (a.now w + w.maxDelay) * 2 ^ w.shift, rounds, mUpper }
          (a.now w + w.maxDelay) := by
        refine ⟨⟨⟨hcalm.clock.upper, hcalm.clock.le, hcalm.clock.ge⟩, hcalm.idle, hcalm.rounds⟩,
          rfl, ?_, ?_⟩
        · exact Nat.le_of_eq (Nat.mul_div_cancel _ (Nat.two_pow_pos _)).symm
        · exact Nat.lt_of_le_of_lt (Nat.le_trans (Nat.sub_le _ _) (Nat.sub_le _ _)) h.dt
      refine hlook.served_near (Nat.le_trans (Nat.sub_le _ _) ?_)
      have hperiod := w.period_eq
      change left w a base - w.maxDelay ≤ w.maxDelay
      omega
    | far skip hfar => exact absurd hfar (Nat.not_lt_of_le hhalf)

/-! ## Rounds of the counter -/

/-- The state in which overflows have been counted down. -/
def skipped (w : Widths) (a : Alarm) (skip mUpper : Nat) : Alarm :=
  { a with
    ticks := (a.rounds + skip) * 2 ^ w.fromBits, rounds := a.rounds + skip, mUpper,
    mSkipOverflows := 0 }

/-- The overflows are counted down, then the alarm is looked at. -/
theorem Calm.cycle (h : Calm w a) {k : Nat} (hskip : a.mSkipOverflows = k + 1)
    (hserved : ∀ mUpper, Calm w (skipped w a (k + 1) mUpper) →
      Served w ⟨setAlarm w (skipped w a (k + 1) mUpper), started⟩) :
    Served w ⟨a, started⟩ := by
  induction k generalizing a with
  | zero =>
    refine h.round ?_
    have hdone : overflowDone w { nextRound w a with handling := true } =
        setAlarm w (skipped w a 1 ((a.mUpper + 1) % 2 ^ w.upperBits)) := by
      unfold overflowDone
      dsimp only
      have hone : (nextRound w a).mSkipOverflows = 1 := hskip
      have hidle : false = a.handling := h.idle.symm
      rw [hone, if_pos (by decide), if_pos rfl]
      rw [hidle]
      rfl
    rw [hdone]
    refine hserved _ ⟨⟨h.next.clock.upper, h.next.clock.le, h.next.clock.ge⟩, h.idle, h.next.rounds⟩
  | succ k ih =>
    refine h.round ?_
    have hdone : overflowDone w { nextRound w a with handling := true } =
        { nextRound w a with mSkipOverflows := k + 1 } := by
      unfold overflowDone
      dsimp only
      have hmore : (nextRound w a).mSkipOverflows = k + 1 + 1 := hskip
      have hidle : false = (nextRound w a).handling := h.idle.symm
      rw [hmore, if_pos (Nat.succ_ne_zero _), Nat.add_sub_cancel, if_neg (Nat.succ_ne_zero _), hidle]
    rw [hdone]
    refine ih (a := { nextRound w a with mSkipOverflows := k + 1 })
      ⟨⟨h.next.clock.upper, h.next.clock.le, h.next.clock.ge⟩, h.idle, h.next.rounds⟩ rfl ?_
    have hsame : ∀ mUpper, skipped w { nextRound w a with mSkipOverflows := k + 1 } (k + 1) mUpper =
        skipped w a (k + 1 + 1) mUpper := by
      intro mUpper
      have hsum : a.rounds + 1 + (k + 1) = a.rounds + (k + 1 + 1) := by omega
      change skipped w { nextRound w a with mSkipOverflows := k + 1 } (k + 1) mUpper = _
      unfold skipped nextRound
      dsimp only
      rw [hsum]
    intro mUpper
    rw [hsame]
    exact hserved mUpper

theorem skipped_now (w : Widths) (a : Alarm) (skip mUpper : Nat) :
    (skipped w a skip mUpper).now w = (a.rounds + skip) * w.period := by
  change (a.rounds + skip) * 2 ^ w.fromBits / 2 ^ w.shift = _
  rw [w.from_eq, ← Nat.mul_assoc, Nat.mul_div_cancel _ (Nat.two_pow_pos _)]

theorem Calm.now_ge (h : Calm w a) : a.rounds * w.period ≤ a.now w := by
  rw [now_eq, h.rounds, Nat.mul_comm]
  exact Nat.le_add_right _ _

theorem Calm.now_lt (h : Calm w a) : a.now w < (a.rounds + 1) * w.period := by
  rw [now_eq, h.rounds, Nat.succ_mul, Nat.mul_comm w.period]
  exact Nat.add_lt_add_left (fromGet_lt w a) _

theorem Calm.now_lt_skipped (h : Calm w a) {skip : Nat} (hpos : 0 < skip) (mUpper : Nat) :
    a.now w < (skipped w a skip mUpper).now w := by
  rw [skipped_now]
  exact Nat.lt_of_lt_of_le h.now_lt (Nat.mul_le_mul_right _ (Nat.add_le_add_left hpos _))

theorem Look.later (h : Look w a base) {skip mUpper : Nat} (hpos : 0 < skip)
    (hcalm : Calm w (skipped w a skip mUpper)) :
    Look w (skipped w a skip mUpper) base where
  calm := hcalm
  shown := h.shown
  past := Nat.le_trans h.past (Nat.le_of_lt (h.calm.now_lt_skipped hpos mUpper))
  dt := h.dt

/-- The alarm is far away: overflows are counted down up to the next look. -/
theorem Look.served_far (h : Look w a base) (hfar : w.period < left w a base)
    (hserved : ∀ skip mUpper, 0 < skip →
      skip = 255 ∧ w.period * 256 % 2 ^ w.toBits ≤ left w a base ∨
      skip = left w a base / w.period ∧ left w a base < w.period * 256 % 2 ^ w.toBits →
      Look w (skipped w a skip mUpper) base →
      Served w ⟨setAlarm w (skipped w a skip mUpper), started⟩) :
    Served w ⟨setAlarm w a, started⟩ := by
  have hset := h.rearmed
  generalize setAlarm w a = t at hset
  have hperiod := w.period_eq
  cases hset with
  | near _ hle => omega
  | half _ hle => omega
  | far skip _ hne hskip =>
    obtain ⟨k, rfl⟩ := Nat.exists_eq_succ_of_ne_zero hne
    refine Calm.cycle (a := { a with mSkipOverflows := k + 1 })
      ⟨⟨h.calm.clock.upper, h.calm.clock.le, h.calm.clock.ge⟩, h.calm.idle, h.calm.rounds⟩ rfl
      fun mUpper hcalm => ?_
    exact hserved (k + 1) mUpper (Nat.succ_pos k) hskip (h.later (Nat.succ_pos k) hcalm)

/-- The rounds are no more than the delay: each look is nearer to the deadline. -/
theorem Look.served_fits (hfits : w.period * 256 % 2 ^ w.toBits = w.period * 256)
    (h : Look w a base) : Served w ⟨setAlarm w a, started⟩ := by
  induction hn : left w a base using Nat.strongRecOn generalizing a with
  | ind n ih =>
    subst hn
    by_cases hhalf : left w a base ≤ w.period
    · exact h.served_half hhalf
    · refine h.served_far (Nat.lt_of_not_le hhalf) fun skip mUpper hpos hskip hlook => ?_
      refine ih _ ?_ hlook rfl
      rw [hfits] at hskip
      have hle : skip * w.period ≤ left w a base := by
        rcases hskip with ⟨rfl, hmany⟩ | ⟨rfl, -⟩
        · omega
        · exact Nat.div_mul_le_self _ _
      have hnow := h.calm.now_lt_skipped hpos mUpper
      have hge := h.calm.now_ge
      rw [skipped_now, Nat.add_mul] at hnow
      obtain ⟨δ, hδ⟩ := Nat.exists_eq_add_of_lt hnow
      have hpast := h.past
      have hdt := h.dt
      have hsum : (skipped w a skip mUpper).now w - base = a.now w - base + (δ + 1) := by
        rw [skipped_now, Nat.add_mul]
        omega
      have hlt : (a.now w - base) % 2 ^ w.toBits + (δ + 1) < 2 ^ w.toBits := by
        rw [left] at hle
        omega
      have hmod : ((skipped w a skip mUpper).now w - base) % 2 ^ w.toBits =
          (a.now w - base) % 2 ^ w.toBits + (δ + 1) := by
        rw [hsum, ← Nat.mod_add_mod, Nat.mod_eq_of_lt hlt]
      change a.mDt - ((skipped w a skip mUpper).now w - base) % 2 ^ w.toBits < left w a base
      rw [hmod]
      rw [left] at hhalf ⊢
      omega

/-- 255 rounds are a round less than rounds of the widened counter. -/
theorem Look.served_wraps (hwraps : w.period * 256 % 2 ^ w.toBits = 0) (h : Look w a base)
    (hround : a.now w = a.rounds * w.period) : Served w ⟨setAlarm w a, started⟩ := by
  induction hn : (a.now w - base) % 2 ^ w.toBits using Nat.strongRecOn generalizing a with
  | ind n ih =>
    by_cases hhalf : left w a base ≤ w.period
    · exact h.served_half hhalf
    · refine h.served_far (Nat.lt_of_not_le hhalf) fun skip mUpper hpos hskip hlook => ?_
      obtain ⟨rfl, -⟩ : skip = 255 ∧ _ := by
        rw [hwraps] at hskip
        rcases hskip with hskip | ⟨-, hlt⟩
        · exact hskip
        · exact absurd hlt (Nat.not_lt_zero _)
      obtain ⟨m, hm⟩ := Nat.dvd_of_mod_eq_zero hwraps
      have hpast := h.past
      have hdiv := Nat.div_add_mod (a.now w - base) (2 ^ w.toBits)
      have hperiod := w.period_lt
      have hpos : 0 < w.period := Nat.two_pow_pos _
      rw [hn] at hdiv
      have hsum : (skipped w a 255 mUpper).now w - base = a.now w - base + 255 * w.period := by
        rw [skipped_now, Nat.add_mul, ← hround]
        omega
      by_cases hback : w.period ≤ n
      · refine ih (n - w.period) (Nat.sub_lt_of_pos_le hpos hback) hlook (skipped_now w a _ _) ?_
        have heq : (skipped w a 255 mUpper).now w - base =
            2 ^ w.toBits * ((a.now w - base) / 2 ^ w.toBits + m) + (n - w.period) := by
          rw [hsum, Nat.mul_add]
          omega
        have hlt : n < 2 ^ w.toBits := hn ▸ Nat.mod_lt _ (Nat.two_pow_pos _)
        rw [heq, Nat.mul_add_mod]
        exact Nat.mod_eq_of_lt (Nat.lt_of_le_of_lt (Nat.sub_le _ _) hlt)
      · refine hlook.served_half ?_
        obtain ⟨k, rfl⟩ : ∃ k, m = k + 1 := Nat.exists_eq_succ_of_ne_zero fun hzero => by
          rw [hzero, Nat.mul_zero] at hm
          omega
        have heq : (skipped w a 255 mUpper).now w - base =
            2 ^ w.toBits * ((a.now w - base) / 2 ^ w.toBits + k) + (n + 2 ^ w.toBits - w.period) := by
          rw [Nat.mul_add _ k] at hm
          rw [hsum, Nat.mul_add]
          omega
        have hmod : ((skipped w a 255 mUpper).now w - base) % 2 ^ w.toBits =
            n + 2 ^ w.toBits - w.period := by
          rw [heq, Nat.mul_add_mod]
          exact Nat.mod_eq_of_lt (by omega)
        have hdt := h.dt
        change a.mDt - ((skipped w a 255 mUpper).now w - base) % 2 ^ w.toBits ≤ w.period
        rw [hmod]
        omega

/-- **A look at the alarm** leads to its `fired`. -/
theorem Look.served (h : Look w a base) : Served w ⟨setAlarm w a, started⟩ := by
  by_cases hfits : w.fromBits - w.shift + 8 < w.toBits
  · refine h.served_fits (Nat.mod_eq_of_lt ?_)
    rw [Widths.period, ← Nat.pow_add (n := 8)]
    exact Nat.pow_lt_pow_right (by decide) hfits
  · have hwraps : w.period * 256 % 2 ^ w.toBits = 0 := by
      rw [Widths.period, ← Nat.pow_add (n := 8)]
      exact Nat.mod_eq_zero_of_dvd (Nat.pow_dvd_pow 2 (Nat.le_of_not_lt hfits))
    by_cases hhalf : left w a base ≤ w.period
    · exact h.served_half hhalf
    · exact h.served_far (Nat.lt_of_not_le hhalf) fun skip mUpper _ _ hlook =>
        hlook.served_wraps hwraps (skipped_now w a skip mUpper)

/-! ## Any state -/

theorem setAlarm_frame (w : Widths) (a : Alarm) :
    (setAlarm w a).handling = a.handling ∧ (setAlarm w a).ticks = a.ticks ∧
      (setAlarm w a).rounds = a.rounds := by
  unfold setAlarm
  dsimp only
  repeat' split
  all_goals exact ⟨rfl, rfl, rfl⟩

theorem overflowDone_frame (w : Widths) (a : Alarm) :
    (overflowDone w a).handling = false ∧ (overflowDone w a).ticks = a.ticks ∧
      (overflowDone w a).rounds = a.rounds := by
  unfold overflowDone
  dsimp only
  split
  · split
    · exact setAlarm_frame w _
    · exact ⟨rfl, rfl, rfl⟩
  · exact ⟨rfl, rfl, rfl⟩

/-- The events left over are handled. -/
theorem served_of_calm (h : Good w s)
    (hcalm : ∀ a, Good w ⟨a, s.started⟩ → Calm w a → Served w ⟨a, s.started⟩) : Served w s := by
  have hidle : ∀ a, Good w ⟨a, s.started⟩ → a.handling = false → Served w ⟨a, s.started⟩ := by
    intro a hgood hhandling
    by_cases hpending : isOverflowPending w a = true
    · obtain ⟨hdone, hticks, hrounds⟩ := overflowDone_frame w (overflow w a)
      have hgood' : Good w ⟨overflowDone w (overflow w a), s.started⟩ :=
        (hgood.overflow hpending).overflowDone
      have hlt : a.rounds < a.ticks / 2 ^ w.fromBits := of_decide_eq_true hpending
      have hstep : (machine w).step ⟨overflow w a, s.started⟩ .overflowDone =
          some ⟨overflowDone w (overflow w a), s.started⟩ := rfl
      refine .step (e := .overflow) rfl (if_pos ⟨hpending, hhandling⟩)
        (.step rfl hstep (hcalm _ hgood' ⟨hgood'.clock, hdone, ?_⟩))
      rw [hticks, hrounds]
      exact Nat.le_antisymm hgood.clock.ge hlt
    · have hge : ¬a.rounds < a.ticks / 2 ^ w.fromBits := fun hlt => hpending (decide_eq_true hlt)
      exact hcalm a hgood ⟨hgood.clock, hhandling,
        Nat.le_antisymm (Nat.le_of_not_lt hge) hgood.clock.le⟩
  by_cases hhandling : s.impl.handling = true
  · exact .step (e := .overflowDone) rfl (if_pos hhandling)
      (hidle _ h.overflowDone (overflowDone_frame w s.impl).1)
  · exact hidle s.impl h (Bool.eq_false_iff.2 hhandling)

/-- **A started alarm** leads to its `fired`. -/
theorem served_of_good (h : Good w s) : Served w s := by
  obtain ⟨a, started⟩ := s
  refine served_of_calm h fun a hgood hcalm => ?_
  cases started with
  | none => exact .here rfl
  | some deadline =>
    cases hgood.started deadline rfl with
    | due due hdt hskip hfrom _ => exact hcalm.served_due hdt hskip hfrom
    | skips base _ hbase _ hskip hle =>
      obtain ⟨k, hk⟩ := Nat.exists_eq_succ_of_ne_zero hskip
      refine hcalm.cycle hk fun mUpper hcalm' => ?_
      have hlook : Look w a base := ⟨hcalm, hbase, hle, hgood.dt⟩
      exact (hlook.later (Nat.succ_pos k) hcalm').served
    | half base due hdt hbase _ hskip hfrom hway =>
      have hfire : ∀ b : Alarm, Calm w b → b.mDt = a.mDt → b.mT0 = a.mT0 →
          b.alarmFrom = some due → due ≤ b.ticks → Served w ⟨b, some deadline⟩ := by
        intro b hb hbdt hbt0 hbfrom hdue
        have hfired : fromFired w b = (false, setAlarm w { b with alarmFrom := none }) :=
          if_neg (hbdt ▸ hdt)
        refine .step (e := .fromFired) rfl (hb.fire hbfrom hdue) ?_
        rw [hfired]
        have hlook : Look w { b with alarmFrom := none } base :=
          ⟨⟨⟨hb.clock.upper, hb.clock.le, hb.clock.ge⟩, hb.idle, hb.rounds⟩, hbase.trans hbt0.symm,
            now_of_due hway hdue, hbdt ▸ hgood.dt⟩
        exact hlook.served
      rcases Nat.le_total due a.ticks with hdue | hdue
      · exact hfire a hcalm rfl rfl hfrom hdue
      · exact hcalm.reach hskip hdue fun rounds mUpper hcalm' =>
          hfire _ hcalm' rfl rfl hfrom (Nat.le_refl _)

/-! ## Runs -/

theorem Pending.isRunning (h : Pending w a deadline) : isRunning a = true := by
  cases h with
  | due due _ _ hfrom _ =>
    rw [TransformAlarmCounterC.isRunning, hfrom]
    rfl
  | skips base _ _ _ hskip _ =>
    rw [TransformAlarmCounterC.isRunning, decide_eq_true hskip, Bool.or_true]
  | half base due _ _ _ _ hfrom _ =>
    rw [TransformAlarmCounterC.isRunning, hfrom]
    rfl

theorem obeys_of_good (h : Good w s) : Obeys w s where
  fires s' hst hfired := by
    simp only [machine, step] at hst
    split at hst
    · rename_i hdue
      obtain rfl := Option.some.inj hst
      obtain ⟨deadline, hstarted, hle, -⟩ := h.fromFired hdue.1
      exact ⟨⟨deadline, hstarted, hle hfired⟩, rfl⟩
    · cases hst
  stopped hs := by
    obtain ⟨hfrom, hskip⟩ := h.stopped hs
    rw [isRunning, hfrom, hskip]
    rfl
  served hs := by
    obtain ⟨deadline, hstarted⟩ := Option.ne_none_iff_exists'.1 hs
    exact ⟨(h.started deadline hstarted).isRunning, served_of_good h []⟩

/-- **The alarms obey `startAt` and `stop`** in every state of the runs in which no `stop` finds
overflows to be skipped. -/
theorem alarm_obeys {h : List (State × Event)} (hr : (machine w).Run h s)
    (hfit : ∀ p ∈ h, Fits p.1 p.2) : Obeys w s ∧ ∀ p ∈ h, Obeys w p.1 := by
  obtain ⟨hgood, hall⟩ := hr.inv_of_steps (P := Good w) (C := fun s e => Fits s e)
    (fun s (hs : s = boot) => hs ▸ good_boot w) (fun _ _ _ hgood hfits hst => hgood.step hfits hst) hfit
  exact ⟨obeys_of_good hgood, fun p hp => obeys_of_good (hall p hp)⟩

/-- A quarter of a tick is seen in 8 bits. -/
theorem quarter_lt : 2 < 8 := by decide

/-- An 8-bit counter seen as a 16-bit one, four ticks to one. -/
def widths : Widths where
  fromBits := 8
  toBits := 16
  shift := 2
  upperBits := 16
  shift_lt := quarter_lt
  wider := by decide
  upper := by decide

/-- An alarm over more than a round, one over half a round, and a stop in between. -/
theorem alarm_obeys_fits : ∃ h s, (machine widths).Run h s ∧ s.started = some 161 ∧ Obeys widths s := by
  obtain ⟨h, s, hr, hprop⟩ := Machine.exists_run_of_exec (M := machine widths) (s := boot) rfl
    [.elapse 5, .startAt 1 200, .elapse 251, .overflow, .elapse 3, .overflowDone, .startAt 3 40,
      .stop, .elapse 100, .startAt 61 100]
    (fun h s => decide (s.started = some 161) && h.all fun p => decide (Fits p.1 p.2)) (by decide)
  rw [Bool.and_eq_true] at hprop
  have hfit : ∀ p ∈ h, Fits p.1 p.2 := fun p hp =>
    of_decide_eq_true (List.all_eq_true.1 hprop.2 p hp)
  exact ⟨h, s, hr, of_decide_eq_true hprop.1, (alarm_obeys hr hfit).1⟩

/-- A stopped alarm still waits for overflows, and fires after them. -/
theorem stop_not_obeyed : ¬∀ h s, (machine widths).Run h s → Obeys widths s := by
  intro hall
  obtain ⟨h, s, hr, hprop⟩ := Machine.exists_run_of_exec (M := machine widths) (s := boot) rfl
    [.startAt 0 200, .stop] (fun _ s => decide (s.started = none) && isRunning s.impl)
    (by decide)
  rw [Bool.and_eq_true] at hprop
  have hstopped := (hall h s hr).stopped (of_decide_eq_true hprop.1)
  rw [hprop.2] at hstopped
  cases hstopped

end TransformAlarmCounterC
