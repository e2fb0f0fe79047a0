import Backip.Timer.VirtualizeTimerC

/-!
# Virtual timers fire when they are due, and are not lost

`Tracks` ties the 32 bits of each timer to what the timer is for, and every step keeps it. From it:

* `fires_right`: a timer that fires was started, has not been stopped since, and its deadline has
  passed,
* `never_lost`: while a timer is running, it will be looked at by its deadline, in the runs where
  no scan meets the limits of a signed remaining time (`ScanFits`).
-/

set_option autoImplicit false

namespace VirtualizeTimerC

/-! ## What the bits of a timer stand for -/

/-- The timer is running as `x` says. -/
structure Timer.Runs (t : Timer) (x : Armed) (time : Nat) : Prop where
  running : t.isrunning = true
  oneShot : t.isoneshot = x.oneShot
  dt : t.dt.toNat = x.dt
  short : x.dt < 2 ^ 31
  t0 : t.t0 = .ofNat x.base
  past : x.base ≤ time
  once : x.oneShot = true → x.count = 0

structure Tracks (n : Nat) (timers : Nat → Timer) (time : Nat) (armed : Nat → Option Armed) :
    Prop where
  runs : ∀ num x, armed num = some x → num < n ∧ (timers num).Runs x time
  idle : ∀ num, armed num = none → (timers num).isrunning = false

variable {n num time now : Nat} {t : Timer} {x : Armed} {timers : Nat → Timer}
  {armed : Nat → Option Armed} {s s' : State} {e : Event}

theorem Armed.deadline_eq (x : Armed) : x.deadline = x.base + x.dt := by
  rw [deadline, base, Nat.add_mul, Nat.one_mul, Nat.add_assoc]

theorem Armed.fired_oneShot (x : Armed) (h : x.oneShot = true) : x.fired = none := if_pos h

theorem Armed.fired_periodic (x : Armed) (h : x.oneShot = false) :
    x.fired = some { x with count := x.count + 1 } :=
  if_neg (by rw [h]; nofun)

theorem elapsed_toNat {a b : Nat} (h : b ≤ a) :
    (UInt32.ofNat a - UInt32.ofNat b).toNat = (a - b) % 2 ^ 32 := by
  rw [UInt32.toNat_sub, UInt32.toNat_ofNat', UInt32.toNat_ofNat']
  omega

/-- The 32 bits never show more than what has elapsed. -/
theorem Timer.Runs.deadline_le (h : t.Runs x time) (hdue : t.due (.ofNat time) = true) :
    x.deadline ≤ time := by
  simp only [Timer.due, Bool.and_eq_true, decide_eq_true_eq, h.t0, UInt32.le_iff_toNat_le,
    elapsed_toNat h.past, h.dt] at hdue
  have hmod := Nat.mod_le (time - x.base) (2 ^ 32)
  have hpast := h.past
  rw [x.deadline_eq]
  omega

theorem Timer.Runs.remaining_eq (h : t.Runs x time) (hlate : time ≤ x.deadline + 2 ^ 31) :
    t.remaining (.ofNat time) = (x.deadline : Int) - time := by
  have hpast := h.past
  have hshort := h.short
  rw [x.deadline_eq] at hlate ⊢
  have hmod : (time - x.base) % 2 ^ 32 = time - x.base := Nat.mod_eq_of_lt (by omega)
  have hbits : (t.dt - (UInt32.ofNat time - t.t0)).toBitVec.toNat =
      (2 ^ 32 - (time - x.base) + x.dt) % 2 ^ 32 := by
    rw [UInt32.toNat_toBitVec, UInt32.toNat_sub, h.t0, elapsed_toNat h.past, hmod, h.dt]
  rw [Timer.remaining, BitVec.toInt_eq_toNat_cond, hbits]
  split <;> omega

theorem Timer.Runs.fire (h : t.Runs x time) (hdue : t.due (.ofNat time) = true) :
    match x.fired with
    | some y => t.fire.Runs y time
    | none => t.fire.isrunning = false := by
  cases hone : x.oneShot with
  | true =>
    have hstop : t.fire = { t with isrunning := false } := if_pos (h.oneShot.trans hone)
    rw [x.fired_oneShot hone, hstop]
  | false =>
    have hnext : t.fire = { t with t0 := t.t0 + t.dt } :=
      if_neg (by rw [h.oneShot, hone]; nofun)
    rw [x.fired_periodic hone, hnext]
    refine ⟨h.running, h.oneShot, h.dt, h.short, ?_, h.deadline_le hdue,
      fun hyes => absurd (hone.symm.trans hyes) nofun⟩
    apply UInt32.toNat.inj
    have hbase : ({ x with count := x.count + 1 } : Armed).base = x.base + x.dt := x.deadline_eq
    rw [hbase, UInt32.toNat_add, h.t0, UInt32.toNat_ofNat', UInt32.toNat_ofNat', h.dt]
    omega

theorem Tracks.later (h : Tracks n timers time armed) (hle : time ≤ now) :
    Tracks n timers now armed :=
  ⟨fun num x hx =>
    have ⟨hnum, hr⟩ := h.runs num x hx
    ⟨hnum, hr.running, hr.oneShot, hr.dt, hr.short, hr.t0, Nat.le_trans hr.past hle, hr.once⟩,
    h.idle⟩

theorem Tracks.set {y : Option Armed} (h : Tracks n timers time armed)
    (hy : match y with
      | some x => num < n ∧ t.Runs x time
      | none => t.isrunning = false) :
    Tracks n (Function.update timers num t) time (Function.update armed num y) := by
  constructor
  · intro i x hx
    by_cases hi : i = num
    · subst hi
      rw [Function.update_self] at hx ⊢
      subst hx
      exact hy
    · rw [Function.update_of_ne hi] at hx ⊢
      exact h.runs i x hx
  · intro i hi
    by_cases hin : i = num
    · subst hin
      rw [Function.update_self] at hi ⊢
      subst hi
      exact hy
    · rw [Function.update_of_ne hin] at hi ⊢
      exact h.idle i hi

/-- What the timer that is running is for. -/
theorem Tracks.armed_of_running (h : Tracks n timers time armed)
    (hrun : (timers num).isrunning = true) : ∃ x, armed num = some x := by
  cases hx : armed num with
  | none => rw [h.idle num hx] at hrun; cases hrun
  | some x => exact ⟨x, rfl⟩

/-! ## Every step keeps it -/

/-- Some timer that is due fires, or none is due. -/
theorem fireTimers_cases (s : Timers) (now : UInt32) :
    (∃ num, num < n ∧ (s.timers num).due now = true ∧ fireTimers n s now =
      (some num, { s.set num (s.timers num).fire with handling := true })) ∨
    fireTimers n s now = (none, { s with posted := true }) := by
  unfold fireTimers
  cases hfind : (List.range n).find? fun num => (s.timers num).due now with
  | none => exact .inr rfl
  | some num =>
    have hmem := List.mem_of_find?_eq_some hfind
    have hdue : (s.timers num).due now = true :=
      List.find?_some (p := fun num => (s.timers num).due now) hfind
    exact .inl ⟨num, List.mem_range.1 hmem, hdue, rfl⟩

theorem Tracks.fireTimers {s : Timers} (h : Tracks n s.timers s.time armed) (e : Event)
    (he : ∀ a o, arm a e o = match o with
      | some num => Function.update a num ((a num).bind Armed.fired)
      | none => a) :
    Tracks n (fireTimers n s s.getNow).2.timers (fireTimers n s s.getNow).2.time
      (arm armed e (fireTimers n s s.getNow).1) := by
  rcases fireTimers_cases s s.getNow with ⟨num, hnum, hdue, hf⟩ | hf
  · rw [hf, he]
    have hrun : (s.timers num).isrunning = true := by
      simp only [Timer.due, Bool.and_eq_true] at hdue
      exact hdue.1
    obtain ⟨x, hx⟩ := h.armed_of_running hrun
    have hfire := (h.runs num x hx).2.fire hdue
    refine h.set ?_
    rw [hx, Option.bind_some]
    cases hy : x.fired with
    | none => rwa [hy] at hfire
    | some y =>
      rw [hy] at hfire
      exact ⟨hnum, hfire⟩
  · rw [hf, he]
    exact h

/-- What `updateFromTimer` ends with. -/
theorem updateFromTimer_cases (s : Timers) :
    let s1 := { s with posted := false, timerFrom := none }
    let m := scan (List.range n) s s.getNow
    (m.2 = true ∧ m.1 ≤ 0 ∧ updateFromTimer n s = fireTimers n s1 s1.getNow) ∨
    (m.2 = true ∧ 0 < m.1 ∧
      updateFromTimer n s = (none, { s1 with timerFrom := some (s.time + m.1.toNat) })) ∨
    (m.2 = false ∧ updateFromTimer n s = (none, s1)) := by
  intro s1 m
  have hscan : scan (List.range n) s1 s.getNow = m := rfl
  unfold updateFromTimer
  dsimp only
  cases hset : m.2 with
  | false => exact .inr (.inr ⟨rfl, by rw [hscan, hset]; rfl⟩)
  | true =>
    by_cases hle : m.1 ≤ 0
    · exact .inl ⟨rfl, hle, by rw [hscan, hset, if_pos rfl, if_pos hle]; rfl⟩
    · exact .inr (.inl ⟨rfl, by omega, by rw [hscan, hset, if_pos rfl, if_neg hle]⟩)

theorem Tracks.step (h : Tracks n s.impl.timers s.impl.time s.armed)
    (hst : (machine n).step s e = some s') : Tracks n s'.impl.timers s'.impl.time s'.armed := by
  obtain ⟨r, hr, rfl⟩ := Option.map_eq_some_iff.1 hst
  cases e with
  | start num t0 dt isoneshot now =>
    simp only [react] at hr
    split at hr
    · rename_i hok
      obtain ⟨hnum, htime, ht0, hdt⟩ := hok
      cases hr
      refine (h.later htime).set ⟨hnum, rfl, rfl, rfl, hdt, ?_, ?_, fun _ => rfl⟩
      · simp only [Armed.base, Nat.zero_mul, Nat.add_zero]
      · simpa only [Armed.base, Nat.zero_mul, Nat.add_zero] using ht0
    · cases hr
  | stop num now =>
    simp only [react] at hr
    split at hr
    · rename_i hok
      cases hr
      exact (h.later hok.2).set rfl
    · cases hr
  | timerFromFired now =>
    simp only [react] at hr
    split at hr
    · rename_i hok
      cases hr
      have hlater := h.later hok.2
      exact Tracks.fireTimers (s := { s.impl with time := now, timerFrom := none }) hlater _
        fun a o => by cases o <;> rfl
    · cases hr
  | updateFromTimer now =>
    simp only [react] at hr
    split at hr
    · rename_i hok
      cases hr
      have hlater := h.later hok.2.2
      rcases updateFromTimer_cases (n := n) { s.impl with time := now } with
        ⟨-, -, hu⟩ | ⟨-, -, hu⟩ | ⟨-, hu⟩
      · rw [hu]
        exact Tracks.fireTimers
          (s := { s.impl with time := now, posted := false, timerFrom := none }) hlater _
          fun a o => by cases o <;> rfl
      · rw [hu]
        exact hlater
      · rw [hu]
        exact hlater
    · cases hr
  | handled now =>
    simp only [react] at hr
    split at hr
    · rename_i hok
      cases hr
      exact h.later hok.2
    · cases hr

theorem tracks (n : Nat) :
    (machine n).Inductive fun s => Tracks n s.impl.timers s.impl.time s.armed where
  init := by
    rintro s rfl
    exact ⟨nofun, fun _ _ => rfl⟩
  step s e s' h hst := h.step hst

/-! ## Firing -/

/-- A step in which a timer fires. -/
theorem react_fires {s s' : Timers} (hr : react n s e = some (some num, s')) :
    ∃ s1 : Timers, s1.timers = s.timers ∧ s.time ≤ s1.time ∧ s'.time = s1.time ∧ num < n ∧
      (s.timers num).due s1.getNow = true ∧
      s'.timers = Function.update s.timers num (s.timers num).fire := by
  have hfire (s1 : Timers) (hs1 : s1.timers = s.timers) (hle : s.time ≤ s1.time)
      (hf : fireTimers n s1 s1.getNow = (some num, s')) :
      ∃ s1 : Timers, s1.timers = s.timers ∧ s.time ≤ s1.time ∧ s'.time = s1.time ∧ num < n ∧
        (s.timers num).due s1.getNow = true ∧
        s'.timers = Function.update s.timers num (s.timers num).fire := by
    rcases fireTimers_cases s1 s1.getNow with ⟨i, hi, hdue, heq⟩ | heq
    · rw [heq] at hf
      cases hf
      rw [hs1] at hdue
      exact ⟨s1, hs1, hle, rfl, hi, hdue, by simp only [Timers.set, hs1]⟩
    · rw [heq] at hf
      cases hf
  cases e with
  | start i t0 dt isoneshot now =>
    simp only [react] at hr
    split at hr <;> cases hr
  | stop i now =>
    simp only [react] at hr
    split at hr <;> cases hr
  | timerFromFired now =>
    simp only [react] at hr
    split at hr
    · rename_i hok
      exact hfire { s with time := now, timerFrom := none } rfl hok.2 (Option.some.inj hr)
    · cases hr
  | updateFromTimer now =>
    simp only [react] at hr
    split at hr
    · rename_i hok
      have hu := Option.some.inj hr
      rcases updateFromTimer_cases (n := n) { s with time := now } with
        ⟨-, -, heq⟩ | ⟨-, -, heq⟩ | ⟨-, heq⟩
      · rw [heq] at hu
        exact hfire { s with time := now, posted := false, timerFrom := none } rfl hok.2.2 hu
      · rw [heq] at hu
        cases hu
      · rw [heq] at hu
        cases hu
    · cases hr
  | handled now =>
    simp only [react] at hr
    split at hr <;> cases hr

theorem arm_fires {s s' : Timers} (hr : react n s e = some (some num, s')) :
    arm armed e (some num) = Function.update armed num ((armed num).bind Armed.fired) := by
  cases e with
  | start i t0 dt isoneshot now =>
    simp only [react] at hr
    split at hr <;> cases hr
  | stop i now =>
    simp only [react] at hr
    split at hr <;> cases hr
  | timerFromFired now => rfl
  | updateFromTimer now => rfl
  | handled now =>
    simp only [react] at hr
    split at hr <;> cases hr

/-- **Virtual timers fire when they are due.** A timer that fires is running: it was started at
`t0` for `dt`, not stopped since, and has fired `count` times since, a one-shot timer never. Its
deadline `t0 + (count + 1) * dt` has passed, and a periodic timer goes on from there. -/
theorem fires_right (hreach : (machine n).Reachable s) {impl : Timers}
    (hr : react n s.impl e = some (some num, impl)) :
    (s.impl.timers num).isrunning = true ∧ ∃ x, s.armed num = some x ∧
      x.t0 + (x.count + 1) * x.dt ≤ impl.time ∧
      (x.oneShot = true → x.count = 0) ∧
      (x.oneShot = true → (machine n).step s e =
        some ⟨impl, Function.update s.armed num none⟩) ∧
      (x.oneShot = false →
        (impl.timers num).t0 = .ofNat (x.t0 + (x.count + 1) * x.dt) ∧
        (machine n).step s e =
          some ⟨impl, Function.update s.armed num (some { x with count := x.count + 1 })⟩) := by
  have htracks := hreach.inv (tracks n)
  obtain ⟨s1, -, hle, htime, hnum, hdue, htimers⟩ := react_fires hr
  have hrun : (s.impl.timers num).isrunning = true := by
    simp only [Timer.due, Bool.and_eq_true] at hdue
    exact hdue.1
  obtain ⟨x, hx⟩ := htracks.armed_of_running hrun
  obtain ⟨-, hruns⟩ := (htracks.later hle).runs num x hx
  have hfire := hruns.fire hdue
  have hstep : (machine n).step s e =
      some ⟨impl, Function.update s.armed num x.fired⟩ := by
    have harm : arm s.armed e (some num) = Function.update s.armed num x.fired := by
      rw [arm_fires hr, hx, Option.bind_some]
    simp only [machine, hr, Option.map_some, harm]
  refine ⟨hrun, x, hx, ?_, hruns.once, fun hone => ?_, fun hone => ⟨?_, ?_⟩⟩
  · rw [htime]
    exact hruns.deadline_le hdue
  · rw [hstep, x.fired_oneShot hone]
  · rw [x.fired_periodic hone] at hfire
    rw [htimers, Function.update_self]
    exact hfire.t0
  · rw [hstep, x.fired_periodic hone]

/-! ## The scan -/

theorem scan_from (nums : List Nat) (s : Timers) (now : UInt32) (m0 : Int × Bool) :
    let m := nums.foldl (fun m num =>
      if (s.timers num).isrunning && decide ((s.timers num).remaining now < m.1) then
        ((s.timers num).remaining now, true)
      else m) m0
    m.1 ≤ m0.1 ∧ (m.2 = false → m.1 = m0.1 ∧ m0.2 = false) ∧
      ∀ num ∈ nums, (s.timers num).isrunning = true → m.1 ≤ (s.timers num).remaining now := by
  induction nums generalizing m0 with
  | nil => exact ⟨Int.le_refl _, fun hm => ⟨rfl, hm⟩, nofun⟩
  | cons num nums ih =>
    simp only [List.foldl_cons, List.forall_mem_cons]
    split
    · rename_i hless
      simp only [Bool.and_eq_true, decide_eq_true_eq] at hless
      obtain ⟨hle, hset, hall⟩ := ih ((s.timers num).remaining now, true)
      exact ⟨by dsimp only at hle; omega, fun hm => absurd (hset hm).2 nofun, fun _ => hle, hall⟩
    · rename_i hless
      simp only [Bool.and_eq_true, decide_eq_true_eq, not_and] at hless
      obtain ⟨hle, hset, hall⟩ := ih m0
      exact ⟨hle, hset, fun hrun => by have := hless hrun; omega, hall⟩

/-- The minimum that the scan finds, or that nothing is nearer than its start value. -/
theorem scan_spec (n : Nat) (s : Timers) (now : UInt32) {num : Nat} (hnum : num < n)
    (hrun : (s.timers num).isrunning = true) :
    (scan (List.range n) s now).1 ≤ (s.timers num).remaining now ∧
      ((scan (List.range n) s now).2 = false → 2 ^ 31 - 1 ≤ (s.timers num).remaining now) := by
  obtain ⟨-, hset, hall⟩ := scan_from (List.range n) s now (2 ^ 31 - 1, false)
  have hle := hall num (List.mem_range.2 hnum) hrun
  refine ⟨hle, fun hm => ?_⟩
  rwa [(hset hm).1] at hle

/-! ## Being looked at in time -/

/-- `TimerFrom` is running, and due by every deadline. -/
def Watched (s : State) : Prop :=
  ∃ due, s.impl.timerFrom = some due ∧ ∀ num x, s.armed num = some x → due ≤ x.deadline

/-- A timer that is running will be looked at, unless a handler is executing. -/
def Kept (s : State) : Prop :=
  s.impl.handling = false → (∃ num, (s.impl.timers num).isrunning = true) →
    s.impl.posted = true ∨ Watched s

/-- A scan meets no limit of a signed remaining time: no timer is overdue by more than `2 ^ 31`,
and one is due in less than `2 ^ 31 - 1` if any is running. -/
def ScanFits (s : State) : Event → Prop
  | .updateFromTimer now =>
    (∀ num x, s.armed num = some x → now ≤ x.deadline + 2 ^ 31) ∧
    ((∃ num x, s.armed num = some x) → ∃ num x, s.armed num = some x ∧
      x.deadline < now + (2 ^ 31 - 1))
  | _ => True

theorem kept_fireTimers (s : Timers) (now : UInt32) (armed : Nat → Option Armed) :
    Kept ⟨(fireTimers n s now).2, armed⟩ := by
  intro hidle _
  rcases fireTimers_cases (n := n) s now with ⟨num, -, -, hf⟩ | hf
  · rw [hf] at hidle
    cases hidle
  · rw [hf]
    exact .inl rfl

theorem Kept.step (ht : Tracks n s.impl.timers s.impl.time s.armed) (hk : Kept s)
    (hfit : ScanFits s e) (hst : (machine n).step s e = some s') : Kept s' := by
  have ht' := ht.step hst
  obtain ⟨r, hr, rfl⟩ := Option.map_eq_some_iff.1 hst
  cases e with
  | start num t0 dt isoneshot now =>
    simp only [react] at hr
    split at hr
    · cases hr
      exact fun _ _ => .inl rfl
    · cases hr
  | stop num now =>
    simp only [react] at hr
    split at hr
    · cases hr
      intro hidle ⟨i, hi⟩
      have hin : i ≠ num := by
        rintro rfl
        simp [VirtualizeTimerC.stop, Timers.set] at hi
      have hrun : (s.impl.timers i).isrunning = true := by
        simpa [VirtualizeTimerC.stop, Timers.set, hin] using hi
      refine (hk hidle ⟨i, hrun⟩).imp id fun ⟨due, hdue, hall⟩ => ⟨due, hdue, fun j x hx => ?_⟩
      by_cases hj : j = num
      · simp [arm, hj] at hx
      · simp only [arm, Function.update_of_ne hj] at hx
        exact hall j x hx
    · cases hr
  | timerFromFired now =>
    simp only [react] at hr
    split at hr
    · cases hr
      exact kept_fireTimers _ _ _
    · cases hr
  | updateFromTimer now =>
    simp only [react] at hr
    split at hr
    · rename_i hok
      cases hr
      obtain ⟨hlate, hnear⟩ := hfit
      have hlater := ht.later hok.2.2
      have hscan {num : Nat} {x : Armed} (hx : s.armed num = some x) :
          (scan (List.range n) { s.impl with time := now } (.ofNat now)).1 ≤
            (x.deadline : Int) - now ∧
          ((scan (List.range n) { s.impl with time := now } (.ofNat now)).2 = false →
            2 ^ 31 - 1 ≤ (x.deadline : Int) - now) := by
        obtain ⟨hnum, hruns⟩ := hlater.runs num x hx
        rw [← hruns.remaining_eq (hlate num x hx)]
        exact scan_spec n { s.impl with time := now } _ hnum hruns.running
      rcases updateFromTimer_cases (n := n) { s.impl with time := now } with
        ⟨-, -, hu⟩ | ⟨-, hpos, hu⟩ | ⟨hnone, hu⟩
      · rw [hu]
        exact kept_fireTimers _ _ _
      · rw [hu]
        intro _ _
        refine .inr ⟨_, rfl, fun num x hx => ?_⟩
        have hle := (hscan hx).1
        simp only [Timers.getNow] at hle hpos ⊢
        omega
      · rw [hu]
        intro _ ⟨i, hi⟩
        obtain ⟨x, hx⟩ := hlater.armed_of_running hi
        obtain ⟨num, y, hy, hdead⟩ := hnear ⟨i, x, hx⟩
        have hfar := (hscan hy).2 hnone
        omega
    · cases hr
  | handled now =>
    simp only [react] at hr
    split at hr
    · cases hr
      exact fun _ _ => .inl rfl
    · cases hr

/-- **Virtual timers are not lost**, in the runs whose scans meet no limit: whenever no handler is
executing and some timer is running, `updateFromTimer` is posted, or `TimerFrom` is running and due
by the earliest deadline. -/
theorem never_lost {h : List (State × Event)} (hr : (machine n).Run h s)
    (hfit : ∀ p ∈ h, ScanFits p.1 p.2) : Kept s ∧ ∀ p ∈ h, Kept p.1 := by
  have hinv := hr.inv_of_steps (P := fun s => Tracks n s.impl.timers s.impl.time s.armed ∧ Kept s)
    (C := ScanFits) ?_ ?_ hfit
  · exact ⟨hinv.1.2, fun p hp => (hinv.2 p hp).2⟩
  · rintro s rfl
    exact ⟨(tracks n).init _ rfl, fun _ ⟨_, hrun⟩ => nomatch hrun⟩
  · intro s e s' ⟨ht, hk⟩ hfit hst
    exact ⟨ht.step hst, hk.step ht hfit hst⟩

/-- A periodic timer that fires a second time, late. -/
theorem fires_right_periodic : ∃ s, (machine 2).Reachable s ∧ ∃ impl,
    react 2 s.impl (.timerFromFired 25) = some (some 1, impl) ∧
    (s.impl.timers 1).isrunning = true ∧
    ∃ x, s.armed 1 = some x ∧ x.t0 + (x.count + 1) * x.dt ≤ impl.time := by
  obtain ⟨h, s, hr, hp⟩ := Machine.exists_run_of_exec (M := machine 2) (s := boot) rfl
    [.start 1 0 10 false 0, .updateFromTimer 0, .timerFromFired 10, .handled 11,
      .updateFromTimer 11]
    (fun _ s => ((react 2 s.impl (.timerFromFired 25)).bind (·.1)) = some 1) (by decide)
  cases hreact : react 2 s.impl (.timerFromFired 25) with
  | none => simp [hreact] at hp
  | some r =>
    obtain ⟨o, impl⟩ := r
    obtain rfl : o = some 1 := by simpa [hreact] using hp
    obtain ⟨hrun, x, hx, hdead, -⟩ := fires_right ⟨h, hr⟩ hreact
    exact ⟨s, ⟨h, hr⟩, impl, hreact, hrun, x, hx, hdead⟩

/-- One timer of 1000 ticks, looked at at once. -/
theorem never_lost_started : ∃ h s, (machine 1).Run h s ∧ s.impl.timerFrom = some 1000 ∧
    Kept s ∧ ∀ p ∈ h, Kept p.1 := by
  have hexec : (machine 1).exec [.start 0 0 1000 true 0, .updateFromTimer 0] [] boot =
      some ([(⟨_, _⟩, .updateFromTimer 0), (boot, .start 0 0 1000 true 0)], ⟨_, _⟩) := rfl
  have hr := Machine.run_of_exec (.init rfl) hexec
  refine ⟨_, _, hr, rfl, never_lost hr ?_⟩
  intro p hp
  rcases List.mem_cons.1 hp with rfl | hp
  · exact ⟨fun _ _ _ => Nat.zero_le _, fun _ => ⟨0, ⟨0, 1000, true, 0⟩, rfl, by decide⟩⟩
  · obtain rfl := List.mem_singleton.1 hp
    trivial

/-- A timer of the maximal delay that is looked at at once is not watched by anything. -/
theorem lost_at_maximum : ∃ h s, (machine 1).Run h s ∧ ¬ Kept s := by
  obtain ⟨h, s, hr, hp⟩ := Machine.exists_run_of_exec (M := machine 1) (s := boot) rfl
    [.start 0 0 0x7fffffff true 0, .updateFromTimer 0]
    (fun _ s => !s.impl.handling && (s.impl.timers 0).isrunning && !s.impl.posted &&
      s.impl.timerFrom = none) (by decide)
  simp only [Bool.and_eq_true, Bool.not_eq_true', decide_eq_true_eq] at hp
  obtain ⟨⟨⟨hidle, hrun⟩, hposted⟩, hfrom⟩ := hp
  refine ⟨h, s, hr, fun hk => ?_⟩
  rcases hk hidle ⟨0, hrun⟩ with hp | ⟨due, hdue, -⟩
  · rw [hposted] at hp
    cases hp
  · rw [hfrom] at hdue
    cases hdue

end VirtualizeTimerC
