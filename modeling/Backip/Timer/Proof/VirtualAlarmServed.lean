import Backip.Timer.Proof.VirtualAlarms

/-!
# A started virtual alarm fires in the end

`AlarmFrom` is due, and the loop of `signalAlarms` fires the alarms that are due (`sweep`). After it
no alarm is due, so `AlarmFrom` is next due at a later time (`next_fired`), which is not after the
deadline: it is reached in the end.

* `multiplexes`: what holds of the alarms in every run, and when `AlarmFrom` is due in time.
-/

set_option autoImplicit false

namespace VirtualizeAlarmC

variable {size n id p now : Nat} {s s' : State} {base : Nat → Nat} {x : Started}

/-- `AlarmFrom` leads to the alarm's `fired`. -/
def Served (size n id : Nat) (s : State) : Prop :=
  (machine size n).Leads (fun e => e.1.ofSource = true) (fun s => s.started id = none) s

/-! ## The loop -/

/-- In the loop, `AlarmFrom` is not running. -/
theorem Good.reaches (h : Good size n s base) {l : Loop} (hsignaling : s.impl.signaling = some l) :
    s.impl.Reaches size s.impl.time := by
  refine ⟨Nat.le_refl _, fun a ha => ?_⟩
  rw [(h.loop l hsignaling).2.2] at ha
  cases ha

theorem step_iterate (h : Good size n s base) (hid : p < n)
    (hsignaling : s.impl.signaling = some ⟨p, false⟩) :
    (machine size n).step s (.iterate, s.impl.time) = some { s with
      impl := (iterate size s.impl p).2
      started := if (iterate size s.impl p).1 then Function.update s.started p none else
        s.started } := by
  have hsig : (s.at s.impl.time).impl.signaling = some ⟨p, false⟩ := hsignaling
  have hreact : react size n (s.at s.impl.time) .iterate = some { s with
      impl := (iterate size s.impl p).2
      started := if (iterate size s.impl p).1 then Function.update s.started p none else
        s.started } := by
    simp only [react, hsig, if_pos hid]
    rfl
  exact (if_pos (h.reaches hsignaling)).trans hreact

theorem step_handled (h : Good size n s base)
    (hsignaling : s.impl.signaling = some ⟨p, true⟩) :
    (machine size n).step s (.handled, s.impl.time) =
      some { s with impl := { s.impl with signaling := some ⟨(p + 1) % 256, false⟩ } } := by
  have hsig : (s.at s.impl.time).impl.signaling = some ⟨p, true⟩ := hsignaling
  have hreact : react size n (s.at s.impl.time) .handled =
      some { s with impl := { s.impl with signaling := some ⟨(p + 1) % 256, false⟩ } } := by
    simp only [react, hsig]
    rfl
  exact (if_pos (h.reaches hsignaling)).trans hreact

/-- What the loop, from `p` on, has made of `s`. -/
structure Swept (size n p : Nat) (s s' : State) : Prop where
  signaling : s'.impl.signaling = some ⟨n, false⟩
  alarm : s'.impl.alarm = s.impl.alarm
  time : s'.impl.time = s.impl.time
  started : ∀ id, s'.started id = none ∨ s'.started id = s.started id
  due : ∀ id, p ≤ id → id < n → ¬s'.impl.Due size id

/-- A round of the loop comes before the others. -/
theorem Swept.cons {t : State} (h : Swept size n (p + 1) t s')
    (halarm : t.impl.alarm = s.impl.alarm) (htime : t.impl.time = s.impl.time)
    (hstarted : ∀ id, t.started id = none ∨ t.started id = s.started id)
    (hdue : ¬s'.impl.Due size p) : Swept size n p s s' where
  signaling := h.signaling
  alarm := h.alarm.trans halarm
  time := h.time.trans htime
  started id := (h.started id).elim .inl fun heq => heq ▸ hstarted id
  due i hle hlt := by
    rcases Nat.eq_or_lt_of_le hle with rfl | hlt'
    · exact hdue
    · exact h.due i hlt' hlt

theorem sweep (h : Good size n s base) (hn : n < 256)
    (hsignaling : s.impl.signaling = some ⟨p, false⟩)
    (hserved : ∀ s', Good size n s' base → Swept size n p s s' → Served size n id s') :
    Served size n id s := by
  obtain ⟨k, hk⟩ := Nat.exists_eq_add_of_le (h.loop _ hsignaling).1
  dsimp only at hk
  induction k generalizing p s with
  | zero =>
    obtain rfl : n = p := hk
    exact hserved s h ⟨hsignaling, rfl, rfl, fun _ => .inr rfl, fun i hle hlt => by omega⟩
  | succ k ih =>
    have hid : p < n := by omega
    have hmod : (p + 1) % 256 = p + 1 := Nat.mod_eq_of_lt (by omega)
    have hiterate := step_iterate h hid hsignaling
    have hgood := (h.iterate hid hsignaling).1
    by_cases hdue : s.impl.Due size p
    · rw [iterate_of_due hdue] at hiterate hgood
      have hgood : Good size n { s with
          impl := { s.impl with
            isset := Function.update s.impl.isset p false, signaling := some ⟨p, true⟩ }
          started := Function.update s.started p none } base := hgood
      have hnext := (hgood.loop_next hid rfl).1
      refine .step rfl hiterate (.step rfl (step_handled hgood rfl) ?_)
      rw [hmod] at hnext ⊢
      refine ih hnext rfl (fun s' hgood' hswept => hserved s' hgood' ?_) (by omega)
      refine hswept.cons rfl rfl (fun i => ?_) fun hdue' => ?_
      · by_cases hi : i = p
        · subst hi
          exact .inl (Function.update_self _ _ _)
        · exact .inr (Function.update_of_ne hi _ _)
      · have hnone : s'.started p = none :=
          (hswept.started p).elim (fun hnone => hnone) fun heq =>
            heq.trans (Function.update_self _ _ _)
        have hset := hdue'.1
        rw [hgood'.running, hnone] at hset
        cases hset
    · rw [iterate_of_not_due hdue] at hiterate
      have hnext := (h.loop_next hid hsignaling).1
      refine .step rfl hiterate ?_
      rw [hmod] at hnext ⊢
      refine ih hnext rfl (fun s' hgood' hswept => hserved s' hgood' ?_) (by omega)
      refine hswept.cons rfl rfl (fun i => .inr rfl) fun hdue' => hdue ?_
      have hset : s.impl.isset p = true := by
        rw [h.running]
        have hsome := hdue'.1
        rw [hgood'.running] at hsome
        rcases hswept.started p with hnone | heq
        · rw [hnone] at hsome
          cases hsome
        · rw [heq] at hsome
          exact hsome
      have helapsed := hdue'.2
      rw [getNow, hswept.alarm, hswept.time] at helapsed
      exact ⟨hset, helapsed⟩

/-! ## From one `AlarmFrom.fired` to the next -/

/-- The loop has ended: no alarm is due, and `AlarmFrom` is next due at a later time. -/
theorem served_of_swept (h : Good size n s base) (hsize : 0 < size)
    (hsignaling : s.impl.signaling = some ⟨n, false⟩)
    (hserved : ∀ s' base', Good size n s' base' → s'.impl.signaling = none →
      s'.impl.time = s.impl.time →
      (∀ x, s.started id = some x → (s'.started id).isSome = true ∧
        (s.impl.time < base id + round size →
          base' id + (s'.impl.alarm id).dt = base id + (s.impl.alarm id).dt)) →
      ((∀ id, id < n → ¬s.impl.Due size id) →
        ∀ a, s'.impl.alarmFrom = some a → s.impl.time < a.t0 + a.dt) →
      Served size n id s') :
    Served size n id s := by
  have hsome : s.impl.signaling ≠ none := by
    rw [hsignaling]
    nofun
  have hgood := (h.fromFiredDone hsize hsome).1
  have hstep : (machine size n).step s (.fromFiredDone, s.impl.time) = some { s with
      impl := setNextAlarm size n { s.impl with signaling := none }
      started := fun id => (s.started id).map fun x => { x with fresh := false } } := by
    refine (if_pos (h.reaches hsignaling)).trans ?_
    have hsig : (s.at s.impl.time).impl.signaling = some ⟨n, false⟩ := hsignaling
    simp only [react, hsig, if_pos (Nat.le_refl n)]
    rfl
  have hnext : Next size n { s.impl with signaling := none }
      (setNextAlarm size n { s.impl with signaling := none }) := next hsize rfl h.short
  refine .step rfl hstep (hserved _ _ hgood hnext.signaling hnext.time (fun x hx => ?_) ?_)
  · have hset : s.impl.isset id = true := by
      rw [h.running, hx]
      rfl
    refine ⟨by dsimp only; rw [hx]; rfl, fun hnear => ?_⟩
    dsimp only
    rw [hnext.alarm id (h.bound id x hx) hset]
    exact (h.tracks id x hx).rebased_add (.inr hnear)
  · intro hall a ha
    rcases hnext.alarmFrom with ⟨b, hb, hbt0, -, -, hpos⟩ | ⟨hnone, -⟩
    · obtain rfl := Option.some.inj (ha.symm.trans hb)
      rw [hbt0]
      refine Nat.lt_add_of_pos_right (hpos fun i hi hset => ?_)
      have hlt : elapsed size (getNow size s.impl) (s.impl.alarm i).t0 < (s.impl.alarm i).dt :=
        Nat.lt_of_not_le fun hdue => hall i hi ⟨hset, hdue⟩
      have hrebase : rebase size (getNow size s.impl) (s.impl.alarm i) =
          ⟨getNow size s.impl, (s.impl.alarm i).dt -
            elapsed size (getNow size s.impl) (s.impl.alarm i).t0⟩ :=
        if_neg (Nat.not_le_of_lt hlt)
      rw [hnext.alarm i hi hset]
      change 0 < (rebase size (getNow size s.impl) (s.impl.alarm i)).dt
      rw [hrebase]
      exact Nat.sub_pos_of_lt hlt
    · dsimp only at ha
      rw [hnone] at ha
      cases ha

/-- `AlarmFrom` fires; the alarm fires, or `AlarmFrom` is due later, and the alarm still by its
deadline. -/
theorem next_fired (h : Good size n s base) (hsize : 0 < size) (hn : n < 256)
    (hsignaling : s.impl.signaling = none) (hx : s.started id = some x)
    (hserved : ∀ s' base' a, Good size n s' base' → s'.impl.signaling = none →
      (s'.started id).isSome = true →
      base' id + (s'.impl.alarm id).dt = base id + (s.impl.alarm id).dt →
      s.impl.alarmFrom = some a → s'.impl.time = max (a.t0 + a.dt) s.impl.time →
      s'.impl.time < base id + (s.impl.alarm id).dt →
      (∀ a, s'.impl.alarmFrom = some a → s'.impl.time < a.t0 + a.dt) → Served size n id s') :
    Served size n id s := by
  obtain ⟨a, ha, -⟩ := h.idle hsignaling id x hx
  obtain ⟨-, hhalf, hlate⟩ := h.alarmFrom a ha
  obtain ⟨htwo, -, hge⟩ := two_mul_half hsize
  have hreach : s.impl.Reaches size (max (a.t0 + a.dt) s.impl.time) := by
    refine ⟨Nat.le_max_right _ _, fun b hb => ?_⟩
    obtain rfl := Option.some.inj (ha.symm.trans hb)
    omega
  generalize hnow : max (a.t0 + a.dt) s.impl.time = now at hreach
  have hat := h.at hreach
  have hfired := (hat.fromFired hsignaling ha).1
  have hstep : (machine size n).step s (.fromFired, now) = some { s with
      impl := { s.impl with time := now, alarmFrom := none, signaling := some ⟨0, false⟩ }
      due := a.t0 + a.dt } := by
    refine (if_pos hreach).trans ?_
    have hsig : (s.at now).impl.signaling = none := hsignaling
    have hfrom : (s.at now).impl.alarmFrom = some a := ha
    have hdue : a.t0 + a.dt ≤ (s.at now).impl.time := hnow ▸ Nat.le_max_left _ _
    simp only [react, hsig, hfrom, if_pos hdue]
    rfl
  refine .step rfl hstep (sweep hfired hn rfl fun s' hgood hswept => ?_)
  rcases hswept.started id with hnone | hsame
  · exact .here hnone
  · have hx' : s'.started id = some x := hsame.trans hx
    have halarm : s'.impl.alarm id = s.impl.alarm id := congrFun hswept.alarm id
    have htime : s'.impl.time = now := hswept.time
    have hdue := hswept.due id (Nat.zero_le _) (h.bound id x hx)
    have hlt : (now - base id) % round size < (s.impl.alarm id).dt := by
      refine Nat.lt_of_not_le fun hle => hdue ⟨?_, ?_⟩
      · rw [hgood.running, hx']
        rfl
      · rw [getNow, (hgood.tracks id x hx').elapsed, halarm, htime]
        exact hle
    have hnear : now < base id + round size :=
      (hat.near hsize hsignaling id x hx).resolve_left fun hzero => by
        change (s.impl.alarm id).dt = 0 at hzero
        omega
    have hpast : base id ≤ now := (hat.tracks id x hx).past
    rw [Nat.mod_eq_of_lt (by omega)] at hlt
    refine served_of_swept hgood hsize hswept.signaling
      fun s'' base' hgood' hsig htime' hstarted hlater => ?_
    obtain ⟨hsome, hsum⟩ := hstarted x hx'
    rw [htime] at htime' hsum hlater
    rw [halarm] at hsum
    refine hserved s'' base' a hgood' hsig hsome (hsum hnear) ha (htime'.trans hnow.symm) ?_ ?_
    · omega
    · rw [htime']
      exact hlater fun i hi => hswept.due i (Nat.zero_le _) hi

/-! ## Any state -/

/-- `AlarmFrom` is due later, again and again, until it is the deadline. -/
theorem served_of_ahead (h : Good size n s base) (hsize : 0 < size) (hn : n < 256)
    (hsignaling : s.impl.signaling = none) (hx : (s.started id).isSome = true)
    (hahead : ∀ a, s.impl.alarmFrom = some a → s.impl.time < a.t0 + a.dt) :
    Served size n id s := by
  induction hk : base id + (s.impl.alarm id).dt - s.impl.time using Nat.strongRecOn
    generalizing s base with
  | ind k ih =>
    obtain ⟨x, hx⟩ := Option.isSome_iff_exists.1 hx
    refine next_fired h hsize hn hsignaling hx
      fun s' base' a hgood hsig hsome hsum ha htime hlt hlater => ?_
    have hdue := hahead a ha
    refine ih _ ?_ hgood hsig hsome hlater rfl
    rw [hsum]
    omega

theorem served_of_idle (h : Good size n s base) (hsize : 0 < size) (hn : n < 256)
    (hsignaling : s.impl.signaling = none) : Served size n id s := by
  cases hx : s.started id with
  | none => exact .here hx
  | some x =>
    exact next_fired h hsize hn hsignaling hx fun s' base' a hgood hsig hsome _ _ _ _ hlater =>
      served_of_ahead hgood hsize hn hsig hsome hlater

/-- **A started alarm** leads to its `fired`. -/
theorem served_of_good (h : Good size n s base) (hsize : 0 < size) (hn : n < 256) :
    Served size n id s := by
  have hloop : ∀ s p, Good size n s base → s.impl.signaling = some ⟨p, false⟩ →
      Served size n id s := fun s p h hsignaling =>
    sweep h hn hsignaling fun s' hgood hswept =>
      served_of_swept hgood hsize hswept.signaling fun s'' base' hgood' hsig _ _ _ =>
        served_of_idle hgood' hsize hn hsig
  cases hsignaling : s.impl.signaling with
  | none => exact served_of_idle h hsize hn hsignaling
  | some l =>
    obtain ⟨p, handling⟩ := l
    cases handling with
    | false => exact hloop s p h hsignaling
    | true =>
      have hid : p < n := (h.loop _ hsignaling).2.1 rfl
      exact .step rfl (step_handled h hsignaling) (hloop _ _ (h.loop_next hid hsignaling).1 rfl)

/-! ## Runs -/

theorem obeys_of_good (h : Good size n s base) (hsize : 0 < size) (hn : n < 256) :
    Obeys size n s where
  fires _ _ _ hsignaling hst hfires := h.fires hsignaling hst hfires
  running id := h.running id
  getAlarm id x hx := h.getAlarm id x hx
  served id _ := served_of_good h hsize hn []

/-- **The alarms are multiplexed exactly** in every run, and `AlarmFrom` is due in time in the runs
in which each `AlarmFrom.fired` ends in time. -/
theorem multiplexes (hsize : 0 < size) (hn : n < 256) {h : List (State × Event)}
    (hr : (machine size n).Run h s) :
    Obeys size n s ∧ ((∀ p ∈ h, Fits size n p.1 p.2) → InTime s) := by
  obtain ⟨base, hgood⟩ := good_of_run hsize hr
  refine ⟨obeys_of_good hgood hsize hn, fun hfits => ?_⟩
  obtain ⟨base', hgood', hexact⟩ := exact_of_run hsize hr hfits
  exact hgood'.inTime hexact

/-- Two alarms, the first of which starts itself again and stops the other when it fires. -/
theorem multiplexes_two : ∃ h s, (machine 1 2).Run h s ∧ s.started 0 = some ⟨300, 200, false⟩ ∧
    Obeys 1 2 s ∧ InTime s := by
  obtain ⟨h, s, hr, hprop⟩ := Machine.exists_run_of_exec (M := machine 1 2) (s := boot 250)
    ⟨250, rfl⟩
    [(.startAt 1 200 180, 260), (.startAt 0 270 30, 275), (.fromFired, 310), (.iterate, 311),
      (.startAt 0 300 200, 315), (.stop 1, 316), (.handled, 320), (.iterate, 321),
      (.fromFiredDone, 322)]
    (fun h s => decide (s.started 0 = some ⟨300, 200, false⟩) &&
      h.all fun p => decide (Fits 1 2 p.1 p.2)) (by decide)
  rw [Bool.and_eq_true] at hprop
  have hfits : ∀ p ∈ h, Fits 1 2 p.1 p.2 := fun p hp =>
    of_decide_eq_true (List.all_eq_true.1 hprop.2 p hp)
  obtain ⟨hobeys, hintime⟩ := multiplexes (by decide) (by decide) hr
  exact ⟨h, s, hr, of_decide_eq_true hprop.1, hobeys, hintime hfits⟩

/-! ## Where it ends too late -/

theorem setNextAlarm_signaling (size n : Nat) (s : Alarms) :
    (setNextAlarm size n s).signaling = s.signaling := by
  unfold setNextAlarm
  dsimp only
  split
  · split <;> rfl
  · rfl

/-- The loop counts alarms with eight bits: over 256 of them it does not end. -/
structure EightBits (s : State) : Prop where
  id_lt : ∀ l, s.impl.signaling = some l → l.id < 256

theorem EightBits.step {e : Event} (h : EightBits s) (hst : (machine size n).step s e = some s') :
    EightBits s' ∧ (256 ≤ n → s.impl.signaling ≠ none → s'.impl.signaling ≠ none) := by
  obtain ⟨e, now⟩ := e
  have hloop : ∀ {t : State} {id : Nat} {handling : Bool}, id < 256 →
      t.impl.signaling = some ⟨id, handling⟩ →
      EightBits t ∧ (256 ≤ n → s.impl.signaling ≠ none → t.impl.signaling ≠ none) := by
    intro t id handling hid ht
    refine ⟨⟨fun l hl => ?_⟩, fun _ _ => by rw [ht]; nofun⟩
    obtain rfl := Option.some.inj (ht.symm.trans hl)
    exact hid
  have hmod : ∀ id, (id + 1) % 256 < 256 := fun id => Nat.mod_lt _ (by decide)
  simp only [machine, VirtualizeAlarmC.step] at hst
  split at hst
  · cases e with
    | startAt id t0 dt =>
      simp only [react] at hst
      split at hst
      · obtain rfl := Option.some.inj hst
        have hsame : (startAt size n (s.at now).impl id (t0 % round size) dt).signaling =
            s.impl.signaling := setNextAlarm_signaling _ _ _
        exact ⟨⟨fun l hl => h.id_lt l (hsame.symm.trans hl)⟩, fun _ hsome => hsame ▸ hsome⟩
      · cases hst
    | stop id =>
      simp only [react] at hst
      split at hst
      · obtain rfl := Option.some.inj hst
        exact ⟨⟨h.id_lt⟩, fun _ hsome => hsome⟩
      · cases hst
    | fromFired =>
      simp only [react] at hst
      split at hst
      · split at hst
        · obtain rfl := Option.some.inj hst
          exact hloop (by decide) rfl
        · cases hst
      · cases hst
    | iterate =>
      simp only [react] at hst
      split at hst
      · rename_i id hsignaling
        split at hst
        · obtain rfl := Option.some.inj hst
          by_cases hdue : (s.at now).impl.Due size id
          · rw [iterate_of_due hdue]
            exact hloop (h.id_lt _ hsignaling) rfl
          · rw [iterate_of_not_due hdue]
            exact hloop (hmod id) rfl
        · cases hst
      · cases hst
    | handled =>
      simp only [react] at hst
      split at hst
      · obtain rfl := Option.some.inj hst
        exact hloop (hmod _) rfl
      · cases hst
    | fromFiredDone =>
      simp only [react] at hst
      split at hst
      · rename_i id hsignaling
        split at hst
        · rename_i hle
          obtain rfl := Option.some.inj hst
          have hnone : (setNextAlarm size n { (s.at now).impl with signaling := none }).signaling =
              none := setNextAlarm_signaling _ _ _
          refine ⟨⟨fun l hl => ?_⟩, fun hn => ?_⟩
          · cases hnone.symm.trans hl
          · have hlt := h.id_lt _ hsignaling
            exact absurd (Nat.lt_of_lt_of_le hlt (Nat.le_trans hn hle)) (Nat.lt_irrefl _)
        · cases hst
      · cases hst
  · cases hst

theorem eightBits_of_run {h : List (State × Event)} (hr : (machine size n).Run h s) :
    EightBits s := by
  refine hr.inv (P := EightBits) ⟨?_, fun s e s' h hst => (h.step hst).1⟩
  rintro s ⟨time, rfl⟩
  exact ⟨nofun⟩

/-- A handler that starts an alarm almost a round in the past, and takes longer than its delay. Over
256 alarms, `AlarmFrom.fired` does not end. -/
theorem not_multiplexes : (¬∀ h s, (machine 1 1).Run h s → Obeys 1 1 s ∧ InTime s) ∧
    ∀ h s e s', (machine 1 256).Run h s → s.impl.signaling ≠ none →
      (machine 1 256).step s e = some s' → s'.impl.signaling ≠ none := by
  constructor
  · intro hall
    obtain ⟨h, s, hr, hprop⟩ := Machine.exists_run_of_exec (M := machine 1 1) (s := boot 300)
      ⟨300, rfl⟩
      [(.startAt 0 300 0, 300), (.fromFired, 300), (.iterate, 300), (.startAt 0 50 5, 300),
        (.handled, 310), (.fromFiredDone, 310)]
      (fun _ s => decide (s.impl.signaling = none) && decide (s.started 0 = some ⟨50, 5, false⟩) &&
        decide (s.impl.alarmFrom = some ⟨310, 1⟩)) (by decide)
    simp only [Bool.and_eq_true, decide_eq_true_eq] at hprop
    obtain ⟨⟨hsignaling, hstarted⟩, hfrom⟩ := hprop
    obtain ⟨a, ha, hdue⟩ := (hall h s hr).2 hsignaling 0 _ hstarted
    obtain rfl := Option.some.inj (hfrom.symm.trans ha)
    revert hdue
    decide
  · intro h s e s' hr hsome hst
    exact ((eightBits_of_run hr).step hst).2 (Nat.le_refl _) hsome

end VirtualizeAlarmC
