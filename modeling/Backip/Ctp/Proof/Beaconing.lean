import Backip.Ctp.CtpRoutingEngineP

/-!
# CTP: the beacons do not stop

`BeaconTimer` is started again only by its own handler and by a reset. The handler does nothing while
the radio is off, so a timer that fires then is not started again by `RadioControl.startDone`
(`not_alive`).

`alive_of_firesOn`: in a run in which the timer of a running engine fires only while the radio is on,
the timer of a running engine never stops, its interval stays between `minInterval` and
`maxInterval`, and each interval has a beacon attempt: ahead of it while `tHasPassed` is false, behind
it afterwards (`Armed`).
-/

set_option autoImplicit false

namespace CtpRoutingEngineP

variable {c : Config}

/-! ## The timer -/

namespace Engine

/-- The outputs since the interval began. -/
def sinceInterval : List Output → List Output
  | [] => []
  | .interval _ :: _ => []
  | o :: log => o :: sinceInterval log

/-- The timer runs up to the advertise time `t`, at which the beacon is sent, or from there to the end
of the interval. -/
inductive Armed (e : Engine c) : Prop
  | advertise : e.tHasPassed = false → e.beaconTimer = .oneShot e.t.toNat →
      e.currentInterval.toNat / 2 ≤ e.t.toNat → e.t.toNat < e.currentInterval.toNat → Armed e
  | remaining : e.tHasPassed = true →
      e.beaconTimer = .oneShot (e.currentInterval.toNat - e.t.toNat) →
      e.t.toNat < e.currentInterval.toNat → .attempt ∈ sinceInterval e.log → Armed e

/-- The interval has a length within the bounds, and the timer runs in it. -/
structure Alive (e : Engine c) : Prop where
  min_le : c.minInterval ≤ e.currentInterval
  le_max : e.currentInterval ≤ c.maxInterval
  armed : e.Armed

/-- Every state of a run in which the timer of a running engine fires only with the radio on. -/
structure Good (e : Engine c) : Prop where
  min_le : c.minInterval ≤ e.currentInterval
  le_max : e.currentInterval ≤ c.maxInterval
  armed : e.running = true → e.Armed

/-! ## Operations that leave the timer alone -/

/-- `e'` has the timer of `e`, and no interval has begun in between. -/
structure Keeps (e e' : Engine c) : Prop where
  running : e'.running = true → e.running = true
  currentInterval : e'.currentInterval = e.currentInterval
  t : e'.t = e.t
  tHasPassed : e'.tHasPassed = e.tHasPassed
  beaconTimer : e'.beaconTimer = e.beaconTimer
  attempt : .attempt ∈ sinceInterval e.log → .attempt ∈ sinceInterval e'.log

theorem Keeps.refl (e : Engine c) : Keeps e e := ⟨id, rfl, rfl, rfl, rfl, id⟩

theorem Keeps.trans {e e' e'' : Engine c} (h : Keeps e e') (h' : Keeps e' e'') : Keeps e e'' :=
  ⟨h.running ∘ h'.running, h'.currentInterval.trans h.currentInterval, h'.t.trans h.t,
    h'.tHasPassed.trans h.tHasPassed, h'.beaconTimer.trans h.beaconTimer, h'.attempt ∘ h.attempt⟩

theorem Good.keeps {e e' : Engine c} (h : Good e) (hk : Keeps e e') : Good e' where
  min_le := hk.currentInterval ▸ h.min_le
  le_max := hk.currentInterval ▸ h.le_max
  armed hrun := by
    cases h.armed (hk.running hrun) with
    | advertise hp ht hlo hhi =>
      refine .advertise (hk.tHasPassed.trans hp) ?_ ?_ ?_
      · rw [hk.beaconTimer, ht, hk.t]
      · rwa [hk.currentInterval, hk.t]
      · rwa [hk.currentInterval, hk.t]
    | remaining hp ht hhi ha =>
      refine .remaining (hk.tHasPassed.trans hp) ?_ ?_ (hk.attempt ha)
      · rw [hk.beaconTimer, ht, hk.currentInterval, hk.t]
      · rwa [hk.currentInterval, hk.t]

theorem keeps_evicted (neighbor : UInt16) (e : Engine c) : Keeps e (e.evicted neighbor) := by
  rw [evicted]
  dsimp only
  split <;> exact ⟨id, rfl, rfl, rfl, rfl, id⟩

theorem keeps_setNeighborCongested (n : UInt16) (congested : Bool) (e : Engine c) :
    Keeps e (e.setNeighborCongested n congested) := by
  rw [setNeighborCongested]
  split
  · exact .refl e
  · dsimp only
    split
    · exact ⟨id, rfl, rfl, rfl, rfl, id⟩
    · split <;> exact ⟨id, rfl, rfl, rfl, rfl, id⟩

theorem keeps_setRoot (e : Engine c) : Keeps e e.setRoot := by
  rw [setRoot]
  split <;> exact ⟨id, rfl, rfl, rfl, rfl, by simp [sinceInterval]⟩

theorem keeps_tell (v : Scan) (e : Engine c) : Keeps e (e.tell v) := by
  rw [tell]
  split
  · exact ⟨id, rfl, rfl, rfl, rfl, by simp [sinceInterval]⟩
  · split <;> exact ⟨id, rfl, rfl, rfl, rfl, by simp [sinceInterval]⟩

theorem keeps_sendBeaconTask (isCongested : Bool) (link : UInt16 → UInt16) (eval : TinyError)
    (e : Engine c) : Keeps e (e.sendBeaconTask isCongested link eval) := by
  rw [sendBeaconTask]
  split
  · exact .refl e
  · dsimp only
    split <;> exact ⟨id, rfl, rfl, rfl, rfl, by simp [sinceInterval]⟩

theorem keeps_sendDone (ours : Bool) (e : Engine c) : Keeps e (e.sendDone ours) := by
  rw [sendDone]
  split
  · exact .refl e
  · exact ⟨id, rfl, rfl, rfl, rfl, id⟩

theorem keeps_routeTimerFired (e : Engine c) : Keeps e e.routeTimerFired := by
  rw [routeTimerFired]
  split
  · exact ⟨id, rfl, rfl, rfl, rfl, id⟩
  · exact .refl e

/-! ## Operations that start the timer -/

/-- The advertise time lies in the second half of the interval. -/
theorem armed_chooseAdvertiseTime (rand32 : UInt32) {e : Engine c}
    (hmin : c.minInterval ≤ e.currentInterval) (hmax : e.currentInterval ≤ c.maxInterval) :
    (e.chooseAdvertiseTime rand32).Armed := by
  have h2 := UInt32.le_iff_toNat_le.1 c.two_le_min
  have hlt := UInt32.lt_iff_toNat_lt.1 c.max_lt
  rw [UInt32.le_iff_toNat_le] at hmin hmax
  have hI : (e.currentInterval / 2).toNat = e.currentInterval.toNat / 2 := UInt32.toNat_div _ _
  have h2' : (2 : UInt32).toNat = 2 := rfl
  have hbig : (0x80000000 : UInt32).toNat = 2147483648 := rfl
  have hr : (rand32 % (e.currentInterval / 2)).toNat < e.currentInterval.toNat / 2 := by
    rw [UInt32.toNat_mod, hI]
    exact Nat.mod_lt _ (by omega)
  have ht : (e.chooseAdvertiseTime rand32).t.toNat =
      e.currentInterval.toNat / 2 + (rand32 % (e.currentInterval / 2)).toNat := by
    rw [chooseAdvertiseTime, UInt32.toNat_add, hI]
    exact Nat.mod_eq_of_lt (by omega)
  refine .advertise rfl rfl ?_ ?_
  · rw [ht]
    exact Nat.le_add_right _ _
  · rw [ht]
    show _ < e.currentInterval.toNat
    omega

theorem good_resetInterval (rand32 : UInt32) (e : Engine c) : Good (e.resetInterval rand32) :=
  ⟨UInt32.le_refl _, c.min_le_max,
    fun _ => armed_chooseAdvertiseTime rand32 (UInt32.le_refl _) c.min_le_max⟩

/-- The interval is doubled, up to `maxInterval`. -/
theorem good_decayInterval (rand32 : UInt32) {e : Engine c}
    (hmin : c.minInterval ≤ e.currentInterval) (hmax : e.currentInterval ≤ c.maxInterval) :
    Good (e.decayInterval rand32) := by
  have hlt := UInt32.lt_iff_toNat_lt.1 c.max_lt
  have hbig : (0x80000000 : UInt32).toNat = 2147483648 := rfl
  have h2 : (2 : UInt32).toNat = 2 := rfl
  have hmm := UInt32.le_iff_toNat_le.1 c.min_le_max
  rw [UInt32.le_iff_toNat_le] at hmin hmax
  have hd : (e.currentInterval * 2).toNat = e.currentInterval.toNat * 2 := by
    rw [UInt32.toNat_mul, h2]
    exact Nat.mod_eq_of_lt (by omega)
  have hlo : c.minInterval ≤ (e.decayInterval rand32).currentInterval := by
    show _ ≤ if e.currentInterval * 2 > c.maxInterval then c.maxInterval else e.currentInterval * 2
    split
    · exact c.min_le_max
    · rw [UInt32.le_iff_toNat_le]
      omega
  have hhi : (e.decayInterval rand32).currentInterval ≤ c.maxInterval := by
    show (if e.currentInterval * 2 > c.maxInterval then c.maxInterval else e.currentInterval * 2) ≤ _
    split
    · exact UInt32.le_refl _
    · exact UInt32.not_lt.1 ‹_›
  exact ⟨hlo, hhi, fun _ => armed_chooseAdvertiseTime rand32 hlo hhi⟩

/-- The beacon is attempted at the advertise time, and the timer runs to the end of the interval. -/
theorem good_remainingInterval {e : Engine c} (hmin : c.minInterval ≤ e.currentInterval)
    (hmax : e.currentInterval ≤ c.maxInterval) (ht : e.t.toNat < e.currentInterval.toNat) :
    Good e.postUpdateRoute.postSendBeacon.remainingInterval := by
  refine ⟨hmin, hmax, fun _ => .remaining rfl ?_ ht (.head _)⟩
  show TimerMilli.oneShot (e.currentInterval - e.t).toNat = _
  rw [UInt32.toNat_sub_of_le _ _ (UInt32.le_iff_toNat_le.2 (Nat.le_of_lt ht))]
  rfl

theorem Good.updateRouteTask {e : Engine c} (h : Good e) (link : UInt16 → UInt16)
    (rand32 : UInt32) : Good (e.updateRouteTask link rand32) := by
  rw [Engine.updateRouteTask]
  split
  · exact h
  · have hk : Keeps e { e with routeInfo := (e.scan link).routeInfo } :=
      ⟨id, rfl, rfl, rfl, rfl, id⟩
    dsimp only
    split
    · refine Good.keeps ?_ (keeps_tell _ _)
      split
      · rw [changeParent]
        dsimp only
        split
        · exact good_resetInterval _ _
        · exact h.keeps ⟨id, rfl, rfl, rfl, rfl, by simp [sinceInterval]⟩
      · exact h.keeps hk
    · exact h.keeps (hk.trans (keeps_tell _ _))

theorem Good.receive {e : Engine c} (h : Good e) (lengthOk : Bool) (src : UInt16)
    (rcvBeacon : CtpRoutingHeader) (evicts : Option UInt16) (link : UInt16 → UInt16)
    (rand32 : UInt32) : Good (e.receive lengthOk src rcvBeacon evicts link rand32) := by
  rw [Engine.receive]
  split
  · exact h
  · dsimp only
    split
    · exact good_resetInterval _ _
    · split
      · refine Good.keeps ?_ (keeps_setNeighborCongested _ _ _)
        split
        · refine h.keeps ?_
          have hin : Keeps e { e with log := .insertNeighbor src :: e.log } :=
            ⟨id, rfl, rfl, rfl, rfl, by simp [sinceInterval]⟩
          cases evicts with
          | none => exact hin.trans ⟨id, rfl, rfl, rfl, rfl, by simp [sinceInterval]⟩
          | some neighbor =>
            exact (hin.trans (keeps_evicted neighbor _)).trans
              ⟨id, rfl, rfl, rfl, rfl, by simp [sinceInterval]⟩
        · exact h.keeps ⟨id, rfl, rfl, rfl, rfl, id⟩
      · exact h

/-! ## Runs -/

/-- The timer of a running engine fires only while the radio is on. -/
def FiresOn (e : Engine c) : Event → Prop
  | .beaconTimerFired _ => e.running = true → e.radioOn = true
  | _ => True

instance (e : Engine c) : DecidablePred e.FiresOn
  | .beaconTimerFired _ => inferInstanceAs (Decidable (_ → _))
  | .start .. | .stop | .startDone | .stopDone | .routeTimerFired | .updateRouteTask ..
  | .sendBeaconTask .. | .sendDone _ | .receive .. | .evicted _ | .recomputeRoutes
  | .triggerRouteUpdate _ | .setNeighborCongested .. | .setRoot | .unsetRoot => .isTrue trivial

theorem Good.beaconTimerFired {e : Engine c} (h : Good e) (rand32 : UInt32)
    (hon : e.running = true → e.radioOn = true) :
    Good (Engine.beaconTimerFired rand32 { e with beaconTimer := e.beaconTimer.expire }) := by
  rw [Engine.beaconTimerFired]
  dsimp only
  by_cases hrun : e.running = true
  · rw [if_pos (by simp [hrun, hon hrun])]
    split
    · refine good_remainingInterval h.min_le h.le_max ?_
      cases h.armed hrun with
      | advertise _ _ _ hhi => exact hhi
      | remaining _ _ hhi _ => exact hhi
    · exact good_decayInterval rand32 h.min_le h.le_max
  · rw [if_neg (by simp [hrun])]
    exact ⟨h.min_le, h.le_max, fun hrun' => absurd hrun' hrun⟩

theorem Good.step {e e' : Engine c} {ev : Event} (h : Good e) (hon : e.FiresOn ev)
    (hs : CtpRoutingEngineP.step e ev = some e') : Good e' := by
  cases ev with
  | start address rand32 =>
    cases hs
    rw [Engine.start]
    dsimp only
    split
    · exact h.keeps ⟨id, rfl, rfl, rfl, rfl, id⟩
    · exact (good_resetInterval _ _).keeps ⟨id, rfl, rfl, rfl, rfl, id⟩
  | stop => cases hs; exact ⟨h.min_le, h.le_max, nofun⟩
  | startDone => cases hs; exact h.keeps ⟨id, rfl, rfl, rfl, rfl, id⟩
  | stopDone => cases hs; exact h.keeps ⟨id, rfl, rfl, rfl, rfl, id⟩
  | beaconTimerFired rand32 =>
    obtain ⟨-, hs⟩ := Option.ite_none_right_eq_some.1 hs
    cases hs
    exact h.beaconTimerFired rand32 hon
  | routeTimerFired =>
    obtain ⟨-, hs⟩ := Option.ite_none_right_eq_some.1 hs
    cases hs
    have hk : Keeps e { e with routeTimer := e.routeTimer.expire } := ⟨id, rfl, rfl, rfl, rfl, id⟩
    exact h.keeps (hk.trans (keeps_routeTimerFired _))
  | updateRouteTask link rand32 =>
    obtain ⟨-, hs⟩ := Option.ite_none_right_eq_some.1 hs
    cases hs
    have hk : Keeps e { e with updateRoutePosted := false } := ⟨id, rfl, rfl, rfl, rfl, id⟩
    exact (h.keeps hk).updateRouteTask link rand32
  | sendBeaconTask isCongested link eval =>
    obtain ⟨-, hs⟩ := Option.ite_none_right_eq_some.1 hs
    cases hs
    have hk : Keeps e { e with sendBeaconPosted := false } := ⟨id, rfl, rfl, rfl, rfl, id⟩
    exact h.keeps (hk.trans (keeps_sendBeaconTask _ _ _ _))
  | sendDone ours => cases hs; exact h.keeps (keeps_sendDone ours e)
  | receive lengthOk src rcvBeacon evicts link rand32 =>
    cases hs
    exact h.receive lengthOk src rcvBeacon evicts link rand32
  | evicted neighbor => cases hs; exact h.keeps (keeps_evicted neighbor e)
  | recomputeRoutes => cases hs; exact h.keeps ⟨id, rfl, rfl, rfl, rfl, id⟩
  | triggerRouteUpdate rand32 => cases hs; exact good_resetInterval rand32 e
  | setNeighborCongested n congested =>
    cases hs
    exact h.keeps (keeps_setNeighborCongested n congested e)
  | setRoot => cases hs; exact h.keeps (keeps_setRoot e)
  | unsetRoot => cases hs; exact h.keeps ⟨id, rfl, rfl, rfl, rfl, id⟩

theorem good_init : Good ({} : Engine c) := ⟨UInt32.le_refl _, c.min_le_max, nofun⟩

theorem Good.alive {e : Engine c} (h : Good e) (hrun : e.running = true) : Alive e :=
  ⟨h.min_le, h.le_max, h.armed hrun⟩

/-- **The beacons of a running engine do not stop** while its timer does not fire with the radio
off. -/
theorem alive_of_firesOn {h : List (Engine c × Event)} {e : Engine c} (hr : (machine c).Run h e)
    (hon : ∀ p ∈ h, p.1.FiresOn p.2) :
    (e.running = true → e.radioOn = true → Alive e) ∧
      ∀ p ∈ h, p.1.running = true → p.1.radioOn = true → Alive p.1 := by
  obtain ⟨hg, hh⟩ := hr.inv_of_steps (P := Good) (C := FiresOn)
    (fun s hs => (show s = {} from hs) ▸ good_init) (fun _ _ _ hg hc hs => hg.step hc hs) hon
  exact ⟨fun hrun _ => hg.alive hrun, fun p hp hrun _ => (hh p hp).alive hrun⟩

/-- An engine that is started and hears that the radio is on. -/
theorem alive_of_firesOn_started :
    ∃ h e, (machine ctpP).Run h e ∧ (∀ p ∈ h, p.1.FiresOn p.2) ∧ Alive e := by
  obtain ⟨h, e, hr, he⟩ := Machine.exists_run_of_exec (M := machine ctpP) (s := {}) rfl
    [.start 1 0, .startDone]
    (fun h e => h.all (fun p => p.1.FiresOn p.2) && e.running && e.radioOn) (by decide)
  simp only [Bool.and_eq_true, List.all_eq_true, decide_eq_true_eq] at he
  exact ⟨h, e, hr, he.1.1, (alive_of_firesOn hr he.1.1).1 he.1.2 he.2⟩

/-- The timer fires before the radio is on, and nothing starts it again. -/
theorem not_alive : ∃ h e, (machine ctpP).Run h e ∧ e.running = true ∧ e.radioOn = true ∧
    ¬Alive e := by
  obtain ⟨h, e, hr, he⟩ := Machine.exists_run_of_exec (M := machine ctpP) (s := {}) rfl
    [.start 1 0, .beaconTimerFired 0, .startDone]
    (fun _ e => e.running && e.radioOn && e.beaconTimer = .stopped) (by decide)
  simp only [Bool.and_eq_true, decide_eq_true_eq] at he
  refine ⟨h, e, hr, he.1.1, he.1.2, fun ha => ?_⟩
  cases ha.armed with
  | advertise _ ht => exact nomatch he.2.symm.trans ht
  | remaining _ ht => exact nomatch he.2.symm.trans ht

end Engine

end CtpRoutingEngineP
