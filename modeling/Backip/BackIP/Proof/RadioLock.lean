import Backip.BackIP.Proof.QueueStep

/-!
# The radio lock

`radioBusy` is set by `sendDataTask` and by the beacon's way through `Send.send`. `sendDataTask`
clears it when the link refuses the packet; the beacon's way does not. So the lock is held without
a message at the link exactly in the runs in which the link refused a beacon
(`Queueing.lockHeld_iff`), and from then on it is held for ever (`Queueing.wedged`).
-/

set_option autoImplicit false

namespace BackIP

namespace QueueView

variable {v v' : QueueView} {e : QEvent}

/-- The lock is held only for a message at the link. -/
def LockHeld (v : QueueView) : Prop := v.busy = true → v.pending ≠ []

/-- The link refuses a message that takes the beacon's way. -/
def BeaconRefused (v : QueueView) : QEvent → Prop
  | .send _ _ _ r _ => v.flag = true ∧ v.busy = false ∧ r ≠ .success
  | _ => False

theorem LockHeld.of_not_busy (hb : v.busy = false) : v.LockHeld := fun h => by
  rw [hb] at h; cases h

/-- Every move but a refused beacon keeps the lock. -/
theorem Move.lockHeld (hv : v.Inv) (hl : v.LockHeld) (hm : Move v e v') :
    v'.LockHeld ↔ ¬ v.BeaconRefused e := by
  cases hm with
  | sendingBeacon => exact iff_of_true hl id
  | bypassBusy i frame len r now hf hb =>
    exact iff_of_true hl fun ⟨_, hb', _⟩ => Bool.false_ne_true (hb'.symm.trans hb)
  | bypass i frame len r now hf hb =>
    by_cases hr : r = .success
    · exact iff_of_true (fun _ => by simp [hr]) fun h => h.2.2 hr
    · refine iff_of_false (fun h => h rfl ?_) (not_not_intro ⟨hf, hb, hr⟩)
      simp [hr, (hv.idle hb).1]
  | refuse i frame len r now hf hfree =>
    exact iff_of_true hl fun ⟨hf', _⟩ => Bool.false_ne_true (hf.symm.trans hf')
  | accept i frame len r now m free q freeQe hf hfree hfreeQe =>
    exact iff_of_true hl fun ⟨hf', _⟩ => Bool.false_ne_true (hf.symm.trans hf')
  | taskBusy nb r hp hb => exact iff_of_true hl id
  | taskIdle nb r b hp hb hs hvz => exact iff_of_true hl id
  | taskNoNeighbour r b hp hb hs => exact iff_of_true hl id
  | giveUp a r b l q hp hb hs ht => exact iff_of_true (.of_not_busy rfl) id
  | transmit a b l q frame len hp hb hs ht => exact iff_of_true (fun _ => List.cons_ne_nil _ _) id
  | localSendFailed a r b l q frame len hr hp hb hs ht => exact iff_of_true (.of_not_busy rfl) id
  | sendNull a r b hp hb hs hvp => exact iff_of_true (.of_not_busy rfl) id
  | txRetryTimerFired ht => exact iff_of_true hl id
  | signalDone hp => exact iff_of_true hl id
  | retry m error now hm hs => exact iff_of_true (.of_not_busy rfl) id
  | deliver m error now txTime hm hs => exact iff_of_true (.of_not_busy rfl) id
  | beaconDone m error d now hm hs => exact iff_of_true (.of_not_busy rfl) id

/-- **A lock held for nothing is held for ever**: no move clears it, and none reaches the link. -/
theorem Move.wedged (hb : v.busy = true) (hp : v.pending = []) (hm : Move v e v') :
    v'.busy = true ∧ v'.pending = [] := by
  cases hm with
  | sendingBeacon => exact ⟨hb, hp⟩
  | bypassBusy i frame len r now hf _ => exact ⟨hb, hp⟩
  | bypass i frame len r now hf hb' => rw [hb] at hb'; cases hb'
  | refuse i frame len r now hf hfree => exact ⟨hb, hp⟩
  | accept i frame len r now m free q freeQe hf hfree hfreeQe => exact ⟨hb, hp⟩
  | taskBusy nb r _ _ => exact ⟨hb, hp⟩
  | taskIdle nb r b _ hb' hs hvz => rw [hb] at hb'; cases hb'
  | taskNoNeighbour r b _ hb' hs => rw [hb] at hb'; cases hb'
  | giveUp a r b l q _ hb' hs ht => rw [hb] at hb'; cases hb'
  | transmit a b l q frame len _ hb' hs ht => rw [hb] at hb'; cases hb'
  | localSendFailed a r b l q frame len hr _ hb' hs ht => rw [hb] at hb'; cases hb'
  | sendNull a r b _ hb' hs hvp => rw [hb] at hb'; cases hb'
  | txRetryTimerFired ht => exact ⟨hb, hp⟩
  | signalDone _ => exact ⟨hb, hp⟩
  | retry m error now hm hs => rw [hp] at hm; cases hm
  | deliver m error now txTime hm hs => rw [hp] at hm; cases hm
  | beaconDone m error d now hm hs => rw [hp] at hm; cases hm

end QueueView

namespace Queueing

variable {s : Queueing}

/-- The lock is held only for a message at the link. -/
def LockHeld (s : Queueing) : Prop := s.radioBusy = true → s.pending ≠ []

/-- The link refuses a message that takes the beacon's way. -/
def BeaconRefused (s : Queueing) : QEvent → Prop
  | .send _ _ _ r _ => s.sendingBeacon = true ∧ s.radioBusy = false ∧ r ≠ .success
  | _ => False

instance (s : Queueing) : (e : QEvent) → Decidable (s.BeaconRefused e)
  | .send _ _ _ r _ =>
    inferInstanceAs (Decidable (s.sendingBeacon = true ∧ s.radioBusy = false ∧ r ≠ .success))
  | .sendingBeacon | .sendDataTask .. | .txRetryTimerFired | .signalDone | .subSendDone .. =>
    instDecidableFalse

/-- **The radio lock.** It is held only for a message at the link, in every state of a run, exactly
if the link refuses no beacon in the run. -/
theorem lockHeld_iff {h : List (Queueing × QEvent)} (hr : machine.Run h s) :
    (s.LockHeld ∧ ∀ p ∈ h, p.1.LockHeld) ↔ ∀ p ∈ h, ¬ p.1.BeaconRefused p.2 := by
  apply hr.forall_iff (P := LockHeld) (C := fun s e => ¬ s.BeaconRefused e) inductive_inv
  · intro s0 h0 hb
    rw [show s0 = boot.start from h0] at hb
    cases hb
  · intro s e s' hv hl hs
    exact (step_move hv hs).lockHeld hv hl

/-- A run in which the link accepts a beacon and holds it. -/
theorem lockHeld_iff_beacon : ∃ h s, machine.Run h s ∧ s.radioBusy = true ∧ s.LockHeld := by
  obtain ⟨h, s, hr, hp⟩ := Machine.exists_run_of_exec (M := machine) rfl
    [.sendingBeacon, .send 0 ⟨[], 0, 0, 0, .beacon 1⟩ 20 .success 0]
    (fun h s => s.radioBusy = true ∧ ∀ p ∈ h, ¬ p.1.BeaconRefused p.2) (by decide)
  obtain ⟨hb, hno⟩ := of_decide_eq_true hp
  exact ⟨h, s, hr, hb, ((lockHeld_iff hr).2 hno).1⟩

/-- A run that once held the lock for nothing holds it for nothing at its end. -/
theorem wedged {h : List (Queueing × QEvent)} (hr : machine.Run h s) {p : Queueing × QEvent}
    (hp : p ∈ h) (hb : p.1.radioBusy = true) (hnil : p.1.pending = []) :
    s.radioBusy = true ∧ s.pending = [] := by
  induction hr with
  | init _ => cases hp
  | step hr hs ih =>
    have hm := step_move (hr.inv inductive_inv) hs
    rcases List.mem_cons.1 hp with rfl | hp
    · exact hm.wedged hb hnil
    · exact hm.wedged (ih hp).1 (ih hp).2

/-- The link refuses a beacon: nothing is at the link and the radio is locked. -/
theorem lockHeld_false : ¬ ∀ s, machine.Reachable s → s.LockHeld := by
  intro hall
  obtain ⟨h, s, hr, hp⟩ := Machine.exists_run_of_exec (M := machine) rfl
    [.sendingBeacon, .send 0 ⟨[], 0, 0, 0, .beacon 1⟩ 20 .fail 0]
    (fun _ s => s.radioBusy = true ∧ s.pending = []) (by decide)
  obtain ⟨hb, hnil⟩ := of_decide_eq_true hp
  exact hall s ⟨h, hr⟩ hb hnil

end Queueing

end BackIP
