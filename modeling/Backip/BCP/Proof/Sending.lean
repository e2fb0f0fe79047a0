import Backip.BCP.Proof.Admission
import Mathlib

/-!
# When the `sending` flag is stuck

While `sending` is set somebody has to act: the task is posted, the link holds a message, or the
radio is off (`View.Unstuck`). `View.Restores` is what each step must find for this to stay so. The
steps that fail it: `sendDataTask` finds nothing to send (the retry timer fires after the queue has
drained) and returns with the flag set; the link refuses a packet with a code other than `EBUSY` and
`EOFF`, on which nothing is done; and `RadioControl.startDone` finds the flag still set from a packet
the link refused with `EOFF`, so that `forwarderActivity` does nothing.
-/

set_option autoImplicit false

namespace BCP

namespace View

variable {cfg : Config} {v v' v₁ : View} {a : Answers}

def Unstuck (v : View) : Prop :=
  v.sending = true → v.posted = true ∨ v.pending ≠ none ∨ v.radioOn = false

/-- `sendDataTask` gives the link a packet. -/
def transmits (v : View) (a : Answers) : Bool :=
  if v.occupied then (v.qe v.sendQe).txCount < maxRetxAttempts
  else a.route.isSome && v.stack.getLast?.all fun q => (v.qe q).txCount < maxRetxAttempts

/-- What a step must find: `sendDataTask` something to send, and a link that takes the packet, is
busy or is off; the start of the radio, no `sending` flag that nobody acts on. -/
def Restores (v : View) : Event → Prop
  | .sendDataTask a =>
    v.radioOn = true → v.backlog = true ∧
      (v.transmits a = true → a.subSend = .success ∨ a.subSend = .ebusy ∨ a.subSend = .eoff)
  | .startDone .success => v.sending = true → v.posted = true ∨ v.pending ≠ none
  | _ => True

instance (v : View) (e : Event) : Decidable (v.Restores e) := by
  unfold Restores
  split <;> infer_instance

/-- `forwarderActivity` sets the flag and posts the task. -/
theorem Unstuck.activity (h : v.Unstuck) (hr : v.isRoot = false) : v.activity.Unstuck := by
  rcases v.activity_cases with he | ⟨hr', -⟩ | ⟨-, -, he⟩
  · rw [he]
    exact h
  · rw [hr] at hr'
    cases hr'
  · rw [he]
    exact fun _ => .inl rfl

theorem Unstuck.discard (cfg : Config) (h : v.Unstuck) : (v.discard cfg).Unstuck := by
  obtain ⟨_, _, _, _, hd⟩ := discard_frame cfg v
  rw [hd]
  exact h

/-- Once the radio is on, the flag is not stuck exactly if it was not. -/
theorem unstuck_startDone (hr : v.isRoot = false) :
    (View.activity { v with radioOn := true }).Unstuck ↔
      (v.sending = true → v.posted = true ∨ v.pending ≠ none) := by
  rcases View.activity_cases { v with radioOn := true } with he | ⟨hr', -⟩ | ⟨-, hs, he⟩
  · rw [he]
    simp [Unstuck]
  · rw [show v.isRoot = true from hr'] at hr
    cases hr
  · rw [he]
    simp [Unstuck, show v.sending = false from hs]

/-- The task tries a packet a last time, or gives up on it, as `transmits` says. -/
theorem Ready.transmits (hv : Ready { v with posted := false } a v₁) :
    v.backlog = true ∧
      (v.transmits a = true ↔ (v₁.qe v₁.sendQe).txCount < maxRetxAttempts) := by
  cases hv with
  | current ho => simp [backlog, View.transmits, show v.occupied = true from ho]
  | next l q ho hr hs =>
    have hs' : v.stack = l ++ [q] := hs
    have hr' := Option.isSome_iff_ne_none.2 hr
    simp [backlog, View.transmits, show v.occupied = false from ho, hs', hr']
  | null q freeQe m free ho hr hs hv hq hm =>
    have hs' : v.stack = [] := hs
    have hv' : 0 < v.virtual := UInt16.pos_iff_ne_zero.2 hv
    have hr' := Option.isSome_iff_ne_none.2 hr
    simp [backlog, View.transmits, show v.occupied = false from ho, hs', hr', hv']
    decide

/-- **Which moves keep the flag from getting stuck**, on a node that is no root. -/
theorem unstuck_of_move_iff (hc : v.Calm) (h : v.Unstuck) {e : Event} (he : e ≠ .setRoot)
    (hmove : Move cfg v e v') : v'.Unstuck ↔ v.Restores e := by
  cases hmove with
  | setRoot => exact absurd rfl he
  | start | stop | unsetRoot | stopFailed | sendRefused | snoopIdle |
    beaconTimerFired | beaconSendDone | beaconReceive | receiveDropped | snoopDropped |
    receiveRoot | snoopQueued | snoopHandled | txRetryIdle => exact iff_of_true h (by trivial)
  | startDone => exact unstuck_startDone hc.root
  | startFailed error herror =>
    refine iff_of_true h ?_
    cases error with
    | success => exact absurd rfl herror
    | _ => exact trivial
  | stopDone => exact iff_of_true (fun _ => .inr (.inr rfl)) trivial
  | sendBeaconTask r off =>
    refine iff_of_true (fun hs => ?_) trivial
    rcases h hs with hp | hp | hp
    · exact .inl hp
    · exact .inr (.inl hp)
    · refine .inr (.inr ?_)
      change (v.radioOn && !off) = false
      rw [hp, Bool.false_and]
  | sendAccepted m len now q freeQe msg free hq hm =>
    refine iff_of_true (Unstuck.activity ?_ ?_) trivial
    · exact h.discard cfg
    · exact (hc.discard cfg).root
  | receiveForward msg frame a delay q freeQe newMsg free hm hr hq hf =>
    refine iff_of_true (Unstuck.activity ?_ ?_) trivial
    · exact h.discard cfg
    · exact (hc.discard cfg).root
  | serveCurrent a hp hr | serveStack a l q hp hr | rootIdle a hp hr | servePhantom a v' q hp hr =>
    rw [hc.root] at hr
    cases hr
  | taskEmpty a hp hr ho hs hv =>
    have hsend := hc.posted hp
    have hnone := hc.pending_of_posted hp
    simp [Unstuck, Restores, backlog, ho, hs, hv, hsend, hnone]
  | noRoute a hp hr ho hs hn =>
    refine iff_of_true nofun fun _ => ⟨?_, ?_⟩
    · rcases hs with hs | hs
      · simp [backlog, hs]
      · simp [backlog, UInt16.pos_iff_ne_zero.2 hs]
    · simp [transmits, ho, hn]
  | giveUp v₁ a hp hr hv ht =>
    obtain ⟨hback, htrans⟩ := hv.transmits
    refine iff_of_true nofun fun _ => ⟨hback, fun htr => ?_⟩
    exact absurd (htrans.1 htr) (UInt8.not_lt.2 ht)
  | transmit v₁ a hp hr hv ht =>
    obtain ⟨hback, htrans⟩ := hv.transmits
    obtain ⟨-, -, hsending, hpending, hradio⟩ := hv.flags
    have hsend : v₁.sending = true := hsending.trans (hc.posted hp)
    have hnone : v₁.pending = none := hpending.trans (hc.pending_of_posted hp)
    have hon : v₁.radioOn = v.radioOn := hradio
    have hans : v₁.answer a.subSend = a.subSend := by simp [answer, hnone]
    simp only [Unstuck, Restores, hsend, hnone, hon, hans, hback, htrans.2 ht, true_implies,
      true_and]
    cases a.subSend <;> simp
  | txRetry again ht hs => exact iff_of_true (fun _ => .inl rfl) trivial
  | sendFailed m error acked now hp => exact iff_of_true (fun _ => .inl rfl) trivial
  | finish m now hp => exact iff_of_true (Unstuck.activity nofun hc.root) trivial

/-- A running node that has a packet acts when its radio starts, unless the flag is stuck. -/
theorem restarts (hr : v.isRoot = false) (hrun : v.running = true) (hback : v.backlog = true)
    (h : (View.activity { v with radioOn := true }).Unstuck) :
    (View.activity { v with radioOn := true }).posted = true ∨
      (View.activity { v with radioOn := true }).pending ≠ none := by
  have hback' : View.backlog { v with radioOn := true } = true := hback
  have hsend : (View.activity { v with radioOn := true }).sending = true := by
    unfold activity
    rw [hback']
    cases hs : v.sending with
    | false => simp [hrun, hr]
    | true => simp [hrun, hr]
  have hon : (View.activity { v with radioOn := true }).radioOn = true := by
    obtain ⟨_, _, _, hact⟩ := View.activity_frame { v with radioOn := true }
    rw [hact]
  rcases h hsend with hp | hp | hp
  · exact .inl hp
  · exact .inr hp
  · rw [hon] at hp
    cases hp

end View

namespace Forwarder

variable {cfg : Config} {s s' : Forwarder}

/-- `RadioControl.startDone (SUCCESS)` of a running node that has a packet posts the task, unless the
link is sending. -/
def Restarts (s : Forwarder) : Event → Prop
  | .startDone .success =>
    s.running = true → s.view.backlog = true →
      (s.startDone .success).sendDataPosted = true ∨ (s.startDone .success).pending ≠ none
  | _ => True

theorem restarts_of_restores (hc : s.view.Calm) {e : Event} (h : s.view.Restores e) :
    s.Restarts e := by
  cases e with
  | startDone error =>
    cases error with
    | success =>
      intro hrun hback
      have hview : (s.startDone .success).view = View.activity { s.view with radioOn := true } :=
        view_forwarderActivity { s with radioOn := true }
      have hact := View.restarts hc.root hrun hback ((View.unstuck_startDone hc.root).2 h)
      rw [← hview] at hact
      exact hact
    | _ => exact trivial
  | _ => exact trivial

/-- **The `sending` flag never gets stuck, and the start of the radio finds a packet, exactly if**
every `sendDataTask` and every start of the radio finds what it needs (`View.Restores`). -/
theorem unstuck_iff {h : List (Forwarder × Event)} (hr : (plain cfg).Run h s) :
    (s.view.Unstuck ∧ ∀ p ∈ h, p.1.view.Unstuck ∧ p.1.Restarts p.2) ↔
      ∀ p ∈ h, p.1.view.Restores p.2 := by
  have hiff := hr.forall_iff (P := fun s => s.view.Unstuck) (C := fun s e => s.view.Restores e)
    (plain_inductive cfg) (by rintro s rfl; exact nofun) ?_
  · have hcalm := (hr.inv_of_steps (C := fun _ _ => True) (plain_inductive cfg).init
      (fun s e s' hI _ hstep => (plain_inductive cfg).step s e s' hI hstep) (by simp)).2
    constructor
    · rintro ⟨hs, hh⟩
      exact hiff.1 ⟨hs, fun p hp => (hh p hp).1⟩
    · intro hC
      obtain ⟨hs, hh⟩ := hiff.2 hC
      exact ⟨hs, fun p hp => ⟨hh p hp, restarts_of_restores (hcalm p hp).2 (hC p hp)⟩⟩
  · rintro s e s' ⟨howned, hcalm⟩ hs hstep
    obtain ⟨he, hstep⟩ := Machine.restrict_step hstep
    exact View.unstuck_of_move_iff hcalm hs he (s.step_move howned hstep)

/-- While a packet is at the link the flag is not stuck. -/
theorem unstuck_sending : ∃ h s, (plain exampleConfig).Run h s ∧ s.sending = true ∧
    s.view.Unstuck := by
  obtain ⟨h, s, hr, hp⟩ := Machine.exists_run_of_exec (M := plain exampleConfig) rfl
    [.start, .startDone .success, .send {} 20 0, .sendDataTask { route := some (2, 0) }]
    (fun h s => s.sending && decide (∀ p ∈ h, p.1.view.Restores p.2)) (by decide)
  rw [Bool.and_eq_true] at hp
  exact ⟨h, s, hr, hp.1, ((unstuck_iff hr).2 (of_decide_eq_true hp.2)).1⟩

/-- The retry timer, started while no neighbor was known, fires after the packet has been sent: the
flag stays set, and nothing else ever clears it. -/
theorem unstuck_false : ¬ ∀ (cfg : Config) (h : List (Forwarder × Event)) (s : Forwarder),
    (plain cfg).Run h s →
      s.view.Unstuck ∧ ∀ p ∈ h, p.1.view.Unstuck ∧ p.1.Restarts p.2 := by
  intro hall
  obtain ⟨h, s, hr, hp⟩ := Machine.exists_run_of_exec (M := plain exampleConfig) rfl
    [.start, .startDone .success, .send {} 20 0, .sendDataTask {}, .send {} 20 0,
      .sendDataTask { route := some (2, 0) }, .subSendDone .success true 0,
      .sendDataTask { route := some (2, 0) }, .subSendDone .success true 0, .txRetryTimerFired,
      .sendDataTask {}]
    (fun _ s => s.sending && !s.sendDataPosted && s.pending.isNone && s.radioOn)
    (by decide)
  simp only [Bool.and_eq_true, Bool.not_eq_true', Option.isNone_iff_eq_none] at hp
  obtain ⟨⟨⟨hsend, hpost⟩, hpend⟩, hon⟩ := hp
  rcases (hall _ h s hr).1 hsend with h1 | h1 | h1
  · exact absurd h1 (Bool.eq_false_iff.1 hpost)
  · exact h1 hpend
  · exact absurd hon (Bool.eq_false_iff.1 h1)

end Forwarder

end BCP
