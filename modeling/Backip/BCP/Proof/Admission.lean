import Backip.BCP.Proof.Ownership

/-!
# A forwarding node always has room

On a node that never becomes a root the `sending` flag is a lock (`View.Calm`): the task is posted,
and the link holds a message, only while it is set, and never both. So `sendDataTask` never finds
its packet at the link, every step is safe, and `View.Owned` holds throughout: discarding the oldest
packet of a full stack leaves an entry, a message and a slot for the next one.
-/

set_option autoImplicit false

namespace BCP

namespace View

variable {cfg : Config} {v v' v₁ : View} {a : Answers}

/-- The `sending` flag as a lock, on a node that is no root. -/
structure Calm (v : View) : Prop where
  root : v.isRoot = false
  posted : v.posted = true → v.sending = true
  pending : v.pending ≠ none → v.sending = true ∧ v.posted = false

namespace Calm

theorem pending_of_posted (h : v.Calm) (hp : v.posted = true) : v.pending = none := by
  by_contra hne
  have hpost := (h.pending hne).2
  rw [hp] at hpost
  cases hpost

theorem pending_of_idle (h : v.Calm) (hs : v.sending = false) : v.pending = none := by
  by_contra hne
  have hsend := (h.pending hne).1
  rw [hs] at hsend
  cases hsend

theorem activity (h : v.Calm) : v.activity.Calm := by
  rcases v.activity_cases with he | ⟨hr, -⟩ | ⟨-, hs, he⟩
  · rw [he]
    exact h
  · rw [h.root] at hr
    cases hr
  · rw [he]
    exact ⟨h.root, fun _ => rfl, absurd (h.pending_of_idle hs)⟩

theorem discard (cfg : Config) (h : v.Calm) : (v.discard cfg).Calm := by
  obtain ⟨_, _, _, _, hd⟩ := discard_frame cfg v
  rw [hd]
  exact ⟨h.root, h.posted, h.pending⟩

end Calm

/-- Coming to a packet to send changes none of the flags. -/
theorem Ready.flags (hv : Ready v a v₁) : v₁.isRoot = v.isRoot ∧ v₁.posted = v.posted ∧
    v₁.sending = v.sending ∧ v₁.pending = v.pending ∧ v₁.radioOn = v.radioOn := by
  cases hv with
  | current | next | null => exact ⟨rfl, rfl, rfl, rfl, rfl⟩

/-- The task runs only when it is posted. -/
theorem Move.posted (hmove : Move cfg v (.sendDataTask a) v') : v.posted = true := by
  cases hmove with
  | serveCurrent _ hp | serveStack _ _ _ hp | rootIdle _ hp | servePhantom _ _ _ hp
  | taskEmpty _ hp | noRoute _ hp | giveUp _ _ hp | transmit _ _ hp => exact hp

theorem Calm.safe (h : v.Calm) {e : Event} (hmove : Move cfg v e v') : v.Safe e := by
  cases e with
  | sendDataTask a =>
    simp only [Safe, h.root, Bool.false_eq_true, if_false]
    intro _ _
    exact h.pending_of_posted hmove.posted
  | _ => exact trivial

/-- **Every move but becoming a root keeps the lock.** -/
theorem Calm.move (h : v.Calm) {e : Event} (he : e ≠ .setRoot) (hmove : Move cfg v e v') :
    v'.Calm := by
  cases hmove with
  | setRoot => exact absurd rfl he
  | startFailed | stopFailed | sendRefused | snoopIdle | beaconTimerFired | beaconSendDone |
    beaconReceive => exact h
  | start | stop | stopDone | sendBeaconTask | txRetryIdle | receiveDropped | snoopDropped |
    receiveRoot | snoopQueued | snoopHandled => exact ⟨h.root, h.posted, h.pending⟩
  | unsetRoot => exact ⟨rfl, h.posted, h.pending⟩
  | startDone => exact Calm.activity ⟨h.root, h.posted, h.pending⟩
  | sendAccepted m len now q freeQe msg free hq hm =>
    have hd := h.discard cfg
    exact Calm.activity ⟨hd.root, hd.posted, hd.pending⟩
  | receiveForward msg frame a delay q freeQe newMsg free hm hr hq hf =>
    have hd := h.discard cfg
    exact Calm.activity ⟨hd.root, hd.posted, hd.pending⟩
  | serveCurrent a hp hr | serveStack a l q hp hr | rootIdle a hp hr | servePhantom a v' q hp hr =>
    rw [h.root] at hr
    cases hr
  | taskEmpty a hp hr ho hs hv =>
    exact ⟨h.root, nofun, fun hne => ⟨(h.pending hne).1, rfl⟩⟩
  | noRoute a hp hr ho hs hn =>
    exact ⟨h.root, nofun, absurd (h.pending_of_posted hp)⟩
  | giveUp v₁ a hp hr hv ht =>
    obtain ⟨hroot, hposted, -, hpending, -⟩ := hv.flags
    obtain ⟨_, _, _, _, hd⟩ := discard_frame cfg v₁
    rw [hd]
    refine ⟨hroot.trans h.root, fun hpost => ?_, fun hne => ?_⟩
    · rw [hposted] at hpost
      cases hpost
    · exact absurd (hpending.trans (h.pending_of_posted hp)) hne
  | transmit v₁ a hp hr hv ht =>
    obtain ⟨hroot, -, hsending, hpending, -⟩ := hv.flags
    have hsend : v₁.sending = true := hsending.trans (h.posted hp)
    have hnone : v₁.pending = none := hpending.trans (h.pending_of_posted hp)
    refine ⟨hroot.trans h.root, fun _ => hsend, fun hne => ⟨hsend, ?_⟩⟩
    by_cases hans : v₁.answer a.subSend = .success
    · simp [hans]
    · simp [hans, hnone] at hne
  | txRetry again ht hs =>
    exact ⟨h.root, fun _ => rfl, absurd (h.pending_of_idle hs)⟩
  | sendFailed m error acked now hp =>
    have hsend := (h.pending (by simp [hp])).1
    exact ⟨h.root, fun _ => hsend, absurd rfl⟩
  | finish m now hp =>
    have hpost := (h.pending (by simp [hp])).2
    refine Calm.activity ⟨h.root, fun hp' => ?_, absurd rfl⟩
    cases hpost.symm.trans hp'

end View

namespace Forwarder

variable {cfg : Config} {s s' : Forwarder}

/-- A node that never becomes a root. -/
abbrev plain (cfg : Config) : Machine Forwarder Event := (machine cfg).restrict (· ≠ .setRoot)

/-- Everything is in its place, and the `sending` flag is a lock. -/
theorem plain_inductive (cfg : Config) :
    (plain cfg).Inductive fun s => s.view.Owned cfg ∧ s.view.Calm where
  init := by
    rintro s rfl
    exact ⟨owned_boot cfg, rfl, nofun, absurd rfl⟩
  step := by
    rintro s e s' ⟨howned, hcalm⟩ hstep
    obtain ⟨he, hstep⟩ := Machine.restrict_step hstep
    have hmove := s.step_move howned hstep
    exact ⟨owned_step howned (hcalm.safe hmove) hstep, hcalm.move he hmove⟩

/-- A `Send.send` of a legal length succeeds. -/
theorem send_admitted (h : s.view.Owned cfg) {m : Message} {len : UInt8} {now : UInt32}
    (hrun : s.running = true) (hlen : len ≤ maxPayloadLength cfg)
    (hstep : s.step cfg (.send m len now) = some s') : s'.calls.head? = some (.send .success) := by
  rw [← Option.some.inj hstep, send_success s h.counted m now hrun hlen]
  rfl

/-- An arrival that passes the checks enters the queue in the buffer it arrived in. -/
theorem receive_admitted (h : s.view.Owned cfg) (hroot : s.isRoot = false) {msg : MsgPtr}
    {frame : Message} {a : Answers} (hv : s.verdict cfg frame = .fresh)
    (hstep : s.step cfg (.receive msg frame a) = some s') :
    ∃ q ∈ s'.sendStack.toList, (s'.qe q).source = 2 ∧ (s'.qe q).msg = msg := by
  unfold step at hstep
  obtain ⟨-, t, ht, hmem, htable, hs'⟩ := s.arrive_view hstep
  have hvt : t.verdict cfg (t.mem msg) = .fresh := by
    rw [hmem, ← hv]
    unfold verdict
    rw [htable]
  have hacc := t.view_accept msg
  rw [ht] at hacc
  have hrt : (t.accept msg).isRoot = false := (congrArg View.isRoot hacc).trans hroot
  obtain ⟨q, freeQe, newMsg, free, delay, -, -, hview⟩ :=
    view_forward_radio cfg (t.accept msg) h.counted hacc a.now
  have hsub : t.subReceive cfg msg a = (t.accept msg).forward cfg msg a.now := by
    unfold subReceive
    simp only [hvt, hrt, Bool.false_eq_true, if_false]
  have hview' := congrArg view hs'
  rw [hsub] at hview'
  replace hview' := hview'.trans hview
  obtain ⟨virtual, posted, sending, hact⟩ := View.activity_frame { s.view.discard cfg with
    freeQe := freeQe
    free := free
    qe := Function.update s.view.qe q
      { source := 2, arrivalTime := a.now, bcpArrivalDelay := delay, msg := msg }
    radio := newMsg :: s.view.radio.erase msg
    stack := View.inserted cfg (s.view.discard cfg).stack q }
  rw [hact] at hview'
  have hstack : s'.sendStack.toList = View.inserted cfg (s.view.discard cfg).stack q :=
    congrArg View.stack hview'
  have hqe : s'.qe q = { source := 2, arrivalTime := a.now, bcpArrivalDelay := delay, msg := msg } :=
    (congrFun (congrArg View.qe hview') q).trans (Function.update_self ..)
  refine ⟨q, ?_, ?_, ?_⟩
  · rw [hstack]
    exact (View.inserted_perm cfg _ q).symm.subset (.head _)
  · rw [hqe]
  · rw [hqe]

/-- **Traffic is always admitted.** In every run of a node that never becomes a root a `Send.send`
of a legal length to the running engine returns `SUCCESS`, an arrival that passes the checks enters
the queue, and no pool, and neither the stack nor the snoop queue, has ever failed. -/
theorem always_admits {h : List (Forwarder × Event)} (hr : (plain cfg).Run h s) :
    (∀ m len now s', s.running = true → len ≤ maxPayloadLength cfg →
        (plain cfg).step s (.send m len now) = some s' →
          s'.calls.head? = some (.send .success)) ∧
      (∀ msg frame a s', s.verdict cfg frame = .fresh →
        (plain cfg).step s (.receive msg frame a) = some s' →
          ∃ q ∈ s'.sendStack.toList, (s'.qe q).source = 2 ∧ (s'.qe q).msg = msg) ∧
      ∀ c ∈ s.calls, c.isFault = false := by
  obtain ⟨howned, hcalm⟩ := hr.inv (plain_inductive cfg)
  refine ⟨?_, ?_, ?_⟩
  · intro m len now s' hrun hlen hstep
    exact send_admitted howned hrun hlen (Machine.restrict_step hstep).2
  · intro msg frame a s' hv hstep
    exact receive_admitted howned hcalm.root hv (Machine.restrict_step hstep).2
  · intro c
    exact not_fault_of_owned howned

/-- Two packets on the stack, and the next one is admitted. -/
theorem always_admits_backlog : ∃ h s, (plain exampleConfig).Run h s ∧ s.sendStack.size = 2 ∧
    ∃ s', (plain exampleConfig).step s (.send {} 20 0) = some s' ∧
      s'.calls.head? = some (.send .success) := by
  obtain ⟨h, s, hr, hp⟩ := Machine.exists_run_of_exec (M := plain exampleConfig) rfl
    [.start, .startDone .success, .send {} 20 0, .send {} 20 0]
    (fun _ s => s.sendStack.size = 2 && s.running) (by decide)
  rw [Bool.and_eq_true, decide_eq_true_iff] at hp
  exact ⟨h, s, hr, hp.1, _, rfl, (always_admits hr).1 {} 20 0 _ hp.2 (by decide) rfl⟩

end Forwarder

end BCP
