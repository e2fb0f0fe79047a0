import Backip.Ctp.Proof.Conservation
import Mathlib

/-!
# CTP: the forwarder does not stall

While there is a packet in the queue and the radio is on, `sendTask` is posted, `RetxmitTimer` is
running, or the link has a message to signal done (`Moving`). Every handler sees to this but for
`sendTask`, which does nothing when `SubSend.send` returns `EBUSY`, `EOFF` or `FAIL`. `moving_iff`: the
forwarder keeps moving exactly as long as that only happens while the timer is running or the link has a
message.

Nothing here depends on where the buffers are.
-/

set_option autoImplicit false

namespace Ctp.Forwarder

variable {cfg : Config} {s s' : Forwarder cfg}

/-- What will run `sendTask`. -/
def Armed (s : Forwarder cfg) : Prop :=
  s.sendPosted = true ∨ s.retxmitTimer.isRunning = true ∨ s.pending.isSome = true

/-- A packet that waits will be sent. -/
def Moving (s : Forwarder cfg) : Prop := s.radioOn = true → s.queue ≠ [] → s.Armed

/-- `SENDING` will be cleared. -/
structure Live (s : Forwarder cfg) : Prop where
  moving : s.Moving
  sending : s.sending = true → s.retxmitTimer.isRunning = true ∨ s.pending.isSome = true

/-- The parts of the state that matter here are as they were. -/
structure Still (s s' : Forwarder cfg) : Prop where
  sendQueue : s'.sendQueue = s.sendQueue
  radioOn : s'.radioOn = s.radioOn
  sending : s'.sending = s.sending
  sendPosted : s'.sendPosted = s.sendPosted
  retxmitTimer : s'.retxmitTimer = s.retxmitTimer
  pending : s'.pending = s.pending

theorem Live.still (h : Live s) (hs : Still s s') : Live s' where
  moving := by
    rw [Moving, Armed, queue, hs.sendQueue, hs.radioOn, hs.sendPosted, hs.retxmitTimer, hs.pending]
    exact h.moving
  sending := by
    rw [hs.sending, hs.retxmitTimer, hs.pending]
    exact h.sending

/-- A timer that runs is enough. -/
theorem live_of_timer (h : s.retxmitTimer.isRunning = true) : Live s :=
  ⟨fun _ _ => .inr (.inl h), fun _ => .inl h⟩

/-! ## The handlers -/

theorem swap_still (s : Forwarder cfg) (msg back : MsgPtr) : Still s (s.swap msg back).2 := by
  rw [swap]
  split <;> exact ⟨rfl, rfl, rfl, rfl, rfl, rfl⟩

/-- `SubSend.sendDone` starts the timer in any case. -/
theorem subSendDone_timer (s : Forwarder cfg) (msg : MsgPtr) (error : TinyError) (rand16 : UInt16) :
    (s.subSendDone msg error rand16).retxmitTimer.isRunning = true := by
  have hcomplete (t : Forwarder cfg) (q : QePtr) (success : Bool) :
      (t.packetComplete q msg success).retxmitTimer = t.retxmitTimer := by
    rw [packetComplete]
    dsimp only
    split
    · rfl
    · cases success <;> rfl
  rw [subSendDone]
  dsimp only
  split
  · rfl
  · split
    · split
      · rfl
      · rw [hcomplete]
        rfl
    · rw [hcomplete]
      rfl

theorem enqueue_still {q : QePtr} (h : (s.enqueue q).1 ≠ .success) : Still s (s.enqueue q).2 :=
  ⟨QueueC.enqueue_refused h, rfl, rfl, rfl, rfl, rfl⟩

/-- With the packet in the queue the task is posted, unless a packet is being sent. -/
theorem Live.occupy (h : Live s) (q : QePtr) (client : Nat) :
    Live ((s.enqueue q).2.occupy client) := by
  refine ⟨fun hr _ => ?_, h.sending⟩
  change s.radioOn = true at hr
  cases hsend : s.sending with
  | true => exact .inr (h.sending hsend)
  | false =>
    left
    change (s.sendPosted || (s.radioOn && !s.sending)) = true
    rw [hsend, hr]
    exact Bool.or_true _

theorem Live.send (h : Live s) (client : Nat) (msg : MsgPtr) (len : UInt8) :
    Live (s.send client msg len).2 := by
  rw [Forwarder.send]
  split
  · exact h
  · split
    · exact h
    · dsimp only
      have hfill : Live (s.fillHeader client msg len) := h.still ⟨rfl, rfl, rfl, rfl, rfl, rfl⟩
      generalize s.fillHeader client msg len = t at hfill ⊢
      split
      · exact hfill
      · have hentry (q : QePtr) : Live (t.fillEntry client q msg) :=
          hfill.still ⟨rfl, rfl, rfl, rfl, rfl, rfl⟩
        generalize t.clientPtrs client = q
        have hq := hentry q
        generalize t.fillEntry client q msg = u at hq ⊢
        split
        · exact hq.occupy q client
        · next hret => exact hq.still (enqueue_still hret)

/-- After the loop detection the task is posted, unless the timer is running. -/
theorem live_detectLoop (h : s.sending = true → s.retxmitTimer.isRunning = true ∨ s.pending.isSome = true)
    (m : MsgPtr) (a : Answers) : Live (s.detectLoop m a) := by
  obtain ⟨timer, posted, l, hd, harmed, htimer, -⟩ := detectLoop_spec s m a
  rw [hd]
  exact ⟨fun _ _ => harmed.imp_right .inl, fun hsend => (h hsend).imp_left htimer⟩

theorem Live.forward (h : Live s) (m : MsgPtr) (a : Answers) : Live (s.forward m a).2 := by
  rw [Forwarder.forward]
  split
  · exact h
  · have h₁ : Live { s with qEntryPool := s.qEntryPool.get.2 } :=
      h.still ⟨rfl, rfl, rfl, rfl, rfl, rfl⟩
    have h₂ : Live { s with
        qEntryPool := s.qEntryPool.get.2, messagePool := s.messagePool.get.2 } :=
      h.still ⟨rfl, rfl, rfl, rfl, rfl, rfl⟩
    dsimp only
    cases s.qEntryPool.get.1 with
    | none => exact h₁
    | some q =>
      cases s.messagePool.get.1 with
      | none => exact h₂
      | some newMsg =>
        generalize ({ s with
          qEntryPool := s.qEntryPool.get.2, messagePool := s.messagePool.get.2 } : Forwarder cfg) = t
          at h₂ ⊢
        have h₃ : Live (t.fillForward q m newMsg) := h₂.still ⟨rfl, rfl, rfl, rfl, rfl, rfl⟩
        dsimp only
        generalize t.fillForward q m newMsg = u at h₃ ⊢
        split
        · refine live_detectLoop ?_ m a
          exact h₃.sending
        · next hret =>
          have h₄ : Live (u.enqueue q).2 := h₃.still (enqueue_still hret)
          exact Live.still h₄ ⟨rfl, rfl, rfl, rfl, rfl, rfl⟩

theorem Live.subReceive (h : Live s) (msg : MsgPtr) (a : Answers) : Live (s.subReceive msg a).2 := by
  have hc : Live (s.countHop msg) := h.still ⟨rfl, rfl, rfl, rfl, rfl, rfl⟩
  rw [Forwarder.subReceive]
  split
  · exact hc
  · split
    · exact hc
    · split
      · exact hc
      · split
        · exact Live.still (s := (s.countHop msg).record _)
            (hc.still ⟨rfl, rfl, rfl, rfl, rfl, rfl⟩) (swap_still _ _ _)
        · split
          · exact hc
          · exact hc.forward msg a

theorem Live.subSnoop (h : Live s) (msg : MsgPtr) (a : Answers) : Live (s.subSnoop msg a).2 := by
  refine Live.still ?_ (swap_still _ _ _)
  split
  · exact h.still ⟨rfl, rfl, rfl, rfl, rfl, rfl⟩
  · exact h

theorem Live.arrive {msg : MsgPtr} {frame : Message} {f : Forwarder cfg → MsgPtr × Forwarder cfg}
    (h : Live s) (hs : s.arrive msg frame f = some s') (hf : ∀ s₁, Live s₁ → Live (f s₁).2) :
    Live s' := by
  obtain ⟨-, hs⟩ := Option.ite_none_right_eq_some.1 hs
  cases hs
  have h₁ : Live ({ s with radio := s.radio.erase msg }.setMsg msg frame) :=
    h.still ⟨rfl, rfl, rfl, rfl, rfl, rfl⟩
  exact (hf _ h₁).still ⟨rfl, rfl, rfl, rfl, rfl, rfl⟩

/-! ## Steps -/

/-- `sendTask` comes to a `SubSend.send`, while the radio is on, the timer is stopped and the link has no
message, only if the link accepts the message or finds it too big. -/
def Retries (s : Forwarder cfg) : Event → Prop
  | .sendTask a => s.Ready a = true → s.isRoot = false →
    s.sentCache.lookup (s.mem (s.msgOf s.sendQueue.first)) = false → s.radioOn = true →
    s.retxmitTimer.isRunning = false → s.pending = none → a.subSend = .success ∨ a.subSend = .esize
  | _ => True

instance (s : Forwarder cfg) : DecidablePred s.Retries
  | .sendTask _ => inferInstanceAs (Decidable (_ → _ → _ → _ → _ → _ → _ ∨ _))
  | .start | .stop | .startDone _ | .stopDone _ | .routeFound | .setRoot | .unsetRoot | .send ..
  | .retxmitTimerFired | .subSendDone .. | .receive .. | .snoop .. => .isTrue trivial

theorem Live.sendTask {a : Answers} (h : Live s) (hc : s.Retries (.sendTask a)) :
    Live ({ s with sendPosted := false }.sendTask a) := by
  rcases sendTask_cases { s with sendPosted := false } a with
    ⟨-, ⟨hidle, he⟩ | he⟩ | ⟨hready, q, rest, gradient, hq, hetx, hcases⟩
  · rw [he]
    refine ⟨fun _ hne => ?_, h.sending⟩
    exact .inr (h.sending (hidle.resolve_right hne))
  · rw [he]
    exact live_of_timer rfl
  · rcases hcases with ⟨-, he⟩ | ⟨-, -, he⟩ | ⟨hl, hroot, he⟩
    · rw [he]
      exact ⟨fun _ _ => .inl rfl, h.sending⟩
    · rw [he]
      exact live_of_timer (subSendDone_timer _ _ _ _)
    · rw [he]
      have ht := transmit_spec { s with sendPosted := false } q gradient a
      have hfirst : s.sendQueue.first = q := first_eq (s := { s with sendPosted := false }) hq
      cases ht.outcome with
      | accepted _ _ hs hp _ =>
        refine ⟨fun _ _ => .inr (.inr ?_), fun _ => .inr ?_⟩ <;> rw [hp] <;> rfl
      | truncated _ hs hp hpost =>
        refine ⟨fun _ _ => .inl hpost, fun hsend => ?_⟩
        rw [ht.retxmitTimer, hp]
        exact h.sending (hs ▸ hsend)
      | refused hsize hok hs hp hpost =>
        refine ⟨fun hr _ => .inr ?_, fun hsend => ?_⟩
        · rw [ht.retxmitTimer, hp]
          by_contra hn
          rw [not_or] at hn
          have hidle : s.pending = none := Option.not_isSome_iff_eq_none.1 hn.2
          rcases hc hready hroot (hfirst ▸ hl) (ht.radioOn ▸ hr) (Bool.eq_false_iff.2 hn.1) hidle
            with hok' | hsize'
          · exact hn.2 (hok hok')
          · exact hsize hsize'
        · rw [ht.retxmitTimer, hp]
          exact h.sending (hs ▸ hsend)

theorem Live.step {e : Event} (h : Live s) (hc : s.Retries e) (hs : s.step e = some s') : Live s' := by
  cases e with
  | start => cases hs; exact h.still ⟨rfl, rfl, rfl, rfl, rfl, rfl⟩
  | stop => cases hs; exact h.still ⟨rfl, rfl, rfl, rfl, rfl, rfl⟩
  | startDone error =>
    cases hs
    rw [startDone]
    dsimp only
    split
    · split
      · exact ⟨fun _ _ => .inl rfl, h.sending⟩
      · next he =>
        refine ⟨fun _ hne => absurd ?_ he, h.sending⟩
        rw [Bool.not_eq_true', Bool.eq_false_iff]
        exact fun hempty => hne ((QueueC.empty_iff _).1 hempty)
    · exact h
  | stopDone error =>
    cases hs
    rw [stopDone]
    split
    · exact ⟨by rintro ⟨⟩, h.sending⟩
    · exact h
  | routeFound => cases hs; exact ⟨fun _ _ => .inl rfl, h.sending⟩
  | setRoot => cases hs; exact h.still ⟨rfl, rfl, rfl, rfl, rfl, rfl⟩
  | unsetRoot => cases hs; exact h.still ⟨rfl, rfl, rfl, rfl, rfl, rfl⟩
  | send client msg len =>
    obtain ⟨-, hs⟩ := Option.ite_none_right_eq_some.1 hs
    cases hs
    have hl := h.send client msg len
    dsimp only
    split
    · exact hl.still ⟨rfl, rfl, rfl, rfl, rfl, rfl⟩
    · exact hl
  | sendTask a =>
    obtain ⟨-, hs⟩ := Option.ite_none_right_eq_some.1 hs
    cases hs
    exact h.sendTask hc
  | retxmitTimerFired =>
    obtain ⟨-, hs⟩ := Option.ite_none_right_eq_some.1 hs
    cases hs
    exact ⟨fun _ _ => .inl rfl, by rintro ⟨⟩⟩
  | subSendDone error acked rand16 =>
    cases hpend : s.pending with
    | none =>
      rw [Forwarder.step, hpend] at hs
      cases hs
    | some msg =>
      rw [Forwarder.step, hpend] at hs
      cases hs
      exact live_of_timer (subSendDone_timer _ _ _ _)
  | receive msg frame a =>
    have hs' : s.arrive msg frame (·.subReceive msg a) = some s' := hs
    exact h.arrive hs' fun s₁ h₁ => h₁.subReceive msg a
  | snoop msg frame a =>
    have hs' : s.arrive msg frame (·.subSnoop msg a) = some s' := hs
    exact h.arrive hs' fun s₁ h₁ => h₁.subSnoop msg a

/-- After a refused message nothing moves, unless the timer is running or the link has a message. -/
theorem retries_of_moving {e : Event} (hs : s.step e = some s') (hm : s'.Moving) : s.Retries e := by
  cases e with
  | sendTask a =>
    intro hready hroot hl hr htimer hpend
    obtain ⟨-, hs⟩ := Option.ite_none_right_eq_some.1 hs
    cases hs
    rcases sendTask_cases { s with sendPosted := false } a with
      ⟨hno, -⟩ | ⟨-, q, rest, gradient, hq, -, hcases⟩
    · exact absurd (hready.symm.trans hno) (by decide)
    · have hfirst : s.sendQueue.first = q := first_eq (s := { s with sendPosted := false }) hq
      rw [hfirst] at hl
      rcases hcases with ⟨hl', -⟩ | ⟨-, hroot', -⟩ | ⟨-, -, he⟩
      · exact absurd (hl.symm.trans hl') (by decide)
      · exact absurd (hroot.symm.trans hroot') (by decide)
      · have ht := transmit_spec { s with sendPosted := false } q gradient a
        cases ht.outcome with
        | accepted hok => exact .inl hok
        | truncated hsize => exact .inr hsize
        | refused _ hok _ hp hpost =>
          rw [he] at hm
          have hne : (transmit { s with sendPosted := false } q gradient a).queue ≠ [] := by
            rw [queue, ht.same.sendQueue, show s.sendQueue.toList = q :: rest from hq]
            nofun
          rcases hm (ht.radioOn.trans hr) hne with h' | h' | h'
          · cases hpost.symm.trans h'
          · rw [ht.retxmitTimer] at h'
            cases htimer.symm.trans h'
          · rw [hp] at h'
            rw [show (Forwarder.pending { s with sendPosted := false }) = none from hpend] at h'
            cases h'
  | _ => trivial

theorem live_boot (cfg : Config) : Live (boot cfg) := ⟨nofun, nofun⟩

/-- **The forwarder does not stall**, exactly as long as no message is refused with nothing armed. -/
theorem moving_iff {h : List (Forwarder cfg × Event)} (hr : (machine cfg).Run h s) :
    (s.Moving ∧ ∀ p ∈ h, p.1.Moving) ↔ ∀ p ∈ h, p.1.Retries p.2 :=
  hr.forall_iff_of_strong (J := Live) (fun _ hi => (show _ = boot cfg from hi) ▸ live_boot cfg)
    (fun _ h => h.moving) (fun _ _ _ h hc hs => h.step hc hs)
    fun _ _ _ _ hs hm => retries_of_moving hs hm

/-- A packet is sent, and not acknowledged. -/
theorem moving_sent : ∃ h s, (machine exampleConfig).Run h s ∧
    (s.Moving ∧ ∀ p ∈ h, p.1.Moving) ∧ s.queue = [.client 0] := by
  obtain ⟨h, s, hr, hs⟩ := Machine.exists_run_of_exec (M := machine exampleConfig)
    (s := boot exampleConfig) rfl
    [.start, .startDone .success, .send 0 (.other 1) 4, .sendTask {}, .subSendDone .success false 0]
    (fun h s => h.all (fun p => p.1.Retries p.2) && s.queue = [.client 0]) (by decide)
  simp only [Bool.and_eq_true, List.all_eq_true, decide_eq_true_eq] at hs
  exact ⟨h, s, hr, (moving_iff hr).2 hs.1, hs.2⟩

/-- The link refuses a packet, and nothing is left to try again. -/
theorem not_moving : ∃ h s, (machine exampleConfig).Run h s ∧ s.routingOn = true ∧
    s.radioOn = true ∧ s.queue = [.client 0] ∧ ¬s.Armed := by
  obtain ⟨h, s, hr, hs⟩ := Machine.exists_run_of_exec (M := machine exampleConfig)
    (s := boot exampleConfig) rfl
    [.start, .startDone .success, .send 0 (.other 1) 4, .sendTask { subSend := .ebusy }]
    (fun _ s => s.routingOn && s.radioOn && s.queue = [.client 0] && !s.sendPosted &&
      !s.retxmitTimer.isRunning && !s.pending.isSome) (by decide)
  simp only [Bool.and_eq_true, Bool.not_eq_true', decide_eq_true_eq] at hs
  obtain ⟨⟨⟨⟨⟨h₁, h₂⟩, h₃⟩, h₄⟩, h₅⟩, h₆⟩ := hs
  refine ⟨h, s, hr, h₁, h₂, h₃, ?_⟩
  rintro (h' | h' | h')
  · cases h₄.symm.trans h'
  · cases h₅.symm.trans h'
  · cases h₆.symm.trans h'

end Ctp.Forwarder
