import Backip.BackIP.Proof.QueueStep
import Backip.BackIP.Trace

/-!
# Every accepted send is answered once

The layer above calls `Send.send` only when its previous accepted message has been answered
(`Queueing.MaySend`). Then `Send.sendDone` is signalled for the one unanswered message and for no
other (`Queueing.answered_once`): a data message is answered by the task `signalDone`, a beacon by
the link's `sendDone`, and `QueueView.Answering` says which of the two is under way.
-/

set_option autoImplicit false

namespace BackIP

namespace QueueView

/-- The answer that is under way. The link's `sendDone` answers only while `suppress_sendDone` is
clear. -/
inductive Answering (v : QueueView) : Prop
  | idle (hu : unanswered v.calls = none) (hd : v.donePosted = false)
      (hp : v.suppress = false → v.pending = [])
  | task (i : Nat) (hu : unanswered v.calls = some (.frag i)) (hd : v.donePosted = true)
      (hm : v.mMsgp = .frag i) (hp : v.suppress = false → v.pending = [])
  | link (i : Nat) (hu : unanswered v.calls = some (.frag i)) (hd : v.donePosted = false)
      (hs : v.suppress = false) (hp : v.pending = [.frag i])

/-- Every answer so far was due, and the one that is due is under way. -/
structure Answers (v : QueueView) : Prop where
  answering : v.Answering
  onceEach : OnceEach v.calls

variable {v v' : QueueView} {e : QEvent}

theorem Answering.congr (h : v.Answering) (hu : unanswered v'.calls = unanswered v.calls)
    (hd : v'.donePosted = v.donePosted) (hm : v'.mMsgp = v.mMsgp)
    (hs : v'.suppress = v.suppress) (hp : v'.pending = v.pending) : v'.Answering := by
  rcases h with ⟨h1, h2, h3⟩ | ⟨i, h1, h2, h3, h4⟩ | ⟨i, h1, h2, h3, h4⟩
  · exact .idle (hu.trans h1) (hd.trans h2) (by rwa [hs, hp])
  · exact .task i (hu.trans h1) (hd.trans h2) (hm.trans h3) (by rwa [hs, hp])
  · exact .link i (hu.trans h1) (hd.trans h2) (hs.trans h3) (hp.trans h4)

/-- With nothing unanswered no answer is under way. -/
theorem Answering.of_none (h : v.Answering) (hu : unanswered v.calls = none) :
    v.donePosted = false ∧ (v.suppress = false → v.pending = []) := by
  rcases h with ⟨_, h2, h3⟩ | ⟨i, h1, _⟩ | ⟨i, h1, _⟩
  · exact ⟨h2, h3⟩
  · rw [hu] at h1; cases h1
  · rw [hu] at h1; cases h1

/-- A change to the link that leaves it no answer to give. -/
theorem Answering.off_link (h : v.Answering) (hl : v.suppress = true ∨ v.busy = false) (hv : v.Inv)
    (hu : unanswered v'.calls = unanswered v.calls) (hd : v'.donePosted = v.donePosted)
    (hm : v'.mMsgp = v.mMsgp) (hp : v'.suppress = false → v'.pending = []) : v'.Answering := by
  rcases h with ⟨h1, h2, _⟩ | ⟨i, h1, h2, h3, _⟩ | ⟨i, h1, h2, h3, h4⟩
  · exact .idle (hu.trans h1) (hd.trans h2) hp
  · exact .task i (hu.trans h1) (hd.trans h2) (hm.trans h3) hp
  · rcases hl with hl | hl
    · rw [h3] at hl; cases hl
    · rw [(hv.idle hl).1] at h4; cases h4

theorem unanswered_discard (v : QueueView) : unanswered v.discard.calls = unanswered v.calls := by
  rcases v.discard_cases with ⟨hd, _⟩ | ⟨q, rest, hs, _, hd⟩
  · rw [hd]
  · rw [hd]; rfl

theorem Answers.discard (h : v.Answers) : v.discard.Answers := by
  refine ⟨h.answering.congr v.unanswered_discard rfl rfl rfl rfl, ?_⟩
  rcases v.discard_cases with ⟨hd, _⟩ | ⟨q, rest, hs, _, hd⟩
  · rw [hd]; exact h.onceEach
  · rw [hd]
    exact .unseen rfl (.unseen rfl (.unseen rfl h.onceEach))

theorem Answers.check (h : v.Answers) (b : Bool) : (v.check b).Answers := by
  have hu : unanswered (v.check b).calls = unanswered v.calls ∧ OnceEach (v.check b).calls := by
    cases b with
    | false => exact ⟨rfl, h.onceEach⟩
    | true => exact ⟨rfl, .unseen rfl h.onceEach⟩
  exact ⟨h.answering.congr hu.1 rfl rfl rfl rfl, hu.2⟩

theorem Answers.chosen (h : v.Answers) (b : Bool) (a : LlAddr) : (v.chosen b a).Answers :=
  (check (v := { v with posted := false, nb := a })
    ⟨h.answering.congr rfl rfl rfl rfl rfl, h.onceEach⟩ b).discard

/-- The layer above sends only when nothing is unanswered. -/
def MaySend (v : QueueView) : QEvent → Prop
  | .send .. => unanswered v.calls = none
  | _ => True

/-- Every move keeps the answers, if the layer above keeps its discipline. -/
theorem Move.answers (hv : v.Inv) (h : v.Answers) (hmay : v.MaySend e) (hm : Move v e v') :
    v'.Answers := by
  have ha := h.answering
  have ho := h.onceEach
  cases hm with
  | sendingBeacon => exact ⟨ha.congr rfl rfl rfl rfl rfl, ho⟩
  | bypassBusy i frame len r now hf hb =>
    exact ⟨ha.congr rfl rfl rfl rfl rfl, ho.cons_send hmay⟩
  | bypass i frame len r now hf hb =>
    obtain ⟨hd, _⟩ := ha.of_none hmay
    obtain ⟨hp, _⟩ := hv.idle hb
    refine ⟨?_, .cons_send hmay (.unseen rfl ho)⟩
    by_cases hr : r = .success
    · exact .link i (by simp [unanswered, hr]) hd rfl (by simp [hr, hp])
    · have hu : unanswered v.calls = none := hmay
      exact .idle (by simp [unanswered, hr, hu]) hd fun _ => by simp [hr, hp]
  | refuse i frame len r now hf hfree =>
    have hd := h.discard
    exact ⟨hd.answering.congr rfl rfl rfl rfl rfl,
      hd.onceEach.cons_send (v.unanswered_discard.trans hmay)⟩
  | accept i frame len r now m free q freeQe hf hfree hfreeQe =>
    obtain ⟨_, hp⟩ := ha.of_none hmay
    refine ⟨.task i rfl rfl rfl hp, .cons_send ?_ (.unseen rfl (.unseen rfl ?_))⟩
    · exact v.unanswered_discard.trans hmay
    · exact h.discard.onceEach
  | taskBusy nb r hp hb => exact ⟨ha.congr rfl rfl rfl rfl rfl, ho⟩
  | taskIdle nb r b hp hb hs hvz =>
    exact Answers.check (v := { v with posted := false })
      ⟨ha.congr rfl rfl rfl rfl rfl, ho⟩ b
  | taskNoNeighbour r b hp hb hs =>
    have hc := h.check b
    exact ⟨hc.answering.congr rfl rfl rfl rfl rfl, hc.onceEach⟩
  | giveUp a r b l q hp hb hs ht =>
    have hc := h.chosen b a
    exact ⟨hc.answering.congr rfl rfl rfl rfl rfl, .unseen rfl (.unseen rfl hc.onceEach)⟩
  | transmit a b l q frame len hp hb hs ht =>
    have hc := h.chosen b a
    refine ⟨?_, .unseen rfl hc.onceEach⟩
    exact hc.answering.off_link (.inr hb) (hv.chosen b a) rfl rfl rfl fun hs' => nomatch hs'
  | localSendFailed a r b l q frame len hr hp hb hs ht =>
    have hc := h.chosen b a
    refine ⟨?_, .unseen rfl (.unseen rfl hc.onceEach)⟩
    exact hc.answering.off_link (.inr hb) (hv.chosen b a) rfl rfl rfl fun hs' => nomatch hs'
  | sendNull a r b hp hb hs hvp =>
    have hc := Answers.check (v := { v with posted := false, nb := a })
      ⟨ha.congr rfl rfl rfl rfl rfl, ho⟩ b
    exact ⟨hc.answering.congr rfl rfl rfl rfl rfl, .unseen rfl hc.onceEach⟩
  | txRetryTimerFired ht => exact ⟨ha.congr rfl rfl rfl rfl rfl, ho⟩
  | signalDone hp =>
    rcases ha with ⟨_, h2, _⟩ | ⟨i, h1, _, h3, h4⟩ | ⟨i, _, h2, _⟩
    · rw [hp] at h2; cases h2
    · rw [h3]
      exact ⟨.idle (if_pos h1) rfl h4, ho.cons_done h1⟩
    · rw [hp] at h2; cases h2
  | retry m error now hm hs =>
    refine ⟨ha.off_link (.inl hs) hv rfl rfl rfl ?_, .unseen rfl ho⟩
    intro hs'
    exact absurd (hs'.symm.trans hs) Bool.false_ne_true
  | deliver m error now txTime hm hs =>
    obtain ⟨rfl, hp, _, _⟩ := hv.data hm hs
    refine ⟨ha.off_link (.inl hs) hv rfl rfl rfl ?_,
      .unseen rfl (.unseen rfl (.unseen rfl ho))⟩
    intro _
    simp [hp]
  | beaconDone m error d now hm hs =>
    rcases ha with ⟨_, _, h3⟩ | ⟨i, _, _, _, h4⟩ | ⟨i, h1, h2, _, h4⟩
    · rw [h3 hs] at hm; cases hm
    · rw [h4 hs] at hm; cases hm
    · rw [h4, List.mem_singleton] at hm
      subst hm
      exact ⟨.idle (if_pos h1) h2 fun _ => by simp [h4], ho.cons_done h1⟩

end QueueView

namespace Queueing

variable {s : Queueing}

/-- The layer above calls `Send.send` only when its last accepted message has been answered. -/
def MaySend (s : Queueing) : QEvent → Prop
  | .send .. => unanswered s.calls = none
  | _ => True

instance (s : Queueing) : (e : QEvent) → Decidable (s.MaySend e)
  | .send .. => inferInstanceAs (Decidable (unanswered s.calls = none))
  | .sendingBeacon | .sendDataTask .. | .txRetryTimerFired | .signalDone | .subSendDone .. =>
    instDecidableTrue

theorem answers_of_disciplined {h : List (Queueing × QEvent)} (hr : machine.Run h s)
    (hd : ∀ p ∈ h, p.1.MaySend p.2) : s.view.Inv ∧ s.view.Answers := by
  refine (hr.inv_of_steps (P := fun s => s.view.Inv ∧ s.view.Answers) (C := MaySend)
    ?_ ?_ hd).1
  · intro s0 h0
    rw [show s0 = boot.start from h0]
    exact ⟨.init, .idle rfl rfl fun _ => rfl, .nil⟩
  · intro s e s' hv hmay hs
    have hm := step_move hv.1 hs
    exact ⟨hv.1.move hm, hm.answers hv.1 hv.2 (by cases e <;> exact hmay)⟩

theorem calls_signalDone {s' : Queueing} (hs : machine.step s .signalDone = some s') :
    s'.calls = .sendDone s.mMsgp .success :: s.calls := by
  simp only [machine, step, Option.ite_none_right_eq_some, Option.some.injEq] at hs
  rw [← hs.2]
  rfl

theorem calls_beaconDone {s' : Queueing} {msg : MsgPtr} {error : TinyError} {delivered : Bool}
    {now : Nat} (hsup : s.suppressSendDone = false)
    (hs : machine.step s (.subSendDone msg error delivered now) = some s') :
    s'.calls = .sendDone msg error :: s.calls := by
  simp only [machine, step, Option.ite_none_right_eq_some, Option.some.injEq] at hs
  rw [← hs.2, subSendDone, if_neg (by simp [hsup]), postIfBacklog]
  split
  · rfl
  · rfl

/-- **Every accepted send is answered exactly once.** In a run in which the layer above keeps its
discipline, what it sees next after a `Send.send` that was accepted is the `sendDone` of the same
message, and until then the task `signalDone` is posted for it or the link holds it; what it sees
next after a refused `Send.send` or a `sendDone` is its own next `Send.send`; and no `sendDone` is
for a buffer of the pool. -/
theorem answered_once {h : List (Queueing × QEvent)} (hr : machine.Run h s)
    (hd : ∀ p ∈ h, p.1.MaySend p.2) :
    (∀ after msg bypass before, s.calls = after ++ .send msg bypass .success :: before →
      match firstSeen after with
      | some c => ∃ error, c = .sendDone msg error
      | none => s.signalDonePosted = true ∧ s.mMsgp = msg ∨
          s.suppressSendDone = false ∧ s.pending = [msg]) ∧
    (∀ after c before, s.calls = after ++ c :: before →
      (∃ msg bypass ret, c = .send msg bypass ret ∧ ret ≠ .success) ∨
        (∃ msg error, c = .sendDone msg error) →
      ∀ c', firstSeen after = some c' → ∃ msg bypass ret, c' = .send msg bypass ret) ∧
    (∀ msg error, .sendDone msg error ∈ s.calls → ∃ i, msg = .frag i) ∧
    (∀ s', machine.step s .signalDone = some s' →
      s'.calls = .sendDone s.mMsgp .success :: s.calls) ∧
    (∀ msg error delivered now s', s.suppressSendDone = false →
      machine.step s (.subSendDone msg error delivered now) = some s' →
      s'.calls = .sendDone msg error :: s.calls) := by
  obtain ⟨hv, ha, ho⟩ := answers_of_disciplined hr hd
  refine ⟨?_, ?_, ?_, fun s' => calls_signalDone, fun _ _ _ _ _ => calls_beaconDone⟩
  · intro after msg bypass before hc
    change OnceEach s.calls at ho
    rw [hc] at ho
    cases hf : firstSeen after with
    | some c =>
      rcases ho.firstSeen_eq hf with ⟨msg', error, rfl, hu⟩ | ⟨_, hu⟩
      · cases hu
        exact ⟨error, rfl⟩
      · cases hu
    | none =>
      have hu : unanswered s.calls = some msg := by
        rw [hc, unanswered_of_firstSeen_none _ hf]; rfl
      rcases ha with ⟨h1, _⟩ | ⟨i, h1, h2, h3, _⟩ | ⟨i, h1, _, h3, h4⟩
      · cases h1.symm.trans hu
      · cases h1.symm.trans hu
        exact .inl ⟨h2, h3⟩
      · cases h1.symm.trans hu
        exact .inr ⟨h3, h4⟩
  · intro after c before hc hkind c' hc'
    change OnceEach s.calls at ho
    rw [hc] at ho
    have hu : unanswered (c :: before) = none := by
      rcases hkind with ⟨msg, bypass, ret, rfl, hret⟩ | ⟨msg, error, rfl⟩
      · have := ho.send _ _ _ _ (List.suffix_append after _)
        rw [unanswered, if_neg hret, this]
      · have := (ho.done _ _ _ (List.suffix_append after _)).1
        rw [unanswered, if_pos this]
    rcases ho.firstSeen_eq hc' with ⟨_, _, _, hu'⟩ | ⟨hsend, _⟩
    · cases hu.symm.trans hu'
    · exact hsend
  · intro msg error hc
    obtain ⟨after, before, hsplit⟩ := List.append_of_mem hc
    exact (ho.done msg error before ⟨after, hsplit.symm⟩).2

/-- A data message and a beacon are answered, one after the other. -/
theorem answered_once_both : ∃ h s, machine.Run h s ∧
    s.calls.countP Call.seen = 4 ∧
      ∀ msg error, .sendDone msg error ∈ s.calls → ∃ i, msg = .frag i := by
  obtain ⟨h, s, hr, hp⟩ := Machine.exists_run_of_exec (M := machine) rfl
    [.send 0 ⟨[], 0, 0, 0, .data⟩ 20 .success 0, .signalDone, .sendingBeacon,
      .send 1 ⟨[], 0, 0, 0, .beacon 1⟩ 20 .success 0, .subSendDone (.frag 1) .success true 0]
    (fun h s => s.calls.countP Call.seen = 4 ∧ ∀ p ∈ h, p.1.MaySend p.2) (by decide)
  obtain ⟨hc, hd⟩ := of_decide_eq_true hp
  exact ⟨h, s, hr, hc, (answered_once hr hd).2.2.1⟩

end Queueing

end BackIP
