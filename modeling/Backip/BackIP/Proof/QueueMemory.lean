import Backip.BackIP.Proof.Charges
import Mathlib.Data.List.Nodup

/-!
# The packets a queue holds, and their buffers

A queue holds the packets on its stack and the one at the link. Only an accepted `Send.send` brings
one (`Move.keeps`), in an entry and a buffer of its own (`Inv.msgOf_inj`), and of the buffers in use
the handlers write only the one whose packet is handed over: `send_mem` and `subSendDone_fields` say
so of `Send.send` and `SubSend.sendDone`; `handing` is the state in which `sendDataTask` hands the
packet on top over. What `sendDataTask` does up to there does not depend on the memory
(`handing_withMem`).
-/

set_option autoImplicit false

namespace BackIP

/-! ## The packets a queue holds -/

namespace QueueView

variable {v v' : QueueView} {e : QEvent}

theorem buffers_nodup : buffers.Nodup := by decide

/-- The queue `v'` holds no packet that `v` does not hold, and each in the buffer it was in. -/
structure Keeps (v v' : QueueView) : Prop where
  held : ∀ q ∈ v'.stack ++ v'.inFlight, q ∈ v.stack ++ v.inFlight
  msgOf : ∀ q, v'.msgOf q = v.msgOf q
  flying : v'.pending.length ≤ v.pending.length → ∀ q ∈ v'.inFlight, q ∈ v.inFlight

/-- With no packet at the link. -/
theorem Keeps.of_idle (hfl : v'.inFlight = []) (hs : ∀ q ∈ v'.stack, q ∈ v.stack ++ v.inFlight)
    (hm : ∀ q, v'.msgOf q = v.msgOf q) : Keeps v v' := by
  refine ⟨?_, hm, fun _ => by rw [hfl]; nofun⟩
  rw [hfl, List.append_nil]
  exact hs

theorem msgOf_update (v : QueueView) (q : QePtr) (n : Nat) (q' : QePtr) :
    (Function.update v.qe q { v.qe q with txCount := n } q').msg = v.msgOf q' := by
  by_cases hq : q' = q
  · rw [hq, Function.update_self]
    rfl
  · rw [Function.update_of_ne hq]
    rfl

theorem mem_stack_of_chosen {b : Bool} {a : LlAddr} {q : QePtr} (hq : q ∈ (v.chosen b a).stack) :
    q ∈ v.stack := by
  have hq' : q ∈ ({ v with posted := false, nb := a }.check b).discard.stack := hq
  exact List.mem_of_mem_drop hq'

theorem discard_keeps (v : QueueView) : Keeps v v.discard where
  held q hq := by
    rcases List.mem_append.1 hq with hq | hq
    · exact List.mem_append_left _ (List.mem_of_mem_drop hq)
    · exact List.mem_append_right _ hq
  msgOf _ := rfl
  flying _ _ hq := hq

/-- Only an accepted `Send.send` brings a packet. -/
theorem Move.keeps (h : v.Inv) (hm : Move v e v')
    (he : ∀ i frame len r now, e ≠ .send i frame len r now) : Keeps v v' := by
  cases hm with
  | sendingBeacon => exact ⟨fun _ hq => hq, fun _ => rfl, fun _ _ hq => hq⟩
  | bypassBusy i frame len r now => exact absurd rfl (he i frame len r now)
  | bypass i frame len r now => exact absurd rfl (he i frame len r now)
  | refuse i frame len r now => exact absurd rfl (he i frame len r now)
  | accept i frame len r now => exact absurd rfl (he i frame len r now)
  | taskBusy nb r hp hb => exact ⟨fun _ hq => hq, fun _ => rfl, fun _ _ hq => hq⟩
  | taskIdle nb r b hp hb hs hv => exact ⟨fun _ hq => hq, fun _ => rfl, fun _ _ hq => hq⟩
  | taskNoNeighbour r b hp hb hs => exact ⟨fun _ hq => hq, fun _ => rfl, fun _ _ hq => hq⟩
  | giveUp a r b l q hp hb hs ht =>
    exact .of_idle (inFlight_idle (h.idle hb).1)
      (fun _ hq => List.mem_append_left _ (mem_stack_of_chosen hq))
      (v.msgOf_update q 0)
  | transmit a b l q frame len hp hb hs ht =>
    have hpending := (h.idle hb).1
    have hmsg := v.msgOf_update q ((v.qe q).txCount + 1)
    refine ⟨fun q' hq => ?_, hmsg, fun hle => absurd hle (by simp)⟩
    refine List.mem_append_left _ (mem_stack_of_chosen (b := b) (a := a) ?_)
    rw [hs]
    rw [inFlight_data (by simp [QueueView.msgOf, hpending])] at hq
    exact hq
  | localSendFailed a r b l q frame len hr hp hb hs ht =>
    exact .of_idle (inFlight_idle (h.idle hb).1)
      (fun _ hq => List.mem_append_left _ (mem_stack_of_chosen hq))
      fun _ => rfl
  | sendNull a r b hp hb hs hv => exact ⟨fun _ hq => hq, fun _ => rfl, fun _ _ hq => hq⟩
  | txRetryTimerFired ht => exact ⟨fun _ hq => hq, fun _ => rfl, fun _ _ hq => hq⟩
  | signalDone hp => exact ⟨fun _ hq => hq, fun _ => rfl, fun _ _ hq => hq⟩
  | retry m error now hm hs =>
    obtain ⟨rfl, hp, -, -⟩ := h.data hm hs
    refine .of_idle (inFlight_idle (by simp [hp])) (fun q hq => ?_) fun _ => rfl
    rw [inFlight_data hp]
    exact hq
  | deliver m error now txTime hm hs =>
    obtain ⟨rfl, hp, -, -⟩ := h.data hm hs
    exact .of_idle (inFlight_idle (by simp [hp])) (fun _ hq => List.mem_append_left _ hq)
      fun _ => rfl
  | beaconDone m error d now hm hs =>
    obtain ⟨i, rfl, hp, -, -⟩ := h.beacon hm hs
    exact .of_idle (inFlight_idle (by simp [hp])) (fun _ hq => List.mem_append_left _ hq)
      fun _ => rfl

/-- Two packets have two buffers. -/
theorem Inv.msgOf_inj (h : v.Inv) {q q' : QePtr} (hq : q ∈ v.stack ++ v.inFlight)
    (hq' : q' ∈ v.stack ++ v.inFlight) (hmsg : v.msgOf q = v.msgOf q') : q = q' := by
  have hnodup : ((v.stack ++ v.inFlight).map v.msgOf).Nodup :=
    (List.nodup_append.1 (h.custody.bufs_perm.nodup_iff.2 buffers_nodup)).2.1
  exact List.inj_on_of_nodup_map hnodup hq hq' hmsg

end QueueView

/-! ## Up to a hand-over -/

namespace Queueing

variable {s : Queueing}

/-- The queue over another memory. -/
def withMem (s : Queueing) (mem : MsgPtr → Message) : Queueing := { s with mem := mem }

/-- What discarding leaves alone. -/
theorem discardLoop_fields (n : Nat) (s : Queueing) :
    (discardLoop n s).mem = s.mem ∧ (discardLoop n s).qe = s.qe ∧
      (discardLoop n s).pending = s.pending ∧ (discardLoop n s).currNbLlAddr = s.currNbLlAddr := by
  induction n generalizing s with
  | zero => exact ⟨rfl, rfl, rfl, rfl⟩
  | succ n ih =>
    rw [discardLoop]
    split
    · exact ih s.discardOne
    · exact ⟨rfl, rfl, rfl, rfl⟩

theorem discardLoop_withMem (n : Nat) (s : Queueing) (mem : MsgPtr → Message) :
    discardLoop n (s.withMem mem) = (discardLoop n s).withMem mem := by
  induction n generalizing s with
  | zero => rfl
  | succ n ih =>
    rw [discardLoop, discardLoop]
    by_cases hfull : s.sendStack.size ≥ s.sendStack.maxSize
    · rw [if_pos hfull]
      exact (if_pos hfull).trans (ih s.discardOne)
    · rw [if_neg hfull]
      exact if_neg hfull

theorem checkBp_fields (s : Queueing) :
    s.checkBp.mem = s.mem ∧ s.checkBp.qe = s.qe ∧ s.checkBp.pending = s.pending := by
  unfold checkBp
  split <;> exact ⟨rfl, rfl, rfl⟩

theorem checkBp_withMem (s : Queueing) (mem : MsgPtr → Message) :
    (s.withMem mem).checkBp = s.checkBp.withMem mem := by
  unfold checkBp
  by_cases hfar : bpDiffThresh ≤ ((s.getBp : Int) - s.myLastBp).natAbs
  · rw [if_pos hfar]
    exact if_pos hfar
  · rw [if_neg hfar]
    exact if_neg hfar

/-- The queue of which `sendDataTask` takes the packet on top, for the neighbour `a`. -/
def found (s : Queueing) (a : LlAddr) : Queueing :=
  { s.checkBp with currNbLlAddr := a }.conditionalDiscard

/-- The state in which `sendDataTask` hands the packet on top to the neighbour `a`. -/
def handing (s : Queueing) (a : LlAddr) : Queueing :=
  { s.found a with
    radioBusy := true
    sendStack := (s.found a).sendStack.popTop.2
    currentSendQe := (s.found a).sendStack.popTop.1 }

theorem handing_fields (s : Queueing) (a : LlAddr) :
    (s.handing a).mem = s.mem ∧ (s.handing a).qe = s.qe ∧ (s.handing a).pending = s.pending ∧
      (s.handing a).currNbLlAddr = a := by
  obtain ⟨hmem, hqe, hpending⟩ := s.checkBp_fields
  obtain ⟨hmem', hqe', hpending', hnb⟩ := discardLoop_fields
    ({ s.checkBp with currNbLlAddr := a } : Queueing).sendStack.size
    { s.checkBp with currNbLlAddr := a }
  exact ⟨hmem'.trans hmem, hqe'.trans hqe, hpending'.trans hpending, hnb⟩

theorem found_withMem (s : Queueing) (a : LlAddr) (mem : MsgPtr → Message) :
    (s.withMem mem).found a = (s.found a).withMem mem := by
  rw [found, checkBp_withMem]
  exact discardLoop_withMem _ { s.checkBp with currNbLlAddr := a } mem

theorem handing_withMem (s : Queueing) (a : LlAddr) (mem : MsgPtr → Message) :
    (s.withMem mem).handing a = (s.handing a).withMem mem := by
  rw [handing, found_withMem]
  rfl

theorem sendDataTask_eq {a : LlAddr} {r : TinyError} (hbusy : ¬s.radioBusy = true)
    (hidle : ¬(s.checkBp.sendStack.empty && decide (s.checkBp.virtualQueueSize ≤ 0)) = true) :
    s.sendDataTask (some a) r = s.checkBp.sendTo a r := by
  rw [sendDataTask, if_neg hbusy]
  exact if_neg hidle

theorem giveUp_fields (s : Queueing) (q : QePtr) :
    (s.giveUp q).mem = s.mem ∧ (s.giveUp q).pending = s.pending := by
  obtain ⟨hmem, -, hpending, -⟩ := discardLoop_fields s.sendStack.size
    ({ s with
      sendStats := { s.sendStats with droppedFail := inc16 s.sendStats.droppedFail }
      sendingData := 0 }.record (.giveUp q s.currNbLlAddr (2 * maxRetxAttempts)))
  exact ⟨hmem, hpending⟩

/-- What `sendTo` does with a packet on the stack. -/
theorem sendTo_checkBp {a : LlAddr} (hne : (s.found a).sendStack.empty = false) (r : TinyError) :
    s.checkBp.sendTo a r =
      if maxRetxAttempts ≤ ((s.handing a).qe (s.handing a).currentSendQe).txCount then
        (s.handing a).giveUp (s.handing a).currentSendQe
      else
        (s.handing a).transmit (s.handing a).currentSendQe
          ((s.handing a).mem ((s.handing a).qe (s.handing a).currentSendQe).msg).length r :=
  if_pos (show (!(s.found a).sendStack.empty) = true by rw [hne]; rfl)

/-- The packet handed over is the one on top of the stack. -/
theorem getLast?_handing (hv : s.view.Inv) {a : LlAddr}
    (hne : (s.found a).sendStack.empty = false) :
    s.sendStack.toList.getLast? = some (s.handing a).currentSendQe := by
  obtain ⟨b, hb⟩ := view_checkBp s
  have hview : ({ s.checkBp with currNbLlAddr := a } : Queueing).view =
      { s.view with nb := a }.check b := by
    have h : ({ s.checkBp with currNbLlAddr := a } : Queueing).view =
        { s.checkBp.view with nb := a } := rfl
    rw [h, hb]
    rfl
  have hinv : ({ s.checkBp with currNbLlAddr := a } : Queueing).view.Inv := by
    rw [hview]
    exact QueueView.Inv.check (v := { s.view with nb := a })
      ⟨hv.custody, hv.msg_ne_frag, hv.link, hv.succeeds⟩ b
  have hdiscard : (s.found a).view = ({ s.view with nb := a }.check b).discard := by
    rw [found, view_conditionalDiscard_inv hinv, hview]
  obtain ⟨l, q, hlq⟩ : ∃ l q, (s.found a).sendStack.toList = l ++ [q] := by
    rcases List.eq_nil_or_concat (s.found a).sendStack.toList with hnil | ⟨l, q, hlq⟩
    · rw [(empty_iff _).2 hnil] at hne
      cases hne
    · exact ⟨l, q, by rw [hlq, List.concat_eq_append]⟩
  have hstack : ({ s.view with nb := a }.check b).discard.stack = l ++ [q] := by
    rw [← hdiscard]
    exact hlq
  have hq : (s.handing a).currentSendQe = q := (StackC.toList_popTop hlq).1
  rw [hq]
  exact QueueView.getLast?_of_discard hstack

end Queueing

/-! ## Sending and being done -/

namespace Queueing

variable {s : Queueing}

theorem step_sendDataTask (h : s.sendDataPosted = true) (nb : Option LlAddr) (r : TinyError) :
    s.step (.sendDataTask nb r) =
      some ({ s with sendDataPosted := false }.sendDataTask nb r) := by
  rw [step, if_pos h]

theorem subSendDone_fields (s : Queueing) (msg : MsgPtr) (error : TinyError) (delivered : Bool)
    (now : Nat) : (s.subSendDone msg error delivered now).mem = s.mem ∧
      (s.subSendDone msg error delivered now).pending = s.pending := by
  have hpost (t : Queueing) :
      t.postIfBacklog.mem = t.mem ∧ t.postIfBacklog.pending = t.pending := by
    unfold postIfBacklog
    split <;> exact ⟨rfl, rfl⟩
  unfold subSendDone
  cases s.suppressSendDone with
  | false => exact hpost _
  | true =>
    cases delivered with
    | false => exact ⟨rfl, rfl⟩
    | true => exact hpost _

theorem push_mem (s : Queueing) (msg newMsg : MsgPtr) (ins : QePtr) (now : Nat) :
    (s.push msg newMsg ins now).mem = Function.update s.mem newMsg (s.mem msg) := by
  unfold push
  dsimp only
  split <;> rfl

/-- `Send.send` of regular data copies the frame into the first buffer that is free, if there is
one. -/
theorem enqueue_mem (hv : s.view.Inv) (msg : MsgPtr) (len now : Nat) :
    (s.view.discard.free = [] ∧ (s.enqueue msg len now).mem =
      Function.update s.mem msg { s.mem msg with length := len }) ∨
    ∃ m free, s.view.discard.free = m :: free ∧ (s.enqueue msg len now).mem =
      Function.update (Function.update s.mem msg { s.mem msg with length := len }) m
        { s.mem msg with length := len } := by
  generalize hs1 : { s with
    sendStats := { s.sendStats with sentTotal := inc16 s.sendStats.sentTotal } } = s1
  have hv1 : s1.view = s.view := by rw [← hs1]; rfl
  have hv2 : s1.conditionalDiscard.view = s.view.discard := by
    rw [view_conditionalDiscard_inv (hv1 ▸ hv), hv1]
  have hmem2 : s1.conditionalDiscard.mem = s.mem :=
    (discardLoop_fields _ s1).1.trans (by rw [← hs1])
  generalize hs3 : s1.conditionalDiscard.setPayloadLength msg len = s3
  have hv3 : s3.view = s.view.discard := by rw [← hv2, ← hs3]; rfl
  have hmem3 : s3.mem = Function.update s.mem msg { s.mem msg with length := len } := by
    rw [← hs3, setPayloadLength, hmem2]
  have hd : s.view.discard.Inv := hv.discard
  simp only [enqueue, hs1, hs3]
  cases hfree : s.view.discard.free with
  | nil =>
    have he : s3.messagePool.empty = true :=
      (PoolP.empty_iff _).2 (hv3 ▸ hfree : s3.view.free = [])
    rw [if_pos he]
    exact .inl ⟨rfl, hmem3⟩
  | cons m free =>
    -- the pools are empty together, so there is an entry too
    obtain ⟨q, freeQe, hfreeQe⟩ : ∃ q freeQe, s.view.discard.freeQe = q :: freeQe := by
      cases hq : s.view.discard.freeQe with
      | nil => rw [hd.freeQe_eq_nil_iff.1 hq] at hfree; cases hfree
      | cons q freeQe => exact ⟨q, freeQe, rfl⟩
    have hfree3 : s3.messagePool.toList = m :: free := (hv3 ▸ hfree : s3.view.free = _)
    have hfreeQe3 : s3.qEntryPool.toList = q :: freeQe := (hv3 ▸ hfreeQe : s3.view.freeQe = _)
    have he : ¬s3.messagePool.empty = true := by rw [PoolP.empty_iff, hfree3]; simp
    rw [if_neg he, show s3.messagePool.get = (some m, s3.messagePool.get.2) from
      Prod.ext (PoolP.get_cons hfree3).1 rfl]
    dsimp only
    rw [show s3.qEntryPool.get = (some q, s3.qEntryPool.get.2) from
      Prod.ext (PoolP.get_cons hfreeQe3).1 rfl]
    dsimp only
    refine .inr ⟨m, free, rfl, ?_⟩
    rw [push_mem]
    dsimp only
    rw [hmem3, Function.update_self]

/-- No buffer in use is written. -/
theorem send_mem (hv : s.view.Inv) (i : Nat) (frame : Message) (len : Nat) (r : TinyError)
    (now : Nat) {t : Queueing}
    (ht : { s with mem := Function.update s.mem (.frag i) frame }.send (.frag i) len r now = t) :
    (∀ p, (∀ j, p ≠ .frag j) → s.sendingBeacon = true ∨ p ∉ s.view.discard.free →
      t.mem p = s.mem p) ∧
    ∀ m free, s.sendingBeacon = false → s.view.discard.free = m :: free →
      t.mem m = { frame with length := len } := by
  subst ht
  by_cases hb : s.sendingBeacon = true
  · refine ⟨fun p hp _ => ?_, fun _ _ hfalse => by cases hb.symm.trans hfalse⟩
    have hsend : ({ s with mem := Function.update s.mem (.frag i) frame } : Queueing).send (.frag i)
        len r now = { s with mem := Function.update s.mem (.frag i) frame }.bypass (.frag i) len
          r := if_pos hb
    rw [hsend, bypass]
    split
    · exact Function.update_of_ne (hp i) _ _
    · exact Function.update_of_ne (hp i) _ _
  · have hsend : ({ s with mem := Function.update s.mem (.frag i) frame } : Queueing).send (.frag i)
        len r now = { s with mem := Function.update s.mem (.frag i) frame }.enqueue (.frag i) len
          now := if_neg hb
    rw [hsend]
    rcases enqueue_mem (s := { s with mem := Function.update s.mem (.frag i) frame }) hv (.frag i)
      len now with ⟨hnil, hmem⟩ | ⟨m, free, hfree, hmem⟩
    · refine ⟨fun p hp _ => ?_, fun m free _ hfree => ?_⟩
      · rw [hmem, Function.update_of_ne (hp i)]
        exact Function.update_of_ne (hp i) _ _
      · cases hnil.symm.trans hfree
    · refine ⟨fun p hp hout => ?_, fun m' free' _ hfree' => ?_⟩
      · have hne : p ≠ m := fun heq => by
          refine (hout.resolve_left hb) ?_
          rw [heq, show s.view.discard.free = m :: free from hfree]
          exact .head _
        rw [hmem, Function.update_of_ne hne, Function.update_of_ne (hp i)]
        exact Function.update_of_ne (hp i) _ _
      · cases hfree.symm.trans hfree'
        rw [hmem, Function.update_self]
        dsimp only
        rw [Function.update_self]

end Queueing

end BackIP
