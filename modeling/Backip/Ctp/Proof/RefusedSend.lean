import Backip.Ctp.CtpForwardingEngineP

/-!
# CTP: what a refused `Send.send` changes

`Send.send` tests `ROUTING_ON` and the length before it does anything, but fills in the header of the
message and counts `seqno` up before it looks at the client's slot and at the queue. `send_refused`: a
refused call leaves everything as it was exactly if one of the first two tests refused it.
-/

set_option autoImplicit false

namespace Ctp.Forwarder

variable {cfg : Config} {s : Forwarder cfg} {client : Nat} {msg : MsgPtr} {len : UInt8}

/-- The queue, the messages in it, the slots of the clients and the sequence number are as they were. -/
structure Unaffected (s s' : Forwarder cfg) : Prop where
  sendQueue : s'.sendQueue = s.sendQueue
  entries : ∀ q ∈ s.sendQueue.toList, s'.qe q = s.qe q
  messages : ∀ q ∈ s.sendQueue.toList, s'.mem (s.msgOf q) = s.mem (s.msgOf q)
  clientPtrs : s'.clientPtrs = s.clientPtrs
  seqno : s'.seqno = s.seqno

theorem Unaffected.refl (s : Forwarder cfg) : Unaffected s s :=
  ⟨rfl, fun _ _ => rfl, fun _ _ => rfl, rfl, rfl⟩

/-- The engine is off or the packet too long: the call is refused before it does anything. -/
def Barred (s : Forwarder cfg) (len : UInt8) : Prop :=
  s.routingOn = false ∨ len > maxPayloadLength cfg

theorem send_barred (h : s.Barred len) :
    (s.send client msg len).2 = s ∧
      ((s.send client msg len).1 = .eoff ∨ (s.send client msg len).1 = .esize) := by
  rw [send]
  cases hr : s.routingOn with
  | false => exact ⟨rfl, .inl rfl⟩
  | true =>
    rcases h with hoff | hlong
    · cases hr.symm.trans hoff
    · rw [if_pos hlong]
      exact ⟨rfl, .inr rfl⟩

/-- Past the first two tests. -/
theorem send_of_not_barred (h : ¬s.Barred len) :
    s.send client msg len =
      let t := s.fillHeader client msg len
      let q := t.clientPtrs client
      if q = .null then (.ebusy, t)
      else
        let r := (t.fillEntry client q msg).enqueue q
        if r.1 = .success then (.success, r.2.occupy client) else (.fail, r.2) := by
  rw [Barred, not_or, Bool.not_eq_false] at h
  rw [send, h.1, if_neg h.2]
  rfl

/-- The sequence number counts up, whatever the result. -/
theorem send_seqno (h : ¬s.Barred len) : (s.send client msg len).2.seqno = s.seqno + 1 := by
  rw [send_of_not_barred h]
  dsimp only
  split
  · rfl
  · split <;> rfl

theorem add_one_ne (n : UInt8) : n + 1 ≠ n := by
  intro h
  have hn := congrArg UInt8.toNat h
  rw [UInt8.toNat_add] at hn
  have := n.toNat_lt
  simp only [UInt8.reduceToNat] at hn
  omega

/-- **A refused `Send.send` has no effect** exactly if the engine is off or the packet too long. -/
theorem send_unaffected_iff (s : Forwarder cfg) (client : Nat) (msg : MsgPtr) (len : UInt8) :
    Unaffected s (s.send client msg len).2 ↔ s.routingOn = false ∨ len > maxPayloadLength cfg := by
  constructor
  · intro hu
    by_contra hb
    exact add_one_ne _ ((send_seqno hb).symm.trans hu.seqno)
  · intro hb
    rw [(send_barred hb).1]
    exact .refl s

/-- The client sends the packet that it has in the queue once more. -/
theorem send_again : ∃ h s, (machine exampleConfig).Run h s ∧ s.sendQueue.toList = [.client 0] ∧
    s.msgOf (.client 0) = .other 1 ∧ (s.send 0 (.other 1) 6).1 = .ebusy ∧
    (s.send 0 (.other 1) 6).2.seqno ≠ s.seqno ∧
    (s.send 0 (.other 1) 6).2.mem (.other 1) ≠ s.mem (.other 1) ∧
    ¬Unaffected s (s.send 0 (.other 1) 6).2 := by
  obtain ⟨h, s, hr, hs⟩ := Machine.exists_run_of_exec (M := machine exampleConfig)
    (s := boot exampleConfig) rfl [.start, .startDone .success, .send 0 (.other 1) 4]
    (fun _ s => s.sendQueue.toList = [.client 0] && s.msgOf (.client 0) = .other 1 &&
      (s.send 0 (.other 1) 6).1 = .ebusy && (s.send 0 (.other 1) 6).2.seqno ≠ s.seqno &&
      (s.send 0 (.other 1) 6).2.mem (.other 1) ≠ s.mem (.other 1)) (by decide)
  simp only [Bool.and_eq_true, decide_eq_true_eq] at hs
  obtain ⟨⟨⟨⟨hq, hmsg⟩, hret⟩, hseqno⟩, hmem⟩ := hs
  exact ⟨h, s, hr, hq, hmsg, hret, hseqno, hmem, fun hu => hseqno hu.seqno⟩

end Ctp.Forwarder
