import Backip.BCP.Forwarding
import Mathlib.Algebra.Group.Int.Defs
import Mathlib.Algebra.Group.Nat.Defs

/-!
# The header checksum

`sendDataTask` stores the sum of the control fields in 16 bits, `SubReceive.receive` compares it
with the sum in 32. Every frame handed to the link is stamped (`stamped_sendDataTask`); the next
hop finds the sums equal exactly if the sum fits 16 bits (`checksum_accepted`), which it does not
once the packet has been under way for some 65 seconds (`checksum_accepted_false`).
-/

set_option autoImplicit false

namespace BCP

/-! ## Stamped messages -/

/-- The sum of the control fields, as a number. -/
def Message.controlSum (m : Message) : Nat :=
  m.hdr.bcpDelay.toNat + m.hdr.bcpBackpressure.toNat + m.hdr.txCount.toNat + m.hdr.origin.toNat +
    m.hdr.hopCount.toNat + m.hdr.originSeqNo.toNat + m.hdr.pktType.toNat

def Message.Stamped (m : Message) : Prop :=
  m.hdr.hdrChecksum = (calcHdrChecksum m).toUInt16

theorem toNat_calcHdrChecksum (m : Message) :
    (calcHdrChecksum m).toNat = m.controlSum % 2 ^ 32 := by
  unfold calcHdrChecksum Message.controlSum
  simp only [UInt32.toNat_add, UInt16.toNat_toUInt32, UInt8.toNat_toUInt32]
  omega

/-- The sender's 16 bits are the receiver's 32. -/
theorem checksumOk_iff {m : Message} (h : m.Stamped) :
    m.checksumOk = true ↔ m.controlSum % 2 ^ 32 < 2 ^ 16 := by
  unfold Message.checksumOk
  rw [h, beq_iff_eq, ← UInt32.toNat_inj, UInt16.toNat_toUInt32, UInt32.toNat_toUInt16,
    toNat_calcHdrChecksum]
  omega

namespace Forwarder

theorem verdict_ne_corrupted {cfg : Config} {s : Forwarder} {m : Message}
    (h : m.checksumOk = true) : s.verdict cfg m ≠ .corrupted := by
  unfold verdict
  rw [h]
  split
  · simp
  · simp only [Bool.not_true, Bool.false_eq_true, if_false]
    split
    · simp
    · split <;> simp

/-! ## The frames handed to the link -/

/-- The frames given to `SubSend.send`, the last one first. -/
def frames (s : Forwarder) : List Message :=
  s.calls.filterMap fun
    | .subSend _ _ frame _ _ => some frame
    | _ => none

section
variable (cfg : Config) (s : Forwarder) (q : QePtr) (msg : MsgPtr) (code : UInt8)

@[simp] theorem frames_reportError : (s.reportError code).frames = s.frames := rfl

@[simp] theorem frames_setMsg (m : Message) : (s.setMsg msg m).frames = s.frames := rfl

@[simp] theorem frames_setQe (e : FeQueueEntry) : (s.setQe q e).frames = s.frames := rfl

@[simp] theorem frames_check (ret : TinyError) : (s.check ret code).frames = s.frames := by
  unfold check
  split <;> rfl

@[simp] theorem frames_getMessage : s.getMessage.2.frames = s.frames := rfl

@[simp] theorem frames_getQEntry : s.getQEntry.2.frames = s.frames := rfl

@[simp] theorem frames_popTop : s.popTop.2.frames = s.frames := rfl

@[simp] theorem frames_popBottom : s.popBottom.2.frames = s.frames := rfl

@[simp] theorem frames_pushTop : (s.pushTop q).2.frames = s.frames := rfl

@[simp] theorem frames_retryLater : s.retryLater.frames = s.frames := rfl

@[simp] theorem frames_stopSending : s.stopSending.frames = s.frames := rfl

@[simp] theorem frames_setSendQe : (s.setSendQe q).frames = s.frames := rfl

@[simp] theorem frames_setLoopback : (s.setLoopback msg).frames = s.frames := rfl

@[simp] theorem frames_clearSendQe : s.clearSendQe.frames = s.frames := rfl

@[simp] theorem frames_putMessage : (s.putMessage msg code).frames = s.frames := by
  unfold putMessage
  exact frames_check ..

@[simp] theorem frames_putQEntry : (s.putQEntry q code).frames = s.frames := by
  unfold putQEntry
  exact frames_check ..

@[simp] theorem frames_forwarderActivity : s.forwarderActivity.frames = s.frames := by
  unfold forwarderActivity
  repeat' split
  all_goals rfl

@[simp] theorem frames_conditionalFQDiscard :
    (s.conditionalFQDiscard cfg).frames = s.frames := by
  obtain ⟨t, ht⟩ : ∃ t, (s.popBottom.2.putMessage (s.popBottom.2.qe s.popBottom.1).msg
      0x59).putQEntry s.popBottom.1 0x39 = t := ⟨_, rfl⟩
  have hput : t.frames = s.frames := by
    rw [← ht, frames_putQEntry, frames_putMessage, frames_popBottom]
  unfold conditionalFQDiscard
  split
  · dsimp only
    rw [ht]
    split
    · exact hput
    · exact hput
  · rfl

@[simp] theorem frames_signalReceive (back : MsgPtr) :
    (s.signalReceive msg back).2.frames = s.frames := by
  unfold signalReceive
  dsimp only
  split <;> rfl

attribute [local irreducible] putMessage putQEntry signalReceive forwarderActivity check
  conditionalFQDiscard getMessage getQEntry popTop pushTop retryLater clearSendQe
  stopSending setSendQe setLoopback

theorem frames_serveRoot (back : MsgPtr) : (s.serveRoot q back).frames = s.frames := by
  unfold serveRoot
  dsimp only
  rw [frames_forwarderActivity, frames_setLoopback, frames_signalReceive, frames_putQEntry, frames_putMessage, frames_setMsg]

attribute [local irreducible] serveRoot

theorem frames_sendDataRoot (back : MsgPtr) : (s.sendDataRoot back).frames = s.frames := by
  unfold sendDataRoot
  dsimp only
  split
  · rw [frames_serveRoot, frames_clearSendQe, frames_stopSending]
  · split
    · exact frames_stopSending s
    · rw [frames_serveRoot, frames_setSendQe, frames_popTop, frames_stopSending]

theorem frames_fillNull (now : UInt32) : (s.fillNull cfg q msg now).frames = s.frames := rfl

attribute [local irreducible] fillNull

theorem frames_pushNull (now : UInt32) : (s.pushNull cfg now).2.frames = s.frames := by
  unfold pushNull
  dsimp only
  split
  · simp
  · split
    · simp
    · change (check _ _ _).frames = _
      rw [frames_check, frames_pushTop, frames_fillNull, frames_getMessage, frames_getQEntry]

theorem frames_giveUp : (s.giveUp cfg).frames = s.frames := by
  unfold giveUp
  dsimp only
  rw [frames_reportError, frames_retryLater, frames_clearSendQe, frames_check, frames_pushTop,
    frames_conditionalFQDiscard]
  rfl

theorem frames_subSend (dst : UInt16) (len : UInt8) (r : TinyError) :
    (s.subSend q dst len r).2.frames = { s.mem (s.qe q).msg with dst := dst } :: s.frames := by
  unfold subSend
  simp only [setMsg, Function.update_self]
  rfl

@[simp] theorem frames_sendResult (r : TinyError) :
    (s.sendResult cfg msg r).frames = s.frames := by
  unfold sendResult
  cases r <;> rfl

attribute [local irreducible] subSend sendResult

/-- The frame `transmit` hands to the link is stamped. -/
theorem frames_transmit (a : Answers) :
    ∃ m : Message, m.Stamped ∧ (s.transmit cfg a).frames = m :: s.frames := by
  unfold transmit
  dsimp only
  rw [frames_sendResult, frames_subSend]
  refine ⟨_, ?_, rfl⟩
  simp only [setMsg, setQe, Function.update_self]
  rfl

attribute [local irreducible] transmit giveUp pushNull sendDataRoot

theorem frames_attempt (a : Answers) :
    ∀ m ∈ (s.attempt cfg a).frames, m.Stamped ∨ m ∈ s.frames := by
  intro m hm
  unfold attempt at hm
  split at hm
  · rw [frames_giveUp] at hm
    exact .inr hm
  · obtain ⟨m', hs, hf⟩ := frames_transmit cfg s a
    rw [hf] at hm
    rcases List.mem_cons.1 hm with rfl | hm
    · exact .inl hs
    · exact .inr hm

attribute [local irreducible] attempt

theorem frames_takeNext (now : UInt32) : (s.takeNext now).frames = s.frames := by
  unfold takeNext
  exact (frames_setSendQe ..).trans (frames_popTop s)

theorem frames_sendNext (a : Answers) :
    ∀ m ∈ (s.sendNext cfg a).frames, m.Stamped ∨ m ∈ s.frames := by
  intro m hm
  unfold sendNext at hm
  dsimp only at hm
  split at hm
  · split at hm
    · have hf := frames_attempt _ _ _ m hm
      rwa [frames_takeNext, frames_pushNull] at hf
    · rw [frames_pushNull] at hm
      exact .inr hm
  · have hf := frames_attempt _ _ _ m hm
    rwa [frames_takeNext] at hf

attribute [local irreducible] sendNext

/-- Every frame `sendDataTask` hands to the link is stamped. -/
theorem stamped_sendDataTask (a : Answers) :
    ∀ m ∈ (s.sendDataTask cfg a).frames, m.Stamped ∨ m ∈ s.frames := by
  intro m hm
  unfold sendDataTask at hm
  split at hm
  · rw [frames_sendDataRoot] at hm
    exact .inr hm
  · split at hm
    · exact frames_attempt cfg s a m hm
    · split at hm
      · exact .inr hm
      · dsimp only at hm
        split at hm
        · rw [frames_retryLater] at hm
          exact .inr hm
        · have hf := frames_sendNext cfg _ a m hm
          exact hf

end

/-- The frame as it arrives: the radio fills in the source. -/
def arrival (frame : Message) (src : UInt16) : Message := { frame with src := src }

/-- **When a stamped header is accepted.** A frame that `sendDataTask` hands to the link passes the
checksum at the next hop `r` exactly if the sum of its control fields fits 16 bits. -/
theorem checksum_accepted (cfg cfg' : Config) (s r : Forwarder) (a : Answers) {frame : Message}
    (h : frame ∈ ({ s with calls := [] }.sendDataTask cfg a).frames) (src : UInt16) :
    (arrival frame src).checksumOk = true ∧ r.verdict cfg' (arrival frame src) ≠ .corrupted ↔
      frame.controlSum % 2 ^ 32 < 2 ^ 16 := by
  have hstamped : (arrival frame src).Stamped := by
    rcases stamped_sendDataTask cfg _ a frame h with hs | hold
    · exact hs
    · exact absurd hold List.not_mem_nil
  rw [and_iff_left_of_imp verdict_ne_corrupted]
  exact checksumOk_iff hstamped

/-- A packet sent at time 0, handed to the link at time `now`. -/
def sentAt (now : UInt32) : Forwarder :=
  { ((boot exampleConfig).enqueue exampleConfig {} 0).2 with calls := [] }.sendDataTask exampleConfig
    { route := some (2, 0), now := now }

/-- A packet that leaves a second after it arrived is accepted at the next hop. -/
theorem checksum_accepted_fresh : ∃ frame ∈ (sentAt 1000).frames,
    (arrival frame 1).checksumOk = true ∧
      (boot exampleConfig).verdict exampleConfig (arrival frame 1) ≠ .corrupted := by
  obtain ⟨frame, hf, hsum⟩ : ∃ frame ∈ (sentAt 1000).frames,
      frame.controlSum % 2 ^ 32 < 2 ^ 16 := by decide
  exact ⟨frame, hf, (checksum_accepted exampleConfig exampleConfig _ _ _ hf 1).2 hsum⟩

/-- A packet that waits 66 seconds for a neighbor is discarded as corrupted. -/
theorem checksum_accepted_false : ¬ ∀ (cfg : Config) (s : Forwarder), (machine cfg).Reachable s →
    ∀ (a : Answers) (frame : Message),
      frame ∈ ({ s with calls := [] }.sendDataTask cfg a).frames →
      ∀ (cfg' : Config) (r : Forwarder) (src : UInt16),
        (arrival frame src).checksumOk = true ∧
          r.verdict cfg' (arrival frame src) ≠ .corrupted := by
  intro hall
  obtain ⟨h, s, hr, hp⟩ := Machine.exists_run_of_exec (M := machine exampleConfig) rfl
    [.start, .send {} 20 0, .sendDataTask {}, .txRetryTimerFired]
    (fun _ s => ({ s with calls := [] }.sendDataTask exampleConfig
      { route := some (2, 0), now := 66000 }).frames.any fun m => !m.checksumOk) (by decide)
  obtain ⟨frame, hf, hbad⟩ := List.any_eq_true.1 hp
  have hok := (hall _ s ⟨h, hr⟩ _ frame hf exampleConfig s 1).1
  rw [show frame.checksumOk = true from hok] at hbad
  cases hbad

end Forwarder

end BCP
