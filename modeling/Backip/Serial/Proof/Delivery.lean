import Backip.Serial.Proof.Acks
import Backip.Serial.Proof.Dispatcher
import Backip.Serial.Proof.Receive
import Backip.Serial.SerialDispatcherC
import Mathlib

/-!
# An ack means delivery

* `Receiver.Signalled`: what one byte makes the receiver signal.
* `Stack.Sound`: the receiver and the dispatcher agree on whether a packet is open, and every frame
  whose token was pushed is passed to the upper layer or with the task.
* `acked_delivered`: while the task is not pending when a frame ends, and the frame fits.
* `not_delivered`: a frame that ends while the task is pending.
-/

set_option autoImplicit false

namespace Serial

variable {r r' : Receiver} {accept : List Signal → Bool}

namespace Receiver

/-- A packet is being received. -/
def Opened (r : Receiver) : Prop := r.rx.rxState = .token ∨ r.rx.rxState = .info

/-- The byte is the end flag of a frame whose checksum is right. -/
def EndsFrame (r : Receiver) (data : UInt8) : Prop :=
  data = flagByte ∧ r.rx.rxState = .info ∧ 2 ≤ r.rx.rxByteCnt ∧ r.rx.rxByteCnt < serialMtu ∧
    r.rx.rxBuf.currentCrc = r.rx.rxCRC

instance (r : Receiver) (data : UInt8) : Decidable (r.EndsFrame data) :=
  inferInstanceAs (Decidable (_ ∧ _))

/-- What the receiver signals in one step, with the answer to `startPacket`. -/
inductive Signalled (accepts : Bool) (ends : Prop) (r r' : Receiver) : Prop
  | silent : r'.signals = r.signals → (r'.Opened ↔ r.Opened) → Signalled accepts ends r r'
  | started : r'.signals = r.signals ++ [.startPacket] → accepts = true → ¬ r.Opened → r'.Opened →
      Signalled accepts ends r r'
  | refused : r'.signals = r.signals ++ [.startPacket, .endPacket .fail] → accepts = false →
      ¬ r'.Opened → Signalled accepts ends r r'
  | failed : r'.signals = r.signals ++ [.endPacket .fail] → ¬ r'.Opened →
      Signalled accepts ends r r'
  | byte (b : UInt8) : r'.signals = r.signals ++ [.byteReceived b] → r.Opened → r'.Opened →
      Signalled accepts ends r r'
  | ended (token : UInt8) : r'.signals = r.signals ++ [.endPacket .success, .ackQueuePush token] →
      ends → r.Opened → ¬ r'.Opened → Signalled accepts ends r r'

theorem not_opened_nosync (r : Receiver) (isDelimiter : Bool) : ¬ (r.nosync isDelimiter).Opened := by
  cases isDelimiter <;> rintro (h | h) <;> cases h

variable {ends : Prop} {accepts : Bool}

theorem signalled_nosync (r : Receiver) (isDelimiter : Bool) :
    Signalled accepts ends r (r.nosync isDelimiter) :=
  .failed (signals_nosync r isDelimiter) (not_opened_nosync r isDelimiter)

/-- Only the signals and whether a packet is open matter. -/
theorem Signalled.congr {t : Receiver} (h : Signalled accepts ends r r') (hs : r.signals = t.signals)
    (ho : r.Opened ↔ t.Opened) : Signalled accepts ends t r' := by
  cases h with
  | silent h₁ h₂ => exact .silent (hs ▸ h₁) (h₂.trans ho)
  | started h₁ h₂ h₃ h₄ => exact .started (hs ▸ h₁) h₂ (mt ho.2 h₃) h₄
  | refused h₁ h₂ h₃ => exact .refused (hs ▸ h₁) h₂ h₃
  | failed h₁ h₂ => exact .failed (hs ▸ h₁) h₂
  | byte b h₁ h₂ h₃ => exact .byte b (hs ▸ h₁) (ho.1 h₂) h₃
  | ended token h₁ h₂ h₃ h₄ => exact .ended token (hs ▸ h₁) h₂ (ho.1 h₃) h₄

theorem signalled_saveByte (hs : r.rx.rxState = .info) (data : UInt8) :
    Signalled accepts ends r (r.saveByte data) := by
  unfold Receiver.saveByte
  split
  · exact .byte _ rfl (.inr hs) (.inr hs)
  · exact .silent rfl Iff.rfl

theorem signalled_rxStateMachine (accept : List Signal → Bool) (r : Receiver) (isDelimiter : Bool)
    (data : UInt8) :
    Signalled (accept r.signals) (isDelimiter = true ∧ r.EndsFrame flagByte) r
      (r.rxStateMachine accept isDelimiter data) := by
  unfold Receiver.rxStateMachine
  cases hstate : r.rx.rxState with
  | noSync =>
    have hclosed : ¬ r.Opened := by
      rintro (h | h) <;> rw [hstate] at h <;> cases h
    dsimp only
    split
    · exact .silent rfl (iff_of_false (by rintro (h | h) <;> cases h) hclosed)
    · exact .silent rfl Iff.rfl
  | proto =>
    have hclosed : ¬ r.Opened := by
      rintro (h | h) <;> rw [hstate] at h <;> cases h
    dsimp only
    split
    · split
      · exact .failed (signals_nosync _ _) (not_opened_nosync _ _)
      · split
        · exact .failed (signals_nosync _ _) (not_opened_nosync _ _)
        · split
          · rename_i hacc
            refine .refused ?_ (by simpa using hacc) (not_opened_nosync _ _)
            rw [signals_nosync]
            exact List.append_assoc _ _ _
          · rename_i hacc
            exact .started rfl (by simpa using hacc) hclosed (.inl rfl)
    · exact .silent rfl Iff.rfl
  | token =>
    dsimp only
    split
    · exact signalled_nosync _ _
    · exact .silent rfl (iff_of_true (.inr rfl) (.inl hstate))
  | info =>
    dsimp only
    split
    · rename_i hlt
      split
      · rename_i hdel
        split
        · rename_i hcnt
          split
          · rename_i hcrc
            refine .ended r.rx.rxSeqno ?_ ⟨hdel, rfl, hstate, hcnt, hlt, hcrc⟩ (.inr hstate)
              (by rintro (h | h) <;> cases h)
            exact List.append_assoc _ _ _
          · exact signalled_nosync _ _
        · exact signalled_nosync _ _
      · exact signalled_saveByte hstate _
    · exact signalled_nosync _ _
  | inactive => exact signalled_nosync _ _

theorem Signalled.mono {ends' : Prop} (h : Signalled accepts ends r r') (he : ends → ends') :
    Signalled accepts ends' r r' := by
  cases h with
  | silent h₁ h₂ => exact .silent h₁ h₂
  | started h₁ h₂ h₃ h₄ => exact .started h₁ h₂ h₃ h₄
  | refused h₁ h₂ h₃ => exact .refused h₁ h₂ h₃
  | failed h₁ h₂ => exact .failed h₁ h₂
  | byte b h₁ h₂ h₃ => exact .byte b h₁ h₂ h₃
  | ended token h₁ h₂ h₃ h₄ => exact .ended token h₁ (he h₂) h₃ h₄

/-- One byte of the UART. -/
theorem signalled_receivedByte (accept : List Signal → Bool) (r : Receiver) (data : UInt8) :
    Signalled (accept r.signals) (r.EndsFrame data) r (r.receivedByte accept data) := by
  unfold Receiver.receivedByte
  split
  · rename_i hflag
    subst hflag
    exact (signalled_rxStateMachine accept r true 0).mono And.right
  · split
    · exact .silent rfl Iff.rfl
    · split
      · have h := signalled_rxStateMachine accept { r with receiveEscape := false } false (data ^^^ 0x20)
        exact (Signalled.congr (t := r) h rfl Iff.rfl).mono fun h => absurd h.1 nofun
      · exact (signalled_rxStateMachine accept r false data).mono fun h => absurd h.1 nofun

end Receiver

end Serial

namespace SerialDispatcherC

open Serial SerialDispatcherP

variable {cfg : SerialPlatform} {s : Stack} {bytes : List UInt8}

namespace Stack

/-! ## The signals reach the dispatcher -/

theorem answer_eq (d : Dispatcher) :
    decide (d.startPacket.1 = .success) = !d.isCurrentBufferLocked := by
  unfold Dispatcher.startPacket
  cases d.isCurrentBufferLocked <;> rfl

/-- The packet that the task has not yet passed. -/
def waiting (d : Dispatcher) : List (List UInt8) :=
  match d.task with
  | .posted | .copied _ _ _ _ => [d.taskPacket]
  | .idle | .signalled _ _ _ _ => []

/-- The type of a packet and its other bytes. -/
def parts (bytes : List UInt8) : UInt8 × List UInt8 := (typeOf bytes, bytes.tail)

/-- Every frame whose token was pushed is passed, or waits with the task. -/
structure Delivered (cfg : SerialPlatform) (s : Stack) : Prop where
  passed : s.dispatcher.passed.map (fun p => (p.type, p.contents)) ++
    (waiting s.dispatcher).map parts = s.frames.map fun f => parts f.2
  fits : ∀ bytes ∈ waiting s.dispatcher, kept cfg bytes = bytes.tail

structure Sound (cfg : SerialPlatform) (s : Stack) : Prop where
  buffers : Good cfg s.dispatcher
  opened : s.dispatcher.packet.isSome ↔ s.receiver.Opened
  acks : ∃ p queue, Sender.Good s.sender p ∧ Sender.Acking s.sender (s.frames.map Prod.fst) queue
  delivered : Delivered cfg s

theorem sound_start : Sound cfg start where
  buffers := good_boot
  opened := iff_of_false nofun (by rintro (h | h) <;> cases h)
  acks := ⟨_, [], Sender.good_start, Sender.acking_start⟩
  delivered := ⟨rfl, nofun⟩

/-- The frame fits in `message_t`, and the task is not pending when it ends. -/
def Kept (cfg : SerialPlatform) (s : Stack) : Event → Prop
  | .receivedByte data => s.receiver.EndsFrame data → s.dispatcher.receiveTaskPending = false ∧
      ∀ bytes ∈ s.dispatcher.packet,
        (cfg.offset (typeOf bytes)).toNat + bytes.tail.length ≤ cfg.messageSize
  | .dispatcher _ | .sender _ => True

theorem drop_signals {r r' : Receiver} {l : List Signal} (h : r'.signals = r.signals ++ l) :
    r'.signals.drop r.signals.length = l := by
  rw [h, List.drop_left]

/-- The dispatcher without a change of what it passed or has to pass. -/
theorem Delivered.congr {t : Stack} (h : Delivered cfg s) (hf : t.frames = s.frames)
    (hp : t.dispatcher.passed = s.dispatcher.passed) (ht : t.dispatcher.task = s.dispatcher.task)
    (htp : t.dispatcher.taskPacket = s.dispatcher.taskPacket) : Delivered cfg t := by
  have hw : waiting t.dispatcher = waiting s.dispatcher := by
    unfold waiting
    rw [ht, htp]
  exact ⟨by rw [hp, hw, hf]; exact h.passed, by rw [hw]; exact h.fits⟩

/-! ## The signals, one by one -/

/-- What a signal that passes nothing leaves as it is. -/
structure Quiet (d d' : Dispatcher) : Prop where
  passed : d'.passed = d.passed
  task : d'.task = d.task
  taskPacket : d'.taskPacket = d.taskPacket

theorem quiet_startPacket (d : Dispatcher) : Quiet d d.startPacket.2 := by
  unfold Dispatcher.startPacket
  split
  · obtain ⟨z, o, heq, -⟩ := setLock_eq d d.receiveState.which true
    rw [Dispatcher.lockCurrentBuffer, heq]
    exact ⟨rfl, rfl, rfl⟩
  · exact ⟨rfl, rfl, rfl⟩

theorem quiet_byteReceived (cfg : SerialPlatform) (d : Dispatcher) (b : UInt8) :
    Quiet d (d.byteReceived cfg b) := by
  obtain ⟨_, _, _, _, heq⟩ := byteReceived_eq cfg d b
  rw [heq]
  exact ⟨rfl, rfl, rfl⟩

theorem quiet_fail (d : Dispatcher) : Quiet d (d.endPacket .fail) ∧
    (d.endPacket .fail).packet = none := by
  obtain ⟨z, o, heq, -⟩ := setLock_eq { d with packet := none } d.receiveState.which false
  rw [endPacket_fail d (show TinyError.fail ≠ .success by decide), Dispatcher.unlockBuffer, heq]
  exact ⟨⟨rfl, rfl, rfl⟩, rfl⟩

theorem Quiet.trans {d d' d'' : Dispatcher} (h : Quiet d d') (h' : Quiet d' d'') : Quiet d d'' :=
  ⟨h'.passed.trans h.passed, h'.task.trans h.task, h'.taskPacket.trans h.taskPacket⟩

/-- The dispatcher takes quiet signals. -/
theorem Sound.quiet (h : Sound cfg s) {receiver : Receiver} {dispatcher : Dispatcher}
    (hg : Good cfg dispatcher) (hq : Quiet s.dispatcher dispatcher)
    (ho : dispatcher.packet.isSome ↔ receiver.Opened) :
    Sound cfg { s with receiver, dispatcher } where
  buffers := hg
  opened := ho
  acks := h.acks
  delivered := h.delivered.congr rfl hq.passed hq.task hq.taskPacket

theorem packet_startPacket {d : Dispatcher} (hl : d.isCurrentBufferLocked = false) :
    d.startPacket.2.packet = some [] := by
  unfold Dispatcher.startPacket
  rw [hl]
  rfl

/-- The frame is over, its packet with the task and its token in the ack queue. -/
theorem Sound.ended (h : Sound cfg s) {receiver : Receiver} (ho : s.receiver.Opened)
    (hc : ¬ receiver.Opened) (hpend : s.dispatcher.receiveTaskPending = false)
    (hfits : ∀ bytes ∈ s.dispatcher.packet,
      (cfg.offset (typeOf bytes)).toNat + bytes.tail.length ≤ cfg.messageSize) (token : UInt8) :
    Sound cfg (({ s with receiver }.signal cfg (.endPacket .success)).signal cfg
      (.ackQueuePush token)) := by
  obtain ⟨bytes, hbytes⟩ := Option.isSome_iff_exists.1 (h.opened.2 ho)
  have hgood := h.buffers.complete hbytes hpend
  have hidle := (h.buffers.free hpend).2
  obtain ⟨d, hd⟩ : ∃ d, s.dispatcher.endPacket .success = d := ⟨_, rfl⟩
  have hspec : d.packet = none ∧ d.complete = s.dispatcher.complete ++ [bytes] ∧
      d.task = .posted ∧ d.taskPacket = bytes ∧ d.passed = s.dispatcher.passed := by
    rw [← hd]
    unfold Dispatcher.endPacket
    rw [hbytes, hpend]
    exact ⟨rfl, rfl, rfl, rfl, rfl⟩
  obtain ⟨hpacket, hcomplete, htask, htp, hpassed⟩ := hspec
  rw [hd] at hgood
  have heq : ({ s with receiver }.signal cfg (.endPacket .success)).signal cfg (.ackQueuePush token) =
      { s with
        receiver, dispatcher := d, sender := s.sender.ackQueuePush token
        frames := s.frames ++ [(token, bytes)] } := by
    simp only [signal, hd, hcomplete, List.getLastD_concat]
  rw [heq]
  refine ⟨hgood, ?_, ?_, ?_⟩
  · simp only [hpacket, Option.isSome_none]
    exact iff_of_false nofun hc
  · obtain ⟨p, queue, hsend, hack⟩ := h.acks
    obtain ⟨queue', hack'⟩ := hack.push token
    refine ⟨p, queue', hsend.ackQueuePush token, ?_⟩
    rw [List.map_append]
    exact hack'
  · have hbefore := h.delivered.passed
    simp only [waiting, hidle, List.map_nil, List.append_nil] at hbefore
    refine ⟨?_, fun b hb => ?_⟩
    · simp only [waiting, htask, htp, hpassed, hbefore, List.map_append, List.map_cons, List.map_nil]
    · simp only [waiting, htask, htp, List.mem_singleton] at hb
      subst hb
      exact kept_of_fits (hfits b hbytes)

theorem Sound.receivedByte (h : Sound cfg s) {data : UInt8} (hk : Kept cfg s (.receivedByte data)) :
    Sound cfg (s.receivedByte cfg data) := by
  have hlocked := h.buffers.locked_iff
  have hans := answer_eq s.dispatcher
  unfold Stack.receivedByte
  dsimp only
  cases Receiver.signalled_receivedByte (fun _ => s.dispatcher.startPacket.1 = .success) s.receiver
    data with
  | silent hsig ho =>
    rw [hsig, List.drop_length, List.foldl_nil]
    exact h.quiet h.buffers ⟨rfl, rfl, rfl⟩ (h.opened.trans ho.symm)
  | started hsig hacc _ ho =>
    rw [drop_signals hsig]
    rw [hans, Bool.not_eq_true'] at hacc
    refine h.quiet h.buffers.startPacket (quiet_startPacket _) ?_
    rw [packet_startPacket hacc]
    exact iff_of_true rfl ho
  | refused hsig _ ho =>
    rw [drop_signals hsig]
    obtain ⟨hquiet, hnone⟩ := quiet_fail s.dispatcher.startPacket.2
    have hclosed : ¬ (s.dispatcher.startPacket.2.endPacket .fail).packet.isSome := by
      rw [hnone]
      nofun
    exact h.quiet (h.buffers.startPacket.endPacket nofun) ((quiet_startPacket _).trans hquiet)
      (iff_of_false hclosed ho)
  | failed hsig ho =>
    rw [drop_signals hsig]
    obtain ⟨hquiet, hnone⟩ := quiet_fail s.dispatcher
    refine h.quiet (h.buffers.endPacket nofun) hquiet ?_
    rw [hnone]
    exact iff_of_false nofun ho
  | byte b hsig ho ho' =>
    rw [drop_signals hsig]
    have hsome := h.opened.2 ho
    refine h.quiet (h.buffers.byteReceived hsome b) (quiet_byteReceived cfg _ b) ?_
    refine iff_of_true ?_ ho'
    obtain ⟨_, _, _, _, heq⟩ := byteReceived_eq cfg s.dispatcher b
    simp only [heq, Option.isSome_map]
    exact hsome
  | ended token hsig hends ho ho' =>
    rw [drop_signals hsig]
    obtain ⟨hpend, hfits⟩ := hk hends
    exact h.ended ho ho' hpend hfits token

/-! ## The task and the sender -/

theorem Sound.task (h : Sound cfg s) {e : Dispatcher.Event} {d : Dispatcher} (he : IsTask e)
    (hs : s.dispatcher.step cfg e = some d) : Sound cfg { s with dispatcher := d } := by
  have hgood := (good_inductive cfg).step _ _ _ h.buffers hs
  have hpass := h.delivered.passed
  cases e with
  | startPacket | byteReceived | endPacket => cases he
  | taskCopy =>
    obtain ⟨htask, hs⟩ := Option.ite_none_right_eq_some.1 hs
    obtain rfl := Option.some.inj hs
    have hw : waiting s.dispatcher.receiveTaskCopy = waiting s.dispatcher := by
      simp only [waiting, htask, Dispatcher.receiveTaskCopy]
    refine ⟨hgood, h.opened, h.acks, ?_, ?_⟩
    · rw [hw]
      exact hpass
    · rw [hw]
      exact h.delivered.fits
  | taskSignal =>
    simp only [Dispatcher.step] at hs
    split at hs
    · rename_i myType myBuf mySize myWhich htask
      obtain rfl := Option.some.inj hs
      have htaken := h.buffers.taken (h.buffers.pending (by rw [htask]; rintro ⟨⟩))
      have hcopied := htaken.copied
      rw [Copied, htask] at hcopied
      obtain ⟨rfl, rfl, rfl, rfl⟩ := hcopied
      obtain ⟨-, hnat⟩ := htaken.holds.size
      have hfits := h.delivered.fits s.dispatcher.taskPacket (by simp [waiting, htask])
      refine ⟨hgood, h.opened, h.acks, ?_, by rintro _ ⟨⟩⟩
      simp only [waiting, htask, List.map_cons, List.map_nil] at hpass
      simp only [waiting, Dispatcher.receiveTaskSignal, List.map_append, List.map_cons,
        List.map_nil, List.append_nil]
      rw [hnat, htaken.holds.read_eq, hfits, htaken.holds.type_eq]
      exact hpass
    · cases hs
  | taskReturn myBuf =>
    simp only [Dispatcher.step] at hs
    split at hs
    · rename_i myWhich htask
      obtain ⟨-, hs⟩ := Option.ite_none_right_eq_some.1 hs
      obtain rfl := Option.some.inj hs
      obtain ⟨z, o, heq, -⟩ := setLock_eq
        { s.dispatcher with
          messagePtrs := Function.update s.dispatcher.messagePtrs myWhich myBuf } myWhich false
      simp only [waiting, htask, List.map_nil] at hpass
      have heq' : s.dispatcher.receiveTaskReturn myBuf myWhich =
          { s.dispatcher with
            messagePtrs := Function.update s.dispatcher.messagePtrs myWhich myBuf
            receiveState :=
              { s.dispatcher.receiveState with bufZeroLocked := z, bufOneLocked := o }
            receiveTaskPending := false, task := .idle } := by
        unfold Dispatcher.receiveTaskReturn
        dsimp only
        rw [Dispatcher.unlockBuffer, heq]
      rw [heq'] at hgood ⊢
      exact ⟨hgood, h.opened, h.acks, hpass, by rintro _ ⟨⟩⟩
    · cases hs

theorem Sound.send (h : Sound cfg s) {e : Sender.Event} {t : Sender} (he : IsSend e)
    (hs : s.sender.step e = some t) : Sound cfg { s with sender := t } := by
  obtain ⟨p, queue, hg, hack⟩ := h.acks
  obtain ⟨p', hg'⟩ := hg.step hs
  refine ⟨h.buffers, h.opened, ?_, h.delivered.congr rfl rfl rfl rfl⟩
  cases e with
  | ackQueuePush => cases he
  | startSend b rest =>
    obtain rfl := Option.some.inj hs
    exact ⟨p', queue, hg', hack.startSend b rest⟩
  | runTx =>
    obtain ⟨-, hs⟩ := Option.ite_none_right_eq_some.1 hs
    obtain rfl := Option.some.inj hs
    obtain ⟨queue', hack'⟩ := hack.runTx hg
    exact ⟨p', queue', hg', hack'⟩
  | sendDone =>
    obtain ⟨hsending, hs⟩ := Option.ite_none_right_eq_some.1 hs
    obtain rfl := Option.some.inj hs
    exact ⟨p', queue, hg', hack.sendDone hg hsending⟩

theorem Sound.step (h : Sound cfg s) {e : Event} {s' : Stack} (hk : Kept cfg s e)
    (hs : (machine cfg).step s e = some s') : Sound cfg s' := by
  cases e with
  | receivedByte data =>
    obtain rfl := Option.some.inj hs
    exact h.receivedByte hk
  | dispatcher e =>
    obtain ⟨he, hs⟩ := Option.ite_none_right_eq_some.1 hs
    obtain ⟨d, hd, rfl⟩ := Option.map_eq_some_iff.1 hs
    exact h.task he hd
  | sender e =>
    obtain ⟨he, hs⟩ := Option.ite_none_right_eq_some.1 hs
    obtain ⟨t, ht, rfl⟩ := Option.map_eq_some_iff.1 hs
    exact h.send he ht

/-! ## Delivery -/

/-- The acks that were transmitted carry tokens of the frames in `frames`, in their order, and each of
these frames is passed to `Receive.receive` once, with the bytes received: it has been, or two more
steps of the task do it. -/
structure Acknowledged (cfg : SerialPlatform) (s : Stack) : Prop where
  acks : s.sender.acks.Sublist (s.frames.map Prod.fst)
  passed : s.dispatcher.passed.map (fun p => (p.type, p.contents)) ++
    (waiting s.dispatcher).map parts = s.frames.map fun f => parts f.2
  willPass : (machine cfg).Leads (fun e => e = .dispatcher .taskCopy ∨ e = .dispatcher .taskSignal)
    (fun s' => s'.frames = s.frames ∧ waiting s'.dispatcher = []) s

/-- The task passes what waits. -/
theorem leads_waiting (s : Stack) :
    (machine cfg).Leads (fun e => e = .dispatcher .taskCopy ∨ e = .dispatcher .taskSignal)
      (fun s' => s'.frames = s.frames ∧ waiting s'.dispatcher = []) s := by
  have hcopied : ∀ (t : Stack) myType myBuf mySize myWhich,
      t.dispatcher.task = .copied myType myBuf mySize myWhich → (machine cfg).Leads
        (fun e => e = .dispatcher .taskCopy ∨ e = .dispatcher .taskSignal)
        (fun s' => s'.frames = t.frames ∧ waiting s'.dispatcher = []) t := by
    intro t myType myBuf mySize myWhich ht
    have hstep : (machine cfg).step t (.dispatcher .taskSignal) = some { t with
        dispatcher := t.dispatcher.receiveTaskSignal cfg myType myBuf mySize myWhich } := by
      simp only [machine, Stack.step, IsTask, if_true, Dispatcher.step, ht, Option.map_some]
    exact .step (.inr rfl) hstep (.here ⟨rfl, rfl⟩)
  cases ht : s.dispatcher.task with
  | idle => exact .here ⟨rfl, by simp only [waiting, ht]⟩
  | signalled => exact .here ⟨rfl, by simp only [waiting, ht]⟩
  | copied myType myBuf mySize myWhich => exact hcopied s _ _ _ _ ht
  | posted =>
    have hstep : (machine cfg).step s (.dispatcher .taskCopy) = some { s with
        dispatcher := s.dispatcher.receiveTaskCopy } := by
      simp only [machine, Stack.step, IsTask, if_true, Dispatcher.step, ht, Option.map_some]
    exact .step (.inl rfl) hstep (hcopied _ _ _ _ _ rfl)

/-- **An ack means delivery**, in every run in which no frame ends while the task is pending and every
frame fits in `message_t`. -/
theorem acked_delivered {h : List (Stack × Event)} (hr : (machine cfg).Run h s)
    (hk : ∀ p ∈ h, Kept cfg p.1 p.2) :
    Acknowledged cfg s ∧ ∀ p ∈ h, Acknowledged cfg p.1 := by
  have hall := hr.inv_of_steps (P := Sound cfg) (C := Kept cfg)
    (fun t ht => by cases ht; exact sound_start) (fun _ _ _ hs hk => hs.step hk) hk
  have hack : ∀ t, Sound cfg t → Acknowledged cfg t := by
    intro t ht
    obtain ⟨_, _, -, hack⟩ := ht.acks
    exact ⟨hack.sublist, ht.delivered.passed, leads_waiting t⟩
  exact ⟨hack _ hall.1, fun p hp => hack _ (hall.2 p hp)⟩

instance (cfg : SerialPlatform) (s : Stack) (e : Event) : Decidable (Kept cfg s e) :=
  match e with
  | .receivedByte _ => inferInstanceAs (Decidable (_ → _))
  | .dispatcher _ | .sender _ => inferInstanceAs (Decidable True)

/-- The bytes of a frame with the packet `body`. -/
def hostFrame (token : UInt8) (body : List UInt8) : List Event :=
  (frame (protoPacketAck :: token :: body)).map .receivedByte

/-- The transmission of one ack. -/
def ackEvents : List Event :=
  .sender .runTx :: List.replicate 6 (.sender .sendDone)

def taskEvents : List Event :=
  [.dispatcher .taskCopy, .dispatcher .taskSignal, .dispatcher (.taskReturn 0)]

/-- Two frames, the second one after the task has run. -/
theorem acked_delivered_two : ∃ h s, (machine exampleMote).Run h s ∧
    (s.sender.acks = [1, 2] ∧ s.dispatcher.passed.length = 2) ∧
    Acknowledged exampleMote s ∧ ∀ p ∈ h, Acknowledged exampleMote p.1 := by
  obtain ⟨h, s, hr, hs⟩ := Machine.exists_run_of_exec (M := machine exampleMote) (s := start) rfl
    (hostFrame 1 [0, 1] ++ taskEvents ++ hostFrame 2 [0, 2] ++ ackEvents ++ ackEvents ++
      [.dispatcher .taskCopy, .dispatcher .taskSignal])
    (fun h s => decide ((s.sender.acks = [1, 2] ∧ s.dispatcher.passed.length = 2) ∧
      ∀ p ∈ h, Kept exampleMote p.1 p.2)) (by decide)
  obtain ⟨hs, hk⟩ := of_decide_eq_true hs
  exact ⟨h, s, hr, hs, acked_delivered hr hk⟩

/-- The second of two frames ends while the task is pending: it is dropped, and its ack is
transmitted. -/
theorem not_delivered : ∃ h s, (machine exampleMote).Run h s ∧ s.sender.acks = [1, 2] ∧
    s.frames = [(1, [0, 1]), (2, [0, 2])] ∧ s.dispatcher.task = .idle ∧
    s.dispatcher.passed.map (fun p => (p.type, p.contents)) = [(0, [1])] := by
  obtain ⟨h, s, hr, hs⟩ := Machine.exists_run_of_exec (M := machine exampleMote) (s := start) rfl
    (hostFrame 1 [0, 1] ++ hostFrame 2 [0, 2] ++ taskEvents ++ ackEvents ++ ackEvents)
    (fun _ s => decide (s.sender.acks = [1, 2] ∧ s.frames = [(1, [0, 1]), (2, [0, 2])] ∧
      s.dispatcher.task = .idle ∧
      s.dispatcher.passed.map (fun p => (p.type, p.contents)) = [(0, [1])])) (by decide)
  exact ⟨h, s, hr, of_decide_eq_true hs⟩

end Stack

end SerialDispatcherC
