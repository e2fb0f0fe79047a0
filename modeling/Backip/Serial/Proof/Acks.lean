import Backip.Lib.Ring
import Backip.Serial.Proof.Transmit

/-!
# The acks carry the tokens that were pushed

`Sender.Acking s tokens`: the acks that were transmitted and the tokens that wait are some of the
tokens pushed, in their order; `Acking.step` for each event of the sender.
-/

set_option autoImplicit false

namespace Serial

variable {s : Sender} {p : UInt8 × List UInt8} {tokens queue : List UInt8}

/-- The queue holds the tokens `queue`, the first one first. -/
structure AckQueue.Holds (q : AckQueue) (queue : List UInt8) : Prop where
  readPtr_lt : q.readPtr < ackQueueSize + 1
  length_lt : queue.length < ackQueueSize + 1
  writePtr_eq : q.writePtr = Ring.idx (ackQueueSize + 1) q.readPtr queue.length
  window_eq : Ring.window q.buf (ackQueueSize + 1) q.readPtr queue.length = queue

namespace AckQueue

variable {q : AckQueue}

theorem next_eq {ptr : Nat} (h : ptr < ackQueueSize + 1) :
    next ptr = Ring.idx (ackQueueSize + 1) ptr 1 := by
  unfold next Ring.idx
  split <;> split <;> omega

theorem Holds.isEmpty (h : q.Holds queue) : q.isEmpty = decide (queue = []) := by
  have hr := h.readPtr_lt
  have hl := h.length_lt
  rw [AckQueue.isEmpty, h.writePtr_eq, decide_eq_decide]
  constructor
  · intro he
    rw [← Ring.idx_zero hr] at he
    rw [Ring.idx_idx (j := queue.length) hr (by omega), Nat.zero_add] at he
    exact List.eq_nil_of_length_eq_zero (Ring.idx_inj hl (by omega) he)
  · rintro rfl
    exact Ring.idx_zero hr

theorem Holds.push (h : q.Holds queue) (hfull : q.isFull = false) (token : UInt8) :
    (q.push token).Holds (queue ++ [token]) := by
  have hr := h.readPtr_lt
  have hl := h.length_lt
  have hw : q.writePtr < ackQueueSize + 1 := by
    rw [h.writePtr_eq]
    unfold Ring.idx
    split <;> omega
  have hnext : next q.writePtr = Ring.idx (ackQueueSize + 1) q.readPtr (queue.length + 1) := by
    rw [next_eq hw, h.writePtr_eq, Ring.idx_idx hr (by omega)]
  have hroom : queue.length + 1 < ackQueueSize + 1 := by
    refine Nat.lt_of_le_of_ne hl fun hlen => ?_
    rw [isFull, hnext, hlen] at hfull
    refine absurd (of_decide_eq_false hfull) (not_not_intro ?_)
    unfold Ring.idx
    rw [if_neg (by omega)]
    omega
  refine ⟨hr, by rwa [List.length_append, List.length_singleton], ?_, ?_⟩
  · rw [List.length_append, List.length_singleton]
    exact hnext
  · rw [List.length_append, List.length_singleton]
    change Ring.window (Function.update q.buf q.writePtr token) _ q.readPtr _ = _
    rw [h.writePtr_eq, Ring.window_push _ _ hl, h.window_eq]

theorem Holds.top {token : UInt8} (h : q.Holds (token :: queue)) : q.top = token := by
  have hw := h.window_eq
  rw [List.length_cons, Ring.window_cons _ h.readPtr_lt h.length_lt.le] at hw
  rw [AckQueue.top, h.isEmpty]
  exact (List.cons.inj hw).1

theorem Holds.pop {token : UInt8} (h : q.Holds (token :: queue)) : q.pop.Holds queue := by
  have hr := h.readPtr_lt
  have hl := h.length_lt
  have hempty := of_decide_eq_true (p := ¬ q.writePtr = q.readPtr)
    (by have := h.isEmpty; simpa [AckQueue.isEmpty] using this)
  rw [List.length_cons] at hl
  have hw := h.window_eq
  rw [List.length_cons, Ring.window_cons _ hr hl.le] at hw
  rw [AckQueue.pop, if_pos hempty]
  refine ⟨?_, by omega, ?_, ?_⟩
  · rw [next_eq hr]
    change Ring.idx _ _ _ < _
    unfold Ring.idx
    split <;> omega
  · change q.writePtr = Ring.idx _ (next q.readPtr) _
    rw [next_eq hr, Ring.idx_idx hr (by omega), h.writePtr_eq, List.length_cons,
      Nat.add_comm queue.length]
  · change Ring.window q.buf _ (next q.readPtr) _ = _
    rw [next_eq hr]
    exact (List.cons.inj hw).2

end AckQueue

namespace Sender

/-- The tokens of the acks that were transmitted. -/
def acks (s : Sender) : List UInt8 :=
  (s.sent.filter fun q => q.1 = protoAck).flatMap fun q => q.2

/-- The ack in transmission is complete; its token still waits for `RunTx`. -/
def Acked (s : Sender) : Prop :=
  s.txIndex = .ack ∧ (s.txState = .endWait ∨ s.txState = .finish)

structure Acking (s : Sender) (tokens queue : List UInt8) : Prop where
  holds : s.ackQ.Holds queue
  acks_before : ¬ Acked s → (s.acks ++ queue).Sublist tokens
  acks_behind : Acked s → (s.acks ++ queue.tail).Sublist tokens
  current : s.txIndex = .ack → s.txState ≠ .idle → ∃ rest, queue = s.ackBuf.buf :: rest
  proto : s.txState ≠ .idle → s.txProto = TxIndex.proto s.txIndex

theorem acking_start : Acking start [] [] where
  holds := ⟨by decide, by decide, rfl, rfl⟩
  acks_before _ := List.nil_sublist _
  acks_behind _ := List.nil_sublist _
  current _ h := absurd rfl h
  proto h := absurd rfl h

theorem Acking.sublist (h : Acking s tokens queue) : s.acks.Sublist tokens := by
  by_cases ha : Acked s
  · exact (List.sublist_append_left _ _).trans (h.acks_behind ha)
  · exact (List.sublist_append_left _ _).trans (h.acks_before ha)

/-- What the invariant is about stays what it is. -/
theorem Acking.congr {t : Sender} (h : Acking s tokens queue) (hq : t.ackQ = s.ackQ)
    (hsent : t.sent = s.sent) (hindex : t.txIndex = s.txIndex) (hproto : t.txProto = s.txProto)
    (hbuf : t.ackBuf = s.ackBuf) (hbusy : t.txState ≠ .idle ↔ s.txState ≠ .idle)
    (hacked : Acked t ↔ Acked s) : Acking t tokens queue := by
  refine ⟨hq ▸ h.holds, fun ha => ?_, fun ha => ?_, fun hi hs => ?_, fun hs => ?_⟩
  · rw [acks, hsent]
    exact h.acks_before (mt hacked.2 ha)
  · rw [acks, hsent]
    exact h.acks_behind (hacked.1 ha)
  · rw [hbuf]
    exact h.current (hindex ▸ hi) (hbusy.1 hs)
  · rw [hproto, hindex]
    exact h.proto (hbusy.1 hs)

theorem Acking.push (h : Acking s tokens queue) (token : UInt8) :
    ∃ queue, Acking (s.ackQueuePush token) (tokens ++ [token]) queue := by
  unfold ackQueuePush
  split
  · exact ⟨queue, h.holds, fun ha => (h.acks_before ha).trans (List.sublist_append_left _ _),
      fun ha => (h.acks_behind ha).trans (List.sublist_append_left _ _), h.current, h.proto⟩
  · rename_i hfull
    refine ⟨queue ++ [token], h.holds.push (Bool.eq_false_iff.2 hfull) token, fun ha => ?_,
      fun ha => ?_, fun hi hs => ?_, h.proto⟩
    · exact List.append_assoc s.acks queue [token] ▸ (h.acks_before ha).append_right [token]
    · have ha' : Acked s := ha
      obtain ⟨rest, rfl⟩ := h.current ha'.1
        (by rcases ha'.2 with hs | hs <;> rw [hs] <;> nofun)
      exact List.append_assoc s.acks rest [token] ▸ (h.acks_behind ha').append_right [token]
    · obtain ⟨rest, rfl⟩ := h.current hi hs
      exact ⟨rest ++ [token], rfl⟩

theorem not_acked_of_idle (hs : s.txState = .idle) : ¬ Acked s := by
  rintro ⟨-, h | h⟩ <;> rw [hs] at h <;> cases h

/-- The token of the ack that was transmitted leaves the queue. -/
theorem Acking.finishTx (h : Acking s tokens queue) (hs : s.txState = .finish) :
    ∃ queue, Acking s.finishTx tokens queue ∧ s.finishTx.txState = .idle := by
  have hproto := h.proto (by rw [hs]; nofun)
  unfold Sender.finishTx Sender.freeBuf
  cases hi : s.txIndex with
  | ack =>
    obtain ⟨rest, rfl⟩ := h.current hi (by rw [hs]; nofun)
    rw [hi] at hproto
    have hpack : s.txProto = protoAck := hproto
    dsimp only
    rw [if_pos hpack]
    exact ⟨rest, ⟨h.holds.pop, fun _ => h.acks_behind ⟨hi, .inr hs⟩,
      fun ha => absurd ha (not_acked_of_idle rfl), fun _ hne => absurd rfl hne,
      fun hne => absurd rfl hne⟩, rfl⟩
  | data =>
    rw [hi] at hproto
    have hpack : s.txProto ≠ protoAck := by
      rw [hproto]
      decide
    dsimp only
    rw [if_neg hpack]
    refine ⟨queue, ⟨h.holds, fun _ => h.acks_before fun ha => ?_,
      fun ha => absurd ha (not_acked_of_idle rfl), fun _ hne => absurd rfl hne,
      fun hne => absurd rfl hne⟩, rfl⟩
    exact absurd (hi.symm.trans ha.1) nofun

theorem Acking.chooseTx (h : Acking s tokens queue) (hs : s.txState = .idle) :
    Acking s.chooseTx tokens queue := by
  have hbefore := h.acks_before (not_acked_of_idle hs)
  unfold Sender.chooseTx
  split
  · rename_i hack
    obtain ⟨token, rest, rfl⟩ : ∃ token rest, queue = token :: rest := by
      refine List.exists_cons_of_ne_nil fun hnil => ?_
      rw [h.holds.isEmpty, hnil] at hack
      cases hack.1
    refine ⟨h.holds, fun _ => hbefore, fun ha => ?_, fun _ _ => ⟨rest, ?_⟩, fun _ => rfl⟩
    · rcases ha.2 with hs | hs <;> cases hs
    · exact congrArg (· :: rest) h.holds.top.symm
  · split
    · refine ⟨h.holds, fun _ => hbefore, fun ha => ?_, nofun, fun _ => rfl⟩
      rcases ha.2 with hs | hs <;> cases hs
    · exact h

/-- `finish` and `idle` are the states `RunTx` does something in. -/
theorem Acking.runTx (h : Acking s tokens queue) (hg : Good s p) :
    ∃ queue, Acking s.runTx tokens queue := by
  have h' : Acking { s with txPending := false } tokens queue :=
    h.congr rfl rfl rfl rfl rfl Iff.rfl Iff.rfl
  unfold Sender.runTx
  dsimp only
  split
  · rename_i hdone
    have hfinish : s.txState = .finish := by
      refine hdone.resolve_right fun herr => ?_
      cases hg.phase with
      | idle h₁ => rcases h₁ with h₁ | h₁ <;> rw [herr] at h₁ <;> cases h₁
      | proto h₁ | info h₁ | fcs1 h₁ | fcs2 h₁ | endFlag h₁ | endWait h₁ =>
        rw [herr] at h₁
        cases h₁
    obtain ⟨queue', hack, hidle⟩ := h'.finishTx hfinish
    exact ⟨queue', hack.chooseTx hidle⟩
  · split
    · rename_i hidle
      exact ⟨queue, h'.chooseTx hidle⟩
    · exact ⟨queue, h'⟩

/-! ## The bytes -/

/-- What a byte leaves as it is. -/
structure Kept (s t : Sender) : Prop where
  ackQ : t.ackQ = s.ackQ
  txIndex : t.txIndex = s.txIndex
  txProto : t.txProto = s.txProto
  ackBuf : t.ackBuf = s.ackBuf

theorem kept_putData (s : Sender) (b : UInt8) : Kept s (s.putData b) ∧ (s.putData b).sent = s.sent := by
  obtain ⟨e, t, w, heq⟩ := putData_eq s b
  rw [heq]
  exact ⟨⟨rfl, rfl, rfl, rfl⟩, rfl⟩

theorem kept_putInfo (s : Sender) : Kept s s.putInfo ∧ s.putInfo.sent = s.sent ∧
    (s.putInfo.txState = .fcs1 ∨ s.putInfo.txState = s.txState) := by
  obtain ⟨e, t, w, heq⟩ := putData_eq s s.buf
  unfold Sender.putInfo
  dsimp only
  rw [heq]
  dsimp only
  cases hi : s.txIndex with
  | ack => exact ⟨⟨rfl, hi.symm, rfl, rfl⟩, rfl, .inl rfl⟩
  | data =>
    dsimp only
    cases hr : s.rest with
    | nil =>
      simp only [nextByte, completeSend, true_or, if_true]
      exact ⟨⟨rfl, hi.symm, rfl, rfl⟩, trivial, trivial⟩
    | cons b rest =>
      simp only [nextByte]
      by_cases hfull : s.dataBuf.state = .complete ∨ s.txByteCnt + 1 ≥ serialMtu
      · simp only [hfull, if_true]
        exact ⟨⟨rfl, hi.symm, rfl, rfl⟩, trivial, .inl trivial⟩
      · simp only [hfull, if_false]
        exact ⟨⟨rfl, hi.symm, rfl, rfl⟩, trivial, .inr trivial⟩

/-- A byte that completes no ack. -/
theorem Acking.byte {t : Sender} (h : Acking s tokens queue) (hk : Kept s t)
    (hsent : t.sent = s.sent) (hs : s.txState ≠ .idle) (ht : t.txState ≠ .idle)
    (hacked : Acked t ↔ Acked s) : Acking t tokens queue :=
  h.congr hk.ackQ hsent hk.txIndex hk.txProto hk.ackBuf (iff_of_true ht hs) hacked

theorem acked_iff_of_state {t : Sender} (hi : t.txIndex = s.txIndex)
    (hst : (t.txState = .endWait ∨ t.txState = .finish) ↔
      (s.txState = .endWait ∨ s.txState = .finish)) : Acked t ↔ Acked s := by
  rw [Acked, Acked, hi, hst]

/-- The end flag: the ack is transmitted, its token still in the queue. -/
theorem Acking.endFlag (h : Acking s tokens queue) (hs : s.txState = .endFlag) {t : Sender}
    (hk : Kept s t) (hsent : t.sent = s.sent ++ [s.current]) (ht : t.txState = .endWait) :
    Acking t tokens queue := by
  have hbefore := h.acks_before fun ha => by rcases ha.2 with ha | ha <;> rw [hs] at ha <;> cases ha
  have hne : s.txState ≠ .idle := by
    rw [hs]
    nofun
  have hproto := h.proto hne
  have hcurrent : t.txIndex = .ack → ∃ rest, queue = t.ackBuf.buf :: rest := by
    rw [hk.txIndex, hk.ackBuf]
    exact fun hi => h.current hi hne
  refine ⟨hk.ackQ ▸ h.holds, fun ha => ?_, fun ha => ?_, fun hi _ => hcurrent hi, fun _ => ?_⟩
  · have hi : s.txIndex = .data := by
      cases hi : s.txIndex with
      | ack => exact absurd ⟨hk.txIndex.trans hi, .inl ht⟩ ha
      | data => rfl
    have hacks : t.acks = s.acks := by
      rw [acks, hsent, List.filter_append, List.flatMap_append, Sender.current, hproto, hi]
      exact List.append_nil _
    rwa [hacks]
  · have hi : s.txIndex = .ack := hk.txIndex ▸ ha.1
    obtain ⟨rest, rfl⟩ := h.current hi hne
    have hacks : t.acks = s.acks ++ [s.ackBuf.buf] := by
      rw [acks, hsent, List.filter_append, List.flatMap_append, current_ack hi, hproto, hi]
      rfl
    rw [hacks, List.append_assoc]
    exact hbefore
  · rw [hk.txProto, hk.txIndex]
    exact hproto

theorem Acking.putDone (h : Acking s tokens queue) (hg : Good s p)
    (hs : s.txState ≠ .idle ∧ s.txState ≠ .finish) : Acking s.putDone tokens queue := by
  unfold Sender.putDone
  cases hg.phase with
  | idle h₁ => exact absurd h₁ (not_or.2 hs)
  | proto h₁ =>
    rw [h₁]
    have hput := kept_putData s s.txProto
    refine h.byte ⟨hput.1.1, hput.1.2, hput.1.3, hput.1.4⟩ hput.2 hs.1 nofun
      (acked_iff_of_state hput.1.txIndex ?_)
    simp [h₁]
  | info h₁ =>
    rw [h₁]
    obtain ⟨hk, hsent, hstate⟩ := kept_putInfo s
    rw [h₁] at hstate
    refine h.byte hk hsent hs.1 ?_ (acked_iff_of_state hk.txIndex ?_)
    · rcases hstate with hstate | hstate <;> rw [hstate] <;> nofun
    · rcases hstate with hstate | hstate <;> simp [hstate, h₁]
  | fcs1 h₁ =>
    rw [h₁]
    have hput := kept_putData s (s.txCRC &&& 0xff).toUInt8
    refine h.byte ⟨hput.1.1, hput.1.2, hput.1.3, hput.1.4⟩ hput.2 hs.1 nofun
      (acked_iff_of_state hput.1.txIndex ?_)
    simp [h₁]
  | fcs2 h₁ =>
    rw [h₁]
    have hput := kept_putData s (s.txCRC >>> 8).toUInt8
    refine h.byte ⟨hput.1.1, hput.1.2, hput.1.3, hput.1.4⟩ hput.2 hs.1 nofun
      (acked_iff_of_state hput.1.txIndex ?_)
    simp [h₁]
  | endFlag h₁ =>
    rw [h₁]
    exact h.endFlag h₁ ⟨rfl, rfl, rfl, rfl⟩ rfl rfl
  | endWait h₁ =>
    rw [h₁]
    refine h.byte ⟨rfl, rfl, rfl, rfl⟩ rfl hs.1 nofun (acked_iff_of_state rfl ?_)
    simp [h₁, maybeScheduleTx]

theorem Acking.sendDone (h : Acking s tokens queue) (hg : Good s p) (hsending : s.sending = true) :
    Acking s.sendDone tokens queue := by
  have h' : Acking { s with sending := false } tokens queue :=
    h.congr rfl rfl rfl rfl rfl Iff.rfl Iff.rfl
  unfold Sender.sendDone
  dsimp only
  split
  · exact h.congr rfl rfl rfl rfl rfl Iff.rfl Iff.rfl
  · refine h'.putDone hg.sent_byte ?_
    change s.txState ≠ .idle ∧ s.txState ≠ .finish
    cases hg.phase with
    | idle _ h₂ =>
      rw [hsending] at h₂
      cases h₂
    | proto h₁ | info h₁ | fcs1 h₁ | fcs2 h₁ | endFlag h₁ | endWait h₁ =>
      rw [h₁]
      exact ⟨nofun, nofun⟩

theorem Acking.startSend (h : Acking s tokens queue) (b : UInt8) (rest : List UInt8) :
    Acking (s.startSend b rest) tokens queue := by
  unfold Sender.startSend
  split
  · exact h.congr rfl rfl rfl rfl rfl Iff.rfl Iff.rfl
  · exact h

end Sender

end Serial
