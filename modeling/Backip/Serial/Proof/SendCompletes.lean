import Backip.Serial.SerialP

/-!
# Accepted sends complete

`Good` is kept by the steps that meet `Meets` (`Good.step`): a message that was accepted is in the data
buffer, and is being transmitted or waits while the sender is on, or its `signalSendDone` is posted.
`work` bounds what the tasks and the UART have to do, and each of their steps makes it less
(`work_service`).
-/

set_option autoImplicit false

namespace Serial

/-- A byte is in transmission. -/
def TxState.moving : TxState → Bool
  | .proto | .seqno | .info | .fcs1 | .fcs2 | .endFlag | .endWait => true
  | .idle | .finish | .error | .inactive => false

/-- A frame is in transmission, or `RunTx` has not seen its end. -/
def TxState.busy : TxState → Bool
  | .idle | .inactive => false
  | _ => true

theorem TxState.busy_of_moving {st : TxState} (h : st.moving = true) : st.busy = true := by
  cases st <;> first | rfl | cases h

namespace AckQueue

variable {q : AckQueue}

structure InRange (q : AckQueue) : Prop where
  writePtr : q.writePtr ≤ ackQueueSize
  readPtr : q.readPtr ≤ ackQueueSize

/-- The number of tokens that wait. -/
def count (q : AckQueue) : Nat :=
  if q.readPtr ≤ q.writePtr then q.writePtr - q.readPtr
  else q.writePtr + (ackQueueSize + 1) - q.readPtr

theorem InRange.push (h : q.InRange) (hfull : q.isFull = false) (token : UInt8) :
    (q.push token).InRange ∧ (q.push token).count = q.count + 1 := by
  have hne := of_decide_eq_false hfull
  have hw := h.writePtr
  have hr := h.readPtr
  unfold next at hne
  have hnext : (q.push token).writePtr = if q.writePtr + 1 > ackQueueSize then 0 else q.writePtr + 1 := rfl
  have hread : (q.push token).readPtr = q.readPtr := rfl
  refine ⟨⟨?_, hr⟩, ?_⟩
  · rw [hnext]
    split <;> omega
  · rw [count, count, hnext, hread]
    split at hne <;> split <;> split <;> first | omega | (split <;> omega)

theorem InRange.pop (h : q.InRange) : q.pop.InRange ∧ q.pop.count = q.count - 1 := by
  have hw := h.writePtr
  have hr := h.readPtr
  rw [AckQueue.pop]
  split
  · next hne =>
    have hnext : next q.readPtr = if q.readPtr + 1 > ackQueueSize then 0 else q.readPtr + 1 := rfl
    refine ⟨⟨hw, ?_⟩, ?_⟩
    · show next q.readPtr ≤ _
      rw [hnext]
      split <;> omega
    · show (if next q.readPtr ≤ q.writePtr then q.writePtr - next q.readPtr
        else q.writePtr + (ackQueueSize + 1) - next q.readPtr) = _
      rw [count, hnext]
      split <;> split <;> split <;> omega
  · next heq =>
    have heq := not_not.1 heq
    refine ⟨h, ?_⟩
    rw [count, if_pos (by omega)]
    omega

theorem InRange.count_pos (h : q.InRange) (hempty : q.isEmpty = false) : 0 < q.count := by
  have hne : ¬q.writePtr = q.readPtr := of_decide_eq_false hempty
  have hw := h.writePtr
  have hr := h.readPtr
  rw [count]
  split <;> omega

end AckQueue

end Serial

namespace SerialP.Port

open Serial

variable {cfg : SendPlatform} {s t : Port} {ret : Bool}

/-! ## The conditions -/

/-- The steps that do not run into what the code leaves out:
* no message is accepted while the stack is to be turned off;
* no message is cancelled whose transmission is over;
* the UART takes the second byte of an escaped one;
* `startDoneTask` does not run in the middle of a transmission;
* the stack is not stopped while a message waits for its transmission. -/
def Meets (cfg : SendPlatform) (s : Port) : Event → Prop
  | .send id _ _ =>
    s.sendState = .idle ∧ (cfg.offset id).toNat ≤ cfg.headerSize ∧ s.txState ≠ .inactive →
      s.offPending = false
  | .cancel id msg =>
    s.sendState = .data ∧ s.sendBuffer = msg ∧ id = s.sendId → s.dataBuf.state ≠ .available
  | .uartSendDone ret => s.sendEscape = true → ret = true
  | .startDone => s.txState.busy = false
  | .stop => s.dataBuf.state ≠ .available → s.txState.busy = true ∧ s.txIndex = .data
  | _ => True

/-- The message that was accepted and for which `Send.sendDone` was not signalled yet. -/
def outstanding (s : Port) : List Nat := if s.sendState = .data then [s.sendBuffer] else []

/-- The data buffer is in use, and not being transmitted. -/
def Waiting (s : Port) : Prop :=
  s.dataBuf.state ≠ .available ∧ ¬(s.txState.busy = true ∧ s.txIndex = .data)

instance (s : Port) : Decidable s.Waiting := inferInstanceAs (Decidable (_ ∧ _))

structure Good (s : Port) : Prop where
  sending : s.sending = s.txState.moving.toNat
  ended : s.txState = .finish ∨ s.txState = .error → s.txPending = true
  proto : s.txState.busy = true → (s.txProto = protoAck ↔ s.txIndex = .ack)
  current : s.txState.busy = true → s.txIndex = .data → s.dataBuf.state ≠ .available
  waiting : s.Waiting → s.txState ≠ .inactive ∧ s.offPending = false ∧
    (s.txState = .idle → s.txPending = true)
  outstanding : s.sendState = .data ↔ s.dataBuf.state ≠ .available ∨ s.signalPosted = true
  once : s.signalPosted = true → s.dataBuf.state = .available
  ackQ : s.ackQ.InRange
  account : s.accepted = s.done.map Prod.fst ++ s.outstanding

theorem good_boot : Good boot where
  sending := rfl
  ended h := by rcases h with h | h <;> cases h
  proto h := nomatch h
  current h := nomatch h
  waiting h := absurd rfl h.1
  outstanding := ⟨nofun, fun h => by rcases h with h | h; exacts [absurd rfl h, nomatch h]⟩
  once h := nomatch h
  ackQ := ⟨Nat.zero_le _, Nat.zero_le _⟩
  account := rfl

/-- While a message is outstanding, a task is posted or a byte is in transmission. -/
theorem Good.alive (h : Good s) (hout : s.sendState = .data) :
    s.txPending = true ∨ s.signalPosted = true ∨ 0 < s.sending := by
  rcases h.outstanding.1 hout with hdata | hposted
  · have hbusy (hb : s.txState.busy = true) : s.txPending = true ∨ 0 < s.sending := by
      have hsending := h.sending
      have hover := h.ended
      cases hstate : s.txState with
      | idle => rw [hstate] at hb; cases hb
      | inactive => rw [hstate] at hb; cases hb
      | finish => exact .inl (hover (.inl hstate))
      | error => exact .inl (hover (.inr hstate))
      | _ =>
        rw [hstate] at hsending
        exact .inr (hsending ▸ Nat.one_pos)
    cases hb : s.txState.busy with
    | true => exact (hbusy hb).imp_right .inr
    | false =>
      have hw := h.waiting ⟨hdata, fun hn => by rw [hb] at hn; cases hn.1⟩
      have hidle : s.txState = .idle := by
        cases hstate : s.txState with
        | idle => rfl
        | inactive => exact absurd hstate hw.1
        | _ => rw [hstate] at hb; cases hb
      exact .inl (hw.2.2 hidle)
  · exact .inr (.inl hposted)

/-! ## The bytes -/

/-- How often the UART and `RunTx` have to go on until a frame is over: every byte may be escaped. -/
def leftOf (st : TxState) (byteCnt : Nat) (sendEscape : Bool) : Nat :=
  match st with
  | .proto | .seqno => 522 + sendEscape.toNat
  | .info => 2 * (serialMtu - byteCnt) + 9 + sendEscape.toNat
  | .fcs1 => 7 + sendEscape.toNat
  | .fcs2 => 5 + sendEscape.toNat
  | .endFlag => 3 + sendEscape.toNat
  | .endWait => 2 + sendEscape.toNat
  | .finish | .error => 1
  | .idle | .inactive => 0

def left (s : Port) : Nat := leftOf s.txState s.txByteCnt s.sendEscape

/-- What the end of a byte leaves as it was. -/
structure Kept (s t : Port) : Prop where
  sendState : t.sendState = s.sendState
  sendBuffer : t.sendBuffer = s.sendBuffer
  signalPosted : t.signalPosted = s.signalPosted
  txIndex : t.txIndex = s.txIndex
  txProto : t.txProto = s.txProto
  ackQ : t.ackQ = s.ackQ
  offPending : t.offPending = s.offPending
  accepted : t.accepted = s.accepted
  done : t.done = s.done
  dataBuf : t.dataBuf.state = .available ↔ s.dataBuf.state = .available

/-- The next byte is in transmission, or the frame is over. -/
structure Moved (s t : Port) : Prop where
  kept : Kept s t
  txState : t.txState.moving = true ∧ t.sending = s.sending + 1 ∧ t.txPending = s.txPending ∨
    (t.txState = .finish ∨ t.txState = .error) ∧ t.sending = s.sending ∧ t.txPending = true
  left : t.left < s.left

theorem Kept.update (h : Kept s t) (txState : TxState) (txCRC : UInt16) (txByteCnt : Nat) (txPending : Bool) :
    Kept s { t with txState, txCRC, txByteCnt, txPending } :=
  ⟨h.sendState, h.sendBuffer, h.signalPosted, h.txIndex, h.txProto, h.ackQ, h.offPending, h.accepted,
    h.done, h.dataBuf⟩

structure Put (s t : Port) (ret : Bool) : Prop where
  kept : Kept s t
  txState : t.txState = s.txState
  txByteCnt : t.txByteCnt = s.txByteCnt
  txPending : t.txPending = s.txPending
  sending : t.sending = s.sending + ret.toNat

theorem putData_put (s : Port) (b : UInt8) (ret : Bool) : Put s (s.putData b ret) ret := by
  rw [putData]
  split <;> cases ret <;> exact ⟨⟨rfl, rfl, rfl, rfl, rfl, rfl, rfl, rfl, rfl, Iff.rfl⟩, rfl, rfl, rfl, rfl⟩

theorem putDelimiter_put (s : Port) (ret : Bool) : Put s (s.putDelimiter ret) ret := by
  cases ret <;> exact ⟨⟨rfl, rfl, rfl, rfl, rfl, rfl, rfl, rfl, rfl, Iff.rfl⟩, rfl, rfl, rfl, rfl⟩

theorem putResult_moved (hk : Kept s t) (hm : t.txState.moving = true)
    (hsending : t.sending = s.sending + ret.toNat) (hpending : t.txPending = s.txPending)
    (hleft : t.left < s.left) (hone : 1 < s.left) : Moved s (t.putResult ret) := by
  cases ret with
  | true => exact ⟨hk, .inl ⟨hm, hsending, hpending⟩, hleft⟩
  | false =>
    refine ⟨⟨hk.sendState, hk.sendBuffer, hk.signalPosted, hk.txIndex, hk.txProto, hk.ackQ,
      hk.offPending, hk.accepted, hk.done, hk.dataBuf⟩, .inr ⟨.inr rfl, hsending, rfl⟩, hone⟩

theorem nextByte_eq (cfg : SendPlatform) (s : Port) :
    ∃ sendIndex st, (s.nextByte cfg).2 = { s with sendIndex, dataBuf := { s.dataBuf with state := st } } ∧
      (st = s.dataBuf.state ∨ st = .complete) := by
  rw [nextByte]
  dsimp only
  split
  · exact ⟨_, _, rfl, .inr rfl⟩
  · exact ⟨_, _, rfl, .inl rfl⟩

theorem putInfo_moved (hstate : s.txState = .info) (hcur : s.txIndex = .data → s.dataBuf.state ≠ .available)
    (cfg : SendPlatform) (ret : Bool) : Moved s ((s.putInfo cfg ret).putResult ret) := by
  have hleft : s.left = 2 * (serialMtu - s.txByteCnt) + 9 + s.sendEscape.toNat := by
    rw [left, hstate]
    rfl
  have hone : 1 < s.left := by omega
  unfold putInfo
  extract_lets b v u r w src
  have hput : Put s v ret := putData_put s b ret
  have hkept : Kept s u := hput.kept.update v.txState _ _ v.txPending
  have hinfo : u.txState = .info := hput.txState.trans hstate
  have hsending : u.sending = s.sending + ret.toNat := hput.sending
  have hpending : u.txPending = s.txPending := hput.txPending
  have hcnt : u.txByteCnt = s.txByteCnt + 1 := congrArg (· + 1) hput.txByteCnt
  clear_value u
  have hfcs (w : Port) (hk : Kept s w) (hs : w.sending = u.sending) (hp : w.txPending = u.txPending) :
      Moved s ({ w with txState := .fcs1 }.putResult ret) := by
    have hescape := Bool.toNat_le w.sendEscape
    refine putResult_moved (hk.update .fcs1 w.txCRC w.txByteCnt w.txPending) rfl (hs.trans hsending)
      (hp.trans hpending) ?_ hone
    show 7 + w.sendEscape.toNat < _
    omega
  split
  · next hindex =>
    obtain ⟨sendIndex, st, hnext, hst⟩ := nextByte_eq cfg u
    have hne : s.dataBuf.state ≠ .available := hcur (hkept.txIndex.symm.trans hindex)
    have havail : st ≠ .available := by
      rcases hst with rfl | rfl
      · exact fun hn => hne (hkept.dataBuf.1 hn)
      · nofun
    have hk (buf : UInt8) : Kept s { u with sendIndex, dataBuf := { state := st, buf := buf } } :=
      ⟨hkept.sendState, hkept.sendBuffer, hkept.signalPosted, hkept.txIndex, hkept.txProto, hkept.ackQ,
        hkept.offPending, hkept.accepted, hkept.done, iff_of_false havail hne⟩
    have hw : w = { u with sendIndex, dataBuf := { u.dataBuf with state := st } } := hnext
    split
    · rw [hw]
      exact hfcs _ (hk _) rfl rfl
    · next hmtu =>
      -- the packet goes on
      rw [hw] at hmtu
      have hlt : u.txByteCnt < serialMtu := Nat.lt_of_not_le fun hle => hmtu (.inr hle)
      have hescape := Bool.toNat_le u.sendEscape
      subst src
      rw [hw]
      refine putResult_moved (hk _) (congrArg TxState.moving hinfo) hsending hpending ?_ hone
      show leftOf u.txState u.txByteCnt u.sendEscape < _
      rw [hinfo]
      show 2 * (serialMtu - u.txByteCnt) + 9 + u.sendEscape.toNat < _
      omega
  · exact hfcs u hkept rfl rfl

/-- The states that send one byte and go on to `st`. -/
theorem put_moved {t : Port} (h : Put s t ret) (st : TxState) (hst : st.moving = true)
    (hleft : leftOf st s.txByteCnt true < s.left) (crc : UInt16) :
    Moved s ({ t with txState := st, txCRC := crc }.putResult ret) := by
  have hle : leftOf st s.txByteCnt t.sendEscape ≤ leftOf st s.txByteCnt true := by
    have := Bool.toNat_le t.sendEscape
    cases st <;> simp only [leftOf, Bool.toNat_true] <;> omega
  have hpos : 1 ≤ leftOf st s.txByteCnt true := by
    cases st <;> simp only [leftOf, Bool.toNat_true] <;> first | omega | cases hst
  refine putResult_moved (h.kept.update st crc t.txByteCnt t.txPending) hst h.sending h.txPending ?_
    (Nat.lt_of_le_of_lt hpos hleft)
  show leftOf st t.txByteCnt t.sendEscape < _
  rw [h.txByteCnt]
  exact Nat.lt_of_le_of_lt hle hleft

theorem putDone_moved (hm : s.txState.moving = true)
    (hcur : s.txState.busy = true → s.txIndex = .data → s.dataBuf.state ≠ .available)
    (cfg : SendPlatform) (ret : Bool) : Moved s (s.putDone cfg ret) := by
  have hmtu : serialMtu = 255 := rfl
  rw [putDone]
  cases hstate : s.txState with
  | idle => rw [hstate] at hm; cases hm
  | finish => rw [hstate] at hm; cases hm
  | error => rw [hstate] at hm; cases hm
  | inactive => rw [hstate] at hm; cases hm
  | proto =>
    refine put_moved (putData_put s s.txProto ret) .info rfl ?_ _
    simp only [left, leftOf, hstate, Bool.toNat_true]
    omega
  | seqno =>
    refine put_moved (putData_put s s.txSeqno ret) .info rfl ?_ _
    simp only [left, leftOf, hstate, Bool.toNat_true]
    omega
  | info => exact putInfo_moved hstate (hcur (TxState.busy_of_moving hm)) cfg ret
  | fcs1 =>
    refine put_moved (putData_put s _ ret) .fcs2 rfl ?_ _
    simp only [left, leftOf, hstate, Bool.toNat_true]
    omega
  | fcs2 =>
    refine put_moved (putData_put s _ ret) .endFlag rfl ?_ _
    simp only [left, leftOf, hstate, Bool.toNat_true]
    omega
  | endFlag =>
    have hput := putDelimiter_put s ret
    have hescape : (s.putDelimiter ret).sendEscape = false := by cases ret <;> rfl
    refine putResult_moved (hput.kept.update .endWait _ _ _) rfl hput.sending hput.txPending ?_ ?_
    · show 2 + (s.putDelimiter ret).sendEscape.toNat < _
      rw [hescape, Bool.toNat_false]
      simp only [left, leftOf, hstate]
      omega
    · simp only [left, leftOf, hstate]
      omega
  | endWait =>
    refine ⟨⟨rfl, rfl, rfl, rfl, rfl, rfl, rfl, rfl, rfl, Iff.rfl⟩, .inr ⟨.inl rfl, rfl, rfl⟩, ?_⟩
    show 1 < s.left
    simp only [left, leftOf, hstate]
    omega

/-! ## The steps -/

theorem Good.moved (h : Good s) (hm : s.txState.moving = true) (hk : Kept s t) (hs : t.sending = 0)
    {w : Port} (hmoved : Moved t w) : Good w := by
  have hbusy := TxState.busy_of_moving hm
  have hkw := hmoved.kept
  have hw : w.txState.busy = true ∧ w.sending = w.txState.moving.toNat ∧
      (w.txState = .finish ∨ w.txState = .error → w.txPending = true) := by
    rcases hmoved.txState with ⟨hm', hs', -⟩ | ⟨hover, hs', hp'⟩
    · refine ⟨TxState.busy_of_moving hm', by rw [hs', hs, hm', Bool.toNat_true], fun hover => ?_⟩
      rcases hover with h' | h' <;> rw [h'] at hm' <;> cases hm'
    · refine ⟨?_, ?_, fun _ => hp'⟩
      · rcases hover with h' | h' <;> rw [h'] <;> rfl
      · rcases hover with h' | h' <;> rw [hs', hs, h'] <;> rfl
  have hdata : w.dataBuf.state = .available ↔ s.dataBuf.state = .available :=
    hkw.dataBuf.trans hk.dataBuf
  have hindex : w.txIndex = s.txIndex := hkw.txIndex.trans hk.txIndex
  refine ⟨hw.2.1, hw.2.2, fun _ => ?_, fun _ hi => ?_, fun hwait => ?_, ?_, fun hposted => ?_, ?_, ?_⟩
  · rw [hkw.txProto, hk.txProto, hindex]
    exact h.proto hbusy
  · exact fun ha => h.current hbusy (hindex ▸ hi) (hdata.1 ha)
  · have hwait' : s.Waiting :=
      ⟨fun ha => hwait.1 (hdata.2 ha), fun hn => hwait.2 ⟨hw.1, hindex.trans hn.2⟩⟩
    refine ⟨fun hn => ?_, ?_, fun hn => ?_⟩
    · rw [hn] at hw
      exact nomatch hw.1
    · rw [hkw.offPending, hk.offPending]
      exact (h.waiting hwait').2.1
    · rw [hn] at hw
      exact nomatch hw.1
  · rw [hkw.sendState, hk.sendState, hkw.signalPosted, hk.signalPosted, Ne, hdata]
    exact h.outstanding
  · rw [hkw.signalPosted, hk.signalPosted] at hposted
    exact hdata.2 (h.once hposted)
  · rw [hkw.ackQ, hk.ackQ]
    exact h.ackQ
  · rw [hkw.accepted, hk.accepted, hkw.done, hk.done, Port.outstanding, hkw.sendState, hk.sendState,
      hkw.sendBuffer, hk.sendBuffer]
    exact h.account

theorem Good.moving (h : Good s) (hsending : 0 < s.sending) : s.txState.moving = true ∧ s.sending = 1 := by
  have hs := h.sending
  cases hm : s.txState.moving with
  | true => exact ⟨rfl, by rw [hs, hm]; rfl⟩
  | false =>
    rw [hs, hm] at hsending
    cases hsending

theorem Good.uartSendDone (h : Good s) (hsending : 0 < s.sending) (hret : s.sendEscape = true → ret = true)
    (cfg : SendPlatform) : Good (s.uartSendDone cfg ret) ∧ (s.uartSendDone cfg ret).left < s.left ∧
      Kept s (s.uartSendDone cfg ret) ∧ (s.uartSendDone cfg ret).txState.busy = true := by
  obtain ⟨hm, hone⟩ := h.moving hsending
  have hbusy := TxState.busy_of_moving hm
  rw [Port.uartSendDone]
  dsimp only
  split
  · next hescape =>
    obtain rfl := hret hescape
    refine ⟨⟨?_, h.ended, h.proto, h.current, h.waiting, h.outstanding, h.once, h.ackQ, h.account⟩, ?_,
      ⟨rfl, rfl, rfl, rfl, rfl, rfl, rfl, rfl, rfl, Iff.rfl⟩, hbusy⟩
    · show s.sending - 1 + 1 = s.txState.moving.toNat
      rw [hone, hm]
      rfl
    · show leftOf s.txState s.txByteCnt false < leftOf s.txState s.txByteCnt s.sendEscape
      rw [hescape]
      cases hstate : s.txState <;> rw [hstate] at hm <;> first | cases hm; done | simp [leftOf]
  · have hmoved := putDone_moved (s := { s with sending := s.sending - 1 }) hm h.current cfg ret
    have hkept : Kept s { s with sending := s.sending - 1 } :=
      ⟨rfl, rfl, rfl, rfl, rfl, rfl, rfl, rfl, rfl, Iff.rfl⟩
    have hzero : s.sending - 1 = 0 := by omega
    have hk := hmoved.kept
    refine ⟨h.moved hm hkept hzero hmoved, hmoved.left,
      ⟨hk.sendState, hk.sendBuffer, hk.signalPosted, hk.txIndex, hk.txProto, hk.ackQ, hk.offPending,
        hk.accepted, hk.done, hk.dataBuf⟩, ?_⟩
    rcases hmoved.txState with ⟨hm', -, -⟩ | ⟨h' | h', -, -⟩
    · exact TxState.busy_of_moving hm'
    · rw [h']
      rfl
    · rw [h']
      rfl

/-- `RunTx` is running, and nothing is in transmission. -/
structure Idle (s : Port) : Prop where
  txState : s.txState = .idle
  sending : s.sending = 0
  waiting : s.dataBuf.state ≠ .available → s.offPending = false
  outstanding : s.sendState = .data ↔ s.dataBuf.state ≠ .available ∨ s.signalPosted = true
  once : s.signalPosted = true → s.dataBuf.state = .available
  ackQ : s.ackQ.InRange
  account : s.accepted = s.done.map Prod.fst ++ s.outstanding

theorem Idle.startTx (h : Idle s) (hoff : s.offPending = false)
    (hproto : s.txProto = protoAck ↔ s.txIndex = .ack)
    (hcur : s.txIndex = .data → s.dataBuf.state ≠ .available) (ret : Bool) : Good (s.startTx ret) := by
  have hsending := h.sending
  cases ret with
  | true =>
    refine ⟨congrArg (· + 1) hsending, fun ho => ?_, fun _ => hproto, fun _ => hcur,
      fun _ => ⟨nofun, hoff, nofun⟩, h.outstanding, h.once, h.ackQ, h.account⟩
    rcases ho with ho | ho <;> cases ho
  | false =>
    exact ⟨hsending, fun _ => rfl, fun _ => hproto, fun _ => hcur,
      fun _ => ⟨nofun, hoff, nofun⟩, h.outstanding, h.once, h.ackQ, h.account⟩

theorem Idle.choose (h : Idle s) (ackBuf : TxBuf) (txProto : UInt8) (txIndex : TxIndex) :
    Idle { s with ackBuf, txProto, txIndex } :=
  ⟨h.txState, h.sending, h.waiting, h.outstanding, h.once, h.ackQ, h.account⟩

theorem used_iff (st : TxBufState) : st = .filling ∨ st = .complete ↔ st ≠ .available := by
  cases st <;> simp

theorem Idle.chooseTx (h : Idle s) (hoff : s.offPending = false)
    (ret : Bool) : Good (s.chooseTx ret) := by
  rw [Port.chooseTx]
  split
  · exact (h.choose ⟨.complete, s.ackQ.top⟩ protoAck .ack).startTx hoff (iff_of_true rfl rfl) nofun ret
  · split
    · next hused =>
      have hne : protoPacketNoAck ≠ protoAck := by decide
      exact (h.choose s.ackBuf protoPacketNoAck .data).startTx hoff (iff_of_false hne nofun)
        (fun _ => (used_iff _).1 hused) ret
    · next hfree =>
      have hdata : s.dataBuf.state = .available := not_not.1 fun hn => hfree ((used_iff _).2 hn)
      have hbusy : s.txState.busy = false := by
        rw [h.txState]
        rfl
      refine ⟨?_, fun ho => ?_, fun hb => ?_, fun hb => ?_, fun hw => absurd hdata hw.1, h.outstanding,
        h.once, h.ackQ, h.account⟩
      · rw [h.txState]
        exact h.sending
      · rcases ho with ho | ho <;> cases h.txState.symm.trans ho
      · cases hbusy.symm.trans hb
      · cases hbusy.symm.trans hb

theorem Idle.runIdle (h : Idle s) (ret : Bool) : Good (s.runIdle ret) := by
  rw [Port.runIdle]
  split
  · next hoff =>
    have hdata : s.dataBuf.state = .available := not_not.1 fun hn => by
      rw [h.waiting hn] at hoff
      cases hoff
    rw [testOff]
    split
    all_goals
      refine ⟨h.sending, fun ho => ?_, nofun, nofun, fun hw => absurd hdata hw.1, h.outstanding,
        h.once, h.ackQ, h.account⟩
      rcases ho with ho | ho <;> cases ho
  · next hoff => exact h.chooseTx (Bool.eq_false_iff.2 hoff) ret

theorem Good.idle (h : Good s) (hidle : s.txState = .idle) : Idle { s with txPending := false } := by
  refine ⟨hidle, ?_, fun hn => ?_, h.outstanding, h.once, h.ackQ, h.account⟩
  · show s.sending = 0
    rw [h.sending, hidle]
    rfl
  · exact (h.waiting ⟨hn, fun hb => by rw [hidle] at hb; cases hb.1⟩).2.1

theorem Good.finishTx (h : Good s) (hover : s.txState = .finish ∨ s.txState = .error) :
    Idle { s with txPending := false }.finishTx := by
  have hbusy : s.txState.busy = true := by rcases hover with hs | hs <;> rw [hs] <;> rfl
  have hsending : s.sending = 0 := by
    rw [h.sending]
    rcases hover with hs | hs <;> rw [hs] <;> rfl
  have hproto := h.proto hbusy
  have hcurrent := h.current hbusy
  unfold Port.finishTx freeBuf
  cases hindex : s.txIndex with
  | ack =>
    have hack : s.txProto = protoAck := hproto.2 hindex
    dsimp only
    rw [if_pos hack]
    refine ⟨rfl, hsending, fun hn => ?_, h.outstanding, h.once, h.ackQ.pop.1, h.account⟩
    exact (h.waiting ⟨hn, fun hb => by rw [hindex] at hb; cases hb.2⟩).2.1
  | data =>
    have hack : s.txProto ≠ protoAck := fun hp => by
      rw [hproto.1 hp] at hindex
      cases hindex
    have hout : s.sendState = .data := h.outstanding.2 (.inl (hcurrent hindex))
    dsimp only
    rw [if_neg hack]
    exact ⟨rfl, hsending, fun hn => absurd rfl hn, iff_of_true hout (.inr rfl), fun _ => rfl, h.ackQ,
      h.account⟩

theorem Good.testOff (h : Good s) (hoff : s.offPending = true ∨ ¬s.Waiting) : Good s.testOff := by
  have hno : ¬s.Waiting := by
    rcases hoff with hoff | hno
    · exact fun hw => by
        rw [(h.waiting hw).2.1] at hoff
        cases hoff
    · exact hno
  rw [Port.testOff]
  split
  · exact ⟨h.sending, h.ended, h.proto, h.current, fun hw => absurd hw hno, h.outstanding, h.once, h.ackQ,
      h.account⟩
  · exact ⟨h.sending, h.ended, h.proto, h.current, fun hw => absurd hw hno, h.outstanding, h.once, h.ackQ,
      h.account⟩

theorem Good.runTx (h : Good s) (ret : Bool) : Good (s.runTx ret) := by
  rw [Port.runTx]
  dsimp only
  split
  · next hover => exact (h.finishTx hover).runIdle ret
  · next hover =>
    split
    · next hidle => exact (h.idle hidle).runIdle ret
    · next hidle =>
      have hgood (hnot : s.txState ≠ .idle) : Good { s with txPending := false } :=
        ⟨h.sending, fun ho => absurd ho hover, h.proto, h.current,
          fun hw => ⟨(h.waiting hw).1, (h.waiting hw).2.1, fun hi => absurd hi hnot⟩, h.outstanding, h.once,
          h.ackQ, h.account⟩
      split
      · next hinactive =>
        exact (hgood hidle).testOff (.inr fun hw => (h.waiting hw).1 hinactive)
      · exact hgood hidle

theorem Good.send (h : Good s) (id : UInt8) (msg : Nat) (len : UInt8)
    (hmeets : s.Meets cfg (.send id msg len)) : Good (s.send cfg id msg len).2 := by
  rw [Port.send]
  split
  · exact h
  · next hnot =>
    have hidle := not_not.1 hnot
    have hfree : ¬(s.dataBuf.state ≠ .available ∨ s.signalPosted = true) := fun hn => by
      rw [h.outstanding.2 hn] at hidle
      cases hidle
    have haccount : s.accepted = s.done.map Prod.fst := by
      have ha := h.account
      rwa [Port.outstanding, hidle, if_neg (by nofun), List.append_nil] at ha
    have hno : ¬s.Waiting := fun hw => hfree (.inl hw.1)
    dsimp only
    split
    · exact ⟨h.sending, h.ended, h.proto, h.current, h.waiting, h.outstanding, h.once, h.ackQ, h.account⟩
    · next hsize =>
      rw [startSend]
      dsimp only
      split
      · exact ⟨h.sending, h.ended, h.proto, h.current, fun hw => absurd hw hno, iff_of_false nofun hfree,
          h.once, h.ackQ, haccount.trans (List.append_nil _).symm⟩
      · next hon =>
        have hoff := hmeets ⟨hidle, Nat.le_of_not_lt hsize, hon⟩
        split
        · exact ⟨h.sending, fun _ => rfl, h.proto, fun _ _ => nofun, fun _ => ⟨hon, hoff, fun _ => rfl⟩,
            iff_of_true rfl (.inl nofun), fun hposted => absurd (.inr hposted) hfree, h.ackQ,
            congrArg (· ++ [msg]) haccount⟩
        · exact ⟨h.sending, h.ended, h.proto, h.current, fun hw => absurd hw hno, iff_of_false nofun hfree,
            h.once, h.ackQ, haccount.trans (List.append_nil _).symm⟩

theorem Good.cancel (h : Good s) (id : UInt8) (msg : Nat) (hmeets : s.Meets cfg (.cancel id msg)) :
    Good (s.cancel id msg).2 := by
  rw [Port.cancel]
  split
  · next hcond =>
    have hne : s.dataBuf.state ≠ .available := hmeets hcond
    exact ⟨h.sending, h.ended, h.proto, fun _ _ => nofun, fun hw => h.waiting ⟨hne, hw.2⟩,
      iff_of_true hcond.1 (.inl nofun), fun hposted => absurd (h.once hposted) hne, h.ackQ, h.account⟩
  · exact h

theorem Good.signalSendDone (h : Good s) (hposted : s.signalPosted = true) : Good s.signalSendDone := by
  have hdata := h.once hposted
  have haccount := h.account
  rw [Port.outstanding, if_pos (h.outstanding.2 (.inr hposted))] at haccount
  refine ⟨h.sending, h.ended, h.proto, h.current, h.waiting,
    iff_of_false nofun fun hn => hn.elim (absurd hdata) nofun, fun _ => hdata, h.ackQ, ?_⟩
  show s.accepted = (s.done ++ [_]).map Prod.fst ++ []
  rw [haccount, List.map_append, List.append_nil]
  rfl

theorem Good.ackQueuePush (h : Good s) (token : UInt8) : Good (s.ackQueuePush token) := by
  rw [Port.ackQueuePush]
  split
  · exact h
  · next hfull =>
    exact ⟨h.sending, fun _ => rfl, h.proto, h.current,
      fun hw => ⟨(h.waiting hw).1, (h.waiting hw).2.1, fun _ => rfl⟩, h.outstanding, h.once,
      (h.ackQ.push (Bool.eq_false_iff.2 hfull) token).1, h.account⟩

theorem Good.rxState (h : Good s) (rxState : RxState) : Good { s with rxState } :=
  ⟨h.sending, h.ended, h.proto, h.current, h.waiting, h.outstanding, h.once, h.ackQ, h.account⟩

theorem Good.nosync (h : Good s) (isDelimiter : Bool) : Good (s.nosync isDelimiter) := by
  rw [Port.nosync]
  dsimp only
  split
  · next hoff => exact (h.rxState .inactive).testOff (.inl hoff)
  · split
    · exact h.rxState .proto
    · exact h.rxState .inactive

theorem Good.rxStateMachine (h : Good s) (isDelimiter good : Bool) (token : UInt8) :
    Good (s.rxStateMachine isDelimiter good token) := by
  rw [Port.rxStateMachine]
  cases s.rxState with
  | noSync =>
    dsimp only
    split
    · exact h.rxState .proto
    · exact h
  | proto =>
    dsimp only
    split
    · split
      · exact h.rxState .token
      · exact h.nosync isDelimiter
    · exact h
  | token =>
    dsimp only
    split
    · exact h.nosync isDelimiter
    · exact h.rxState .info
  | info =>
    dsimp only
    split
    · exact h.nosync isDelimiter
    · split
      · have hpushed := (h.ackQueuePush token).rxState .inactive
        split
        · next hoff => exact hpushed.testOff (.inl hoff)
        · exact hpushed
      · exact h
  | inactive => exact h.nosync isDelimiter

theorem Good.startDone (h : Good s) (hbusy : s.txState.busy = false) : Good s.startDone := by
  have hsending : s.sending = 0 := by
    rw [h.sending]
    cases hm : s.txState.moving with
    | false => rfl
    | true =>
      rw [TxState.busy_of_moving hm] at hbusy
      cases hbusy
  refine ⟨hsending, fun ho => ?_, nofun, nofun, fun hw => ⟨nofun, ?_⟩, h.outstanding, h.once, h.ackQ,
    h.account⟩
  · rcases ho with ho | ho <;> cases ho
  · -- nothing waits while the sender is off
    have hwait := h.waiting ⟨hw.1, fun hb => by rw [hbusy] at hb; cases hb.1⟩
    refine ⟨hwait.2.1, fun _ => hwait.2.2 ?_⟩
    cases hstate : s.txState with
    | idle => rfl
    | inactive => exact absurd hstate hwait.1
    | _ => rw [hstate] at hbusy; cases hbusy

theorem Good.stop (h : Good s) (hmeets : s.Meets cfg .stop) : Good s.stop := by
  have hno : ¬s.Waiting := fun hw => hw.2 (hmeets hw.1)
  have hstopped (t : Port) (ht : Good t) (hbusy : t.txState.busy = true → t.txIndex = .data →
      t.dataBuf.state ≠ .available) (hwait : ¬t.Waiting) :
      Good (if t.txState = .idle then { t with txState := .inactive } else t).testOff := by
    split
    · next hidle =>
      have hdata : t.dataBuf.state = .available := not_not.1 fun hn =>
        hwait ⟨hn, fun hb => by rw [hidle] at hb; cases hb.1⟩
      have hsending : t.sending = 0 := by
        rw [ht.sending, hidle]
        rfl
      refine Good.testOff ⟨hsending, fun ho => ?_, nofun, nofun, fun hw => absurd hdata hw.1,
        ht.outstanding, ht.once, ht.ackQ, ht.account⟩ (.inr fun hw => hw.1 hdata)
      rcases ho with ho | ho <;> cases ho
    · exact ht.testOff (.inr hwait)
  rw [Port.stop]
  split
  · exact hstopped _ (h.rxState .inactive) h.current hno
  · exact hstopped s h h.current hno

/-- **The steps that meet the conditions keep `Good`.** -/
theorem Good.step {e : Event} (h : Good s) (hmeets : s.Meets cfg e) (hs : s.step cfg e = some t) :
    Good t := by
  cases e with
  | send id msg len =>
    cases hs
    exact h.send id msg len hmeets
  | cancel id msg =>
    cases hs
    exact h.cancel id msg hmeets
  | signalSendDone =>
    obtain ⟨hposted, ⟨⟩⟩ := Option.ite_none_right_eq_some.1 hs
    exact h.signalSendDone hposted
  | runTx ret =>
    obtain ⟨-, ⟨⟩⟩ := Option.ite_none_right_eq_some.1 hs
    exact h.runTx ret
  | uartSendDone ret =>
    obtain ⟨hsending, ⟨⟩⟩ := Option.ite_none_right_eq_some.1 hs
    exact (h.uartSendDone hsending hmeets cfg).1
  | rxStateMachine isDelimiter good token =>
    cases hs
    exact h.rxStateMachine isDelimiter good token
  | start =>
    cases hs
    rw [start]
    split
    · exact h
    · exact ⟨h.sending, h.ended, h.proto, h.current, h.waiting, h.outstanding, h.once, h.ackQ, h.account⟩
  | startDone =>
    obtain ⟨-, ⟨⟩⟩ := Option.ite_none_right_eq_some.1 hs
    exact h.startDone hmeets
  | stop =>
    cases hs
    exact h.stop hmeets
  | stopDone =>
    obtain ⟨-, ⟨⟩⟩ := Option.ite_none_right_eq_some.1 hs
    exact ⟨h.sending, h.ended, h.proto, h.current, h.waiting, h.outstanding, h.once, h.ackQ, h.account⟩

/-! ## The work that is left -/

/-- The acks that are not yet transmitted. -/
def acksWaiting (s : Port) : Nat :=
  if s.txState.busy = true ∧ s.txIndex = .ack then s.ackQ.count - 1 else s.ackQ.count

def dataWaiting (s : Port) : Nat := if s.Waiting then 1 else 0

/-- A bound on how often the tasks and the UART can still go on. -/
def work (s : Port) : Nat :=
  1100 * (s.acksWaiting + s.dataWaiting) + 2 * s.left + s.txPending.toNat + s.signalPosted.toNat

/-- The steps of the tasks of the send path and of the UART. -/
def Event.isService : Event → Bool
  | .signalSendDone => true
  | .runTx _ => true
  | .uartSendDone _ => true
  | _ => false

/-- The bytes that are received: the end of a frame pushes a token. -/
def Event.isReceive : Event → Bool
  | .rxStateMachine .. => true
  | _ => false

theorem Idle.work_eq (h : Idle s) :
    s.work = 1100 * (s.ackQ.count + if s.dataBuf.state = .available then 0 else 1) +
      s.txPending.toNat + s.signalPosted.toNat := by
  have hbusy : s.txState.busy = false := by
    rw [h.txState]
    rfl
  have hleft : s.left = 0 := by
    rw [left, h.txState]
    rfl
  have hacks : s.acksWaiting = s.ackQ.count := if_neg fun hb => by
    rw [hbusy] at hb
    cases hb.1
  have hwait : s.Waiting ↔ s.dataBuf.state ≠ .available := and_iff_left fun hb => by
    rw [hbusy] at hb
    cases hb.1
  have hdata : s.dataWaiting = if s.dataBuf.state = .available then 0 else 1 := by
    rw [dataWaiting]
    by_cases hd : s.dataBuf.state = .available
    · rw [if_neg fun hw => hwait.1 hw hd, if_pos hd]
    · rw [if_pos (hwait.2 hd), if_neg hd]
  rw [work, hacks, hdata, hleft]
  omega

/-- A frame costs less than the place it had among those that wait. -/
theorem startTx_work (s : Port) (ret : Bool) :
    (s.startTx ret).work ≤
      1100 * ((if s.txIndex = .ack then s.ackQ.count - 1 else s.ackQ.count) +
        if s.dataBuf.state ≠ .available ∧ s.txIndex ≠ .data then 1 else 0) + 1044 +
        s.txPending.toNat + s.signalPosted.toNat := by
  cases ret with
  | true =>
    simp [work, acksWaiting, dataWaiting, Waiting, startTx, putDelimiter, uartSend, left, leftOf,
      TxState.busy]
  | false =>
    simp [work, acksWaiting, dataWaiting, Waiting, startTx, putDelimiter, uartSend, left, leftOf,
      TxState.busy, maybeScheduleTx]
    omega

theorem testOff_work (s : Port) : s.testOff.work = s.work := by
  rw [testOff]
  split <;> rfl

theorem Idle.runIdle_work (h : Idle s) (hpending : s.txPending = false) (ret : Bool) :
    (s.runIdle ret).work ≤ s.work := by
  rw [Port.runIdle]
  split
  · rw [testOff_work]
    refine Nat.le_of_eq ?_
    simp [work, acksWaiting, dataWaiting, Waiting, left, leftOf, TxState.busy, h.txState]
  · rw [Port.chooseTx, h.work_eq, hpending]
    split
    · next hack =>
      have hpos := h.ackQ.count_pos hack.1
      have hle := startTx_work { s with
        ackBuf := ⟨.complete, s.ackQ.top⟩, txProto := protoAck, txIndex := .ack } ret
      rw [hpending, if_pos rfl] at hle
      refine Nat.le_trans hle ?_
      by_cases hd : s.dataBuf.state = .available
      · rw [if_neg fun hn => hn.1 hd, if_pos hd]
        dsimp only
        omega
      · rw [if_pos ⟨hd, nofun⟩, if_neg hd]
        dsimp only
        omega
    · split
      · next hused =>
        have hle := startTx_work { s with txProto := protoPacketNoAck, txIndex := .data } ret
        rw [hpending, if_neg (by nofun), if_neg fun hn => hn.2 rfl] at hle
        refine Nat.le_trans hle ?_
        rw [if_neg ((used_iff _).1 hused)]
        dsimp only
        omega
      · exact Nat.le_of_eq (by rw [h.work_eq, hpending])

theorem Good.finishTx_waiting (h : Good s) (hover : s.txState = .finish ∨ s.txState = .error) :
    ({ s with txPending := false }.finishTx).ackQ.count = s.acksWaiting ∧
      (if ({ s with txPending := false }.finishTx).dataBuf.state = .available then 0 else 1) =
        s.dataWaiting := by
  have hbusy : s.txState.busy = true := by rcases hover with hs | hs <;> rw [hs] <;> rfl
  have hproto := h.proto hbusy
  rw [acksWaiting, dataWaiting]
  unfold Port.finishTx freeBuf
  cases hindex : s.txIndex with
  | ack =>
    have hack : s.txProto = protoAck := hproto.2 hindex
    have hwait : s.Waiting ↔ s.dataBuf.state ≠ .available := and_iff_left fun hb => by
      rw [hindex] at hb
      cases hb.2
    dsimp only
    rw [if_pos hack, if_pos ⟨hbusy, rfl⟩]
    refine ⟨h.ackQ.pop.2, ?_⟩
    by_cases hd : s.dataBuf.state = .available
    · rw [if_pos hd, if_neg fun hw => hwait.1 hw hd]
    · rw [if_neg hd, if_pos (hwait.2 hd)]
  | data =>
    have hack : s.txProto ≠ protoAck := fun hp => by
      rw [hproto.1 hp] at hindex
      cases hindex
    dsimp only
    rw [if_neg hack]
    refine ⟨(if_neg ?_).symm, (if_pos rfl).trans (if_neg fun hw => hw.2 ⟨hbusy, hindex⟩).symm⟩
    exact fun hn => nomatch hn.2

/-- `RunTx` takes its own place. -/
theorem Good.runTx_work (h : Good s) (hpending : s.txPending = true) (ret : Bool) :
    (s.runTx ret).work < s.work := by
  have hless : work { s with txPending := false } + 1 = s.work := by
    rw [work, work, hpending]
    show 1100 * (s.acksWaiting + s.dataWaiting) + 2 * s.left + 0 + s.signalPosted.toNat + 1 =
      1100 * (s.acksWaiting + s.dataWaiting) + 2 * s.left + 1 + s.signalPosted.toNat
    omega
  rw [Port.runTx]
  dsimp only
  split
  · next hover =>
    have hidle := h.finishTx hover
    obtain ⟨hacks, hdata⟩ := h.finishTx_waiting hover
    have hpending' : ({ s with txPending := false }.finishTx).txPending = false := by
      unfold Port.finishTx freeBuf
      cases s.txIndex <;> dsimp only <;> split <;> rfl
    have hleft : s.left = 1 := by
      rw [left]
      rcases hover with hs | hs <;> rw [hs] <;> rfl
    have hposted := Bool.toNat_le ({ s with txPending := false }.finishTx).signalPosted
    refine Nat.lt_of_le_of_lt (hidle.runIdle_work hpending' ret) ?_
    rw [hidle.work_eq, hpending', hacks, hdata, work, hpending, hleft, Bool.toNat_true, Bool.toNat_false]
    omega
  · next hover =>
    split
    · next hidle =>
      have := (h.idle hidle).runIdle_work rfl ret
      omega
    · split
      · rw [testOff_work]
        omega
      · omega

theorem Good.uartSendDone_work (h : Good s) (hsending : 0 < s.sending)
    (hret : s.sendEscape = true → ret = true) (cfg : SendPlatform) :
    (s.uartSendDone cfg ret).work < s.work := by
  obtain ⟨-, hleft, hk, hbusy⟩ := h.uartSendDone hsending hret cfg
  have hbusy' := TxState.busy_of_moving (h.moving hsending).1
  have hacks : (s.uartSendDone cfg ret).acksWaiting = s.acksWaiting := by
    rw [acksWaiting, acksWaiting, hbusy, hbusy', hk.txIndex, hk.ackQ]
  have hdata : (s.uartSendDone cfg ret).dataWaiting = s.dataWaiting := by
    have hwait : (s.uartSendDone cfg ret).Waiting ↔ s.Waiting := by
      rw [Waiting, Waiting, hbusy, hbusy', hk.txIndex, Ne, hk.dataBuf]
    rw [dataWaiting, dataWaiting]
    exact if_congr hwait rfl rfl
  have hpending := Bool.toNat_le (s.uartSendDone cfg ret).txPending
  rw [work, work, hacks, hdata, hk.signalPosted]
  omega

/-- The tasks and the UART use up the work that is left. -/
theorem Good.work_service {e : Event} (h : Good s) (hmeets : s.Meets cfg e)
    (hs : s.step cfg e = some t) (he : e.isService = true) : t.work < s.work := by
  cases e with
  | signalSendDone =>
    obtain ⟨hposted, ⟨⟩⟩ := Option.ite_none_right_eq_some.1 hs
    rw [work, work, hposted]
    exact Nat.lt_succ_self _
  | runTx ret =>
    obtain ⟨hpending, ⟨⟩⟩ := Option.ite_none_right_eq_some.1 hs
    exact h.runTx_work hpending ret
  | uartSendDone ret =>
    obtain ⟨hsending, ⟨⟩⟩ := Option.ite_none_right_eq_some.1 hs
    exact h.uartSendDone_work hsending hmeets cfg
  | _ => cases he

theorem left_of_not_busy (hbusy : s.txState.busy = false) : s.left = 0 := by
  rw [left]
  cases hstate : s.txState <;> rw [hstate] at hbusy <;> first | rfl | cases hbusy

/-- The work does not change where the sender changes between idle and inactive. -/
theorem work_of_not_busy (hs : s.txState.busy = false) (ht : t.txState.busy = false)
    (hq : t.ackQ = s.ackQ) (hd : t.dataBuf = s.dataBuf) (hp : t.txPending = s.txPending)
    (hsp : t.signalPosted = s.signalPosted) : t.work = s.work := by
  have hacks : t.acksWaiting = s.acksWaiting := by
    have hno (i : TxIndex) : ¬(false = true ∧ i = .ack) := fun hb => nomatch hb.1
    rw [acksWaiting, acksWaiting, hs, ht, hq, if_neg (hno _), if_neg (hno _)]
  have hwait : t.Waiting ↔ s.Waiting := by
    rw [Waiting, Waiting, hs, ht, hd]
    exact and_congr_right fun _ => iff_of_true (fun hb => nomatch hb.1) fun hb => nomatch hb.1
  have hdata : t.dataWaiting = s.dataWaiting := if_congr hwait rfl rfl
  rw [work, work, hacks, hdata, left_of_not_busy hs, left_of_not_busy ht, hp, hsp]

theorem Good.ackQueuePush_work (h : Good s) (token : UInt8) :
    (s.ackQueuePush token).work ≤ s.work + 1101 := by
  rw [Port.ackQueuePush]
  split
  · exact Nat.le_add_right _ _
  · next hfull =>
    have hcount := (h.ackQ.push (Bool.eq_false_iff.2 hfull) token).2
    have hacks : acksWaiting { s with ackQ := s.ackQ.push token } ≤ s.acksWaiting + 1 := by
      rw [acksWaiting, acksWaiting, hcount]
      split <;> omega
    show 1100 * (acksWaiting { s with ackQ := s.ackQ.push token } + s.dataWaiting) + 2 * s.left + 1 +
      s.signalPosted.toNat ≤ _
    rw [work]
    omega

theorem nosync_work (s : Port) (isDelimiter : Bool) : (s.nosync isDelimiter).work = s.work := by
  rw [Port.nosync]
  dsimp only
  split
  · exact testOff_work _
  · split <;> rfl

theorem Good.rxStateMachine_work (h : Good s) (isDelimiter good : Bool) (token : UInt8) :
    (s.rxStateMachine isDelimiter good token).work ≤ s.work + 1101 := by
  have hle {n : Nat} (he : n = s.work) : n ≤ s.work + 1101 := he ▸ Nat.le_add_right _ _
  rw [Port.rxStateMachine]
  cases s.rxState with
  | noSync =>
    dsimp only
    split <;> exact hle rfl
  | proto =>
    dsimp only
    split
    · split
      · exact hle rfl
      · exact hle (nosync_work s isDelimiter)
    · exact hle rfl
  | token =>
    dsimp only
    split
    · exact hle (nosync_work s isDelimiter)
    · exact hle rfl
  | info =>
    dsimp only
    split
    · exact hle (nosync_work s isDelimiter)
    · split
      · split
        · rw [testOff_work]
          exact h.ackQueuePush_work token
        · exact h.ackQueuePush_work token
      · exact hle rfl
  | inactive => exact hle (nosync_work s isDelimiter)

theorem stop_work (s : Port) : s.stop.work = s.work := by
  have hoff (t : Port) : (if t.txState = .idle then { t with txState := .inactive } else t).testOff.work =
      t.work := by
    rw [testOff_work]
    split
    · next hidle => exact work_of_not_busy (by rw [hidle]; rfl) rfl rfl rfl rfl rfl
    · rfl
  rw [Port.stop]
  split
  · exact hoff { s with rxState := .inactive }
  · exact hoff s

/-- The other steps, while a message is outstanding. -/
theorem Good.work_other {e : Event} (h : Good s) (hmeets : s.Meets cfg e)
    (hs : s.step cfg e = some t) (he : e.isService = false) (hout : s.sendState = .data) :
    t.work ≤ s.work + 1101 * e.isReceive.toNat := by
  have hle {n : Nat} (hn : n = s.work) : n ≤ s.work + 0 := Nat.le_of_eq hn
  cases e with
  | send id msg len =>
    cases hs
    rw [Port.send, if_pos (by rw [hout]; nofun)]
    exact hle rfl
  | cancel id msg =>
    cases hs
    refine hle ?_
    rw [Port.cancel]
    split
    · next hcond =>
      have hne : s.dataBuf.state ≠ .available := hmeets hcond
      have hwait : Waiting { s.completeSend with sendCancelled := true } ↔ s.Waiting :=
        and_congr_left' (iff_of_true nofun hne)
      have hdata : dataWaiting { s.completeSend with sendCancelled := true } = s.dataWaiting :=
        if_congr hwait rfl rfl
      rw [work, work, hdata]
      rfl
    · rfl
  | signalSendDone => cases he
  | runTx ret => cases he
  | uartSendDone ret => cases he
  | rxStateMachine isDelimiter good token =>
    cases hs
    exact h.rxStateMachine_work isDelimiter good token
  | start =>
    cases hs
    refine hle ?_
    rw [start]
    split <;> rfl
  | startDone =>
    obtain ⟨-, ⟨⟩⟩ := Option.ite_none_right_eq_some.1 hs
    exact hle (work_of_not_busy hmeets rfl rfl rfl rfl rfl)
  | stop =>
    cases hs
    exact hle (stop_work s)
  | stopDone =>
    obtain ⟨-, ⟨⟩⟩ := Option.ite_none_right_eq_some.1 hs
    exact hle rfl

/-! ## Runs -/

/-- Neither the message nor its end has been signalled. -/
structure Stays (s t : Port) : Prop where
  sendState : t.sendState = s.sendState
  done : t.done = s.done

theorem Stays.testOff (h : Stays s t) : Stays s t.testOff := by
  rw [Port.testOff]
  split <;> exact ⟨h.sendState, h.done⟩

theorem Stays.startTx (h : Stays s t) (ret : Bool) : Stays s (t.startTx ret) := by
  cases ret <;> exact ⟨h.sendState, h.done⟩

theorem Stays.runIdle (h : Stays s t) (ret : Bool) : Stays s (t.runIdle ret) := by
  rw [Port.runIdle]
  split
  · exact Stays.testOff ⟨h.sendState, h.done⟩
  · have hset (ackBuf : TxBuf) (txProto : UInt8) (txIndex : TxIndex) :
        Stays s { t with ackBuf, txProto, txIndex } := ⟨h.sendState, h.done⟩
    rw [Port.chooseTx]
    split
    · exact (hset _ _ _).startTx ret
    · split
      · exact (hset _ _ _).startTx ret
      · exact h

theorem Stays.finishTx (h : Stays s t) : Stays s t.finishTx := by
  unfold Port.finishTx freeBuf
  cases t.txIndex <;> dsimp only <;> split <;> exact ⟨h.sendState, h.done⟩

theorem runTx_stays (s : Port) (ret : Bool) : Stays s (s.runTx ret) := by
  have hstays : Stays s { s with txPending := false } := ⟨rfl, rfl⟩
  rw [Port.runTx]
  dsimp only
  split
  · exact hstays.finishTx.runIdle ret
  · split
    · exact hstays.runIdle ret
    · split
      · exact hstays.testOff
      · exact hstays

theorem rxStateMachine_stays (s : Port) (isDelimiter good : Bool) (token : UInt8) :
    Stays s (s.rxStateMachine isDelimiter good token) := by
  have hrx (rxState : RxState) : Stays s { s with rxState } := ⟨rfl, rfl⟩
  have hnosync : Stays s (s.nosync isDelimiter) := by
    rw [Port.nosync]
    dsimp only
    split
    · exact (hrx .inactive).testOff
    · split <;> exact ⟨rfl, rfl⟩
  have hpush : Stays s { s.ackQueuePush token with rxState := .inactive } := by
    rw [Port.ackQueuePush]
    split <;> exact ⟨rfl, rfl⟩
  rw [Port.rxStateMachine]
  cases s.rxState with
  | noSync =>
    dsimp only
    split <;> exact ⟨rfl, rfl⟩
  | proto =>
    dsimp only
    split
    · split
      · exact hrx .token
      · exact hnosync
    · exact ⟨rfl, rfl⟩
  | token =>
    dsimp only
    split
    · exact hnosync
    · exact hrx .info
  | info =>
    dsimp only
    split
    · exact hnosync
    · split
      · split
        · exact hpush.testOff
        · exact hpush
      · exact ⟨rfl, rfl⟩
  | inactive => exact hnosync

/-- Only `signalSendDone` ends a send. -/
theorem Good.step_done {e : Event} (h : Good s) (hmeets : s.Meets cfg e) (hs : s.step cfg e = some t) :
    (∃ x, t.done = s.done ++ [x]) ∨
      t.done = s.done ∧ (s.sendState = .data → t.sendState = .data) := by
  have hstays (hst : Stays s t) : t.done = s.done ∧ (s.sendState = .data → t.sendState = .data) :=
    ⟨hst.done, fun hout => hst.sendState.trans hout⟩
  cases e with
  | signalSendDone =>
    obtain ⟨-, ⟨⟩⟩ := Option.ite_none_right_eq_some.1 hs
    exact .inl ⟨_, rfl⟩
  | send id msg len =>
    cases hs
    right
    rw [Port.send]
    split
    · exact ⟨rfl, fun hout => hout⟩
    · next hnot =>
      have hidle := not_not.1 hnot
      refine ⟨?_, fun hout => nomatch hidle.symm.trans hout⟩
      dsimp only
      split
      · rfl
      · rw [startSend]
        dsimp only
        split
        · rfl
        · split <;> rfl
  | cancel id msg =>
    cases hs
    refine .inr (hstays ?_)
    rw [Port.cancel]
    split <;> exact ⟨rfl, rfl⟩
  | runTx ret =>
    obtain ⟨-, ⟨⟩⟩ := Option.ite_none_right_eq_some.1 hs
    exact .inr (hstays (runTx_stays s ret))
  | uartSendDone ret =>
    obtain ⟨hsending, ⟨⟩⟩ := Option.ite_none_right_eq_some.1 hs
    have hk := (h.uartSendDone hsending hmeets cfg).2.2.1
    exact .inr (hstays ⟨hk.sendState, hk.done⟩)
  | rxStateMachine isDelimiter good token =>
    cases hs
    exact .inr (hstays (rxStateMachine_stays s isDelimiter good token))
  | start =>
    cases hs
    refine .inr (hstays ?_)
    rw [start]
    split <;> exact ⟨rfl, rfl⟩
  | startDone =>
    obtain ⟨-, ⟨⟩⟩ := Option.ite_none_right_eq_some.1 hs
    exact .inr (hstays ⟨rfl, rfl⟩)
  | stop =>
    cases hs
    refine .inr (hstays ?_)
    rw [Port.stop]
    have hidle (u : Port) (hu : Stays s u) :
        Stays s (if u.txState = .idle then { u with txState := .inactive } else u).testOff := by
      split
      · exact Stays.testOff ⟨hu.sendState, hu.done⟩
      · exact hu.testOff
    split
    · exact hidle { s with rxState := .inactive } ⟨rfl, rfl⟩
    · exact hidle s ⟨rfl, rfl⟩
  | stopDone =>
    obtain ⟨-, ⟨⟩⟩ := Option.ite_none_right_eq_some.1 hs
    exact .inr (hstays ⟨rfl, rfl⟩)

/-- How often the tasks and the UART went on. -/
def services (h : List (Port × Event)) : Nat := h.countP fun p => p.2.isService

def receives (h : List (Port × Event)) : Nat := h.countP fun p => p.2.isReceive

theorem services_cons (s : Port) (e : Event) (h : List (Port × Event)) :
    services ((s, e) :: h) = services h + e.isService.toNat := by
  rw [services, List.countP_cons]
  cases e.isService <;> rfl

theorem receives_cons (s : Port) (e : Event) (h : List (Port × Event)) :
    receives ((s, e) :: h) = receives h + e.isReceive.toNat := by
  rw [receives, List.countP_cons]
  cases e.isReceive <;> rfl

theorem run_good {h : List (Port × Event)} (hr : (machine cfg).Run h s)
    (hmeets : ∀ p ∈ h, p.1.Meets cfg p.2) : Good s :=
  (hr.inv_of_steps (fun _ h0 => h0 ▸ good_boot) (fun _ _ _ hg hm hs => hg.step hm hs) hmeets).1

/-- What happens until the message that is outstanding is signalled. -/
theorem until_done {h h' : List (Port × Event)} (hr : (machine cfg).Run h s)
    (hr' : (machine cfg).Run (h' ++ h) t) (hmeets : ∀ p ∈ h' ++ h, p.1.Meets cfg p.2)
    (hout : s.sendState = .data) :
    s.done <+: t.done ∧ (t.done = s.done → t.sendState = .data ∧
      t.work + services h' ≤ s.work + 1101 * receives h') := by
  induction h' generalizing t with
  | nil =>
    obtain rfl := Machine.Run.unique (fun _ _ h₀ h₀' => Eq.trans h₀ (Eq.symm h₀')) hr' hr
    exact ⟨List.prefix_rfl, fun _ => ⟨hout, Nat.le_refl _⟩⟩
  | cons p h' ih =>
    obtain ⟨hm, hmeets'⟩ := List.forall_mem_cons.1 hmeets
    cases hr' with
    | @step _ u _ e hr' hs =>
      have hg := run_good hr' hmeets'
      obtain ⟨hpre, hu⟩ := ih hr' hmeets'
      rcases hg.step_done hm hs with ⟨x, hx⟩ | ⟨hsame, hstill⟩
      · rw [hx]
        refine ⟨hpre.trans (List.prefix_append _ _), fun heq => ?_⟩
        have hlen := hpre.length_le
        have hlen' := congrArg List.length heq
        rw [List.length_append, List.length_singleton] at hlen'
        omega
      · rw [hsame]
        refine ⟨hpre, fun heq => ?_⟩
        obtain ⟨hdata, hwork⟩ := hu heq
        refine ⟨hstill hdata, ?_⟩
        rw [services_cons, receives_cons]
        cases he : e.isService with
        | true =>
          have hlt := hg.work_service hm hs he
          rw [Bool.toNat_true]
          omega
        | false =>
          have hle : t.work ≤ u.work + 1101 * e.isReceive.toNat := hg.work_other hm hs he hdata
          rw [Bool.toNat_false]
          omega

/-- **Accepted sends complete, once each.** In the runs whose steps meet the conditions: the messages
for which `Send.sendDone` was signalled are those that were accepted, in their order, but for the one
that is outstanding; while one is, a task is posted or a byte is in transmission; the data buffer is in
use only then; and the tasks and the UART go on only so often before `Send.sendDone` is signalled. -/
theorem sends_complete {h : List (Port × Event)} (hr : (machine cfg).Run h s)
    (hmeets : ∀ p ∈ h, p.1.Meets cfg p.2) :
    s.accepted = s.done.map Prod.fst ++ s.outstanding ∧
      (s.sendState = .data → s.txPending = true ∨ s.signalPosted = true ∨ 0 < s.sending) ∧
      (s.dataBuf.state ≠ .available → s.sendState = .data) ∧
      ∀ h' t, (machine cfg).Run (h' ++ h) t → (∀ p ∈ h', p.1.Meets cfg p.2) →
        s.sendState = .data → t.done = s.done → services h' ≤ s.work + 1101 * receives h' := by
  have hg := run_good hr hmeets
  refine ⟨hg.account, hg.alive, fun hdata => hg.outstanding.2 (.inl hdata), ?_⟩
  intro h' t hr' hmeets' hout hdone
  have hall := List.forall_mem_append.2 ⟨hmeets', hmeets⟩
  obtain ⟨-, hwork⟩ := (until_done hr hr' hall hout).2 hdone
  omega

def examplePlatform : SendPlatform where
  headerSize := 10
  offset _ := 5
  dataLinkLength _ _ len := len
  memory _ _ := 0

instance (cfg : SendPlatform) (s : Port) (e : Event) : Decidable (s.Meets cfg e) :=
  match e with
  | .send .. => inferInstanceAs (Decidable (_ → _))
  | .cancel .. => inferInstanceAs (Decidable (_ → _))
  | .uartSendDone _ => inferInstanceAs (Decidable (_ → _))
  | .startDone => inferInstanceAs (Decidable (_ = _))
  | .stop => inferInstanceAs (Decidable (_ → _))
  | .signalSendDone | .runTx _ | .rxStateMachine .. | .start | .stopDone =>
    inferInstanceAs (Decidable True)

theorem sends_complete_one : ∃ h s, (machine examplePlatform).Run h s ∧ s.done = [(7, .success)] ∧
    s.accepted = s.done.map Prod.fst ++ s.outstanding := by
  obtain ⟨h, s, hr, hs⟩ := Machine.exists_run_of_exec (M := machine examplePlatform) (s := boot) rfl
    ([.start, .startDone, .send 0 7 0, .runTx true] ++ List.replicate 6 (.uartSendDone true) ++
      [.runTx true, .signalSendDone])
    (fun h s => h.all (fun p => p.1.Meets examplePlatform p.2) && s.done = [(7, .success)]) (by decide)
  simp only [Bool.and_eq_true, List.all_eq_true, decide_eq_true_eq] at hs
  exact ⟨h, s, hr, hs.2, (sends_complete hr hs.1).1⟩

/-- The stack is stopped while the task for a message is posted, and is started again. -/
theorem not_sends_complete : ¬∀ h s, (machine examplePlatform).Run h s → s.sendState = .data →
    s.txPending = true ∨ s.signalPosted = true ∨ 0 < s.sending := by
  intro hall
  obtain ⟨h, s, hr, hs⟩ := Machine.exists_run_of_exec (M := machine examplePlatform) (s := boot) rfl
    [.start, .startDone, .send 0 7 0, .stop, .runTx true, .stopDone, .start, .startDone]
    (fun _ s => s.sendState = .data && s.accepted = [7] && s.done = [] && s.txState = .idle &&
      s.dataBuf.state = .filling && !s.txPending && !s.signalPosted && s.sending = 0) (by decide)
  simp only [Bool.and_eq_true, Bool.not_eq_true', decide_eq_true_eq] at hs
  obtain ⟨⟨⟨⟨⟨⟨⟨hdata, -⟩, -⟩, -⟩, -⟩, hpending⟩, hposted⟩, hsending⟩ := hs
  rcases hall h s hr hdata with hn | hn | hn
  · rw [hpending] at hn
    cases hn
  · rw [hposted] at hn
    cases hn
  · rw [hsending] at hn
    cases hn

end SerialP.Port
