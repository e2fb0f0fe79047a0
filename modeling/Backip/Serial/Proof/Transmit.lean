import Backip.Serial.Proof.Source
import Backip.Serial.Transmit

/-!
# The sender writes frames

* `Sender.Good`: the wire holds the frames of what was sent and the part of the current frame that was
  given to the UART; `Good.step` for each event.
* `Sender.Good.pushed`: the host reads from it what was sent, up to packets that are too long.
-/

set_option autoImplicit false

namespace Serial

/-- The part of a packet that is transmitted, behind its protocol. -/
def payload (p : UInt8 × List UInt8) : List UInt8 := p.1 :: p.2.take serialMtu

/-- The frames of what was sent. -/
def frames (sent : List (UInt8 × List UInt8)) : List UInt8 := sent.flatMap fun p => frame (payload p)

theorem frames_snoc (sent : List (UInt8 × List UInt8)) (p : UInt8 × List UInt8) :
    frames (sent ++ [p]) = frames sent ++ frame (payload p) := by
  rw [frames, List.flatMap_append]
  simp [frames]

namespace Sender

variable {s : Sender} {b : UInt8} {l rest : List UInt8}

/-- What was given to the UART, with the second half of an escaped byte. -/
def given (s : Sender) : List UInt8 := s.wire ++ if s.sendEscape then [s.txTemp] else []

/-- Where the transmission of `p` stands: what of its frame was given to the UART. -/
inductive Phase (s : Sender) (p : UInt8 × List UInt8) : Prop
  | idle : s.txState = .idle ∨ s.txState = .finish → s.sending = false → s.sendEscape = false →
      s.given = frames s.sent → Phase s p
  | proto : s.txState = .proto → s.sendEscape = false → s.txCRC = 0 → s.txByteCnt = 0 →
      s.given = frames s.sent ++ [flagByte] → Phase s p
  | info : s.txState = .info → s.txCRC = crc (p.1 :: p.2.take s.txByteCnt) →
      s.given = frames s.sent ++ flagByte :: hdlc.stuffAll (p.1 :: p.2.take s.txByteCnt) → Phase s p
  | fcs1 : s.txState = .fcs1 → s.txCRC = crc (payload p) →
      s.given = frames s.sent ++ flagByte :: hdlc.stuffAll (payload p) → Phase s p
  | fcs2 : s.txState = .fcs2 → s.txCRC = crc (payload p) →
      s.given = frames s.sent ++
        flagByte :: hdlc.stuffAll (payload p ++ [(crc (payload p) &&& 0xff).toUInt8]) → Phase s p
  | endFlag : s.txState = .endFlag →
      s.given = frames s.sent ++ flagByte :: hdlc.stuffAll (contents (payload p)) → Phase s p
  | endWait : s.txState = .endWait → s.sendEscape = false → s.given = frames s.sent → Phase s p

/-- The protocol of a transmission. -/
def TxIndex.proto : TxIndex → UInt8
  | .ack => protoAck
  | .data => protoPacketNoAck

/-- The invariant, while `p` is transmitted. -/
structure Good (s : Sender) (p : UInt8 × List UInt8) : Prop where
  phase : Phase s p
  current : s.txState ≠ .idle → s.current = p ∧ p.2 ≠ []
  proto : s.txState ≠ .idle → p.1 = TxIndex.proto s.txIndex
  /-- While the packet waits, its first byte is in the buffer. -/
  waits : s.dataBuf.state = .filling → s.txState = .idle ∨ s.txIndex = .ack →
    s.packet = s.dataBuf.buf :: s.rest
  busy : s.txState ≠ .idle → s.txIndex = .data → s.dataBuf.state ≠ .available
  complete : s.dataBuf.state = .complete →
    s.txIndex = .data ∧ s.txState ≠ .idle ∧ s.txState ≠ .proto ∧ s.txState ≠ .info
  /-- In the middle of a packet, the next byte is in the buffer. -/
  next : s.txState = .proto ∨ s.txState = .info → s.txByteCnt < serialMtu ∧
    p.2.drop s.txByteCnt = s.buf :: if s.txIndex = .data then s.rest else []
  sent : ∀ q ∈ s.sent, q.1 ≠ protoPacketAck ∧ q.2 ≠ []

variable {p : UInt8 × List UInt8}

theorem proto_ne (i : TxIndex) : TxIndex.proto i ≠ protoPacketAck := by
  cases i <;> decide

theorem current_ack (h : s.txIndex = .ack) : s.current = (s.txProto, [s.ackBuf.buf]) := by
  rw [current, if_pos h]

theorem good_start : Good start (0, []) where
  phase := .idle (.inl rfl) rfl rfl rfl
  current h := absurd rfl h
  proto h := absurd rfl h
  waits := nofun
  busy h := absurd rfl h
  complete := nofun
  next := nofun
  sent := nofun

/-! ## What is given to the UART -/

theorem given_putDelimiter (hs : s.sendEscape = false) :
    s.putDelimiter.given = s.given ++ [flagByte] := by
  simp [putDelimiter, uartSend, given, hs]

theorem given_putData (hs : s.sendEscape = false) (b : UInt8) :
    (s.putData b).given = s.given ++ hdlc.stuff b := by
  unfold putData
  by_cases hb : b = ctlescByte ∨ b = flagByte
  · rw [if_pos hb, Stuffing.stuff_of_reserved (S := hdlc) hb.symm]
    simp [uartSend, given, hs, hdlc]
  · rw [if_neg hb, Stuffing.stuff_of_not_reserved (S := hdlc) fun h => hb h.symm]
    simp [uartSend, given, hs]

/-- `putData` touches the UART and the escape only. -/
theorem putData_eq (s : Sender) (b : UInt8) : ∃ sendEscape txTemp wire,
    s.putData b = { s with sendEscape, txTemp, wire, sending := true } := by
  unfold putData
  split
  · exact ⟨_, _, _, rfl⟩
  · exact ⟨_, _, _, rfl⟩

/-! ## The upper layer and the task -/

variable {t : Sender}

theorem Phase.congr (h : Phase s p) (hstate : t.txState = s.txState) (hcrc : t.txCRC = s.txCRC)
    (hcnt : t.txByteCnt = s.txByteCnt) (hgiven : t.given = s.given)
    (hsending : t.sending = s.sending) (hesc : t.sendEscape = s.sendEscape)
    (hsent : t.sent = s.sent) : Phase t p := by
  cases h with
  | idle h₁ h₂ h₃ h₄ =>
    exact .idle (by rwa [hstate]) (by rwa [hsending]) (by rwa [hesc]) (by rwa [hgiven, hsent])
  | proto h₁ h₂ h₃ h₄ h₅ =>
    exact .proto (by rwa [hstate]) (by rwa [hesc]) (by rwa [hcrc]) (by rwa [hcnt])
      (by rwa [hgiven, hsent])
  | info h₁ h₂ h₃ =>
    exact .info (by rwa [hstate]) (by rwa [hcrc, hcnt]) (by rwa [hgiven, hsent, hcnt])
  | fcs1 h₁ h₂ h₃ => exact .fcs1 (by rwa [hstate]) (by rwa [hcrc]) (by rwa [hgiven, hsent])
  | fcs2 h₁ h₂ h₃ => exact .fcs2 (by rwa [hstate]) (by rwa [hcrc]) (by rwa [hgiven, hsent])
  | endFlag h₁ h₂ => exact .endFlag (by rwa [hstate]) (by rwa [hgiven, hsent])
  | endWait h₁ h₂ h₃ => exact .endWait (by rwa [hstate]) (by rwa [hesc]) (by rwa [hgiven, hsent])

theorem Good.maybeScheduleTx (h : Good s p) : Good s.maybeScheduleTx p :=
  ⟨h.phase.congr rfl rfl rfl rfl rfl rfl rfl, h.current, h.proto, h.waits, h.busy, h.complete, h.next,
    h.sent⟩

theorem Good.ackQueuePush (h : Good s p) (token : UInt8) : Good (s.ackQueuePush token) p := by
  unfold Sender.ackQueuePush
  split
  · exact h
  · exact ⟨h.phase.congr rfl rfl rfl rfl rfl rfl rfl, h.current, h.proto, h.waits, h.busy,
      h.complete, h.next, h.sent⟩

/-- The buffer is free: the packet that is transmitted, if there is one, is an ack. -/
theorem Good.startSend (h : Good s p) (b : UInt8) (rest : List UInt8) :
    Good (s.startSend b rest) p := by
  unfold Sender.startSend
  split
  · rename_i havail
    have hack : s.txState ≠ .idle → s.txIndex = .ack := fun hs => by
      cases hi : s.txIndex with
      | ack => rfl
      | data => exact absurd havail (h.busy hs hi)
    refine ⟨h.phase.congr rfl rfl rfl rfl rfl rfl rfl, fun hs => ?_, h.proto, fun _ _ => rfl,
      fun _ _ => nofun, nofun, fun hs => ?_, h.sent⟩
    · have hcur := h.current hs
      rw [current_ack (hack hs)] at hcur
      refine ⟨Eq.trans (current_ack ?_) hcur.1, hcur.2⟩
      exact hack hs
    · have hidle : s.txState ≠ .idle := by
        have hs : s.txState = .proto ∨ s.txState = .info := hs
        rcases hs with hs | hs <;> rw [hs] <;> nofun
      obtain ⟨hcnt, hdrop⟩ := h.next hs
      refine ⟨hcnt, hdrop.trans ?_⟩
      simp only [Sender.buf, Sender.maybeScheduleTx, hack hidle, reduceCtorEq, if_false]
  · exact h

theorem Good.finishTx (h : Good s p) (hfinish : s.txState = .finish) :
    Good s.finishTx p ∧ s.finishTx.txState = .idle := by
  have hgiven : s.sending = false ∧ s.sendEscape = false ∧ s.given = frames s.sent := by
    cases h.phase with
    | idle _ h₂ h₃ h₄ => exact ⟨h₂, h₃, h₄⟩
    | proto h₁ | info h₁ | fcs1 h₁ | fcs2 h₁ | endFlag h₁ | endWait h₁ =>
      rw [hfinish] at h₁
      cases h₁
  obtain ⟨hsending, hesc, hgiven⟩ := hgiven
  -- Neither the sequence number nor the ack queue is part of the invariant.
  obtain ⟨ackQ, hq⟩ : ∃ ackQ, s.finishTx =
      { ({ s with txState := .idle } : Sender).freeBuf with txSeqno := s.txSeqno + 1, ackQ } := by
    unfold Sender.finishTx Sender.freeBuf
    cases s.txIndex <;> dsimp only <;> split <;> exact ⟨_, rfl⟩
  rw [hq]
  cases hi : s.txIndex with
  | ack =>
    dsimp only [freeBuf]
    refine ⟨⟨.idle (.inl rfl) hsending hesc hgiven, fun hs => absurd rfl hs,
      fun hs => absurd rfl hs, fun hf _ => h.waits hf (.inr hi), fun hs => absurd rfl hs,
      fun hc => ?_, nofun, h.sent⟩, rfl⟩
    exact absurd (hi.symm.trans (h.complete hc).1) nofun
  | data =>
    dsimp only [freeBuf]
    exact ⟨⟨.idle (.inl rfl) hsending hesc hgiven, fun hs => absurd rfl hs,
      fun hs => absurd rfl hs, nofun, fun hs => absurd rfl hs, nofun, nofun, h.sent⟩, rfl⟩

/-- A transmission starts. -/
theorem Good.chooseTx (h : Good s p) (hidle : s.txState = .idle) : ∃ p, Good s.chooseTx p := by
  have hgiven : s.sendEscape = false ∧ s.given = frames s.sent := by
    cases h.phase with
    | idle _ h₂ h₃ h₄ => exact ⟨h₃, h₄⟩
    | proto h₁ | info h₁ | fcs1 h₁ | fcs2 h₁ | endFlag h₁ | endWait h₁ =>
      rw [hidle] at h₁
      cases h₁
  obtain ⟨hesc, hgiven⟩ := hgiven
  have hcomplete : s.dataBuf.state ≠ .complete := fun hc => (h.complete hc).2.1 hidle
  have hstart : ∀ t : Sender, t.sendEscape = false → t.given = s.given →
      t.startTx.given = frames s.sent ++ [flagByte] := by
    intro t ht htg
    rw [← hgiven, ← htg]
    exact given_putDelimiter (s := { t with txCRC := 0, txByteCnt := 0, txState := .proto }) ht
  unfold Sender.chooseTx
  split
  · refine ⟨(protoAck, [s.ackQ.top]), .proto rfl rfl rfl rfl (hstart _ hesc rfl),
      fun _ => ⟨rfl, nofun⟩, fun _ => rfl, fun hf _ => h.waits hf (.inl hidle), nofun,
      fun hc => absurd hc hcomplete, fun _ => ⟨Nat.zero_lt_succ 254, rfl⟩, h.sent⟩
  · split
    · rename_i hdata
      have hfill := hdata.resolve_right hcomplete
      have hpacket := h.waits hfill (.inl hidle)
      refine ⟨(protoPacketNoAck, s.packet), .proto rfl rfl rfl rfl (hstart _ hesc rfl),
        fun _ => ⟨rfl, ?_⟩, fun _ => rfl, fun _ => nofun, fun _ _ => ?_,
        fun hc => absurd hc hcomplete, fun _ => ⟨Nat.zero_lt_succ 254, hpacket⟩, h.sent⟩
      · rw [hpacket]
        nofun
      · change s.dataBuf.state ≠ .available
        rw [hfill]
        nofun
    · exact ⟨p, h⟩

theorem Good.runTx (h : Good s p) : ∃ p, Good s.runTx p := by
  have h' : Good { s with txPending := false } p :=
    ⟨h.phase.congr rfl rfl rfl rfl rfl rfl rfl, h.current, h.proto, h.waits, h.busy, h.complete,
      h.next, h.sent⟩
  unfold Sender.runTx
  dsimp only
  split
  · rename_i hdone
    have hfinish : s.txState = .finish := by
      rcases hdone with hdone | hdone
      · exact hdone
      · cases h.phase with
        | idle h₁ => rcases h₁ with h₁ | h₁ <;> rw [hdone] at h₁ <;> cases h₁
        | proto h₁ | info h₁ | fcs1 h₁ | fcs2 h₁ | endFlag h₁ | endWait h₁ =>
          rw [hdone] at h₁
          cases h₁
    obtain ⟨hgood, hidle⟩ := h'.finishTx hfinish
    exact hgood.chooseTx hidle
  · split
    · rename_i hidle
      exact h'.chooseTx hidle
    · exact ⟨p, h'⟩

/-! ## The bytes -/

/-- The packet stays what it is from one byte to the next. -/
structure Same (s t : Sender) : Prop where
  busy : s.txState ≠ .idle ∧ t.txState ≠ .idle
  ackBuf : t.ackBuf = s.ackBuf
  txProto : t.txProto = s.txProto
  txIndex : t.txIndex = s.txIndex
  packet : t.packet = s.packet

theorem Same.current (h : Same s t) : t.current = s.current := by
  rw [Sender.current, Sender.current, h.ackBuf, h.txProto, h.txIndex, h.packet]

/-- A byte of an ack, or of the end of a frame: the buffer of the data stays what it is. -/
theorem Good.inside (h : Good s p) (hsame : Same s t) (hphase : Phase t p)
    (hnext : t.txState ≠ .proto ∧ t.txState ≠ .info)
    (hdata : t.dataBuf = s.dataBuf ∧ t.rest = s.rest)
    (hsent : ∀ q ∈ t.sent, q.1 ≠ protoPacketAck ∧ q.2 ≠ []) : Good t p := by
  obtain ⟨hdata, hrest⟩ := hdata
  refine ⟨hphase, fun _ => ?_, fun _ => ?_, fun hf hw => ?_, fun _ hi => ?_, fun hc => ?_,
    fun hn => absurd hn (not_or.2 hnext), hsent⟩
  · rw [hsame.current]
    exact h.current hsame.busy.1
  · rw [hsame.txIndex]
    exact h.proto hsame.busy.1
  · rw [hsame.packet, hdata, hrest]
    rw [hdata] at hf
    exact h.waits hf (.inr (hsame.txIndex ▸ hw.resolve_left hsame.busy.2))
  · rw [hdata]
    exact h.busy hsame.busy.1 (hsame.txIndex ▸ hi)
  · rw [hdata] at hc
    exact ⟨hsame.txIndex.trans (h.complete hc).1, hsame.busy.2, hnext⟩

/-- A byte of the packet. -/
theorem Good.inside_data (h : Good s p) (hsame : Same s t) (hindex : s.txIndex = .data)
    (hphase : Phase t p) (hbusy : t.dataBuf.state ≠ .available)
    (hcomplete : t.dataBuf.state = .complete → t.txState ≠ .proto ∧ t.txState ≠ .info)
    (hnext : t.txState = .proto ∨ t.txState = .info → t.txByteCnt < serialMtu ∧
      p.2.drop t.txByteCnt = t.buf :: if t.txIndex = .data then t.rest else [])
    (hsent : t.sent = s.sent) : Good t p := by
  have hindex' : t.txIndex = .data := hsame.txIndex.trans hindex
  refine ⟨hphase, fun _ => ?_, fun _ => ?_, fun _ hw => ?_, fun _ _ => hbusy,
    fun hc => ⟨hindex', hsame.busy.2, hcomplete hc⟩, hnext, ?_⟩
  · rw [hsame.current]
    exact h.current hsame.busy.1
  · rw [hsame.txIndex]
    exact h.proto hsame.busy.1
  · rw [hindex'] at hw
    cases hw.resolve_left hsame.busy.2
  · rw [hsent]
    exact h.sent

theorem crc_snoc (l : List UInt8) (b : UInt8) : crcByte (crc l) b = crc (l ++ [b]) := by
  rw [crc, crc, List.foldl_append]
  rfl

theorem append_stuff (l₀ l : List UInt8) (b : UInt8) :
    l₀ ++ flagByte :: hdlc.stuffAll l ++ hdlc.stuff b =
      l₀ ++ flagByte :: hdlc.stuffAll (l ++ [b]) := by
  rw [Stuffing.stuffAll_append, Stuffing.stuffAll_cons, Stuffing.stuffAll_nil, List.append_nil,
    List.append_assoc, List.cons_append]

/-- The byte in the buffer is the next one of the packet. -/
theorem take_succ {k : Nat} {l rest : List UInt8} {b : UInt8} (h : l.drop k = b :: rest) :
    l.take (k + 1) = l.take k ++ [b] ∧ l.drop (k + 1) = rest := by
  constructor
  · have hget : l[k]? = some b := by
      rw [← List.head?_drop, h]
      rfl
    rw [List.take_add_one, hget]
    rfl
  · rw [← List.drop_drop, h]
    rfl

/-- The second half of an escaped byte. -/
theorem Good.escaped (h : Good s p) (hesc : s.sendEscape = true) :
    Good ({ s with sending := false, sendEscape := false }.uartSend s.txTemp) p := by
  have hgiven : ({ s with sending := false, sendEscape := false }.uartSend s.txTemp).given =
      s.given := by
    simp [uartSend, given, hesc]
  have hclear : ∀ {q : Prop}, s.sendEscape = false → q := fun hc => by
    rw [hesc] at hc
    cases hc
  refine ⟨?_, h.current, h.proto, h.waits, h.busy, h.complete, h.next, h.sent⟩
  cases h.phase with
  | idle _ _ hc => exact hclear hc
  | proto _ hc => exact hclear hc
  | info h₁ h₂ h₃ => exact .info h₁ h₂ (hgiven.trans h₃)
  | fcs1 h₁ h₂ h₃ => exact .fcs1 h₁ h₂ (hgiven.trans h₃)
  | fcs2 h₁ h₂ h₃ => exact .fcs2 h₁ h₂ (hgiven.trans h₃)
  | endFlag h₁ h₂ => exact .endFlag h₁ (hgiven.trans h₂)
  | endWait _ hc => exact hclear hc

/-- The last byte of the packet is given to the UART. -/
theorem payload_of_drop {k : Nat} (hlt : k < serialMtu) (h : p.2.drop (k + 1) = []) :
    p.1 :: p.2.take (k + 1) = payload p := by
  have hlen : p.2.length ≤ k + 1 := List.drop_eq_nil_iff.1 h
  rw [payload, List.take_of_length_le hlen, List.take_of_length_le (Nat.le_trans hlen hlt)]

theorem Good.putInfo (h : Good s p) (hesc : s.sendEscape = false) (hinfo : s.txState = .info) :
    Good s.putInfo p := by
  obtain ⟨hlt, hdrop⟩ := h.next (.inr hinfo)
  obtain ⟨htake, hrest⟩ := take_succ hdrop
  have hphase : s.txCRC = crc (p.1 :: p.2.take s.txByteCnt) ∧ s.given = frames s.sent ++
      flagByte :: hdlc.stuffAll (p.1 :: p.2.take s.txByteCnt) := by
    cases h.phase with
    | info _ h₂ h₃ => exact ⟨h₂, h₃⟩
    | idle h₁ => rcases h₁ with h₁ | h₁ <;> rw [hinfo] at h₁ <;> cases h₁
    | proto h₁ | fcs1 h₁ | fcs2 h₁ | endFlag h₁ | endWait h₁ =>
      rw [hinfo] at h₁
      cases h₁
  obtain ⟨hcrc, hgiven⟩ := hphase
  have hcrc' : crcByte s.txCRC s.buf = crc (p.1 :: p.2.take (s.txByteCnt + 1)) := by
    rw [hcrc, crc_snoc, htake]
    rfl
  have hgiven' : (s.putData s.buf).given = frames s.sent ++
      flagByte :: hdlc.stuffAll (p.1 :: p.2.take (s.txByteCnt + 1)) := by
    rw [given_putData hesc, hgiven, append_stuff, htake]
    rfl
  have hidle : s.txState ≠ .idle := by
    rw [hinfo]
    nofun
  unfold Sender.putInfo
  obtain ⟨sendEscape, txTemp, wire, hput⟩ := putData_eq s s.buf
  dsimp only
  rw [hput] at hgiven' ⊢
  dsimp only
  cases hi : s.txIndex with
  | ack =>
    rw [hi, if_neg nofun] at hrest
    have hpay := payload_of_drop hlt hrest
    rw [hpay] at hcrc' hgiven'
    exact h.inside ⟨⟨hidle, nofun⟩, rfl, rfl, hi.symm, rfl⟩ (.fcs1 rfl hcrc' hgiven') ⟨nofun, nofun⟩
      ⟨rfl, rfl⟩ h.sent
  | data =>
    rw [hi, if_pos rfl] at hrest
    cases hr : s.rest with
    | nil =>
      rw [hr] at hrest
      have hpay := payload_of_drop hlt hrest
      rw [hpay] at hcrc' hgiven'
      simp only [nextByte, completeSend, true_or, if_true]
      exact h.inside_data ⟨⟨hidle, nofun⟩, rfl, rfl, hi.symm, rfl⟩ hi (.fcs1 rfl hcrc' hgiven')
        nofun (fun _ => ⟨nofun, nofun⟩) nofun rfl
    | cons c rest =>
      rw [hr] at hrest
      have hbusy := h.busy hidle hi
      have hcomplete : s.dataBuf.state ≠ .complete := fun hc => (h.complete hc).2.2.2 hinfo
      simp only [nextByte, hcomplete, false_or]
      split
      · rename_i hfull
        have hmtu : s.txByteCnt + 1 = serialMtu := Nat.le_antisymm hlt hfull
        rw [hmtu] at hcrc' hgiven'
        exact h.inside_data ⟨⟨hidle, nofun⟩, rfl, rfl, hi.symm, rfl⟩ hi (.fcs1 rfl hcrc' hgiven')
          hbusy (fun _ => ⟨nofun, nofun⟩) nofun rfl
      · rename_i hroom
        exact h.inside_data ⟨⟨hidle, hidle⟩, rfl, rfl, hi.symm, rfl⟩ hi (.info hinfo hcrc' hgiven')
          hbusy (fun hc => absurd hc hcomplete)
          (fun _ => ⟨Nat.lt_of_not_le hroom, hrest⟩) rfl

theorem Good.putDone (h : Good s p) (hesc : s.sendEscape = false) (hsending : s.sending = false)
    (hs : s.txState ≠ .idle ∧ s.txState ≠ .finish) : Good s.putDone p := by
  have hproto : s.txProto = p.1 := by
    rw [← (h.current hs.1).1]
    rfl
  unfold Sender.putDone
  cases h.phase with
  | idle h₁ => exact absurd h₁ (not_or.2 hs)
  | proto h₁ _ hcrc hcnt hgiven =>
    have hgiven' := given_putData hesc s.txProto
    obtain ⟨sendEscape, txTemp, wire, hput⟩ := putData_eq s s.txProto
    rw [hgiven, hput] at hgiven'
    rw [h₁]
    dsimp only
    rw [hput]
    refine ⟨.info rfl ?_ ?_, fun _ => h.current hs.1, fun _ => h.proto hs.1,
      fun hf hw => h.waits hf (.inr (hw.resolve_left (by simp))), fun _ hi => h.busy hs.1 hi,
      fun hc => absurd h₁ (h.complete hc).2.2.1, fun _ => h.next (.inl h₁), h.sent⟩
    · simp only [hcrc, hcnt, hproto, List.take_zero]
      rfl
    · simp only [hcnt, List.take_zero]
      refine Eq.trans hgiven' ?_
      rw [hproto, List.append_assoc, Stuffing.stuffAll_cons, Stuffing.stuffAll_nil,
        List.append_nil]
      rfl
  | info h₁ =>
    rw [h₁]
    exact h.putInfo hesc h₁
  | fcs1 h₁ hcrc hgiven =>
    have hgiven' := given_putData hesc (s.txCRC &&& 0xff).toUInt8
    obtain ⟨sendEscape, txTemp, wire, hput⟩ := putData_eq s (s.txCRC &&& 0xff).toUInt8
    rw [hgiven, append_stuff, hput, hcrc] at hgiven'
    rw [h₁]
    dsimp only
    rw [hput]
    exact h.inside ⟨⟨hs.1, by simp⟩, rfl, rfl, rfl, rfl⟩ (.fcs2 rfl hcrc hgiven') ⟨by simp, by simp⟩
      ⟨rfl, rfl⟩ h.sent
  | fcs2 h₁ hcrc hgiven =>
    have hgiven' := given_putData hesc (s.txCRC >>> 8).toUInt8
    obtain ⟨sendEscape, txTemp, wire, hput⟩ := putData_eq s (s.txCRC >>> 8).toUInt8
    rw [hgiven, append_stuff, List.append_assoc, hput, hcrc] at hgiven'
    rw [h₁]
    dsimp only
    rw [hput]
    exact h.inside ⟨⟨hs.1, by simp⟩, rfl, rfl, rfl, rfl⟩ (.endFlag rfl hgiven') ⟨by simp, by simp⟩
      ⟨rfl, rfl⟩ h.sent
  | endFlag h₁ hgiven =>
    have hcur : s.putDelimiter.current = p := (h.current hs.1).1
    have hgiven' : s.putDelimiter.given = frames (s.sent ++ [p]) := by
      rw [given_putDelimiter hesc, hgiven, frames_snoc, frame, List.append_assoc]
      rfl
    rw [h₁]
    dsimp only
    rw [hcur]
    refine h.inside ⟨⟨hs.1, by simp⟩, rfl, rfl, rfl, rfl⟩ (.endWait rfl rfl hgiven') ⟨by simp, by simp⟩
      ⟨rfl, rfl⟩ fun q hq => ?_
    rcases List.mem_append.1 hq with hq | hq
    · exact h.sent q hq
    · obtain rfl := List.mem_singleton.1 hq
      exact ⟨h.proto hs.1 ▸ proto_ne _, (h.current hs.1).2⟩
  | endWait h₁ _ hgiven =>
    rw [h₁]
    exact (h.inside (t := { s with txState := .finish }) ⟨⟨hs.1, by simp⟩, rfl, rfl, rfl, rfl⟩
      (.idle (.inr rfl) hsending hesc hgiven) ⟨by simp, by simp⟩ ⟨rfl, rfl⟩ h.sent).maybeScheduleTx

/-- The byte has left the UART. -/
theorem Good.sent_byte (h : Good s p) : Good { s with sending := false } p := by
  refine ⟨?_, h.current, h.proto, h.waits, h.busy, h.complete, h.next, h.sent⟩
  cases h.phase with
  | idle h₁ _ h₃ h₄ => exact .idle h₁ rfl h₃ h₄
  | proto h₁ h₂ h₃ h₄ h₅ => exact .proto h₁ h₂ h₃ h₄ h₅
  | info h₁ h₂ h₃ => exact .info h₁ h₂ h₃
  | fcs1 h₁ h₂ h₃ => exact .fcs1 h₁ h₂ h₃
  | fcs2 h₁ h₂ h₃ => exact .fcs2 h₁ h₂ h₃
  | endFlag h₁ h₂ => exact .endFlag h₁ h₂
  | endWait h₁ h₂ h₃ => exact .endWait h₁ h₂ h₃

theorem Good.sendDone (h : Good s p) (hsending : s.sending = true) : Good s.sendDone p := by
  unfold Sender.sendDone
  dsimp only
  split
  · rename_i hesc
    exact h.escaped hesc
  · rename_i hesc
    refine h.sent_byte.putDone (Bool.eq_false_iff.2 hesc) rfl ?_
    change s.txState ≠ .idle ∧ s.txState ≠ .finish
    cases h.phase with
    | idle _ h₂ =>
      rw [hsending] at h₂
      cases h₂
    | proto h₁ | info h₁ | fcs1 h₁ | fcs2 h₁ | endFlag h₁ | endWait h₁ =>
      rw [h₁]
      exact ⟨nofun, nofun⟩

theorem Good.step {t : Sender} {e : Event} (h : Good s p) (hst : machine.step s e = some t) :
    ∃ p, Good t p := by
  cases e with
  | startSend b rest =>
    obtain rfl := Option.some.inj hst
    exact ⟨p, h.startSend b rest⟩
  | ackQueuePush token =>
    obtain rfl := Option.some.inj hst
    exact ⟨p, h.ackQueuePush token⟩
  | runTx =>
    simp only [machine, Sender.step] at hst
    split at hst
    · obtain rfl := Option.some.inj hst
      exact h.runTx
    · cases hst
  | sendDone =>
    simp only [machine, Sender.step] at hst
    split at hst
    · rename_i hsending
      obtain rfl := Option.some.inj hst
      exact ⟨p, h.sendDone hsending⟩
    · cases hst

theorem good_run {h : List (Sender × Event)} (hr : machine.Run h s) : ∃ p, Good s p :=
  hr.inv (P := fun s => ∃ p, Good s p)
    ⟨fun s (hs : s = start) => ⟨(0, []), hs ▸ good_start⟩, fun _ _ _ ⟨_, hg⟩ hst => hg.step hst⟩

/-! ## What the host reads -/

theorem pushed_readByte {h : Source} (hb : b ≠ flagByte) : (h.readByte b).1.pushed = h.pushed := by
  unfold Source.readByte
  split
  · rfl
  · split
    · rfl
    · split
      · rfl
      · split <;> rfl

/-- Nothing is pushed before the flag at the end. -/
theorem pushed_readAll {h : Source} (hl : flagByte ∉ l) : (h.readAll l).pushed = h.pushed := by
  induction l generalizing h with
  | nil => rfl
  | cons b l ih =>
    rw [Source.readAll_cons, ih fun hm => hl (.tail _ hm), pushed_readByte]
    rintro rfl
    exact hl (.head _)

/-- The beginning of a frame. -/
theorem pushed_partial {h : Source} (hbetween : h.Between) {q : List UInt8}
    (hq : q <+: flagByte :: hdlc.stuffAll l) : (h.readAll q).pushed = h.pushed := by
  cases q with
  | nil => rfl
  | cons b q =>
    obtain ⟨rfl, hq'⟩ := List.cons_prefix_cons.1 hq
    have hno : flagByte ∉ q := fun hm => flag_notMem l (hq'.subset hm)
    rw [Source.readAll_cons, pushed_readAll hno, hbetween.flag.2]

/-- The frames of what was sent. -/
theorem pushed_frames {h : Source} (hbetween : h.Between) (sent : List (UInt8 × List UInt8))
    (hsent : ∀ q ∈ sent, q.1 ≠ protoPacketAck ∧ q.2 ≠ []) :
    (h.readAll (frames sent)).Between ∧
    (h.readAll (frames sent)).pushed = h.pushed ++ sent.filter fun q => q.2.length ≤ 252 := by
  induction sent generalizing h with
  | nil => exact ⟨hbetween, (List.append_nil _).symm⟩
  | cons q sent ih =>
    obtain ⟨⟨hproto, hne⟩, hsent⟩ := List.forall_mem_cons.1 hsent
    have hne' : q.2.take serialMtu ≠ [] := fun hnil => by
      rcases List.take_eq_nil_iff.1 hnil with hnil | hnil
      · cases hnil
      · exact hne hnil
    obtain ⟨hbetween', hpushed⟩ := hbetween.read_frame hproto hne'
    have hread : h.readAll (frames (q :: sent)) =
        (h.readAll (frame (payload q))).readAll (frames sent) := Source.readAll_append _ _ _
    obtain ⟨hrest, hall⟩ := ih hbetween' hsent
    rw [hread]
    refine ⟨hrest, hall.trans ?_⟩
    have hmtu : serialMtu = 255 := rfl
    change (h.readAll (frame (q.1 :: q.2.take serialMtu))).pushed ++ _ = _
    rw [hpushed, List.filter_cons, List.append_assoc]
    by_cases hlen : q.2.length ≤ 252
    · rw [List.take_of_length_le (by omega), if_pos hlen, if_pos (decide_eq_true hlen)]
      rfl
    · rw [if_neg (by rw [List.length_take]; omega), if_neg (by simpa using hlen), List.nil_append]

theorem wire_of_given {f q : List UInt8} (hq : q ≠ []) (h : s.given = f ++ q) :
    ∃ r, s.wire = f ++ r ∧ r <+: q := by
  cases hesc : s.sendEscape with
  | false =>
    refine ⟨q, ?_, List.prefix_rfl⟩
    rw [← h, given, hesc, if_neg nofun, List.append_nil]
  | true =>
    rw [given, hesc, if_pos rfl] at h
    refine ⟨q.dropLast, ?_, q.dropLast_prefix⟩
    rw [← List.dropLast_append_of_ne_nil hq, ← h, List.dropLast_concat]

/-- The wire: the frames of what was sent, and the beginning of the current one. -/
theorem Good.wire (h : Good s p) : ∃ q l, s.wire = frames s.sent ++ q ∧
    q <+: flagByte :: hdlc.stuffAll l := by
  have hpart : ∀ l, s.given = frames s.sent ++ flagByte :: hdlc.stuffAll l →
      ∃ q l, s.wire = frames s.sent ++ q ∧ q <+: flagByte :: hdlc.stuffAll l := by
    intro l hgiven
    obtain ⟨q, hwire, hq⟩ := wire_of_given (List.cons_ne_nil _ _) hgiven
    exact ⟨q, l, hwire, hq⟩
  have hwhole : s.sendEscape = false → s.given = frames s.sent →
      ∃ q l, s.wire = frames s.sent ++ q ∧ q <+: flagByte :: hdlc.stuffAll l := by
    intro hesc hgiven
    rw [given, hesc, if_neg nofun, List.append_nil] at hgiven
    exact ⟨[], [], hgiven.trans (List.append_nil _).symm, List.nil_prefix⟩
  cases h.phase with
  | idle _ _ hesc hgiven => exact hwhole hesc hgiven
  | proto _ _ _ _ hgiven => exact hpart [] hgiven
  | info _ _ hgiven => exact hpart _ hgiven
  | fcs1 _ _ hgiven => exact hpart _ hgiven
  | fcs2 _ _ hgiven => exact hpart _ hgiven
  | endFlag _ hgiven => exact hpart _ hgiven
  | endWait _ hesc hgiven => exact hwhole hesc hgiven

/-- **The host reads what was sent**, up to the packets that are too long. -/
theorem Good.pushed (h : Good s p) {k : Nat} (hk : s.wire.length ≤ k) :
    (Source.start.reads k s.wire).1.pushed = s.sent.filter fun q => q.2.length ≤ 252 := by
  obtain ⟨q, l, hwire, hq⟩ := h.wire
  have hstart : Source.start.Between := nofun
  obtain ⟨hbetween, hpushed⟩ := pushed_frames hstart s.sent h.sent
  rw [Source.reads_eq _ _ hk, hwire, Source.readAll_append, pushed_partial hbetween hq, hpushed]
  rfl

end Sender

end Serial
