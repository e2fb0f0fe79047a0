import Backip.Lib.Ring
import Backip.Serial.Proof.Frame
import Mathlib.Data.List.Basic
import Mathlib.Tactic.ByContra

/-!
# The receiver reads a frame

* `Reading`: where the receiver stands inside a frame; the last two bytes are in the buffer.
* `deliver`: a receiver in its state `PROTO` signals a frame that is not too long.
-/

set_option autoImplicit false

namespace Serial

variable {r : RxBuf} {s : Receiver} {accept : List Signal → Bool} {b : UInt8}
  {body tail l : List UInt8}

/-! ## The buffer -/

/-- The buffer holds the bytes. -/
structure RxBuf.Holds (r : RxBuf) (l : List UInt8) : Prop where
  read : r.readPtr < 3
  write : r.writePtr = Ring.idx 3 r.readPtr l.length
  window : Ring.window r.buf 3 r.readPtr l.length = l

theorem RxBuf.holds_nil (hread : r.readPtr = 0) (hwrite : r.writePtr = 0) : r.Holds [] where
  read := by omega
  write := by rw [hread, hwrite]; rfl
  window := rfl

theorem RxBuf.Holds.push (h : r.Holds l) (hlen : l.length < 2) : (r.push b).Holds (l ++ [b]) where
  read := h.read
  write := by
    have hread := h.read
    have hwrite := h.write
    simp only [RxBuf.push, rxDataBufferSize, List.length_append, List.length_singleton,
      Ring.idx] at hwrite ⊢
    split at hwrite <;> split <;> split <;> omega
  window := by
    simp only [RxBuf.push, List.length_append, List.length_singleton]
    rw [h.write, Ring.window_push _ _ (by omega), h.window]

theorem RxBuf.Holds.pop (h : r.Holds (b :: l)) (hlen : l.length < 2) : r.top = b ∧ r.pop.Holds l := by
  have hread := h.read
  have hwindow := h.window
  rw [List.length_cons, Ring.window_cons _ hread (by omega)] at hwindow
  obtain ⟨htop, hrest⟩ := List.cons.inj hwindow
  have hptr : r.pop.readPtr = Ring.idx 3 r.readPtr 1 := by
    simp only [RxBuf.pop, rxDataBufferSize, Ring.idx]
    split <;> split <;> omega
  refine ⟨htop, ?_, ?_, ?_⟩
  · rw [hptr, Ring.idx]
    split <;> omega
  · rw [hptr, Ring.idx_idx hread (by omega), Nat.add_comm]
    exact h.write
  · rw [hptr]
    exact hrest

/-- The upper byte of a checksum, as `rx_current_crc` computes it. -/
theorem upper_byte (h : UInt8) :
    ((h.toUInt16 &&& 0xff) <<< 8) &&& (0xff00 : UInt16) = h.toUInt16 <<< 8 := by
  obtain ⟨⟨⟨h, hlt⟩⟩⟩ := h
  revert h
  decide +kernel

theorem lower_byte (l : UInt8) : l.toUInt16 &&& 0xff = l.toUInt16 := by
  obtain ⟨⟨⟨l, hlt⟩⟩⟩ := l
  revert l
  decide +kernel

theorem RxBuf.Holds.currentCrc {crc : UInt16}
    (h : r.Holds [(crc &&& 0xff).toUInt8, (crc >>> 8).toUInt8]) : r.currentCrc = crc := by
  have hread := h.read
  have hwrite : r.writePtr = Ring.idx 3 r.readPtr 2 := h.write
  have hwindow := h.window
  rw [List.length_cons, List.length_singleton, Ring.window_cons _ hread (by decide)] at hwindow
  obtain ⟨hlow, hrest⟩ := List.cons.inj hwindow
  have hup : r.buf (Ring.idx 3 r.readPtr 1) = (crc >>> 8).toUInt8 := by
    have hnext : Ring.idx 3 r.readPtr 1 < 3 := by
      rw [Ring.idx]
      split <;> omega
    rw [Ring.window_cons _ hnext (Nat.le_add_left 1 2)] at hrest
    exact (List.cons.inj hrest).1
  -- The last byte written, and the one before it.
  have hlast : (if r.writePtr = 0 then rxDataBufferSize else r.writePtr - 1) =
      Ring.idx 3 r.readPtr 1 := by
    simp only [rxDataBufferSize, Ring.idx] at hwrite ⊢
    split at hwrite <;> split <;> split <;> omega
  have hfirst : (if Ring.idx 3 r.readPtr 1 = 0 then rxDataBufferSize
      else Ring.idx 3 r.readPtr 1 - 1) = r.readPtr := by
    simp only [rxDataBufferSize, Ring.idx]
    split <;> split <;> omega
  unfold RxBuf.currentCrc
  dsimp only
  rw [hlast, hfirst, hlow, hup, upper_byte, lower_byte, UInt16.or_comm]
  exact crc_bytes crc

/-! ## Inside a frame -/

/-- The receiver has read `body`, and the bytes `tail` that may be the checksum. -/
structure Reading (s : Receiver) (signals : List Signal) (token : UInt8) (body tail : List UInt8) :
    Prop where
  state : s.rx.rxState = .info
  escape : s.receiveEscape = false
  buf : s.rx.rxBuf.Holds tail
  count : s.rx.rxByteCnt = body.length + tail.length
  full : tail.length < 2 → body = []
  short : tail.length ≤ 2
  crc : s.rx.rxCRC = Serial.crc (protoPacketAck :: token :: body)
  seqno : s.rx.rxSeqno = token
  signals : s.signals = signals ++ body.map .byteReceived

variable {signals : List Signal} {token : UInt8}

theorem Reading.data (h : Reading s signals token body tail)
    (hlen : body.length + tail.length < serialMtu) :
    ∃ body' tail', body' ++ tail' = body ++ tail ++ [b] ∧
      Reading (s.rxStateMachine accept false b) signals token body' tail' := by
  have hstep : s.rxStateMachine accept false b = s.saveByte b := by
    rw [Receiver.rxStateMachine, h.state]
    dsimp only
    rw [h.count, if_pos hlen]
    rfl
  rw [hstep]
  unfold Receiver.saveByte
  by_cases hfull : tail.length < 2
  · obtain rfl := h.full hfull
    have hcnt : ¬ s.rx.rxByteCnt ≥ 2 := by
      rw [h.count, List.length_nil]
      omega
    rw [if_neg hcnt]
    refine ⟨[], tail ++ [b], rfl, h.state, h.escape, h.buf.push hfull, ?_, fun _ => rfl, ?_, h.crc,
      h.seqno, h.signals⟩
    · simp only [h.count, List.length_append, List.length_singleton, Nat.add_assoc]
    · simp only [List.length_append, List.length_singleton]
      omega
  · obtain ⟨x, y, rfl⟩ := List.length_eq_two.1 (Nat.le_antisymm h.short (Nat.le_of_not_lt hfull))
    have hone : [y].length < 2 := Nat.lt_succ_self 1
    obtain ⟨htop, hpop⟩ := h.buf.pop hone
    have hcnt : s.rx.rxByteCnt ≥ 2 := by
      rw [h.count]
      exact Nat.le_add_left _ _
    rw [if_pos hcnt]
    refine ⟨body ++ [x], [y, b], by simp, h.state, h.escape, hpop.push hone, ?_,
      fun hshort => absurd hshort (Nat.lt_irrefl 2), Nat.le_refl _, ?_, h.seqno, ?_⟩
    · simp only [Receiver.signal, h.count, List.length_append, List.length_cons, List.length_nil]
    · simp only [Receiver.signal, h.crc, htop, Serial.crc, List.foldl_cons, List.foldl_append,
        List.foldl_nil]
    · simp only [Receiver.signal, h.signals, htop, List.map_append, List.map_cons, List.map_nil,
        List.append_assoc]

theorem Reading.foldl (accept : List Signal → Bool) (h : Reading s signals token body tail)
    (hlen : body.length + tail.length + l.length ≤ serialMtu) :
    ∃ body' tail', body' ++ tail' = body ++ tail ++ l ∧
      Reading (l.foldl (fun s b => s.rxStateMachine accept false b) s) signals token body' tail' := by
  induction l generalizing s body tail with
  | nil => exact ⟨body, tail, (List.append_nil _).symm, h⟩
  | cons b l ih =>
    rw [List.length_cons] at hlen
    have hroom : body.length + tail.length < serialMtu := by omega
    obtain ⟨body₁, tail₁, heq, h₁⟩ := h.data hroom
    have hlen₁ := congrArg List.length heq
    simp only [List.length_append, List.length_singleton] at hlen₁
    obtain ⟨body', tail', heq', h'⟩ := ih h₁ (by omega)
    refine ⟨body', tail', ?_, h'⟩
    rw [heq', heq, List.append_assoc]
    rfl

/-! ## What one byte does -/

/-- The results of `rx_state_machine`. -/
inductive Step (s : Receiver) (isDelimiter : Bool) : Receiver → Prop
  | same : Step s isDelimiter s
  | sync : isDelimiter = true →
      Step s isDelimiter { s with rx := { s.rx.rxInit with rxState := .proto } }
  | nosync (t : Receiver) : s.signals <+: t.signals → Step s isDelimiter (t.nosync isDelimiter)
  | inside (t : Receiver) : t.rx.rxState ≠ .proto → t.receiveEscape = s.receiveEscape →
      s.signals <+: t.signals → Step s isDelimiter t
  | endPacket : Step s isDelimiter s.endPacket

theorem step_saveByte (hs : s.rx.rxState = .info) (isDelimiter : Bool) :
    Step s isDelimiter (s.saveByte b) := by
  unfold Receiver.saveByte
  split
  · exact .inside _ (by simp [Receiver.signal, hs]) rfl (List.prefix_append _ _)
  · exact .inside _ (by simp [hs]) rfl List.prefix_rfl

theorem step (s : Receiver) (isDelimiter : Bool) (b : UInt8) :
    Step s isDelimiter (s.rxStateMachine accept isDelimiter b) := by
  unfold Receiver.rxStateMachine
  cases hstate : s.rx.rxState with
  | noSync =>
    dsimp only
    split
    · rename_i hdel
      exact .sync hdel
    · exact .same
  | proto =>
    dsimp only
    split
    · split
      · exact .nosync _ List.prefix_rfl
      · split
        · exact .nosync _ List.prefix_rfl
        · split
          · exact .nosync _ (List.prefix_append _ _)
          · exact .inside _ nofun rfl (List.prefix_append _ _)
    · exact .same
  | token =>
    dsimp only
    split
    · exact .nosync _ List.prefix_rfl
    · exact .inside _ nofun rfl List.prefix_rfl
  | info =>
    dsimp only
    split
    · split
      · split
        · split
          · exact .endPacket
          · exact .nosync _ List.prefix_rfl
        · exact .nosync _ List.prefix_rfl
      · exact step_saveByte hstate isDelimiter
    · exact .nosync _ List.prefix_rfl
  | inactive => exact .nosync _ List.prefix_rfl

theorem escape_nosync (s : Receiver) (isDelimiter : Bool) :
    (s.nosync isDelimiter).receiveEscape = false := by
  cases isDelimiter <;> rfl

theorem signals_nosync (s : Receiver) (isDelimiter : Bool) :
    (s.nosync isDelimiter).signals = s.signals ++ [.endPacket .fail] := by
  cases isDelimiter <;> rfl

variable {s' : Receiver} {isDelimiter : Bool}

/-- The escape flag stays clear. -/
theorem Step.escape (h : Step s isDelimiter s') (hs : s.receiveEscape = false) :
    s'.receiveEscape = false := by
  cases h with
  | same | sync => exact hs
  | nosync t _ => exact escape_nosync t isDelimiter
  | inside t _ hesc _ => exact hesc.trans hs
  | endPacket => rfl

/-- Signals are not taken back. -/
theorem Step.signals_mono (h : Step s isDelimiter s') : s.signals <+: s'.signals := by
  cases h with
  | same | sync => exact List.prefix_rfl
  | nosync t hpre =>
    rw [signals_nosync]
    exact hpre.trans (List.prefix_append _ _)
  | inside t _ _ hpre => exact hpre
  | endPacket =>
    simp only [Receiver.endPacket, Receiver.signal, Receiver.resetReceive, List.append_assoc]
    exact List.prefix_append _ _

/-! ## A frame -/

/-- The receiver waits for the protocol byte. -/
structure Ready (s : Receiver) : Prop where
  state : s.rx.rxState = .proto
  escape : s.receiveEscape = false
  read : s.rx.rxBuf.readPtr = 0
  write : s.rx.rxBuf.writePtr = 0
  count : s.rx.rxByteCnt = 0
  crc : s.rx.rxCRC = 0

/-- What is signalled for a packet. -/
def delivery (token : UInt8) (body : List UInt8) : List Signal :=
  .startPacket :: body.map .byteReceived ++ [.endPacket .success, .ackQueuePush token]

/-- The receiver takes the bytes out of the stuffing. -/
theorem unstuffs : hdlc.Unstuffs (Receiver.receivedByte accept)
    (fun s b => s.rxStateMachine accept false b) (fun s => s.receiveEscape = false) where
  plain s b hs hb := by
    have hflag : b ≠ flagByte := fun h => hb (.inl h)
    have hesc : b ≠ ctlescByte := fun h => hb (.inr h)
    rw [Receiver.receivedByte, if_neg hflag, if_neg hesc, hs]
    rfl
  masked s b hs hb := by
    have hres := mask_not_reserved hb
    have hflag : hdlc.mask b ≠ flagByte := fun h => hres (.inl h)
    have hesc : hdlc.mask b ≠ ctlescByte := fun h => hres (.inr h)
    have hmark : s.receivedByte accept ctlescByte = { s with receiveEscape := true } := rfl
    have hback : { s with receiveEscape := false } = s := by rw [← hs]
    change (s.receivedByte accept ctlescByte).receivedByte accept (hdlc.mask b) = _
    rw [hmark, Receiver.receivedByte, if_neg hflag, if_neg hesc, if_pos rfl]
    dsimp only
    rw [hback]
    exact congrArg (s.rxStateMachine accept false) (mask_mask b)
  clear s b hs := (step s false b).escape hs

/-- The protocol byte and the sequence number. -/
theorem Ready.start (h : Ready s) (haccept : accept s.signals = true) (token : UInt8) :
    Reading ((s.rxStateMachine accept false protoPacketAck).rxStateMachine accept false token)
      (s.signals ++ [.startPacket]) token [] [] := by
  have hproto : s.rxStateMachine accept false protoPacketAck =
      { s with
        rx := { s.rx with
          rxCRC := crcByte 0 protoPacketAck, rxState := .token, rxProto := protoPacketAck }
        signals := s.signals ++ [.startPacket] } := by
    rw [Receiver.rxStateMachine, h.state, h.crc]
    dsimp only [Receiver.signal]
    rw [haccept]
    rfl
  rw [hproto]
  exact ⟨rfl, h.escape, RxBuf.holds_nil h.read h.write, h.count, fun _ => rfl, Nat.zero_le _, rfl, rfl,
    (List.append_nil _).symm⟩

/-- The flag at the end of a frame. -/
theorem Reading.flag (h : Reading s signals token body
    [(Serial.crc (protoPacketAck :: token :: body) &&& 0xff).toUInt8,
      (Serial.crc (protoPacketAck :: token :: body) >>> 8).toUInt8])
    (hlen : body.length ≤ 252) : s.receivedByte accept flagByte = s.endPacket := by
  have hcnt : s.rx.rxByteCnt = body.length + 2 := h.count
  rw [Receiver.receivedByte, if_pos rfl, Receiver.rxStateMachine, h.state]
  dsimp only
  have hmtu : body.length + 2 < serialMtu := Nat.lt_succ_of_le (Nat.add_le_add_right hlen 2)
  rw [hcnt, if_pos hmtu, if_pos rfl, if_pos (Nat.le_add_left _ _), h.buf.currentCrc, h.crc, if_pos rfl]

/-- The contents of a frame. -/
theorem Ready.contents (h : Ready s) (haccept : accept s.signals = true) (hlen : body.length ≤ 252)
    (token : UInt8) :
    Reading (s.receive accept (hdlc.stuffAll (contents (protoPacketAck :: token :: body))))
      (s.signals ++ [.startPacket]) token body
      [(Serial.crc (protoPacketAck :: token :: body) &&& 0xff).toUInt8,
        (Serial.crc (protoPacketAck :: token :: body) >>> 8).toUInt8] := by
  rw [Receiver.receive, unstuffs.foldl_stuffAll h.escape, Serial.contents, List.cons_append,
    List.cons_append, List.foldl_cons, List.foldl_cons]
  generalize (Serial.crc (protoPacketAck :: token :: body) &&& 0xff).toUInt8 = lower
  generalize (Serial.crc (protoPacketAck :: token :: body) >>> 8).toUInt8 = upper
  have hmtu : (body ++ [lower, upper]).length ≤ serialMtu := by
    rw [List.length_append]
    exact Nat.le_succ_of_le (Nat.add_le_add_right hlen 2)
  obtain ⟨body', tail', heq, hreading⟩ :=
    (h.start haccept token).foldl accept (l := body ++ [lower, upper])
      (by rw [List.length_nil]; omega)
  rw [List.append_nil, List.nil_append] at heq
  -- Two bytes at least have been read, so that the buffer is full.
  have hfull : tail'.length = 2 := by
    by_contra hne
    have hshort : tail'.length < 2 := Nat.lt_of_le_of_ne hreading.short hne
    have hsum := congrArg List.length heq
    rw [hreading.full hshort, List.nil_append, List.length_append] at hsum
    have htwo : [lower, upper].length = 2 := rfl
    omega
  obtain ⟨rfl, rfl⟩ := List.append_inj' heq hfull
  exact hreading

/-- **A frame is signalled.** -/
theorem Ready.deliver (h : Ready s) (haccept : accept s.signals = true) (hlen : body.length ≤ 252)
    (token : UInt8) :
    s.receive accept (hdlc.stuffAll (Serial.contents (protoPacketAck :: token :: body)) ++
      [flagByte]) =
    (s.receive accept
      (hdlc.stuffAll (Serial.contents (protoPacketAck :: token :: body)))).endPacket := by
  rw [Receiver.receive, List.foldl_append]
  exact (h.contents haccept hlen token).flag hlen

theorem Ready.deliver_signals (h : Ready s) (haccept : accept s.signals = true)
    (hlen : body.length ≤ 252) (token : UInt8) :
    (s.receive accept (hdlc.stuffAll (Serial.contents (protoPacketAck :: token :: body)) ++
      [flagByte])).signals = s.signals ++ delivery token body := by
  have hreading := h.contents haccept hlen token
  rw [h.deliver haccept hlen token]
  simp only [Receiver.endPacket, Receiver.signal, Receiver.resetReceive, hreading.signals,
    hreading.seqno, delivery, List.append_assoc, List.cons_append, List.nil_append]

end Serial
