import Backip.Tcp.Tcplib

/-!
# What is received is a prefix of what was sent

`Same` and `Quiet` say what the parts of `tcplib_process` leave alone, `process_established` what a
segment does to an established socket. From it `received_from_stream`: the data handed to the
application is at every moment a prefix of the peer's stream.
-/

set_option autoImplicit false

namespace Tcp

/-! ## What the parts leave alone -/

/-- The connection and its send side are the same. -/
structure Same (p p' : Proc) : Prop where
  state : p'.sock.state = p.sock.state
  seqno : p'.sock.seqno = p.sock.seqno
  txBuf : p'.sock.txBuf = p.sock.txBuf
  txBufLen : p'.sock.txBufLen = p.sock.txBufLen

/-- So is the receive side, and nothing is received. -/
structure Quiet (p p' : Proc) : Prop extends Same p p' where
  ackno : p'.sock.ackno = p.sock.ackno
  recvd : recvdOf p'.outs = recvdOf p.outs

theorem Same.refl (p : Proc) : Same p p := ⟨rfl, rfl, rfl, rfl⟩

theorem Same.trans {p q r : Proc} (h : Same p q) (h' : Same q r) : Same p r :=
  ⟨h'.state.trans h.state, h'.seqno.trans h.seqno, h'.txBuf.trans h.txBuf,
    h'.txBufLen.trans h.txBufLen⟩

theorem Quiet.refl (p : Proc) : Quiet p p := ⟨.refl p, rfl, rfl⟩

theorem Quiet.trans {p q r : Proc} (h : Quiet p q) (h' : Quiet q r) : Quiet p r :=
  ⟨h.toSame.trans h'.toSame, h'.ackno.trans h.ackno, h'.recvd.trans h.recvd⟩

theorem recvdOf_append (outs outs' : List Output) :
    recvdOf (outs ++ outs') = recvdOf outs ++ recvdOf outs' := List.flatMap_append

namespace Proc

theorem setFlags_quiet (p : Proc) (flags : UInt8) : Quiet p (p.setFlags flags) :=
  ⟨⟨rfl, rfl, rfl, rfl⟩, rfl, rfl⟩

theorem setRetx_quiet (p : Proc) (retx : Int) : Quiet p (p.setRetx retx) :=
  ⟨⟨rfl, rfl, rfl, rfl⟩, rfl, rfl⟩

theorem resetSsthresh_quiet (p : Proc) : Quiet p p.resetSsthresh :=
  ⟨⟨rfl, rfl, rfl, rfl⟩, rfl, rfl⟩

/-- An output that is not received data. -/
theorem put_quiet (p : Proc) {o : Output} (ho : recvdOf [o] = []) : Quiet p (p.put o) := by
  refine ⟨⟨rfl, rfl, rfl, rfl⟩, rfl, ?_⟩
  rw [put, recvdOf_append, ho, List.append_nil]

theorem send_quiet (p : Proc) {o : Output} (ho : recvdOf [o] = []) : Quiet p (p.send o) :=
  (p.setFlags_quiet _).trans (put_quiet _ ho)

variable (mem : List Output → Bool)

theorem sendAck_quiet (p : Proc) (finSeqno : Bool) (flags : UInt8) :
    Quiet p (p.sendAck mem finSeqno flags) := by
  unfold sendAck
  split
  · exact p.send_quiet rfl
  · exact .refl _

theorem sendRst_quiet (p : Proc) (seg : Segment) : Quiet p (p.sendRst mem seg) := by
  unfold sendRst
  split
  · exact p.put_quiet rfl
  · exact .refl _

variable {mem}

theorem outputLoop_quiet {buf : CircBuf} {seqno : UInt32} {mss : Nat} {p p' : Proc}
    {sseqno : UInt32} {limit : Nat}
    (h : outputLoop mem buf seqno mss p sseqno limit = some p') : Quiet p p' := by
  induction p, sseqno, limit using outputLoop.induct mem buf seqno mss with
  | case1 p sseqno limit segSize hseg hmem e hread =>
    rw [outputLoop, dif_pos hseg, if_pos hmem, hread] at h
    cases h
  | case2 p sseqno limit segSize hseg hmem data hread ih =>
    rw [outputLoop, dif_pos hseg, if_pos hmem, hread] at h
    exact (p.send_quiet rfl).trans (ih h)
  | case3 p sseqno limit segSize hseg hmem =>
    rw [outputLoop, dif_pos hseg, if_neg hmem] at h
    cases h
    exact .refl _
  | case4 p sseqno limit segSize hseg =>
    rw [outputLoop, dif_neg hseg] at h
    cases h
    exact .refl _

theorem dupAck_quiet {p p' : Proc} {buf : CircBuf} (h : p.dupAck mem buf = some p') :
    Quiet p p' := by
  unfold dupAck at h
  dsimp only at h
  split at h
  · obtain ⟨q, hq, rfl⟩ := Option.map_eq_some_iff.1 h
    have hout : Quiet _ q := outputLoop_quiet hq
    exact (((p.setFlags_quiet _).trans (setFlags_quiet _ _)).trans (resetSsthresh_quiet _)).trans
      (hout.trans (q.setRetx_quiet 6))
  · cases h
    exact p.setFlags_quiet _

/-- What the send side of a segment does to the transmit buffer. -/
theorem ackPart_spec {p p' : Proc} {seg : Segment} (h : p.ackPart mem seg = some p') :
    p'.sock.state = p.sock.state ∧ p'.sock.seqno = p.sock.seqno ∧
      p'.sock.txBufLen = p.sock.txBufLen ∧ p'.sock.ackno = p.sock.ackno ∧
      recvdOf p'.outs = recvdOf p.outs ∧
      ∃ buf, p.sock.txBuf = some buf ∧
        (¬buf.headSeqno < seg.hdr.ackno ∧ p'.sock.txBuf = some buf ∨
          ∃ buf', buf.headSeqno < seg.hdr.ackno ∧ buf.shortenHead seg.hdr.ackno = some buf' ∧
            p'.sock.txBuf = some buf') := by
  unfold ackPart at h
  split at h
  · cases h
  · rename_i buf hbuf
    split at h
    · rename_i hnew
      unfold newAck at h
      split at h
      · cases h
      · rename_i buf' hshort
        cases h
        split
        · refine ⟨rfl, rfl, rfl, rfl, ?_, buf, hbuf, .inr ⟨buf', hnew, hshort, rfl⟩⟩
          exact (put_quiet _ rfl).recvd
        · exact ⟨rfl, rfl, rfl, rfl, rfl, buf, hbuf, .inr ⟨buf', hnew, hshort, rfl⟩⟩
    · rename_i hold
      split at h
      · have hq := dupAck_quiet h
        exact ⟨hq.state, hq.seqno, hq.txBufLen, hq.ackno, hq.recvd, buf, hbuf,
          .inl ⟨hold, hq.txBuf.trans hbuf⟩⟩
      · cases h
        exact ⟨rfl, rfl, rfl, rfl, rfl, buf, hbuf, .inl ⟨hold, hbuf⟩⟩

/-- What a segment makes the application receive. -/
inductive Received (seg : Segment) (ackno : UInt32) : UInt32 → List UInt8 → Prop
  | nothing : Received seg ackno ackno []
  | next {data : List UInt8} (hseq : seg.hdr.seqno = ackno)
      (hdata : data = if 0 < seg.payloadLen then seg.payload else []) :
      Received seg ackno (seg.hdr.seqno + .ofInt seg.payloadLen) data

theorem receiveData_spec (p : Proc) (seg : Segment) (hseq : seg.hdr.seqno = p.sock.ackno) :
    Same p (p.receiveData seg) ∧
      ∃ data, Received seg p.sock.ackno (p.receiveData seg).sock.ackno data ∧
        recvdOf (p.receiveData seg).outs = recvdOf p.outs ++ data := by
  unfold receiveData
  dsimp only
  split
  · rename_i hpos
    refine ⟨⟨rfl, rfl, rfl, rfl⟩, seg.payload, .next hseq (if_pos hpos).symm, ?_⟩
    rw [put, recvdOf_append]
    exact congrArg _ (List.append_nil _)
  · rename_i hzero
    exact ⟨⟨rfl, rfl, rfl, rfl⟩, [], .next hseq (if_neg hzero).symm, (List.append_nil _).symm⟩

theorem dataPart_spec (p : Proc) (mem : List Output → Bool) (seg : Segment) :
    Same p (p.dataPart mem seg) ∧
      ∃ data, Received seg p.sock.ackno (p.dataPart mem seg).sock.ackno data ∧
        recvdOf (p.dataPart mem seg).outs = recvdOf p.outs ++ data := by
  unfold dataPart
  dsimp only
  split
  · split
    · have hq := p.sendRst_quiet mem seg
      exact ⟨hq.toSame, [], by rw [hq.ackno]; exact .nothing, by rw [hq.recvd, List.append_nil]⟩
    · have hq := (p.sendAck_quiet mem false tcpFlagAck).trans (setFlags_quiet _
        ((p.sendAck mem false tcpFlagAck).sock.flags ||| tcpAckSent))
      exact ⟨hq.toSame, [], by rw [hq.ackno]; exact .nothing, by rw [hq.recvd, List.append_nil]⟩
  · rename_i hseq
    obtain ⟨hsame, data, hrecv, hdata⟩ := p.receiveData_spec seg (Classical.not_not.1 hseq)
    split
    · have hq := ((p.receiveData seg).setFlags_quiet
        ((p.receiveData seg).sock.flags &&& ~~~tcpAckSent)).trans
        (sendAck_quiet mem _ false tcpFlagAck)
      exact ⟨hsame.trans hq.toSame, data, by rw [hq.ackno]; exact hrecv,
        by rw [hq.recvd]; exact hdata⟩
    · exact ⟨hsame, data, hrecv, hdata⟩

/-- What a segment does to a socket that is established or waits for its close. -/
structure Effect (seg : Segment) (p p' : Proc) : Prop where
  state : p'.sock.state = p.sock.state ∨ p'.sock.state = .closeWait
  seqno : p'.sock.seqno = p.sock.seqno
  txBufLen : p'.sock.txBufLen = p.sock.txBufLen
  recvd : ∃ data, Received seg p.sock.ackno p'.sock.ackno data ∧
    recvdOf p'.outs = recvdOf p.outs ++ data
  txBuf : p'.sock.txBuf = p.sock.txBuf ∨
    ∃ buf buf', p.sock.txBuf = some buf ∧ buf.headSeqno < seg.hdr.ackno ∧
      buf.shortenHead seg.hdr.ackno = some buf' ∧ p'.sock.txBuf = some buf'

theorem Effect.refl (seg : Segment) (p : Proc) : Effect seg p p :=
  ⟨.inl rfl, rfl, rfl, ⟨[], .nothing, (List.append_nil _).symm⟩, .inl rfl⟩

theorem Effect.before {seg : Segment} {p q r : Proc} (h : Quiet p q) (h' : Effect seg q r) :
    Effect seg p r where
  state := h.state ▸ h'.state
  seqno := h'.seqno.trans h.seqno
  txBufLen := h'.txBufLen.trans h.txBufLen
  recvd := h.ackno ▸ h.recvd ▸ h'.recvd
  txBuf := h.txBuf ▸ h'.txBuf

theorem Effect.after {seg : Segment} {p q r : Proc} (h : Effect seg p q) (h' : Quiet q r) :
    Effect seg p r where
  state := h'.state.symm ▸ h.state
  seqno := h'.seqno.trans h.seqno
  txBufLen := h'.txBufLen.trans h.txBufLen
  recvd := h'.ackno.symm ▸ h'.recvd.symm ▸ h.recvd
  txBuf := h'.txBuf.symm ▸ h.txBuf

/-- Its close, at last. -/
theorem Effect.close {seg : Segment} {p q : Proc} (h : Effect seg p q) :
    Effect seg p (q.setState .closeWait) :=
  ⟨.inr rfl, h.seqno, h.txBufLen, h.recvd, h.txBuf⟩

theorem transfer_effect {p p' : Proc} {seg : Segment} (h : p.transfer mem seg = some p') :
    Effect seg p p' := by
  unfold transfer at h
  split at h
  · obtain ⟨q, hack, rfl⟩ := Option.map_eq_some_iff.1 h
    dsimp only
    have hpend : Quiet p (if 0 < seg.payloadLen then p.setFlags (p.sock.flags + 1) else p) := by
      split
      · exact p.setFlags_quiet _
      · exact .refl p
    obtain ⟨hstate, hseqno, hlen, hackno, hrecvd, buf, hbuf, htx⟩ := ackPart_spec hack
    obtain ⟨hsame, data, hdata, hout⟩ := q.dataPart_spec mem seg
    have heffect : Effect seg p (q.dataPart mem seg) := by
      refine .before hpend ⟨.inl (hsame.state.trans hstate), hsame.seqno.trans hseqno,
        hsame.txBufLen.trans hlen, ⟨data, hackno ▸ hdata, hrecvd ▸ hout⟩, ?_⟩
      rcases htx with ⟨-, htx⟩ | ⟨buf', hnew, hshort, htx⟩
      · exact .inl (hsame.txBuf.trans (htx.trans hbuf.symm))
      · exact .inr ⟨buf, buf', hbuf, hnew, hshort, hsame.txBuf.trans htx⟩
    split
    · exact heffect.after ((q.dataPart mem seg).setRetx_quiet 6)
    · exact heffect
  · cases h
    exact .refl seg _

theorem Effect.timeWait {seg : Segment} {p q : Proc} (h : Effect seg p q) :
    Effect seg p (q.timeWaitPart mem seg) := by
  unfold timeWaitPart
  split
  · dsimp only
    have hack := h.after (q.sendAck_quiet mem
      (seg.payloadLen == 0 && seg.has tcpFlagFin) tcpFlagAck)
    split
    · exact hack.close.after (put_quiet _ rfl)
    · exact hack
  · exact h

theorem establishedPart_effect {p p' : Proc} {seg : Segment}
    (h : p.establishedPart mem seg false = some p') : Effect seg p p' := by
  obtain ⟨q, hq, rfl⟩ := Option.map_eq_some_iff.1 h
  have heffect := transfer_effect hq
  dsimp only
  rw [if_neg (fun hdone => by simpa using hdone.1)]
  exact heffect.timeWait

end Proc

/-- **A segment on an established socket.** -/
theorem process_established {mem : List Output → Bool} {hdrSize : Nat}
    {accept : Option (List UInt8)} {s : Sock} {seg : Segment} {p : Proc}
    (hs : s.state = .established ∨ s.state = .closeWait)
    (h : process mem hdrSize accept s seg = some p) : Proc.Effect seg ⟨s, [], 0⟩ p := by
  unfold process at h
  dsimp only at h
  split at h
  · cases h
    exact .after (.refl seg _) (Proc.put_quiet ⟨s, [], 0⟩ (o := .closeDone) rfl)
  · have hpart : (Proc.establishedPart mem ⟨{ s with rWind := seg.hdr.window }, [], 0⟩ seg
        false) = some p := by
      rcases hs with hs | hs <;> simpa only [hs] using h
    have hwind : Quiet ⟨s, [], 0⟩ ⟨{ s with rWind := seg.hdr.window }, [], 0⟩ :=
      ⟨⟨rfl, rfl, rfl, rfl⟩, rfl, rfl⟩
    exact .before hwind (Proc.establishedPart_effect hpart)

/-! ## The peer's stream -/

/-- A segment of the peer's stream, the first byte of which has the number `irs`: its header lies
within it and its payload is a part of the stream. The number behind the stream is that of the
FIN. -/
def Segment.From (stream : List UInt8) (irs : UInt32) (seg : Segment) : Prop :=
  seg.hdrLen ≤ seg.bytes.length ∧
    ∃ n, n ≤ stream.length + 1 ∧ seg.hdr.seqno = irs + .ofNat n ∧
      seg.payload = (stream.drop n).take seg.payload.length

instance (stream : List UInt8) (irs : UInt32) (seg : Segment) :
    Decidable (seg.From stream irs) := by
  unfold Segment.From
  infer_instance

/-- The segments that arrive are of the peer's stream. -/
def Event.From (stream : List UInt8) (irs : UInt32) : Event → Prop
  | .segment _ _ seg => seg.From stream irs
  | .send _ => True

instance (stream : List UInt8) (irs : UInt32) (e : Event) : Decidable (e.From stream irs) :=
  match e with
  | .segment _ _ seg => inferInstanceAs (Decidable (seg.From stream irs))
  | .send _ => inferInstanceAs (Decidable True)

/-- Where the numbers of the stream do not repeat, a segment with the expected number carries what
comes next. -/
theorem Segment.From.next {stream : List UInt8} {irs : UInt32} {seg : Segment}
    (hseg : seg.From stream irs) (hstream : stream.length < 2 ^ 31) {recvd : List UInt8}
    (hrecvd : recvd <+: stream) (hseq : seg.hdr.seqno = irs + .ofNat recvd.length) :
    recvd ++ seg.payload <+: stream := by
  obtain ⟨-, n, hn, hnum, hpart⟩ := hseg
  have hle : recvd.length ≤ stream.length := hrecvd.length_le
  have hsame : UInt32.ofNat n = UInt32.ofNat recvd.length :=
    UInt32.add_right_inj irs |>.1 (hnum.symm.trans hseq)
  have hn' : n = recvd.length := by
    have hnat := congrArg UInt32.toNat hsame
    rwa [UInt32.toNat_ofNat_of_lt' (by unfold UInt32.size; omega),
      UInt32.toNat_ofNat_of_lt' (by unfold UInt32.size; omega)] at hnat
  obtain ⟨rest, rfl⟩ := hrecvd
  rw [hn', List.drop_left] at hpart
  rw [List.prefix_append_right_inj, hpart]
  exact List.take_prefix _ _

theorem ofInt_natCast (n : Nat) : UInt32.ofInt (n : Int) = .ofNat n := by
  have hmod : ((n : Int) % 2 ^ 32).toNat = n % 2 ^ 32 := by omega
  rw [UInt32.ofInt, hmod, ← UInt32.toNat_inj, UInt32.toNat_ofNat', UInt32.toNat_ofNat',
    Nat.mod_mod]

/-- A segment whose header lies within it is received whole, or not at all. -/
theorem Proc.Received.whole {seg : Segment} {ackno ackno' : UInt32} {data : List UInt8}
    (h : Proc.Received seg ackno ackno' data) (hlen : seg.hdrLen ≤ seg.bytes.length) :
    ackno' = ackno ∧ data = [] ∨
      seg.hdr.seqno = ackno ∧ data = seg.payload ∧
        ackno' = ackno + .ofNat seg.payload.length := by
  cases h with
  | nothing => exact .inl ⟨rfl, rfl⟩
  | next hseq hdata =>
    have hpayload : seg.payloadLen = (seg.payload.length : Int) := by
      unfold Segment.payloadLen Segment.payload
      rw [List.length_drop]
      omega
    refine .inr ⟨hseq, ?_, ?_⟩
    · rw [hdata, hpayload]
      split
      · rfl
      · exact (List.eq_nil_of_length_eq_zero (by omega)).symm
    · rw [hpayload, hseq, ofInt_natCast]

namespace Session

/-- An established session that has not received anything. -/
structure Fresh (irs : UInt32) (s : Session) : Prop where
  state : s.sock.state = .established
  ackno : s.sock.ackno = irs
  recvd : s.recvd = []

def machine (hdrSize : Nat) (init : Session → Prop) : Machine Session Event where
  init := init
  step := Session.step hdrSize

/-- What is received is the front of the stream, and the next number is expected. -/
structure Receiving (stream : List UInt8) (irs : UInt32) (s : Session) : Prop where
  state : s.sock.state = .established ∨ s.sock.state = .closeWait
  ackno : s.sock.ackno = irs + .ofNat s.recvd.length
  recvd : s.recvd <+: stream

theorem Receiving.segment {stream : List UInt8} {irs : UInt32} (hstream : stream.length < 2 ^ 31)
    {s : Session} (hs : s.Receiving stream irs) {seg : Segment} (hseg : seg.From stream irs)
    {p : Proc} (h : Proc.Effect seg ⟨s.sock, [], 0⟩ p) (acked : Nat) :
    Receiving stream irs
      { s with sock := p.sock, recvd := s.recvd ++ recvdOf p.outs, acked := acked } := by
  have hstate : p.sock.state = .established ∨ p.sock.state = .closeWait := by
    rcases h.state with hstate | hstate
    · exact hstate.symm ▸ hs.state
    · exact .inr hstate
  obtain ⟨data, hdata, hout⟩ := h.recvd
  have hout' : recvdOf p.outs = data := hout
  rcases hdata.whole hseg.1 with ⟨hackno, rfl⟩ | ⟨hseq, rfl, hackno⟩
  · refine ⟨hstate, ?_, ?_⟩
    · rw [hout', List.append_nil]
      exact hackno.trans hs.ackno
    · rw [hout', List.append_nil]
      exact hs.recvd
  · refine ⟨hstate, ?_, ?_⟩
    · rw [hout', List.length_append, UInt32.ofNat_add, ← UInt32.add_assoc, ← hs.ackno]
      exact hackno
    · rw [hout']
      exact hseg.next hstream hs.recvd (hseq.trans hs.ackno)

theorem tcplibSend_receiving {s s' : Sock} {data : List UInt8} {rc : Int}
    (h : tcplibSend s data = some (rc, s')) : s'.state = s.state ∧ s'.ackno = s.ackno := by
  unfold tcplibSend at h
  split at h
  · cases h
    exact ⟨rfl, rfl⟩
  · split at h
    · cases h
    · split at h
      · cases h
        exact ⟨rfl, rfl⟩
      · split at h <;> cases h <;> exact ⟨rfl, rfl⟩

theorem Receiving.step {stream : List UInt8} {irs : UInt32} (hstream : stream.length < 2 ^ 31)
    {hdrSize : Nat} {s s' : Session} {e : Event} (hs : s.Receiving stream irs)
    (he : e.From stream irs) (h : s.step hdrSize e = some s') : s'.Receiving stream irs := by
  cases e with
  | segment mem accept seg =>
    obtain ⟨p, hp, rfl⟩ := Option.map_eq_some_iff.1 h
    exact hs.segment hstream he (process_established hs.state hp) _
  | send data =>
    obtain ⟨⟨rc, sock⟩, hsend, rfl⟩ := Option.map_eq_some_iff.1 h
    obtain ⟨hstate, hackno⟩ := tcplibSend_receiving hsend
    exact ⟨hstate.symm ▸ hs.state, hackno.trans hs.ackno, hs.recvd⟩

/-- **What the application receives is the front of the peer's stream**, at the end of every run of
a session in which the segments are of that stream (so at every moment of it), and the socket
expects the number behind it. Segments may come twice, in any order, in any cut, or not at all, and
data may be sent in between. A run ends where the source leaves undefined what happens. -/
theorem received_from_stream (hdrSize : Nat) (stream : List UInt8) (irs : UInt32)
    (hstream : stream.length < 2 ^ 31) {h : List (Session × Event)} {s : Session}
    (hr : (machine hdrSize (Fresh irs)).Run h s) (hh : ∀ st ∈ h, st.2.From stream irs) :
    s.recvd <+: stream ∧ s.sock.ackno = irs + .ofNat s.recvd.length := by
  have hinv : s.Receiving stream irs := by
    refine (hr.inv_of_steps (C := fun _ e => e.From stream irs) ?_ ?_ hh).1
    · intro s hs
      refine ⟨.inl hs.state, ?_, ?_⟩
      · rw [hs.recvd, hs.ackno]
        exact (UInt32.add_zero irs).symm
      · rw [hs.recvd]
        exact List.nil_prefix
    · intro s e s' hs he hst
      exact hs.step hstream he hst
  exact ⟨hinv.recvd, hinv.ackno⟩

/-- A socket that expects the number before the last one. -/
def exampleSock : Sock where
  flags := 0
  state := .established
  txBuf := CircBuf.init 4 (List.replicate 12 0) 7
  txBufLen := 12
  mss := 100
  myWind := 200
  rWind := 200
  cwnd := 100
  ssthresh := 400
  seqno := 7
  ackno := 0xfffffffe
  retx := 0

/-- A segment with the number `seqno` that acknowledges nothing. -/
def exampleSegment (seqno : UInt32) (payload : List UInt8) : Segment where
  hdr :=
    { srcport := 80
      dstport := 1024
      seqno := seqno
      ackno := 7
      offset := 0x50
      flags := tcpFlagAck
      window := 200
      chksum := 0
      urgent := 0 }
  rest := payload

/-- The second segment comes first and again, and the numbers wrap. -/
theorem received_from_stream_swapped : ∃ h s,
    (machine 4 (Fresh 0xfffffffe)).Run h s ∧ s.recvd = [1, 2, 3, 4, 5] ∧
      s.recvd <+: [1, 2, 3, 4, 5, 6] := by
  obtain ⟨h, s, hr, hp⟩ := Machine.exists_run_of_exec
    (M := machine 4 (Fresh 0xfffffffe)) (s := ⟨exampleSock, [], [], 0⟩) ⟨rfl, rfl, rfl⟩
    [.segment (fun _ => true) none (exampleSegment 1 [4, 5]),
      .segment (fun _ => true) none (exampleSegment 0xfffffffe [1, 2, 3]),
      .segment (fun _ => true) none (exampleSegment 1 [4, 5])]
    (fun h s => s.recvd = [1, 2, 3, 4, 5] &&
      h.all fun st => st.2.From [1, 2, 3, 4, 5, 6] 0xfffffffe) (by decide)
  simp only [Bool.and_eq_true, decide_eq_true_iff, List.all_eq_true] at hp
  exact ⟨h, s, hr, hp.1, (received_from_stream 4 _ _ (by decide) hr hp.2).1⟩

end Session

end Tcp
