import Backip.Tcp.Proof.Output
import Backip.Tcp.Proof.Stream

/-!
# Accepted data stays in the transmit buffer

`Session.Kept`: the transmit buffer holds, perhaps behind a byte that stands for the SYN, the data
that was accepted and is not acknowledged. A step keeps it if it fits (`Event.Fits`): data that
`tcplib_send` accepts fits into the ring, and a new acknowledgement is one of bytes that were sent.
Such a step is also defined. `tcplib_send` asks for less (`accepted_overwritten`).
-/

set_option autoImplicit false

namespace Tcp

/-! ## Steps that are defined -/

namespace Proc

variable {mem : List Output → Bool}

theorem dupAck_isSome {p : Proc} {buf : CircBuf} {held : List UInt8}
    (h : Sends held p.sock buf) : (p.dupAck mem buf).isSome := by
  unfold dupAck
  dsimp only
  split
  · rw [Option.isSome_map]
    obtain ⟨p', cs, hp', -⟩ := outputLoop_sends h.holds h.seqno _ _ _ (Nat.zero_le _)
      (UInt32.add_zero _).symm
    exact Option.isSome_of_eq_some hp'
  · rfl

/-- The head moves at most to the next number. -/
def Within (s : Sock) (ackno : UInt32) : Prop :=
  ∀ buf, s.txBuf = some buf → buf.headSeqno < ackno →
    (ackno - buf.headSeqno).toNat ≤ (s.seqno - buf.headSeqno).toNat

theorem ackPart_isSome {p : Proc} {buf : CircBuf} {held : List UInt8} {seg : Segment}
    (h : Sends held p.sock buf) (hack : Within p.sock seg.hdr.ackno) :
    (p.ackPart mem seg).isSome := by
  have hshort := buf.data_short
  have hfits : held.length ≤ buf.data.length := h.holds.fits
  unfold ackPart
  rw [h.txBuf]
  dsimp only
  split
  · rename_i hnew
    have hle := hack buf h.txBuf hnew
    rw [toNat_sub_offsets h.seqno (UInt32.add_zero _).symm (Nat.zero_le _) (by omega)] at hle
    obtain ⟨buf', hshorten, -⟩ := h.holds.shortenHead hle (eq_add_ofNat_sub _ _)
    unfold newAck
    rw [hshorten]
    rfl
  · split
    · exact dupAck_isSome h
    · rfl

end Proc

/-- A segment that acknowledges what was sent is processed. -/
theorem process_isSome {mem : List Output → Bool} {hdrSize : Nat} {accept : Option (List UInt8)}
    {s : Sock} {buf : CircBuf} {held : List UInt8} {seg : Segment}
    (hs : s.state = .established ∨ s.state = .closeWait) (h : Proc.Sends held s buf)
    (hack : Proc.Within s seg.hdr.ackno) : (process mem hdrSize accept s seg).isSome := by
  unfold process
  dsimp only
  split
  · rfl
  · have hpart : (Proc.establishedPart mem ⟨{ s with rWind := seg.hdr.window }, [], 0⟩ seg
        false).isSome := by
      unfold Proc.establishedPart Proc.transfer
      rw [Option.isSome_map]
      split
      · have hsends : ∀ flags, Proc.Sends held { s with rWind := seg.hdr.window, flags := flags }
            buf := fun _ => ⟨h.txBuf, h.holds, h.seqno⟩
        rw [Option.isSome_map]
        split
        · exact Proc.ackPart_isSome (hsends _) hack
        · exact Proc.ackPart_isSome (hsends _) hack
      · rfl
    rcases hs with hs | hs <;> simpa only [hs] using hpart

/-! ## Sessions -/

/-- What makes a step keep the accepted data: data that is not refused fits into the ring, and a
new acknowledgement is one of bytes that were sent. -/
def Event.Fits (s : Session) : Event → Prop
  | .send data => s.sock.state ≠ .established ∨ ∀ buf, s.sock.txBuf = some buf →
      .ofNat s.sock.txBufLen < s.sock.seqno - buf.headSeqno + .ofNat data.length ∨
        buf.headSeqno + .ofNat buf.dataLen < s.sock.seqno ∨
        (s.sock.seqno - buf.headSeqno).toNat + data.length ≤ buf.dataLen
  | .segment _ _ seg => Proc.Within s.sock seg.hdr.ackno

instance (s : Sock) (ackno : UInt32) : Decidable (Proc.Within s ackno) :=
  inferInstanceAs (Decidable (∀ buf ∈ s.txBuf, buf.headSeqno < ackno →
    (ackno - buf.headSeqno).toNat ≤ (s.seqno - buf.headSeqno).toNat))

instance (s : Session) (e : Event) : Decidable (e.Fits s) :=
  match e with
  | .send data =>
    inferInstanceAs (Decidable (s.sock.state ≠ .established ∨ ∀ buf ∈ s.sock.txBuf,
      .ofNat s.sock.txBufLen < s.sock.seqno - buf.headSeqno + .ofNat data.length ∨
        buf.headSeqno + .ofNat buf.dataLen < s.sock.seqno ∨
        (s.sock.seqno - buf.headSeqno).toNat + data.length ≤ buf.dataLen))
  | .segment _ _ seg => inferInstanceAs (Decidable (Proc.Within s.sock seg.hdr.ackno))

namespace Session

/-- A connection that was just opened over the memory `mem`. A passive open counts the SYN among
the numbers from the head on, which takes a byte of the ring. -/
structure Opened (hdrSize : Nat) (mem : List UInt8) (s : Session) : Prop where
  state : s.sock.state = .established
  txBuf : ∃ buf, CircBuf.init hdrSize mem (Proc.iss + 1) = some buf ∧ s.sock.txBuf = some buf ∧
    (s.sock.seqno = Proc.iss + 1 ∨ s.sock.seqno = Proc.iss + 2 ∧ 0 < buf.dataLen)
  txBufLen : s.sock.txBufLen = mem.length
  sent : s.sent = []
  acked : s.acked = 0

/-- Every accepted byte that is not acknowledged can be read back at its number. -/
def Intact (s : Session) : Prop :=
  ∃ buf, s.sock.txBuf = some buf ∧ ∀ i n, s.acked ≤ i → i + n ≤ s.sent.length →
    buf.read (s.isn + .ofNat i) n = .ok ((s.sent.drop i).take n)

/-- The transmit buffer holds what is not acknowledged. -/
structure Kept (s : Session) : Prop where
  state : s.sock.state = .established ∨ s.sock.state = .closeWait
  acked : s.acked ≤ s.sent.length
  sends : ∃ held buf, s.sent.drop s.acked <:+ held ∧ Proc.Sends held s.sock buf

theorem Opened.to_kept {hdrSize : Nat} {mem : List UInt8} {s : Session}
    (h : s.Opened hdrSize mem) : s.Kept := by
  obtain ⟨buf, hinit, hbuf, hseqno⟩ := h.txBuf
  have hhead : buf.headSeqno = Proc.iss + 1 := by
    unfold CircBuf.init at hinit
    split at hinit
    · cases hinit
    · cases hinit
      rfl
  refine ⟨.inl h.state, by rw [h.acked]; exact Nat.zero_le _, ?_⟩
  simp only [h.sent, List.drop_nil, List.nil_suffix, true_and]
  rcases hseqno with hseqno | ⟨hseqno, hroom⟩
  · refine ⟨[], buf, hbuf, ⟨Nat.zero_le _, List.take_zero⟩, ?_⟩
    rw [hhead, hseqno]
    rfl
  · have hlen : (buf.view.take 1).length = 1 := by
      rw [List.length_take, CircBuf.view, Circular.length_view buf.head_le]
      exact Nat.min_eq_left hroom
    refine ⟨buf.view.take 1, buf, hbuf, ⟨hlen.symm ▸ hroom, by rw [hlen]⟩, ?_⟩
    rw [hlen, hhead, hseqno]
    rfl

/-- The number of an accepted byte, from the head of the buffer. -/
theorem Kept.number {s : Session} (hacked : s.acked ≤ s.sent.length) {front : List UInt8}
    {buf : CircBuf} (h : Proc.Sends (front ++ s.sent.drop s.acked) s.sock buf) {i : Nat}
    (hi : s.acked ≤ i) :
    s.isn + .ofNat i = buf.headSeqno + .ofNat (front.length + (i - s.acked)) := by
  have hseqno := h.seqno
  have hsplit : s.sent.length = (s.sent.length - s.acked) + s.acked := by omega
  have hsplit' : i = (i - s.acked) + s.acked := by omega
  rw [List.length_append, List.length_drop, UInt32.ofNat_add] at hseqno
  have hsent : UInt32.ofNat s.sent.length =
      .ofNat (s.sent.length - s.acked) + .ofNat s.acked := by
    rw [← UInt32.ofNat_add, ← hsplit]
  have hnum : UInt32.ofNat i = .ofNat (i - s.acked) + .ofNat s.acked := by
    rw [← UInt32.ofNat_add, ← hsplit']
  rw [isn, hnum, UInt32.ofNat_add]
  grind

theorem Kept.intact {s : Session} (h : s.Kept) : s.Intact := by
  obtain ⟨held, buf, ⟨front, rfl⟩, hsends⟩ := h.sends
  refine ⟨buf, hsends.txBuf, ?_⟩
  intro i n hi hn
  have hlen : front.length + (i - s.acked) + n ≤ (front ++ s.sent.drop s.acked).length := by
    rw [List.length_append, List.length_drop]
    omega
  rw [hsends.holds.read hlen (Kept.number h.acked hsends hi), List.drop_append,
    List.drop_of_length_le (Nat.le_add_right _ _), List.nil_append, Nat.add_sub_cancel_left,
    List.drop_drop, Nat.add_sub_cancel' hi]

theorem ackedBy_bounds {s : Session} (hacked : s.acked ≤ s.sent.length) (ackno : UInt32) :
    s.acked ≤ s.ackedBy ackno ∧ s.ackedBy ackno ≤ s.sent.length := by
  unfold ackedBy
  dsimp only
  split <;> omega

/-- An acknowledgement that reaches into the data acknowledges what is in front of it. -/
theorem Kept.ackedBy_ge {s : Session} (hacked : s.acked ≤ s.sent.length) {front : List UInt8}
    {buf : CircBuf} (h : Proc.Sends (front ++ s.sent.drop s.acked) s.sock buf) {ackno : UInt32}
    {j : Nat} (hj : j ≤ (front ++ s.sent.drop s.acked).length)
    (hackno : ackno = buf.headSeqno + .ofNat j) :
    s.acked + (j - front.length) ≤ s.ackedBy ackno := by
  have hshort := buf.data_short
  have hfits : (front ++ s.sent.drop s.acked).length ≤ buf.data.length := h.holds.fits
  by_cases hreach : front.length ≤ j
  · have hfirst := Kept.number hacked h (Nat.le_refl s.acked)
    rw [Nat.sub_self, Nat.add_zero] at hfirst
    rw [List.length_append, List.length_drop] at hj hfits
    rw [ackedBy, toNat_sub_offsets hackno hfirst hreach (by omega)]
    exact Nat.le_of_eq (if_pos (by omega)).symm
  · have := (ackedBy_bounds hacked ackno).1
    omega

/-- A segment keeps what it does not acknowledge. -/
theorem Kept.segment {s : Session} (h : s.Kept) {seg : Segment} {p : Proc}
    (hfits : Proc.Within s.sock seg.hdr.ackno) (heffect : Proc.Effect seg ⟨s.sock, [], 0⟩ p)
    (recvd : List UInt8) :
    Kept { s with sock := p.sock, recvd := recvd, acked := s.ackedBy seg.hdr.ackno } := by
  obtain ⟨held, buf, hsuffix, hsends⟩ := h.sends
  obtain ⟨hle, hle'⟩ := ackedBy_bounds h.acked seg.hdr.ackno
  have hstate : p.sock.state = .established ∨ p.sock.state = .closeWait := by
    rcases heffect.state with hstate | hstate
    · exact hstate.symm ▸ h.state
    · exact .inr hstate
  have hrest : s.sent.drop (s.ackedBy seg.hdr.ackno) <:+ s.sent.drop s.acked := by
    rw [← Nat.add_sub_cancel' hle, ← List.drop_drop]
    exact List.drop_suffix _ _
  refine ⟨hstate, hle', ?_⟩
  rcases heffect.txBuf with hsame | ⟨buf₀, buf', hbuf₀, hnew, hshorten, hbuf'⟩
  · exact ⟨held, buf, hrest.trans hsuffix, hsame.trans hsends.txBuf, hsends.holds,
      heffect.seqno.trans hsends.seqno⟩
  · obtain rfl := Option.some.inj (hbuf₀.symm.trans hsends.txBuf)
    have hfit : held.length ≤ buf₀.data.length := hsends.holds.fits
    have hshort := buf₀.data_short
    have hj := hfits buf₀ hsends.txBuf hnew
    rw [toNat_sub_offsets hsends.seqno (UInt32.add_zero _).symm (Nat.zero_le _) (by omega),
      Nat.sub_zero] at hj
    have hackno := eq_add_ofNat_sub seg.hdr.ackno buf₀.headSeqno
    generalize (seg.hdr.ackno - buf₀.headSeqno).toNat = j at hj hackno
    obtain ⟨b, hb, hholds, hhead, -⟩ := hsends.holds.shortenHead hj hackno
    obtain rfl := Option.some.inj (hshorten.symm.trans hb)
    refine ⟨held.drop j, buf', ?_, hbuf', hholds, ?_⟩
    · refine List.suffix_of_suffix_length_le (hrest.trans hsuffix) (List.drop_suffix j held) ?_
      obtain ⟨front, rfl⟩ := hsuffix
      have hge := Kept.ackedBy_ge h.acked hsends hj hackno
      rw [List.length_append, List.length_drop] at hj
      simp only [List.length_drop, List.length_append]
      omega
    · have hsplit : UInt32.ofNat held.length = .ofNat j + .ofNat (held.length - j) := by
        rw [← UInt32.ofNat_add, Nat.add_sub_cancel' hj]
      rw [List.length_drop, hhead, hackno, UInt32.add_assoc, ← hsplit]
      exact heffect.seqno.trans hsends.seqno

/-- Sending keeps what is not acknowledged, and what it accepts. -/
theorem Kept.send {s : Session} (h : s.Kept) {hdrSize : Nat} {data : List UInt8}
    (hfits : Event.Fits s (.send data)) :
    ∃ s', s.step hdrSize (.send data) = some s' ∧ s'.Kept := by
  have hrefused : tcplibSend s.sock data = some (-1, s.sock) →
      ∃ s', s.step hdrSize (.send data) = some s' ∧ s'.Kept := by
    intro hsend
    refine ⟨s, ?_, h⟩
    rw [step, hsend]
    rfl
  obtain ⟨held, buf, hsuffix, hsends⟩ := h.sends
  rcases hfits with hstate | hfits
  · exact hrefused (if_pos hstate)
  by_cases hstate : s.sock.state ≠ .established
  · exact hrefused (if_pos hstate)
  by_cases hadm : .ofNat s.sock.txBufLen < s.sock.seqno - buf.headSeqno + .ofNat data.length
  · refine hrefused ?_
    rw [tcplibSend, if_neg hstate, hsends.txBuf]
    exact if_pos hadm
  have hwrite : buf.write s.sock.seqno data = .error .rejected ∨
      ∃ b', buf.write s.sock.seqno data = .ok b' ∧ b'.Holds (held ++ data) ∧
        b'.headSeqno = buf.headSeqno ∧ b'.dataLen = buf.dataLen := by
    have hfit : held.length ≤ buf.data.length := hsends.holds.fits
    have hshort := buf.data_short
    rcases hfits buf hsends.txBuf with hfits | hfits | hfits
    · exact absurd hfits hadm
    · exact .inl (if_pos hfits)
    · rw [toNat_sub_offsets hsends.seqno (UInt32.add_zero _).symm (Nat.zero_le _) (by omega)]
        at hfits
      exact hsends.holds.write hfits hsends.seqno
  rcases hwrite with hwrite | ⟨b', hwrite, hholds, hhead, -⟩
  · refine hrefused ?_
    rw [tcplibSend, if_neg hstate, hsends.txBuf]
    dsimp only
    rw [if_neg hadm, hwrite]
  · have hsend : tcplibSend s.sock data = some (0, { s.sock with
        txBuf := some b', seqno := s.sock.seqno + .ofNat data.length, retx := 1 }) := by
      rw [tcplibSend, if_neg hstate, hsends.txBuf]
      dsimp only
      rw [if_neg hadm, hwrite]
    have hstep : s.step hdrSize (.send data) = some { s with
        sock := { s.sock with
          txBuf := some b', seqno := s.sock.seqno + .ofNat data.length, retx := 1 }
        sent := s.sent ++ data } := by
      rw [step, hsend]
      rfl
    refine ⟨_, hstep, h.state, ?_, held ++ data, b', ?_, rfl, hholds, ?_⟩
    · exact Nat.le_trans h.acked (by simp)
    · obtain ⟨front, rfl⟩ := hsuffix
      exact ⟨front, by simp [List.drop_append_of_le_length h.acked]⟩
    · rw [hhead, List.length_append, UInt32.ofNat_add, ← UInt32.add_assoc, ← hsends.seqno]

theorem Kept.step {s : Session} (h : s.Kept) {hdrSize : Nat} {e : Event} (hfits : e.Fits s) :
    ∃ s', s.step hdrSize e = some s' ∧ s'.Kept := by
  cases e with
  | segment mem accept seg =>
    obtain ⟨held, buf, -, hsends⟩ := h.sends
    obtain ⟨p, hp⟩ := Option.isSome_iff_exists.1
      (process_isSome h.state hsends hfits)
    refine ⟨_, by rw [Session.step, hp]; rfl, h.segment hfits (process_established h.state hp) _⟩
  | send data => exact h.send hfits

/-- **Accepted data stays intact** in every state of a run whose steps fit, and a step that fits is
defined. -/
theorem accepted_intact {hdrSize : Nat} {mem : List UInt8} {h : List (Session × Event)}
    {s : Session} (hr : (machine hdrSize (Opened hdrSize mem)).Run h s)
    (hfits : ∀ st ∈ h, st.2.Fits st.1) :
    s.Intact ∧ (∀ st ∈ h, st.1.Intact) ∧
      ∀ e : Event, e.Fits s → ∃ s', s.step hdrSize e = some s' := by
  have hall : s.Kept ∧ ∀ st ∈ h, st.1.Kept := by
    refine hr.inv_of_steps (C := fun s e => Event.Fits s e) (fun _ hs => Opened.to_kept hs) ?_ hfits
    intro s e s' hs he hst
    obtain ⟨s₁, hs₁, hkept⟩ := hs.step he
    obtain rfl := Option.some.inj (hs₁.symm.trans hst)
    exact hkept
  obtain ⟨hkept, hhist⟩ := hall
  refine ⟨hkept.intact, fun st hst => (hhist st hst).intact, ?_⟩
  intro e he
  obtain ⟨s', hs', -⟩ := hkept.step he
  exact ⟨s', hs'⟩

/-- A socket that has just connected, with a ring of eight bytes. -/
def connected : Session where
  sock :=
    { flags := 0
      state := .established
      txBuf := CircBuf.init 24 (List.replicate 32 0) (Proc.iss + 1)
      txBufLen := 32
      mss := 100
      myWind := 200
      rWind := 200
      cwnd := 100
      ssthresh := 400
      seqno := Proc.iss + 1
      ackno := 1
      retx := 0 }
  recvd := []
  sent := []
  acked := 0

theorem connected_opened : connected.Opened 24 (List.replicate 32 0) where
  state := rfl
  txBuf := ⟨_, rfl, rfl, .inl rfl⟩
  txBufLen := rfl
  sent := rfl
  acked := rfl

/-- The second send wraps. -/
theorem accepted_intact_wrapped : ∃ h s,
    (machine 24 (Opened 24 (List.replicate 32 0))).Run h s ∧
      s.sent = [1, 2, 3, 4, 5, 6, 7, 8, 9, 10] ∧ s.acked = 4 ∧ s.Intact := by
  obtain ⟨h, s, hr, hp⟩ := Machine.exists_run_of_exec
    (M := machine 24 (Opened 24 (List.replicate 32 0))) connected_opened
    [.send [1, 2, 3, 4, 5, 6],
      .segment (fun _ => true) none
        { exampleSegment 1 [] with
          hdr := { (exampleSegment 1 []).hdr with ackno := Proc.iss + 5 } },
      .send [7, 8, 9, 10]]
    (fun h s => s.sent = [1, 2, 3, 4, 5, 6, 7, 8, 9, 10] && s.acked = 4 &&
      h.all fun st => st.2.Fits st.1) (by decide +kernel)
  simp only [Bool.and_eq_true, decide_eq_true_iff, List.all_eq_true] at hp
  exact ⟨h, s, hr, hp.1.1, hp.1.2, (accepted_intact hr hp.2).1⟩

/-- **A byte that is not acknowledged is overwritten**: `tcplib_send` accepts a ninth byte for a
ring of eight. -/
theorem accepted_overwritten : ∃ h s,
    (machine 24 (Opened 24 (List.replicate 32 0))).Run h s ∧ ¬s.Intact := by
  obtain ⟨h, s, hr, hp⟩ := Machine.exists_run_of_exec
    (M := machine 24 (Opened 24 (List.replicate 32 0))) connected_opened
    [.send [1, 2, 3, 4, 5, 6, 7, 8], .send [9]]
    (fun _ s => s.acked = 0 && s.sent = [1, 2, 3, 4, 5, 6, 7, 8, 9] &&
      s.sock.txBuf.all fun buf => buf.read (s.isn + 0) 1 = .ok [9]) (by decide)
  simp only [Bool.and_eq_true, decide_eq_true_iff, Option.all_eq_true] at hp
  refine ⟨h, s, hr, ?_⟩
  rintro ⟨buf, hbuf, hread⟩
  have hfirst := hread 0 1 (by omega) (by rw [hp.1.2]; decide)
  rw [hp.1.2] at hfirst
  cases (hp.2 buf hbuf).symm.trans hfirst

end Session

end Tcp
