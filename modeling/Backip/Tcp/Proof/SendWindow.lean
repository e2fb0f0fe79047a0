import Backip.Tcp.Proof.Unacked
import Mathlib.Tactic.ByContra

/-!
# The head of the transmit ring against the numbers sent

`Sending` counts the bytes that an established socket has accepted and those of them that the peer
has acknowledged. `tcplib_process` moves the head of the ring to any number above it, and to none
below: `window_ordered_iff` says for which segments the ring agrees with the counts.
-/

set_option autoImplicit false

namespace Tcp

/-! ## What moves the head -/

theorem CircBuf.headSeqno_shortenHead {b b' : CircBuf} {seqno : UInt32}
    (h : b.shortenHead seqno = some b') : b'.headSeqno = seqno := by
  unfold shortenHead at h
  split at h
  · cases h
  · split at h
    · cases h
    · cases h
      rfl

theorem CircBuf.headSeqno_store {b b' : CircBuf} {ptr : Int} {bytes : List UInt8}
    (h : b.store ptr bytes = .ok b') : b'.headSeqno = b.headSeqno := by
  unfold store at h
  split at h
  · cases h
  · cases h
    rfl

theorem CircBuf.headSeqno_write {b b' : CircBuf} {seqno : UInt32} {bytes : List UInt8}
    (h : b.write seqno bytes = .ok b') : b'.headSeqno = b.headSeqno := by
  unfold write at h
  split at h
  · cases h
  · split at h
    · cases h
      rfl
    · dsimp only at h
      split at h
      · cases h
      · obtain ⟨b₁, hfirst, hrest⟩ := Buffer.bind_eq_ok.1 h
        split at hrest
        · exact (headSeqno_store hrest).trans (headSeqno_store hfirst)
        · cases hrest
          exact headSeqno_store hfirst

namespace Proc

variable {mem : List Output → Bool}

/-- The buffer of `p'` is that of `p`, its head moved as a segment with `moves` does. -/
def Moved (seg : Segment) (moves : CircBuf → Prop) [DecidablePred moves] (s s' : Sock) : Prop :=
  ∀ buf, s.txBuf = some buf → ∃ buf', s'.txBuf = some buf' ∧
    buf'.headSeqno = if moves buf then seg.hdr.ackno else buf.headSeqno

theorem ackPart_moved {p p' : Proc} {seg : Segment} (h : p.ackPart mem seg = some p') :
    Moved seg (fun buf => buf.headSeqno < seg.hdr.ackno) p.sock p'.sock := by
  intro buf hbuf
  obtain ⟨-, -, -, -, -, buf₀, hbuf₀, hmoved⟩ := ackPart_spec h
  obtain rfl := Option.some.inj (hbuf.symm.trans hbuf₀)
  rcases hmoved with ⟨hold, hsame⟩ | ⟨buf', hnew, hshort, hbuf'⟩
  · exact ⟨buf, hsame, (if_neg hold).symm⟩
  · exact ⟨buf', hbuf', by rw [if_pos hnew, CircBuf.headSeqno_shortenHead hshort]⟩

theorem transfer_moved {p p' : Proc} {seg : Segment} (h : p.transfer mem seg = some p') :
    Moved seg (fun buf => (p.sock.state = .established ∨ p.sock.state = .finWait1) ∧
      buf.headSeqno < seg.hdr.ackno) p.sock p'.sock := by
  intro buf hbuf
  unfold transfer at h
  split at h
  · rename_i hstate
    obtain ⟨q, hack, rfl⟩ := Option.map_eq_some_iff.1 h
    have hpend : Quiet p (if 0 < seg.payloadLen then p.setFlags (p.sock.flags + 1) else p) := by
      split
      · exact p.setFlags_quiet _
      · exact .refl p
    obtain ⟨buf', hbuf', hhead⟩ := ackPart_moved hack buf (hpend.txBuf.trans hbuf)
    have hdata : (q.dataPart mem seg).sock.txBuf = some buf' :=
      (q.dataPart_spec mem seg).1.txBuf.trans hbuf'
    refine ⟨buf', ?_, ?_⟩
    · dsimp only
      split
      · exact hdata
      · exact hdata
    · simpa only [hstate, true_and] using hhead
  · rename_i hstate
    cases h
    exact ⟨buf, hbuf, (if_neg (fun hmoves => hstate hmoves.1)).symm⟩

theorem timeWaitPart_txBuf (p : Proc) (seg : Segment) :
    (p.timeWaitPart mem seg).sock.txBuf = p.sock.txBuf := by
  unfold timeWaitPart
  split
  · have hack := (p.sendAck_quiet mem (seg.payloadLen == 0 && seg.has tcpFlagFin) tcpFlagAck).txBuf
    dsimp only
    split
    · exact hack
    · exact hack
  · rfl

theorem establishedPart_moved {p p' : Proc} {seg : Segment} {done : Bool}
    (h : p.establishedPart mem seg done = some p') :
    Moved seg (fun buf => (p.sock.state = .established ∨ p.sock.state = .finWait1) ∧
      buf.headSeqno < seg.hdr.ackno) p.sock p'.sock := by
  intro buf hbuf
  obtain ⟨q, hq, rfl⟩ := Option.map_eq_some_iff.1 h
  obtain ⟨buf', hbuf', hhead⟩ := transfer_moved hq buf hbuf
  refine ⟨buf', ?_, hhead⟩
  dsimp only
  rw [timeWaitPart_txBuf]
  split
  · exact hbuf'
  · exact hbuf'

end Proc

/-- **What a segment does to the head**: on an established socket, a number above it moves it. -/
theorem process_moved {mem : List Output → Bool} {hdrSize : Nat} {accept : Option (List UInt8)}
    {s : Sock} {seg : Segment} {p : Proc} (hs : s.state = .established ∨ s.state = .closeWait)
    (h : process mem hdrSize accept s seg = some p) :
    Proc.Moved seg (fun buf => seg.has tcpFlagRst = false ∧ s.state = .established ∧
      buf.headSeqno < seg.hdr.ackno) s p.sock := by
  intro buf hbuf
  unfold process at h
  dsimp only at h
  split at h
  · rename_i hrst
    cases h
    exact ⟨buf, hbuf, (if_neg (fun hmoves => by simp [hrst] at hmoves)).symm⟩
  · rename_i hrst
    have hpart : (Proc.establishedPart mem ⟨{ s with rWind := seg.hdr.window }, [], 0⟩ seg
        false) = some p := by
      rcases hs with hs | hs <;> simpa only [hs] using h
    obtain ⟨buf', hbuf', hhead⟩ := Proc.establishedPart_moved hpart buf hbuf
    refine ⟨buf', hbuf', hhead.trans ?_⟩
    have hnot : seg.has tcpFlagRst = false := by simpa using hrst
    rcases hs with hs | hs <;> simp [hs, hnot]

/-! ## Counting bytes -/

/-- An established socket: `first` is the number of the first byte sent, `accepted` counts the bytes
taken by `tcplib_send` and `acked` those that the peer has acknowledged. -/
structure Sending where
  sock : Sock
  first : UInt32
  accepted : Nat
  acked : Nat

namespace Sending

/-- The bytes that a segment acknowledges: of those accepted, the ones before its number. -/
def ackedBy (s : Sending) (seg : Segment) : Nat :=
  let k := (seg.hdr.ackno - (s.first + .ofNat s.acked)).toNat
  if seg.has tcpFlagRst = false ∧ seg.has tcpFlagAck ∧ k ≤ s.accepted - s.acked then k else 0

/-- The `len` of `tcplib_send` is an `int`. -/
def step (hdrSize : Nat) (s : Sending) : Event → Option Sending
  | .segment mem accept seg =>
    (process mem hdrSize accept s.sock seg).map fun p =>
      { s with sock := p.sock, acked := s.acked + s.ackedBy seg }
  | .send data =>
    if 2 ^ 31 ≤ data.length then none
    else
      (tcplibSend s.sock data).map fun (rc, sock) =>
        { s with
          sock := sock
          accepted := if rc = 0 then s.accepted + data.length else s.accepted }

/-- A connection on which nothing has been sent. -/
structure Idle (s : Sending) : Prop where
  state : s.sock.state = .established
  txBuf : ∃ buf, s.sock.txBuf = some buf ∧ buf.headSeqno = s.sock.seqno
  txBufLen : s.sock.txBufLen < 2 ^ 31
  first : s.first = s.sock.seqno
  accepted : s.accepted = 0
  acked : s.acked = 0

def machine (hdrSize : Nat) : Machine Sending Event where
  init := Idle
  step := step hdrSize

/-- The head of the ring is not behind the next number, and what lies between them are the bytes
accepted and not acknowledged. -/
def Ordered (s : Sending) : Prop :=
  ∃ buf, s.sock.txBuf = some buf ∧ (s.sock.seqno - buf.headSeqno).toNat < 2 ^ 31 ∧
    (s.sock.seqno - buf.headSeqno).toNat = s.accepted - s.acked

/-- A segment moves the head exactly when it acknowledges bytes in flight. -/
def Heeds (s : Sending) : Event → Prop
  | .segment _ _ seg => seg.has tcpFlagRst = false → ∀ buf, s.sock.txBuf = some buf →
    (s.sock.state = .established ∧ buf.headSeqno < seg.hdr.ackno ↔
      seg.has tcpFlagAck ∧ seg.hdr.ackno ≠ buf.headSeqno ∧
        (seg.hdr.ackno - buf.headSeqno).toNat ≤ (s.sock.seqno - buf.headSeqno).toNat)
  | .send _ => True

/-- The ring and the counts agree. -/
structure Counted (s : Sending) : Prop where
  state : s.sock.state = .established ∨ s.sock.state = .closeWait
  txBufLen : s.sock.txBufLen < 2 ^ 31
  acked : s.acked ≤ s.accepted
  short : s.accepted - s.acked < 2 ^ 31
  ring : ∃ buf, s.sock.txBuf = some buf ∧ buf.headSeqno = s.first + .ofNat s.acked ∧
    s.sock.seqno = buf.headSeqno + .ofNat (s.accepted - s.acked)

variable {s s' : Sending}

theorem Idle.counted (h : s.Idle) : s.Counted := by
  obtain ⟨buf, hbuf, hhead⟩ := h.txBuf
  refine ⟨.inl h.state, h.txBufLen, ?_, ?_, buf, hbuf, ?_, ?_⟩
  · rw [h.acked]
    exact Nat.zero_le _
  · rw [h.accepted, h.acked]
    decide
  · rw [h.first, h.acked, hhead]
    exact (UInt32.add_zero _).symm
  · rw [h.accepted, h.acked, hhead]
    exact (UInt32.add_zero _).symm

theorem Counted.ordered (h : s.Counted) : s.Ordered := by
  obtain ⟨buf, hbuf, -, hseqno⟩ := h.ring
  have hshort := h.short
  have hused := sub_of_eq_add hseqno (by omega)
  exact ⟨buf, hbuf, by rw [hused]; exact hshort, hused⟩

/-- Sending moves both counts of what is in flight. -/
theorem Counted.send (h : s.Counted) {hdrSize : Nat} {data : List UInt8}
    (hs : s.step hdrSize (.send data) = some s') : s'.Counted := by
  obtain ⟨buf, hbuf, hhead, hseqno⟩ := h.ring
  have hshort := h.short
  have hlen := h.txBufLen
  have hacked := h.acked
  rw [step] at hs
  split at hs
  · cases hs
  rename_i hint
  obtain ⟨⟨rc, sock⟩, hsend, rfl⟩ := Option.map_eq_some_iff.1 hs
  have hrefused : (rc, sock) = (-1, s.sock) → Counted { s with
      sock := sock, accepted := if rc = 0 then s.accepted + data.length else s.accepted } := by
    intro heq
    cases heq
    exact h
  unfold tcplibSend at hsend
  split at hsend
  · exact hrefused (Option.some.inj hsend).symm
  rw [hbuf] at hsend
  dsimp only at hsend
  split at hsend
  · exact hrefused (Option.some.inj hsend).symm
  rename_i hadm
  split at hsend
  · exact hrefused (Option.some.inj hsend).symm
  · cases hsend
  · rename_i buf' hwrite
    cases hsend
    have hused := sub_of_eq_add hseqno (by omega)
    have hfit : s.accepted - s.acked + data.length ≤ s.sock.txBufLen := by
      rw [UInt32.lt_iff_toNat_lt, UInt32.toNat_add, hused, UInt32.toNat_ofNat',
        UInt32.toNat_ofNat'] at hadm
      omega
    have hsplit : s.accepted + data.length - s.acked = s.accepted - s.acked + data.length := by
      omega
    refine ⟨h.state, hlen, ?_, ?_, buf', rfl, ?_, ?_⟩
    · dsimp only
      rw [if_pos rfl]
      omega
    · dsimp only
      rw [if_pos rfl]
      omega
    · rw [CircBuf.headSeqno_write hwrite, hhead]
    · dsimp only
      rw [if_pos rfl, hsplit, UInt32.ofNat_add, CircBuf.headSeqno_write hwrite, ← UInt32.add_assoc,
        ← hseqno]

/-- Where the head moves by as much as is acknowledged, the counts stay right. -/
theorem Counted.moved (h : s.Counted) {sock : Sock} {k : Nat}
    (hstate : sock.state = s.sock.state ∨ sock.state = .closeWait)
    (hseqno : sock.seqno = s.sock.seqno) (hlen : sock.txBufLen = s.sock.txBufLen)
    (hk : k ≤ s.accepted - s.acked)
    (hmoved : ∀ buf, s.sock.txBuf = some buf → ∃ buf', sock.txBuf = some buf' ∧
      buf'.headSeqno = buf.headSeqno + .ofNat k) :
    Counted { s with sock := sock, acked := s.acked + k } := by
  obtain ⟨buf, hbuf, hhead, hnum⟩ := h.ring
  have hshort := h.short
  have hacked := h.acked
  obtain ⟨buf', hbuf', hhead'⟩ := hmoved buf hbuf
  refine ⟨?_, ?_, ?_, ?_, buf', hbuf', ?_, ?_⟩
  · rcases hstate with hstate | hstate
    · exact hstate.symm ▸ h.state
    · exact .inr hstate
  · exact hlen.symm ▸ h.txBufLen
  · dsimp only
    omega
  · dsimp only
    omega
  · dsimp only
    rw [hhead', hhead, UInt32.ofNat_add, UInt32.add_assoc]
  · have hsplit : UInt32.ofNat (s.accepted - s.acked) =
        .ofNat k + .ofNat (s.accepted - (s.acked + k)) := by
      rw [← UInt32.ofNat_add]
      congr 1
      omega
    dsimp only
    rw [hseqno, hnum, hhead', hsplit, UInt32.add_assoc]

/-- A segment keeps the counts right if it heeds them, and only then the ring. -/
theorem Counted.segment (h : s.Counted) {hdrSize : Nat} {mem : List Output → Bool}
    {accept : Option (List UInt8)} {seg : Segment}
    (hs : s.step hdrSize (.segment mem accept seg) = some s') :
    (s.Heeds (.segment mem accept seg) → s'.Counted) ∧
      (s'.Ordered → s.Heeds (.segment mem accept seg)) := by
  obtain ⟨buf, hbuf, hhead, hseqno⟩ := h.ring
  have hshort := h.short
  have hused := sub_of_eq_add hseqno (by omega)
  obtain ⟨p, hp, rfl⟩ := Option.map_eq_some_iff.1 hs
  have heffect := process_established h.state hp
  obtain ⟨buf', hbuf', hhead'⟩ := process_moved h.state hp buf hbuf
  have hacked : s.ackedBy seg = if seg.has tcpFlagRst = false ∧ seg.has tcpFlagAck ∧
      (seg.hdr.ackno - buf.headSeqno).toNat ≤ s.accepted - s.acked
      then (seg.hdr.ackno - buf.headSeqno).toNat else 0 := by
    rw [ackedBy, ← hhead]
  have hackno := eq_add_ofNat_sub seg.hdr.ackno buf.headSeqno
  have hnone : ∀ n : Nat, n = 0 → buf.headSeqno + UInt32.ofNat n = buf.headSeqno := by
    rintro n rfl
    exact UInt32.add_zero _
  have hheeds : s.Heeds (.segment mem accept seg) ↔ (seg.has tcpFlagRst = false →
      (s.sock.state = .established ∧ buf.headSeqno < seg.hdr.ackno ↔
        seg.has tcpFlagAck ∧ seg.hdr.ackno ≠ buf.headSeqno ∧
          (seg.hdr.ackno - buf.headSeqno).toNat ≤ s.accepted - s.acked)) := by
    rw [Heeds]
    refine imp_congr_right fun _ => ⟨fun hall => hused ▸ hall buf hbuf, fun hone b hb => ?_⟩
    obtain rfl := Option.some.inj (hbuf.symm.trans hb)
    exact hused.symm ▸ hone
  generalize (seg.hdr.ackno - buf.headSeqno).toNat = j at hacked hackno hheeds
  rw [hheeds]
  constructor
  · intro hiff
    refine h.moved heffect.state heffect.seqno heffect.txBufLen ?_ ?_
    · rw [hacked]
      split
      · rename_i hack
        exact hack.2.2
      · exact Nat.zero_le _
    · intro b hb
      obtain rfl := Option.some.inj (hbuf.symm.trans hb)
      refine ⟨buf', hbuf', hhead'.trans ?_⟩
      rw [hacked]
      split
      · rename_i hmoves
        obtain ⟨hack, -, hj⟩ := (hiff hmoves.1).1 hmoves.2
        rw [if_pos ⟨hmoves.1, hack, hj⟩]
        exact hackno
      · rename_i hstays
        split
        · rename_i hack
          -- what it acknowledges is nothing
          by_contra hne
          refine hstays ⟨hack.1, (hiff hack.1).2 ⟨hack.2.1, fun heq => hne ?_, hack.2.2⟩⟩
          rw [← hackno, heq]
        · exact (hnone 0 rfl).symm
  · rintro ⟨b, hb, -, hsame⟩ hrst
    obtain rfl := Option.some.inj (hbuf'.symm.trans hb)
    dsimp only at hsame
    rw [heffect.seqno, hhead', hacked, Nat.sub_add_eq] at hsame
    dsimp only at hsame
    constructor
    · intro hmoves
      have hne : seg.hdr.ackno ≠ buf.headSeqno := by
        intro heq
        exact UInt32.lt_irrefl _ (heq ▸ hmoves.2)
      rw [if_pos ⟨hrst, hmoves⟩] at hsame
      by_contra hack
      rw [if_neg (fun hyes => hack ⟨hyes.2.1, hne, hyes.2.2⟩), Nat.sub_zero, ← hused] at hsame
      exact hne (by
        have := UInt32.toNat_inj.1 hsame
        grind)
    · rintro ⟨hack, hne, hj⟩
      by_contra hstays
      rw [if_neg (fun hmoves => hstays hmoves.2), if_pos ⟨hrst, hack, hj⟩, hused] at hsame
      exact hne (hackno.trans (hnone j (by omega)))

/-- **The send window is ordered**, in every state of a run, exactly when every segment moves the
head of the ring just when it acknowledges bytes in flight. -/
theorem window_ordered_iff {hdrSize : Nat} {h : List (Sending × Event)}
    (hr : (machine hdrSize).Run h s) :
    (s.Ordered ∧ ∀ p ∈ h, p.1.Ordered) ↔ ∀ p ∈ h, p.1.Heeds p.2 := by
  refine hr.forall_iff_of_strong (J := Counted) (fun _ hi => Idle.counted hi)
    (fun _ hc => hc.ordered) ?_ ?_
  · intro t e t' hc hheeds hs
    cases e with
    | segment mem accept seg => exact (hc.segment hs).1 hheeds
    | send data => exact @Counted.send t t' hc hdrSize data hs
  · intro t e t' hc hs hordered
    cases e with
    | segment mem accept seg => exact (hc.segment hs).2 hordered
    | send data => trivial

instance (s : Sending) (e : Event) : Decidable (s.Heeds e) :=
  match e with
  | .segment _ _ seg =>
    inferInstanceAs (Decidable (seg.has tcpFlagRst = false → ∀ buf ∈ s.sock.txBuf,
      (s.sock.state = .established ∧ buf.headSeqno < seg.hdr.ackno ↔
        seg.has tcpFlagAck ∧ seg.hdr.ackno ≠ buf.headSeqno ∧
          (seg.hdr.ackno - buf.headSeqno).toNat ≤ (s.sock.seqno - buf.headSeqno).toNat)))
  | .send _ => inferInstanceAs (Decidable True)

/-- A connection with a ring of eight bytes. -/
def connected : Sending where
  sock := Session.connected.sock
  first := Proc.iss + 1
  accepted := 0
  acked := 0

theorem connected_idle : connected.Idle where
  state := rfl
  txBuf := ⟨_, rfl, rfl⟩
  txBufLen := by decide
  first := rfl
  accepted := rfl
  acked := rfl

/-- Six bytes are sent and four of them acknowledged. -/
theorem window_ordered_acked : ∃ h s, (machine 24).Run h s ∧ s.accepted = 6 ∧ s.acked = 4 ∧
    s.Ordered := by
  obtain ⟨h, s, hr, hp⟩ := Machine.exists_run_of_exec (M := machine 24) connected_idle
    [.send [1, 2, 3, 4, 5, 6],
      .segment (fun _ => true) none
        { Session.exampleSegment 1 [] with
          hdr := { (Session.exampleSegment 1 []).hdr with ackno := Proc.iss + 5 } }]
    (fun h s => s.accepted = 6 && s.acked = 4 && decide (∀ st ∈ h, st.1.Heeds st.2))
    (by decide +kernel)
  simp only [Bool.and_eq_true, decide_eq_true_iff] at hp
  exact ⟨h, s, hr, hp.1.1, hp.1.2, ((window_ordered_iff hr).2 hp.2).1⟩

/-- **The head passes the next number**: nothing is sent, and a hundredth byte is acknowledged. -/
theorem window_passed : ∃ h s, (machine 24).Run h s ∧ s.accepted = 0 ∧ ¬s.Ordered := by
  obtain ⟨h, s, hr, hp⟩ := Machine.exists_run_of_exec (M := machine 24) connected_idle
    [.segment (fun _ => true) none
      { Session.exampleSegment 1 [] with
        hdr := { (Session.exampleSegment 1 []).hdr with ackno := Proc.iss + 101 } }]
    (fun _ s => s.accepted = 0 && s.sock.txBuf.all fun buf =>
      decide (2 ^ 31 ≤ (s.sock.seqno - buf.headSeqno).toNat)) (by decide +kernel)
  simp only [Bool.and_eq_true, decide_eq_true_iff, Option.all_eq_true] at hp
  refine ⟨h, s, hr, hp.1, ?_⟩
  rintro ⟨buf, hbuf, hlt, -⟩
  exact absurd hlt (Nat.not_lt.2 (hp.2 buf hbuf))

end Sending

end Tcp
