import Backip.Tcp.Proof.Circ
import Backip.Tcp.Tcplib
import Mathlib.Tactic.ByContra
import Mathlib.Algebra.GroupWithZero.Nat

/-!
# The window and `tcplib_output`

`tcplib_output` cuts what stands in the transmit buffer into consecutive segments
(`outputLoop_sends`). The window bounds the first of them; the others are bounded by the size of a
segment alone, so `window_respected_iff` asks for all of the data to fit the window.
-/

set_option autoImplicit false

namespace Tcp

namespace Proc

/-- Segments with consecutive bytes, the first of which has the number `seqno`. -/
def segmentsFrom (ackno seqno : UInt32) : List (List UInt8) → List Output
  | [] => []
  | c :: cs =>
    .segment tcpFlagAck seqno ackno c :: segmentsFrom ackno (seqno + .ofNat c.length) cs

/-- How many bytes are in segments. -/
def dataLen (outs : List Output) : Nat :=
  (outs.map fun
    | .segment _ _ _ data => data.length
    | _ => 0).sum

theorem dataLen_append (outs outs' : List Output) :
    dataLen (outs ++ outs') = dataLen outs + dataLen outs' := by
  simp [dataLen]

theorem dataLen_segmentsFrom (ackno seqno : UInt32) (cs : List (List UInt8)) :
    dataLen (segmentsFrom ackno seqno cs) = cs.flatten.length := by
  induction cs generalizing seqno with
  | nil => rfl
  | cons c cs ih =>
    have htail := ih (seqno + .ofNat c.length)
    rw [dataLen] at htail ⊢
    rw [segmentsFrom, List.map_cons, List.sum_cons, htail, List.flatten_cons, List.length_append]

/-- How many bytes the loop sends where there is memory. -/
def outputLen (seqno : UInt32) (mss : Nat) (sseqno : UInt32) (limit : Nat) : Nat :=
  if sseqno < seqno ∧ 0 < limit then
    if mss = 0 then min (seqno - sseqno).toNat limit else (seqno - sseqno).toNat
  else 0

/-- The first segment, and the others. -/
theorem outputLen_step {seqno : UInt32} {mss : Nat} {sseqno : UInt32} {limit : Nat}
    (hseg : 0 < min (seqno - sseqno).toNat limit ∧ sseqno < seqno) :
    outputLen seqno mss sseqno limit = min (seqno - sseqno).toNat limit +
      outputLen seqno mss (sseqno + .ofNat (min (seqno - sseqno).toNat limit)) mss := by
  have hlt := UInt32.lt_iff_toNat_lt.1 hseg.2
  have hsize := seqno.toNat_lt
  have hdist := UInt32.toNat_sub_of_le _ _ (UInt32.le_of_lt hseg.2)
  have hlimit : 0 < limit := Nat.lt_of_lt_of_le hseg.1 (Nat.min_le_right _ _)
  have hle := Nat.min_le_left (seqno - sseqno).toNat limit
  unfold outputLen
  rw [if_pos ⟨hseg.2, hlimit⟩]
  generalize min (seqno - sseqno).toNat limit = n at *
  have hnext : (sseqno + .ofNat n).toNat = sseqno.toNat + n := by
    rw [UInt32.toNat_add, UInt32.toNat_ofNat_of_lt' (by unfold UInt32.size; omega)]
    exact Nat.mod_eq_of_lt (by omega)
  by_cases hmss : mss = 0
  · rw [if_pos hmss, if_neg (fun hmore => by omega)]
    rfl
  rw [if_neg hmss]
  by_cases hend : sseqno + .ofNat n < seqno
  · rw [if_pos ⟨hend, Nat.pos_of_ne_zero hmss⟩, if_neg hmss,
      UInt32.toNat_sub_of_le _ _ (UInt32.le_of_lt hend), hnext, hdist]
    have hend' := UInt32.lt_iff_toNat_lt.1 hend
    omega
  · rw [if_neg (fun hmore => hend hmore.1)]
    rw [UInt32.lt_iff_toNat_lt, hnext] at hend
    omega

/-- No first segment, no segments. -/
theorem outputLen_stop {seqno : UInt32} {mss : Nat} {sseqno : UInt32} {limit : Nat}
    (hseg : ¬(0 < min (seqno - sseqno).toNat limit ∧ sseqno < seqno)) :
    outputLen seqno mss sseqno limit = 0 := by
  refine if_neg fun hmore => hseg ⟨?_, hmore.1⟩
  have hlt := UInt32.lt_iff_toNat_lt.1 hmore.1
  rw [Nat.lt_min, UInt32.toNat_sub_of_le _ _ (UInt32.le_of_lt hmore.1)]
  exact ⟨Nat.sub_pos_of_lt hlt, hmore.2⟩

variable {mem : List Output → Bool}

/-- **What the loop sends**: consecutive bytes of what the buffer holds, cut into segments, and as
many of them as `outputLen` says where there is memory. -/
theorem outputLoop_sends {buf : CircBuf} {held : List UInt8} (hbuf : buf.Holds held)
    {seqno : UInt32} (hseqno : seqno = buf.headSeqno + .ofNat held.length) {mss : Nat} (p : Proc)
    (sseqno : UInt32) (limit : Nat) {k : Nat} (hk : k ≤ held.length)
    (hsseqno : sseqno = buf.headSeqno + .ofNat k) :
    ∃ p' cs, outputLoop mem buf seqno mss p sseqno limit = some p' ∧
      p'.outs = p.outs ++ segmentsFrom p.sock.ackno sseqno cs ∧
      cs.flatten = (held.drop k).take cs.flatten.length ∧
      cs.flatten.length ≤ outputLen seqno mss sseqno limit ∧
      ((∀ outs, mem outs = true) → cs.flatten.length = outputLen seqno mss sseqno limit) := by
  have hshort := buf.data_short
  have hfits : held.length ≤ buf.data.length := hbuf.fits
  have hdist : ∀ {c : UInt32} {k : Nat}, c = buf.headSeqno + .ofNat k → k ≤ held.length →
      (seqno - c).toNat = held.length - k := fun hc hk =>
    toNat_sub_offsets hseqno hc hk (by omega)
  induction p, sseqno, limit using outputLoop.induct mem buf seqno mss generalizing k with
  | case1 p sseqno limit segSize hseg hmem e =>
    rename_i hread
    unfold segSize at hread
    have hle := Nat.min_le_left (seqno - sseqno).toNat limit
    rw [hdist hsseqno hk] at hle
    rw [hdist hsseqno hk, hbuf.read (k := k) (by omega) hsseqno] at hread
    cases hread
  | case2 p sseqno limit segSize hseg hmem data =>
    rename_i hread ih
    have hle := Nat.min_le_left (seqno - sseqno).toNat limit
    have hlen : outputLen seqno mss sseqno limit = _ := outputLen_step hseg
    unfold segSize at hread ih hseg
    rw [outputLoop, dif_pos hseg, if_pos hmem, hread, hlen]
    generalize min (seqno - sseqno).toNat limit = n at *
    rw [hdist hsseqno hk] at hle
    rw [hbuf.read (k := k) (by omega) hsseqno] at hread
    obtain rfl := Except.ok.inj hread
    have hn : ((held.drop k).take n).length = n := by
      rw [List.length_take, List.length_drop]
      omega
    obtain ⟨p', cs, hp', houts, hflat, hmost, hall⟩ := ih (k := k + n) (by omega)
      (by rw [hsseqno, UInt32.ofNat_add, UInt32.add_assoc])
    refine ⟨p', (held.drop k).take n :: cs, hp', ?_, ?_, ?_, ?_⟩
    · rw [houts, segmentsFrom, hn]
      exact List.append_assoc _ _ _
    · rw [List.flatten_cons, List.length_append, hn, List.take_add, List.drop_drop, ← hflat]
    · rw [List.flatten_cons, List.length_append, hn]
      exact Nat.add_le_add_left hmost n
    · intro hmem'
      rw [List.flatten_cons, List.length_append, hn, hall hmem']
  | case3 p sseqno limit segSize hseg =>
    rename_i hmem
    refine ⟨p, [], by rw [outputLoop, dif_pos hseg, if_neg hmem], (List.append_nil _).symm, rfl,
      Nat.zero_le _, ?_⟩
    intro hmem'
    exact absurd (hmem' p.outs) hmem
  | case4 p sseqno limit segSize =>
    rename_i hseg
    refine ⟨p, [], by rw [outputLoop, dif_neg hseg], (List.append_nil _).symm, rfl,
      Nat.zero_le _, ?_⟩
    intro _
    exact (outputLen_stop hseg).symm

/-- The buffer of a socket holds the bytes before its next number. -/
structure Sends (held : List UInt8) (s : Sock) (buf : CircBuf) : Prop where
  txBuf : s.txBuf = some buf
  holds : buf.Holds held
  seqno : s.seqno = buf.headSeqno + .ofNat held.length

/-! ## The window -/

/-- `min(r_wind, cwnd)`. -/
def window (s : Sock) : Nat := min s.rWind.toNat s.cwnd.toNat

/-- `tcplib_output` from `k` bytes behind the head ends, and what it sends are consecutive bytes of
`held` in consecutive segments, none of them beyond the window. -/
def RespectsWindow (s : Sock) (buf : CircBuf) (held : List UInt8) (k : Nat) : Prop :=
  ∀ mem outs rc, ∃ p' cs,
    output mem buf ⟨s, outs, rc⟩ (buf.headSeqno + .ofNat k) = some p' ∧
    p'.outs = outs ++ segmentsFrom s.ackno (buf.headSeqno + .ofNat k) cs ∧
    cs.flatten = (held.drop k).take cs.flatten.length ∧
    (0 < cs.flatten.length → k + cs.flatten.length ≤ window s)

/-- **The window is respected** exactly when all of the data fits it, or nothing of it is sent, or
the loop stops after the first segment. -/
theorem window_respected_iff {s : Sock} {buf : CircBuf} {held : List UInt8}
    (h : Sends held s buf) {k : Nat} (hk : k ≤ held.length) :
    RespectsWindow s buf held k ↔
      held.length ≤ window s ∨ window s = 0 ∨ ¬buf.headSeqno + .ofNat k < s.seqno ∨
        (s.mss = 0 ∧ k = 0) := by
  have hshort := buf.data_short
  have hfits : held.length ≤ buf.data.length := h.holds.fits
  have hloop := fun mem outs rc => @outputLoop_sends mem _ _ h.holds _ h.seqno s.mss.toNat
    ⟨s, outs, rc⟩ (buf.headSeqno + .ofNat k) (window s) _ hk rfl
  have hlen : RespectsWindow s buf held k ↔
      (0 < outputLen s.seqno s.mss.toNat (buf.headSeqno + .ofNat k) (window s) →
        k + outputLen s.seqno s.mss.toNat (buf.headSeqno + .ofNat k) (window s) ≤ window s) := by
    constructor
    · intro hall
      obtain ⟨p', cs, hp', houts, -, hwindow⟩ := hall (fun _ => true) [] 0
      obtain ⟨q, cs', hq, houts', -, -, hsent⟩ := hloop (fun _ => true) [] 0
      obtain rfl := Option.some.inj (hp'.symm.trans hq)
      have hsame := congrArg dataLen (houts.symm.trans houts')
      rw [dataLen_append, dataLen_append, dataLen_segmentsFrom, dataLen_segmentsFrom] at hsame
      rwa [← hsent (fun _ => rfl), ← Nat.add_left_cancel hsame]
    · intro hwindow mem outs rc
      obtain ⟨p', cs, hp', houts, hflat, hmost, -⟩ := hloop mem outs rc
      exact ⟨p', cs, hp', houts, hflat, fun hpos => Nat.le_trans (Nat.add_le_add_left hmost k)
        (hwindow (Nat.lt_of_lt_of_le hpos hmost))⟩
  have hmss : s.mss = 0 ↔ s.mss.toNat = 0 := by
    rw [← UInt16.toNat_inj]
    rfl
  rw [hlen, hmss, outputLen, toNat_sub_offsets h.seqno rfl hk (by omega)]
  by_cases hsends : buf.headSeqno + .ofNat k < s.seqno ∧ 0 < window s
  · have hdist := toNat_sub_offsets h.seqno rfl hk (by omega)
    have hlt := UInt32.lt_iff_toNat_lt.1 hsends.1
    rw [UInt32.toNat_sub_of_le _ _ (UInt32.le_of_lt hsends.1)] at hdist
    simp only [hsends, and_self, if_true, not_true_eq_false, false_or]
    split
    · omega
    · omega
  · rw [if_neg hsends]
    refine iff_of_true (fun hpos => absurd hpos (Nat.lt_irrefl 0)) ?_
    rw [not_and, Nat.not_lt, Nat.le_zero] at hsends
    by_cases hlt : buf.headSeqno + .ofNat k < s.seqno
    · exact .inr (.inl (hsends hlt))
    · exact .inr (.inr (.inl hlt))

/-- A ring of eight bytes, of which the first three are in use. -/
def exampleBuf : CircBuf where
  data := [1, 2, 3, 0, 0, 0, 0, 0]
  dataHead := 0
  headSeqno := 100
  head_le := by decide
  data_short := by decide

/-- A socket with these three bytes to send, in segments of `mss` bytes. -/
def exampleSock (mss rWind : UInt16) : Sock where
  flags := 0
  state := .established
  txBuf := some exampleBuf
  txBufLen := 32
  mss := mss
  myWind := 200
  rWind := rWind
  cwnd := 200
  ssthresh := 0xffff
  seqno := 103
  ackno := 7
  retx := 1

theorem exampleSock_sends (mss rWind : UInt16) :
    Sends [1, 2, 3] (exampleSock mss rWind) exampleBuf where
  txBuf := rfl
  holds := ⟨by decide, by decide⟩
  seqno := (by decide : (103 : UInt32) = 100 + 3)

/-- Three bytes fit a window of three. -/
theorem window_respected_three : RespectsWindow (exampleSock 200 3) exampleBuf [1, 2, 3] 0 :=
  (window_respected_iff (exampleSock_sends 200 3) (by decide)).2 (.inl (by decide))

/-- **A window of two bytes** is sent, and then the third byte. -/
theorem window_overrun : ¬RespectsWindow (exampleSock 200 2) exampleBuf [1, 2, 3] 0 := by
  intro hall
  obtain ⟨p', cs, hp', houts, -, hwindow⟩ := hall (fun _ => true) [] 0
  have hsent : (output (fun _ => true) exampleBuf ⟨exampleSock 200 2, [], 0⟩
      (exampleBuf.headSeqno + .ofNat 0)).map (fun p => dataLen p.outs) = some 3 := by
    decide +kernel
  rw [hp', Option.map_some, houts, List.nil_append, dataLen_segmentsFrom] at hsent
  rw [Option.some.inj hsent] at hwindow
  exact absurd (hwindow (by decide)) (by decide)

end Proc

end Tcp
