import Backip.BackIP.Queueing
import Backip.Lowpan.Header

/-!
# Frames for another neighbour

`rewrite_dst_ll_addr` writes the address of the current neighbour where the destination of a frame
begins. It changes neither the frame control field nor what follows, so what it leaves is the frame
`pack_ieee154_header` would have made for this neighbour only if its address is as long as the one
the frame was packed for (`Queueing.readdressed_iff`).
-/

set_option autoImplicit false

namespace Lowpan

/-! ## Packing and unpacking the 802.15.4 header -/

theorem fcf_dst (frame : FrameAddr) :
    .ofBits (fcf frame >>> fcfDestAddrMode &&& 3) = frame.dst.mode := by
  unfold fcf
  generalize frame.src.mode = src
  generalize frame.dst.mode = dst
  cases src <;> cases dst <;> decide

theorem fcf_src (frame : FrameAddr) :
    .ofBits (fcf frame >>> fcfSrcAddrMode &&& 3) = frame.src.mode := by
  unfold fcf
  generalize frame.src.mode = src
  generalize frame.dst.mode = dst
  cases src <;> cases dst <;> decide

theorem unpackAddr_mode {mode : AddrMode} {old : Vector UInt8 8} {buf rest : List UInt8}
    {a : Ieee154Addr} (h : unpackAddr mode old buf = .ok (a, rest)) : a.mode = mode := by
  unfold unpackAddr at h
  repeat' split at h
  all_goals cases h
  all_goals rfl

/-- A short address stands in the first two bytes. -/
theorem get_short (old : Vector UInt8 8) (b0 b1 : UInt8) :
    ((old.setIfInBounds 0 b0).setIfInBounds 1 b1).get 0 = b0 ∧
      ((old.setIfInBounds 0 b0).setIfInBounds 1 b1).get 1 = b1 := by
  constructor
  · show ((old.setIfInBounds 0 b0).setIfInBounds 1 b1)[0] = b0
    simp
  · show ((old.setIfInBounds 0 b0).setIfInBounds 1 b1)[1] = b1
    simp

/-- An address is read as it was copied. -/
theorem unpackAddr_copy {a : Ieee154Addr} (h : a.Usable) (old : Vector UInt8 8)
    (rest : List UInt8) :
    ∃ a', unpackAddr a.mode old (a.copy ++ rest) = .ok (a', rest) ∧ a'.Same a := by
  obtain ⟨mode, data⟩ := a
  rcases h with hmode | hmode <;> cases hmode
  · obtain ⟨⟨bytes⟩, hlen⟩ := data
    match bytes, hlen with
    | [_, _, _, _, _, _, _, _], _ => exact ⟨_, rfl, .short (get_short old _ _).1 (get_short old _ _).2⟩
  · obtain ⟨⟨bytes⟩, hlen⟩ := data
    match bytes, hlen with
    | [_, _, _, _, _, _, _, _], _ => exact ⟨_, rfl, .ext _⟩

/-- A frame is parsed as it was packed. -/
theorem unpack_pack (buf : List UInt8) {frame : FrameAddr} (hsrc : frame.src.Usable)
    (hdst : frame.dst.Usable) (payload : List UInt8) (frame0 : FrameAddr) :
    ∃ frame', unpackIeee154Hdr (packIeee154Header buf frame ++ payload) frame0 =
        .ok (frame', payload) ∧
      frame'.dst.Same frame.dst ∧ frame'.src.Same frame.src ∧ frame'.dstpan = frame.dstpan := by
  obtain ⟨dst, hunpack, hsame⟩ :=
    unpackAddr_copy hdst frame0.dst.data (frame.src.copy ++ payload)
  obtain ⟨src, hunpack', hsame'⟩ := unpackAddr_copy hsrc frame0.src.data payload
  refine ⟨⟨src, dst, frame.dstpan⟩, ?_, hsame, hsame', rfl⟩
  simp only [packIeee154Header, List.append_assoc, List.cons_append, List.nil_append,
    unpackIeee154Hdr, ntohs_netBytes, fcf_dst, fcf_src, hunpack, hunpack', Buffer.ok_bind]

/-- Whatever follows it, the frame control field says which destination is read. -/
theorem unpack_dst_mode {b0 b3 p0 p1 : UInt8} {frame frame0 frame' : FrameAddr}
    {rest payload : List UInt8}
    (h : unpackIeee154Hdr (b0 :: (fcf frame).toUInt8 :: (fcf frame >>> 8).toUInt8 :: b3 :: p0 ::
      p1 :: rest) frame0 = .ok (frame', payload)) : frame'.dst.mode = frame.dst.mode := by
  simp only [unpackIeee154Hdr, ntohs_netBytes, fcf_dst, Buffer.bind_eq_ok] at h
  obtain ⟨⟨dst, buf⟩, hdst, ⟨src, buf'⟩, -, hok⟩ := h
  cases hok
  exact unpackAddr_mode hdst

end Lowpan

namespace BackIP

open Lowpan

/-- The address of a neighbour as the link layer below has it. -/
def LlAddr.addr : LlAddr → Ieee154Addr
  | .none => ⟨.none, Vector.replicate 8 0⟩
  | .short saddr => ⟨.short, #v[saddr.toUInt8, (saddr >>> 8).toUInt8, 0, 0, 0, 0, 0, 0]⟩
  | .ext laddr => ⟨.ext, laddr⟩

/-- What is rewritten is what the frame would have been packed with. -/
theorem LlAddr.copy_addr (a : LlAddr) : a.addr.copy = a.bytes := by
  cases a <;> rfl

theorem LlAddr.usable_addr {a : LlAddr} (h : a ≠ .none) : a.addr.Usable := by
  cases a with
  | none => exact absurd rfl h
  | short saddr => exact .inl rfl
  | ext laddr => exact .inr rfl

theorem length_copy (a : Ieee154Addr) : a.copy.length = if a.mode = .short then 2 else 8 := by
  unfold Ieee154Addr.copy
  split <;> simp

/-- The first of two parts is overwritten by as many elements. -/
theorem splice_first {xs ys : List UInt8} (h : xs.length = ys.length) (rest : List UInt8) :
    splice (ys ++ rest) 0 xs = xs ++ rest := by
  rw [splice_append_left (by omega), splice_of_end (by omega)]
  rfl

/-- `data` is the frame with the new destination `a`. -/
structure Readdressed (a : LlAddr) (buf : List UInt8) (frame : FrameAddr)
    (payload data : List UInt8) : Prop where
  parsed : ∀ frame0, ∃ frame', unpackIeee154Hdr data frame0 = .ok (frame', payload) ∧
    frame'.dst.Same a.addr ∧ frame'.src.Same frame.src ∧ frame'.dstpan = frame.dstpan
  /-- The sequence number. -/
  dsn : data.getD 3 0 = buf.getD 3 0

/-- Where the modes agree, the frame is as if it had been packed for the neighbour. -/
theorem splice_packed {a : LlAddr} (buf : List UInt8) {frame : FrameAddr}
    (hmode : a.addr.mode = frame.dst.mode) (payload : List UInt8) :
    splice (packIeee154Header buf frame ++ payload) 6 a.bytes =
      packIeee154Header buf { frame with dst := a.addr } ++ payload := by
  have hlen : a.bytes.length = frame.dst.copy.length := by
    rw [← a.copy_addr, length_copy, length_copy, hmode]
  have hfcf : fcf { frame with dst := a.addr } = fcf frame := by
    simp only [fcf, hmode]
  simp only [packIeee154Header, List.append_assoc, hfcf, a.copy_addr]
  rw [splice_append_right (by simp)]
  exact congrArg _ (splice_first hlen _)

/-- The frame control field is not rewritten. -/
theorem splice_dst_mode {a : LlAddr} {buf payload payload' : List UInt8}
    {frame frame0 frame' : FrameAddr}
    (h : unpackIeee154Hdr (splice (packIeee154Header buf frame ++ payload) 6 a.bytes) frame0 =
      .ok (frame', payload')) : frame'.dst.mode = frame.dst.mode := by
  simp only [packIeee154Header, List.append_assoc] at h
  rw [splice_append_right (by simp)] at h
  exact unpack_dst_mode h

namespace Queueing

/-- **A frame is re-addressed exactly if** the neighbour's address has the mode of the destination
the frame was packed for. -/
theorem readdressed_iff (s : Queueing) (msg : MsgPtr) (buf : List UInt8) {frame : FrameAddr}
    (payload : List UInt8) (hsrc : frame.src.Usable)
    (hmem : (s.mem msg).data = packIeee154Header buf frame ++ payload)
    (hnb : s.currNbLlAddr ≠ .none) :
    Readdressed s.currNbLlAddr buf frame payload ((s.rewriteDstLlAddr msg).mem msg).data ↔
      s.currNbLlAddr.addr.mode = frame.dst.mode := by
  have hdata : ((s.rewriteDstLlAddr msg).mem msg).data =
      splice (packIeee154Header buf frame ++ payload) 6 s.currNbLlAddr.bytes := by
    simp [rewriteDstLlAddr, hmem]
  rw [hdata]
  constructor
  · intro h
    obtain ⟨frame', hparsed, hsame, -⟩ := h.parsed frame
    have hmode : frame'.dst.mode = s.currNbLlAddr.addr.mode := by
      generalize s.currNbLlAddr.addr = a at hsame
      generalize frame'.dst = dst at hsame
      cases hsame <;> rfl
    rw [← hmode]
    exact splice_dst_mode hparsed
  · intro hmode
    rw [splice_packed buf hmode]
    refine ⟨fun frame0 => ?_, by simp [packIeee154Header]⟩
    exact @unpack_pack buf { frame with dst := s.currNbLlAddr.addr } hsrc
      (LlAddr.usable_addr hnb) payload frame0

/-- From a short address to an extended one. -/
def exampleFrame : FrameAddr where
  src := ⟨.short, #v[1, 0, 0, 0, 0, 0, 0, 0]⟩
  dst := ⟨.ext, #v[1, 2, 3, 4, 5, 6, 7, 8]⟩
  dstpan := 0x22

/-- It is queued while the current neighbour is `a`. -/
def exampleQueueing (a : LlAddr) : Queueing :=
  { boot with
    currNbLlAddr := a
    mem := fun _ => ⟨packIeee154Header [] exampleFrame ++ [0x41], 0, 0, 0, .data⟩ }

/-- A neighbour with another extended address. -/
theorem readdressed_ext : Readdressed (.ext #v[8, 7, 6, 5, 4, 3, 2, 1]) [] exampleFrame [0x41]
    (((exampleQueueing (.ext #v[8, 7, 6, 5, 4, 3, 2, 1])).rewriteDstLlAddr (.pool 0)).mem
      (.pool 0)).data :=
  (readdressed_iff (exampleQueueing (.ext #v[8, 7, 6, 5, 4, 3, 2, 1])) (.pool 0) [] [0x41] (.inl rfl)
    rfl (by simp [exampleQueueing])).2 rfl

/-- A neighbour with a short address: the frame still has an extended destination, two bytes of
which are the neighbour's. -/
theorem readdressed_not_short : ¬Readdressed (.short 2) [] exampleFrame [0x41]
    (((exampleQueueing (.short 2)).rewriteDstLlAddr (.pool 0)).mem (.pool 0)).data := by
  intro h
  obtain ⟨⟨src, dst, dstpan⟩, hparsed, hsame, -⟩ := h.parsed exampleFrame
  obtain rfl : dst = ⟨.ext, #v[2, 0, 3, 4, 5, 6, 7, 8]⟩ := by
    have := congrArg (fun r => r.toOption.map (·.1.dst)) hparsed
    exact (Option.some.inj this).symm
  cases hsame

end Queueing

end BackIP
