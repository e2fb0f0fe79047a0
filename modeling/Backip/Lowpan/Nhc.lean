import Backip.Lowpan.Iphc

/-!
# Compression of the next headers (`lib6lowpan.c`)

`packNhcChain` compresses the chain of extension headers and a UDP header, `unpackNhcChain` puts
them back, `lowpanUnpackHeaders` the IPv6 header with them. A pointer into `r_buf` is an index. The
pointer into the frame is what is left of it; a pointer past the end of the frame is read from by
every caller, so moving it there stops the parser.
-/

set_option autoImplicit false

namespace Lowpan

/-! ## Constants -/

abbrev nhcIpv6Mask : UInt8 := 0xf0
abbrev nhcIpv6Pattern : UInt8 := 0xe0
abbrev nhcEidShift : UInt8 := 0x1
abbrev nhcEidMask : UInt8 := 0xe
abbrev nhcEidHop : UInt8 := (0x0 : UInt8) <<< nhcEidShift
abbrev nhcEidRouting : UInt8 := (0x1 : UInt8) <<< nhcEidShift
abbrev nhcEidFrag : UInt8 := (0x2 : UInt8) <<< nhcEidShift
abbrev nhcEidDest : UInt8 := (0x3 : UInt8) <<< nhcEidShift
abbrev nhcEidMobile : UInt8 := (0x4 : UInt8) <<< nhcEidShift
abbrev nhcEidIpv6 : UInt8 := (0x7 : UInt8) <<< nhcEidShift
abbrev nhcNh : UInt8 := 0x1
abbrev nhcUdpMask : UInt8 := 0xf8
abbrev nhcUdpPattern : UInt8 := 0xf0
abbrev nhcUdpCksum : UInt8 := 0x4
abbrev nhcUdpPortMask : UInt8 := 0x3
abbrev nhcUdpPortFull : UInt8 := 0x0
abbrev nhcUdpPortSrcFull : UInt8 := 0x1
abbrev nhcUdpPortDstFull : UInt8 := 0x2

abbrev ipv6TlvPad1 : UInt8 := 0
abbrev ipv6TlvPadN : UInt8 := 1

/-- `sizeof (struct ip6_hdr)` and `sizeof (struct udp_hdr)`. -/
abbrev ip6HdrSize : Nat := 40
abbrev udpHdrSize : Nat := 8

/-- The length of an extension header, from its length field. -/
abbrev extLen (len : UInt8) : Nat := (len.toNat + 1) * 8

/-! ## Packing -/

/-- `pack_udp`. -/
def packUdp (cnt : Nat) (packet : Ip6Packet) (offset : Nat) : Option (List UInt8) :=
  if cnt < 7 then none
  else
    let udp := packet.data.read offset udpHdrSize
    if udp.length ≠ udpHdrSize then none
    else some ((nhcUdpPattern ||| nhcUdpPortFull) :: (udp.take 4 ++ udp.drop 6))

/-- The loop of `__ipnh_real_length`: `offset` and `end_offset` at its end (`none`: it returns
-1). -/
def ipnhLoop (pkt : IpIovec) (limit offset endOffset : Nat) : Option (Nat × Nat) :=
  if limit ≤ offset then some (offset, endOffset)
  else
    match pkt.read offset 2 with
    | [type, len] =>
      if type = ipv6TlvPad1 then ipnhLoop pkt limit (offset + 1) endOffset
      else
        let offset := offset + 2 + len.toNat
        ipnhLoop pkt limit offset (if type ≠ ipv6TlvPadN then offset else endOffset)
    | _ => none
termination_by limit - offset

/-- `__ipnh_real_length`, a byte: -1 is 255. The bound of its loop is an offset into the packet. -/
def ipnhRealLength (type : UInt8) (pkt : IpIovec) (offset : Nat) : UInt8 :=
  match pkt.read offset 2 with
  | [_, len] =>
    if type ≠ ipv6Hop ∧ type ≠ ipv6Dest then .ofNat (extLen len)
    else
      match ipnhLoop pkt (extLen len) (offset + 2) (offset + 2) with
      | none => 255
      | some (stop, endOffset) =>
        if stop - offset ≠ extLen len then 0 else .ofNat (endOffset - offset)
  | _ => 255

/-- The `switch` of `pack_ipnh`. -/
def eidOf (type : UInt8) : Option UInt8 :=
  if type = ipv6Hop then some nhcEidHop
  else if type = ipv6Routing then some nhcEidRouting
  else if type = ipv6Frag then some nhcEidFrag
  else if type = ipv6Dest then some nhcEidDest
  else if type = ipv6Mobility then some nhcEidMobile
  else none

/-- `pack_ipnh`: the buffer `dest`, the next header and the length of the header in the packet
(`none`: -1). -/
def packIpnh (dest : List UInt8) (cnt : Nat) (type : UInt8) (packet : Ip6Packet) (offset : Nat) :
    Option (List UInt8 × UInt8 × Nat) :=
  match packet.data.read offset 2 with
  | [nxt, len] =>
    if cnt < len.toNat then none
    else
      match eidOf type with
      | none => none
      | some eid =>
        let realLen := ipnhRealLength type packet.data offset
        if realLen = 0 then none
        else
          let head :=
            if nhcCompressible nxt then [nhcIpv6Pattern ||| eid ||| nhcNh, realLen]
            else [nhcIpv6Pattern ||| eid, nxt, realLen]
          let body := packet.data.read (offset + 2) (realLen.toNat - 2)
          if (body.length : Int) ≠ (realLen.toNat : Int) - 2 then none
          else some (splice dest 0 (head ++ body), nxt, extLen len)
  | _ => none

/-- The next headers that the loop of `pack_nhc_chain` goes on for. -/
def isNhcExtension (nxt : UInt8) : Bool :=
  nxt == ipv6Hop || nxt == ipv6Routing || nxt == ipv6Frag || nxt == ipv6Dest ||
    nxt == ipv6Mobility || nxt == ipv6Ipv6

theorem packIpnh_some {dest dest' : List UInt8} {cnt offset rv : Nat} {type nxt : UInt8}
    {packet : Ip6Packet} (h : packIpnh dest cnt type packet offset = some (dest', nxt, rv)) :
    offset + 2 ≤ packet.data.len ∧ 8 ≤ rv := by
  unfold packIpnh at h
  split at h
  · rename_i nxt' len hread
    have hle := IpIovec.le_len_of_read hread (by simp)
    refine ⟨hle, ?_⟩
    simp only [Option.ite_none_left_eq_some] at h
    split at h
    · exact absurd h.2 (by simp)
    · simp only [Option.ite_none_left_eq_some, Option.some.injEq, Prod.mk.injEq] at h
      obtain ⟨-, -, -, -, -, rfl⟩ := h
      exact Nat.le_mul_of_pos_left 8 (Nat.succ_pos _)
  · cases h

/-- The loop of `pack_nhc_chain`: the bytes up to `dest`, `cnt`, `nxt` and `offset` at its end. A
header takes as many bytes of the buffer as of the packet, and one for an inline next header. -/
def packNhcLoop (dest : List UInt8) (cnt : Nat) (packet : Ip6Packet) (nxt : UInt8) (offset : Nat) :
    Option (List UInt8 × Nat × UInt8 × Nat) :=
  if isNhcExtension nxt then
    match h : packIpnh dest cnt nxt packet offset with
    | none => none
    | some (dest, nxt, rv) =>
      let extra := if dest.headD 0 &&& nhcNh ≠ 0 then 0 else 1
      (packNhcLoop (dest.drop (rv + extra)) (sizeSub cnt rv) packet nxt (offset + rv)).map
        fun (bytes, rest) => (dest.take (rv + extra) ++ bytes, rest)
  else some ([], cnt, nxt, offset)
termination_by packet.data.len - offset
decreasing_by
  have := packIpnh_some h
  omega

/-- One turn of the loop. -/
theorem packNhcLoop_of_some {dest dest' : List UInt8} {cnt offset rv : Nat} {nxt nxt' : UInt8}
    {packet : Ip6Packet} (hnxt : isNhcExtension nxt = true)
    (h : packIpnh dest cnt nxt packet offset = some (dest', nxt', rv)) :
    packNhcLoop dest cnt packet nxt offset =
      (packNhcLoop (dest'.drop (rv + if dest'.headD 0 &&& nhcNh ≠ 0 then 0 else 1))
        (sizeSub cnt rv) packet nxt' (offset + rv)).map fun (bytes, rest) =>
          (dest'.take (rv + if dest'.headD 0 &&& nhcNh ≠ 0 then 0 else 1) ++ bytes, rest) := by
  rw [packNhcLoop, if_pos hnxt]
  split
  · rename_i h'
    cases h.symm.trans h'
  · rename_i h'
    cases h.symm.trans h'
    rfl

theorem packNhcLoop_of_none {dest : List UInt8} {cnt offset : Nat} {nxt : UInt8}
    {packet : Ip6Packet} (hnxt : isNhcExtension nxt = true)
    (h : packIpnh dest cnt nxt packet offset = none) :
    packNhcLoop dest cnt packet nxt offset = none := by
  rw [packNhcLoop, if_pos hnxt]
  split
  · rfl
  · rename_i h'
    cases h.symm.trans h'

/-- `pack_nhc_chain`: the bytes up to `dest`, and the offset into the packet (`none`: -1). -/
def packNhcChain (dest : List UInt8) (cnt : Nat) (packet : Ip6Packet) :
    Option (List UInt8 × Nat) :=
  match packNhcLoop dest cnt packet packet.hdr.nxt 0 with
  | none => none
  | some (bytes, cnt, nxt, offset) =>
    if nxt = ianaUdp then
      (packUdp cnt packet offset).map fun udp => (bytes ++ udp, offset + udpHdrSize)
    else some (bytes, offset)

/-! ## Unpacking -/

/-- The ports of a UDP header (`unpack_udp`). -/
def unpackPorts (dispatch : UInt8) (buf : List UInt8) :
    Except Stop (UInt16 × UInt16 × List UInt8) :=
  let mode := dispatch &&& nhcUdpPortMask
  if mode = nhcUdpPortFull then
    match buf with
    | b0 :: b1 :: b2 :: b3 :: buf => .ok (ntohs b0 b1, ntohs b2 b3, buf)
    | _ => .error .outOfBounds
  else if mode = nhcUdpPortSrcFull then
    match buf with
    | b0 :: b1 :: b2 :: buf => .ok (ntohs b0 b1, ntohs 0xF0 b2, buf)
    | _ => .error .outOfBounds
  else if mode = nhcUdpPortDstFull then
    match buf with
    | b0 :: b1 :: b2 :: buf => .ok (ntohs 0xF0 b0, ntohs b1 b2, buf)
    | _ => .error .outOfBounds
  else
    match buf with
    | b0 :: buf => .ok ((0xF0B0 : UInt16) ||| (b0 >>> 4).toUInt16,
        (0xF0B0 : UInt16) ||| (b0 &&& 0xf).toUInt16, buf)
    | _ => .error .outOfBounds

/-- `unpack_udp`: `r_buf` and what is left of the frame. -/
def unpackUdp (rbuf : List UInt8) (dest nxtHdr : Nat) (buf : List UInt8) :
    Except Stop (List UInt8 × List UInt8) := do
  let (dispatch, buf) ← Buffer.next buf
  let rbuf ← Buffer.write rbuf nxtHdr [ianaUdp]
  let rbuf ← Buffer.write rbuf (dest + 4) [0, 0, 0, 0]
  let (srcport, dstport, buf) ← unpackPorts dispatch buf
  let rbuf ← Buffer.write rbuf dest (srcport.netBytes ++ dstport.netBytes)
  if dispatch &&& nhcUdpCksum = 0 then
    let (b0, buf) ← Buffer.next buf
    let (b1, buf) ← Buffer.next buf
    let rbuf ← Buffer.write rbuf (dest + 6) (ntohs b0 b1).netBytes
    .ok (rbuf, buf)
  else .ok (rbuf, buf)

/-- The `switch` of `unpack_ipnh`. -/
def typeOf (eid : UInt8) : Option UInt8 :=
  if eid = nhcEidHop then some ipv6Hop
  else if eid = nhcEidRouting then some ipv6Routing
  else if eid = nhcEidFrag then some ipv6Frag
  else if eid = nhcEidDest then some ipv6Dest
  else if eid = nhcEidMobile then some ipv6Mobility
  else if eid = nhcEidIpv6 then some ipv6Ipv6
  else none

/-- The padding that `unpack_ipnh` puts behind the options. -/
def padding (type : UInt8) (extra : Nat) : List UInt8 :=
  if type = ipv6Hop ∨ type = ipv6Dest then
    if extra = 1 then [ipv6TlvPad1]
    else if 1 < extra then [ipv6TlvPadN, .ofNat (extra - 2)]
    else []
  else []

/-- A next header that is inline goes into the header at `dest`. -/
def unpackExtNxt (rbuf : List UInt8) (dest : Nat) (dispatch : UInt8) (buf : List UInt8) :
    Except Stop (List UInt8 × List UInt8) :=
  if dispatch &&& nhcNh = 0 then do
    let (nxt, buf) ← Buffer.next buf
    let rbuf ← Buffer.write rbuf dest [nxt]
    .ok (rbuf, buf)
  else .ok (rbuf, buf)

/-- `unpack_ipnh` of an extension header with the dispatch byte in front of `buf`. -/
def unpackExt (rbuf : List UInt8) (dest cnt nxtHdr : Nat) (dispatch : UInt8) (buf : List UInt8) :
    Except Stop (List UInt8 × List UInt8) := do
  match typeOf (dispatch &&& nhcEidMask) with
  | none => .error .rejected
  | some type =>
    let rbuf ← Buffer.write rbuf nxtHdr [type]
    let (rbuf, buf) ← unpackExtNxt rbuf dest dispatch buf
    let (length, buf) ← Buffer.next buf
    let length := length.toNat
    let extra := (8 - length % 8) % 8
    if cnt < sizeSub (length + extra) 2 then .error .rejected
    else
      let (body, _) ← Buffer.take (sizeSub length 2) buf
      let rbuf ← Buffer.write rbuf (dest + 2) body
      let rbuf ← Buffer.write rbuf (dest + length) (padding type extra)
      let rbuf ← Buffer.write rbuf (dest + 1) [.ofNat ((length + extra) / 8 - 1)]
      let (_, buf) ← Buffer.take (sizeSub (length + extra) 2) buf
      .ok (rbuf, buf)

/-- `unpack_ipnh`: `r_buf` and what is left of the frame. -/
def unpackIpnh (rbuf : List UInt8) (dest cnt nxtHdr : Nat) (buf : List UInt8) :
    Except Stop (List UInt8 × List UInt8) :=
  match buf with
  | [] => .error .outOfBounds
  | dispatch :: rest =>
    if dispatch &&& nhcIpv6Mask = nhcIpv6Pattern then
      unpackExt rbuf dest cnt nxtHdr dispatch rest
    else if dispatch &&& nhcUdpMask = nhcUdpPattern then unpackUdp rbuf dest nxtHdr buf
    else .error .rejected

/-- What unpacking leaves: `r_buf`, the index behind what is unpacked, `r_transport_header` and
`r_app_len`. -/
structure Unpacked where
  rbuf : List UInt8
  stop : Nat
  transportHeader : Option Nat
  appLen : Option Nat
deriving DecidableEq, Repr

theorem length_unpackExtNxt {rbuf rbuf' buf buf' : List UInt8} {dest : Nat} {dispatch : UInt8}
    (h : unpackExtNxt rbuf dest dispatch buf = .ok (rbuf', buf')) : buf'.length ≤ buf.length := by
  unfold unpackExtNxt at h
  split at h
  · simp only [Buffer.bind_eq_ok] at h
    obtain ⟨⟨nxt, buf1⟩, hnext, rbuf1, -, hok⟩ := h
    obtain ⟨-, rfl⟩ := Prod.mk.inj (Except.ok.inj hok)
    exact Nat.le_of_lt (Buffer.length_next hnext)
  · obtain ⟨-, rfl⟩ := Prod.mk.inj (Except.ok.inj h)
    exact Nat.le_refl _

theorem length_unpackExt {rbuf rbuf' buf buf' : List UInt8} {dest cnt nxtHdr : Nat}
    {dispatch : UInt8} (h : unpackExt rbuf dest cnt nxtHdr dispatch buf = .ok (rbuf', buf')) :
    buf'.length ≤ buf.length := by
  unfold unpackExt at h
  split at h
  · cases h
  · simp only [Buffer.bind_eq_ok] at h
    obtain ⟨rbuf1, -, ⟨rbuf2, buf2⟩, hnxt, ⟨length, buf3⟩, hlength, h⟩ := h
    have hbuf2 := length_unpackExtNxt hnxt
    have hbuf3 := Buffer.length_next hlength
    split at h
    · cases h
    · simp only [Buffer.bind_eq_ok] at h
      obtain ⟨_, -, _, -, _, -, _, -, ⟨_, buf4⟩, htake, hok⟩ := h
      obtain ⟨-, rfl⟩ := Prod.mk.inj (Except.ok.inj hok)
      have hbuf4 := Buffer.length_take htake
      dsimp only at hbuf2 hbuf3 hbuf4 ⊢
      omega

theorem length_unpackPorts {dispatch : UInt8} {buf buf' : List UInt8} {s d : UInt16}
    (h : unpackPorts dispatch buf = .ok (s, d, buf')) : buf'.length ≤ buf.length := by
  unfold unpackPorts at h
  dsimp only at h
  repeat' split at h
  all_goals cases h
  all_goals simp only [List.length_cons]; omega

theorem length_unpackUdp {rbuf rbuf' buf buf' : List UInt8} {dest nxtHdr : Nat}
    (h : unpackUdp rbuf dest nxtHdr buf = .ok (rbuf', buf')) : buf'.length < buf.length := by
  simp only [unpackUdp, Buffer.bind_eq_ok] at h
  obtain ⟨⟨dispatch, buf1⟩, hnext, rbuf1, -, rbuf2, -, ⟨s, d, buf2⟩, hports, rbuf3, -, h⟩ := h
  have hbuf1 := Buffer.length_next hnext
  have hbuf2 := length_unpackPorts hports
  split at h
  · simp only [Buffer.bind_eq_ok] at h
    obtain ⟨⟨b0, buf3⟩, h0, ⟨b1, buf4⟩, h1, rbuf4, -, hok⟩ := h
    obtain ⟨-, rfl⟩ := Prod.mk.inj (Except.ok.inj hok)
    have hbuf3 := Buffer.length_next h0
    have hbuf4 := Buffer.length_next h1
    dsimp only at hbuf2 hbuf3 hbuf4 ⊢
    omega
  · obtain ⟨-, rfl⟩ := Prod.mk.inj (Except.ok.inj h)
    exact Nat.lt_of_le_of_lt hbuf2 hbuf1

/-- `unpack_ipnh` reads on. -/
theorem length_unpackIpnh {rbuf rbuf' buf buf' : List UInt8} {dest cnt nxtHdr : Nat}
    (h : unpackIpnh rbuf dest cnt nxtHdr buf = .ok (rbuf', buf')) : buf'.length < buf.length := by
  unfold unpackIpnh at h
  split at h
  · cases h
  · split at h
    · exact Nat.lt_succ_of_le (length_unpackExt h)
    · split at h
      · exact length_unpackUdp h
      · cases h

/-- `unpack_nhc_chain`. -/
def unpackNhcChain (rbuf : List UInt8) (dest cnt nxtHdr : Nat) (buf : List UInt8) :
    Except Stop (Unpacked × List UInt8) :=
  match h : unpackIpnh rbuf dest cnt nxtHdr buf with
  | .error e => .error e
  | .ok (rbuf, rest) =>
    let dispatch := buf.headD 0
    if dispatch &&& nhcIpv6Mask = nhcIpv6Pattern then
      let len := extLen (rbuf.getD (dest + 1) 0)
      if dispatch &&& nhcNh ≠ 0 then unpackNhcChain rbuf (dest + len) (sizeSub cnt len) dest rest
      else .ok (⟨rbuf, dest + len, some dest, none⟩, rest)
    else .ok (⟨rbuf, dest + udpHdrSize, some dest, some (dest + 4)⟩, rest)
termination_by buf.length
decreasing_by exact length_unpackIpnh h

/-- One turn of `unpack_nhc_chain`. -/
theorem unpackNhcChain_of_ok {rbuf rbuf' buf rest : List UInt8} {dest cnt nxtHdr : Nat}
    (h : unpackIpnh rbuf dest cnt nxtHdr buf = .ok (rbuf', rest)) :
    unpackNhcChain rbuf dest cnt nxtHdr buf =
      if buf.headD 0 &&& nhcIpv6Mask = nhcIpv6Pattern then
        if buf.headD 0 &&& nhcNh ≠ 0 then
          unpackNhcChain rbuf' (dest + extLen (rbuf'.getD (dest + 1) 0))
            (sizeSub cnt (extLen (rbuf'.getD (dest + 1) 0))) dest rest
        else .ok (⟨rbuf', dest + extLen (rbuf'.getD (dest + 1) 0), some dest, none⟩, rest)
      else .ok (⟨rbuf', dest + udpHdrSize, some dest, some (dest + 4)⟩, rest) := by
  rw [unpackNhcChain]
  split
  · rename_i h'
    cases h.symm.trans h'
  · rename_i h'
    cases h.symm.trans h'
    rfl

theorem unpackNhcChain_of_error {rbuf buf : List UInt8} {dest cnt nxtHdr : Nat} {e : Stop}
    (h : unpackIpnh rbuf dest cnt nxtHdr buf = .error e) :
    unpackNhcChain rbuf dest cnt nxtHdr buf = .error e := by
  rw [unpackNhcChain]
  split
  · rename_i h'
    cases h.symm.trans h'
    rfl
  · rename_i h'
    cases h.symm.trans h'

/-- The context extension of the dispatch. -/
def unpackContexts (dispatch1 : UInt8) (buf : List UInt8) :
    Except Stop ((UInt8 × UInt8) × List UInt8) :=
  if dispatch1 &&& iphcCidMask = iphcCidPresent then do
    let (b, buf) ← Buffer.next buf
    .ok (((b >>> 4) &&& 0xf, b &&& 0xf), buf)
  else .ok ((0, 0), buf)

/-- The destination address in `lowpan_unpack_headers`. -/
def unpackDst (c : Contexts) (dispatch1 context : UInt8) (buf : List UInt8) (frame : FrameAddr) :
    Except Stop (List UInt8 × List UInt8) :=
  if dispatch1 &&& iphcM ≠ 0 then unpackMulticast (dispatch1 >>> iphcDamShift) buf
  else unpackAddress c (dispatch1 >>> iphcDamShift) context buf frame.dst frame.dstpan

/-- The next headers in `lowpan_unpack_headers`. -/
def unpackNext (dispatch : UInt8) (rbuf : List UInt8) (size : Nat) (buf : List UInt8) :
    Except Stop (Unpacked × List UInt8) :=
  if dispatch &&& iphcNhMask ≠ 0 then
    unpackNhcChain rbuf ip6HdrSize (sizeSub size ip6HdrSize) 6 buf
  else .ok (⟨rbuf, ip6HdrSize, none, none⟩, buf)

/-- The payload in `lowpan_unpack_headers`. -/
def copyPayload (u : Unpacked) (buf : List UInt8) : Except Stop Unpacked := do
  let rbuf ← Buffer.write u.rbuf u.stop buf
  .ok { u with rbuf := rbuf, stop := u.stop + buf.length }

/-- `lowpan_unpack_headers` into `rbuf`, the buffer of a datagram of `size` bytes, of `pkt`, which
is what stands behind the link headers. -/
def lowpanUnpackHeaders (c : Contexts) (frame : FrameAddr) (rbuf : List UInt8) (size : Nat)
    (pkt : List UInt8) : Except Stop Unpacked := do
  let (dispatch, buf) ← Buffer.next pkt
  if dispatch &&& lowpanDispatchByteMask ≠ lowpanDispatchByteVal then .error .rejected
  else
    let (dispatch1, buf) ← Buffer.next buf
    let ((context0, context1), buf) ← unpackContexts dispatch1 buf
    let (flow, buf) ← unpackTcfl dispatch buf
    let rbuf ← Buffer.write rbuf 0 flow.netBytes
    let (nxt, buf) ← unpackNh dispatch buf
    let rbuf ← Buffer.write rbuf 6 nxt.toList
    let (hlim, buf) ← unpackHlim dispatch buf
    let rbuf ← Buffer.write rbuf 7 [hlim]
    let (src, buf) ←
      unpackAddress c (dispatch1 >>> iphcSamShift) context0 buf frame.src frame.dstpan
    let rbuf ← Buffer.write rbuf 8 src
    let (dst, buf) ← unpackDst c dispatch1 context1 buf frame
    let rbuf ← Buffer.write rbuf 24 dst
    let (u, buf) ← unpackNext dispatch rbuf size buf
    copyPayload u buf

end Lowpan
