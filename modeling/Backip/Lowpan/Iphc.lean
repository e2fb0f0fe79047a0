import Backip.Lowpan.Header
import Backip.System.IPPacket
import Mathlib

/-!
# Compression of the IPv6 header (`lib6lowpan.c`)

Each `pack` function returns the bits it sets in the dispatch and the bytes it puts inline; each
`unpack` function takes the dispatch bits and reads from the front of what is left of the frame. An
IPv6 address is a list of its 16 bytes.
-/

set_option autoImplicit false

namespace Lowpan

/-! ## Constants -/

abbrev lowpanDispatchByteMask : UInt8 := 0xe0
abbrev lowpanDispatchByteVal : UInt8 := 0x60
abbrev iphcTfMask : UInt8 := 0x18
abbrev iphcTfNone : UInt8 := 0x18
abbrev iphcTfEcnDscp : UInt8 := 0x10
abbrev iphcTfEcnFl : UInt8 := 0x08
abbrev iphcTfEcnDscpFl : UInt8 := 0x00
abbrev iphcNhMask : UInt8 := 0x04
abbrev iphcNhInline : UInt8 := 0x00
abbrev iphcHlimMask : UInt8 := 0x03
abbrev iphcHlimNone : UInt8 := 0x00
abbrev iphcHlim1 : UInt8 := 0x01
abbrev iphcHlim64 : UInt8 := 0x02
abbrev iphcHlim255 : UInt8 := 0x03
abbrev iphcCidMask : UInt8 := 0x80
abbrev iphcCidPresent : UInt8 := 0x80
abbrev iphcSamShift : UInt8 := 4
abbrev iphcDamShift : UInt8 := 0
/-- `LOWPAN_IPHC_M` and `LOWPAN_IPHC_AM_M`. -/
abbrev iphcM : UInt8 := 0x08
abbrev iphcAcContext : UInt8 := 0x04
abbrev iphcAmMask : UInt8 := 0x3
abbrev iphcAm128 : UInt8 := 0x0
abbrev iphcAm64 : UInt8 := 0x1
abbrev iphcAm16 : UInt8 := 0x2
abbrev iphcAm0 : UInt8 := 0x3
abbrev iphcAmM128 : UInt8 := 0x0
abbrev iphcAmM48 : UInt8 := 0x1
abbrev iphcAmM32 : UInt8 := 0x2
abbrev iphcAmM8 : UInt8 := 0x3

abbrev ipv6Version : UInt32 := 0x6

/-- The external functions: `lowpan_extern_match_context` of an address, and the result of
`lowpan_extern_read_context` for a context with the address it leaves. -/
structure Contexts where
  matchContext : List UInt8 → Int
  readContext : UInt8 → List UInt8 → Int × List UInt8

/-- `ctx_match_length`, a byte. -/
def Contexts.matchLength (c : Contexts) (addr : List UInt8) : Nat :=
  (UInt8.ofInt (c.matchContext addr)).toNat

/-- The two functions share no context, or one with a prefix of 64 bits. -/
inductive Contexts.Agree (c : Contexts) : Prop
  | unshared (hmatch : ∀ addr, c.matchContext addr = 0)
  | shared {head : List UInt8} (hlen : head.length = 8)
      (hmatch : ∀ addr, c.matchContext addr = if addr.take 8 = head then 64 else 0)
      (hread : ∀ addr, c.readContext 0 addr = (64, splice addr 0 head))

/-! ## Tests of an address -/

/-- `fe80::/64`. -/
def linklocalPrefix : List UInt8 := [0xfe, 0x80, 0, 0, 0, 0, 0, 0]

/-- `IS_LINKLOCAL`. -/
def isLinklocal (addr : List UInt8) : Bool := addr.take 8 == linklocalPrefix

/-- `IS_UNSPECIFIED`. -/
def isUnspecified (addr : List UInt8) : Bool := addr == List.replicate 16 0

/-- The interface identifier of an EUI-64. -/
def euiIid (eui : Vector UInt8 8) : List UInt8 :=
  [eui.get 7 ^^^ 0x2, eui.get 6, eui.get 5, eui.get 4, eui.get 3, eui.get 2, eui.get 1, eui.get 0]

/-- `iid_eui_cmp`. -/
def iidEuiCmp (iid : List UInt8) (eui : Vector UInt8 8) : Bool := iid == euiIid eui

/-- The interface identifier of a PAN and a short address. -/
def panIid (pan : UInt16) (saddr : List UInt8) : List UInt8 :=
  (pan &&& ~~~0x0200).netBytes ++ [0x00, 0xff, 0xfe, 0x00] ++ saddr

/-- `bit_range_zero_p` returns 0. A byte past the end is read under an empty mask only. -/
def bitRangeZeroP (buf : List UInt8) (start stop : Nat) : Bool :=
  let startByte := start / 8
  let endByte := stop / 8
  let startMask := UInt8.ofNat (0xff <<< (8 - start % 8))
  let endMask := UInt8.ofNat (0xff <<< (8 - stop % 8))
  (buf.getD startByte 0 &&& startMask) == 0 && (buf.getD endByte 0 &&& endMask) == 0 &&
    ((buf.take endByte).drop startByte).all (· == 0)

/-! ## Packing -/

/-- `pack_tcfl`. -/
def packTcfl (hdr : Ip6Hdr) : UInt8 × List UInt8 :=
  let flow := hdr.flow &&& 0x000fffff
  let tc := (hdr.flow >>> 20).toUInt8
  let fl2 := (flow >>> 16).toUInt8 &&& 0x0f
  let fl1 := (flow >>> 8).toUInt8
  let fl0 := flow.toUInt8
  if flow = 0 ∧ tc = 0 then (iphcTfNone, [])
  else if flow = 0 then (iphcTfEcnDscp, [tc >>> 2 ||| tc <<< 6])
  else if tc &&& 0x3 = tc then (iphcTfEcnFl, [tc <<< 6 ||| fl2, fl1, fl0])
  else (iphcTfEcnDscpFl, [tc >>> 2 ||| tc <<< 6, fl2, fl1, fl0])

/-- The next headers that are compressed. -/
def nhcCompressible (nxt : UInt8) : Bool :=
  nxt == ipv6Hop || nxt == ipv6Routing || nxt == ipv6Frag || nxt == ipv6Dest ||
    nxt == ipv6Mobility || nxt == ipv6Ipv6 || nxt == ianaUdp

/-- `pack_nh`. -/
def packNh (hdr : Ip6Hdr) : UInt8 × List UInt8 :=
  if nhcCompressible hdr.nxt then (iphcNhMask, []) else (0, [hdr.nxt])

/-- `pack_hlim`. -/
def packHlim (hdr : Ip6Hdr) : UInt8 × List UInt8 :=
  if hdr.hlim = 1 then (iphcHlim1, [])
  else if hdr.hlim = 64 then (iphcHlim64, [])
  else if hdr.hlim = 255 then (iphcHlim255, [])
  else (iphcHlimNone, [hdr.hlim])

/-- `pack_address`. -/
def packAddress (addr : List UInt8) (contextMatchLen : Nat) (l2addr : Ieee154Addr)
    (pan : UInt16) : UInt8 × List UInt8 :=
  if isLinklocal addr then
    if (addr.drop 8).take 6 = [0, 0, 0, 0, 0, 0] then (iphcAm16, addr.drop 14)
    else if (addr.drop 8 = panIid pan l2addr.saddr ∧ l2addr.mode = .short) ∨
        (l2addr.mode = .ext ∧ iidEuiCmp (addr.drop 8) l2addr.laddr) then
      (iphcAm0, [])
    else (iphcAm64, addr.drop 8)
  else if 0 < contextMatchLen then
    if contextMatchLen = 128 then (iphcAcContext ||| iphcAm0, [])
    else if bitRangeZeroP addr contextMatchLen 112 then (iphcAcContext ||| iphcAm16, addr.drop 14)
    else if bitRangeZeroP addr contextMatchLen 64 then (iphcAcContext ||| iphcAm64, addr.drop 8)
    else (iphcAm128, addr)
  else if isUnspecified addr then (iphcAcContext ||| iphcAm128, [])
  else (iphcAm128, addr)

/-- `pack_multicast`. -/
def packMulticast (addr : List UInt8) : UInt8 × List UInt8 :=
  if addr.take 2 = [0xff, 0x02] ∧ bitRangeZeroP addr 16 120 then (iphcAmM8, addr.drop 15)
  else if bitRangeZeroP addr 16 104 then (iphcAmM32, addr.getD 1 0 :: addr.drop 13)
  else if bitRangeZeroP addr 16 88 then (iphcAmM48, addr.getD 1 0 :: addr.drop 11)
  else (iphcAmM128, addr)

/-- The destination address in `lowpan_pack_headers`. -/
def packDst (c : Contexts) (dst : List UInt8) (frame : FrameAddr) : UInt8 × List UInt8 :=
  if dst.head? ≠ some 0xff then packAddress dst (c.matchLength dst) frame.dst frame.dstpan
  else
    let (dam, bytes) := packMulticast dst
    (dam ||| iphcM, bytes)

/-- `lowpan_pack_headers`: the bytes up to the pointer it returns (`none`: `NULL`). -/
def lowpanPackHeaders (c : Contexts) (packet : Ip6Packet) (frame : FrameAddr) :
    Option (List UInt8) :=
  let hdr := packet.hdr
  if hdr.flow >>> 28 ≠ ipv6Version then none
  else
    let (tf, tcfl) := packTcfl hdr
    let (nh, nxt) := packNh hdr
    let (hl, hlim) := packHlim hdr
    let (sam, src) :=
      packAddress hdr.src.toList (c.matchLength hdr.src.toList) frame.src frame.dstpan
    let (dam, dst) := packDst c hdr.dst.toList frame
    some ((lowpanDispatchByteVal ||| tf ||| nh ||| hl) ::
      (sam <<< iphcSamShift ||| dam <<< iphcDamShift) :: (tcfl ++ nxt ++ hlim ++ src ++ dst))

/-! ## Unpacking -/

/-- `unpack_tcfl`: the version, traffic class and flow label. -/
def unpackTcfl (dispatch : UInt8) (buf : List UInt8) : Except Stop (UInt32 × List UInt8) := do
  let flow (tc fl2 fl1 fl0 : UInt8) : UInt32 :=
    ipv6Version <<< 28 ||| tc.toUInt32 <<< 20 ||| fl2.toUInt32 <<< 16 ||| fl1.toUInt32 <<< 8 |||
      fl0.toUInt32
  let tf := dispatch &&& iphcTfMask
  if tf = iphcTfEcnDscp then
    let (b0, buf) ← Buffer.next buf
    .ok (flow (b0 >>> 6 ||| b0 <<< 2) 0 0 0, buf)
  else if tf = iphcTfEcnFl then
    let (b0, buf) ← Buffer.next buf
    let (b1, buf) ← Buffer.next buf
    let (b2, buf) ← Buffer.next buf
    .ok (flow (b0 >>> 6) (b0 &&& 0x0f) b1 b2, buf)
  else if tf = iphcTfEcnDscpFl then
    let (b0, buf) ← Buffer.next buf
    let (b1, buf) ← Buffer.next buf
    let (b2, buf) ← Buffer.next buf
    let (b3, buf) ← Buffer.next buf
    .ok (flow (b0 >>> 6 ||| b0 <<< 2) (b1 &&& 0x0f) b2 b3, buf)
  else .ok (flow 0 0 0 0, buf)

/-- `unpack_nh` (`none`: it leaves the next header alone). -/
def unpackNh (dispatch : UInt8) (buf : List UInt8) : Except Stop (Option UInt8 × List UInt8) := do
  if dispatch &&& iphcNhMask = iphcNhInline then
    let (nxt, buf) ← Buffer.next buf
    .ok (some nxt, buf)
  else .ok (none, buf)

/-- `unpack_hlim`. -/
def unpackHlim (dispatch : UInt8) (buf : List UInt8) : Except Stop (UInt8 × List UInt8) :=
  let hl := dispatch &&& iphcHlimMask
  if hl = iphcHlim1 then .ok (1, buf)
  else if hl = iphcHlim64 then .ok (64, buf)
  else if hl = iphcHlim255 then .ok (255, buf)
  else Buffer.next buf

/-- An address with these leading and trailing bytes, and zeros between. -/
def zeroFill (head tail : List UInt8) : List UInt8 :=
  head ++ List.replicate (16 - (head.length + tail.length)) 0 ++ tail

/-- `unpack_address` over what `lowpan_extern_read_context` leaves. -/
def unpackStateful (ctxlen : Int) (addr : List UInt8) (am : UInt8) (buf : List UInt8)
    (frame : Ieee154Addr) : Except Stop (List UInt8 × List UInt8) := do
  if am = iphcAm64 then
    let (iid, buf) ← Buffer.take 8 buf
    .ok (splice addr 8 iid, buf)
  else if am = iphcAm16 then
    let (tail, buf) ← Buffer.take 2 buf
    .ok (splice addr 14 tail, buf)
  else if ctxlen ≤ 64 ∧ frame.mode = .ext then .ok (splice addr 8 (euiIid frame.laddr), buf)
  else if ctxlen ≤ 112 then
    .ok (splice addr 8 (List.replicate 6 0 ++ frame.saddr), buf)
  else .ok (addr, buf)

/-- `unpack_address`. -/
def unpackAddress (c : Contexts) (dispatch context : UInt8) (buf : List UInt8)
    (frame : Ieee154Addr) (pan : UInt16) : Except Stop (List UInt8 × List UInt8) := do
  let am := dispatch &&& iphcAmMask
  if dispatch &&& iphcAcContext = 0 then
    if am = iphcAm128 then Buffer.take 16 buf
    else if am = iphcAm64 then
      let (iid, buf) ← Buffer.take 8 buf
      .ok (linklocalPrefix ++ iid, buf)
    else if am = iphcAm16 then
      let (tail, buf) ← Buffer.take 2 buf
      .ok (zeroFill linklocalPrefix tail, buf)
    else if frame.mode = .ext then .ok (linklocalPrefix ++ euiIid frame.laddr, buf)
    else .ok (linklocalPrefix ++ panIid pan frame.saddr, buf)
  else if am = iphcAm128 then .ok (List.replicate 16 0, buf)
  else
    let read := c.readContext context (List.replicate 16 0)
    unpackStateful read.1 read.2 am buf frame

/-- `unpack_multicast`. -/
def unpackMulticast (dispatch : UInt8) (buf : List UInt8) :
    Except Stop (List UInt8 × List UInt8) := do
  let am := dispatch &&& iphcAmMask
  let copy (amount : Nat) : Except Stop (List UInt8 × List UInt8) := do
    let (b, buf) ← Buffer.next buf
    let (tail, buf) ← Buffer.take amount buf
    .ok (zeroFill [0xff, b] tail, buf)
  if dispatch &&& iphcAcContext = 0 then
    if am = iphcAmM128 then Buffer.take 16 buf
    else if am = iphcAmM48 then copy 5
    else if am = iphcAmM32 then copy 3
    else
      let (b, buf) ← Buffer.next buf
      .ok (zeroFill [0xff, 0x02] [b], buf)
  else .error .rejected

end Lowpan
