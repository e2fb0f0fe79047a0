import Backip.Lowpan.Nhc
import Mathlib.Algebra.Group.Int.Defs
import Mathlib.Algebra.Group.Nat.Defs

/-!
# Fragmentation and reassembly (`lib6lowpan_frag.c`)

`lowpanFragGet` makes the next frame of a packet, `lowpanReconStart` and `lowpanReconAdd` take the
first and the other fragments into a reassembly. A block of `ip_malloc` belongs to the one pointer
to it; whether there is one is an argument.
-/

set_option autoImplicit false

namespace Lowpan

abbrev lib6lowpanMaxLen : Nat := 100
abbrev lowpanLinkMtu : Nat := 109

/-! ## Reassembly -/

/-- `r_buf`: `freed` is a pointer to a block that has been given back. -/
inductive RBuf
  | null
  | block (bytes : List UInt8)
  | freed
deriving DecidableEq, Repr

/-- `r_timeout`. -/
inductive Timeout
  | failed1
  | failed2
  | unused
  | active
  | zombie
deriving DecidableEq, Repr

/-- `struct ip6_metadata`. -/
structure Ip6Metadata where
  sender : Ieee154Addr
  lqi : UInt8
  rssi : UInt8
deriving DecidableEq, Repr

/-- `struct lowpan_reconstruct`. `r_app_len` and `r_transport_header` are read only where they are
set (`Unpacked`). -/
structure LowpanReconstruct where
  tag : UInt16
  sourceKey : UInt16
  size : UInt16
  buf : RBuf
  bytesRcvd : UInt16
  timeout : Timeout
  metadata : Ip6Metadata
deriving DecidableEq, Repr

/-- `lowpan_recon_start`, what it does with the frame behind the link headers: a header that is not
compressed is copied. -/
def reconUnpack (c : Contexts) (frame : FrameAddr) (rbuf unpackPoint : List UInt8) :
    Except Stop Unpacked := do
  let (b, rest) ← Buffer.next unpackPoint
  if b = lowpanIpv6Pattern then
    let rbuf ← Buffer.write rbuf 0 rest
    .ok ⟨rbuf, rest.length, none, none⟩
  else lowpanUnpackHeaders c frame rbuf rbuf.length unpackPoint

/-- `lowpan_recon_start`, the elided lengths. -/
def reconFill (size : UInt16) (u : Unpacked) : Except Stop (List UInt8) := do
  let rbuf ← Buffer.write u.rbuf 4 (size - .ofNat ip6HdrSize).netBytes
  match u.appLen with
  | none => .ok rbuf
  | some appLen =>
    Buffer.write rbuf appLen (size - .ofNat (u.transportHeader.getD 0)).netBytes

/-- `r_tag` and `r_size` of a new reassembly. -/
def reconSetup (recon : LowpanReconstruct) (headers : Headers) (pkt : List UInt8) :
    Except Stop LowpanReconstruct :=
  if headers.frag1 then do
    let tag ← getFragDgramTag pkt
    let size ← getFragDgramSize pkt
    .ok { recon with tag := tag, size := size }
  else .ok { recon with size := .ofNat (lib6lowpanMaxLen + lowpanLinkMtu) }

/-- `lowpan_recon_start`: its result and `recon`. `allocated`: `ip_malloc` finds a block. -/
def lowpanReconStart (c : Contexts) (allocated : Bool) (frame : FrameAddr)
    (recon : LowpanReconstruct) (pkt : List UInt8) : Except Stop (Int × LowpanReconstruct) :=
  match getHeaderBitmap pkt with
  | none => .ok (-1, recon)
  | some headers => do
    let recon ← reconSetup recon headers pkt
    if !allocated then .ok (-2, { recon with buf := .null })
    else
      let rbuf := List.replicate recon.size.toNat 0
      match reconUnpack c frame rbuf (pkt.drop headers.len) with
      | .error .rejected => .ok (-3, { recon with buf := .freed })
      | .error .outOfBounds => .error .outOfBounds
      | .ok u =>
        let size := if headers.frag1 then recon.size else .ofNat u.stop
        let rbuf ← reconFill size u
        .ok (0, { recon with size := size, bytesRcvd := .ofNat u.stop, buf := .block rbuf })

/-- `lowpan_recon_add`: its result and `recon`. The offset of the fragment is not looked at. -/
def lowpanReconAdd (recon : LowpanReconstruct) (pkt : List UInt8) :
    Except Stop (Int × LowpanReconstruct) :=
  match getHeaderBitmap pkt with
  | none => .ok (-1, recon)
  | some headers =>
    if !headers.fragN then .ok (-2, recon)
    else
      let len := sizeSub pkt.length headers.len
      if recon.size.toNat < (recon.bytesRcvd.toNat + len) % 2 ^ 16 then .ok (-3, recon)
      else do
        let (payload, _) ← Buffer.take len (pkt.drop headers.len)
        match recon.buf with
        | .block rbuf =>
          let rbuf ← Buffer.write rbuf recon.bytesRcvd.toNat payload
          .ok (0, { recon with
            buf := .block rbuf
            bytesRcvd := recon.bytesRcvd + .ofNat len })
        | _ => if payload = [] then .ok (0, recon) else .error .outOfBounds

/-! ## Fragmentation -/

/-- `struct lowpan_ctx`. -/
structure LowpanCtx where
  tag : UInt16
  offset : UInt16
deriving DecidableEq, Repr

/-- `lowpan_frag_get` at offset 0. -/
def firstFrag (c : Contexts) (frag : List UInt8) (len : Nat) (packet : Ip6Packet)
    (frame : FrameAddr) (ctx : LowpanCtx) : Except Int (List UInt8 × LowpanCtx) :=
  let ieee := packIeee154Header frag frame
  match lowpanPackHeaders c packet frame with
  | none => .error (-1)
  | some iphc =>
    let used := ieee.length + iphc.length
    match packNhcChain (frag.drop used) (sizeSub len used) packet with
    | none => .error (-2)
    | some (nhc, offset) =>
      let used := used + nhc.length
      let extra := sizeSub packet.hdr.plen.toNat offset
      let room := sizeSub len (used + lowmsgFrag1Len)
      let (fragHdr, extra) :=
        if sizeSub len used < extra then
          (frag1Header (packet.hdr.plen + .ofNat ip6HdrSize) ctx.tag, room - room % 8)
        else ([], extra)
      let payload := packet.data.read offset extra
      if payload.length ≠ extra then .error (-3)
      else
        .ok (ieee ++ fragHdr ++ iphc ++ nhc ++ payload,
          { ctx with offset := .ofNat (offset + extra + ip6HdrSize) })

/-- `lowpan_frag_get` past offset 0. The setters do not fail: the dispatch byte is `FRAGN`'s. -/
def nextFrag (frag : List UInt8) (len : Nat) (packet : Ip6Packet) (frame : FrameAddr)
    (ctx : LowpanCtx) : Except Int (List UInt8 × LowpanCtx) :=
  let ieee := packIeee154Header frag frame
  let size := packet.hdr.plen + .ofNat ip6HdrSize
  let fragHdr := fragNHeader size ctx.tag (.ofNat (ctx.offset.toNat / 8))
  let room := sizeSub len (ieee.length + lowmsgFragNLen)
  let extra := (size - ctx.offset).toNat
  let extra := if room < extra then room - room % 8 else extra
  let payload := packet.data.read (sizeSub ctx.offset.toNat ip6HdrSize) extra
  if payload.length ≠ extra then .error (-4)
  else if extra = 0 then .ok ([], ctx)
  else .ok (ieee ++ fragHdr ++ payload, { ctx with offset := ctx.offset + .ofNat extra })

/-- `lowpan_frag_get` into the buffer `frag` of `len` bytes: the bytes of the frame, as many as it
returns, and `ctx`; or the negative result. -/
def lowpanFragGet (c : Contexts) (frag : List UInt8) (len : Nat) (packet : Ip6Packet)
    (frame : FrameAddr) (ctx : LowpanCtx) : Except Int (List UInt8 × LowpanCtx) :=
  if ctx.offset = 0 then firstFrag c frag len packet frame ctx
  else nextFrag frag len packet frame ctx

end Lowpan
