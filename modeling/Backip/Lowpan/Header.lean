import Backip.Lib.Buffer
import Backip.System.NwByte
import Mathlib.Algebra.Group.Int.Defs
import Mathlib.Algebra.Group.Nat.Defs

/-!
# Link headers of a 6lowpan frame (`ieee154_header.c`, `lib6lowpan_4944.c`)

A frame is an 802.15.4 header, at most one fragmentation header, and the rest. Sizes are `size_t`,
16 bits wide; the headers of `LIB6LOWPAN_FULL` are not compiled in.
-/

set_option autoImplicit false

namespace Lowpan

/-- A difference of `size_t`s. -/
def sizeSub (a b : Nat) : Nat := if b ≤ a then a - b else a + 2 ^ 16 - b

theorem sizeSub_of_le {a b : Nat} (h : b ≤ a) : sizeSub a b = a - b := if_pos h

/-! ## The 802.15.4 header -/

/-- The two bits of `ieee_mode`. -/
inductive AddrMode
  | none
  | reserved
  | short
  | ext
deriving DecidableEq, Repr

def AddrMode.bits : AddrMode → UInt16
  | none => 0
  | reserved => 1
  | short => 2
  | ext => 3

def AddrMode.ofBits (b : UInt16) : AddrMode :=
  if b = 0 then none else if b = 1 then reserved else if b = 2 then short else ext

/-- `ieee154_addr_t`: `data` are the bytes of the union of `i_saddr` and `i_laddr`. -/
structure Ieee154Addr where
  mode : AddrMode
  data : Vector UInt8 8
deriving DecidableEq, Repr

/-- The bytes of an EUI-64 have literal indices. -/
instance neZero_eight : @NeZero Nat Zero.ofOfNat0 8 := ⟨Nat.succ_ne_zero 7⟩

namespace Ieee154Addr

/-- `htons (letohs (i_saddr))` in memory. -/
def saddr (a : Ieee154Addr) : List UInt8 := [a.data.get 1, a.data.get 0]

/-- `i_laddr`. -/
def laddr (a : Ieee154Addr) : Vector UInt8 8 := a.data

/-- A short address with whatever stands behind it, or one extended address. -/
inductive Same : Ieee154Addr → Ieee154Addr → Prop
  | short {d d' : Vector UInt8 8} (h0 : d.get 0 = d'.get 0) (h1 : d.get 1 = d'.get 1) :
      Same ⟨.short, d⟩ ⟨.short, d'⟩
  | ext (d : Vector UInt8 8) : Same ⟨.ext, d⟩ ⟨.ext, d⟩

/-- A short or an extended address. -/
def Usable (a : Ieee154Addr) : Prop := a.mode = .short ∨ a.mode = .ext

theorem Same.refl {a : Ieee154Addr} (h : a.Usable) : Same a a := by
  obtain ⟨mode, data⟩ := a
  rcases h with rfl | rfl
  · exact .short rfl rfl
  · exact .ext data

/-- `COPY_IEEE154_ADDR`. -/
def copy (a : Ieee154Addr) : List UInt8 :=
  if a.mode = .short then a.data.toList.take 2 else a.data.toList

end Ieee154Addr

/-- `struct ieee154_frame_addr`. -/
structure FrameAddr where
  src : Ieee154Addr
  dst : Ieee154Addr
  dstpan : UInt16
deriving DecidableEq, Repr

abbrev ieee154MinHdrSz : Nat := 6
abbrev ieee154TypeData : UInt16 := 1
abbrev fcfFrameType : UInt16 := 0
abbrev fcfIntrapan : UInt16 := 6
abbrev fcfDestAddrMode : UInt16 := 10
abbrev fcfSrcAddrMode : UInt16 := 14

/-- The frame control field of `pack_ieee154_header`. -/
def fcf (frame : FrameAddr) : UInt16 :=
  ieee154TypeData <<< fcfFrameType ||| frame.src.mode.bits <<< fcfSrcAddrMode |||
    frame.dst.mode.bits <<< fcfDestAddrMode ||| 1 <<< fcfIntrapan

/-- `pack_ieee154_header`: the bytes up to the pointer it returns. The length and the sequence
number stay as they are in the buffer `buf`. -/
def packIeee154Header (buf : List UInt8) (frame : FrameAddr) : List UInt8 :=
  [buf.getD 0 0, (fcf frame).toUInt8, (fcf frame >>> 8).toUInt8, buf.getD 3 0,
    frame.dstpan.toUInt8, (frame.dstpan >>> 8).toUInt8] ++ frame.dst.copy ++ frame.src.copy

/-- Reads an address of a known mode over the bytes that are there. -/
def unpackAddr (mode : AddrMode) (old : Vector UInt8 8) (buf : List UInt8) :
    Except Stop (Ieee154Addr × List UInt8) :=
  match mode with
  | .short =>
    match buf with
    | b0 :: b1 :: buf => .ok (⟨.short, (old.setIfInBounds 0 b0).setIfInBounds 1 b1⟩, buf)
    | _ => .error .outOfBounds
  | .ext =>
    match buf with
    | b0 :: b1 :: b2 :: b3 :: b4 :: b5 :: b6 :: b7 :: buf =>
      .ok (⟨.ext, #v[b0, b1, b2, b3, b4, b5, b6, b7]⟩, buf)
    | _ => .error .outOfBounds
  | mode => .ok (⟨mode, old⟩, buf)

/-- `unpack_ieee154_hdr`: it fills in `frame` and returns where the header ends. -/
def unpackIeee154Hdr (buf : List UInt8) (frame : FrameAddr) :
    Except Stop (FrameAddr × List UInt8) := do
  match buf with
  | _ :: f0 :: f1 :: _ :: p0 :: p1 :: buf =>
    let fcf := ntohs f1 f0
    let (dst, buf) ← unpackAddr (.ofBits (fcf >>> fcfDestAddrMode &&& 3)) frame.dst.data buf
    let (src, buf) ← unpackAddr (.ofBits (fcf >>> fcfSrcAddrMode &&& 3)) frame.src.data buf
    .ok ({ src := src, dst := dst, dstpan := ntohs p1 p0 }, buf)
  | _ => .error .outOfBounds

/-! ## The fragmentation headers -/

abbrev lowmsgFrag1Len : Nat := 4
abbrev lowmsgFragNLen : Nat := 5
abbrev lowpanNalpPattern : UInt8 := 0x0
abbrev lowpanFrag1Pattern : UInt8 := 0x18
abbrev lowpanFragNPattern : UInt8 := 0x1c
abbrev lowpanIpv6Pattern : UInt8 := 0x41

/-- `LOWMSG_FRAG1_HDR` and `LOWMSG_FRAGN_HDR` in a header bitmap. -/
structure Headers where
  frag1 : Bool
  fragN : Bool
deriving DecidableEq, Repr

/-- `getHeaderBitmap` of a message (`none`: `LOWMSG_NALP`). Its length is kept in 8 bits. -/
def getHeaderBitmap (data : List UInt8) : Option Headers :=
  let len : Int := (data.length % 2 ^ 8 : Nat)
  if 0 < len ∧ data.headD 0 >>> 6 = lowpanNalpPattern then none
  else
    let frag1 : Bool := 0 < len ∧ data.headD 0 >>> 3 = lowpanFrag1Pattern
    let buf := if frag1 then data.drop lowmsgFrag1Len else data
    let len := if frag1 then len - lowmsgFrag1Len else len
    let fragN : Bool := 0 < len ∧ buf.headD 0 >>> 3 = lowpanFragNPattern
    some ⟨frag1, fragN⟩

/-- The length of the headers that `getLowpanPayload` leaves behind. -/
def Headers.len (h : Headers) : Nat :=
  (if h.frag1 then lowmsgFrag1Len else 0) + (if h.fragN then lowmsgFragNLen else 0)

/-- `getFragDgramSize` of a message with a fragmentation header. -/
def getFragDgramSize : List UInt8 → Except Stop UInt16
  | b0 :: b1 :: _ => .ok (ntohs (b0 &&& 0x7) b1)
  | _ => .error .outOfBounds

/-- `getFragDgramTag` of a message with a fragmentation header. -/
def getFragDgramTag : List UInt8 → Except Stop UInt16
  | _ :: _ :: b2 :: b3 :: _ => .ok (ntohs b2 b3)
  | _ => .error .outOfBounds

/-- `getFragDgramOffset` of a message with a `FRAGN` header. -/
def getFragDgramOffset : List UInt8 → Except Stop UInt8
  | _ :: _ :: _ :: _ :: b4 :: _ => .ok b4
  | _ => .error .outOfBounds

/-- What `setFragDgramSize` leaves of a dispatch byte, and the byte after it. -/
def setFragDgramSize (dispatch : UInt8) (size : UInt16) : List UInt8 :=
  let size := size &&& 0x7ff
  let dispatch : UInt8 := dispatch &&& 0xf8
  [dispatch ||| (size >>> 8).toUInt8, size.toUInt8]

/-- The header that `setupHeaders`, `setFragDgramSize` and `setFragDgramTag` write. -/
def frag1Header (size tag : UInt16) : List UInt8 :=
  setFragDgramSize (lowpanFrag1Pattern <<< 3) size ++ tag.netBytes

/-- The header that `setupHeaders` and the three setters write. -/
def fragNHeader (size tag : UInt16) (offset : UInt8) : List UInt8 :=
  setFragDgramSize (lowpanFragNPattern <<< 3) size ++ tag.netBytes ++ [offset]

end Lowpan
