import Backip.Lib.Ipv6
import Backip.System.Iovec
import Backip.System.NwByte

/-!
# Packets (`support/sdk/c/blip/lib6lowpan/ip.h`, `tos/lib/net/blip/IPPacketC.nc`)

`findHeader` and `findTlv` locate an extension header in a payload and an option in it. Both walk
the bytes through `iov_read`, so only the bytes matter, not how they are cut into buffers; both stop
because each turn reads further on. `findTlv_of_options` says where `findTlv` finds an option.
-/

set_option autoImplicit false

/-! ## Constants -/

abbrev ianaIcmp : UInt8 := 58
abbrev ianaUdp : UInt8 := 17
abbrev ipv6Hop : UInt8 := 0
abbrev ipv6Ipv6 : UInt8 := 41
abbrev ipv6Routing : UInt8 := 43
abbrev ipv6Frag : UInt8 := 44
abbrev ipv6Nonext : UInt8 := 59
abbrev ipv6Dest : UInt8 := 60
abbrev ipv6Mobility : UInt8 := 135
/-- `IP6PKT_TRANSPORT`: stands for the transport header in a search. -/
abbrev ip6pktTransport : UInt8 := 0xff

/-- `struct ip6_hdr`, its fields in host order. -/
structure Ip6Hdr where
  flow : UInt32
  plen : UInt16
  nxt : UInt8
  hlim : UInt8
  src : Vector UInt8 16
  dst : Vector UInt8 16
deriving DecidableEq, Repr

/-- The header in memory. -/
def Ip6Hdr.bytes (h : Ip6Hdr) : List UInt8 :=
  h.flow.netBytes ++ h.plen.netBytes ++ [h.nxt, h.hlim] ++ h.src.toList ++ h.dst.toList

/-- `struct ip6_packet`. -/
structure Ip6Packet where
  inputif : Int
  hdr : Ip6Hdr
  data : IpIovec
deriving DecidableEq, Repr

namespace Ip6Packet

/-- The bytes of the payload. -/
def bytes (pkt : Ip6Packet) : List UInt8 := pkt.data.flatten

structure WellFormed (pkt : Ip6Packet) : Prop where
  plen : pkt.hdr.plen.toNat = pkt.bytes.length
  payload : Ipv6.Payload pkt.hdr.nxt pkt.bytes

end Ip6Packet

namespace IPPacket

/-! ## `findHeader` -/

/-- The loop of `findHeader` goes on past a header of type `nxt`. -/
def skips (search nxt : UInt8) : Bool :=
  (search == ip6pktTransport &&
    (nxt == ipv6Hop || nxt == ipv6Routing || nxt == ipv6Frag || nxt == ipv6Dest ||
      nxt == ipv6Mobility)) ||
    (search != ip6pktTransport && search != nxt)

/-- The loop of `findHeader`: the offset and the type it ends at. -/
def findHeaderLoop (payload : IpIovec) (search : UInt8) (off : Nat) (nxt : UInt8) :
    Option (Nat × UInt8) :=
  if skips search nxt then
    match h : payload.read off 2 with
    | [nxt', len] => findHeaderLoop payload search (off + (len.toNat + 1) * 8) nxt'
    | _ => none
  else some (off, nxt)
termination_by payload.len - off
decreasing_by
  have := IpIovec.le_len_of_read h (by simp)
  simp only [List.length_cons, List.length_nil] at this
  omega

/-- `IPPacket.findHeader`: the offset (`none`: -1), and what it leaves in `*search_type`. -/
def findHeader (payload : IpIovec) (firstType search : UInt8) : Option Nat × UInt8 :=
  match findHeaderLoop payload search 0 firstType with
  | none => (none, search)
  | some (off, nxt) =>
    (if nxt = ipv6Nonext then none else some off, if search = ip6pktTransport then nxt else search)

/-! ## `findTLV` -/

/-- The loop of `findTLV` in a header of length field `len`. -/
def findTlvLoop (header : IpIovec) (extOffset : Nat) (len type : UInt8) (off : Nat) : Option Nat :=
  if off - extOffset < (len.toNat + 1) * 8 then
    match header.read off 2 with
    | [t, l] =>
      if t = type then some off else findTlvLoop header extOffset len type (off + (2 + l.toNat))
    | _ => none
  else none
termination_by extOffset + (len.toNat + 1) * 8 - off

/-- `IPPacket.findTLV`: the offset of the option (`none`: -1). -/
def findTlv (header : IpIovec) (extOffset : Nat) (type : UInt8) : Option Nat :=
  match header.read extOffset 2 with
  | [_, len] => findTlvLoop header extOffset len type (extOffset + 2)
  | _ => none

/-- The loop passes over the options of another type. -/
theorem findTlvLoop_of_options {header : IpIovec} {extOffset : Nat} {len type l : UInt8}
    (pre : List UInt8) {rest : List UInt8} {tlvs : List Ipv6.Tlv} (hne : ∀ t ∈ tlvs, t.type ≠ type)
    (hflat : header.flatten = pre ++ (tlvs.flatMap Ipv6.Tlv.bytes ++ type :: l :: rest))
    (hin : pre.length + (tlvs.flatMap Ipv6.Tlv.bytes).length - extOffset < (len.toNat + 1) * 8) :
    findTlvLoop header extOffset len type pre.length =
      some (pre.length + (tlvs.flatMap Ipv6.Tlv.bytes).length) := by
  induction tlvs generalizing pre with
  | nil =>
    rw [findTlvLoop, if_pos (by simpa using hin), IpIovec.read_two hflat]
    simp
  | cons t tlvs ih =>
    obtain ⟨htype, htlvs⟩ := List.forall_mem_cons.1 hne
    have hlen : (UInt8.ofNat t.data.length).toNat = t.data.length :=
      UInt8.toNat_ofNat_of_lt' t.short
    rw [List.flatMap_cons, List.append_assoc] at hflat
    have htwo := IpIovec.read_two (show header.flatten =
      pre ++ t.type :: UInt8.ofNat t.data.length ::
        (t.data ++ (tlvs.flatMap Ipv6.Tlv.bytes ++ type :: l :: rest)) from hflat)
    rw [List.flatMap_cons, List.length_append] at hin
    have hpre : (pre ++ t.bytes).length = pre.length + (2 + t.data.length) := by
      rw [List.length_append, Ipv6.Tlv.bytes, List.length_cons, List.length_cons]
      omega
    rw [findTlvLoop, if_pos (by omega), htwo]
    simp only [htype, if_false]
    rw [hlen, ← hpre, ih (pre ++ t.bytes) htlvs (by rw [hflat, List.append_assoc])
      (by rw [List.length_append]; omega), List.flatMap_cons, List.length_append,
      List.length_append, Nat.add_assoc]

/-- **`findTLV` finds an option behind options of other types**, in a header at `pre.length`. -/
theorem findTlv_of_options {header : IpIovec} {nxt len type l : UInt8} (pre : List UInt8)
    {rest : List UInt8} {tlvs : List Ipv6.Tlv} (hne : ∀ t ∈ tlvs, t.type ≠ type)
    (hflat : header.flatten =
      pre ++ nxt :: len :: (tlvs.flatMap Ipv6.Tlv.bytes ++ type :: l :: rest))
    (hin : (tlvs.flatMap Ipv6.Tlv.bytes).length < 8 * len.toNat + 6) :
    findTlv header pre.length type =
      some (pre.length + 2 + (tlvs.flatMap Ipv6.Tlv.bytes).length) := by
  have hpre : (pre ++ [nxt, len]).length = pre.length + 2 := List.length_append
  rw [findTlv, IpIovec.read_two hflat]
  dsimp only
  rw [← hpre]
  have hflat' : header.flatten =
      (pre ++ [nxt, len]) ++ (tlvs.flatMap Ipv6.Tlv.bytes ++ type :: l :: rest) := by
    rw [hflat, List.append_assoc]
    rfl
  exact findTlvLoop_of_options _ hne hflat' (by rw [hpre]; omega)

end IPPacket
