import Backip.System.IPPacket

/-!
# Constants and data of BackIP (`tos/lib/net/backip/BackIP.h`, `tos/types/Ieee154.h`)

The C types of the platform the sources are built for in simulation: `int` has 32 bits. Unsigned
fields are natural numbers; where the code lets them wrap, the functions say so.
-/

set_option autoImplicit false

namespace BackIP

/-! ## Tunable parameters -/

/-- `FORWARDING_QUEUE_SIZE`: packets to hold. -/
abbrev forwardingQueueSize : Nat := 10
/-- `BP_DIFF_THRESH`: beacon if the backpressure has changed by this much. -/
abbrev bpDiffThresh : Nat := 2
abbrev idleBeaconInterval : Nat := 2000
abbrev fastBeaconInterval : Nat := 100
abbrev retryInterval : Nat := 50
abbrev rerouteInterval : Nat := 50
abbrev linkEtxAlpha : Nat := 90
abbrev linkTxTimeAlpha : Nat := 9
abbrev linkEtxV : Nat := 2
/-- `MAX_RETX_ATTEMPTS`: before giving up on a link. -/
abbrev maxRetxAttempts : Nat := 5
/-- `MAX_NEIGHBOURS`: the size of the neighbour table. -/
abbrev maxNeighbours : Nat := 0x30

abbrev beaconTypeNorm : Nat := 100
abbrev beaconTypeReq : Nat := 200

/-! ## Link-layer addresses -/

/-- `ll_addr_t` (`ieee154_addr_t`): the mode and the member of the union it selects. -/
inductive LlAddr
  | none
  | short (saddr : UInt16)
  | ext (laddr : Vector UInt8 8)
deriving DecidableEq, Repr

/-- The bytes `rewrite_dst_ll_addr` copies: two for a short address, else all eight of the union
(zero in the address a node starts with). -/
def LlAddr.bytes : LlAddr → List UInt8
  | .none => List.replicate 8 0
  | .short saddr => [saddr.toUInt8, (saddr >>> 8).toUInt8]
  | .ext laddr => laddr.toList

/-! ## Messages and queue entries -/

/-- What a frame was cut from: the packet of the `n`-th beacon, or any other. The field is not in
the code: it names the sender of a frame in statements about frames that have changed hands. -/
inductive Origin
  | data
  | beacon (n : Nat)
deriving DecidableEq, Repr

/-- `message_t`: the frame buffer, the length the radio header gives, and the metadata of the link
layer. -/
structure Message where
  data : List UInt8
  length : Nat
  maxRetries : Nat
  retryDelay : Nat
  origin : Origin
deriving DecidableEq, Repr

/-- Addresses of messages: `NULL`, a buffer of the forwarding queue's `MessagePool`, or a buffer of
the layer above. -/
inductive MsgPtr
  | null
  | pool (i : Nat)
  | frag (i : Nat)
deriving DecidableEq, Repr

/-- Addresses of queue entries: `NULL` or an entry of `QEntryPool`. -/
inductive QePtr
  | null
  | entry (i : Nat)
deriving DecidableEq, Repr

/-- `fe_queue_entry_t`. -/
structure QueueEntry where
  msg : MsgPtr
  txCount : Nat
  firstTxTime : Nat
deriving DecidableEq, Repr

/-! ## Words in packets -/

/-- `ntohl` of a little-endian node (`htonl` is the same function). -/
def ntohl (i : UInt32) : UInt32 :=
  let lo := i.toUInt16
  let hi := (i >>> 16).toUInt16
  let lo := (lo <<< 8) ||| (lo >>> 8)
  let hi := (hi <<< 8) ||| (hi >>> 8)
  (lo.toUInt32 <<< 16) ||| hi.toUInt32

/-- `write_4B`: the bytes written. -/
def write4B (data : UInt32) : List UInt8 :=
  let ndata := ntohl data
  [((ndata &&& 0xff000000) >>> 24).toUInt8, ((ndata &&& 0xff0000) >>> 16).toUInt8,
    ((ndata &&& 0xff00) >>> 8).toUInt8, (ndata &&& 0xff).toUInt8]

/-- `read_4B`. -/
def read4B (buf : List UInt8) : UInt32 :=
  let byte (i : Nat) : UInt32 := (buf.getD i 0).toUInt32
  let ndata := (byte 0 <<< 24) &&& 0xff000000
  let ndata := ndata ||| ((byte 1 <<< 16) &&& 0xff0000)
  let ndata := ndata ||| ((byte 2 <<< 8) &&& 0xff00)
  let ndata := ndata ||| (byte 3 &&& 0xff)
  ntohl ndata

end BackIP

/-! ## The backpressure option of a packet (`ForwardingEvents` of `BackIPBeaconingP.nc`)

`initiate` puts a hop-by-hop header with the sender's backpressure in front of the payload of a
local packet; `approve` overwrites the value in a packet on its way. Both get what
`GetBackpressure` returns as `backpressure`; both always return `TRUE`. -/

namespace BackIP

/-- `BACKIP_HBH_OPT_TYPE`. -/
abbrev backipHbhOptType : UInt8 := 0x7E

/-- `backip_data_hdr_t`. -/
structure BackipDataHdr where
  outerNxt : UInt8
  outerLen : UInt8
  innerNxt : UInt8
  innerLen : UInt8
  data : UInt8
  pad0 : UInt8
  pad1 : UInt16
deriving DecidableEq, Repr

/-- `sizeof (backip_data_hdr_t)`, `offsetof (backip_data_hdr_t, data)` and
`sizeof (struct tlv_hdr)`. -/
abbrev dataHdrSize : Nat := 8
abbrev dataHdrOffset : Nat := 4
abbrev tlvHdrSize : Nat := 2

/-- The header in memory (`pad1` in network order). -/
def BackipDataHdr.bytes (h : BackipDataHdr) : List UInt8 :=
  [h.outerNxt, h.outerLen, h.innerNxt, h.innerLen, h.data, h.pad0, (h.pad1 >>> 8).toUInt8,
    h.pad1.toUInt8]

/-- `ForwardingEvents.initiate`. The padding of the `static` header is never written. -/
def initiate (backpressure : Nat) (pkt : Ip6Packet) : Ip6Packet :=
  if pkt.hdr.nxt = ianaIcmp then pkt
  else
    let dataHdr : BackipDataHdr := {
      outerNxt := pkt.hdr.nxt
      outerLen := 0
      innerNxt := backipHbhOptType
      innerLen := .ofNat (dataHdrSize - dataHdrOffset)
      data := .ofNat (backpressure + 1)
      pad0 := 0
      pad1 := 0 }
    { pkt with
      hdr := { pkt.hdr with nxt := ipv6Hop, plen := pkt.hdr.plen + .ofNat dataHdrSize }
      data := dataHdr.bytes :: pkt.data }

/-- `ForwardingEvents.approve` (`none`: `iov_update` runs off the chain). -/
def approve (backpressure : Nat) (pkt : Ip6Packet) : Option Ip6Packet :=
  match (IPPacket.findHeader pkt.data pkt.hdr.nxt ipv6Hop).1 with
  | none => some pkt
  | some off =>
    match IPPacket.findTlv pkt.data off backipHbhOptType with
    | none => some pkt
    | some off =>
      let data := pkt.data.read (off + tlvHdrSize) (dataHdrSize - dataHdrOffset)
      if data.length ≠ dataHdrSize - dataHdrOffset then some pkt
      else
        (IpIovec.update (off + tlvHdrSize) (data.set 0 (.ofNat backpressure)) pkt.data).map
          fun data => { pkt with data := data }

end BackIP
