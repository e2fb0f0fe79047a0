import Mathlib.Logic.Function.Basic

/-!
# Constants and data of BCP (`tos/lib/net/bcp/Bcp.h`)

Header fields keep the widths they have on the wire.
-/

set_option autoImplicit false

namespace BCP

/-! ## Tunable parameters -/

/-- `FORWARDING_QUEUE_SIZE`: maximum forwarding queue size. -/
abbrev forwardingQueueSize : Nat := 12
/-- `SNOOP_QUEUE_SIZE`: maximum snoop queue size. -/
abbrev snoopQueueSize : Nat := 5
/-- `ROUTING_TABLE_SIZE`: maximum neighbor count. -/
abbrev routingTableSize : Nat := 0x30
/-- `MAX_RETX_ATTEMPTS`: maximum retransmit count per link. -/
abbrev maxRetxAttempts : UInt8 := 5
abbrev beaconTime : Nat := 500
abbrev fastBeaconTime : Nat := 35
abbrev rerouteTime : Nat := 50
abbrev linkEstAlpha : Nat := 9
abbrev linkLossAlpha : Nat := 90
abbrev linkLossV : Nat := 2
/-- `PER_HOP_MAC_DLY`: typical per-hop MAC delay of a successful transmission. -/
abbrev perHopMacDly : UInt32 := 10

abbrev pktNormal : UInt8 := 1
abbrev pktNull : UInt8 := 2

/-- `TOS_BCAST_ADDR` (`AM_BROADCAST_ADDR`). -/
abbrev tosBcastAddr : UInt16 := 0xffff

/-! ## Packets -/

/-- `bcp_data_header_t`. -/
structure DataHeader where
  bcpDelay : UInt32 := 0
  bcpBackpressure : UInt16 := 0
  nhBackpressure : UInt16 := 0
  txCount : UInt16 := 0
  hdrChecksum : UInt16 := 0
  origin : UInt16 := 0
  hopCount : UInt8 := 0
  originSeqNo : UInt8 := 0
  pktType : UInt8 := 0
  nodeTxCount : UInt8 := 0
  burstNotifyAddr : UInt16 := 0
deriving DecidableEq, Repr

/-- `sizeof (bcp_data_header_t)`. -/
abbrev dataHeaderSize : Nat := 20

/-- Which packet a message carries: the `serial`-th data or null packet (`kind`) of its origin, on
its `hops`-th hop. The field is not in the code, whose header has the last eight bits of these
numbers; statements about what has been received speak about it. -/
structure Ident where
  origin : UInt16 := 0
  kind : UInt8 := 0
  serial : Nat := 0
  hops : Nat := 0
deriving DecidableEq, Repr

/-- `message_t`: the addresses and the length of the radio header, the BCP header, and the payload
behind it. The message of zero bytes is `{}`. -/
structure Message where
  src : UInt16 := 0
  dst : UInt16 := 0
  length : UInt8 := 0
  hdr : DataHeader := {}
  data : List UInt8 := []
  ident : Ident := {}
deriving DecidableEq, Repr

/-- Addresses of messages: `NULL`, a buffer of `MessagePool`, `loopbackMsg`, or a buffer of another
component (the radio, the applications). -/
inductive MsgPtr
  | null
  | pool (i : Nat)
  | loopback
  | other (i : Nat)
deriving DecidableEq, Repr

/-- Addresses of queue entries: `NULL` or an entry of `QEntryPool`. -/
inductive QePtr
  | null
  | entry (i : Nat)
deriving DecidableEq, Repr

/-- `fe_queue_entry_t`; `source` is `LOCAL_SEND` (1) or `FORWARD` (2). -/
structure FeQueueEntry where
  bcpArrivalDelay : UInt32 := 0
  arrivalTime : UInt32 := 0
  firstTxTime : UInt32 := 0
  source : UInt8 := 0
  msg : MsgPtr := .null
  txCount : UInt8 := 0
deriving DecidableEq, Repr

/-- `latestForwarded_table_entry`: the last packet received from a neighbor. -/
structure LatestForwardedEntry where
  neighbor : UInt16
  origin : UInt16
  originSeqNo : UInt8
  hopCount : UInt8
deriving DecidableEq, Repr

/-! ## The header checksum -/

/-- `calcHdrChecksum`: the sum of the control fields, in 32 bits. -/
def calcHdrChecksum (msg : Message) : UInt32 :=
  let hdr := msg.hdr
  hdr.bcpDelay + hdr.bcpBackpressure.toUInt32 + hdr.txCount.toUInt32 + hdr.origin.toUInt32 +
    hdr.hopCount.toUInt32 + hdr.originSeqNo.toUInt32 + hdr.pktType.toUInt32

/-- The header with the checksum `sendDataTask` stores: the variable it is computed in has 16
bits. -/
def Message.stampChecksum (msg : Message) : Message :=
  { msg with hdr := { msg.hdr with hdrChecksum := (calcHdrChecksum msg).toUInt16 } }

/-- The comparison in `SubReceive.receive`: the sum in 32 bits with the field of 16. -/
def Message.checksumOk (msg : Message) : Bool :=
  calcHdrChecksum msg == msg.hdr.hdrChecksum.toUInt32

end BCP
