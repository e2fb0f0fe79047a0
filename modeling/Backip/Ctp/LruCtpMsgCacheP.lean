import Mathlib.Logic.Function.Basic

/-!
# CTP data packets and the cache of those that were sent (`tos/lib/net/ctp/Ctp.h`,
`LruCtpMsgCacheP.nc`)

Header fields keep the widths they have on the wire. The cache is an array used as a ring, whose
`count` elements stand in the cells from `first` on.
-/

set_option autoImplicit false

namespace Ctp

/-- `CTP_OPT_PULL`. -/
def ctpOptPull : UInt8 := 0x80

/-- `CTP_OPT_ECN`. -/
def ctpOptEcn : UInt8 := 0x40

/-- `sizeof (ctp_data_header_t)`. -/
def dataHeaderSize : UInt8 := 8

/-- `message_t`: the destination and the length of the radio header, `ctp_data_header_t`, and the
acknowledgement bit of the metadata. The message of zero bytes is `{}`. -/
structure Message where
  dst : UInt16 := 0
  length : UInt8 := 0
  options : UInt8 := 0
  thl : UInt8 := 0
  etx : UInt16 := 0
  origin : UInt16 := 0
  originSeqNo : UInt8 := 0
  type : UInt8 := 0
  acked : Bool := false
deriving DecidableEq, Repr

/-- `CtpPacket.matchInstance`. -/
def Message.matchInstance (m₁ m₂ : Message) : Bool :=
  m₁.origin = m₂.origin && m₁.originSeqNo = m₂.originSeqNo && m₁.thl = m₂.thl && m₁.type = m₂.type

/-- `ctp_packet_sig_t`. -/
structure PacketSig where
  origin : UInt16 := 0
  seqno : UInt8 := 0
  type : UInt8 := 0
  thl : UInt8 := 0
deriving DecidableEq, Repr

def Message.sig (m : Message) : PacketSig := ⟨m.origin, m.originSeqNo, m.type, m.thl⟩

structure LruCtpMsgCacheP (size : Nat) where
  cache : Nat → PacketSig := fun _ => {}
  first : Nat := 0
  count : Nat := 0

namespace LruCtpMsgCacheP

variable {size : Nat}

/-- `lookup`: the index of a packet, relative to `first`, or `count` if it is not found. -/
def find (c : LruCtpMsgCacheP size) (m : Message) : Nat :=
  (List.range c.count).findIdx fun i => c.cache ((i + c.first) % size) = m.sig

/-- `Cache.lookup`. -/
def lookup (c : LruCtpMsgCacheP size) (m : Message) : Bool := c.find m < c.count

/-- `remove`: the entry with index `i`, relative to `first`. -/
def remove (c : LruCtpMsgCacheP size) (i : Nat) : LruCtpMsgCacheP size :=
  if i ≥ c.count then c
  else if i = 0 then { c with first := (c.first + 1) % size, count := c.count - 1 }
  else
    { c with
      -- shift everyone down
      cache := ((List.range c.count).drop i).foldl (fun cache j =>
        Function.update cache ((j + c.first) % size) (cache ((j + c.first + 1) % size))) c.cache
      count := c.count - 1 }

/-- `Cache.insert`. -/
def insert (c : LruCtpMsgCacheP size) (m : Message) : LruCtpMsgCacheP size :=
  let c := if c.count = size then c.remove (c.find m % c.count) else c
  { c with
    cache := Function.update c.cache ((c.first + c.count) % size) m.sig
    count := c.count + 1 }

end LruCtpMsgCacheP

end Ctp
