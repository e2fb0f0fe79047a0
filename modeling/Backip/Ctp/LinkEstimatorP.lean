import Backip.Lib.Probe
import Backip.System.Types
import Backip.System.NwByte

/-!
# The link estimator (`tos/lib/net/le/LinkEstimatorP.nc`, `LinkEstimator.h`)

The table of neighbors with the estimates made from beacons and from acknowledgements, and the
frames: a header in front of the payload and a number of entries behind it. A message is its payload
region: addresses count from the first byte of what the layer below calls the payload. `highest` is
the layer below's `maxPayloadLength`.
-/

set_option autoImplicit false

namespace LinkEstimatorP

/-- `EVICT_EETX_THRESHOLD` -/
def evictEetxThreshold : UInt16 := 55

/-- `MAX_AGE` -/
def maxAge : UInt8 := 6

/-- `MAX_PKT_GAP` -/
def maxPktGap : UInt8 := 10

/-- `BEST_EETX` -/
def bestEetx : UInt16 := 0

/-- `VERY_LARGE_EETX_VALUE` -/
def veryLargeEetxValue : UInt16 := 0xff

/-- `ALPHA` -/
def alpha : Nat := 9

/-- `DLQ_PKT_WINDOW` -/
def dlqPktWindow : UInt8 := 5

/-- `BLQ_PKT_WINDOW` -/
def blqPktWindow : UInt8 := 3

/-- `LARGE_EETX_VALUE` -/
def largeEetxValue : UInt8 := 60

/-- `NEIGHBOR_TABLE_SIZE` -/
def neighborTableSize : Nat := 10

/-- `NUM_ENTRIES_FLAG` -/
def numEntriesFlag : UInt8 := 15

/-- `sizeof(linkest_header_t)`: the flags and the sequence number -/
def headerSize : Nat := 2

/-- `sizeof(linkest_footer_t)`: an address and a quality -/
def footerSize : Nat := 3

/-- `AM_BROADCAST_ADDR` -/
def amBroadcastAddr : UInt16 := 0xFFFF

/-! ## The neighbor table -/

/-- `neighbor_table_entry_t`; `valid`, `mature`, `init` and `pinned` are the bits of `flags`. -/
structure NeighborTableEntry where
  llAddr : UInt16 := 0
  lastseq : UInt8 := 0
  rcvcnt : UInt8 := 0
  failcnt : UInt8 := 0
  valid : Bool := false
  mature : Bool := false
  init : Bool := false
  pinned : Bool := false
  inage : UInt8 := 0
  outage : UInt8 := 0
  inquality : UInt8 := 0
  outquality : UInt8 := 0
  eetx : UInt16 := 0
  dataSuccess : UInt8 := 0
  dataTotal : UInt8 := 0
deriving DecidableEq, Repr

namespace NeighborTableEntry

/-- `initNeighborIdx` -/
def initNeighbor (ne : NeighborTableEntry) (llAddr : UInt16) : NeighborTableEntry :=
  { ne with
    llAddr
    lastseq := 0
    rcvcnt := 0
    failcnt := 0
    valid := true
    mature := false
    init := true
    pinned := false
    inage := maxAge
    outage := maxAge
    inquality := 0
    outquality := 0
    eetx := 0 }

/-- `updateEETX` -/
def updateEETX (w : IntWidth) (ne : NeighborTableEntry) (newEst : UInt16) : NeighborTableEntry :=
  { ne with
    eetx := UInt16.ofNat
      (w.wrap (alpha * ne.eetx.toNat + (10 - alpha) * newEst.toNat + 5) / 10) }

/-- `updateDEETX` -/
def updateDEETX (w : IntWidth) (ne : NeighborTableEntry) : NeighborTableEntry :=
  if ne.dataSuccess = 0 then
    ne.updateEETX w (UInt16.ofNat ((ne.dataTotal.toNat - 1) * 10))
  else
    { ne with dataSuccess := 0, dataTotal := 0 }.updateEETX w
      (UInt16.ofNat (10 * ne.dataTotal.toNat / ne.dataSuccess.toNat) - 10)

/-- `computeBidirEETX` -/
def computeBidirEETX (w : IntWidth) (q1 q2 : UInt8) : UInt8 :=
  if q1 > 0 ∧ q2 > 0 then
    let q := 65025 / q1.toNat
    let q := UInt16.ofNat (w.wrap (10 * q) / q2.toNat) - 10
    if q > 255 then largeEetxValue else q.toUInt8
  else largeEetxValue

/-- What `updateNeighborTableEst` makes of an entry for its neighbor. -/
def updateEst (w : IntWidth) (ne : NeighborTableEntry) : NeighborTableEntry :=
  let ne := { ne with
    inage := if ne.inage > 0 then ne.inage - 1 else ne.inage
    outage := if ne.outage > 0 then ne.outage - 1 else ne.outage }
  let ne :=
    if ne.inage = 0 ∧ ne.outage = 0 then
      { ne with valid := !ne.valid, inquality := 0, outquality := 0 }
    else
      let totalPkt := ne.rcvcnt + ne.failcnt
      let totalPkt := if totalPkt < blqPktWindow then blqPktWindow else totalPkt
      { ne with
        mature := true
        inquality :=
          if totalPkt = 0 then UInt8.ofNat (alpha * ne.inquality.toNat / 10)
          else
            let newEst := UInt8.ofNat (255 * ne.rcvcnt.toNat / totalPkt.toNat)
            UInt8.ofNat ((alpha * ne.inquality.toNat + (10 - alpha) * newEst.toNat + 5) / 10)
        rcvcnt := 0
        failcnt := 0 }
  ne.updateEETX w (computeBidirEETX w ne.inquality ne.outquality).toUInt16

/-- What `updateNeighborEntryIdx` does to the entry before it looks at `rcvcnt`. -/
def hear (ne : NeighborTableEntry) (seq : UInt8) : NeighborTableEntry :=
  let ne := if ne.init then { ne with lastseq := seq, init := false } else ne
  let packetGap := seq - ne.lastseq
  let ne := { ne with
    lastseq := seq
    rcvcnt := ne.rcvcnt + 1
    inage := maxAge
    failcnt := if packetGap > 0 then ne.failcnt + (packetGap - 1) else ne.failcnt }
  if packetGap > maxPktGap then
    { ne with failcnt := 0, rcvcnt := 1, outage := 0, outquality := 0, inquality := 0 }
  else ne

/-- `txAck` and `txNoAck`, for the neighbor's entry -/
def tx (w : IntWidth) (ack : Bool) (ne : NeighborTableEntry) : NeighborTableEntry :=
  let ne := { ne with
    dataSuccess := if ack then ne.dataSuccess + 1 else ne.dataSuccess
    dataTotal := ne.dataTotal + 1 }
  if ne.dataTotal ≥ dlqPktWindow then ne.updateDEETX w else ne

end NeighborTableEntry

abbrev NeighborTable : Type := List NeighborTableEntry

namespace NeighborTable

/-- `findIdx`; `INVALID_RVAL` is `none`. -/
def find (t : NeighborTable) (llAddr : UInt16) : Option Nat :=
  t.findIdx? fun ne => ne.valid && ne.llAddr = llAddr

/-- `findEmptyNeighborIdx` -/
def findEmpty (t : NeighborTable) : Option Nat := t.findIdx? fun ne => !ne.valid

/-- The variables of the loop of `findWorstNeighborIdx`. -/
structure Worst where
  idx : Option Nat := none
  eetx : UInt16 := 0
deriving DecidableEq, Repr

/-- One turn of the loop. -/
def Worst.turn (v : Worst) (ne : NeighborTableEntry × Nat) : Worst :=
  if !ne.1.valid || !ne.1.mature || ne.1.pinned then v
  else if ne.1.eetx ≥ v.eetx then ⟨some ne.2, ne.1.eetx⟩
  else v

/-- `findWorstNeighborIdx` -/
def findWorst (t : NeighborTable) (thresholdEETX : UInt16) : Option Nat :=
  let v := t.zipIdx.foldl Worst.turn {}
  if v.eetx ≥ thresholdEETX then v.idx else none

/-- `updateReverseQuality` -/
def updateReverseQuality (t : NeighborTable) (neighbor : UInt16) (outquality : UInt8) :
    NeighborTable :=
  match t.find neighbor with
  | some idx => t.modify idx fun ne => { ne with outquality, outage := maxAge }
  | none => t

/-- `updateNeighborTableEst` -/
def updateEst (w : IntWidth) (t : NeighborTable) (n : UInt16) : NeighborTable :=
  t.map fun ne => if ne.llAddr = n ∧ ne.valid then ne.updateEst w else ne

/-- `updateNeighborEntryIdx` -/
def updateEntry (w : IntWidth) (t : NeighborTable) (idx : Nat) (seq : UInt8) : NeighborTable :=
  let t : NeighborTable := t.modify idx (·.hear seq)
  match t[idx]? with
  | some ne => if ne.rcvcnt ≥ blqPktWindow then t.updateEst w ne.llAddr else t
  | none => t

/-- `initNeighborIdx` -/
def initNeighborIdx (t : NeighborTable) (idx : Nat) (llAddr : UInt16) : NeighborTable :=
  t.modify idx (·.initNeighbor llAddr)

/-! ## Commands of `LinkEstimator` -/

/-- `getLinkQuality` -/
def getLinkQuality (t : NeighborTable) (neighbor : UInt16) : UInt16 :=
  match (t.find neighbor).bind (t[·]?) with
  | some ne => if ne.mature then ne.eetx else veryLargeEetxValue
  | none => veryLargeEetxValue

/-- A neighbor that is signalled by `evicted`, when it is replaced at `idx`. -/
def victim (t : NeighborTable) (idx : Nat) : Option UInt16 := t[idx]?.map (·.llAddr)

/-- `insertNeighbor`, and the neighbor it evicts -/
def insertNeighbor (t : NeighborTable) (neighbor : UInt16) :
    TinyError × NeighborTable × Option UInt16 :=
  match t.find neighbor with
  | some _ => (.success, t, none)
  | none =>
    match t.findEmpty with
    | some nidx => (.success, t.initNeighborIdx nidx neighbor, none)
    | none =>
      match t.findWorst bestEetx with
      | some nidx => (.success, t.initNeighborIdx nidx neighbor, t.victim nidx)
      | none => (.fail, t, none)

/-- A command on the entry of a neighbor that is found: the commands below. -/
def onEntry (t : NeighborTable) (neighbor : UInt16)
    (f : NeighborTableEntry → NeighborTableEntry) : TinyError × NeighborTable :=
  match t.find neighbor with
  | some nidx => (.success, t.modify nidx f)
  | none => (.fail, t)

/-- `pinNeighbor` -/
def pinNeighbor (t : NeighborTable) (neighbor : UInt16) : TinyError × NeighborTable :=
  t.onEntry neighbor fun ne => { ne with pinned := true }

/-- `unpinNeighbor` -/
def unpinNeighbor (t : NeighborTable) (neighbor : UInt16) : TinyError × NeighborTable :=
  t.onEntry neighbor fun ne => { ne with pinned := false }

/-- `txAck` -/
def txAck (w : IntWidth) (t : NeighborTable) (neighbor : UInt16) : TinyError × NeighborTable :=
  t.onEntry neighbor (·.tx w true)

/-- `txNoAck` -/
def txNoAck (w : IntWidth) (t : NeighborTable) (neighbor : UInt16) : TinyError × NeighborTable :=
  t.onEntry neighbor (·.tx w false)

/-- `clearDLQ` -/
def clearDLQ (t : NeighborTable) (neighbor : UInt16) : TinyError × NeighborTable :=
  t.onEntry neighbor fun ne => { ne with dataTotal := 0, dataSuccess := 0 }

/-- The table after `Init.init`. -/
def init : NeighborTable := List.replicate neighborTableSize {}

end NeighborTable

/-! ## Sending -/

/-- `neighbor_stat_entry_t` -/
structure NeighborStatEntry where
  llAddr : UInt16
  inquality : UInt8
deriving DecidableEq, Repr

/-- The variables of the module. -/
structure State where
  neighborTable : NeighborTable := .init
  linkEstSeq : UInt8 := 0
  prevSentIdx : Nat := 0
deriving DecidableEq, Repr

/-- `SubPacket.getPayload`: where the payload starts, or `NULL` -/
def subGetPayload (highest len : UInt8) : Option Int := if len ≤ highest then some 0 else none

/-- `Packet.maxPayloadLength` -/
def maxPayloadLength (highest : UInt8) : UInt8 := highest - UInt8.ofNat headerSize

/-- `Packet.getPayload` -/
def getPayload (highest len : UInt8) : Option Int :=
  (subGetPayload highest (len + UInt8.ofNat headerSize)).map (· + headerSize)

/-- `getFooter`: where the entries behind a payload of `len` bytes start -/
def getFooter (highest len : UInt8) : Option Int :=
  (getPayload highest (len + UInt8.ofNat footerSize)).map (len.toNat + ·)

/-- A byte is written. -/
def store (mem : Int → UInt8) (a : Int) (b : UInt8) : Int → UInt8 :=
  fun a' => if a' = a then b else mem a'

/-- `neighborLists[j] = entry` -/
def storeEntry (mem : Int → UInt8) (a : Int) (entry : NeighborStatEntry) : Int → UInt8 :=
  store (store (store mem a (entry.llAddr >>> 8).toUInt8) (a + 1) entry.llAddr.toUInt8) (a + 2)
    entry.inquality

/-- The variables of the loop of `addLinkEstHeaderAndFooter`; `wild` says that an entry went to an
address computed from `NULL`. -/
structure Load where
  mem : Int → UInt8
  j : Nat := 0
  newPrevSentIdx : Nat := 0
  wild : Bool := false

/-- One turn of the loop, on the entry `k` after the last one sent. -/
def Load.turn (t : NeighborTable) (footer : Option Int) (maxEntries : Nat) (v : Load) (k : Nat) :
    Load :=
  if v.j < maxEntries then
    match t[k]? with
    | some ne =>
      if ne.valid && ne.mature then
        match footer with
        | some a =>
          { v with
            mem := storeEntry v.mem (a + footerSize * v.j) ⟨ne.llAddr, ne.inquality⟩
            j := v.j + 1
            newPrevSentIdx := k }
        | none => { v with j := v.j + 1, newPrevSentIdx := k, wild := true }
      else v
    | none => v
  else v

/-- The most entries that fit behind a payload of `len` bytes and that the header can count. -/
def maxEntries (highest len : UInt8) : Nat :=
  min ((highest.toNat - len.toNat - headerSize) / footerSize) numEntriesFlag.toNat

/-- The entries in the order the loop goes over them. -/
def order (prevSentIdx : Nat) : List Nat :=
  (List.range neighborTableSize).map fun i => (prevSentIdx + i + 1) % neighborTableSize

/-- The loop of `addLinkEstHeaderAndFooter`. -/
def State.load (highest : UInt8) (s : State) (mem : Int → UInt8) (len : UInt8) : Load :=
  (order s.prevSentIdx).foldl
    (Load.turn s.neighborTable (getFooter highest len) (maxEntries highest len)) { mem }

/-- `addLinkEstHeaderAndFooter`, for a payload that fits: the message and its length -/
def State.addLinkEstHeaderAndFooter (highest : UInt8) (s : State) (mem : Int → UInt8)
    (len : UInt8) : (Int → UInt8) × UInt8 × State :=
  let v := s.load highest mem len
  let mem := store v.mem 1 s.linkEstSeq
  let mem := store mem 0 (numEntriesFlag &&& UInt8.ofNat v.j)
  (mem, UInt8.ofNat (headerSize + len.toNat + v.j * footerSize),
    { s with prevSentIdx := v.newPrevSentIdx, linkEstSeq := s.linkEstSeq + 1 })

/-! ## Receiving -/

/-- A received message: `len` is `SubPacket.payloadLength`. -/
structure Frame where
  source : UInt16
  destination : UInt16
  mem : Int → UInt8
  len : UInt8

/-- `neighborLists[i].ll_addr` -/
def readAddr (a : Int) : Probe UInt16 := do
  let hi ← Probe.read a
  let lo ← Probe.read (a + 1)
  return ntohs hi lo

/-- The turn of the loop over the entries that looks at the one at `a`. -/
def readEntry (myLlAddr llAddr : UInt16) (t : NeighborTable) (a : Int) : Probe NeighborTable := do
  if (← readAddr a) = myLlAddr then
    return t.updateReverseQuality llAddr (← Probe.read (a + 2))
  else return t

/-- Where the entries of a message with `n` of them are read. -/
def footers (len : UInt8) (n : Nat) : List Int :=
  (List.range n).map fun i : Nat => ((len.toNat : Int) - n * footerSize) + footerSize * i

/-- The part of `processReceivedMessage` that finds or makes room for the sender: the table, whether
the sender is in it, and the neighbor that is evicted. -/
def hearSender (w : IntWidth) (t : NeighborTable) (llAddr : UInt16) :
    Probe (NeighborTable × Bool × Option UInt16) := do
  match t.find llAddr with
  | some nidx => return (t.updateEntry w nidx (← Probe.read 1), true, none)
  | none =>
    match t.findEmpty with
    | some nidx =>
      return ((t.initNeighborIdx nidx llAddr).updateEntry w nidx (← Probe.read 1), true, none)
    | none =>
      match t.findWorst evictEetxThreshold with
      | some nidx => return (t.initNeighborIdx nidx llAddr, true, t.victim nidx)
      | none => return (t, false, none)

/-- `processReceivedMessage`: the table, and the neighbor that is evicted -/
def processReceivedMessage (w : IntWidth) (myLlAddr : UInt16) (t : NeighborTable) (f : Frame) :
    Probe (NeighborTable × Option UInt16) := do
  if f.destination = amBroadcastAddr then
    let numEntries := ((← Probe.read 0) &&& numEntriesFlag).toNat
    let (t, found, evicted) ← hearSender w t f.source
    if found && numEntries > 0 then
      return (← (footers f.len numEntries).foldlM (readEntry myLlAddr f.source) t, evicted)
    else return (t, evicted)
  else return (t, none)

/-- `Packet.payloadLength` -/
def payloadLength (f : Frame) : Probe UInt8 := do
  let flags ← Probe.read 0
  return f.len - UInt8.ofNat headerSize - UInt8.ofNat footerSize * (numEntriesFlag &&& flags)

/-! ## Runs -/

/-- What reaches the table: messages, and the commands of `LinkEstimator` that change it. -/
inductive Event
  | receive (f : Frame)
  | insertNeighbor (neighbor : UInt16)
  | pinNeighbor (neighbor : UInt16)
  | unpinNeighbor (neighbor : UInt16)
  | txAck (neighbor : UInt16)
  | txNoAck (neighbor : UInt16)
  | clearDLQ (neighbor : UInt16)

namespace NeighborTable

/-- One event, on a node with the address `myLlAddr`. -/
def step (w : IntWidth) (myLlAddr : UInt16) (t : NeighborTable) : Event → NeighborTable
  | .receive f => ((processReceivedMessage w myLlAddr t f).val f.mem).1
  | .insertNeighbor n => (t.insertNeighbor n).2.1
  | .pinNeighbor n => (t.pinNeighbor n).2
  | .unpinNeighbor n => (t.unpinNeighbor n).2
  | .txAck n => (t.txAck w n).2
  | .txNoAck n => (t.txNoAck w n).2
  | .clearDLQ n => (t.clearDLQ n).2

def run (w : IntWidth) (myLlAddr : UInt16) (t : NeighborTable) (es : List Event) :
    NeighborTable :=
  es.foldl (step w myLlAddr) t

end NeighborTable

end LinkEstimatorP
