import Backip.BCP.Header
import Backip.Lib.Machine
import Backip.System.Types
import Mathlib.Algebra.Group.Int.Defs
import Mathlib.Algebra.Group.Nat.Defs
import Mathlib.Data.Int.Order.Basic

/-!
# The routing engine (`tos/lib/net/bcp/BcpRoutingEngineP.nc`)

`RoutingTable` is the array `routingTable` with `routingTableActive`; the cells from there on are
not in use, but the code writes to them too. Where the code would leave the array, or divide by
zero, there is no result (`none`).

`RoutingTable.machine` is the engine called in any order, with any arguments. Debug reports are
left out.
-/

set_option autoImplicit false

namespace BCP

/-- `routing_table_entry`. -/
structure RoutingTableEntry where
  backpressure : UInt16 := 0
  /-- Exponential moving average in 100US units. -/
  linkPacketTxTime : UInt16 := 0
  /-- Exponential moving average of ETX (in 100ths of expected transmissions). -/
  linkETX : UInt16 := 0
  lastTxNoStreakID : UInt8 := 0
  txNoStreakCount : UInt8 := 0
  neighbor : UInt16 := 0
  isBurstyNow : Bool := false
deriving DecidableEq, Repr

structure RoutingTable where
  routingTable : Nat → RoutingTableEntry
  routingTableActive : Nat

namespace RoutingTable

/-- `Init.init`. -/
def init : RoutingTable := ⟨fun _ => {}, 0⟩

/-- `routingTableFind`: the index of a neighbor, or `routingTableActive` if it is not found. -/
def routingTableFind (t : RoutingTable) (neighbor : UInt16) : Nat :=
  if neighbor = tosBcastAddr then t.routingTableActive
  else
    ((List.range t.routingTableActive).find? fun i =>
      (t.routingTable i).neighbor == neighbor).getD t.routingTableActive

/-- Write a cell. -/
def set (t : RoutingTable) (idx : Nat) (e : RoutingTableEntry) : RoutingTable :=
  { t with routingTable := Function.update t.routingTable idx e }

/-- `routingTableUpdateEntry`. -/
def routingTableUpdateEntry (t : RoutingTable) (src : UInt16) (backpressure : UInt16) :
    TinyError × RoutingTable :=
  let idx := t.routingTableFind src
  if idx = routingTableSize then (.fail, t)
  else if idx = t.routingTableActive then
    (.success,
      { t.set idx
          { neighbor := src
            backpressure := backpressure
            linkPacketTxTime := 1
            linkETX := 100
            lastTxNoStreakID := 0
            txNoStreakCount := 0
            isBurstyNow := false } with
        routingTableActive := t.routingTableActive + 1 })
  else (.success, t.set idx { t.routingTable idx with backpressure := backpressure })

/-! ## Choosing the next hop -/

/-- The weight of a link that is not bursty: computed in 32 unsigned bits, read as a signed
number. -/
def compareWeight (localBackpressure : UInt16) (e : RoutingTableEntry) : Option Int :=
  let longLinkETX := linkLossV * e.linkETX.toNat / 100
  if e.linkPacketTxTime = 0 then none
  else
    let longLinkRate := 10000 / e.linkPacketTxTime.toNat
    some ((((localBackpressure.toNat : Int) - e.backpressure.toNat - longLinkETX) *
      longLinkRate).bmod (2 ^ 32))

/-- The variables of the scan. -/
structure Scan where
  table : RoutingTable
  maxWeightIdx : Nat := 0
  maxWeight : Int := -1
  burstNeighborFound : Bool := false
  bestBurstNeighborIdx : Nat := 0
  bestBurstNeighborBackpressure : UInt16 := 0

/-- One turn of the scan, at `compareIdx`. -/
def Scan.turn (localBackpressure : UInt16) (v : Scan) (compareIdx : Nat) : Option Scan :=
  let e := v.table.routingTable compareIdx
  if e.isBurstyNow then
    let v := { v with table := v.table.set compareIdx { e with isBurstyNow := false } }
    if !v.burstNeighborFound || v.bestBurstNeighborBackpressure > e.backpressure then
      some { v with
        burstNeighborFound := true
        bestBurstNeighborIdx := compareIdx
        bestBurstNeighborBackpressure := e.backpressure }
    else some v
  else
    (compareWeight localBackpressure e).map fun weight =>
      if weight > v.maxWeight then { v with maxWeightIdx := compareIdx, maxWeight := weight }
      else v

/-- The first `n` turns. -/
def scan (t : RoutingTable) (localBackpressure : UInt16) : Nat → Option Scan
  | 0 => some { table := t }
  | n + 1 => (t.scan localBackpressure n).bind fun v => v.turn localBackpressure n

/-- What `updateRouting` returns, the `setNextHopAddress` it signals, and the table it leaves. -/
structure Routed where
  ret : TinyError
  signals : List (UInt16 × UInt16)
  table : RoutingTable

/-- What follows the scan: the bursty neighbor goes first if it is no worse than the neighbor of
the largest weight. -/
def Scan.choose (localBackpressure : UInt16) (v : Scan) : Routed :=
  let burst := v.burstNeighborFound &&
    (v.table.routingTable v.maxWeightIdx).backpressure ≥ v.bestBurstNeighborBackpressure
  let maxWeight :=
    if burst then
      (localBackpressure.toNat : Int) - v.bestBurstNeighborBackpressure.toNat - linkLossV
    else v.maxWeight
  let table :=
    if burst && maxWeight > 0 then
      v.table.set v.bestBurstNeighborIdx
        { v.table.routingTable v.bestBurstNeighborIdx with isBurstyNow := true }
    else v.table
  let maxWeightIdx := if burst then v.bestBurstNeighborIdx else v.maxWeightIdx
  if maxWeight ≤ 0 then ⟨.fail, [], table⟩
  else
    let e := table.routingTable maxWeightIdx
    ⟨.success, [(e.neighbor, e.backpressure)], table⟩

/-- `RouterForwarderIF.updateRouting`. -/
def updateRouting (t : RoutingTable) (localBackpressure : UInt16) : Option Routed :=
  if t.routingTableActive = 0 then some ⟨.fail, [], t⟩
  else (t.scan localBackpressure t.routingTableActive).map (·.choose localBackpressure)

/-! ## Link estimates -/

/-- `RouterForwarderIF.txNoAck`. -/
def txNoAck (t : RoutingTable) (neighbor : UInt16) : RoutingTable :=
  let idx := t.routingTableFind neighbor
  if idx = routingTableSize then t
  else if (t.routingTable idx).isBurstyNow then
    t.set idx { t.routingTable idx with isBurstyNow := false }
  else t

/-- `RouterForwarderIF.updateLinkSuccess`. -/
def updateLinkSuccess (t : RoutingTable) (neighbor : UInt16) (txCount : UInt8) : RoutingTable :=
  let idx := t.routingTableFind neighbor
  if idx = t.routingTableActive then t
  else
    let e := t.routingTable idx
    let newETX :=
      (e.linkETX.toNat * linkLossAlpha + txCount.toNat * 100 * (100 - linkLossAlpha)) / 100
    t.set idx { e with linkETX := UInt16.ofNat newETX }

/-- `RouterForwarderIF.updateLinkRate`: a time of zero counts as one. -/
def updateLinkRate (t : RoutingTable) (neighbor : UInt16) (txTime : UInt16) : RoutingTable :=
  let idx := t.routingTableFind neighbor
  if idx = t.routingTableActive then t
  else
    let newTxTime := if txTime = 0 then 1 else txTime.toNat
    let e := t.routingTable idx
    t.set idx { e with
      linkPacketTxTime := UInt16.ofNat
        ((linkEstAlpha * e.linkPacketTxTime.toNat + (10 - linkEstAlpha) * newTxTime) / 10) }

/-- `RouterForwarderIF.updateNeighborBackpressure`. -/
def updateNeighborBackpressure (t : RoutingTable) (neighbor : UInt16) (rcvBackpressure : UInt16) :
    RoutingTable :=
  (t.routingTableUpdateEntry neighbor rcvBackpressure).2

/-- The burst detection of `updateNeighborSnoop` in the cell of the neighbor: the cell, and whether
the neighbor is to be notified. -/
def streak (e : RoutingTableEntry) (localBackpressure nhBackpressure : UInt16)
    (nodeTxCount : UInt8) : RoutingTableEntry × Bool :=
  if e.lastTxNoStreakID.toNat + 1 = nodeTxCount.toNat then
    let e := { e with
      lastTxNoStreakID := e.lastTxNoStreakID + 1
      txNoStreakCount := e.txNoStreakCount + 1 }
    (e, e.txNoStreakCount == 3 && localBackpressure < nhBackpressure)
  else ({ e with lastTxNoStreakID := nodeTxCount, txNoStreakCount := 0 }, false)

/-- `RouterForwarderIF.updateNeighborSnoop` at the node `self`: the neighbors it signals
`setNotifyBurstyLinkNeighbor` for, and the table it leaves. -/
def updateNeighborSnoop (t : RoutingTable) (self : UInt16)
    (localBackpressure snoopBackpressure nhBackpressure : UInt16) (nodeTxCount : UInt8)
    (neighbor burstNotifyAddr : UInt16) : Option (List UInt16 × RoutingTable) :=
  let t := (t.routingTableUpdateEntry neighbor snoopBackpressure).2
  let idx := t.routingTableFind neighbor
  if idx < routingTableSize then
    let (e, notify) := streak (t.routingTable idx) localBackpressure nhBackpressure nodeTxCount
    let e := { e with isBurstyNow := e.isBurstyNow || burstNotifyAddr == self }
    some (if notify then [neighbor] else [], t.set idx e)
  else none

/-! ## The engine -/

/-- The commands of `BcpRouterForwarderIF` that change the table. -/
inductive Command
  | updateNeighborBackpressure (neighbor rcvBackpressure : UInt16)
  | updateNeighborSnoop (localBackpressure snoopBackpressure nhBackpressure : UInt16)
      (nodeTxCount : UInt8) (neighbor burstNotifyAddr : UInt16)
  | updateLinkSuccess (neighbor : UInt16) (txCount : UInt8)
  | updateLinkRate (neighbor txTime : UInt16)
  | txNoAck (neighbor : UInt16)
  | updateRouting (localBackpressure : UInt16)
deriving DecidableEq, Repr

/-- The neighbor a command is about. -/
def Command.neighbor : Command → Option UInt16
  | .updateNeighborBackpressure n _ | .updateNeighborSnoop _ _ _ _ n _ | .updateLinkSuccess n _
  | .updateLinkRate n _ | .txNoAck n => some n
  | .updateRouting _ => none

/-- One command at the node `self`. -/
def step (self : UInt16) (t : RoutingTable) : Command → Option RoutingTable
  | .updateNeighborBackpressure n bp => some (t.updateNeighborBackpressure n bp)
  | .updateNeighborSnoop bp snoop nh tx n notify =>
    (t.updateNeighborSnoop self bp snoop nh tx n notify).map (·.2)
  | .updateLinkSuccess n tx => some (t.updateLinkSuccess n tx)
  | .updateLinkRate n time => some (t.updateLinkRate n time)
  | .txNoAck n => some (t.txNoAck n)
  | .updateRouting bp => (t.updateRouting bp).map (·.table)

/-- The routing engine of the node `self` from `Init.init` on. -/
def machine (self : UInt16) : Machine RoutingTable Command where
  init t := t = init
  step := step self

end RoutingTable

end BCP
