import Backip.Ctp.CtpRoutingEngineP
import Backip.Ctp.LinkEstimatorP
import Mathlib

/-!
# The routing engine on its link estimator (`tos/lib/net/ctp/CtpP.nc`)

`CtpRoutingEngineP` with its `LinkEstimator`, `BeaconReceive` wired to `LinkEstimatorP`: the engine
gets the estimator's qualities and is told of the neighbors it evicts, and its commands act on the
estimator's table. The node is not a root: `setRoot` is not among the events.
-/

set_option autoImplicit false

namespace CtpP

open CtpRoutingEngineP LinkEstimatorP

variable {c : Config}

structure Router (c : Config) where
  engine : Engine c := {}
  neighborTable : NeighborTable := .init
deriving DecidableEq, Repr

/-- `CTP_OPT_PULL` -/
def ctpOptPull : UInt8 := 0x80

/-- `CTP_OPT_ECN` -/
def ctpOptEcn : UInt8 := 0x40

/-- `sizeof(ctp_routing_header_t)` -/
def routingHeaderSize : UInt8 := 5

/-- The `ctp_routing_header_t` of a message, behind the estimator's header. -/
def readBeacon : Probe CtpRoutingHeader := do
  let options ← Probe.read 2
  let parent ← readAddr 3
  let etx ← readAddr 5
  return {
    ecn := options &&& ctpOptEcn = ctpOptEcn
    pull := options &&& ctpOptPull = ctpOptPull
    parent
    etx }

/-- The engine handles the event `LinkEstimator.evicted`, if it is signalled. -/
def tellEvicted (evicted : Option UInt16) (e : Engine c) : Engine c :=
  evicted.elim e fun neighbor => e.evicted neighbor

namespace Router

variable (w : IntWidth) (address : UInt16)

/-- A root is inserted at any cost and pinned. -/
def insertRoot (t : NeighborTable) (root : UInt16) : NeighborTable × Option UInt16 :=
  let (_, t, evicted) := t.insertNeighbor root
  ((t.pinNeighbor root).2, evicted)

/-- The engine gets a beacon: `BeaconReceive.receive`. -/
def beaconReceive (f : Frame) (rand32 : UInt32) (s : Router c) : Router c :=
  let lengthOk := (payloadLength f).val f.mem = routingHeaderSize
  let rcvBeacon := readBeacon.val f.mem
  let (t, evicted) :=
    if lengthOk ∧ rcvBeacon.parent ≠ invalidAddr ∧ rcvBeacon.etx = 0 then
      insertRoot s.neighborTable f.source
    else (s.neighborTable, none)
  { engine := s.engine.receive lengthOk f.source rcvBeacon evicted t.getLinkQuality rand32
    neighborTable := t }

/-- `SubReceive.receive` of the estimator, and then of the engine. -/
def receive (f : Frame) (rand32 : UInt32) (s : Router c) : Router c :=
  let (t, evicted) := (processReceivedMessage w address s.neighborTable f).val f.mem
  beaconReceive f rand32 { engine := tellEvicted evicted s.engine, neighborTable := t }

/-- The commands of `updateRouteTask` on the estimator when the parent changes. -/
def changeParent (t : NeighborTable) (old new : UInt16) : NeighborTable :=
  let t := (t.unpinNeighbor old).2
  let t := (t.pinNeighbor new).2
  (t.clearDLQ new).2

/-- `updateRouteTask` -/
def updateRouteTask (rand32 : UInt32) (s : Router c) : Router c :=
  let v := s.engine.scan s.neighborTable.getLinkQuality
  { engine := s.engine.updateRouteTask s.neighborTable.getLinkQuality rand32
    neighborTable :=
      match v.best with
      | some best =>
        if !s.engine.stateIsRoot && v.switches then
          changeParent s.neighborTable v.routeInfo.parent best.neighbor
        else s.neighborTable
      | none => s.neighborTable }

/-- `insertNeighbor`, called by another component -/
def insertNeighbor (neighbor : UInt16) (s : Router c) : Router c :=
  let (_, t, evicted) := s.neighborTable.insertNeighbor neighbor
  { engine := tellEvicted evicted s.engine, neighborTable := t }

end Router

/-- The events: messages, the task, the engine's own, and the commands of `LinkEstimator` that other
components may call. -/
inductive Event
  | receive (f : Frame) (rand32 : UInt32)
  | updateRouteTask (rand32 : UInt32)
  | engine (e : CtpRoutingEngineP.Event)
  | insertNeighbor (neighbor : UInt16)
  | pinNeighbor (neighbor : UInt16)
  | txAck (neighbor : UInt16)
  | txNoAck (neighbor : UInt16)
  | clearDLQ (neighbor : UInt16)

/-- The events of the engine that the estimator takes no part in, on a node that is not a root. -/
def isOwn : CtpRoutingEngineP.Event → Bool
  | .receive .. | .updateRouteTask .. | .evicted _ | .setRoot => false
  | _ => true

/-- A task runs once it is posted. -/
def step (w : IntWidth) (address : UInt16) (s : Router c) : Event → Option (Router c)
  | .receive f rand32 => some (s.receive w address f rand32)
  | .updateRouteTask rand32 =>
    if s.engine.updateRoutePosted then
      some (Router.updateRouteTask rand32
        { s with engine := { s.engine with updateRoutePosted := false } })
    else none
  | .engine e =>
    if isOwn e then
      (CtpRoutingEngineP.step s.engine e).map fun engine => { s with engine }
    else none
  | .insertNeighbor n => some (s.insertNeighbor n)
  | .pinNeighbor n => some { s with neighborTable := (s.neighborTable.pinNeighbor n).2 }
  | .txAck n => some { s with neighborTable := (s.neighborTable.txAck w n).2 }
  | .txNoAck n => some { s with neighborTable := (s.neighborTable.txNoAck w n).2 }
  | .clearDLQ n => some { s with neighborTable := (s.neighborTable.clearDLQ n).2 }

/-- The router from `Init.init` on. -/
def machine (w : IntWidth) (address : UInt16) (c : Config) : Machine (Router c) Event where
  init s := s = {}
  step := step w address

end CtpP
