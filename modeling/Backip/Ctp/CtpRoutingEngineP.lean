import Backip.Lib.Machine
import Backip.System.Types
import Mathlib.Data.List.Basic

/-!
# The CTP routing engine (`tos/lib/net/ctp/CtpRoutingEngineP.nc`, `TreeRouting.h`)

The whole engine: the timers of the beacons, the routing table and the choice of a parent. What it
calls or signals and does not get an answer from is logged in `log`, the last one first. The link
estimator's qualities, the random numbers and the results of the calls are arguments. An `int` has 16
bits, so the arithmetic on metrics stays in `UInt16`.

`machine` is the engine under any order of commands, events and posted tasks.
-/

set_option autoImplicit false

namespace CtpRoutingEngineP

/-! ## Tree routing -/

/-- `INVALID_ADDR`. -/
def invalidAddr : UInt16 := 0xFFFF

/-- `ETX_THRESHOLD`. -/
def etxThreshold : UInt16 := 50

/-- `PARENT_SWITCH_THRESHOLD`. -/
def parentSwitchThreshold : UInt16 := 15

/-- `MAX_METRIC`. -/
def maxMetric : UInt16 := 0xFFFF

/-- `BEACON_INTERVAL`. -/
def beaconInterval : Nat := 8192

/-- `route_info_t`, as `routeInfoInit` leaves it. -/
structure RouteInfo where
  parent : UInt16 := invalidAddr
  etx : UInt16 := 0
  haveHeard : Bool := false
  congested : Bool := false
deriving DecidableEq, Repr

/-- `routing_table_entry`. -/
structure RoutingTableEntry where
  neighbor : UInt16
  info : RouteInfo
deriving DecidableEq, Repr

/-! ## The engine -/

/-- The arguments of the generic module. -/
structure Config where
  routingTableSize : UInt8
  minInterval : UInt32
  maxInterval : UInt32
  /-- The advertise time is drawn below half of an interval. -/
  two_le_min : 2 ≤ minInterval
  min_le_max : minInterval ≤ maxInterval
  /-- Twice an interval does not overflow. -/
  max_lt : maxInterval < 0x80000000

/-- The arguments in `CtpP`. -/
def ctpP : Config := ⟨10, 128, 512000, by decide, by decide, by decide⟩

/-- The used part of `routingTable`. An entry for `INVALID_ADDR` is never found again, so there can
be several of these. -/
structure RoutingTable (c : Config) where
  entries : List RoutingTableEntry
  size_le : entries.length ≤ c.routingTableSize.toNat
  unique : (entries.map RoutingTableEntry.neighbor).Pairwise fun n n' => n = n' → n = invalidAddr
deriving DecidableEq, Repr

/-- `routingTableInit`. -/
def RoutingTable.empty {c : Config} : RoutingTable c := ⟨[], Nat.zero_le _, .nil⟩

/-- The beacon: its options `CTP_OPT_ECN` and `CTP_OPT_PULL`, and what it advertises. -/
structure CtpRoutingHeader where
  ecn : Bool
  pull : Bool
  parent : UInt16
  etx : UInt16
deriving DecidableEq, Repr

inductive Output
  /-- A beacon interval of this length begins. -/
  | interval (length : UInt32)
  /-- `sendBeaconTask` is posted. -/
  | attempt
  | beaconSend (beacon : CtpRoutingHeader)
  | insertNeighbor (neighbor : UInt16)
  | pinNeighbor (neighbor : UInt16)
  | unpinNeighbor (neighbor : UInt16)
  | clearDLQ (neighbor : UInt16)
  | noRoute
  | routeFound
deriving DecidableEq, Repr

structure Engine (c : Config) where
  radioOn : Bool := false
  running : Bool := false
  sending : Bool := false
  justEvicted : Bool := false
  routeInfo : RouteInfo := {}
  stateIsRoot : Bool := false
  myLlAddr : UInt16 := 0
  routingTable : RoutingTable c := .empty
  currentInterval : UInt32 := c.minInterval
  t : UInt32 := 0
  tHasPassed : Bool := false
  beaconTimer : TimerMilli := .stopped
  routeTimer : TimerMilli := .stopped
  updateRoutePosted : Bool := false
  sendBeaconPosted : Bool := false
  log : List Output := []
deriving DecidableEq, Repr

/-- `ECNOff`, which nothing sets. -/
def ecnOff : Bool := true

namespace Engine

variable {c : Config}

/-- `post updateRouteTask()`. -/
def postUpdateRoute (e : Engine c) : Engine c := { e with updateRoutePosted := true }

/-- `post sendBeaconTask()`. -/
def postSendBeacon (e : Engine c) : Engine c :=
  { e with sendBeaconPosted := true, log := .attempt :: e.log }

/-! ## The beacon interval -/

def chooseAdvertiseTime (rand32 : UInt32) (e : Engine c) : Engine c :=
  let t := e.currentInterval / 2
  let t := t + rand32 % t
  { e with
    t := t
    tHasPassed := false
    beaconTimer := .oneShot t.toNat
    log := .interval e.currentInterval :: e.log }

def resetInterval (rand32 : UInt32) (e : Engine c) : Engine c :=
  chooseAdvertiseTime rand32 { e with currentInterval := c.minInterval }

def decayInterval (rand32 : UInt32) (e : Engine c) : Engine c :=
  let doubled := e.currentInterval * 2
  chooseAdvertiseTime rand32
    { e with currentInterval := if doubled > c.maxInterval then c.maxInterval else doubled }

def remainingInterval (e : Engine c) : Engine c :=
  let remaining := e.currentInterval - e.t
  { e with tHasPassed := true, beaconTimer := .oneShot remaining.toNat }

/-! ## Control -/

/-- `StdControl.start`; `address` is the result of `AMPacket.address`. -/
def start (address : UInt16) (rand32 : UInt32) (e : Engine c) : Engine c :=
  let e := { e with myLlAddr := address }
  if e.running then e
  else
    { resetInterval rand32 { e with running := true } with routeTimer := .periodic beaconInterval }

/-- `StdControl.stop`. -/
def stop (e : Engine c) : Engine c := { e with running := false }

/-- `RadioControl.startDone`: the `nextInt` it computes is not used. -/
def startDone (e : Engine c) : Engine c := { e with radioOn := true }

/-- `RadioControl.stopDone`. -/
def stopDone (e : Engine c) : Engine c := { e with radioOn := false }

/-! ## Choosing a parent -/

end Engine

def passLinkEtxThreshold (etx : UInt16) : Bool := etx < etxThreshold

/-- The variables of the loop of `updateRouteTask`. -/
structure Scan where
  best : Option RoutingTableEntry := none
  minEtx : UInt16 := maxMetric
  currentEtx : UInt16 := maxMetric
  routeInfo : RouteInfo
deriving DecidableEq, Repr

/-- One turn of the loop; `linkQuality` is `LinkEstimator.getLinkQuality`. -/
def Scan.turn (myLlAddr : UInt16) (linkQuality : UInt16 → UInt16) (v : Scan)
    (entry : RoutingTableEntry) : Scan :=
  -- avoid bad entries and 1-hop loops
  if entry.info.parent = invalidAddr ∨ entry.info.parent = myLlAddr then v
  else
    let linkEtx := linkQuality entry.neighbor
    let pathEtx := linkEtx + entry.info.etx
    if entry.neighbor = v.routeInfo.parent then
      { v with
        currentEtx := pathEtx
        routeInfo :=
          { v.routeInfo with etx := entry.info.etx, congested := entry.info.congested } }
    else if entry.info.congested then v
    else if !passLinkEtxThreshold linkEtx then v
    else if pathEtx < v.minEtx then { v with minEtx := pathEtx, best := some entry }
    else v

/-- The choice between the current parent and the best neighbor. -/
def Scan.switches (v : Scan) : Bool :=
  v.minEtx ≠ maxMetric &&
    (v.currentEtx = maxMetric || (v.routeInfo.congested && v.minEtx < v.routeInfo.etx + 10) ||
      v.minEtx + parentSwitchThreshold < v.currentEtx)

namespace Engine

variable {c : Config}

/-- The loop. -/
def scan (linkQuality : UInt16 → UInt16) (e : Engine c) : Scan :=
  e.routingTable.entries.foldl (Scan.turn e.myLlAddr linkQuality) { routeInfo := e.routeInfo }

/-- The branch that changes the parent. -/
def changeParent (v : Scan) (best : RoutingTableEntry) (rand32 : UInt32) (e : Engine c) :
    Engine c :=
  let e := { e with
    routeInfo := { e.routeInfo with
      parent := best.neighbor, etx := best.info.etx, congested := best.info.congested }
    log := .clearDLQ best.neighbor :: .pinNeighbor best.neighbor ::
      .unpinNeighbor e.routeInfo.parent :: e.log }
  if v.currentEtx - v.minEtx > 20 then e.resetInterval rand32 else e

/-- What `updateRouteTask` signals at its end. -/
def tell (v : Scan) (e : Engine c) : Engine c :=
  let e :=
    if e.justEvicted && e.routeInfo.parent = invalidAddr then { e with log := .noRoute :: e.log }
    else if !e.justEvicted && v.currentEtx = maxMetric && v.minEtx ≠ maxMetric then
      { e with log := .routeFound :: e.log }
    else e
  { e with justEvicted := false }

def updateRouteTask (linkQuality : UInt16 → UInt16) (rand32 : UInt32) (e : Engine c) : Engine c :=
  if e.stateIsRoot then e
  else
    let v := e.scan linkQuality
    let e := { e with routeInfo := v.routeInfo }
    match v.best with
    | some best => tell v (if v.switches then e.changeParent v best rand32 else e)
    -- here `minEtx` is `MAX_METRIC`
    | none => tell v e

/-! ## Beacons -/

/-- `sendBeaconTask`; `eval` is the result of `BeaconSend.send`, if the task gets there. -/
def sendBeaconTask (isCongested : Bool) (linkQuality : UInt16 → UInt16) (eval : TinyError)
    (e : Engine c) : Engine c :=
  if e.sending then e
  else
    let noParent := e.routeInfo.parent = invalidAddr
    let etx :=
      if e.stateIsRoot || noParent then e.routeInfo.etx
      else e.routeInfo.etx + linkQuality e.routeInfo.parent
    let beacon := ⟨isCongested, !e.stateIsRoot && noParent, e.routeInfo.parent, etx⟩
    let e := { e with log := .beaconSend beacon :: e.log }
    match eval with
    | .success => { e with sending := true }
    | .eoff => { e with radioOn := false }
    | _ => e

/-- `BeaconSend.sendDone`; `ours`: the message is `beaconMsgBuffer`. -/
def sendDone (ours : Bool) (e : Engine c) : Engine c :=
  if !ours || !e.sending then e else { e with sending := false }

/-- `RouteTimer.fired`. -/
def routeTimerFired (e : Engine c) : Engine c :=
  if e.radioOn && e.running then e.postUpdateRoute else e

/-- `BeaconTimer.fired`. -/
def beaconTimerFired (rand32 : UInt32) (e : Engine c) : Engine c :=
  if e.radioOn && e.running then
    if !e.tHasPassed then e.postUpdateRoute.postSendBeacon.remainingInterval
    else e.decayInterval rand32
  else e

/-! ## The routing table -/

end Engine

namespace RoutingTable

variable {c : Config}

/-- `routingTableFind`: the index of a neighbor, or `routingTableActive` if it is not found. -/
def find (t : RoutingTable c) (neighbor : UInt16) : Nat :=
  if neighbor = invalidAddr then t.entries.length
  else t.entries.findIdx fun entry => entry.neighbor = neighbor

theorem find_ne {t : RoutingTable c} {neighbor : UInt16} (h : t.find neighbor = t.entries.length)
    (hn : neighbor ≠ invalidAddr) {entry : RoutingTableEntry} (he : entry ∈ t.entries) :
    entry.neighbor ≠ neighbor := by
  rw [find, if_neg hn, List.findIdx_eq_length] at h
  simpa using h entry he

/-- The entry a search stops at is one for the neighbor. -/
theorem find_neighbor {t : RoutingTable c} {neighbor : UInt16}
    (h : t.find neighbor < t.entries.length) : (t.entries[t.find neighbor]).neighbor = neighbor := by
  by_cases hn : neighbor = invalidAddr
  · simp [find, hn] at h
  · have hf : t.find neighbor = t.entries.findIdx fun entry => entry.neighbor = neighbor :=
      if_neg hn
    simp only [hf] at h ⊢
    simpa using List.findIdx_getElem (w := h)

/-- `routingTableUpdateEntry`. -/
def updateEntry (t : RoutingTable c) (linkQuality : UInt16 → UInt16) (src parent etx : UInt16) :
    TinyError × RoutingTable c :=
  let idx := t.find src
  if hfull : idx = c.routingTableSize.toNat then (.fail, t)
  else if hnew : idx = t.entries.length then
    if passLinkEtxThreshold (linkQuality src) then
      (.success,
        { entries := t.entries ++ [⟨src, { parent, etx, haveHeard := true, congested := false }⟩]
          size_le := by
            have := t.size_le
            rw [List.length_append, List.length_singleton]
            omega
          unique := by
            rw [List.map_append, List.pairwise_append]
            refine ⟨t.unique, List.pairwise_singleton _ _, ?_⟩
            simp only [List.mem_map, List.map_cons, List.map_nil, List.mem_singleton]
            rintro _ ⟨entry, he, rfl⟩ _ rfl heq
            by_contra hn
            exact t.find_ne hnew (heq ▸ hn) he heq })
    else (.success, t)
  else
    (.success,
      { entries := t.entries.modify idx fun entry =>
          ⟨src, { entry.info with parent, etx, haveHeard := true }⟩
        size_le := by
          rw [List.length_modify]
          exact t.size_le
        unique := by
          suffices (t.entries.modify idx fun entry =>
              ⟨src, { entry.info with parent, etx, haveHeard := true }⟩).map
                RoutingTableEntry.neighbor = t.entries.map RoutingTableEntry.neighbor from
            this ▸ t.unique
          apply List.ext_getElem (by simp)
          intro i h₁ h₂
          rw [List.getElem_map, List.getElem_map, List.getElem_modify]
          by_cases hi : idx = i
          · rw [List.length_map] at h₂
            subst hi
            simpa using (t.find_neighbor h₂).symm
          · rw [if_neg hi] })

/-- `routingTableEvict`. -/
def evict (t : RoutingTable c) (neighbor : UInt16) : TinyError × RoutingTable c :=
  let idx := t.find neighbor
  if idx = t.entries.length then (.fail, t)
  else
    (.success,
      { entries := t.entries.eraseIdx idx
        size_le := Nat.le_trans (List.eraseIdx_sublist t.entries idx).length_le t.size_le
        unique := t.unique.sublist ((List.eraseIdx_sublist t.entries idx).map _) })

/-- A neighbor's congestion bit. -/
def setCongested (t : RoutingTable c) (neighbor : UInt16) (congested : Bool) : RoutingTable c where
  entries := t.entries.modify (t.find neighbor) fun entry =>
    { entry with info := { entry.info with congested } }
  size_le := by
    rw [List.length_modify]
    exact t.size_le
  unique := by
    suffices (t.entries.modify (t.find neighbor) fun entry =>
        { entry with info := { entry.info with congested } }).map RoutingTableEntry.neighbor =
          t.entries.map RoutingTableEntry.neighbor from this ▸ t.unique
    apply List.ext_getElem (by simp)
    intro i h₁ h₂
    rw [List.getElem_map, List.getElem_map, List.getElem_modify]
    split <;> rfl

end RoutingTable

namespace Engine

variable {c : Config}

/-- `LinkEstimator.evicted`. -/
def evicted (neighbor : UInt16) (e : Engine c) : Engine c :=
  let e := { e with routingTable := (e.routingTable.evict neighbor).2 }
  if e.routeInfo.parent = neighbor then
    { e with routeInfo := {}, justEvicted := true }.postUpdateRoute
  else e

/-- `CtpInfo.setNeighborCongested`. -/
def setNeighborCongested (n : UInt16) (congested : Bool) (e : Engine c) : Engine c :=
  if ecnOff then e
  else
    let e := { e with routingTable := e.routingTable.setCongested n congested }
    if e.routeInfo.congested && !congested then e.postUpdateRoute
    else if e.routeInfo.parent = n && congested then e.postUpdateRoute
    else e

/-- `BeaconReceive.receive` from a node `src`. To insert a root the link estimator may evict a
neighbor, `evicts`. -/
def receive (lengthOk : Bool) (src : UInt16) (rcvBeacon : CtpRoutingHeader)
    (evicts : Option UInt16) (linkQuality : UInt16 → UInt16) (rand32 : UInt32) (e : Engine c) :
    Engine c :=
  if !lengthOk then e
  else
    let e :=
      if rcvBeacon.parent ≠ invalidAddr then
        let e :=
          if rcvBeacon.etx = 0 then
            let e := { e with log := .insertNeighbor src :: e.log }
            let e := evicts.elim e fun neighbor => e.evicted neighbor
            { e with log := .pinNeighbor src :: e.log }
          else e
        let e := { e with
          routingTable :=
            (e.routingTable.updateEntry linkQuality src rcvBeacon.parent rcvBeacon.etx).2 }
        e.setNeighborCongested src rcvBeacon.ecn
      else e
    if rcvBeacon.pull then e.resetInterval rand32 else e

/-! ## The root -/

/-- `RootControl.setRoot`. -/
def setRoot (e : Engine c) : Engine c :=
  let found := e.routeInfo.parent = invalidAddr
  let e := { e with
    stateIsRoot := true
    routeInfo := { e.routeInfo with parent := e.myLlAddr, etx := 0 } }
  if found then { e with log := .routeFound :: e.log } else e

/-- `RootControl.unsetRoot`. -/
def unsetRoot (e : Engine c) : Engine c :=
  { e with stateIsRoot := false, routeInfo := {} }.postUpdateRoute

end Engine

/-! ## Runs -/

inductive Event
  | start (address : UInt16) (rand32 : UInt32)
  | stop
  | startDone
  | stopDone
  | beaconTimerFired (rand32 : UInt32)
  | routeTimerFired
  | updateRouteTask (linkQuality : UInt16 → UInt16) (rand32 : UInt32)
  | sendBeaconTask (isCongested : Bool) (linkQuality : UInt16 → UInt16) (eval : TinyError)
  | sendDone (ours : Bool)
  | receive (lengthOk : Bool) (src : UInt16) (rcvBeacon : CtpRoutingHeader)
      (evicts : Option UInt16) (linkQuality : UInt16 → UInt16) (rand32 : UInt32)
  | evicted (neighbor : UInt16)
  | recomputeRoutes
  | triggerRouteUpdate (rand32 : UInt32)
  | setNeighborCongested (n : UInt16) (congested : Bool)
  | setRoot
  | unsetRoot

variable {c : Config}

/-- Timers fire while they run, and a task runs once it is posted. Everything else can happen at any
time. `triggerImmediateRouteUpdate` does what `triggerRouteUpdate` does. -/
def step (e : Engine c) : Event → Option (Engine c)
  | .start address rand32 => some (e.start address rand32)
  | .stop => some e.stop
  | .startDone => some e.startDone
  | .stopDone => some e.stopDone
  | .beaconTimerFired rand32 =>
    if e.beaconTimer.isRunning then
      some (Engine.beaconTimerFired rand32 { e with beaconTimer := e.beaconTimer.expire })
    else none
  | .routeTimerFired =>
    if e.routeTimer.isRunning then
      some (Engine.routeTimerFired { e with routeTimer := e.routeTimer.expire })
    else none
  | .updateRouteTask linkQuality rand32 =>
    if e.updateRoutePosted then
      some (Engine.updateRouteTask linkQuality rand32 { e with updateRoutePosted := false })
    else none
  | .sendBeaconTask isCongested linkQuality eval =>
    if e.sendBeaconPosted then
      some (Engine.sendBeaconTask isCongested linkQuality eval
        { e with sendBeaconPosted := false })
    else none
  | .sendDone ours => some (e.sendDone ours)
  | .receive lengthOk src rcvBeacon evicts linkQuality rand32 =>
    some (e.receive lengthOk src rcvBeacon evicts linkQuality rand32)
  | .evicted neighbor => some (e.evicted neighbor)
  | .recomputeRoutes => some e.postUpdateRoute
  | .triggerRouteUpdate rand32 => some (e.resetInterval rand32)
  | .setNeighborCongested n congested => some (e.setNeighborCongested n congested)
  | .setRoot => some e.setRoot
  | .unsetRoot => some e.unsetRoot

/-- The engine from `Init.init` on. -/
def machine (c : Config) : Machine (Engine c) Event where
  init e := e = {}
  step := step

end CtpRoutingEngineP
