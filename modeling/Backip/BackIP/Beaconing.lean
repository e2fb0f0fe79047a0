import Backip.BackIP.NeighbourTable
import Backip.Lib.Machine
import Backip.System.Types

/-!
# Beacons (`tos/lib/net/backip/BackIPBeaconingP.nc`)

`Beaconing` is the state of `BackIPBeaconingP`: its role, the neighbour table and `BeaconTimer`. The
handlers here are those of the adaptive build (`ADAPTIVE_BEACONING`); the packet's hop-by-hop option
(`ForwardingEvents`) is in `DataHdr.lean`.
-/

set_option autoImplicit false

namespace BackIP

/-- A running `Timer<TMilli>`. -/
structure Timer where
  interval : Nat
  periodic : Bool
deriving DecidableEq, Repr

structure Beaconing where
  iAmRoot : Bool
  noNeighbours : Bool
  table : NeighbourTable
  beaconTimer : Option Timer
deriving DecidableEq, Repr

namespace Beaconing

/-- Booted: variables zero, the timer stopped. -/
def boot : Beaconing where
  iAmRoot := false
  noNeighbours := false
  table := .empty
  beaconTimer := none

/-! ## `BeaconTimer` -/

def startOneShot (s : Beaconing) (dt : Nat) : Beaconing :=
  { s with beaconTimer := some ⟨dt, false⟩ }

def startPeriodic (s : Beaconing) (dt : Nat) : Beaconing :=
  { s with beaconTimer := some ⟨dt, true⟩ }

def stopTimer (s : Beaconing) : Beaconing := { s with beaconTimer := none }

def isRunning (s : Beaconing) : Bool := s.beaconTimer.isSome

/-- A timer that fires runs on if it is periodic. -/
def expire (s : Beaconing) : Beaconing :=
  { s with beaconTimer := s.beaconTimer.filter (·.periodic) }

/-! ## The handlers -/

/-- `RootControl.setRoot`. -/
def setRoot (s : Beaconing) : Beaconing :=
  { s with iAmRoot := true }.startPeriodic idleBeaconInterval

/-- `RootControl.unsetRoot`. -/
def unsetRoot (s : Beaconing) : Beaconing :=
  let s := { s with iAmRoot := false }
  if s.isRunning then s.stopTimer else s

/-- `StdControl.start`, where the two `bind`s answer `beacon` and `null`, and `addRoute` adds the
default route or not. -/
def start (s : Beaconing) (beacon null : TinyError) (route : Bool) : TinyError × Beaconing :=
  let s := { s with noNeighbours := true }
  if beacon ≠ .success then (.fail, s)
  else if null ≠ .success then (.fail, s)
  else if !route then (.fail, s)
  else (.success, if !s.isRunning then s.startOneShot fastBeaconInterval else s)

/-- The packet `BeaconTimer.fired` sends, with the local backpressure `backpressureValue`. -/
def beaconPkt (s : Beaconing) (backpressureValue : UInt32) : List UInt8 :=
  (if s.noNeighbours && !s.iAmRoot then write4B (.ofNat beaconTypeReq)
    else write4B (.ofNat beaconTypeNorm)) ++ write4B backpressureValue

/-- `BeaconTimer.fired`, after the packet is sent. -/
def fired (s : Beaconing) : Beaconing :=
  if s.iAmRoot then s.startOneShot idleBeaconInterval
  else if s.noNeighbours then s.startOneShot fastBeaconInterval
  else s

/-- `UDPBeacon.recvfrom` of the packet `data`, where `resolveAddress` finds `llAddr` or fails. -/
def recvfrom (s : Beaconing) (llAddr : Option LlAddr) (data : List UInt8) : Beaconing :=
  match llAddr with
  | none => s
  | some llAddr =>
    let s := { s with table := s.table.updateNeighbourBackpressure llAddr (read4B (data.drop 4)) }
    let s := { s with noNeighbours := false }
    if (read4B data).toNat = beaconTypeReq then
      (if s.isRunning then s.stopTimer else s).startOneShot fastBeaconInterval
    else s

/-- `BackIPLinkResultInterface.updateETX`. -/
def updateEtx (s : Beaconing) (llAddr : LlAddr) (etx : UInt16) : Beaconing :=
  { s with table := s.table.updateNeighbourEtx llAddr etx }

/-- `BackIPLinkResultInterface.updateLinkRate`. -/
def updateLinkRate (s : Beaconing) (llAddr : LlAddr) (txTime : UInt16) : Beaconing :=
  { s with table := s.table.updateNeighbourTxTime llAddr txTime }

/-- `BackIPLinkResultInterface.drasticBackpressureChange`. -/
def drasticBackpressureChange (s : Beaconing) : Beaconing :=
  if s.isRunning then s else s.startOneShot fastBeaconInterval

end Beaconing

/-! ## The open system -/

inductive BEvent
  | beaconTimerFired
  | recvfrom (llAddr : Option LlAddr) (data : List UInt8)
  | drasticBackpressureChange
  | setRoot
  | unsetRoot
  | updateEtx (llAddr : LlAddr) (etx : UInt16)
  | updateLinkRate (llAddr : LlAddr) (txTime : UInt16)
deriving DecidableEq, Repr

namespace Beaconing

def step (s : Beaconing) : BEvent → Option Beaconing
  | .beaconTimerFired => if s.isRunning then some s.expire.fired else none
  | .recvfrom llAddr data => some (s.recvfrom llAddr data)
  | .drasticBackpressureChange => some s.drasticBackpressureChange
  | .setRoot => some s.setRoot
  | .unsetRoot => some s.unsetRoot
  | .updateEtx llAddr etx => some (s.updateEtx llAddr etx)
  | .updateLinkRate llAddr txTime => some (s.updateLinkRate llAddr txTime)

/-- A node's beaconing after a successful `StdControl.start` from any state, until
`StdControl.stop`. -/
def machine : Machine Beaconing BEvent where
  init s := ∃ s₀, start s₀ .success .success true = (.success, s)
  step := step

end Beaconing

end BackIP
