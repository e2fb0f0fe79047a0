import Backip.BackIP.Beaconing
import Backip.BackIP.Trace
import Mathlib.Logic.Function.Basic

/-!
# A node: the forwarding queue with its beacons

`Node` joins `BackIPQueueingP` and `BackIPBeaconingP` as their configurations wire them: the queue
asks the neighbour table for a neighbour, with its own backpressure, and charges it; `BeaconTimer`
sets the queue's beacon flag; a null packet the queue asks for goes to `UDPNull.sendto` and, if that
accepts it (`null`), through the IP stack until it comes back to `Send.send` as `sendNullPkt`.
`nullInTransit` counts those on their way.

The handlers of `BackIPBeaconingP` that the queue calls read nothing the queue changes after the
call in the same handler, so they are run when the handler is done, in the order of the calls.
-/

set_option autoImplicit false

namespace BackIP

structure Node where
  q : Queueing
  b : Beaconing
  nullInTransit : Nat

inductive NEvent
  | beaconTimerFired
  | recvfrom (llAddr : Option LlAddr) (data : List UInt8)
  | setRoot
  | unsetRoot
  /-- `Send.send` of any message but a null packet. -/
  | send (i : Nat) (frame : Message) (len : Nat) (r : TinyError) (now : Nat)
  /-- `Send.send` of a null packet in transit. -/
  | sendNullPkt (i : Nat) (frame : Message) (len : Nat) (r : TinyError) (now : Nat)
  /-- `sendDataTask`, where `SubSend.send` would answer `r` and `UDPNull.sendto` `null`. -/
  | sendDataTask (r null : TinyError)
  | txRetryTimerFired
  | signalDone
  | subSendDone (msg : MsgPtr) (error : TinyError) (delivered : Bool) (now : Nat)
deriving DecidableEq, Repr

/-- What `BackIPBeaconingP` does at a call of the queue. -/
def Beaconing.called (b : Beaconing) : Call → Beaconing
  | .delivered _ n c txTime => (b.updateEtx n (.ofNat c)).updateLinkRate n (.ofNat txTime)
  | .giveUp _ n c => b.updateEtx n (.ofNat c)
  | .drasticBackpressureChange => b.drasticBackpressureChange
  | _ => b

namespace Node

/-- The neighbour `updateNeighbour` installs. -/
def selected (n : Node) : Option LlAddr :=
  (n.b.table.updateNeighbour n.q.getBp).map (·.llAddr)

/-- The node after a handler of the queue, where `UDPNull.sendto` answers `null`. -/
def after (n : Node) (null : TinyError) (q' : Queueing) : Node where
  q := q'
  b := (newCalls n.q q').foldr (fun c b => b.called c) n.b
  nullInTransit := n.nullInTransit + if null = .success then nulls (newCalls n.q q') else 0

/-- The queue's event in an event of the node. -/
def toQEvent (n : Node) : NEvent → Option QEvent
  | .beaconTimerFired => some .sendingBeacon
  | .recvfrom .. | .setRoot | .unsetRoot => none
  | .send i frame len r now | .sendNullPkt i frame len r now => some (.send i frame len r now)
  | .sendDataTask r _ => some (.sendDataTask n.selected r)
  | .txRetryTimerFired => some .txRetryTimerFired
  | .signalDone => some .signalDone
  | .subSendDone msg error delivered now => some (.subSendDone msg error delivered now)

def step (n : Node) : NEvent → Option Node
  | .beaconTimerFired =>
    if n.b.isRunning then
      (n.q.step .sendingBeacon).map fun q' => { n with q := q', b := n.b.expire.fired }
    else none
  | .recvfrom llAddr data => some { n with b := n.b.recvfrom llAddr data }
  | .setRoot => some { n with b := n.b.setRoot }
  | .unsetRoot => some { n with b := n.b.unsetRoot }
  | .send i frame len r now => (n.q.step (.send i frame len r now)).map (n.after .success)
  | .sendNullPkt i frame len r now =>
    if n.nullInTransit = 0 then none
    else
      (n.q.step (.send i frame len r now)).map
        ({ n with nullInTransit := n.nullInTransit - 1 }.after .success)
  | .sendDataTask r null => (n.q.step (.sendDataTask n.selected r)).map (n.after null)
  | .txRetryTimerFired => (n.q.step .txRetryTimerFired).map (n.after .success)
  | .signalDone => (n.q.step .signalDone).map (n.after .success)
  | .subSendDone msg error delivered now =>
    (n.q.step (.subSendDone msg error delivered now)).map (n.after .success)

/-- The node from the start of both components on. -/
def machine : Machine Node NEvent where
  init n := n.q = Queueing.boot.start ∧ Beaconing.machine.init n.b ∧ n.nullInTransit = 0
  step := step

/-- A run of a node is a run of its queue. -/
theorem simulation : machine.Simulation Queueing.machine Node.q toQEvent where
  init _ h := h.1
  step n e n' h := by
    cases e with
    | beaconTimerFired =>
      simp only [machine, step, Option.ite_none_right_eq_some, Option.map_eq_some_iff] at h
      obtain ⟨_, q', hq, rfl⟩ := h
      exact hq
    | recvfrom llAddr data => cases h; rfl
    | setRoot => cases h; rfl
    | unsetRoot => cases h; rfl
    | sendNullPkt i frame len r now =>
      simp only [machine, step, Option.ite_none_left_eq_some, Option.map_eq_some_iff] at h
      obtain ⟨_, q', hq, rfl⟩ := h
      exact hq
    | send i frame len r now | sendDataTask r null | txRetryTimerFired | signalDone
    | subSendDone msg error delivered now =>
      simp only [machine, step, Option.map_eq_some_iff] at h
      obtain ⟨q', hq, rfl⟩ := h
      exact hq

end Node

end BackIP

/-! ## What a node's neighbours heard of it

`Hearing` is a node with what its beacons say: the `n`-th carries `value n`, the backpressure when
`BeaconTimer` fired; `heard` is the value in the beacon's frame that `SubSend.send` accepted last.
`heeded` says whether every `sendDataTask` so far that found the backpressure far from what was
heard left `BeaconTimer` running. -/

namespace BackIP

structure Hearing where
  n : Node
  announced : Nat
  value : Nat → Nat
  heard : Nat
  heeded : Bool

/-- The beacon whose frame a call handed to the link, which accepted it. -/
def Call.beacon : Call → Option Nat
  | .subSendBeacon _ frame _ .success | .subSendData _ _ frame _ .success =>
    match frame.origin with
    | .beacon n => some n
    | .data => none
  | _ => none

/-- What the neighbours heard last, after `calls`. -/
def hears (value : Nat → Nat) (calls : List Call) (heard : Nat) : Nat :=
  calls.foldr (fun c heard => (c.beacon.map value).getD heard) heard

/-- A beacon has frames only when it was announced. -/
def Origin.Exists (announced : Nat) : Origin → Prop
  | .data => True
  | .beacon n => 1 ≤ n ∧ n ≤ announced

instance (announced : Nat) : (o : Origin) → Decidable (o.Exists announced)
  | .data => .isTrue trivial
  | .beacon _ => inferInstanceAs (Decidable (_ ∧ _))

namespace Hearing

/-- The frame of an event exists. -/
def Exists (s : Hearing) : NEvent → Prop
  | .send _ frame _ _ _ | .sendNullPkt _ frame _ _ _ => frame.origin.Exists s.announced
  | _ => True

instance (s : Hearing) : (e : NEvent) → Decidable (s.Exists e)
  | .send _ frame _ _ _ | .sendNullPkt _ frame _ _ _ =>
    inferInstanceAs (Decidable (frame.origin.Exists s.announced))
  | .beaconTimerFired | .recvfrom .. | .setRoot | .unsetRoot | .sendDataTask .. | .txRetryTimerFired
  | .signalDone | .subSendDone .. => .isTrue trivial

/-- The backpressure is far from what the neighbours heard. -/
def Differs (s : Hearing) : Prop := bpDiffThresh ≤ ((s.n.q.getBp : Int) - s.heard).natAbs

instance (s : Hearing) : Decidable s.Differs := inferInstanceAs (Decidable (_ ≤ _))

def isSendDataTask : NEvent → Bool
  | .sendDataTask .. => true
  | _ => false

def step (s : Hearing) (e : NEvent) : Option Hearing :=
  if s.Exists e then
    (s.n.step e).map fun n' =>
      { n := n'
        announced := if e = .beaconTimerFired then s.announced + 1 else s.announced
        value :=
          if e = .beaconTimerFired then Function.update s.value (s.announced + 1) s.n.q.getBp
          else s.value
        heard := hears s.value (newCalls s.n.q n'.q) s.heard
        heeded := s.heeded && !(isSendDataTask e && s.Differs && !n'.b.isRunning) }
  else none

def machine : Machine Hearing NEvent where
  init s := Node.machine.init s.n ∧ s.announced = 0 ∧ s.heard = 0 ∧ s.heeded = true
  step := step

end Hearing

end BackIP
