import Backip.BackIP.Dispatch
import Backip.BackIP.Trace

/-!
# From `BeaconTimer` and the applications to the forwarding queue

`Egress` joins the fragment queue and the forwarding queue below it. A beacon and any other packet
reach `IPLower.send` by the same way; `SendingBeacon` sets the forwarding queue's flag before the
beacon's `sendto`, and the flag waits for the next `Send.send`. `announced` counts the calls of
`SendingBeacon`; the frames of the `n`-th beacon have the origin `beacon n`.

The layers between `sendto` and `IPLower.send` (UDP, the routing engine, neighbour discovery) keep
nothing: they call `IPLower.send` at once and return what it returns, or they fail without calling
it. A handler of the forwarding queue that signals `Send.sendDone` changes nothing the fragment
queue's handler reads afterwards, so the signals are handled when it is done.
-/

set_option autoImplicit false

namespace BackIP

structure Egress where
  q : Queueing
  d : Dispatch
  announced : Nat

inductive EEvent
  /-- A packet that is no beacon reaches `IPLower.send`. -/
  | send (broadcast : Bool) (frags : List (List UInt8))
  /-- `BeaconTimer.fired`; `frags` is `none` if `UDPBeacon.sendto` fails above `IPLower.send`. -/
  | beaconTimerFired (frags : Option (List (List UInt8)))
  /-- `IPDispatchP.sendTask`, where `SubSend.send` would answer `r`. -/
  | sendTask (r : TinyError) (now : Nat)
  | sendDataTask (nb : Option LlAddr) (r : TinyError)
  | txRetryTimerFired
  | signalDone
  | subSendDone (msg : MsgPtr) (error : TinyError) (delivered : Bool) (now : Nat)
deriving DecidableEq, Repr

/-- What the last `Send.send` returned. -/
def sendResult (q : Queueing) : TinyError :=
  match q.calls with
  | .send _ _ ret :: _ => ret
  | _ => .fail

/-- What `IPDispatchP` does at a signal of the forwarding queue. -/
def Dispatch.called (d : Dispatch) : Call → Dispatch
  | .sendDone _ _ => d.sendDone
  | _ => d

namespace Egress

/-- After a handler of the forwarding queue. -/
def after (s : Egress) (q' : Queueing) : Egress :=
  { s with q := q', d := (newCalls s.q q').foldr (fun c d => d.called c) s.d }

def step (s : Egress) : EEvent → Option Egress
  | .send broadcast frags => some { s with d := (s.d.send .data broadcast frags).1 }
  | .beaconTimerFired frags =>
    (s.q.step .sendingBeacon).map fun q' =>
      { q := q'
        d := match frags with
          | none => s.d
          | some frags => (s.d.send (.beacon (s.announced + 1)) true frags).1
        announced := s.announced + 1 }
  | .sendTask r now =>
    if s.d.sendTaskPosted then
      let d := { s.d with sendTaskPosted := false }
      match d.toSend with
      | none => some { s with d := d.sendTask .success }
      | some o =>
        (s.q.step (.send o (d.frag o) (d.frag o).length r now)).map fun q' =>
          { s with q := q', d := d.sendTask (sendResult q') }
    else none
  | .sendDataTask nb r => (s.q.step (.sendDataTask nb r)).map s.after
  | .txRetryTimerFired => (s.q.step .txRetryTimerFired).map s.after
  | .signalDone => (s.q.step .signalDone).map s.after
  | .subSendDone msg error delivered now =>
    (s.q.step (.subSendDone msg error delivered now)).map s.after

/-- Both queues from their start on. -/
def machine : Machine Egress EEvent where
  init s := s = ⟨Queueing.boot.start, Dispatch.boot, 0⟩
  step := step

/-- The frame a step hands to `Send.send`. -/
def handed (s : Egress) : EEvent → Option Message
  | .sendTask _ _ => s.d.toSend.map s.d.frag
  | _ => none

end Egress

end BackIP
