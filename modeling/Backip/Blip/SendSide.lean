import Backip.BackIP.Dispatch
import Backip.Lib.Machine

/-!
# The send side of `IPDispatchP` over any link (`tos/lib/net/blip/IPDispatchP.nc`)

`SendSide` puts the fragment queue between the layers above, which give each packet a pointer and
get it back with `IPLower.sendDone`, and a link that may refuse a fragment or fail to deliver it.
`linkDone` is `Ieee154Send.sendDone` with what `PacketLink.wasDelivered` answers; over a link that
always delivers it is the queue's `sendDone` (`linkDone_delivered`).

The radio keeps the contract of `SplitControl`: it answers an accepted `start` with `startDone`, an
accepted `stop` with `stopDone`, and accepts neither twice. A fragment that `Ieee154Send.send`
accepted is answered by one `sendDone`.
-/

set_option autoImplicit false

namespace Blip

open BackIP (Dispatch SendInfo SendEntry nConcurrentSends nFragments)

/-- The radio, by its `SplitControl`. -/
inductive Radio
  | off
  | starting
  | on
  | stopping
deriving DecidableEq, Repr

/-- `d` is the fragment queue; `upperData` the field of each `send_info`. The packets are numbered
as they come: `packet i` is the one that the `send_info` `i` was last taken for, `sends` has what
each `IPLower.send` got and returned, `done` the packets and pointers that `IPLower.sendDone` was
signalled for. -/
structure SendSide where
  d : Dispatch
  radio : Radio
  inRadio : Option Nat
  upperData : Nat → Nat
  packet : Nat → Nat
  sends : List (Nat × TinyError)
  done : List (Nat × Nat)

/-- A fragment of the packet of `send_info` `i` was attempted; whether `IPLower.sendDone` is
signalled. -/
def attempted (d : Dispatch) (i : Nat) (delivered : Bool) : Dispatch × Bool :=
  let info := { d.info i with
    linkFragmentAttempts := (d.info i).linkFragmentAttempts + 1
    failed := (d.info i).failed || !delivered }
  let signal := !delivered || info.linkFragmentAttempts == info.linkFragments
  ({ d with lowerDone := if signal then info :: d.lowerDone else d.lowerDone }.setInfo i info,
    signal)

/-- `Ieee154Send.sendDone`, and whether it signals `IPLower.sendDone`. With an empty queue the code
reads a stale entry; this never happens (`SendSide.Inv.handed`). -/
def linkDone (d : Dispatch) (delivered : Bool) : Dispatch × Bool :=
  match d.sendQueue with
  | [] => (d, false)
  | e :: _ =>
    let d := { d with radioBusy := false }
    let r :=
      if d.state = .stopping then ({ d with state := .stopped }, false)
      else attempted d (d.entry e).info delivered
    ({ r.1.dropHead e with sendTaskPosted := true }, r.2)

/-- Over a link that always delivers. -/
theorem linkDone_delivered (d : Dispatch) : (linkDone d true).1 = d.sendDone := by
  cases hq : d.sendQueue with
  | nil => simp only [linkDone, Dispatch.sendDone, hq]
  | cons e rest =>
    by_cases hs : d.state = .stopping
    · simp only [linkDone, Dispatch.sendDone, hq, hs, if_true]
    · simp only [linkDone, Dispatch.sendDone, attempted, hq, hs, if_false, Bool.not_true,
        Bool.or_false, Bool.false_or, beq_iff_eq]

namespace SendSide

/-- After `Boot.booted`, before its `SplitControl.start`. -/
def boot : SendSide where
  d := { Dispatch.boot with state := .stopped }
  radio := .off
  inRadio := none
  upperData _ := 0
  packet _ := 0
  sends := []
  done := []

/-- With the radio on. -/
def booted : SendSide := { boot with d := Dispatch.boot, radio := .on }

inductive Event
  /-- `IPLower.send` with the pointer `data`; `frags` is what `lowpan_frag_get` cuts. -/
  | send (data : Nat) (broadcast : Bool) (frags : List (List UInt8))
  /-- `sendTask`, where `Ieee154Send.send` would answer `ret`. -/
  | sendTask (ret : TinyError)
  /-- `Ieee154Send.sendDone`; `stop`: `RadioControl.stop` would accept. -/
  | sendDone (delivered stop : Bool)
  /-- `SplitControl.start` and `SplitControl.stop`, where the radio would accept. -/
  | start (accepted : Bool)
  | stop (accepted : Bool)
  /-- `RadioControl.startDone` and `RadioControl.stopDone`. -/
  | startDone (success : Bool)
  | stopDone (success : Bool)

/-- `IPLower.send`. -/
def send (s : SendSide) (data : Nat) (broadcast : Bool) (frags : List (List UInt8)) : SendSide :=
  let r := s.d.send .data broadcast frags
  let taken := if s.d.state = .running then s.d.getSendInfo.1 else none
  { s with
    d := r.1
    upperData := taken.elim s.upperData fun i => Function.update s.upperData i data
    packet := taken.elim s.packet fun i => Function.update s.packet i s.sends.length
    sends := s.sends ++ [(data, r.2)] }

/-- `sendTask`. -/
def sendTask (s : SendSide) (ret : TinyError) : SendSide :=
  let d := { s.d with sendTaskPosted := false }
  { s with
    d := d.sendTask ret
    inRadio := if ret = .success then d.toSend <|> s.inRadio else s.inRadio }

/-- The packet and the pointer of the fragment at the head. -/
def head (s : SendSide) : Option (Nat × Nat) :=
  s.d.sendQueue.head?.map fun e => (s.packet (s.d.entry e).info, s.upperData (s.d.entry e).info)

/-- `Ieee154Send.sendDone`. -/
def sendDone (s : SendSide) (delivered stop : Bool) : SendSide :=
  let r := linkDone s.d delivered
  { s with
    d := r.1
    radio := if s.d.state = .stopping ∧ s.radio = .on ∧ stop then .stopping else s.radio
    inRadio := none
    done := if r.2 then s.head.toList ++ s.done else s.done }

/-- `SplitControl.stop`. -/
def stop (s : SendSide) (accepted : Bool) : SendSide :=
  if s.d.radioBusy then { s with d := { s.d with state := .stopping } }
  else
    { s with
      d := { s.d with state := .stopped }
      radio := if s.radio = .on ∧ accepted then .stopping else s.radio }

/-- `RadioControl.startDone`. -/
def startDone (s : SendSide) (success : Bool) : SendSide :=
  if success then { s with d := { s.d with state := .running, radioBusy := false }, radio := .on }
  else { s with radio := .off }

def step (s : SendSide) : Event → Option SendSide
  | .send data broadcast frags => some (s.send data broadcast frags)
  | .sendTask ret => if s.d.sendTaskPosted then some (s.sendTask ret) else none
  | .sendDone delivered stop => if s.inRadio.isSome then some (s.sendDone delivered stop) else none
  | .start accepted =>
    some { s with radio := if s.radio = .off ∧ accepted then .starting else s.radio }
  | .stop accepted => some (s.stop accepted)
  | .startDone success => if s.radio = .starting then some (s.startDone success) else none
  | .stopDone success =>
    if s.radio = .stopping then some { s with radio := if success then .off else .on } else none

/-- From boot on. -/
def machine : Machine SendSide Event where
  init s := s = boot
  step := step

/-- The events of a node whose radio stays on. -/
def Event.Running : Event → Prop
  | .send _ _ _ | .sendTask _ | .sendDone _ _ => True
  | _ => False

instance : DecidablePred Event.Running := fun e => by
  cases e <;> unfold Event.Running <;> infer_instance

/-- With the radio on throughout. -/
def runningMachine : Machine SendSide Event :=
  Machine.restrict { init := fun s => s = booted, step := step } Event.Running

end SendSide

end Blip
