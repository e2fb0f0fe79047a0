import Backip.BackIP.Header
import Backip.System.PoolP
import Mathlib.Logic.Function.Basic

/-!
# The fragment queue (`tos/lib/net/blip/IPDispatchP.nc`, its send side)

`Dispatch` is the state of `IPDispatchP` that sending reads: the queue of fragments and the pools of
its entries, of the fragments' buffers and of the `send_info`s that the entries of one packet share.
`IPLower.send` cuts a packet into fragments and queues them; `sendTask` hands the one at the head to
`Ieee154Send.send`, which `IPDispatchC.nc` wires to the forwarding queue's `Send.send`; `sendDone`
drops it.

Pointers are the indices of the pools' objects. What `lowpan_frag_get` cuts is an argument, `frags`:
the data of the fragments in order, up to the call that returns 0 or an error. `wasDelivered` is the
forwarding queue's `FakePacketLink.wasDelivered`, which is always `TRUE`. Of `send_info`,
what only the layers above and the statistics read is left out.
-/

set_option autoImplicit false

namespace BackIP

/-! ## Constants and data (`IPDispatch.h`) -/

/-- `N_CONCURRENT_SENDS`: the number of concurrent sends. -/
abbrev nConcurrentSends : Nat := 3
/-- `N_FRAGMENTS`: the number of link-layer fragments to buffer. -/
abbrev nFragments : Nat := 12
abbrev blipL2Retries : Nat := 2
abbrev blipL2Delay : Nat := 10

/-- `struct send_info`. -/
structure SendInfo where
  linkFragments : Nat
  linkFragmentAttempts : Nat
  failed : Bool
  refcount : Nat
deriving DecidableEq, Repr

/-- `struct send_entry`. -/
structure SendEntry where
  info : Nat
  msg : Nat
deriving DecidableEq, Repr

inductive DispatchState
  | running
  | stopped
  | stopping
deriving DecidableEq, Repr

structure Dispatch where
  state : DispatchState
  radioBusy : Bool
  -- the components wired to it; the queue's head comes first
  sendQueue : List Nat
  sendInfoPool : PoolP Nat nConcurrentSends
  fragPool : PoolP Nat nFragments
  sendEntryPool : PoolP Nat nFragments
  -- memory
  info : Nat → SendInfo
  entry : Nat → SendEntry
  frag : Nat → Message
  sendTaskPosted : Bool
  -- the `IPLower.sendDone` signals, the last one first
  lowerDone : List SendInfo

namespace Dispatch

/-- Started: the radio is on and nothing is queued. -/
def boot : Dispatch where
  state := .running
  radioBusy := false
  sendQueue := []
  sendInfoPool := .init id (by decide)
  fragPool := .init id (by decide)
  sendEntryPool := .init id (by decide)
  info _ := ⟨0, 0, false, 0⟩
  entry _ := ⟨0, 0⟩
  frag _ := ⟨[], 0, 0, 0, .data⟩
  sendTaskPosted := false
  lowerDone := []

/-! ## `send_info` -/

def setInfo (d : Dispatch) (i : Nat) (x : SendInfo) : Dispatch :=
  { d with info := Function.update d.info i x }

@[simp] theorem setInfo_info_self (d : Dispatch) (i : Nat) (x : SendInfo) :
    (d.setInfo i x).info i = x :=
  Function.update_self ..

theorem setInfo_info_of_ne (d : Dispatch) {i j : Nat} (x : SendInfo) (h : j ≠ i) :
    (d.setInfo i x).info j = d.info j :=
  Function.update_of_ne h ..

/-- `getSendInfo`. -/
def getSendInfo (d : Dispatch) : Option Nat × Dispatch :=
  match d.sendInfoPool.get with
  | (none, pool) => (none, { d with sendInfoPool := pool })
  | (some i, pool) =>
    (some i, { d with sendInfoPool := pool }.setInfo i ⟨0, 0, false, 1⟩)

/-- `SENDINFO_DECR`. -/
def sendInfoDecr (d : Dispatch) (i : Nat) : Dispatch :=
  let d := d.setInfo i { d.info i with refcount := (d.info i).refcount - 1 }
  if (d.info i).refcount = 0 then { d with sendInfoPool := (d.sendInfoPool.put i).2 } else d

/-- `info->failed = TRUE`. -/
def setFailed (d : Dispatch) (i : Nat) : Dispatch :=
  d.setInfo i { d.info i with failed := true }

/-! ## `IPLower.send` -/

/-- An entry and a buffer, if there are both; one without the other goes back. -/
def getBuffers (d : Dispatch) : Option (Nat × Nat) × Dispatch :=
  let e := d.sendEntryPool.get
  let o := d.fragPool.get
  let d := { d with sendEntryPool := e.2, fragPool := o.2 }
  match e.1, o.1 with
  | some e, some o => (some (e, o), d)
  | some e, none => (none, { d with sendEntryPool := (d.sendEntryPool.put e).2 })
  | none, some o => (none, { d with fragPool := (d.fragPool.put o).2 })
  | none, none => (none, d)

/-- The entry and the buffer go back to their pools. -/
def putBuffers (d : Dispatch) (e o : Nat) : Dispatch :=
  { d with
    fragPool := (d.fragPool.put o).2
    sendEntryPool := (d.sendEntryPool.put e).2 }

/-- A fragment in its buffer. -/
def fill (d : Dispatch) (o : Nat) (origin : Origin) (data : List UInt8) : Dispatch :=
  { d with frag := Function.update d.frag o ⟨data, data.length, 0, 0, origin⟩ }

theorem origin_fill (d : Dispatch) (o : Nat) (origin : Origin) (data : List UInt8) :
    ((d.fill o origin data).frag o).origin = origin := by
  simp [fill]

/-- The entry joins the queue, and the link is told how to send its fragment. -/
def append (d : Dispatch) (i e o : Nat) (broadcast : Bool) : Dispatch :=
  { d with
    sendQueue := d.sendQueue ++ [e]
    entry := Function.update d.entry e ⟨i, o⟩
    frag := Function.update d.frag o { d.frag o with
      maxRetries := if broadcast then 0 else blipL2Retries
      retryDelay := blipL2Delay } }.setInfo i { d.info i with
    linkFragments := (d.info i).linkFragments + 1
    refcount := (d.info i).refcount + 1 }

/-- The loop of `IPLower.send`, and what it returns. -/
def fragLoop (origin : Origin) (broadcast : Bool) (i : Nat) :
    List (List UInt8) → Dispatch → Dispatch × TinyError
  | [], d =>
    match d.getBuffers with
    | (none, d) => (d.setFailed i, .eretry)
    | (some (e, o), d) => ((d.fill o origin []).putBuffers e o, .success)
  | data :: frags, d =>
    match d.getBuffers with
    | (none, d) => (d.setFailed i, .eretry)
    | (some (e, o), d) =>
      let d := d.fill o origin data
      if data.length ≤ 0 then (d.putBuffers e o, .success)
      else if nFragments ≤ d.sendQueue.length then (d.setFailed i, .success)
      else fragLoop origin broadcast i frags (d.append i e o broadcast)

/-- `IPLower.send`. -/
def send (d : Dispatch) (origin : Origin) (broadcast : Bool) (frags : List (List UInt8)) :
    Dispatch × TinyError :=
  if d.state ≠ .running then (d, .eoff)
  else
    match d.getSendInfo with
    | (none, d) => (d, .eretry)
    | (some i, d) =>
      let r := fragLoop origin broadcast i frags d
      ({ r.1.sendInfoDecr i with sendTaskPosted := true }, r.2)

/-! ## `sendTask` and `sendDone` -/

/-- The entry at the head is done with. -/
def dropHead (d : Dispatch) (e : Nat) : Dispatch :=
  let d := d.sendInfoDecr (d.entry e).info
  let d := d.putBuffers e (d.entry e).msg
  { d with sendQueue := d.sendQueue.tail }

/-- The end of `sendTask` for a fragment that is not sent. -/
def sendFail (d : Dispatch) (e : Nat) : Dispatch :=
  let d := { d with sendTaskPosted := true }
  (d.setFailed (d.entry e).info).dropHead e

/-- The buffer `sendTask` hands to `Ieee154Send.send`, if it does. -/
def toSend (d : Dispatch) : Option Nat :=
  if d.radioBusy ∨ d.state ≠ .running then none
  else
    match d.sendQueue with
    | [] => none
    | e :: _ => if (d.info (d.entry e).info).failed then none else some (d.entry e).msg

/-- `sendTask`, where `Ieee154Send.send` returns `ret`, if it is called. -/
def sendTask (d : Dispatch) (ret : TinyError) : Dispatch :=
  if d.radioBusy ∨ d.state ≠ .running then d
  else
    match d.sendQueue with
    | [] => d
    | e :: _ =>
      if (d.info (d.entry e).info).failed then d.sendFail e
      else if ret ≠ .success then d.sendFail e
      else { d with radioBusy := true }

/-- `Ieee154Send.sendDone`. With an empty queue the code reads a stale entry; this never happens
(`Egress.Inv.handed`). -/
def sendDone (d : Dispatch) : Dispatch :=
  match d.sendQueue with
  | [] => d
  | e :: _ =>
    let d := { d with radioBusy := false }
    let d :=
      if d.state = .stopping then { d with state := .stopped }
      else
        let i := (d.entry e).info
        let info := { d.info i with
          linkFragmentAttempts := (d.info i).linkFragmentAttempts + 1 }
        { d with
          lowerDone :=
            if info.linkFragmentAttempts = info.linkFragments then info :: d.lowerDone
            else d.lowerDone }.setInfo i info
    { d.dropHead e with sendTaskPosted := true }

end Dispatch

end BackIP
