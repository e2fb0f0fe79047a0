import Backip.BackIP.Header
import Backip.BackIP.StackC
import Backip.Lib.Machine
import Backip.Lib.Splice
import Backip.System.PoolP
import Mathlib.Algebra.Group.Int.Defs
import Mathlib.Algebra.Group.Nat.Defs

/-!
# The forwarding queue (`tos/lib/net/backip/BackIPQueueingP.nc`)

`Queueing` is the state of `BackIPQueueingP` with what its handlers act on: the pools and the stack
wired to it (`BackIPQueueingC.nc`), the memory behind the pointers, which of its tasks are posted,
whether `txRetryTimer` runs, and which messages the link (`SubSend`) has accepted and not yet
signalled done. Handlers run to completion one at a time (all are tasks or synchronous events), so
each is a function on states; what other components answer is an argument:

* `r`: what `SubSend.send` returns, if it is called;
* `nb`: what `updateNeighbour` finds (`none`: it returns -1; `some a`: it calls `setNeighbour a`
  and returns 0);
* `now`: `PacketDelayTimer.getNow`;
* `delivered`: `PacketLink.wasDelivered`.

`calls` is not in the code. It records, the last one first, the calls and signals to other
components, the results of the unchecked ones, and the outcome of each `Send.send`; statements about
runs speak about it. `Queueing.machine` is the open system: the events in any order, with any
answers.

The sources' `DELAY` build also writes into the payload: it is modelled in `BackIP/Delay.lean`.
-/

set_option autoImplicit false

namespace BackIP

/-! ## State -/

/-- `send_stats_t` (counters of 16 bits). -/
structure SendStats where
  sentTotal : Nat := 0
  sentNull : Nat := 0
  sentSuccess : Nat := 0
  droppedQ : Nat := 0
  droppedFail : Nat := 0
  droppedCond : Nat := 0
deriving DecidableEq, Repr

/-- `x++` on a `uint16_t`. -/
def inc16 (x : Nat) : Nat := (x + 1) % 65536

/-- `x--` on a `uint16_t`. -/
def dec16 (x : Nat) : Nat := (x + 65535) % 65536

/-- What the module does to other components, and the results nothing checks. -/
inductive Call
  /-- `Send.send (msg)` returned `ret`; `bypass`: the call took the beacon's way. -/
  | send (msg : MsgPtr) (bypass : Bool) (ret : TinyError)
  /-- `signal Send.sendDone (msg, error)`. -/
  | sendDone (msg : MsgPtr) (error : TinyError)
  /-- A bypassing `SubSend.send (msg, len)` of `frame` returned `ret`. -/
  | subSendBeacon (msg : MsgPtr) (frame : Message) (len : Nat) (ret : TinyError)
  /-- `SubSend.send` of the packet in `qe`, the frame rewritten to the address `dst`, returned
  `ret`. -/
  | subSendData (qe : QePtr) (dst : LlAddr) (frame : Message) (len : Nat) (ret : TinyError)
  /-- A packet entered the queue in the entry `qe`. -/
  | enqueue (qe : QePtr)
  /-- `conditionalDiscard` dropped the oldest packet. -/
  | discard (qe : QePtr)
  /-- `SendStack.pushTop`, `MessagePool.put`, `QEntryPool.put` returned `ret`. -/
  | pushTop (ret : TinyError)
  | messagePut (ret : TinyError)
  | qEntryPut (ret : TinyError)
  /-- The packet in `qe` was delivered: `updateETX (n, c)`, then `updateLinkRate (n, txTime)`. -/
  | delivered (qe : QePtr) (n : LlAddr) (c : Nat) (txTime : Nat)
  /-- The packet in `qe` was tried too often: `updateETX (n, c)`. -/
  | giveUp (qe : QePtr) (n : LlAddr) (c : Nat)
  | drasticBackpressureChange
  | sendNull
deriving DecidableEq, Repr

structure Queueing where
  -- the module's variables
  sendingBeacon : Bool
  sendingData : Nat
  radioBusy : Bool
  suppressSendDone : Bool
  sendStats : SendStats
  currNbLlAddr : LlAddr
  currentSendQe : QePtr
  virtualQueueSize : Nat
  myLastBp : Int
  mMsgp : MsgPtr
  -- the components wired to it
  messagePool : PoolP MsgPtr forwardingQueueSize
  qEntryPool : PoolP QePtr forwardingQueueSize
  sendStack : StackC QePtr forwardingQueueSize
  -- memory
  mem : MsgPtr → Message
  qe : QePtr → QueueEntry
  -- tasks, the timer's interval while it runs, and the link
  sendDataPosted : Bool
  signalDonePosted : Bool
  txRetryTimer : Option Nat
  pending : List MsgPtr
  -- the record of calls
  calls : List Call

namespace Queueing

def record (s : Queueing) (c : Call) : Queueing := { s with calls := c :: s.calls }

/-- Booted: variables zero, pools full, the stack empty. -/
def boot : Queueing where
  sendingBeacon := false
  sendingData := 0
  radioBusy := false
  suppressSendDone := false
  sendStats := {}
  currNbLlAddr := .none
  currentSendQe := .null
  virtualQueueSize := 0
  myLastBp := 0
  mMsgp := .null
  messagePool := .init .pool (by decide)
  qEntryPool := .init .entry (by decide)
  sendStack := .init (fun _ => .null) (by decide)
  mem _ := ⟨[], 0, 0, 0, .data⟩
  qe _ := ⟨.null, 0, 0⟩
  sendDataPosted := false
  signalDonePosted := false
  txRetryTimer := none
  pending := []
  calls := []

/-- `StdControl.start`. -/
def start (s : Queueing) : Queueing :=
  { s with radioBusy := false, sendingBeacon := false, suppressSendDone := false,
           virtualQueueSize := 0, sendStats := {} }

/-! ## Calls into the wired components -/

/-- `MessagePool.put`. -/
def putMessage (s : Queueing) (msg : MsgPtr) : Queueing :=
  { s with messagePool := (s.messagePool.put msg).2 }.record (.messagePut (s.messagePool.put msg).1)

/-- `QEntryPool.put`. -/
def putQEntry (s : Queueing) (q : QePtr) : Queueing :=
  { s with qEntryPool := (s.qEntryPool.put q).2 }.record (.qEntryPut (s.qEntryPool.put q).1)

/-- `SendStack.pushTop`. -/
def pushTop (s : Queueing) (q : QePtr) : Queueing :=
  { s with sendStack := (s.sendStack.pushTop q).2 }.record (.pushTop (s.sendStack.pushTop q).1)

/-- The link keeps a message whose `SubSend.send` it accepts (`r`). -/
def linkAccept (s : Queueing) (msg : MsgPtr) (r : TinyError) : Queueing :=
  { s with pending := if r = .success then msg :: s.pending else s.pending }

/-! ## The module's functions -/

/-- `rewrite_dst_ll_addr`: the destination follows the first `IEEE154_MIN_HDR_SZ` bytes. -/
def rewriteDstLlAddr (s : Queueing) (msg : MsgPtr) : Queueing :=
  let m := s.mem msg
  { s with
    mem := Function.update s.mem msg { m with data := splice m.data 6 s.currNbLlAddr.bytes } }

/-- One turn of the loop of `conditionalDiscard`. -/
def discardOne (s : Queueing) : Queueing :=
  let discardQe := s.sendStack.popBottom.1
  let s := { s with sendStack := s.sendStack.popBottom.2 }.record (.discard discardQe)
  let s := (s.putMessage (s.qe discardQe).msg).putQEntry discardQe
  { s with sendStats := { s.sendStats with droppedCond := inc16 s.sendStats.droppedCond }
           virtualQueueSize := inc16 s.virtualQueueSize }

/-- The loop of `conditionalDiscard`, for at most `n` turns. -/
def discardLoop : Nat → Queueing → Queueing
  | 0, s => s
  | n + 1, s =>
    if s.sendStack.size ≥ s.sendStack.maxSize then discardLoop n s.discardOne else s

/-- `conditionalDiscard`: make space in a full stack. Each turn of the loop takes an element. -/
def conditionalDiscard (s : Queueing) : Queueing := discardLoop s.sendStack.size s

/-- `_get_bp` (`GetBackpressure`). -/
def getBp (s : Queueing) : Nat := s.sendStack.size + s.virtualQueueSize + s.sendingData

/-- `check_bp`. -/
def checkBp (s : Queueing) : Queueing :=
  if bpDiffThresh ≤ ((s.getBp : Int) - s.myLastBp).natAbs then s.record .drasticBackpressureChange
  else s

/-! ### `sendDataTask` -/

/-- A packet that was tried too often: penalise the current neighbour and start again later. -/
def giveUp (s : Queueing) (q : QePtr) : Queueing :=
  let s := { s with
    sendStats := { s.sendStats with droppedFail := inc16 s.sendStats.droppedFail }
    sendingData := 0 }
  let s := s.record (.giveUp q s.currNbLlAddr (2 * maxRetxAttempts))
  let s := s.conditionalDiscard
  let s := { s with qe := Function.update s.qe q { s.qe q with txCount := 0 } }
  let s := s.pushTop q
  { s with radioBusy := false, txRetryTimer := some rerouteInterval }

/-- The local send failed: no attempt was made. -/
def localSendFailed (s : Queueing) (q : QePtr) : Queueing :=
  let s := { s with qe := Function.update s.qe q { s.qe q with txCount := dec16 (s.qe q).txCount } }
  let s := s.pushTop q
  { s with sendingData := 0, radioBusy := false, txRetryTimer := some retryInterval }

/-- `PacketLink.setRetries (msg, 2)` and `PacketLink.setRetryDelay (msg, 50)`. -/
def setLinkRetries (s : Queueing) (msg : MsgPtr) : Queueing :=
  { s with mem := Function.update s.mem msg { s.mem msg with maxRetries := 2, retryDelay := 50 } }

/-- Hand the packet of entry `q` to the link, which answers `r`. -/
def handOff (s : Queueing) (q : QePtr) (len : Nat) (r : TinyError) : Queueing :=
  let s := { s with suppressSendDone := true }
  let s := s.rewriteDstLlAddr (s.qe q).msg
  let s := { s with
    qe := Function.update s.qe q { s.qe q with txCount := inc16 (s.qe q).txCount }
    sendingData := 1 }
  let s := s.setLinkRetries (s.qe q).msg
  let s := s.record (.subSendData q s.currNbLlAddr (s.mem (s.qe q).msg) len r)
  s.linkAccept (s.qe q).msg r

/-- Send the packet of entry `q`. -/
def transmit (s : Queueing) (q : QePtr) (len : Nat) (r : TinyError) : Queueing :=
  let s := s.handOff q len r
  if r = .success then s else s.localSendFailed q

/-- The data branch of `sendDataTask`. -/
def sendData (s : Queueing) (r : TinyError) : Queueing :=
  let q := s.sendStack.popTop.1
  let s := { s with sendStack := s.sendStack.popTop.2, currentSendQe := q }
  let len := (s.mem (s.qe q).msg).length
  if maxRetxAttempts ≤ (s.qe q).txCount then s.giveUp q else s.transmit q len r

/-- The null-packet branch of `sendDataTask`. -/
def sendNull (s : Queueing) : Queueing :=
  let s := { s with virtualQueueSize := dec16 s.virtualQueueSize, radioBusy := false }
  let s := s.record .sendNull
  { s with sendStats := { s.sendStats with sentNull := inc16 s.sendStats.sentNull } }

/-- `sendDataTask` once a good neighbour `a` is found. -/
def sendTo (s : Queueing) (a : LlAddr) (r : TinyError) : Queueing :=
  let s := { s with currNbLlAddr := a }
  let s := s.conditionalDiscard
  let s := { s with radioBusy := true }
  if !s.sendStack.empty then s.sendData r else s.sendNull

/-- `sendDataTask`. -/
def sendDataTask (s : Queueing) (nb : Option LlAddr) (r : TinyError) : Queueing :=
  if s.radioBusy then { s with txRetryTimer := some retryInterval }
  else
    let s := s.checkBp
    if s.sendStack.empty && s.virtualQueueSize ≤ 0 then s
    else
      match nb with
      | none => { s with txRetryTimer := some rerouteInterval }
      | some a => s.sendTo a r

/-! ### `Send.send` -/

/-- The beacon's way around the queue. -/
def bypass (s : Queueing) (msg : MsgPtr) (len : Nat) (r : TinyError) : Queueing :=
  if s.radioBusy then { s with sendingBeacon := false }.record (.send msg true .eretry)
  else
    let s := { s with radioBusy := true, sendingBeacon := false, suppressSendDone := false }
    let s := (s.record (.subSendBeacon msg (s.mem msg) len r)).linkAccept msg r
    let s := { s with myLastBp := s.getBp }
    s.record (.send msg true r)

/-- A `Send.send` that finds no room. -/
def refuse (s : Queueing) (msg : MsgPtr) : Queueing :=
  { s with
    sendStats := { s.sendStats with droppedQ := inc16 s.sendStats.droppedQ } }.record
    (.send msg false .eretry)

/-- `SubPacket.setPayloadLength`. -/
def setPayloadLength (s : Queueing) (msg : MsgPtr) (len : Nat) : Queueing :=
  { s with mem := Function.update s.mem msg { s.mem msg with length := len } }

/-- Copy the message into the buffer `newMsg` and push its entry `ins`. -/
def push (s : Queueing) (msg newMsg : MsgPtr) (ins : QePtr) (now : Nat) : Queueing :=
  let s := { s with
    mem := Function.update s.mem newMsg (s.mem msg)
    qe := Function.update s.qe ins ⟨newMsg, 0, now⟩ }
  let retVal := (s.sendStack.pushTop ins).1
  let s := s.pushTop ins
  if retVal ≠ .success then s.refuse msg
  else
    let s := s.record (.enqueue ins)
    let s := { s with mMsgp := msg, signalDonePosted := true, sendDataPosted := true }
    s.record (.send msg false .success)

/-- Regular data, put into the queue. -/
def enqueue (s : Queueing) (msg : MsgPtr) (len now : Nat) : Queueing :=
  let s := { s with sendStats := { s.sendStats with sentTotal := inc16 s.sendStats.sentTotal } }
  let s := s.conditionalDiscard
  let s := s.setPayloadLength msg len
  if s.messagePool.empty then s.refuse msg
  else
    match s.messagePool.get with
    | (none, pool) => { s with messagePool := pool }.refuse msg
    | (some newMsg, pool) =>
      let s := { s with messagePool := pool }
      match s.qEntryPool.get with
      | (none, pool) => ({ s with qEntryPool := pool }.putMessage newMsg).refuse msg
      | (some ins, pool) => { s with qEntryPool := pool }.push msg newMsg ins now

/-- `Send.send`. -/
def send (s : Queueing) (msg : MsgPtr) (len : Nat) (r : TinyError) (now : Nat) : Queueing :=
  if s.sendingBeacon then s.bypass msg len r else s.enqueue msg len now

/-! ### `SubSend.sendDone` -/

/-- The time a packet took, as `sendDone` computes it in 32 bits and cuts it to 16. -/
def txTime (now first : Nat) : Nat :=
  let d := (now + 2 ^ 32 - first) % 2 ^ 32
  if d > 0xFFFF then 0xFFFF else d

/-- A data packet was not acknowledged: push it back to retransmit. -/
def retry (s : Queueing) : Queueing :=
  let s := { s with sendingData := 0 }
  let s := s.pushTop s.currentSendQe
  { s with radioBusy := false, sendDataPosted := true }

/-- A data packet was delivered. -/
def deliver (s : Queueing) (now : Nat) : Queueing :=
  let q := s.currentSendQe
  let s := { s with
    sendStats := { s.sendStats with sentSuccess := inc16 s.sendStats.sentSuccess }
    sendingData := 0 }
  let s := s.record
    (.delivered q s.currNbLlAddr (s.qe q).txCount (txTime now (s.qe q).firstTxTime))
  let s := (s.putMessage (s.qe q).msg).putQEntry q
  { s with suppressSendDone := false, radioBusy := false }

/-- A beacon is done: the layer above hears of it. -/
def beaconDone (s : Queueing) (msg : MsgPtr) (error : TinyError) : Queueing :=
  { s.record (.sendDone msg error) with radioBusy := false }

/-- Send data if it is available. -/
def postIfBacklog (s : Queueing) : Queueing :=
  if s.sendStack.size > 0 ∨ s.virtualQueueSize > 0 then { s with sendDataPosted := true } else s

/-- `SubSend.sendDone`. -/
def subSendDone (s : Queueing) (msg : MsgPtr) (error : TinyError) (delivered : Bool)
    (now : Nat) : Queueing :=
  if s.suppressSendDone then
    if !delivered then s.retry else (s.deliver now).postIfBacklog
  else (s.beaconDone msg error).postIfBacklog

end Queueing

/-! ## The open system -/

/-- What can happen to a queue. -/
inductive QEvent
  /-- `BeaconQueueInterface.SendingBeacon`. -/
  | sendingBeacon
  /-- `Send.send` of the buffer `i` of the layer above, holding `frame`. -/
  | send (i : Nat) (frame : Message) (len : Nat) (r : TinyError) (now : Nat)
  | sendDataTask (nb : Option LlAddr) (r : TinyError)
  | txRetryTimerFired
  | signalDone
  /-- The link is done with an accepted message. -/
  | subSendDone (msg : MsgPtr) (error : TinyError) (delivered : Bool) (now : Nat)
deriving DecidableEq, Repr

namespace Queueing

/-- One event: `none` if it cannot occur (a task that is not posted, a timer that does not run, a
`sendDone` for a message the link does not hold). -/
def step (s : Queueing) : QEvent → Option Queueing
  | .sendingBeacon => some { s with sendingBeacon := true }
  | .send i frame len r now =>
    some ({ s with mem := Function.update s.mem (.frag i) frame }.send (.frag i) len r now)
  | .sendDataTask nb r =>
    if s.sendDataPosted then some ({ s with sendDataPosted := false }.sendDataTask nb r) else none
  | .txRetryTimerFired =>
    if s.txRetryTimer.isSome then some { s with txRetryTimer := none, sendDataPosted := true }
    else none
  | .signalDone =>
    if s.signalDonePosted then
      some ({ s with signalDonePosted := false }.record (.sendDone s.mMsgp .success))
    else none
  | .subSendDone msg error delivered now =>
    if msg ∈ s.pending then
      some ({ s with pending := s.pending.erase msg }.subSendDone msg error delivered now)
    else none

/-- The queue from `StdControl.start` on. -/
def machine : Machine Queueing QEvent where
  init s := s = boot.start
  step := step

end Queueing

end BackIP
