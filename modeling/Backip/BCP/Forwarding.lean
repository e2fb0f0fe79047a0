import Backip.BackIP.StackC
import Backip.BCP.Routing
import Backip.System.PoolP
import Backip.System.QueueC
import Backip.System.Types

/-!
# The forwarding engine (`tos/lib/net/bcp/BcpForwardingEngineP.nc`)

`Forwarder` is the state of `BcpForwardingEngineP` with the components `BcpC` wires to it: the
pools, the stack and the snoop queue, the root flag of the routing engine, the memory behind the
pointers, the tasks and timers, the message the link (`SubSend`) has accepted and not yet signalled
done, and the buffers the radio and the applications hold. Handlers run to completion one at a
time, so each is a function on states; what other components answer is an argument (`Answers`).

`calls` is not in the code. It records, the last one first, what the module asks of other
components and reports to them; statements about runs speak about it. Debug reports other than
`BcpDebugIF.reportError` are left out. `dataSerial` and `nullSerial` number the packets made here
(see `Ident`).

`Config` has the build's `LIFO` and `VIRTQ` options, the payload size of the radio, and the buffers
the radio and the applications start with.
-/

set_option autoImplicit false

namespace BCP

structure Config where
  lifo : Bool
  virtq : Bool
  /-- `SubPacket.maxPayloadLength`. -/
  subMaxPayloadLength : UInt8
  /-- `TOS_NODE_ID`. -/
  tosNodeId : UInt16
  radio : List Nat
  app : List Nat
  nodup : (radio ++ app).Nodup

/-- What the module does to other components, and what they return. -/
inductive Call
  /-- `BcpDebugIF.reportError (code)`. -/
  | reportError (code : UInt8)
  /-- `Send.send` returned `ret`. -/
  | send (ret : TinyError)
  /-- `signal Send.sendDone (msg, SUCCESS)`. -/
  | sendDone
  /-- `signal Receive.receive (msg)`, which holds `m`. -/
  | receive (msg : MsgPtr) (m : Message)
  /-- `SubSend.send` of the packet in `qe` to `dst` returned `ret`. -/
  | subSend (qe : QePtr) (dst : UInt16) (frame : Message) (len : UInt8) (ret : TinyError)
  /-- `BeaconSend.send` of a beacon returned `ret`. -/
  | beaconSend (bcpBackpressure : UInt16) (ret : TinyError)
  /-- `MessagePool.put`, `QEntryPool.put` returned `ret`. -/
  | messagePut (msg : MsgPtr) (ret : TinyError)
  | qEntryPut (qe : QePtr) (ret : TinyError)
  /-- A command to the routing engine. -/
  | router (c : RoutingTable.Command)
  /-- A received packet was new, or discarded as a duplicate. -/
  | processed (src : UInt16) (id : Ident)
  | duplicate (src : UInt16) (id : Ident)
deriving DecidableEq, Repr

structure Forwarder where
  -- the module's variables
  latestForwardedTable : List LatestForwardedEntry
  seqno : UInt8
  nullSeqNo : UInt8
  beaconSending : Bool
  running : Bool
  sending : Bool
  radioOn : Bool
  localTXCount : UInt16
  nextHopAddress : UInt16
  nextHopBackpressure : UInt16
  notifyBurstyLinkNeighbor : UInt16
  loopbackMsgPtr : MsgPtr
  sendQe : QePtr
  sendQeOccupied : Bool
  virtualQueueSize : UInt16
  dataCRCSuccessCount : UInt16
  dataCRCFailCount : UInt16
  -- the components wired to it
  messagePool : PoolP MsgPtr (forwardingQueueSize + snoopQueueSize)
  qEntryPool : PoolP QePtr forwardingQueueSize
  sendStack : StackC QePtr (forwardingQueueSize - 1)
  snoopQueue : QueueC MsgPtr snoopQueueSize
  isRoot : Bool
  -- memory
  mem : MsgPtr → Message
  qe : QePtr → FeQueueEntry
  -- tasks and timers
  sendDataPosted : Bool
  sendBeaconPosted : Bool
  snoopHandlerPosted : Bool
  beaconTimer : TimerMilli
  txRetryTimer : TimerMilli
  -- the link, and the buffers of others
  pending : Option MsgPtr
  beaconPending : Bool
  radio : List MsgPtr
  app : List MsgPtr
  -- the records
  dataSerial : Nat
  nullSerial : Nat
  calls : List Call

/-- What other components answer while a handler runs. -/
structure Answers where
  /-- `updateRouting`: `none` if it fails, else what it signals `setNextHopAddress` with. -/
  route : Option (UInt16 × UInt16) := none
  /-- `SubSend.send`, if nothing is outstanding. -/
  subSend : TinyError := .success
  /-- `getNow` of both timers. -/
  now : UInt32 := 0
  /-- The buffer `Receive.receive` returns, if it is one the applications hold; else the same. -/
  back : MsgPtr := .null
deriving DecidableEq, Repr

namespace Forwarder

/-- After `Init.init`. -/
def boot (cfg : Config) : Forwarder where
  latestForwardedTable := []
  seqno := 0
  nullSeqNo := 0
  beaconSending := false
  running := false
  sending := false
  radioOn := false
  localTXCount := 0
  nextHopAddress := 0
  nextHopBackpressure := 0
  notifyBurstyLinkNeighbor := cfg.tosNodeId
  loopbackMsgPtr := .loopback
  sendQe := .null
  sendQeOccupied := false
  virtualQueueSize := 0
  dataCRCSuccessCount := 0
  dataCRCFailCount := 0
  messagePool := .init .pool (by decide)
  qEntryPool := .init .entry (by decide)
  sendStack := .init (fun _ => .null) (by decide)
  snoopQueue := .init (fun _ => .null) (by decide)
  isRoot := false
  mem _ := {}
  qe _ := {}
  sendDataPosted := false
  sendBeaconPosted := false
  snoopHandlerPosted := false
  beaconTimer := .stopped
  txRetryTimer := .stopped
  pending := none
  beaconPending := false
  radio := cfg.radio.map .other
  app := cfg.app.map .other
  dataSerial := 0
  nullSerial := 0
  calls := []

def record (s : Forwarder) (c : Call) : Forwarder := { s with calls := c :: s.calls }

/-- `BcpDebugIF.reportError`. -/
def reportError (s : Forwarder) (code : UInt8) : Forwarder := s.record (.reportError code)

/-- Write a message. -/
def setMsg (s : Forwarder) (msg : MsgPtr) (m : Message) : Forwarder :=
  { s with mem := Function.update s.mem msg m }

/-- Write a queue entry. -/
def setQe (s : Forwarder) (q : QePtr) (e : FeQueueEntry) : Forwarder :=
  { s with qe := Function.update s.qe q e }

/-- Report a call that did not return `SUCCESS`. -/
def check (s : Forwarder) (ret : TinyError) (code : UInt8) : Forwarder :=
  if ret ≠ .success then s.reportError code else s

def stopSending (s : Forwarder) : Forwarder := { s with sending := false }

/-- Stop sending and try again after a while. -/
def retryLater (s : Forwarder) : Forwarder :=
  { s.stopSending with txRetryTimer := .oneShot rerouteTime }

def setSendQe (s : Forwarder) (q : QePtr) : Forwarder := { s with sendQe := q }

def setLoopback (s : Forwarder) (msg : MsgPtr) : Forwarder := { s with loopbackMsgPtr := msg }

/-- The packet in `sendQe` is gone. -/
def clearSendQe (s : Forwarder) : Forwarder := { s with sendQeOccupied := false }

/-! ## Calls into the wired components -/

/-- `MessagePool.get`. -/
def getMessage (s : Forwarder) : Option MsgPtr × Forwarder :=
  (s.messagePool.get.1, { s with messagePool := s.messagePool.get.2 })

/-- `QEntryPool.get`. -/
def getQEntry (s : Forwarder) : Option QePtr × Forwarder :=
  (s.qEntryPool.get.1, { s with qEntryPool := s.qEntryPool.get.2 })

/-- `MessagePool.put`, where a failure is reported as `code`. -/
def putMessage (s : Forwarder) (msg : MsgPtr) (code : UInt8) : Forwarder :=
  let ret := (s.messagePool.put msg).1
  ({ s with messagePool := (s.messagePool.put msg).2 }.record (.messagePut msg ret)).check ret code

/-- `QEntryPool.put`, where a failure is reported as `code`. -/
def putQEntry (s : Forwarder) (q : QePtr) (code : UInt8) : Forwarder :=
  let ret := (s.qEntryPool.put q).1
  ({ s with qEntryPool := (s.qEntryPool.put q).2 }.record (.qEntryPut q ret)).check ret code

/-- `SendStack.popTop`. -/
def popTop (s : Forwarder) : QePtr × Forwarder :=
  (s.sendStack.popTop.1, { s with sendStack := s.sendStack.popTop.2 })

/-- `SendStack.popBottom`. -/
def popBottom (s : Forwarder) : QePtr × Forwarder :=
  (s.sendStack.popBottom.1, { s with sendStack := s.sendStack.popBottom.2 })

/-- `SendStack.pushTop`. -/
def pushTop (s : Forwarder) (q : QePtr) : TinyError × Forwarder :=
  ((s.sendStack.pushTop q).1, { s with sendStack := (s.sendStack.pushTop q).2 })

/-- `SendStack.pushBottom`. -/
def pushBottom (s : Forwarder) (q : QePtr) : TinyError × Forwarder :=
  ((s.sendStack.pushBottom q).1, { s with sendStack := (s.sendStack.pushBottom q).2 })

/-- `signal Receive.receive (msg)`: the buffer the application returns. -/
def signalReceive (s : Forwarder) (msg back : MsgPtr) : MsgPtr × Forwarder :=
  let s := s.record (.receive msg (s.mem msg))
  if back ∈ s.app then (back, { s with app := msg :: s.app.erase back }) else (msg, s)

/-- `SubSend.send`: the destination is written first; while a message is outstanding the link is
busy. -/
def subSend (s : Forwarder) (q : QePtr) (dst : UInt16) (len : UInt8) (r : TinyError) :
    TinyError × Forwarder :=
  let msg := (s.qe q).msg
  let s := s.setMsg msg { s.mem msg with dst := dst }
  let ret := if s.pending.isSome then .ebusy else r
  let s := s.record (.subSend q dst (s.mem msg) len ret)
  (ret, { s with pending := if ret = .success then some msg else s.pending })

/-! ## The module's functions -/

/-- `getBackpressure.get`: the stack, the packet being sent and the virtual queue. -/
def getBackpressure (s : Forwarder) : UInt16 :=
  UInt16.ofNat s.sendStack.size + s.sendQeOccupied.toUInt16 + s.virtualQueueSize

/-- `conditionalFQDiscard`. -/
def conditionalFQDiscard (cfg : Config) (s : Forwarder) : Forwarder :=
  if s.sendStack.size = s.sendStack.maxSize then
    let r := s.popBottom
    let discardQe := r.1
    let s := (r.2.putMessage (r.2.qe discardQe).msg 0x59).putQEntry discardQe 0x39
    if cfg.virtq then { s with virtualQueueSize := s.virtualQueueSize + 1 } else s
  else s

/-- `latestForwardedTableFind`: the index of a neighbor. -/
def latestForwardedTableFind (l : List LatestForwardedEntry) (neighbor : UInt16) : Option Nat :=
  if neighbor = tosBcastAddr then none else l.findIdx? (·.neighbor == neighbor)

/-- `latestForwardedTableUpdate`. -/
def latestForwardedTableUpdate (s : Forwarder) (src origin : UInt16)
    (originSeqNo hopCount : UInt8) : Forwarder :=
  match latestForwardedTableFind s.latestForwardedTable src with
  | none =>
    if s.latestForwardedTable.length = routingTableSize then s.reportError 0x38
    else
      { s with
        latestForwardedTable :=
          s.latestForwardedTable ++ [⟨src, origin, originSeqNo, hopCount⟩] }
  | some i =>
    { s with
      latestForwardedTable := s.latestForwardedTable.modify i fun e =>
        { e with origin := origin, originSeqNo := originSeqNo, hopCount := hopCount } }

/-- `forwarderActivity`. -/
def forwarderActivity (s : Forwarder) : Forwarder :=
  if !s.running then s
  else if s.isRoot then
    { s with
      virtualQueueSize := 0
      beaconTimer := if s.beaconTimer.isRunning then s.beaconTimer else .oneShot fastBeaconTime
      sendDataPosted := s.sendDataPosted || !s.sendStack.empty }
  else if s.sending then s
  else if !s.sendStack.empty || s.virtualQueueSize > 0 || s.sendQeOccupied then
    { s with beaconTimer := .stopped, sending := true, sendDataPosted := true }
  else { s with beaconTimer := .periodic beaconTime }

/-! ### `sendDataTask` -/

/-- A root serves the packet of entry `q` itself. -/
def serveRoot (s : Forwarder) (q : QePtr) (back : MsgPtr) : Forwarder :=
  let s := s.setMsg s.loopbackMsgPtr (s.mem (s.qe q).msg)
  let s := (s.putMessage (s.qe q).msg 0xbb).putQEntry q 0xbc
  let r := s.signalReceive s.loopbackMsgPtr back
  (r.2.setLoopback r.1).forwarderActivity

/-- `sendDataTask` at a root. -/
def sendDataRoot (s : Forwarder) (back : MsgPtr) : Forwarder :=
  let s := s.stopSending
  if s.sendQeOccupied then s.clearSendQe.serveRoot s.sendQe back
  else if s.sendStack.empty && s.virtualQueueSize == 0 then s.reportError 0x4a
  else
    let r := s.popTop
    (r.2.setSendQe r.1).serveRoot r.1 back

/-- The null packet in the message `msg` and the entry `q`. -/
def fillNull (cfg : Config) (s : Forwarder) (q : QePtr) (msg : MsgPtr) (now : UInt32) : Forwarder :=
  let m := s.mem msg
  let s := s.setMsg msg { m with
    hdr := { m.hdr with
      hopCount := 0
      origin := cfg.tosNodeId
      originSeqNo := s.nullSeqNo
      bcpDelay := 0
      txCount := 0
      pktType := pktNull }
    ident := ⟨cfg.tosNodeId, pktNull, s.nullSerial, 0⟩ }
  let s := { s with nullSeqNo := s.nullSeqNo + 1, nullSerial := s.nullSerial + 1 }
  s.setQe q { arrivalTime := now, source := 1, msg := msg }

/-- Create a null packet and place it on the stack; the flag says whether there was space. -/
def pushNull (cfg : Config) (s : Forwarder) (now : UInt32) : Bool × Forwarder :=
  let r := s.getQEntry
  match r.1 with
  | none => (false, r.2.reportError 0x6b)
  | some q =>
    let r := r.2.getMessage
    match r.1 with
    | none => (false, ((r.2.reportError 0x6c).putQEntry q 0x6d).reportError 0xA2)
    | some msg =>
      let r := (r.2.fillNull cfg q msg now).pushTop q
      let s := r.2.check r.1 0x47
      (true, { s with virtualQueueSize := s.virtualQueueSize - 1 })

/-- Take the next packet off the stack. -/
def takeNext (s : Forwarder) (now : UInt32) : Forwarder :=
  let r := s.popTop
  let s := r.2.setQe r.1 { r.2.qe r.1 with firstTxTime := now }
  { s.setSendQe r.1 with sendQeOccupied := true }

/-- The packet in `sendQe` was tried too often: penalise the link and place it back. -/
def giveUp (cfg : Config) (s : Forwarder) : Forwarder :=
  let q := s.sendQe
  let s := s.record (.router (.updateLinkSuccess (s.mem (s.qe q).msg).dst (2 * maxRetxAttempts)))
  let s := (s.setQe q { s.qe q with txCount := 0 }).conditionalFQDiscard cfg
  let r := s.pushTop q
  (r.2.check r.1 0x48).clearSendQe.retryLater.reportError 0xA3

/-- The header of the packet of entry `e`, filled in to be sent. -/
def fillHeader (s : Forwarder) (e : FeQueueEntry) (m : Message) (now : UInt32) : Message :=
  { m with
    hdr := { m.hdr with
      bcpBackpressure := s.getBackpressure
      nhBackpressure := s.nextHopBackpressure
      nodeTxCount := s.localTXCount.toUInt8
      burstNotifyAddr := s.notifyBurstyLinkNeighbor
      txCount := m.hdr.txCount + 1
      bcpDelay := e.bcpArrivalDelay + (now - e.arrivalTime) + perHopMacDly } }.stampChecksum

/-- What follows the `SubSend.send` of `msg` that returned `subsendResult`. -/
def sendResult (cfg : Config) (s : Forwarder) (msg : MsgPtr) (subsendResult : TinyError) :
    Forwarder :=
  match subsendResult with
  | .success => s.reportError 0xA7
  | .eoff => { s with radioOn := false }.reportError 0x32
  | .ebusy => { s with sendDataPosted := true }.reportError 0x33
  | .esize =>
    (s.setMsg msg { s.mem msg with length := cfg.subMaxPayloadLength }).reportError 0x34
  | _ => s

/-- Send the packet in `sendQe` to the next hop. -/
def transmit (cfg : Config) (s : Forwarder) (a : Answers) : Forwarder :=
  let q := s.sendQe
  let msg := (s.qe q).msg
  let payloadLen := (s.mem msg).length
  let s := s.setQe q { s.qe q with txCount := (s.qe q).txCount + 1 }
  let s := { s with localTXCount := s.localTXCount + 1 }
  let s := s.setMsg msg (s.fillHeader (s.qe q) (s.mem msg) a.now)
  let s := { s with notifyBurstyLinkNeighbor := cfg.tosNodeId }
  let r := s.subSend q s.nextHopAddress payloadLen a.subSend
  r.2.sendResult cfg msg r.1

/-- Send the packet in `sendQe`, or give up on its link. -/
def attempt (cfg : Config) (s : Forwarder) (a : Answers) : Forwarder :=
  if (s.qe s.sendQe).txCount ≥ maxRetxAttempts then s.giveUp cfg else s.transmit cfg a

/-- `RouterForwarderIF.setNextHopAddress`. -/
def setNextHopAddress (s : Forwarder) (hop : UInt16 × UInt16) : Forwarder :=
  { s with nextHopAddress := hop.1, nextHopBackpressure := hop.2 }

/-- Send the next packet to the next hop, a null packet if the stack is empty. -/
def sendNext (cfg : Config) (s : Forwarder) (a : Answers) : Forwarder :=
  if s.sendStack.empty then
    let r := s.pushNull cfg a.now
    if r.1 then (r.2.takeNext a.now).attempt cfg a else r.2
  else (s.takeNext a.now).attempt cfg a

/-- `sendDataTask`. -/
def sendDataTask (cfg : Config) (s : Forwarder) (a : Answers) : Forwarder :=
  if s.isRoot then s.sendDataRoot a.back
  else if s.sendQeOccupied then s.attempt cfg a
  else if s.sendStack.empty && s.virtualQueueSize == 0 then s.reportError 0x40
  else
    let s := s.record (.router (.updateRouting s.getBackpressure))
    match a.route with
    | none => s.retryLater
    | some hop => (s.setNextHopAddress hop).sendNext cfg a

/-! ### `Send.send` and `SubReceive.receive` -/

/-- `SendStack.pushTop` or, unless the build is LIFO, `SendStack.pushBottom`. -/
def insert (cfg : Config) (s : Forwarder) (q : QePtr) : TinyError × Forwarder :=
  if cfg.lifo then s.pushTop q else s.pushBottom q

/-- `Packet.maxPayloadLength` (`Send.maxPayloadLength`). -/
def maxPayloadLength (cfg : Config) : UInt8 := cfg.subMaxPayloadLength - dataHeaderSize.toUInt8

/-- A client's message with the header `Send.send` gives it. -/
def fillData (cfg : Config) (s : Forwarder) (m : Message) (len : UInt8) : Message :=
  { m with
    length := len + dataHeaderSize.toUInt8
    hdr := { m.hdr with
      hopCount := 0
      origin := cfg.tosNodeId
      originSeqNo := s.seqno
      bcpDelay := 0
      txCount := 0
      pktType := pktNormal }
    ident := ⟨cfg.tosNodeId, pktNormal, s.dataSerial, 0⟩ }

/-- `Send.send` once its message `m` is filled in. -/
def enqueue (cfg : Config) (s : Forwarder) (m : Message) (now : UInt32) : TinyError × Forwarder :=
  let s := s.conditionalFQDiscard cfg
  if s.messagePool.empty then (.ebusy, s.reportError 0x5d)
  else if s.qEntryPool.empty then (.ebusy, s.reportError 0x5f)
  else
    let r := s.getQEntry
    match r.1 with
    | none => (.fail, r.2.reportError 0x5b)
    | some q =>
      let r := r.2.getMessage
      match r.1 with
      | none => (.fail, (r.2.putQEntry q 0x5c).reportError 0x5d)
      | some newMsg =>
        let s := r.2.setMsg newMsg m
        let s := s.setQe q { source := 1, arrivalTime := now, msg := newMsg }
        let r := s.insert cfg q
        if r.1 = .success then (.success, r.2.forwarderActivity.record .sendDone)
        else
          let s := r.2.reportError 0x4a
          (.fail, ((s.putMessage newMsg 0x5c).putQEntry q 0x5d).reportError 0x4b)

/-- `Send.send` of a client's message `m`. -/
def send (cfg : Config) (s : Forwarder) (m : Message) (len : UInt8) (now : UInt32) :
    TinyError × Forwarder :=
  if !s.running then (.eoff, s)
  else if len > maxPayloadLength cfg then (.esize, s)
  else
    let m := s.fillData cfg m len
    { s with seqno := s.seqno + 1, dataSerial := s.dataSerial + 1 }.enqueue cfg m now

/-- `forward`: the buffer the radio gets for `m`. -/
def forward (cfg : Config) (s : Forwarder) (m : MsgPtr) (arrivalTime : UInt32) :
    MsgPtr × Forwarder :=
  let s := s.conditionalFQDiscard cfg
  if s.messagePool.empty then (m, s.reportError 0x70)
  else if s.qEntryPool.empty then (m, s.reportError 0x71)
  else
    let r := s.getQEntry
    match r.1 with
    | none => (m, r.2.reportError 0x72)
    | some q =>
      let r := r.2.getMessage
      match r.1 with
      | none => (m, (r.2.reportError 0x73).putQEntry q 0x74)
      | some newMsg =>
        let s := r.2.setMsg newMsg {}
        let s := s.setQe q
          { source := 2
            arrivalTime := arrivalTime
            bcpArrivalDelay := (s.mem m).hdr.bcpDelay
            msg := m }
        let r := s.insert cfg q
        if r.1 = .success then (newMsg, r.2.forwarderActivity)
        else (m, ((r.2.reportError 0x49).putMessage newMsg 0x75).putQEntry q 0x76)

/-- What `SubReceive.receive` finds an arrival to be. -/
inductive Verdict
  | oversized
  | corrupted
  | duplicate
  | fresh
deriving DecidableEq, Repr

/-- The checks of `SubReceive.receive`. -/
def verdict (cfg : Config) (s : Forwarder) (m : Message) : Verdict :=
  if m.length > cfg.subMaxPayloadLength then .oversized
  else if !m.checksumOk then .corrupted
  else
    match (latestForwardedTableFind s.latestForwardedTable m.src).bind
      (s.latestForwardedTable[·]?) with
    | none => .fresh
    | some e =>
      if e.origin = m.hdr.origin ∧ e.originSeqNo = m.hdr.originSeqNo ∧
        e.hopCount = m.hdr.hopCount then .duplicate
      else .fresh

/-- A new packet: note it, tell the routing engine, and count the hop. -/
def accept (s : Forwarder) (msg : MsgPtr) : Forwarder :=
  let m := s.mem msg
  let s := { s with dataCRCSuccessCount := s.dataCRCSuccessCount + 1 }
  let s := s.latestForwardedTableUpdate m.src m.hdr.origin m.hdr.originSeqNo m.hdr.hopCount
  let s := s.record (.router (.updateNeighborBackpressure m.src m.hdr.bcpBackpressure))
  let s := s.record (.processed m.src m.ident)
  s.setMsg msg { m with
    hdr := { m.hdr with hopCount := m.hdr.hopCount + 1 }
    ident := { m.ident with hops := m.ident.hops + 1 } }

/-- `SubReceive.receive`: the buffer the radio gets for `msg`. -/
def subReceive (cfg : Config) (s : Forwarder) (msg : MsgPtr) (a : Answers) : MsgPtr × Forwarder :=
  match s.verdict cfg (s.mem msg) with
  | .oversized => (msg, s.reportError 0x50)
  | .corrupted => (msg, { s with dataCRCFailCount := s.dataCRCFailCount + 1 })
  | .duplicate =>
    (msg, { s with dataCRCSuccessCount := s.dataCRCSuccessCount + 1 }.record
      (.duplicate (s.mem msg).src (s.mem msg).ident))
  | .fresh =>
    let s := s.accept msg
    if s.isRoot then s.signalReceive msg a.back else s.forward cfg msg a.now

/-! ### Snooping -/

/-- `SubSnoop.receive`: the buffer the radio gets for `msg`. -/
def subSnoop (cfg : Config) (s : Forwarder) (msg : MsgPtr) : MsgPtr × Forwarder :=
  if (s.mem msg).length > cfg.subMaxPayloadLength then (msg, s.reportError 0x36)
  else if s.snoopQueue.size = s.snoopQueue.maxSize then (msg, s)
  else if s.messagePool.empty then (msg, s)
  else
    let r := s.getMessage
    match r.1 with
    | none => (msg, r.2.reportError 0xdb)
    | some newMsg =>
      let s := r.2
      if (s.snoopQueue.enqueue msg).1 ≠ .success then
        let ret := (s.messagePool.put newMsg).1
        let s := { s with messagePool := (s.messagePool.put newMsg).2 }
        (msg, (s.record (.messagePut newMsg ret)).reportError 0x57)
      else
        (newMsg,
          { s with snoopQueue := (s.snoopQueue.enqueue msg).2, snoopHandlerPosted := true })

/-- `snoopHandlerTask`; `notify`: the routing engine signals `setNotifyBurstyLinkNeighbor`. -/
def snoopHandlerTask (s : Forwarder) (notify : Bool) : Forwarder :=
  if s.snoopQueue.empty then s
  else
    let msg := s.snoopQueue.first
    let m := s.mem msg
    let s := s.record (.router (.updateNeighborSnoop s.getBackpressure m.hdr.bcpBackpressure
      m.hdr.nhBackpressure m.hdr.nodeTxCount m.src m.hdr.burstNotifyAddr))
    let s := { s with
      notifyBurstyLinkNeighbor := if notify then m.src else s.notifyBurstyLinkNeighbor
      snoopQueue := s.snoopQueue.dequeue.2 }
    s.putMessage msg 0x59

/-! ### `SubSend.sendDone` and the timers -/

/-- `txTimeMS`: the time since the first transmission, cut to 16 bits. -/
def txTimeMS (now firstTxTime : UInt32) : UInt16 :=
  if now - firstTxTime > 0xFFFF then 0xFFFF else (now - firstTxTime).toUInt16

/-- The packet in `sendQe` was acknowledged. -/
def finish (s : Forwarder) (now : UInt32) : Forwarder :=
  let q := s.sendQe
  let e := s.qe q
  let dst := (s.mem e.msg).dst
  let s := s.record (.router (.updateLinkSuccess dst e.txCount))
  let s := s.record (.router (.updateLinkRate dst (txTimeMS now e.firstTxTime)))
  let s := (s.putMessage e.msg 0x37).putQEntry q 0x41
  s.clearSendQe.stopSending.forwarderActivity

/-- `SubSend.sendDone`. -/
def subSendDone (s : Forwarder) (msg : MsgPtr) (error : TinyError) (acked : Bool) (now : UInt32) :
    Forwarder :=
  if s.sendQe = .null ∨ (s.qe s.sendQe).msg ≠ msg then s.reportError 0x30
  else if error ≠ .success then { s with sendDataPosted := true }
  else if !acked then
    { s.record (.router (.txNoAck (s.mem msg).dst)) with sendDataPosted := true }
  else s.finish now

/-- `txRetryTimer.fired`. -/
def txRetryFired (s : Forwarder) : Forwarder :=
  if !s.sending then { s with sending := true, sendDataPosted := true } else s

/-- `BeaconTimer.fired`: a quick beacon of a new root is followed by periodic ones. -/
def beaconFired (s : Forwarder) : Forwarder :=
  let s := { s with
    beaconTimer := if s.beaconTimer.expire.isRunning then s.beaconTimer else .periodic beaconTime }
  if s.beaconSending then s else { s with beaconSending := true, sendBeaconPosted := true }

/-- `sendBeaconTask`; the link answers `r`, if no beacon is outstanding. -/
def sendBeaconTask (s : Forwarder) (r : TinyError) : Forwarder :=
  let ret := if s.beaconPending then .ebusy else r
  let s := s.record (.beaconSend s.getBackpressure ret)
  match ret with
  | .success => { s with beaconPending := true }
  | .eoff => { s with radioOn := false, sendBeaconPosted := true }
  | _ => { s with sendBeaconPosted := true }

/-- `BeaconReceive.receive`. -/
def beaconReceive (s : Forwarder) (src bcpBackpressure : UInt16) (len : UInt8) : Forwarder :=
  let s := s.reportError 0xA5
  if len ≠ 2 then s else s.record (.router (.updateNeighborBackpressure src bcpBackpressure))

/-- `RadioControl.startDone`. -/
def startDone (s : Forwarder) (error : TinyError) : Forwarder :=
  if error = .success then { s with radioOn := true }.forwarderActivity else s

/-- `RadioControl.stopDone`. -/
def stopDone (s : Forwarder) (error : TinyError) : Forwarder :=
  if error = .success then { s with radioOn := false } else s

end Forwarder

/-! ## The open system -/

/-- What can happen to a node. -/
inductive Event
  /-- `StdControl.start` and `StdControl.stop`. -/
  | start
  | stop
  /-- `RootControl.setRoot` and `RootControl.unsetRoot`. -/
  | setRoot
  | unsetRoot
  | startDone (error : TinyError)
  | stopDone (error : TinyError)
  /-- `Send.send` of the message `m`. -/
  | send (m : Message) (len : UInt8) (now : UInt32)
  /-- `SubReceive.receive` and `SubSnoop.receive` of `frame`, which arrived in the buffer `msg`. -/
  | receive (msg : MsgPtr) (frame : Message) (a : Answers)
  | snoop (msg : MsgPtr) (frame : Message)
  | sendDataTask (a : Answers)
  | snoopHandlerTask (notify : Bool)
  | sendBeaconTask (r : TinyError)
  | txRetryTimerFired
  | beaconTimerFired
  /-- The link is done with the message it accepted. -/
  | subSendDone (error : TinyError) (acked : Bool) (now : UInt32)
  | beaconSendDone
  | beaconReceive (src bcpBackpressure : UInt16) (len : UInt8)
deriving DecidableEq, Repr

namespace Forwarder

/-- A frame arrives in a buffer of the radio, which gets the buffer the handler `f` returns. -/
def arrive (s : Forwarder) (msg : MsgPtr) (frame : Message)
    (f : Forwarder → MsgPtr × Forwarder) : Option Forwarder :=
  if msg ∈ s.radio then
    let r := f ({ s with radio := s.radio.erase msg }.setMsg msg frame)
    some { r.2 with radio := r.1 :: r.2.radio }
  else none

/-- One event: `none` if it cannot occur (a task that is not posted, a timer that does not run, a
frame in a buffer that is not the radio's, a `sendDone` of nothing). -/
def step (cfg : Config) (s : Forwarder) : Event → Option Forwarder
  | .start => some { s with running := true, beaconTimer := .periodic beaconTime }
  | .stop => some { s with running := false, beaconTimer := .stopped }
  | .setRoot => some { s with isRoot := true }
  | .unsetRoot => some { s with isRoot := false }
  | .startDone error => some (s.startDone error)
  | .stopDone error => some (s.stopDone error)
  | .send m len now =>
    let r := s.send cfg m len now
    some (r.2.record (.send r.1))
  | .receive msg frame a => s.arrive msg frame (·.subReceive cfg msg a)
  | .snoop msg frame => s.arrive msg frame (·.subSnoop cfg msg)
  | .sendDataTask a =>
    if s.sendDataPosted then some ({ s with sendDataPosted := false }.sendDataTask cfg a) else none
  | .snoopHandlerTask notify =>
    if s.snoopHandlerPosted then some ({ s with snoopHandlerPosted := false }.snoopHandlerTask notify)
    else none
  | .sendBeaconTask r =>
    if s.sendBeaconPosted then some ({ s with sendBeaconPosted := false }.sendBeaconTask r)
    else none
  | .txRetryTimerFired =>
    if s.txRetryTimer.isRunning then
      some { s with txRetryTimer := s.txRetryTimer.expire }.txRetryFired
    else none
  | .beaconTimerFired => if s.beaconTimer.isRunning then some s.beaconFired else none
  | .subSendDone error acked now =>
    match s.pending with
    | some msg => some ({ s with pending := none }.subSendDone msg error acked now)
    | none => none
  | .beaconSendDone =>
    if s.beaconPending then some { s with beaconPending := false, beaconSending := false } else none
  | .beaconReceive src bcpBackpressure len => some (s.beaconReceive src bcpBackpressure len)

/-- A build for the examples. -/
def exampleConfig : Config where
  lifo := true
  virtq := true
  subMaxPayloadLength := 120
  tosNodeId := 1
  radio := [0]
  app := []
  nodup := by decide

/-- A node from `Init.init` on. -/
def machine (cfg : Config) : Machine Forwarder Event where
  init s := s = boot cfg
  step := step cfg

end Forwarder

end BCP
