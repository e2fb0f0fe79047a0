import Backip.Ctp.LruCtpMsgCacheP
import Backip.Lib.Machine
import Backip.System.PoolP
import Backip.System.QueueC
import Backip.System.Types

/-!
# The CTP forwarding engine (`tos/lib/net/ctp/CtpForwardingEngineP.nc`, `CtpP.nc`)

`Forwarder` is the state of `CtpForwardingEngineP` with the components `CtpP` wires to it: the pools,
the queue, the cache, the timer and the root flag of the routing engine, the memory behind the
pointers, the posted task, the message the link (`SubSend`) has accepted and not yet signalled done,
and the buffers that the radio and the applications hold. What other components answer is an argument
(`Answers`).

`calls` and the serial numbers of the packets that `Send.send` accepts are not in the code. `calls`
records, the last one first, what the module asks of other components and reports to them.
-/

set_option autoImplicit false

namespace Ctp

/-- `FORWARD_COUNT`. -/
abbrev forwardCount : Nat := 12

/-- `CACHE_SIZE`. -/
abbrev cacheSize : Nat := 4

/-- `MAX_RETRIES`. -/
def maxRetries : UInt8 := 30

/-- `NO_ROUTE_RETRY`. -/
def noRouteRetry : Nat := 10000

/-- Addresses of messages: `NULL`, `loopbackMsg`, a buffer of `MessagePool`, or a buffer of another
component. -/
inductive MsgPtr
  | null
  | loopback
  | pool (i : Nat)
  | other (n : Nat)
deriving DecidableEq, Repr

/-- Addresses of queue entries: `NULL`, an entry of `QEntryPool`, or one of `clientEntries`. -/
inductive QePtr
  | null
  | pool (i : Nat)
  | client (i : Nat)
deriving DecidableEq, Repr

/-- `fe_queue_entry_t`, and the serial number of a client's packet. -/
structure FeQueueEntry where
  msg : MsgPtr := .null
  client : UInt8 := 0
  retries : UInt8 := 0
  serial : Option Nat := none
deriving DecidableEq, Repr

structure Config where
  /-- `CLIENT_COUNT`. -/
  clientCount : Nat
  /-- The size of the queue is a `uint8_t`. -/
  clientCount_le : clientCount + forwardCount ≤ 255
  /-- `CollectionId.fetch`. -/
  collectionId : Nat → UInt8
  /-- `TOS_NODE_ID`. -/
  tosNodeId : UInt16
  /-- `SubPacket.maxPayloadLength` (`SubSend.maxPayloadLength`). -/
  maxPayloadLength : UInt8
  /-- `FORWARD_PACKET_TIME`. -/
  forwardPacketTime : UInt16
  /-- The buffers that the radio and the applications start with. -/
  radio : List Nat
  app : List Nat
  nodup : (radio ++ app).Nodup

inductive Call
  /-- `SendQueue.enqueue` returned `ret`. -/
  | enqueue (ret : TinyError)
  /-- `MessagePool.put` of the message of an entry of `client` returned `ret`. -/
  | messagePut (client : UInt8) (ret : TinyError)
  /-- `QEntryPool.put` returned `ret`. -/
  | qEntryPut (ret : TinyError)
  /-- `SubSend.send` of a message to `dst` returned `ret`. -/
  | subSend (serial : Option Nat) (dst : UInt16) (len : UInt8) (ret : TinyError)
  /-- `LinkEstimator.txNoAck`, `LinkEstimator.txAck`. -/
  | txNoAck (serial : Option Nat) (dst : UInt16)
  | txAck (serial : Option Nat) (dst : UInt16)
  /-- `CtpInfo.recomputeRoutes`, `CtpInfo.triggerImmediateRouteUpdate`,
  `CtpInfo.triggerRouteUpdate`. -/
  | recomputeRoutes
  | triggerImmediateRouteUpdate
  | triggerRouteUpdate
  /-- `signal Receive.receive` of a packet of this node, or of one that it received. -/
  | receive (serial : Option Nat) (m : Message)
  /-- `signal Send.sendDone[client] (msg, SUCCESS)`. -/
  | sendDone (client : UInt8) (serial : Option Nat)
deriving DecidableEq, Repr

structure Forwarder (cfg : Config) where
  -- the bits of `forwardingState`
  queueCongested : Bool
  routingOn : Bool
  radioOn : Bool
  ackPending : Bool
  sending : Bool
  -- the module's other variables
  seqno : UInt8
  clientPtrs : Nat → QePtr
  loopbackMsgPtr : MsgPtr
  -- the components wired to it
  messagePool : PoolP MsgPtr forwardCount
  qEntryPool : PoolP QePtr forwardCount
  sendQueue : QueueC QePtr (cfg.clientCount + forwardCount)
  sentCache : LruCtpMsgCacheP cacheSize
  retxmitTimer : TimerMilli
  isRoot : Bool
  -- memory
  mem : MsgPtr → Message
  qe : QePtr → FeQueueEntry
  sendPosted : Bool
  -- the link, and the buffers of others
  pending : Option MsgPtr
  radio : List MsgPtr
  app : List MsgPtr
  -- the records
  accepted : Nat
  calls : List Call

/-- What other components answer while a handler runs. -/
structure Answers where
  /-- `UnicastNameFreeRouting.hasRoute` and `nextHop`. -/
  hasRoute : Bool := true
  nextHop : UInt16 := 0
  /-- `CtpInfo.getEtx`: `none` if it fails. -/
  etx : Option UInt16 := some 0
  /-- Whether `PacketAcknowledgements.requestAck` succeeds. -/
  requestAck : Bool := true
  /-- `SubSend.send`. -/
  subSend : TinyError := .success
  /-- `Random.rand16`. -/
  rand16 : UInt16 := 0
  /-- `Intercept.forward`. -/
  intercept : Bool := true
  /-- The buffer that `Receive.receive` or `Snoop.receive` returns, if it is one the applications
  hold; else the same. -/
  back : MsgPtr := .null
deriving DecidableEq, Repr

namespace Forwarder

variable {cfg : Config}

/-- After `Init.init`. -/
def boot (cfg : Config) : Forwarder cfg where
  queueCongested := false
  routingOn := false
  radioOn := false
  ackPending := false
  sending := false
  seqno := 0
  clientPtrs := .client
  loopbackMsgPtr := .loopback
  messagePool := .init .pool (by decide)
  qEntryPool := .init .pool (by decide)
  sendQueue := .init (fun _ => .null) (Nat.add_pos_right _ (by decide))
  sentCache := {}
  retxmitTimer := .stopped
  isRoot := false
  mem _ := {}
  qe _ := {}
  sendPosted := false
  pending := none
  radio := cfg.radio.map .other
  app := cfg.app.map .other
  accepted := 0
  calls := []

def record (s : Forwarder cfg) (c : Call) : Forwarder cfg := { s with calls := c :: s.calls }

/-- Write a message. -/
def setMsg (s : Forwarder cfg) (msg : MsgPtr) (m : Message) : Forwarder cfg :=
  { s with mem := Function.update s.mem msg m }

/-- Write a queue entry. -/
def setQe (s : Forwarder cfg) (q : QePtr) (e : FeQueueEntry) : Forwarder cfg :=
  { s with qe := Function.update s.qe q e }

/-- `post sendTask ()`. -/
def postSend (s : Forwarder cfg) : Forwarder cfg := { s with sendPosted := true }

/-- The message of an entry. -/
def msgOf (s : Forwarder cfg) (q : QePtr) : MsgPtr := (s.qe q).msg

/-! ## Calls into the wired components -/

/-- `SendQueue.enqueue`. -/
def enqueue (s : Forwarder cfg) (q : QePtr) : TinyError × Forwarder cfg :=
  let r := s.sendQueue.enqueue q
  (r.1, { s with sendQueue := r.2 }.record (.enqueue r.1))

/-- `SendQueue.dequeue`. -/
def dequeue (s : Forwarder cfg) : Forwarder cfg := { s with sendQueue := s.sendQueue.dequeue.2 }

/-- `MessagePool.put`, for an entry of `client`. -/
def putMessage (s : Forwarder cfg) (client : UInt8) (msg : MsgPtr) : Forwarder cfg :=
  let r := s.messagePool.put msg
  { s with messagePool := r.2 }.record (.messagePut client r.1)

/-- `QEntryPool.put`. -/
def putQEntry (s : Forwarder cfg) (q : QePtr) : Forwarder cfg :=
  let r := s.qEntryPool.put q
  { s with qEntryPool := r.2 }.record (.qEntryPut r.1)

/-- `startRetxmitTimer`. -/
def startRetxmitTimer (rand16 window offset : UInt16) (s : Forwarder cfg) : Forwarder cfg :=
  { s with retxmitTimer := .oneShot (rand16 % window + offset).toNat }

/-- Another component gets `msg`, and returns one of the applications' buffers, or the same. -/
def swap (s : Forwarder cfg) (msg back : MsgPtr) : MsgPtr × Forwarder cfg :=
  if back ∈ s.app then (back, { s with app := msg :: s.app.erase back }) else (msg, s)

/-- `SubSend.send`: the link accepts one message at a time. -/
def subSend (s : Forwarder cfg) (q : QePtr) (dst : UInt16) (r : TinyError) :
    TinyError × Forwarder cfg :=
  let msg := s.msgOf q
  let len := (s.mem msg).length
  let s := s.setMsg msg { s.mem msg with dst := dst }
  let ret := if s.pending.isSome ∧ r = .success then .ebusy else r
  let s := s.record (.subSend (s.qe q).serial dst len ret)
  (ret, { s with pending := if ret = .success then some msg else s.pending })

/-! ## The module's functions -/

/-- `Packet.maxPayloadLength` (`Send.maxPayloadLength`). -/
def maxPayloadLength (cfg : Config) : UInt8 := cfg.maxPayloadLength - dataHeaderSize

/-- `RadioControl.startDone`. -/
def startDone (s : Forwarder cfg) (error : TinyError) : Forwarder cfg :=
  if error = .success then
    let s := { s with radioOn := true }
    if !s.sendQueue.empty then s.postSend else s
  else s

/-- `RadioControl.stopDone`. -/
def stopDone (s : Forwarder cfg) (error : TinyError) : Forwarder cfg :=
  if error = .success then { s with radioOn := false } else s

/-- The header that `Send.send` gives a client's message. -/
def fillHeader (s : Forwarder cfg) (client : Nat) (msg : MsgPtr) (len : UInt8) : Forwarder cfg :=
  { s.setMsg msg { s.mem msg with
      length := len + dataHeaderSize
      origin := cfg.tosNodeId
      originSeqNo := s.seqno
      type := cfg.collectionId client
      thl := 0 } with
    seqno := s.seqno + 1 }

/-- The queue entry of a client's packet. -/
def fillEntry (s : Forwarder cfg) (client : Nat) (q : QePtr) (msg : MsgPtr) : Forwarder cfg :=
  s.setQe q
    { msg := msg, client := client.toUInt8, retries := maxRetries, serial := some s.accepted }

/-- A client's packet is in the queue. -/
def occupy (s : Forwarder cfg) (client : Nat) : Forwarder cfg :=
  { s with
    sendPosted := s.sendPosted || (s.radioOn && !s.sending)
    clientPtrs := Function.update s.clientPtrs client .null
    accepted := s.accepted + 1 }

/-- `Send.send`. -/
def send (s : Forwarder cfg) (client : Nat) (msg : MsgPtr) (len : UInt8) :
    TinyError × Forwarder cfg :=
  if !s.routingOn then (.eoff, s)
  else if len > maxPayloadLength cfg then (.esize, s)
  else
    let s := s.fillHeader client msg len
    let q := s.clientPtrs client
    if q = .null then (.ebusy, s)
    else
      let r := (s.fillEntry client q msg).enqueue q
      if r.1 = .success then (.success, r.2.occupy client) else (.fail, r.2)

/-- `packetComplete`. -/
def packetComplete (s : Forwarder cfg) (q : QePtr) (msg : MsgPtr) (success : Bool) :
    Forwarder cfg :=
  let e := s.qe q
  if e.client.toNat < cfg.clientCount then
    { s with
      clientPtrs := Function.update s.clientPtrs e.client.toNat q
      app := msg :: s.app }.record (.sendDone e.client e.serial)
  else
    let s := if success then { s with sentCache := s.sentCache.insert (s.mem e.msg) } else s
    (s.putMessage e.client e.msg).putQEntry q

/-- The packet at the head of the queue is sent or given up. -/
def retire (s : Forwarder cfg) (rand16 : UInt16) : Forwarder cfg :=
  startRetxmitTimer rand16 cfg.forwardPacketTime cfg.forwardPacketTime
    { s.dequeue with sending := false }

/-- `SubSend.sendDone`. -/
def subSendDone (s : Forwarder cfg) (msg : MsgPtr) (error : TinyError) (rand16 : UInt16) :
    Forwarder cfg :=
  let q := s.sendQueue.first
  if error ≠ .success then
    s.startRetxmitTimer rand16 (cfg.forwardPacketTime <<< 2) (cfg.forwardPacketTime <<< 2)
  else if s.ackPending && !(s.mem msg).acked then
    let s := (s.record (.txNoAck (s.qe q).serial (s.mem msg).dst)).record .recomputeRoutes
    let s := s.setQe q { s.qe q with retries := (s.qe q).retries - 1 }
    if (s.qe q).retries ≠ 0 then
      s.startRetxmitTimer rand16 cfg.forwardPacketTime cfg.forwardPacketTime
    else (s.retire rand16).packetComplete q msg false
  else
    let s := s.retire rand16
    (s.record (.txAck (s.qe q).serial (s.mem msg).dst)).packetComplete q msg true

/-! ### `sendTask` -/

/-- There is no route. -/
def retryLater (s : Forwarder cfg) : Forwarder cfg := { s with retxmitTimer := .oneShot noRouteRetry }

/-- The head of the queue is in the cache of packets that were sent. -/
def suppress (s : Forwarder cfg) (q : QePtr) : Forwarder cfg :=
  ((s.dequeue.putMessage (s.qe q).client (s.msgOf q)).putQEntry q).postSend

/-- The code path for roots: copy the packet and signal receive. -/
def loopback (s : Forwarder cfg) (q : QePtr) (a : Answers) : Forwarder cfg :=
  let m := s.mem (s.msgOf q)
  let s := s.setMsg s.loopbackMsgPtr m
  let r := (s.record (.receive (s.qe q).serial m)).swap s.loopbackMsgPtr a.back
  let s := { r.2 with loopbackMsgPtr := r.1 }
  s.subSendDone (s.msgOf q) .success a.rand16

/-- The header of a packet that is sent: the metric and the options of this node. -/
def advertise (s : Forwarder cfg) (gradient : UInt16) (m : Message) : Message :=
  let options := m.options &&& ~~~(ctpOptEcn ||| ctpOptPull)
  { m with
    etx := gradient
    options := if s.queueCongested then options ||| ctpOptEcn else options }

/-- The basic forwarding and sending case. -/
def transmit (s : Forwarder cfg) (q : QePtr) (gradient : UInt16) (a : Answers) : Forwarder cfg :=
  let msg := s.msgOf q
  let s := { s.setMsg msg (s.advertise gradient (s.mem msg)) with
    ackPending := s.ackPending || a.requestAck, queueCongested := false }
  let r := s.subSend q a.nextHop a.subSend
  let s := r.2
  match r.1 with
  | .success => { s with sending := true }
  -- the packet is too big: truncate it and retry
  | .esize =>
    (s.setMsg msg
      { s.mem msg with length := maxPayloadLength cfg + dataHeaderSize }).postSend
  | _ => s

/-- `sendTask`. -/
def sendTask (s : Forwarder cfg) (a : Answers) : Forwarder cfg :=
  if s.sending || s.sendQueue.empty then s
  else
    match a.etx with
    | none => s.retryLater
    | some gradient =>
      if !s.isRoot && !a.hasRoute then s.retryLater
      else
        let q := s.sendQueue.first
        if s.sentCache.lookup (s.mem (s.msgOf q)) then s.suppress q
        else if s.isRoot then s.loopback q a
        else s.transmit q gradient a

/-! ### `SubReceive.receive` -/

/-- The message `m` in entry `q`, with `newMsg` cleared for the radio. -/
def fillForward (s : Forwarder cfg) (q : QePtr) (m newMsg : MsgPtr) : Forwarder cfg :=
  let s := s.setMsg newMsg {}
  let s := s.setMsg m { s.mem m with acked := false }
  s.setQe q { msg := m, client := 0xff, retries := maxRetries }

/-- The loop detection, and what follows it. -/
def detectLoop (s : Forwarder cfg) (m : MsgPtr) (a : Answers) : Forwarder cfg :=
  let s :=
    if a.etx.any fun gradient => (s.mem m).etx ≤ gradient then
      (s.record .triggerImmediateRouteUpdate).startRetxmitTimer a.rand16
        (cfg.forwardPacketTime <<< 2) (cfg.forwardPacketTime <<< 2)
    else s
  if !s.retxmitTimer.isRunning then s.postSend else s

/-- `forward`: the buffer that the radio gets for `m`. -/
def forward (s : Forwarder cfg) (m : MsgPtr) (a : Answers) : MsgPtr × Forwarder cfg :=
  if s.messagePool.empty || s.qEntryPool.empty then (m, s)
  else
    let r := s.qEntryPool.get
    let s := { s with qEntryPool := r.2 }
    match r.1 with
    | none => (m, s)
    | some q =>
      let r := s.messagePool.get
      let s := { s with messagePool := r.2 }
      match r.1 with
      | none => (m, s)
      | some newMsg =>
        let r := (s.fillForward q m newMsg).enqueue q
        if r.1 = .success then (newMsg, r.2.detectLoop m a)
        else (m, (r.2.putMessage 0xff newMsg).putQEntry q)

/-- The packet has lived another hop. -/
def countHop (s : Forwarder cfg) (msg : MsgPtr) : Forwarder cfg :=
  s.setMsg msg { s.mem msg with thl := (s.mem msg).thl + 1 }

/-- `SubReceive.receive`: the buffer that the radio gets for `msg`. -/
def subReceive (s : Forwarder cfg) (msg : MsgPtr) (a : Answers) : MsgPtr × Forwarder cfg :=
  let s := s.countHop msg
  if (s.mem msg).length > cfg.maxPayloadLength then (msg, s)
  else if s.sentCache.lookup (s.mem msg) then (msg, s)
  else if s.sendQueue.toList.any fun q => (s.mem (s.msgOf q)).matchInstance (s.mem msg) then (msg, s)
  else if s.isRoot then (s.record (.receive none (s.mem msg))).swap msg a.back
  else if !a.intercept then (msg, s)
  else s.forward msg a

/-- `SubSnoop.receive`. -/
def subSnoop (s : Forwarder cfg) (msg : MsgPtr) (a : Answers) : MsgPtr × Forwarder cfg :=
  let s := if (s.mem msg).options &&& ctpOptPull = ctpOptPull then s.record .triggerRouteUpdate else s
  s.swap msg a.back

end Forwarder

/-! ## Runs -/

inductive Event
  /-- `StdControl.start`, `StdControl.stop`. -/
  | start
  | stop
  | startDone (error : TinyError)
  | stopDone (error : TinyError)
  | routeFound
  /-- `RootControl.setRoot`, `RootControl.unsetRoot`. -/
  | setRoot
  | unsetRoot
  | send (client : Nat) (msg : MsgPtr) (len : UInt8)
  | sendTask (a : Answers)
  | retxmitTimerFired
  /-- The link is done with the message it accepted. -/
  | subSendDone (error : TinyError) (acked : Bool) (rand16 : UInt16)
  /-- `SubReceive.receive` and `SubSnoop.receive` of `frame`, which arrived in the buffer `msg`. -/
  | receive (msg : MsgPtr) (frame : Message) (a : Answers)
  | snoop (msg : MsgPtr) (frame : Message) (a : Answers)
deriving DecidableEq, Repr

namespace Forwarder

variable {cfg : Config}

/-- `Send.send` by a client: the message is one of the applications', or, of a busy client, the one it
is waiting for. -/
def clientSend (s : Forwarder cfg) (client : Nat) (msg : MsgPtr) (len : UInt8) :
    Option (Forwarder cfg) :=
  if client < cfg.clientCount ∧
      (msg ∈ s.app ∨ s.clientPtrs client = .null ∧ msg = s.msgOf (.client client)) then
    let r := s.send client msg len
    some (if r.1 = .success then { r.2 with app := r.2.app.erase msg } else r.2)
  else none

/-- A frame arrives in a buffer of the radio, which gets the buffer that the handler returns. -/
def arrive (s : Forwarder cfg) (msg : MsgPtr) (frame : Message)
    (f : Forwarder cfg → MsgPtr × Forwarder cfg) : Option (Forwarder cfg) :=
  if msg ∈ s.radio then
    let r := f ({ s with radio := s.radio.erase msg }.setMsg msg frame)
    some { r.2 with radio := r.1 :: r.2.radio }
  else none

/-- One event: `none` if it cannot occur. -/
def step (s : Forwarder cfg) : Event → Option (Forwarder cfg)
  | .start => some { s with routingOn := true }
  | .stop => some { s with routingOn := false }
  | .startDone error => some (s.startDone error)
  | .stopDone error => some (s.stopDone error)
  | .routeFound => some s.postSend
  | .setRoot => some { s with isRoot := true }
  | .unsetRoot => some { s with isRoot := false }
  | .send client msg len => s.clientSend client msg len
  | .sendTask a => if s.sendPosted then some ({ s with sendPosted := false }.sendTask a) else none
  | .retxmitTimerFired =>
    if s.retxmitTimer.isRunning then
      some { s with retxmitTimer := s.retxmitTimer.expire, sending := false, sendPosted := true }
    else none
  | .subSendDone error acked rand16 =>
    match s.pending with
    | some msg =>
      some (({ s with pending := none }.setMsg msg { s.mem msg with acked := acked }).subSendDone msg
        error rand16)
    | none => none
  | .receive msg frame a => s.arrive msg frame (·.subReceive msg a)
  | .snoop msg frame a => s.arrive msg frame (·.subSnoop msg a)

/-- A node with one client, for the examples. -/
def exampleConfig : Config where
  clientCount := 1
  clientCount_le := by decide
  collectionId _ := 7
  tosNodeId := 1
  maxPayloadLength := 28
  forwardPacketTime := 7
  radio := [0]
  app := [1]
  nodup := by decide

/-- The engine from `Init.init` on. -/
def machine (cfg : Config) : Machine (Forwarder cfg) Event where
  init s := s = boot cfg
  step := step

end Forwarder

end Ctp
