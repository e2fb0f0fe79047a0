import Backip.Lib.Machine
import Backip.Lib.Stamped
import Mathlib.Logic.Function.Basic

/-!
# Drip: dissemination of small values

`DisseminatorP` keeps the value of one key with its sequence number, `DisseminationEngineImplP` is
the engine all the keys of a node share: it builds its messages in the one buffer `m_buf`. A
network is any number of nodes. While the link of a node holds `m_buf` it may put what the buffer
then contains on the air, and what was once on the air may arrive anywhere, any number of times, in
any order or never. When the Trickle timers fire is left open, and so is the answer of each
`AMSend.send`.
-/

set_option autoImplicit false

namespace Drip

/-- `DISSEMINATION_SEQNO_UNKNOWN` -/
def seqnoUnknown : UInt32 := 0

/-- `sizeof(dissemination_message_t)`: the key and the sequence number -/
def headerSize : Nat := 6

/-- What the nodes' builds share. -/
structure Types where
  /-- `sizeof(t)` of the value type of a key -/
  sizeofT : UInt16 → Nat
  /-- `AMSend.maxPayloadLength()` -/
  maxPayloadLength : UInt8

/-- The value type of the key and the header fit in a message. -/
def Types.Fits (y : Types) (key : UInt16) : Prop :=
  y.sizeofT key + headerSize ≤ y.maxPayloadLength.toNat

instance (y : Types) (key : UInt16) : Decidable (y.Fits key) := inferInstanceAs (Decidable (_ ≤ _))

structure Config extends Types where
  tosNodeId : UInt16
  /-- The keys that have a `DisseminatorC`. -/
  wired : UInt16 → Bool

/-- `memcpy` of `n` bytes -/
def memcpy (dst src : List UInt8) (n : Nat) : List UInt8 := src.take n ++ dst.drop n

/-! ## `DisseminatorP` -/

structure Disseminator where
  valueCache : List UInt8
  running : Bool
  seqno : UInt32
  deriving DecidableEq

namespace Disseminator

def boot (sizeofT : Nat) : Disseminator := ⟨List.replicate sizeofT 0, false, seqnoUnknown⟩

/-- `StdControl.start`, given what `DisseminationCache.start` returns -/
def start (s : Disseminator) (ok : Bool) : Disseminator := { s with running := s.running || ok }

def stop (s : Disseminator) : Disseminator := { s with running := false }

/-- `DisseminationValue.set` -/
def set (s : Disseminator) (val : List UInt8) : Disseminator :=
  if s.seqno = seqnoUnknown then { s with valueCache := val } else s

/-- The sequence number of the next change: the counter in the upper half, the node in the lower. -/
def nextSeqno (seqno : UInt32) (tosNodeId : UInt16) : UInt32 :=
  let counter := (seqno >>> 16) + 1
  let counter := if counter = seqnoUnknown then counter + 1 else counter
  (counter <<< 16) + tosNodeId.toUInt32

/-- `DisseminationUpdate.change`, while running, up to the signal `newData` -/
def change (s : Disseminator) (sizeofT : Nat) (tosNodeId : UInt16) (newVal : List UInt8) :
    Disseminator :=
  { s with
    valueCache := memcpy s.valueCache newVal sizeofT
    seqno := nextSeqno s.seqno tosNodeId }

/-- `DisseminationCache.storeData` -/
def storeData (s : Disseminator) (sizeofT : Nat) (data : List UInt8) (size : Nat)
    (newSeqno : UInt32) : Disseminator :=
  { s with
    valueCache := memcpy s.valueCache data (if size < sizeofT then size else sizeofT)
    seqno := newSeqno }

end Disseminator

/-! ## `DisseminationEngineImplP` -/

/-- The `dissemination_message_t` in `m_buf`. -/
structure Message where
  key : UInt16
  seqno : UInt32
  data : List UInt8
  deriving DecidableEq

/-- A message on the air: the bytes that were sent. -/
structure Frame where
  key : UInt16
  seqno : UInt32
  data : List UInt8
  deriving DecidableEq

structure Node where
  disseminators : UInt16 → Disseminator
  buf : Message
  running : Bool
  bufBusy : Bool
  /-- The length under which the link holds `m_buf`. -/
  sending : Option Nat

namespace Node

def boot (cfg : Config) : Node where
  disseminators key := .boot (cfg.sizeofT key)
  buf := ⟨0, 0, []⟩
  running := false
  bufBusy := false
  sending := none

/-- The disseminator of `key` becomes `s`. -/
def setDisseminator (n : Node) (key : UInt16) (s : Disseminator) : Node :=
  { n with disseminators := Function.update n.disseminators key s }

/-- `StdControl.start`; `ok` is what `TrickleTimer.start` answers for each key. -/
def start (cfg : Config) (n : Node) (ok : UInt16 → Bool) : Node :=
  { n with
    disseminators := fun key =>
      if cfg.wired key then (n.disseminators key).start (ok key) else n.disseminators key
    running := true }

/-- `StdControl.stop` -/
def stop (cfg : Config) (n : Node) : Node :=
  { n with
    disseminators := fun key =>
      if cfg.wired key then (n.disseminators key).stop else n.disseminators key
    running := false }

/-- `DisseminationCache.requestSeqno[key]()`, with its default -/
def requestSeqno (cfg : Config) (n : Node) (key : UInt16) : UInt32 :=
  if cfg.wired key then (n.disseminators key).seqno else seqnoUnknown

/-- `DisseminationCache.requestData[key](&size)`, with its default: no object, the size as it was -/
def requestData (cfg : Config) (n : Node) (key : UInt16) : List UInt8 × Nat :=
  if cfg.wired key then ((n.disseminators key).valueCache, cfg.sizeofT key % 256) else ([], 0)

/-- `DisseminationCache.storeData[key](..)`, with its default -/
def storeData (cfg : Config) (n : Node) (key : UInt16) (data : List UInt8) (size : Nat)
    (seqno : UInt32) : Node :=
  if cfg.wired key then
    n.setDisseminator key ((n.disseminators key).storeData (cfg.sizeofT key) data size seqno)
  else n

/-- The size of the object `sendObject` copies. -/
def objectSize (cfg : Config) (size : Nat) : Nat :=
  if size + headerSize > cfg.maxPayloadLength.toNat then cfg.maxPayloadLength.toNat - headerSize
  else size

/-- `sendObject`; `accept` says whether `AMSend.send` takes the message. A refused message leaves
`m_bufBusy` set. -/
def sendObject (cfg : Config) (n : Node) (key : UInt16) (accept : Bool) : Node :=
  if !n.running || n.bufBusy then n
  else if headerSize ≤ cfg.maxPayloadLength.toNat then
    let seqno := n.requestSeqno cfg key
    if seqno ≠ seqnoUnknown then
      let (object, size) := n.requestData cfg key
      let size := objectSize cfg size
      { n with
        bufBusy := true
        buf := ⟨key, seqno, memcpy n.buf.data object size⟩
        sending := if accept then some (headerSize + size) else n.sending }
    else
      { n with
        bufBusy := true
        buf := ⟨key, seqno, n.buf.data⟩
        sending := if accept then some headerSize else n.sending }
  else n

/-- `DisseminationValue.set` of the client of `key` -/
def set (n : Node) (key : UInt16) (val : List UInt8) : Node :=
  n.setDisseminator key ((n.disseminators key).set val)

/-- `DisseminationUpdate.change` of the client of `key`, and `newData` -/
def change (cfg : Config) (n : Node) (key : UInt16) (newVal : List UInt8) (accept : Bool) : Node :=
  let s := n.disseminators key
  if !s.running then n
  else
    sendObject cfg
      (n.setDisseminator key (s.change (cfg.sizeofT key) cfg.tosNodeId newVal)) key accept

/-- `AMSend.sendDone` -/
def sendDone (n : Node) : Node := { n with bufBusy := false, sending := none }

/-- `Receive.receive` -/
def receive (cfg : Config) (n : Node) (f : Frame) (accept : Bool) : Node :=
  let incomingSeqno := f.seqno
  let currentSeqno := n.requestSeqno cfg f.key
  if !n.running then n
  else if currentSeqno = seqnoUnknown ∧ incomingSeqno ≠ seqnoUnknown then
    n.storeData cfg f.key f.data f.data.length incomingSeqno
  else if incomingSeqno = seqnoUnknown ∧ currentSeqno ≠ seqnoUnknown then n
  else if (incomingSeqno - currentSeqno).toInt32 > 0 then
    n.storeData cfg f.key f.data f.data.length incomingSeqno
  else if (incomingSeqno - currentSeqno).toInt32 = 0 then n
  else n.sendObject cfg f.key accept

/-- `ProbeReceive.receive` -/
def probeReceive (cfg : Config) (n : Node) (key : UInt16) (accept : Bool) : Node :=
  if !n.running then n
  else if n.requestSeqno cfg key ≠ seqnoUnknown then n.sendObject cfg key accept
  else n

/-- What the link puts on the air while it holds `m_buf` under the length `len`. -/
def frame (n : Node) (len : Nat) : Frame :=
  ⟨n.buf.key, n.buf.seqno, n.buf.data.take (len - headerSize)⟩

end Node

/-! ## The network -/

/-- The nodes `ι` of a network; no two have one `TOS_NODE_ID`. -/
structure Deployment (ι : Type) extends Types where
  tosNodeId : ι → UInt16
  distinct : Function.Injective tosNodeId
  wired : ι → UInt16 → Bool

/-- The build of node `a`. -/
def Deployment.cfg {ι : Type} (d : Deployment ι) (a : ι) : Config :=
  { d.toTypes with tosNodeId := d.tosNodeId a, wired := d.wired a }

structure Network (ι : Type) where
  nodes : ι → Node
  /-- What was sent so far, the last one first. -/
  air : List Frame

namespace Network

inductive Event (ι : Type)
  | start (a : ι) (ok : UInt16 → Bool)
  | stop (a : ι)
  | set (a : ι) (key : UInt16) (val : List UInt8)
  | change (a : ι) (key : UInt16) (newVal : List UInt8) (accept : Bool)
  | fired (a : ι) (key : UInt16) (accept : Bool)
  | sendDone (a : ι)
  /-- The link of `a` transmits. -/
  | transmit (a : ι)
  /-- The message `air[i]` arrives at `b`. -/
  | receive (b : ι) (i : Nat) (accept : Bool)
  | probe (b : ι) (key : UInt16) (accept : Bool)

variable {ι : Type} [DecidableEq ι]

/-- Node `a` becomes `n'`. -/
def setNode (n : Network ι) (a : ι) (n' : Node) : Network ι :=
  { n with nodes := Function.update n.nodes a n' }

def step (d : Deployment ι) (n : Network ι) : Event ι → Option (Network ι)
  | .start a ok => some (n.setNode a ((n.nodes a).start (d.cfg a) ok))
  | .stop a => some (n.setNode a ((n.nodes a).stop (d.cfg a)))
  | .set a key val =>
    if d.wired a key ∧ val.length = d.sizeofT key then
      some (n.setNode a ((n.nodes a).set key val))
    else none
  | .change a key newVal accept =>
    if d.wired a key ∧ newVal.length = d.sizeofT key then
      some (n.setNode a ((n.nodes a).change (d.cfg a) key newVal accept))
    else none
  | .fired a key accept => some (n.setNode a ((n.nodes a).sendObject (d.cfg a) key accept))
  | .sendDone a =>
    if (n.nodes a).sending.isSome then some (n.setNode a (n.nodes a).sendDone) else none
  | .transmit a =>
    (n.nodes a).sending.map fun len => { n with air := (n.nodes a).frame len :: n.air }
  | .receive b i accept =>
    n.air[i]?.map fun f => n.setNode b ((n.nodes b).receive (d.cfg b) f accept)
  | .probe b key accept => some (n.setNode b ((n.nodes b).probeReceive (d.cfg b) key accept))

def machine (d : Deployment ι) : Machine (Network ι) (Event ι) where
  init n := n = ⟨fun a => .boot (d.cfg a), []⟩
  step := step d

/-- The sequence number of `key` at node `a`. -/
def seqno (n : Network ι) (a : ι) (key : UInt16) : UInt32 := ((n.nodes a).disseminators key).seqno

/-- The value of `key` at node `a`. -/
def value (n : Network ι) (a : ι) (key : UInt16) : List UInt8 :=
  ((n.nodes a).disseminators key).valueCache

/-- The number and the value a step supplies for `key`, when it is a change. -/
def supplied (d : Deployment ι) (key : UInt16) (n : Network ι) : Event ι →
    Option (UInt32 × List UInt8)
  | .change a k newVal _ =>
    if k = key ∧ ((n.nodes a).disseminators key).running then
      some (Disseminator.nextSeqno (n.seqno a key) (d.tosNodeId a), newVal)
    else none
  | _ => none

/-- The changes of `key` made in a history, the last one first. -/
def changes (d : Deployment ι) (key : UInt16) (h : List (Network ι × Event ι)) :
    List (UInt32 × List UInt8) :=
  h.filterMap fun p => supplied d key p.1 p.2

/-- Node `a` handles a message about `key` under the number `seqno`. -/
def Processes (n : Network ι) (a : ι) (key : UInt16) (seqno : UInt32) : Event ι → Prop
  | .receive b i _ =>
    b = a ∧ (n.nodes a).running ∧ ∃ f, n.air[i]? = some f ∧ f.key = key ∧ f.seqno = seqno
  | _ => False

end Network

end Drip
