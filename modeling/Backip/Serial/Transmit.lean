import Backip.Lib.Machine
import Backip.Serial.Receive

/-!
# The send path of the mote (`tos/lib/serial/SerialP.nc`, `tos/lib/serial/HdlcTranslateC.nc`)

From `SplitControl.startDone` on, without `SplitControl.stop`. The upper layer gives the first byte of
a packet with `startSend` and the others with `nextByte`, and calls `completeSend` when it is asked
for one byte more. The UART takes every byte it is given, and signals `sendDone` for it later.
-/

set_option autoImplicit false

namespace Serial

/-- `ACK_QUEUE_SIZE`. -/
abbrev ackQueueSize : Nat := 5

inductive TxState
  | idle
  | proto
  | seqno
  | info
  | fcs1
  | fcs2
  | endFlag
  | endWait
  | finish
  | error
  | inactive
deriving DecidableEq, Repr

/-- `tx_data_buffer_states_t`. -/
inductive TxBufState
  | available
  | filling
  | complete
deriving DecidableEq, Repr

/-- `tx_buf_t`. -/
structure TxBuf where
  state : TxBufState
  buf : UInt8

/-- `TX_ACK_INDEX` and `TX_DATA_INDEX`. -/
inductive TxIndex
  | ack
  | data
deriving DecidableEq, Repr

/-! ## The ack queue -/

/-- `ack_queue_t`. -/
structure AckQueue where
  writePtr : Nat
  readPtr : Nat
  buf : Nat → UInt8

namespace AckQueue

variable (q : AckQueue)

def next (ptr : Nat) : Nat := if ptr + 1 > ackQueueSize then 0 else ptr + 1

/-- `ack_queue_is_full`. -/
def isFull : Bool := next q.writePtr = q.readPtr

/-- `ack_queue_is_empty`. -/
def isEmpty : Bool := q.writePtr = q.readPtr

/-- `ack_queue_push`, without the scheduling of the task. -/
def push (token : UInt8) : AckQueue :=
  { q with buf := Function.update q.buf q.writePtr token, writePtr := next q.writePtr }

/-- `ack_queue_top`. -/
def top : UInt8 := if q.isEmpty then 0 else q.buf q.readPtr

/-- `ack_queue_pop`, without the token. -/
def pop : AckQueue := if q.writePtr ≠ q.readPtr then { q with readPtr := next q.readPtr } else q

end AckQueue

/-! ## The sender -/

structure Sender where
  txState : TxState
  txByteCnt : Nat
  txProto : UInt8
  txSeqno : UInt8
  txCRC : UInt16
  /-- `RunTx` is posted. -/
  txPending : Bool
  txIndex : TxIndex
  /-- `txBuf[TX_ACK_INDEX]`. -/
  ackBuf : TxBuf
  /-- `txBuf[TX_DATA_INDEX]`. -/
  dataBuf : TxBuf
  ackQ : AckQueue
  sendEscape : Bool
  txTemp : UInt8
  /-- The packet of the upper layer, and its bytes behind those it was asked for. -/
  packet : List UInt8
  rest : List UInt8
  /-- The UART is sending a byte, the last one of `wire`. -/
  sending : Bool
  wire : List UInt8
  /-- The acks and packets that were transmitted, each with its protocol. -/
  sent : List (UInt8 × List UInt8)

namespace Sender

/-- `Init.init`, and `startDoneTask`. -/
def start : Sender where
  txState := .idle
  txByteCnt := 0
  txProto := 0
  txSeqno := 0
  txCRC := 0
  txPending := false
  txIndex := .ack
  ackBuf := ⟨.available, 0⟩
  dataBuf := ⟨.available, 0⟩
  ackQ := { writePtr := 0, readPtr := 0, buf := fun _ => 0 }
  sendEscape := false
  txTemp := 0
  packet := []
  rest := []
  sending := false
  wire := []
  sent := []

variable (s : Sender)

/-- `UartStream.send`, of one byte. -/
def uartSend (b : UInt8) : Sender := { s with wire := s.wire ++ [b], sending := true }

/-- `SerialFrameComm.putDelimiter`. -/
def putDelimiter : Sender := { s with sendEscape := false }.uartSend flagByte

/-- `SerialFrameComm.putData`. -/
def putData (b : UInt8) : Sender :=
  if b = ctlescByte ∨ b = flagByte then
    { s with sendEscape := true, txTemp := b ^^^ 0x20 }.uartSend ctlescByte
  else s.uartSend b

/-- `MaybeScheduleTx`. -/
def maybeScheduleTx : Sender := { s with txPending := true }

/-- `ack_queue_push`. -/
def ackQueuePush (token : UInt8) : Sender :=
  if s.ackQ.isFull then s else { s with ackQ := s.ackQ.push token }.maybeScheduleTx

/-- `SendBytePacket.startSend`; the upper layer has the bytes `rest` behind `b`. -/
def startSend (b : UInt8) (rest : List UInt8) : Sender :=
  if s.dataBuf.state = .available then
    { s with dataBuf := ⟨.filling, b⟩, packet := b :: rest, rest := rest }.maybeScheduleTx
  else s

/-- `SendBytePacket.completeSend`. -/
def completeSend : Sender := { s with dataBuf := { s.dataBuf with state := .complete } }

/-- `SendBytePacket.nextByte`, of the upper layer. -/
def nextByte : UInt8 × Sender :=
  match s.rest with
  | [] => (0, s.completeSend)
  | b :: rest => (b, { s with rest := rest })

/-- `txBuf[txIndex].buf`. -/
def buf : UInt8 :=
  match s.txIndex with
  | .ack => s.ackBuf.buf
  | .data => s.dataBuf.buf

/-- `txBuf[txIndex].state = BUFFER_AVAILABLE`. -/
def freeBuf : Sender :=
  match s.txIndex with
  | .ack => { s with ackBuf := { s.ackBuf with state := .available } }
  | .data => { s with dataBuf := { s.dataBuf with state := .available } }

/-! ## The task -/

/-- The end of a transmission in `RunTx`. -/
def finishTx : Sender :=
  let s := { s with txState := .idle }
  let s := s.freeBuf
  let s := { s with txSeqno := s.txSeqno + 1 }
  if s.txProto = protoAck then { s with ackQ := s.ackQ.pop } else s

/-- The start of a transmission in `RunTx`. -/
def startTx : Sender := { s with txCRC := 0, txByteCnt := 0, txState := .proto }.putDelimiter

/-- The choice of what to transmit in `RunTx`: acks are top priority. -/
def chooseTx : Sender :=
  if s.ackQ.isEmpty = false ∧ s.ackBuf.state = .available then
    { s with ackBuf := ⟨.complete, s.ackQ.top⟩, txProto := protoAck, txIndex := .ack }.startTx
  else if s.dataBuf.state = .filling ∨ s.dataBuf.state = .complete then
    { s with txProto := protoPacketNoAck, txIndex := .data }.startTx
  else s

/-- `RunTx`. -/
def runTx : Sender :=
  let s := { s with txPending := false }
  if s.txState = .finish ∨ s.txState = .error then s.finishTx.chooseTx
  else if s.txState = .idle then s.chooseTx
  else s

/-! ## The bytes -/

/-- What is being transmitted. -/
def current : UInt8 × List UInt8 :=
  (s.txProto, if s.txIndex = .ack then [s.ackBuf.buf] else s.packet)

/-- The state `TXSTATE_INFO` of `putDone`. -/
def putInfo : Sender :=
  let b := s.buf
  let s := s.putData b
  let s := { s with txCRC := crcByte s.txCRC b, txByteCnt := s.txByteCnt + 1 }
  match s.txIndex with
  | .data =>
    let r := s.nextByte
    let s := r.2
    if s.dataBuf.state = .complete ∨ s.txByteCnt ≥ serialMtu then { s with txState := .fcs1 }
    else { s with dataBuf := { s.dataBuf with buf := r.1 } }
  | .ack => { s with txState := .fcs1 }

/-- `SerialFrameComm.putDone`. -/
def putDone : Sender :=
  match s.txState with
  | .proto =>
    let s := s.putData s.txProto
    { s with txState := .info, txCRC := crcByte s.txCRC s.txProto }
  | .seqno =>
    let s := s.putData s.txSeqno
    { s with txState := .info, txCRC := crcByte s.txCRC s.txSeqno }
  | .info => s.putInfo
  | .fcs1 =>
    let s := s.putData (s.txCRC &&& 0xff).toUInt8
    { s with txState := .fcs2 }
  | .fcs2 =>
    let s := s.putData (s.txCRC >>> 8).toUInt8
    { s with txState := .endFlag }
  | .endFlag =>
    let s := s.putDelimiter
    { s with txState := .endWait, sent := s.sent ++ [s.current] }
  | .endWait => { s with txState := .finish }.maybeScheduleTx
  | .finish => s.maybeScheduleTx
  | .idle | .error | .inactive => { s with txState := .error }.maybeScheduleTx

/-- `UartStream.sendDone`. -/
def sendDone : Sender :=
  let s := { s with sending := false }
  if s.sendEscape then { s with sendEscape := false }.uartSend s.txTemp else s.putDone

/-! ## Runs -/

inductive Event
  | startSend (b : UInt8) (rest : List UInt8)
  | ackQueuePush (token : UInt8)
  | runTx
  | sendDone
deriving DecidableEq, Repr

def step : Event → Option Sender
  | .startSend b rest => some (s.startSend b rest)
  | .ackQueuePush token => some (s.ackQueuePush token)
  | .runTx => if s.txPending then some s.runTx else none
  | .sendDone => if s.sending then some s.sendDone else none

def machine : Machine Sender Event where
  init s := s = start
  step := step

end Sender

end Serial
