import Backip.Serial.Transmit
import Backip.System.Types

/-!
# Sends, and the start and stop of the stack (`tos/lib/serial/SerialDispatcherP.nc`,
`tos/lib/serial/SerialP.nc`, `tos/lib/serial/HdlcTranslateC.nc`)

The send path from `Send.send` to the UART, which may refuse any byte (`ret`), with `SplitControl` and
all that the receive path has to do with it: its state, `offPending`, and the tokens that it pushes.
What the receiver's checks of a frame say (the protocol, the buffers of the upper layer, the length
and the checksum) is an argument, `good`. An event, a command or a task is one step.

`accepted` and `done` are not in the code: the messages for which `Send.send` returned `SUCCESS`, and
the signals of `Send.sendDone`.
-/

set_option autoImplicit false

namespace SerialP

open Serial

/-- The platform's `message_t` and `PacketInfo`. -/
structure SendPlatform where
  /-- `sizeof(message_header_t)`. -/
  headerSize : Nat
  /-- `PacketInfo.offset`. -/
  offset : UInt8 → UInt8
  /-- `PacketInfo.dataLinkLength`. -/
  dataLinkLength : UInt8 → Nat → UInt8 → UInt8
  /-- The bytes of the message at an address. -/
  memory : Nat → Nat → UInt8

/-- `send_state_t`. -/
inductive SendState
  | idle
  | begin
  | data
deriving DecidableEq, Repr

structure Port where
  sendBuffer : Nat
  sendState : SendState
  sendLen : UInt8
  sendIndex : UInt8
  sendError : TinyError
  sendCancelled : Bool
  sendId : UInt8
  /-- `signalSendDone` is posted. -/
  signalPosted : Bool
  txState : TxState
  txByteCnt : Nat
  txProto : UInt8
  txSeqno : UInt8
  txCRC : UInt16
  /-- `RunTx` is posted. -/
  txPending : Bool
  txIndex : TxIndex
  /-- `txBuf[TX_ACK_INDEX]`. -/
  ackBuf : TxBuf
  /-- `txBuf[TX_DATA_INDEX]`. -/
  dataBuf : TxBuf
  ackQ : AckQueue
  rxState : RxState
  offPending : Bool
  /-- `startDoneTask` is posted. -/
  startPosted : Bool
  /-- `stopDoneTask` is posted. -/
  stopPosted : Bool
  sendEscape : Bool
  txTemp : UInt8
  /-- How many bytes the UART has accepted and not sent. -/
  sending : Nat
  /-- The bytes the UART has accepted. -/
  wire : List UInt8
  accepted : List Nat
  done : List (Nat × TinyError)

namespace Port

/-- `Init.init`. -/
def boot : Port where
  sendBuffer := 0
  sendState := .idle
  sendLen := 0
  sendIndex := 0
  sendError := .success
  sendCancelled := false
  sendId := 0
  signalPosted := false
  txState := .inactive
  txByteCnt := 0
  txProto := 0
  txSeqno := 0
  txCRC := 0
  txPending := false
  txIndex := .ack
  ackBuf := ⟨.available, 0⟩
  dataBuf := ⟨.available, 0⟩
  ackQ := { writePtr := 0, readPtr := 0, buf := fun _ => 0 }
  rxState := .inactive
  offPending := false
  startPosted := false
  stopPosted := false
  sendEscape := false
  txTemp := 0
  sending := 0
  wire := []
  accepted := []
  done := []

variable (cfg : SendPlatform) (s : Port)

/-! ## The bytes -/

/-- `UartStream.send`, of one byte. -/
def uartSend (b : UInt8) (ret : Bool) : Port :=
  if ret then { s with wire := s.wire ++ [b], sending := s.sending + 1 } else s

/-- `SerialFrameComm.putDelimiter`. -/
def putDelimiter (ret : Bool) : Port := { s with sendEscape := false }.uartSend flagByte ret

/-- `SerialFrameComm.putData`. -/
def putData (b : UInt8) (ret : Bool) : Port :=
  if b = ctlescByte ∨ b = flagByte then
    { s with sendEscape := true, txTemp := b ^^^ 0x20 }.uartSend ctlescByte ret
  else s.uartSend b ret

/-! ## The upper layer -/

/-- `MaybeScheduleTx`. -/
def maybeScheduleTx : Port := { s with txPending := true }

/-- `SendBytePacket.startSend`. -/
def startSend (b : UInt8) : TinyError × Port :=
  if s.txState = .inactive then (.eoff, s)
  else if s.dataBuf.state = .available then
    (.success, { s with dataBuf := ⟨.filling, b⟩ }.maybeScheduleTx)
  else (.ebusy, s)

/-- `SendBytePacket.completeSend`. -/
def completeSend : Port := { s with dataBuf := { s.dataBuf with state := .complete } }

/-- `Send.send`. -/
def send (id : UInt8) (msg : Nat) (len : UInt8) : TinyError × Port :=
  if s.sendState ≠ .idle then (.ebusy, s)
  else
    let s := { s with sendIndex := cfg.offset id }
    if s.sendIndex.toNat > cfg.headerSize then (.esize, s)
    else
      let s := { s with
        sendError := .success, sendBuffer := msg, sendState := .data, sendId := id
        sendCancelled := false, sendLen := cfg.dataLinkLength id msg len + s.sendIndex }
      let r := s.startSend id
      if r.1 = .success then (.success, { r.2 with accepted := s.accepted ++ [msg] })
      else (.fail, { r.2 with sendState := .idle })

/-- `Send.cancel`. -/
def cancel (id : UInt8) (msg : Nat) : TinyError × Port :=
  if s.sendState = .data ∧ s.sendBuffer = msg ∧ id = s.sendId then
    (.success, { s.completeSend with sendCancelled := true })
  else (.fail, s)

/-- `signalSendDone`. -/
def signalSendDone : Port :=
  let error := if s.sendCancelled then .ecancel else s.sendError
  { s with signalPosted := false, sendState := .idle, done := s.done ++ [(s.sendBuffer, error)] }

/-- `SendBytePacket.nextByte`. -/
def nextByte : UInt8 × Port :=
  let b := cfg.memory s.sendBuffer s.sendIndex.toNat
  let s := { s with sendIndex := s.sendIndex + 1 }
  if s.sendIndex > s.sendLen then (0, s.completeSend) else (b, s)

/-- `SendBytePacket.sendCompleted`. -/
def sendCompleted (error : TinyError) : Port := { s with sendError := error, signalPosted := true }

/-! ## Starting and stopping -/

/-- `testOff`. -/
def testOff : Port :=
  if s.txState = .inactive ∧ s.rxState = .inactive then
    { s with stopPosted := true, offPending := false }
  else { s with offPending := true }

/-- `SplitControl.start`. -/
def start : TinyError × Port :=
  if s.txState ≠ .inactive ∧ s.rxState ≠ .inactive then (.ealready, s)
  else (.success, { s with startPosted := true })

/-- `startDoneTask`. -/
def startDone : Port := { s with startPosted := false, txState := .idle, rxState := .noSync }

/-- `SplitControl.stop`. -/
def stop : Port :=
  let s := if s.rxState = .noSync then { s with rxState := .inactive } else s
  let s := if s.txState = .idle then { s with txState := .inactive } else s
  s.testOff

/-! ## The task -/

/-- `txBuf[txIndex].buf`. -/
def buf : UInt8 :=
  match s.txIndex with
  | .ack => s.ackBuf.buf
  | .data => s.dataBuf.buf

/-- `txBuf[txIndex].state = BUFFER_AVAILABLE`. -/
def freeBuf : Port :=
  match s.txIndex with
  | .ack => { s with ackBuf := { s.ackBuf with state := .available } }
  | .data => { s with dataBuf := { s.dataBuf with state := .available } }

/-- The end of a transmission in `RunTx`. -/
def finishTx : Port :=
  let done := s.txState = .finish
  let s := { s with txState := .idle }
  let s := s.freeBuf
  let s := { s with txSeqno := s.txSeqno + 1 }
  if s.txProto = protoAck then { s with ackQ := s.ackQ.pop }
  else s.sendCompleted (if done then .success else .fail)

/-- The start of a transmission in `RunTx`. -/
def startTx (ret : Bool) : Port :=
  let s := { s with txCRC := 0, txByteCnt := 0, txState := .proto }.putDelimiter ret
  if ret then s else { s with txState := .error }.maybeScheduleTx

/-- The choice of what to transmit in `RunTx`: acks are top priority. -/
def chooseTx (ret : Bool) : Port :=
  if s.ackQ.isEmpty = false ∧ s.ackBuf.state = .available then
    { s with ackBuf := ⟨.complete, s.ackQ.top⟩, txProto := protoAck, txIndex := .ack }.startTx ret
  else if s.dataBuf.state = .filling ∨ s.dataBuf.state = .complete then
    { s with txProto := protoPacketNoAck, txIndex := .data }.startTx ret
  else s

/-- What `RunTx` does while nothing is transmitted. -/
def runIdle (ret : Bool) : Port :=
  if s.offPending then { s with txState := .inactive }.testOff else s.chooseTx ret

/-- `RunTx`. -/
def runTx (ret : Bool) : Port :=
  let s := { s with txPending := false }
  if s.txState = .finish ∨ s.txState = .error then s.finishTx.runIdle ret
  else if s.txState = .idle then s.runIdle ret
  else if s.txState = .inactive then s.testOff
  else s

/-! ## The end of a byte -/

/-- The end of `putDone`, where `txResult` is `ret`. -/
def putResult (ret : Bool) : Port := if ret then s else { s with txState := .error }.maybeScheduleTx

/-- The state `TXSTATE_INFO` of `putDone`, without its end. -/
def putInfo (ret : Bool) : Port :=
  let b := s.buf
  let s := s.putData b ret
  let s := { s with txCRC := crcByte s.txCRC b, txByteCnt := s.txByteCnt + 1 }
  match s.txIndex with
  | .data =>
    let r := s.nextByte cfg
    let s := r.2
    if s.dataBuf.state = .complete ∨ s.txByteCnt ≥ serialMtu then { s with txState := .fcs1 }
    else { s with dataBuf := { s.dataBuf with buf := r.1 } }
  | .ack => { s with txState := .fcs1 }

/-- `SerialFrameComm.putDone`. -/
def putDone (ret : Bool) : Port :=
  match s.txState with
  | .proto =>
    let s := s.putData s.txProto ret
    { s with txState := .info, txCRC := crcByte s.txCRC s.txProto }.putResult ret
  | .seqno =>
    let s := s.putData s.txSeqno ret
    { s with txState := .info, txCRC := crcByte s.txCRC s.txSeqno }.putResult ret
  | .info => (s.putInfo cfg ret).putResult ret
  | .fcs1 =>
    let s := s.putData (s.txCRC &&& 0xff).toUInt8 ret
    { s with txState := .fcs2 }.putResult ret
  | .fcs2 =>
    let s := s.putData (s.txCRC >>> 8).toUInt8 ret
    { s with txState := .endFlag }.putResult ret
  | .endFlag =>
    let s := s.putDelimiter ret
    { s with txState := .endWait }.putResult ret
  | .endWait => { s with txState := .finish }.maybeScheduleTx
  | .finish => s.maybeScheduleTx
  | .idle | .error | .inactive => s.putResult false

/-- `UartStream.sendDone`: whether the second byte of an escaped one was accepted is not looked at. -/
def uartSendDone (ret : Bool) : Port :=
  let s := { s with sending := s.sending - 1 }
  if s.sendEscape then { s with sendEscape := false }.uartSend s.txTemp ret else s.putDone cfg ret

/-! ## The receive path -/

/-- `ack_queue_push`. -/
def ackQueuePush (token : UInt8) : Port :=
  if s.ackQ.isFull then s else { s with ackQ := s.ackQ.push token }.maybeScheduleTx

/-- The label `nosync`. -/
def nosync (isDelimiter : Bool) : Port :=
  let s := { s with rxState := .inactive }
  if s.offPending then s.testOff
  else if isDelimiter then { s with rxState := .proto }
  else s

/-- `rx_state_machine`; `token` is the token of the frame. -/
def rxStateMachine (isDelimiter good : Bool) (token : UInt8) : Port :=
  match s.rxState with
  | .noSync => if isDelimiter then { s with rxState := .proto } else s
  | .proto =>
    if !isDelimiter then if good then { s with rxState := .token } else s.nosync isDelimiter else s
  | .token => if isDelimiter then s.nosync isDelimiter else { s with rxState := .info }
  | .info =>
    if !good then s.nosync isDelimiter
    else if isDelimiter then
      let s := { s.ackQueuePush token with rxState := .inactive }
      if s.offPending then s.testOff else s
    else s
  | .inactive => s.nosync isDelimiter

/-! ## Runs -/

inductive Event
  | send (id : UInt8) (msg : Nat) (len : UInt8)
  | cancel (id : UInt8) (msg : Nat)
  | signalSendDone
  | runTx (ret : Bool)
  | uartSendDone (ret : Bool)
  | rxStateMachine (isDelimiter good : Bool) (token : UInt8)
  | start
  | startDone
  | stop
  | stopDone
deriving DecidableEq, Repr

def step : Event → Option Port
  | .send id msg len => some (s.send cfg id msg len).2
  | .cancel id msg => some (s.cancel id msg).2
  | .signalSendDone => if s.signalPosted then some s.signalSendDone else none
  | .runTx ret => if s.txPending then some (s.runTx ret) else none
  | .uartSendDone ret => if 0 < s.sending then some (s.uartSendDone cfg ret) else none
  | .rxStateMachine isDelimiter good token => some (s.rxStateMachine isDelimiter good token)
  | .start => some s.start.2
  | .startDone => if s.startPosted then some s.startDone else none
  | .stop => some s.stop
  | .stopDone => if s.stopPosted then some { s with stopPosted := false } else none

def machine : Machine Port Event where
  init s := s = boot
  step := step cfg

end Port

end SerialP
