import Backip.Serial.Crc
import Backip.System.Types
import Mathlib.Logic.Function.Basic

/-!
# The receive path of the mote (`tos/lib/serial/SerialP.nc`, `tos/lib/serial/HdlcTranslateC.nc`)

One byte of the UART after the other, from `SplitControl.startDone` on, without
`SplitControl.stop`. `accept` is the upper layer's answer to `startPacket`, which depends on what it
has been signalled so far.
-/

set_option autoImplicit false

namespace Serial

/-- `HDLC_FLAG_BYTE`. -/
abbrev flagByte : UInt8 := 0x7e

/-- `HDLC_CTLESC_BYTE`. -/
abbrev ctlescByte : UInt8 := 0x7d

/-- `SERIAL_PROTO_ACK`. -/
abbrev protoAck : UInt8 := 67

/-- `SERIAL_PROTO_PACKET_ACK`. -/
abbrev protoPacketAck : UInt8 := 68

/-- `SERIAL_PROTO_PACKET_NOACK`. -/
abbrev protoPacketNoAck : UInt8 := 69

/-- `RX_DATA_BUFFER_SIZE`. -/
abbrev rxDataBufferSize : Nat := 2

/-- `SERIAL_MTU`. -/
abbrev serialMtu : Nat := 255

/-! ## The buffer of two bytes -/

/-- `rx_buf_t`. -/
structure RxBuf where
  writePtr : Nat
  readPtr : Nat
  buf : Nat → UInt8

/-- `rx_buffer_push`. -/
def RxBuf.push (r : RxBuf) (data : UInt8) : RxBuf where
  writePtr := if r.writePtr + 1 > rxDataBufferSize then 0 else r.writePtr + 1
  readPtr := r.readPtr
  buf := Function.update r.buf r.writePtr data

/-- `rx_buffer_top`. -/
def RxBuf.top (r : RxBuf) : UInt8 := r.buf r.readPtr

/-- `rx_buffer_pop`, without the byte. -/
def RxBuf.pop (r : RxBuf) : RxBuf :=
  { r with readPtr := if r.readPtr + 1 > rxDataBufferSize then 0 else r.readPtr + 1 }

/-- `rx_current_crc`. -/
def RxBuf.currentCrc (r : RxBuf) : UInt16 :=
  let tmp := if r.writePtr = 0 then rxDataBufferSize else r.writePtr - 1
  let crc := (r.buf tmp).toUInt16 &&& 0x00ff
  let crc := (crc <<< 8) &&& 0xff00
  let tmp := if tmp = 0 then rxDataBufferSize else tmp - 1
  crc ||| ((r.buf tmp).toUInt16 &&& 0x00ff)

/-! ## The state machine -/

inductive RxState
  | noSync
  | proto
  | token
  | info
  | inactive
deriving DecidableEq, Repr

structure Rx where
  rxBuf : RxBuf
  rxState : RxState
  rxByteCnt : Nat
  rxProto : UInt8
  rxSeqno : UInt8
  rxCRC : UInt16

/-- What the receiver signals; `ackQueuePush` is the call of `ack_queue_push`. -/
inductive Signal
  | startPacket
  | byteReceived (b : UInt8)
  | endPacket (result : TinyError)
  | ackQueuePush (token : UInt8)
deriving DecidableEq, Repr

structure Receiver where
  rx : Rx
  receiveEscape : Bool
  signals : List Signal

/-- `rxInit`. -/
def Rx.rxInit (r : Rx) : Rx where
  rxBuf := { r.rxBuf with writePtr := 0, readPtr := 0 }
  rxState := .inactive
  rxByteCnt := 0
  rxProto := 0
  rxSeqno := 0
  rxCRC := 0

/-- `Init.init`, and `startDoneTask`. -/
def Receiver.start : Receiver where
  rx :=
    { rxBuf := { writePtr := 0, readPtr := 0, buf := fun _ => 0 }
      rxState := .noSync
      rxByteCnt := 0
      rxProto := 0
      rxSeqno := 0
      rxCRC := 0 }
  receiveEscape := false
  signals := []

namespace Receiver

/-- `SerialFrameComm.resetReceive`. -/
def resetReceive (s : Receiver) : Receiver := { s with receiveEscape := false }

def signal (s : Receiver) (c : Signal) : Receiver := { s with signals := s.signals ++ [c] }

/-- The label `nosync`. -/
def nosync (s : Receiver) (isDelimiter : Bool) : Receiver :=
  let s := { s with rx := s.rx.rxInit }
  let s := s.resetReceive
  let s := s.signal (.endPacket .fail)
  if isDelimiter then { s with rx := { s.rx with rxState := .proto } } else s

/-- `valid_rx_proto`. -/
def validRxProto (proto : UInt8) : Bool := proto = protoPacketAck

/-- The end of a frame whose checksum is right. -/
def endPacket (s : Receiver) : Receiver :=
  let s := s.signal (.endPacket .success)
  let s := s.signal (.ackQueuePush s.rx.rxSeqno)
  let s := { s with rx := s.rx.rxInit }
  s.resetReceive

/-- A byte of the packet or of its checksum: the byte two places before it is of the packet. -/
def saveByte (s : Receiver) (data : UInt8) : Receiver :=
  let s :=
    if s.rx.rxByteCnt ≥ 2 then
      let s := s.signal (.byteReceived s.rx.rxBuf.top)
      { s with rx :=
        { s.rx with
          rxCRC := crcByte s.rx.rxCRC s.rx.rxBuf.top
          rxBuf := s.rx.rxBuf.pop } }
    else s
  { s with rx := { s.rx with rxBuf := s.rx.rxBuf.push data, rxByteCnt := s.rx.rxByteCnt + 1 } }

variable (accept : List Signal → Bool)

/-- `rx_state_machine`. -/
def rxStateMachine (s : Receiver) (isDelimiter : Bool) (data : UInt8) : Receiver :=
  match s.rx.rxState with
  | .noSync =>
    if isDelimiter then { s with rx := { s.rx.rxInit with rxState := .proto } } else s
  | .proto =>
    if !isDelimiter then
      let s := { s with rx :=
        { s.rx with rxCRC := crcByte s.rx.rxCRC data, rxState := .token, rxProto := data } }
      if !validRxProto s.rx.rxProto then s.nosync isDelimiter
      else if s.rx.rxProto ≠ protoPacketAck then s.nosync isDelimiter
      else if !accept s.signals then (s.signal .startPacket).nosync isDelimiter
      else s.signal .startPacket
    else s
  | .token =>
    if isDelimiter then s.nosync isDelimiter
    else
      { s with rx :=
        { s.rx with rxSeqno := data, rxCRC := crcByte s.rx.rxCRC data, rxState := .info } }
  | .info =>
    if s.rx.rxByteCnt < serialMtu then
      if isDelimiter then
        if s.rx.rxByteCnt ≥ 2 then
          if s.rx.rxBuf.currentCrc = s.rx.rxCRC then s.endPacket else s.nosync isDelimiter
        else s.nosync isDelimiter
      else s.saveByte data
    else s.nosync isDelimiter
  | .inactive => s.nosync isDelimiter

/-- `UartStream.receivedByte`. -/
def receivedByte (s : Receiver) (data : UInt8) : Receiver :=
  if data = flagByte then s.rxStateMachine accept true 0
  else if data = ctlescByte then { s with receiveEscape := true }
  else if s.receiveEscape then
    { s with receiveEscape := false }.rxStateMachine accept false (data ^^^ 0x20)
  else s.rxStateMachine accept false data

/-- The bytes of the UART, the first one first. -/
def receive (s : Receiver) (bytes : List UInt8) : Receiver := bytes.foldl (receivedByte accept) s

end Receiver

end Serial
