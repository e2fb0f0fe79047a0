import Backip.Serial.Receive

/-!
# The host's end of the serial link (`support/sdk/c/sf/serialsource.c`)

Memory does not run out, and the file takes the bytes it is given.
-/

set_option autoImplicit false

namespace Serial

/-- `SYNC_BYTE`. -/
abbrev syncByte : UInt8 := flagByte

/-- `ESCAPE_BYTE`. -/
abbrev escapeByteMark : UInt8 := ctlescByte

/-- `MTU`. -/
abbrev hostMtu : Nat := 256

/-! ## Writing -/

/-- The escaper: `send.escaped` and `send.crc`. -/
structure Escaper where
  escaped : List UInt8
  crc : UInt16

namespace Escaper

/-- `escape_add`. -/
def add (s : Escaper) (b : UInt8) : Escaper := { s with escaped := s.escaped ++ [b] }

/-- `init_escaper`. -/
def init : Escaper := { escaped := [syncByte], crc := 0 }

/-- `terminate_escaper`. -/
def terminate (s : Escaper) : Escaper := s.add syncByte

/-- `escape_byte`. -/
def escapeByte (s : Escaper) (b : UInt8) : Escaper :=
  let s := { s with crc := crcByteSlow s.crc b }
  if b = syncByte ∨ b = escapeByteMark then (s.add escapeByteMark).add (b ^^^ 0x20) else s.add b

end Escaper

/-- `write_framed_packet`: the bytes it writes. -/
def writeFramedPacket (packetType firstByte : UInt8) (packet : List UInt8) : List UInt8 :=
  let s := Escaper.init.escapeByte packetType
  let s := s.escapeByte firstByte
  let s := packet.foldl Escaper.escapeByte s
  let crc := s.crc
  let s := s.escapeByte (crc &&& 0xff).toUInt8
  let s := s.escapeByte (crc >>> 8).toUInt8
  s.terminate.escaped

/-- The bytes `write_serial_packet` writes for the packets, with the sequence number before them. -/
def writeSerialPackets (seqno : UInt8) : List (List UInt8) → List UInt8
  | [] => []
  | packet :: packets =>
    let seqno := seqno + 1
    writeFramedPacket protoPacketAck seqno packet ++ writeSerialPackets seqno packets

/-! ## Reading -/

/-- The receive state. `packet` is the part of the buffer that is filled, of `count` bytes; `pushed`
are the calls of `push_protocol_packet`, and `written` the bytes of the acks. -/
structure Source where
  packet : List UInt8
  inSync : Bool
  escaped : Bool
  pushed : List (UInt8 × List UInt8)
  written : List UInt8

def Source.start : Source where
  packet := []
  inSync := false
  escaped := false
  pushed := []
  written := []

namespace Source

/-- `push_protocol_packet`. -/
def pushProtocolPacket (s : Source) (type : UInt8) (packet : List UInt8) : Source :=
  { s with pushed := s.pushed ++ [(type, packet)] }

/-- `process_packet`. -/
def processPacket (s : Source) (packet : List UInt8) : Source :=
  let packetType := packet.getD 0 0
  if packetType = protoPacketAck then
    let s := { s with written := s.written ++ writeFramedPacket protoAck (packet.getD 1 0) [] }
    s.pushProtocolPacket protoPacketNoAck (packet.drop 2)
  else s.pushProtocolPacket packetType (packet.drop 1)

/-- The body of the loop of `read_and_process`, and whether it returns. -/
def readByte (s : Source) (byte : UInt8) : Source × Bool :=
  if s.inSync = false then
    if byte = syncByte then ({ s with inSync := true, packet := [], escaped := false }, false)
    else (s, false)
  else if s.packet.length ≥ hostMtu then ({ s with inSync := false }, false)
  else if s.escaped then
    if byte = syncByte then ({ s with inSync := false }, false)
    else
      ({ s with packet := s.packet ++ [byte ^^^ 0x20], escaped := false }, false)
  else if byte = escapeByteMark then ({ s with escaped := true }, false)
  else if byte = syncByte then
    let packet := s.packet
    let count := packet.length
    let s := { s with packet := [] }
    if count < 4 then (s, false)
    else
      let received := packet.take (count - 2)
      let readCrc := (packet.getD (count - 2) 0).toUInt16 |||
        ((packet.getD (count - 1) 0).toUInt16 <<< 8)
      if readCrc = crcPacket received then (s.processPacket received, true) else (s, false)
  else ({ s with packet := s.packet ++ [byte] }, false)

/-- `read_and_process`, and the bytes it leaves. -/
def readAndProcess (s : Source) : List UInt8 → Source × List UInt8
  | [] => (s, [])
  | byte :: bytes =>
    let r := s.readByte byte
    if r.2 then (r.1, bytes) else r.1.readAndProcess bytes

/-- `k` calls of `read_and_process`. -/
def reads : Nat → Source → List UInt8 → Source × List UInt8
  | 0, s, bytes => (s, bytes)
  | k + 1, s, bytes =>
    let r := s.readAndProcess bytes
    reads k r.1 r.2

end Source

end Serial
