/-!
# The checksum of serial frames (`tos/system/crc.h`, `support/sdk/c/sf/serialsource.c`)

The mote's `crcByte`, without a loop, and the host's `crc_byte`, bit by bit.
-/

set_option autoImplicit false

namespace Serial

/-- `crcByte`. -/
def crcByte (crc : UInt16) (b : UInt8) : UInt16 :=
  let crc := (crc >>> 8).toUInt8.toUInt16 ||| (crc <<< 8)
  let crc := crc ^^^ b.toUInt16
  let crc := crc ^^^ ((crc &&& 0xff).toUInt8 >>> 4).toUInt16
  let crc := crc ^^^ (crc <<< 12)
  crc ^^^ ((crc &&& 0xff) <<< 5)

/-- The body of the loop of `crc_byte`. -/
def crcBit (crc : UInt16) : UInt16 :=
  if crc &&& 0x8000 ≠ 0 then (crc <<< 1) ^^^ 0x1021 else crc <<< 1

def crcBits : Nat → UInt16 → UInt16
  | 0, crc => crc
  | i + 1, crc => crcBits i (crcBit crc)

/-- `crc_byte`. -/
def crcByteSlow (crc : UInt16) (b : UInt8) : UInt16 := crcBits 8 (crc ^^^ (b.toUInt16 <<< 8))

/-- `crc_packet`. -/
def crcPacket (data : List UInt8) : UInt16 := data.foldl crcByteSlow 0

end Serial
