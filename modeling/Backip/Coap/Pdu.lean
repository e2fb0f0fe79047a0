import Backip.Lib.Buffer
import Mathlib

/-!
# CoAP messages (`support/sdk/c/coap/pdu.c`, `pdu.h`, `net.c`)

The options of a message follow its header; each gives the difference of its number to the one before,
and a gap of more than fifteen is bridged with empty options, the fence posts. The walks over the
options have no bound but the header's count, so that they can leave the memory of the message: a read
or write outside of it is `Stop.outOfBounds`. An option that comes out of order is `Stop.rejected`.

Offsets are offsets in the bytes behind the header. The bit-fields are laid out as on a little-endian
host.
-/

set_option autoImplicit false

namespace Coap

abbrev Byte : Type := BitVec 8

def maxPduSize : Nat := 700

/-- `sizeof(coap_hdr_t)`. -/
def hdrSize : Nat := 4

def defaultVersion : BitVec 2 := 1

/-- `coap_hdr_t`. -/
structure Hdr where
  optcnt : BitVec 4
  type : BitVec 2
  version : BitVec 2
  code : BitVec 8
  id : BitVec 16
deriving DecidableEq, Repr

/-- The bytes of a `coap_hdr_t`. -/
def Hdr.bytes (h : Hdr) : List Byte :=
  [h.version ++ h.type ++ h.optcnt, h.code, h.id.setWidth 8, (h.id >>> 8).setWidth 8]

/-- `coap_pdu_t` and the memory behind it. `data` is an offset from the header. -/
structure Pdu where
  hdr : Hdr
  body : List Byte
  length : Nat
  data : Nat
deriving DecidableEq, Repr

/-- `coap_new_pdu`. -/
def newPdu : Pdu where
  hdr := ⟨0, 0, defaultVersion, 0, 0xffff⟩
  body := List.replicate (maxPduSize - hdrSize) 0
  length := hdrSize
  data := hdrSize

/-! ## Options -/

/-- `COAP_OPT_ISEXTENDED`. -/
def isExtended (b : Byte) : Bool := b.toNat % 16 = 15

/-- `COAP_OPT_DELTA`. -/
def optDelta (b : Byte) : Nat := b.toNat / 16

def byteAt (body : List Byte) (off : Nat) : Except Stop Byte := do
  let (b, _) ← Buffer.next (body.drop off)
  .ok b

/-- `COAP_OPT_LENGTH`. -/
def optLength (body : List Byte) (off : Nat) : Except Stop Nat := do
  let b ← byteAt body off
  if isExtended b then
    let l ← byteAt body (off + 1)
    .ok (l.toNat + 15)
  else .ok (b.toNat % 16)

/-- `COAP_OPT_VALUE`. -/
def optValue (body : List Byte) (off : Nat) : Except Stop Nat := do
  let b ← byteAt body off
  .ok (off + if isExtended b then 2 else 1)

/-- `COAP_OPT_SIZE`. -/
def optSize (body : List Byte) (off : Nat) : Except Stop Nat := do
  let n ← optLength body off
  let b ← byteAt body off
  .ok (n + if isExtended b then 2 else 1)

/-- What `COAP_OPT_SETDELTA` and `COAP_OPT_SETLENGTH` leave in front of the value. -/
def optHeader (delta len : Nat) : List Byte :=
  if len < 15 then [BitVec.ofNat 8 (delta % 16 * 16 + len)]
  else [BitVec.ofNat 8 (delta % 16 * 16 + 15), BitVec.ofNat 8 (len - 15)]

/-- The loop over all options: the offset behind them and the number of the last one. It is
`options_end` of `net.c` as well. -/
def optionsEnd (body : List Byte) : Nat → Nat → Nat → Except Stop (Nat × Nat)
  | 0, off, code => .ok (off, code)
  | cnt + 1, off, code => do
    let b ← byteAt body off
    let size ← optSize body off
    optionsEnd body cnt (off + size) ((code + optDelta b) % 256)

/-! ## Writing a message -/

/-- The number of the next fence post. -/
def nextPost (code : Nat) : Nat := 14 * (code / 14 + 1)

theorem lt_nextPost (code : Nat) : code < nextPost code ∧ nextPost code ≤ code + 14 := by
  unfold nextPost
  omega

/-- The loop of `coap_add_option` that adds fence posts. -/
def fencePosts (type : Nat) (hdr : Hdr) (body : List Byte) (off code : Nat) :
    Except Stop (Hdr × List Byte × Nat × Nat) :=
  if code + 15 < type then
    match Buffer.write body off (optHeader (nextPost code - code) 0) with
    | .error e => .error e
    | .ok body =>
      fencePosts type { hdr with optcnt := hdr.optcnt + 1 } body (off + 1) (nextPost code)
  else .ok (hdr, body, off, code)
termination_by type - code
decreasing_by
  have := lt_nextPost code
  omega

/-- `coap_add_option`. -/
def addOption (pdu : Pdu) (type : Nat) (data : List Byte) : Except Stop Pdu := do
  let (off, code) ← optionsEnd pdu.body pdu.hdr.optcnt.toNat 0 0
  if type < code then .error .rejected
  else
    let (hdr, body, off, code) ← fencePosts type pdu.hdr pdu.body off code
    let body ← Buffer.write body off (optHeader (type - code) data.length ++ data)
    let value ← optValue body off
    let length := hdrSize + value + data.length
    .ok { hdr := { hdr with optcnt := hdr.optcnt + 1 }, body, length, data := length }

/-- `coap_add_data`. -/
def addData (pdu : Pdu) (data : List Byte) : Except Stop Pdu := do
  if maxPduSize < pdu.length + data.length then .error .rejected
  else
    let body ← Buffer.write pdu.body (pdu.length - hdrSize) data
    .ok { pdu with body, length := pdu.length + data.length }

/-- A message as the callers build it: the fields of the header, the options, the payload. -/
def build (type : BitVec 2) (code : BitVec 8) (id : BitVec 16) (options : List (Nat × List Byte))
    (data : List Byte) : Except Stop Pdu := do
  let pdu : Pdu := { newPdu with hdr := { newPdu.hdr with type, code, id } }
  let pdu ← options.foldlM (fun pdu o => addOption pdu o.1 o.2) pdu
  addData pdu data

/-- What `coap_send_impl` sends. -/
def sent (pdu : Pdu) : List Byte := (pdu.hdr.bytes ++ pdu.body).take pdu.length

/-! ## Reading a message -/

/-- The fields of a `coap_hdr_t` of these bytes. -/
def readHdr (b0 b1 b2 b3 : Byte) : Hdr where
  optcnt := b0.extractLsb' 0 4
  type := b0.extractLsb' 4 2
  version := b0.extractLsb' 6 2
  code := b1
  id := b3 ++ b2

/-- What `coap_read` makes of a frame of at most `maxPduSize` bytes. `none`: the frame is dropped. -/
def read (frame : List Byte) : Except Stop (Option Pdu) :=
  match frame with
  | b0 :: b1 :: b2 :: b3 :: rest => do
    let hdr := readHdr b0 b1 b2 b3
    if hdr.version = defaultVersion then
      let body ← Buffer.write newPdu.body 0 rest
      let (off, _) ← optionsEnd body hdr.optcnt.toNat 0 0
      .ok (some { hdr, body, length := frame.length, data := min frame.length (hdrSize + off) })
    else .ok none
  | _ => .ok none

/-- The loop of `coap_check_option`. -/
def checkOptionLoop (body : List Byte) (type : Nat) : Nat → Nat → Nat → Except Stop (Option Nat)
  | 0, _, _ => .ok none
  | cnt + 1, off, code =>
    if code < type then do
      let b ← byteAt body off
      if type = (code + optDelta b) % 256 then .ok (some off)
      else
        let size ← optSize body off
        checkOptionLoop body type cnt (off + size) ((code + optDelta b) % 256)
    else .ok none

/-- `coap_check_option`: where the option is. -/
def checkOption (pdu : Pdu) (type : Nat) : Except Stop (Option Nat) :=
  checkOptionLoop pdu.body type pdu.hdr.optcnt.toNat 0 0

/-- `COAP_SET_STR` of the value of an option. -/
def optString (body : List Byte) (off : Nat) : Except Stop (List Byte) := do
  let n ← optLength body off
  let value ← optValue body off
  let (s, _) ← Buffer.take n (body.drop value)
  .ok s

/-- The value of an option, empty if there is none. -/
def optionString (pdu : Pdu) (type : Nat) : Except Stop (List Byte) := do
  match ← checkOption pdu type with
  | some off => optString pdu.body off
  | none => .ok []

/-- `coap_uri_t`. -/
structure Uri where
  na : List Byte
  path : List Byte
  query : List Byte
deriving DecidableEq, Repr

def contentType : Nat := 1
def uriAuthority : Nat := 5
def uriPath : Nat := 9
def token : Nat := 11
def block : Nat := 13
def uriQuery : Nat := 15

/-- `coap_get_request_uri`. -/
def getRequestUri (pdu : Pdu) : Except Stop Uri := do
  let na ← optionString pdu uriAuthority
  let path ← optionString pdu uriPath
  let query ← optionString pdu uriQuery
  .ok { na, path, query }

/-- The options that `coap_check_critical` finds critical and does not know. -/
def unknownCritical (code : Nat) : Bool :=
  code % 2 = 1 && !([contentType, uriAuthority, uriPath, token, block, uriQuery].contains code)

/-- The loop of `coap_check_critical`. -/
def checkCriticalLoop (body : List Byte) : Nat → Nat → Nat → Except Stop (Option (Nat × Nat))
  | 0, _, _ => .ok none
  | cnt + 1, off, code => do
    let b ← byteAt body off
    let code := (code + optDelta b) % 256
    if unknownCritical code then .ok (some (code, off))
    else
      let size ← optSize body off
      checkCriticalLoop body cnt (off + size) code

/-- `coap_check_critical`: the number of the option and where it is. -/
def checkCritical (pdu : Pdu) : Except Stop (Option (Nat × Nat)) :=
  checkCriticalLoop pdu.body pdu.hdr.optcnt.toNat 0 0

/-- `coap_get_data`. -/
def getData (pdu : Pdu) : List Byte :=
  if pdu.data < pdu.length then ((pdu.hdr.bytes ++ pdu.body).take pdu.length).drop pdu.data else []

end Coap
