import Backip.Lib.Buffer
import Mathlib.Algebra.Group.Int.Defs
import Mathlib.Algebra.Group.Nat.Defs

/-!
# The transmit buffer (`libtcp/circ.c`)

A `struct circ_buf` stands at the start of the memory that it manages. The pointers into the rest
are indices: `data_start` is 0 and `endptr` the length of `data`, which is `data_len`. An `int` has
32 bits. A copy that leaves the buffer is `outOfBounds`, a call that returns -1 is `rejected`.
-/

set_option autoImplicit false

namespace Tcp

/-- `struct circ_buf` and the bytes it manages. -/
structure CircBuf where
  data : List UInt8
  dataHead : Nat
  headSeqno : UInt32
  head_le : dataHead ≤ data.length
  data_short : data.length < 2 ^ 16

namespace CircBuf

/-- `data_len`. -/
def dataLen (b : CircBuf) : Nat := b.data.length

/-- `circ_buf_init` of the memory `mem` (`none`: -1), where a `struct circ_buf` takes `hdrSize`
bytes. `data_len` has 16 bits. -/
def init (hdrSize : Nat) (mem : List UInt8) (seqno : UInt32) : Option CircBuf :=
  if mem.length < hdrSize then none
  else
    some
      { data := (mem.drop hdrSize).take ((mem.length - hdrSize) % 2 ^ 16)
        dataHead := 0
        headSeqno := seqno
        head_le := Nat.zero_le _
        data_short := by
          rw [List.length_take]
          exact Nat.lt_of_le_of_lt (Nat.min_le_left _ _) (Nat.mod_lt _ (by decide)) }

/-- The difference of two sequence numbers as an `int`. -/
def offsetOf (sseqno headSeqno : UInt32) : Int := (sseqno - headSeqno).toBitVec.toInt

/-- `get_ptr_off_1`: `writeptr` and `w_len`. -/
def getPtrOff1 (b : CircBuf) (sseqno : UInt32) (len : Nat) : Int × Int :=
  let offset := offsetOf sseqno b.headSeqno
  let writeptr := if b.dataHead + offset < b.dataLen then b.dataHead + offset
    else offset - (b.dataLen - b.dataHead)
  (writeptr, if b.dataLen < writeptr + len then b.dataLen - writeptr else len)

/-- The loop of `circ_shorten_head` (`none`: it does not end). -/
def wrapHead (dataLen head : Nat) : Option Nat :=
  if head ≤ dataLen then some head
  else if dataLen = 0 then none
  else wrapHead dataLen (head - dataLen)
termination_by head

theorem wrapHead_le {dataLen head head' : Nat} (h : wrapHead dataLen head = some head') :
    head' ≤ dataLen := by
  induction head using Nat.strongRecOn with
  | ind head ih =>
    rw [wrapHead] at h
    split at h
    · cases h
      assumption
    · split at h
      · cases h
      · exact ih (head - dataLen) (by omega) h

/-- `circ_shorten_head` (`none`: the head leaves the buffer, or the loop does not end). -/
def shortenHead (b : CircBuf) (seqno : UInt32) : Option CircBuf :=
  if b.dataHead + offsetOf seqno b.headSeqno < 0 then none
  else
    match h : wrapHead b.dataLen (b.dataHead + offsetOf seqno b.headSeqno).toNat with
    | none => none
    | some head =>
      some { b with dataHead := head, headSeqno := seqno, head_le := wrapHead_le h }

/-- The part of the buffer from `ptr` on (`memcpy` out of it). -/
def load (b : CircBuf) (ptr len : Int) : Except Stop (List UInt8) :=
  if ptr < 0 ∨ len < 0 ∨ b.dataLen < ptr + len then .error .outOfBounds
  else .ok ((b.data.drop ptr.toNat).take len.toNat)

/-- `circ_buf_read`: what it copies. -/
def read (b : CircBuf) (sseqno : UInt32) (len : Nat) : Except Stop (List UInt8) := do
  let (readptr, rLen) := b.getPtrOff1 sseqno len
  let first ← b.load readptr rLen
  if rLen ≠ len then
    let second ← b.load 0 (min ((len : Int) - rLen) b.dataHead)
    .ok (first ++ second)
  else .ok first

/-- `memcpy` into the buffer. -/
def store (b : CircBuf) (ptr : Int) (bytes : List UInt8) : Except Stop CircBuf :=
  if h : ptr < 0 ∨ b.dataLen < ptr + bytes.length then .error .outOfBounds
  else
    have hlen : (splice b.data ptr.toNat bytes).length = b.data.length :=
      length_splice (by unfold dataLen at h; omega)
    .ok
      { b with
        data := splice b.data ptr.toNat bytes
        head_le := by rw [hlen]; exact b.head_le
        data_short := by rw [hlen]; exact b.data_short }

/-- `circ_buf_write`. -/
def write (b : CircBuf) (sseqno : UInt32) (bytes : List UInt8) : Except Stop CircBuf :=
  if b.headSeqno + .ofNat b.dataLen < sseqno then .error .rejected
  else if bytes.length = 0 then .ok b
  else do
    let (writeptr, wLen) := b.getPtrOff1 sseqno bytes.length
    if wLen < 0 then .error .outOfBounds
    else
      let b ← b.store writeptr (bytes.take wLen.toNat)
      if wLen ≠ bytes.length then
        b.store 0 ((bytes.drop wLen.toNat).take
          (min ((bytes.length : Int) - wLen) b.dataHead).toNat)
      else .ok b

end CircBuf

end Tcp
