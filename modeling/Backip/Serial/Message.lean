import Backip.Lib.BitField
import Mathlib

/-!
# Bit fields of serial messages (`support/sdk/c/sf/message.c`)

The accessors of the messages that the serial forwarder passes on. `none` is a call of `tmsg_fail`,
after which a read returns zero and a write leaves the message as it is. An offset or a length is a
`size_t` of 64 bits.

A write keeps the bits before the field and what it should store; a number that is too large goes over
the rest of the last byte as well, or of the first one in a big-endian field (`wroteLe`, `wroteBe`).
`readUle_writeUle` and `readUbe_writeUbe` say when the other fields read as before.
-/

set_option autoImplicit false

namespace Tmsg

open BitField

/-- `boundsp`. -/
def boundsp (data : List Byte) (offset length : Nat) : Bool :=
  (offset + length) % 2 ^ 64 ≤ data.length * 8 % 2 ^ 64

/-- The loop of `tmsg_read_ule` and what follows it. -/
def readUleLoop (data : List Byte) (byteOffset shift length : Nat) (x : BitVec 64) : BitVec 64 :=
  if 8 ≤ length then
    readUleLoop data (byteOffset + 1) (shift + 8) (length - 8)
      (x ||| (data.getD byteOffset 0).setWidth 64 <<< shift)
  else if 0 < length then
    x ||| ((data.getD byteOffset 0).setWidth 64 &&& lowMask length) <<< shift
  else x
termination_by length

/-- `tmsg_read_ule`. -/
def readUle (data : List Byte) (offset length : Nat) : Option (BitVec 64) :=
  if boundsp data offset length then
    let byteOffset := offset / 8
    let bitOffset := offset % 8
    let byte : BitVec 64 := (data.getD byteOffset 0).setWidth 64
    if length + bitOffset ≤ 8 then some (byte >>> bitOffset &&& lowMask length)
    else if 0 < offset then
      some (readUleLoop data (byteOffset + 1) (8 - bitOffset) (length - (8 - bitOffset))
        (byte >>> bitOffset))
    else some (readUleLoop data byteOffset 0 length 0)
  else none

/-- The loop of `tmsg_write_ule` and what follows it. -/
def writeUleLoop (x : BitVec 64) (data : List Byte) (byteOffset shift length : Nat) : List Byte :=
  if 8 ≤ length then
    writeUleLoop x (data.set byteOffset ((x >>> shift).setWidth 8)) (byteOffset + 1) (shift + 8)
      (length - 8)
  else if 0 < length then
    data.set byteOffset
      (((data.getD byteOffset 0).setWidth 64 &&& ~~~lowMask length ||| x >>> shift).setWidth 8)
  else data
termination_by length

/-- `tmsg_write_ule`. -/
def writeUle (data : List Byte) (offset length : Nat) (x : BitVec 64) : Option (List Byte) :=
  if boundsp data offset length then
    let byteOffset := offset / 8
    let bitOffset := offset % 8
    let byte : BitVec 64 := (data.getD byteOffset 0).setWidth 64
    if length + bitOffset ≤ 8 then
      some (data.set byteOffset
        ((byte &&& ~~~(lowMask length <<< bitOffset) ||| x <<< bitOffset).setWidth 8))
    else if 0 < bitOffset then
      some (writeUleLoop x
        (data.set byteOffset ((byte &&& lowMask bitOffset ||| x <<< bitOffset).setWidth 8))
        (byteOffset + 1) (8 - bitOffset) (length - (8 - bitOffset)))
    else some (writeUleLoop x data byteOffset 0 length)
  else none

/-- The loop of `tmsg_read_ube` and what follows it. -/
def readUbeLoop (data : List Byte) (byteOffset length : Nat) (x : BitVec 64) : BitVec 64 :=
  if 8 ≤ length then
    readUbeLoop data (byteOffset + 1) (length - 8)
      (x ||| (data.getD byteOffset 0).setWidth 64 <<< (length - 8))
  else if 0 < length then x ||| (data.getD byteOffset 0).setWidth 64 >>> (8 - length)
  else x
termination_by length

/-- `tmsg_read_ube`. -/
def readUbe (data : List Byte) (offset length : Nat) : Option (BitVec 64) :=
  if boundsp data offset length then
    let byteOffset := offset / 8
    let bitOffset := offset % 8
    let byte : BitVec 64 := (data.getD byteOffset 0).setWidth 64
    if length + bitOffset ≤ 8 then some (byte >>> (8 - bitOffset - length) &&& lowMask length)
    else if 0 < bitOffset then
      let length := length - (8 - bitOffset)
      some (readUbeLoop data (byteOffset + 1) length ((byte &&& lowMask (8 - bitOffset)) <<< length))
    else some (readUbeLoop data byteOffset length 0)
  else none

/-- The loop of `tmsg_write_ube` and what follows it. -/
def writeUbeLoop (x : BitVec 64) (data : List Byte) (byteOffset length : Nat) : List Byte :=
  if 8 ≤ length then
    writeUbeLoop x (data.set byteOffset ((x >>> (length - 8)).setWidth 8)) (byteOffset + 1)
      (length - 8)
  else if 0 < length then
    data.set byteOffset
      (((data.getD byteOffset 0).setWidth 64 &&& lowMask (8 - length) |||
        x <<< (8 - length)).setWidth 8)
  else data
termination_by length

/-- `tmsg_write_ube`. -/
def writeUbe (data : List Byte) (offset length : Nat) (x : BitVec 64) : Option (List Byte) :=
  if boundsp data offset length then
    let byteOffset := offset / 8
    let bitOffset := offset % 8
    let byte : BitVec 64 := (data.getD byteOffset 0).setWidth 64
    if length + bitOffset ≤ 8 then
      let mask := lowMask length <<< (8 - bitOffset - length)
      some (data.set byteOffset
        ((byte &&& ~~~mask ||| x <<< (8 - bitOffset - length)).setWidth 8))
    else if 0 < bitOffset then
      let mask := lowMask (8 - bitOffset)
      let length := length - (8 - bitOffset)
      some (writeUbeLoop x
        (data.set byteOffset ((byte &&& ~~~mask ||| x >>> length).setWidth 8))
        (byteOffset + 1) length)
    else some (writeUbeLoop x data byteOffset length)
  else none

/-- A field of up to 64 bits that lies in the message. -/
structure Field (data : List Byte) (offset length : Nat) : Prop where
  pos : 0 < length
  word : length ≤ 64
  inside : offset + length ≤ 8 * data.length
  small : 8 * data.length < 2 ^ 64

variable {data : List Byte} {offset length : Nat} {x : BitVec 64}

theorem Field.boundsp (h : Field data offset length) : boundsp data offset length = true := by
  have := h.inside
  have := h.small
  rw [Tmsg.boundsp, decide_eq_true_eq, Nat.mod_eq_of_lt (by omega), Nat.mod_eq_of_lt (by omega)]
  omega

/-! ## Little-endian -/

/-- A byte is put above what is there. -/
theorem getLsbD_orByte {base byteOffset shift width : Nat} (b : BitVec 64) (hwidth : width ≤ 8)
    (hat : 8 * byteOffset = base + shift) (hfit : shift + width ≤ 64)
    (hb : ∀ k, b.getLsbD k = (decide (k < width) && (data.getD byteOffset 0).getLsbD k))
    (hx : ∀ k, x.getLsbD k = (decide (k < shift) && bitLe data (base + k))) (k : Nat) :
    (x ||| b <<< shift).getLsbD k = (decide (k < shift + width) && bitLe data (base + k)) := by
  rw [BitVec.getLsbD_or, hx, BitVec.getLsbD_shiftLeft, hb]
  by_cases hk : k < shift
  · simp [hk, show k < shift + width by omega]
  · by_cases hk' : k < shift + width
    · rw [bitLe_at (b := byteOffset) (j := k - shift) (by omega) (by omega)]
      simp [hk, hk', show k < 64 by omega, show k - shift < width by omega]
    · simp [hk, hk', show ¬k - shift < width by omega]

theorem getLsbD_byte (b : Byte) (k : Nat) :
    (b.setWidth 64).getLsbD k = (decide (k < 8) && b.getLsbD k) := by
  rw [BitVec.getLsbD_setWidth]
  by_cases hk : k < 8
  · simp [hk, show k < 64 by omega]
  · simp [hk, BitVec.getLsbD_of_ge b k (by omega)]

theorem getLsbD_readUleLoop (base byteOffset shift length : Nat) (x : BitVec 64)
    (hat : 8 * byteOffset = base + shift) (hfit : shift + length ≤ 64)
    (hx : ∀ k, x.getLsbD k = (decide (k < shift) && bitLe data (base + k))) (k : Nat) :
    (readUleLoop data byteOffset shift length x).getLsbD k =
      (decide (k < shift + length) && bitLe data (base + k)) := by
  fun_induction readUleLoop data byteOffset shift length x with
  | case1 byteOffset shift length x h8 ih =>
    rw [ih (by omega) (by omega) (getLsbD_orByte _ (by omega) hat (by omega) (getLsbD_byte _) hx),
      show shift + 8 + (length - 8) = shift + length by omega]
  | case2 byteOffset shift length x h8 hpos =>
    refine getLsbD_orByte _ (by omega) hat (by omega) (fun k => ?_) hx k
    rw [BitVec.getLsbD_and, getLsbD_byte, getLsbD_lowMask (by omega)]
    by_cases hk : k < length
    · simp [hk, show k < 8 by omega]
    · simp [hk]
  | case3 byteOffset shift length x h8 hpos =>
    rw [hx, show shift + length = shift by omega]

/-- What `tmsg_read_ule` returns. -/
theorem readUle_spec (h : Field data offset length) :
    ∃ x, readUle data offset length = some x ∧
      ∀ k, x.getLsbD k = (decide (k < length) && bitLe data (offset + k)) := by
  have hword := h.word
  have hfirst : ∀ k, (((data.getD (offset / 8) 0).setWidth 64 : BitVec 64) >>> (offset % 8)).getLsbD k =
      (decide (k < 8 - offset % 8) && bitLe data (offset + k)) := fun k => by
    rw [BitVec.getLsbD_ushiftRight, getLsbD_byte]
    by_cases hk : k < 8 - offset % 8
    · rw [bitLe_at (b := offset / 8) (j := offset % 8 + k) (by omega) (by omega)]
      simp [hk, show offset % 8 + k < 8 by omega]
    · simp [hk, show ¬offset % 8 + k < 8 by omega]
  rw [readUle, if_pos h.boundsp]
  dsimp only
  split
  · refine ⟨_, rfl, fun k => ?_⟩
    rw [BitVec.getLsbD_and, hfirst, getLsbD_lowMask (by omega)]
    by_cases hk : k < length
    · simp [hk, show k < 8 - offset % 8 by omega]
    · simp [hk]
  · split
    · refine ⟨_, rfl, fun k => ?_⟩
      rw [getLsbD_readUleLoop offset _ _ _ _ (by omega) (by omega) hfirst,
        show 8 - offset % 8 + (length - (8 - offset % 8)) = length by omega]
    · refine ⟨_, rfl, fun k => ?_⟩
      rw [getLsbD_readUleLoop offset _ _ _ _ (by omega) (by omega) (by simp), Nat.zero_add]

/-- What a write makes of the bits from `start` on, where `start` is in the last byte that is not yet
stored: a number that is too large is also put over what is left of the last byte. -/
def wroteLe (data : List Byte) (base start length : Nat) (x : BitVec 64) (i : Nat) : Bool :=
  if i < start then bitLe data i
  else if i < start + length then x.getLsbD (i - base)
  else if 0 < length ∧ i / 8 = (start + length - 1) / 8 then bitLe data i || x.getLsbD (i - base)
  else bitLe data i

theorem bitLe_writeUleLoop (base byteOffset shift length : Nat) (x : BitVec 64) (data : List Byte)
    (hat : 8 * byteOffset = base + shift) (hfit : shift + length ≤ 64)
    (hin : 8 * byteOffset + length ≤ 8 * data.length) :
    (writeUleLoop x data byteOffset shift length).length = data.length ∧
      ∀ i, bitLe (writeUleLoop x data byteOffset shift length) i =
        wroteLe data base (8 * byteOffset) length x i := by
  fun_induction writeUleLoop x data byteOffset shift length with
  | case1 data byteOffset shift length h8 ih =>
    obtain ⟨hlen, hbits⟩ := ih (by omega) (by omega) (by rw [List.length_set]; omega)
    refine ⟨by rw [hlen, List.length_set], fun i => ?_⟩
    rw [hbits, wroteLe, wroteLe, bitLe_set (by omega)]
    by_cases hi : i / 8 = byteOffset
    · rw [if_pos hi, if_pos (by omega), if_neg (by omega), if_pos (by omega),
        BitVec.getLsbD_setWidth, BitVec.getLsbD_ushiftRight, show shift + i % 8 = i - base by omega]
      simp [show i % 8 < 8 by omega]
    · rw [if_neg hi]
      by_cases hlt : i < 8 * byteOffset
      · rw [if_pos (by omega), if_pos hlt]
      · rw [if_neg (by omega), if_neg hlt,
          show 8 * (byteOffset + 1) + (length - 8) = 8 * byteOffset + length by omega]
        split
        · rfl
        · by_cases hlast : i / 8 = (8 * byteOffset + length - 1) / 8
          · rw [if_pos (by omega), if_pos (by omega)]
          · rw [if_neg (by omega), if_neg (by omega)]
  | case2 data byteOffset shift length h8 hpos =>
    refine ⟨List.length_set, fun i => ?_⟩
    rw [bitLe_set (by omega), wroteLe]
    by_cases hi : i / 8 = byteOffset
    · have hbit : bitLe data i = (data.getD byteOffset 0).getLsbD (i % 8) :=
        bitLe_at (by omega) (by omega)
      rw [if_pos hi, if_neg (by omega), BitVec.getLsbD_setWidth, BitVec.getLsbD_or,
        BitVec.getLsbD_and, BitVec.getLsbD_not, getLsbD_byte, getLsbD_lowMask (by omega),
        BitVec.getLsbD_ushiftRight, show shift + i % 8 = i - base by omega, ← hbit]
      by_cases hlt : i % 8 < length
      · rw [if_pos (by omega)]
        simp [hlt, show i % 8 < 8 by omega]
      · rw [if_neg (by omega), if_pos (by omega)]
        simp [hlt, show i % 8 < 8 by omega, show i % 8 < 64 by omega]
    · rw [if_neg hi]
      by_cases hlt : i < 8 * byteOffset
      · rw [if_pos hlt]
      · rw [if_neg hlt, if_neg (by omega), if_neg (by omega)]
  | case3 data byteOffset shift length h8 hpos =>
    refine ⟨rfl, fun i => ?_⟩
    rw [wroteLe, show length = 0 by omega]
    by_cases hlt : i < 8 * byteOffset
    · rw [if_pos hlt]
    · rw [if_neg hlt, if_neg (by omega), if_neg (by omega)]

/-- What `tmsg_write_ule` makes of a message. -/
theorem writeUle_spec (h : Field data offset length) (x : BitVec 64) :
    ∃ data', writeUle data offset length x = some data' ∧ data'.length = data.length ∧
      ∀ i, bitLe data' i = wroteLe data offset offset length x i := by
  have hpos := h.pos
  have hword := h.word
  have hin := h.inside
  rw [writeUle, if_pos h.boundsp]
  dsimp only
  have hbit : ∀ i, i / 8 = offset / 8 → bitLe data i = (data.getD (offset / 8) 0).getLsbD (i % 8) :=
    fun i hi => bitLe_at (by omega) (by omega)
  split
  · rename_i hone
    refine ⟨_, rfl, List.length_set, fun i => ?_⟩
    rw [bitLe_set (by omega), wroteLe]
    by_cases hi : i / 8 = offset / 8
    · rw [if_pos hi, BitVec.getLsbD_setWidth, BitVec.getLsbD_or, BitVec.getLsbD_and,
        BitVec.getLsbD_not, getLsbD_byte, BitVec.getLsbD_shiftLeft, BitVec.getLsbD_shiftLeft,
        getLsbD_lowMask (by omega), ← hbit i hi]
      by_cases hlt : i < offset
      · rw [if_pos hlt]
        simp [show i % 8 < 8 by omega, show i % 8 < 64 by omega, show i % 8 < offset % 8 by omega]
      · rw [if_neg hlt, show i % 8 - offset % 8 = i - offset by omega]
        by_cases hin' : i < offset + length
        · rw [if_pos hin']
          simp [show i % 8 < 8 by omega, show i % 8 < 64 by omega,
            show ¬i % 8 < offset % 8 by omega, show i - offset < length by omega]
        · rw [if_neg hin', if_pos (by omega)]
          simp [show i % 8 < 8 by omega, show i % 8 < 64 by omega,
            show ¬i % 8 < offset % 8 by omega, show ¬i - offset < length by omega]
    · rw [if_neg hi]
      by_cases hlt : i < offset
      · rw [if_pos hlt]
      · rw [if_neg hlt, if_neg (by omega), if_neg (by omega)]
  · rename_i hone
    split
    · rename_i hbo
      obtain ⟨hlen, hbits⟩ := bitLe_writeUleLoop offset (offset / 8 + 1) (8 - offset % 8)
        (length - (8 - offset % 8)) x
        (data.set (offset / 8) (((data.getD (offset / 8) 0).setWidth 64 &&& lowMask (offset % 8) |||
          x <<< (offset % 8)).setWidth 8)) (by omega) (by omega) (by rw [List.length_set]; omega)
      refine ⟨_, rfl, by rw [hlen, List.length_set], fun i => ?_⟩
      rw [hbits, wroteLe, wroteLe, bitLe_set (by omega)]
      by_cases hi : i / 8 = offset / 8
      · rw [if_pos hi, if_pos (by omega), BitVec.getLsbD_setWidth, BitVec.getLsbD_or,
          BitVec.getLsbD_and, getLsbD_byte, BitVec.getLsbD_shiftLeft, getLsbD_lowMask (by omega),
          ← hbit i hi]
        by_cases hlt : i < offset
        · rw [if_pos hlt]
          simp [show i % 8 < 8 by omega, show i % 8 < offset % 8 by omega]
        · rw [if_neg hlt, if_pos (by omega), show i % 8 - offset % 8 = i - offset by omega]
          simp [show i % 8 < 8 by omega, show i % 8 < 64 by omega,
            show ¬i % 8 < offset % 8 by omega]
      · rw [if_neg hi]
        by_cases hlt : i < offset
        · rw [if_pos (by omega), if_pos hlt]
        · rw [if_neg (by omega), if_neg hlt,
            show 8 * (offset / 8 + 1) + (length - (8 - offset % 8)) = offset + length by omega]
          split
          · rfl
          · by_cases hlast : i / 8 = (offset + length - 1) / 8
            · rw [if_pos (by omega), if_pos (by omega)]
            · rw [if_neg (by omega), if_neg (by omega)]
    · rename_i hbo
      obtain ⟨hlen, hbits⟩ := bitLe_writeUleLoop offset (offset / 8) 0 length x data (by omega)
        (by omega) (by omega)
      refine ⟨_, rfl, hlen, fun i => ?_⟩
      rw [hbits, show 8 * (offset / 8) = offset by omega]

/-! ## Big-endian -/

theorem getLsbD_readUbeLoop (top total byteOffset length : Nat) (x : BitVec 64)
    (hat : 8 * byteOffset + length = top + 1) (hfit : total ≤ 64) (htotal : total ≤ top + 1)
    (hle : length ≤ total)
    (hx : ∀ k, x.getLsbD k = (decide (length ≤ k ∧ k < total) && bitBe data (top - k))) (k : Nat) :
    (readUbeLoop data byteOffset length x).getLsbD k =
      (decide (k < total) && bitBe data (top - k)) := by
  fun_induction readUbeLoop data byteOffset length x with
  | case1 byteOffset length x h8 ih =>
    refine ih (by omega) (by omega) fun k => ?_
    rw [BitVec.getLsbD_or, hx, BitVec.getLsbD_shiftLeft, getLsbD_byte]
    by_cases hk : k < length - 8 ∨ total ≤ k
    · rw [decide_eq_false (by omega : ¬(length ≤ k ∧ k < total)),
        decide_eq_false (by omega : ¬(length - 8 ≤ k ∧ k < total))]
      by_cases hlow : k < length - 8
      · simp [hlow]
      · simp [show ¬k - (length - 8) < 8 by omega]
    · rw [decide_eq_true (by omega : length - 8 ≤ k ∧ k < total), Bool.true_and]
      by_cases hlow : k < length
      · rw [bitBe_at (b := byteOffset) (j := k - (length - 8)) (by omega) (by omega)]
        simp [show ¬length ≤ k by omega, show k < 64 by omega, show ¬k < length - 8 by omega,
          show k - (length - 8) < 8 by omega]
      · simp [show length ≤ k by omega, show k < total by omega,
          show ¬k - (length - 8) < 8 by omega]
  | case2 byteOffset length x h8 hpos =>
    rw [BitVec.getLsbD_or, hx, BitVec.getLsbD_ushiftRight, getLsbD_byte]
    by_cases hlow : k < length
    · rw [bitBe_at (b := byteOffset) (j := 8 - length + k) (by omega) (by omega)]
      simp [show ¬length ≤ k by omega, show k < total by omega, show 8 - length + k < 8 by omega]
    · simp [show length ≤ k by omega, show ¬8 - length + k < 8 by omega]
  | case3 byteOffset length x h8 hpos =>
    rw [hx, show length = 0 by omega]
    simp

/-- What `tmsg_read_ube` returns. -/
theorem readUbe_spec (h : Field data offset length) :
    ∃ x, readUbe data offset length = some x ∧
      ∀ k, x.getLsbD k = (decide (k < length) && bitBe data (offset + length - 1 - k)) := by
  have hpos := h.pos
  have hword := h.word
  rw [readUbe, if_pos h.boundsp]
  dsimp only
  split
  · refine ⟨_, rfl, fun k => ?_⟩
    rw [BitVec.getLsbD_and, BitVec.getLsbD_ushiftRight, getLsbD_byte, getLsbD_lowMask (by omega)]
    by_cases hk : k < length
    · rw [bitBe_at (b := offset / 8) (j := 8 - offset % 8 - length + k) (by omega) (by omega)]
      simp [hk, show 8 - offset % 8 - length + k < 8 by omega]
    · simp [hk]
  · split
    · refine ⟨_, rfl, getLsbD_readUbeLoop _ _ _ _ _ (by omega) hword (by omega) (by omega)
        fun k => ?_⟩
      rw [BitVec.getLsbD_shiftLeft, BitVec.getLsbD_and, getLsbD_byte, getLsbD_lowMask (by omega)]
      by_cases hk : length - (8 - offset % 8) ≤ k ∧ k < length
      · rw [bitBe_at (b := offset / 8) (j := k - (length - (8 - offset % 8))) (by omega) (by omega)]
        simp [hk, show k < 64 by omega, show ¬k < length - (8 - offset % 8) by omega,
          show k - (length - (8 - offset % 8)) < 8 by omega,
          show k - (length - (8 - offset % 8)) < 8 - offset % 8 by omega]
      · rw [decide_eq_false hk]
        by_cases hlow : k < length - (8 - offset % 8)
        · simp [hlow]
        · simp [show ¬k - (length - (8 - offset % 8)) < 8 - offset % 8 by omega]
    · refine ⟨_, rfl, getLsbD_readUbeLoop _ _ _ _ _ (by omega) hword (by omega) (by omega)
        fun k => ?_⟩
      rw [decide_eq_false (by omega), Bool.false_and]
      simp

/-- What a write makes of the bits: a number that is too large is also put over what is before the
field in its first byte. -/
def wroteBe (data : List Byte) (offset length : Nat) (x : BitVec 64) (i : Nat) : Bool :=
  if offset + length ≤ i then bitBe data i
  else if offset ≤ i then x.getLsbD (offset + length - 1 - i)
  else if i / 8 = offset / 8 then bitBe data i || x.getLsbD (offset + length - 1 - i)
  else bitBe data i

theorem bitBe_writeUbeLoop (byteOffset length : Nat) (x : BitVec 64) (data : List Byte)
    (hword : length ≤ 64) (hin : 8 * byteOffset + length ≤ 8 * data.length) :
    (writeUbeLoop x data byteOffset length).length = data.length ∧
      ∀ i, bitBe (writeUbeLoop x data byteOffset length) i =
        wroteBe data (8 * byteOffset) length x i := by
  fun_induction writeUbeLoop x data byteOffset length with
  | case1 data byteOffset length h8 ih =>
    obtain ⟨hlen, hbits⟩ := ih (by omega) (by rw [List.length_set]; omega)
    refine ⟨by rw [hlen, List.length_set], fun i => ?_⟩
    rw [hbits, wroteBe, wroteBe, bitBe_set (by omega),
      show 8 * (byteOffset + 1) + (length - 8) = 8 * byteOffset + length by omega]
    by_cases hi : i / 8 = byteOffset
    · rw [if_pos hi, if_neg (by omega), if_neg (by omega), if_neg (by omega), if_neg (by omega),
        if_pos (by omega), BitVec.getLsbD_setWidth, BitVec.getLsbD_ushiftRight,
        show length - 8 + (7 - i % 8) = 8 * byteOffset + length - 1 - i by omega]
      simp [show 7 - i % 8 < 8 by omega]
    · rw [if_neg hi]
      split
      · rfl
      · by_cases hlt : 8 * (byteOffset + 1) ≤ i
        · rw [if_pos hlt, if_pos (by omega)]
        · rw [if_neg hlt, if_neg (by omega), if_neg (by omega), if_neg (by omega)]
  | case2 data byteOffset length h8 hpos =>
    refine ⟨List.length_set, fun i => ?_⟩
    rw [bitBe_set (by omega), wroteBe]
    by_cases hi : i / 8 = byteOffset
    · have hbit : bitBe data i = (data.getD byteOffset 0).getLsbD (7 - i % 8) :=
        bitBe_at (by omega) (by omega)
      rw [if_pos hi, BitVec.getLsbD_setWidth, BitVec.getLsbD_or, BitVec.getLsbD_and, getLsbD_byte,
        getLsbD_lowMask (by omega), BitVec.getLsbD_shiftLeft, ← hbit]
      by_cases hlt : 8 * byteOffset + length ≤ i
      · rw [if_pos hlt]
        simp [show 7 - i % 8 < 8 by omega, show 7 - i % 8 < 8 - length by omega]
      · rw [if_neg hlt, if_pos (by omega),
          show 7 - i % 8 - (8 - length) = 8 * byteOffset + length - 1 - i by omega]
        simp [show 7 - i % 8 < 8 by omega, show 7 - i % 8 < 64 by omega,
          show ¬7 - i % 8 < 8 - length by omega]
    · rw [if_neg hi]
      split
      · rfl
      · rw [if_neg (by omega), if_neg (by omega)]
  | case3 data byteOffset length h8 hpos =>
    refine ⟨rfl, fun i => ?_⟩
    rw [wroteBe, show length = 0 by omega]
    split
    · rfl
    · rw [if_neg (by omega), if_neg (by omega)]

/-- What `tmsg_write_ube` makes of a message. -/
theorem writeUbe_spec (h : Field data offset length) (x : BitVec 64) :
    ∃ data', writeUbe data offset length x = some data' ∧ data'.length = data.length ∧
      ∀ i, bitBe data' i = wroteBe data offset length x i := by
  have hpos := h.pos
  have hword := h.word
  have hin := h.inside
  rw [writeUbe, if_pos h.boundsp]
  dsimp only
  have hbit : ∀ i, i / 8 = offset / 8 →
      bitBe data i = (data.getD (offset / 8) 0).getLsbD (7 - i % 8) :=
    fun i hi => bitBe_at (by omega) (by omega)
  split
  · rename_i hone
    refine ⟨_, rfl, List.length_set, fun i => ?_⟩
    rw [bitBe_set (by omega), wroteBe]
    by_cases hi : i / 8 = offset / 8
    · rw [if_pos hi, BitVec.getLsbD_setWidth, BitVec.getLsbD_or, BitVec.getLsbD_and,
        BitVec.getLsbD_not, getLsbD_byte, BitVec.getLsbD_shiftLeft, BitVec.getLsbD_shiftLeft,
        getLsbD_lowMask (by omega), ← hbit i hi]
      by_cases hlt : offset + length ≤ i
      · rw [if_pos hlt]
        simp [show 7 - i % 8 < 8 by omega, show 7 - i % 8 < 64 by omega,
          show 7 - i % 8 < 8 - offset % 8 - length by omega]
      · rw [if_neg hlt,
          show 7 - i % 8 - (8 - offset % 8 - length) = offset + length - 1 - i by omega]
        by_cases hle : offset ≤ i
        · rw [if_pos hle]
          simp [show 7 - i % 8 < 8 by omega, show 7 - i % 8 < 64 by omega,
            show ¬7 - i % 8 < 8 - offset % 8 - length by omega,
            show offset + length - 1 - i < length by omega]
        · rw [if_neg hle, if_pos hi]
          simp [show 7 - i % 8 < 8 by omega, show 7 - i % 8 < 64 by omega,
            show ¬7 - i % 8 < 8 - offset % 8 - length by omega,
            show ¬offset + length - 1 - i < length by omega]
    · rw [if_neg hi]
      split
      · rfl
      · rw [if_neg (by omega)]
  · rename_i hone
    split
    · rename_i hbo
      obtain ⟨hlen, hbits⟩ := bitBe_writeUbeLoop (offset / 8 + 1) (length - (8 - offset % 8)) x
        (data.set (offset / 8) (((data.getD (offset / 8) 0).setWidth 64 &&&
          ~~~lowMask (8 - offset % 8) ||| x >>> (length - (8 - offset % 8))).setWidth 8))
        (by omega) (by rw [List.length_set]; omega)
      refine ⟨_, rfl, by rw [hlen, List.length_set], fun i => ?_⟩
      rw [hbits, wroteBe, wroteBe, bitBe_set (by omega),
        show 8 * (offset / 8 + 1) + (length - (8 - offset % 8)) = offset + length by omega]
      by_cases hi : i / 8 = offset / 8
      · rw [if_pos hi, if_neg (by omega), if_neg (by omega), if_neg (by omega), if_neg (by omega),
          BitVec.getLsbD_setWidth, BitVec.getLsbD_or, BitVec.getLsbD_and, BitVec.getLsbD_not,
          getLsbD_byte, BitVec.getLsbD_ushiftRight, getLsbD_lowMask (by omega), ← hbit i hi,
          show length - (8 - offset % 8) + (7 - i % 8) = offset + length - 1 - i by omega]
        by_cases hle : offset ≤ i
        · rw [if_pos hle]
          simp [show 7 - i % 8 < 8 by omega, show 7 - i % 8 < 8 - offset % 8 by omega]
        · rw [if_neg hle, if_pos hi]
          simp [show 7 - i % 8 < 8 by omega, show 7 - i % 8 < 64 by omega,
            show ¬7 - i % 8 < 8 - offset % 8 by omega]
      · rw [if_neg hi]
        split
        · rfl
        · by_cases hle : offset ≤ i
          · rw [if_pos (by omega), if_pos hle]
          · rw [if_neg (by omega), if_neg hle, if_neg (by omega)]
    · rename_i hbo
      obtain ⟨hlen, hbits⟩ := bitBe_writeUbeLoop (offset / 8) length x data hword (by omega)
      refine ⟨_, rfl, hlen, fun i => ?_⟩
      rw [hbits, show 8 * (offset / 8) = offset by omega]

/-! ## What a field reads as -/

/-- The fields have no bit in common. -/
def Apart (offset length offset' length' : Nat) : Prop :=
  offset + length ≤ offset' ∨ offset' + length' ≤ offset

theorem Field.of_length {data' : List Byte} (h : Field data offset length)
    (hlen : data'.length = data.length) : Field data' offset length :=
  ⟨h.pos, h.word, hlen ▸ h.inside, hlen ▸ h.small⟩

/-- A field of one bit. -/
theorem Field.bit (h : Field data offset length) {i : Nat} (hi : i < 8 * data.length) :
    Field data i 1 :=
  ⟨Nat.one_pos, by decide, hi, h.small⟩

section Order

variable {bit : List Byte → Nat → Bool} {pos : Nat → Nat → Nat → Nat}
  {read : List Byte → Nat → Nat → Option (BitVec 64)}

/-- `read` finds bit `k` of a number at `pos`, within the field. -/
structure Reads (bit : List Byte → Nat → Bool) (pos : Nat → Nat → Nat → Nat)
    (read : List Byte → Nat → Nat → Option (BitVec 64)) : Prop where
  spec : ∀ {data offset length}, Field data offset length → ∃ x, read data offset length = some x ∧
    ∀ k, x.getLsbD k = (decide (k < length) && bit data (pos offset length k))
  within : ∀ {offset length k}, k < length →
    offset ≤ pos offset length k ∧ pos offset length k < offset + length

/-- A field reads as its bits are. -/
theorem Reads.congr (hr : Reads bit pos read) {data' : List Byte} (h : Field data offset length)
    (hlen : data'.length = data.length)
    (hbits : ∀ i, offset ≤ i → i < offset + length → bit data' i = bit data i) :
    read data' offset length = read data offset length := by
  obtain ⟨x, hread, hx⟩ := hr.spec h
  obtain ⟨x', hread', hx'⟩ := hr.spec (h.of_length hlen)
  rw [hread, hread']
  refine congrArg some (BitVec.eq_of_getLsbD_eq fun k _ => ?_)
  rw [hx, hx']
  by_cases hk : k < length
  · rw [hbits _ (hr.within hk).1 (hr.within hk).2]
  · rw [decide_eq_false hk, Bool.false_and, Bool.false_and]

/-- What was stored is read. -/
theorem Reads.stored (hr : Reads bit pos read) (h : Field data offset length)
    (hbits : ∀ k < length, bit data (pos offset length k) = x.getLsbD k) :
    read data offset length = some (low length x) := by
  obtain ⟨y, hread, hy⟩ := hr.spec h
  rw [hread]
  refine congrArg some (BitVec.eq_of_getLsbD_eq fun k _ => ?_)
  rw [hy, getLsbD_low]
  by_cases hk : k < length
  · rw [hbits k hk]
  · rw [decide_eq_false hk, Bool.false_and, Bool.false_and]

/-- A write that spills over its field changes no other field exactly if it spills over ones. -/
theorem Reads.others_iff (hr : Reads bit pos read) {data' : List Byte}
    (h : Field data offset length) (hlen : data'.length = data.length) {spill : Nat → Bool}
    (hbits : ∀ i, i < offset ∨ offset + length ≤ i → bit data' i = (bit data i || spill i)) :
    (∀ offset' length', Field data offset' length' → Apart offset length offset' length' →
      read data' offset' length' = read data offset' length') ↔
    ∀ i, (i < offset ∨ offset + length ≤ i) → i < 8 * data.length → spill i = true →
      bit data i = true := by
  constructor
  · intro hsame i hi hin hspill
    have h1 := h.bit hin
    obtain ⟨y, hread, hy⟩ := hr.spec h1
    obtain ⟨y', hread', hy'⟩ := hr.spec (h1.of_length hlen)
    have heq := hsame i 1 h1 hi.symm
    rw [hread, hread'] at heq
    obtain rfl := Option.some.inj heq
    have hat : pos i 1 0 = i := by
      have hat : i ≤ pos i 1 0 ∧ pos i 1 0 < i + 1 := hr.within Nat.one_pos
      omega
    have hbit := (hy' 0).symm.trans (hy 0)
    rw [hat, decide_eq_true Nat.one_pos, Bool.true_and, Bool.true_and, hbits i hi, hspill,
      Bool.or_true] at hbit
    exact hbit.symm
  · intro hones offset' length' h' hapart
    refine hr.congr h' hlen fun i hge hlt => ?_
    have hi : i < offset ∨ offset + length ≤ i := by
      rcases hapart with hap | hap
      · exact .inr (hap.trans hge)
      · exact .inl (Nat.lt_of_lt_of_le hlt hap)
    have hin := h'.inside
    rw [hbits i hi]
    cases hspill : spill i with
    | false => rw [Bool.or_false]
    | true => rw [hones i hi (by omega) hspill, Bool.or_true]

end Order

theorem reads_le : Reads bitLe (fun offset _ k => offset + k) readUle where
  spec h := readUle_spec h
  within hk := ⟨Nat.le_add_right _ _, Nat.add_lt_add_left hk _⟩

theorem reads_be : Reads bitBe (fun offset length k => offset + length - 1 - k) readUbe where
  spec h := readUbe_spec h
  within hk := by omega

/-- The bits of a number above its field that a little-endian write puts over the others. -/
def spillLe (offset length : Nat) (x : BitVec 64) (i : Nat) : Bool :=
  decide (offset + length ≤ i ∧ i / 8 = (offset + length - 1) / 8) && x.getLsbD (i - offset)

def spillBe (offset length : Nat) (x : BitVec 64) (i : Nat) : Bool :=
  decide (i < offset ∧ i / 8 = offset / 8) && x.getLsbD (offset + length - 1 - i)

/-- A little-endian write: the field, and the other bits. -/
theorem writeUle_bits (h : Field data offset length) (x : BitVec 64) :
    ∃ data', writeUle data offset length x = some data' ∧ data'.length = data.length ∧
      (∀ k < length, bitLe data' (offset + k) = x.getLsbD k) ∧
      ∀ i, i < offset ∨ offset + length ≤ i →
        bitLe data' i = (bitLe data i || spillLe offset length x i) := by
  obtain ⟨data', hwrite, hlen, hbits⟩ := writeUle_spec h x
  refine ⟨data', hwrite, hlen, fun k hk => ?_, fun i hi => ?_⟩
  · rw [hbits, wroteLe, if_neg (by omega), if_pos (by omega), Nat.add_sub_cancel_left]
  · rw [hbits, wroteLe, spillLe]
    by_cases hlt : i < offset
    · rw [if_pos hlt, decide_eq_false (by omega), Bool.false_and, Bool.or_false]
    · rw [if_neg hlt, if_neg (by omega)]
      by_cases hbyte : i / 8 = (offset + length - 1) / 8
      · rw [if_pos ⟨h.pos, hbyte⟩, decide_eq_true ⟨by omega, hbyte⟩, Bool.true_and]
      · rw [if_neg fun h => hbyte h.2, decide_eq_false fun h => hbyte h.2, Bool.false_and,
          Bool.or_false]

/-- A big-endian write. -/
theorem writeUbe_bits (h : Field data offset length) (x : BitVec 64) :
    ∃ data', writeUbe data offset length x = some data' ∧ data'.length = data.length ∧
      (∀ k < length, bitBe data' (offset + length - 1 - k) = x.getLsbD k) ∧
      ∀ i, i < offset ∨ offset + length ≤ i →
        bitBe data' i = (bitBe data i || spillBe offset length x i) := by
  obtain ⟨data', hwrite, hlen, hbits⟩ := writeUbe_spec h x
  refine ⟨data', hwrite, hlen, fun k hk => ?_, fun i hi => ?_⟩
  · rw [hbits, wroteBe, if_neg (by omega), if_pos (by omega),
      show offset + length - 1 - (offset + length - 1 - k) = k by omega]
  · rw [hbits, wroteBe, spillBe]
    by_cases hge : offset + length ≤ i
    · rw [if_pos hge, decide_eq_false (by omega), Bool.false_and, Bool.or_false]
    · rw [if_neg hge, if_neg (by omega)]
      by_cases hbyte : i / 8 = offset / 8
      · rw [if_pos hbyte, decide_eq_true ⟨by omega, hbyte⟩, Bool.true_and]
      · rw [if_neg hbyte, decide_eq_false fun h => hbyte h.2, Bool.false_and, Bool.or_false]

/-- The bits of a number above its field find only ones in the rest of the last byte. -/
def CoveredLe (data : List Byte) (offset length : Nat) (x : BitVec 64) : Prop :=
  ∀ i, offset + length ≤ i → i / 8 = (offset + length - 1) / 8 → x.getLsbD (i - offset) = true →
    bitLe data i = true

/-- The bits of a number above its field find only ones in what is before it in the first byte. -/
def CoveredBe (data : List Byte) (offset length : Nat) (x : BitVec 64) : Prop :=
  ∀ i, i < offset → i / 8 = offset / 8 → x.getLsbD (offset + length - 1 - i) = true →
    bitBe data i = true

end Tmsg
