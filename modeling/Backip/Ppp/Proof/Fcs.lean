import Backip.Ppp.HdlcFramingP
import Backip.Serial.Proof.Crc

/-!
# The frame check sequence

`fcs_eq_good_iff`: the checksum over a frame with two more bytes is `FCS16_Good` exactly if these are the
complement of the frame's own checksum, the low byte first.
-/

set_option autoImplicit false

namespace Ppp

/-- The running checksum over the bytes of a frame. -/
def fcs (l : List UInt8) : UInt16 := l.foldl fcs16Update fcs16Initial

/-- The two bytes that `uartStreamSendDone` puts behind the bytes of a frame. -/
def trailer (l : List UInt8) : List UInt8 :=
  let crc := fcs l ^^^ fcs16Initial
  [crc.toUInt8, (crc >>> 8).toUInt8]

/-- The bytes of a frame: the address and control fields, if they are there, the payload, and the
checksum. -/
def framed (front payload : List UInt8) : List UInt8 := front ++ payload ++ trailer (front ++ payload)

theorem fcs_snoc (l : List UInt8) (b : UInt8) : fcs (l ++ [b]) = fcs16Update (fcs l) b := by
  rw [fcs, List.foldl_append]
  rfl

/-! ## The bytes of a checksum -/

/-- The upper byte. -/
def hi (crc : UInt16) : UInt8 := (crc >>> 8).toUInt8

/-- What the byte that is shifted out adds. -/
def fcsTable (x : UInt8) : UInt16 :=
  let x := x ^^^ (x <<< 4)
  (x.toUInt16 <<< 8) ^^^ (x >>> 4).toUInt16 ^^^ (x.toUInt16 <<< 3)

theorem toNat_and_ff (x : UInt16) : (x &&& 0xff).toNat = x.toNat % 256 := by
  have hmask : (255 : UInt16).toNat = 2 ^ 8 - 1 := rfl
  rw [UInt16.toNat_and, hmask, Nat.and_two_pow_sub_one_eq_mod]

theorem and_ff_toUInt8 (x : UInt16) : (x &&& 0xff).toUInt8 = x.toUInt8 := by
  apply UInt8.toNat_inj.1
  rw [UInt16.toNat_toUInt8, UInt16.toNat_toUInt8, toNat_and_ff]
  omega

theorem toNat_shiftRight_eight (x : UInt16) : (x >>> 8).toNat = x.toNat / 256 := by
  have hshift : (8 : UInt16).toNat % 16 = 8 := rfl
  rw [UInt16.toNat_shiftRight, hshift, Nat.shiftRight_eq_div_pow]

theorem toNat_hi (x : UInt16) : (hi x).toNat = x.toNat / 256 := by
  have := x.toNat_lt
  rw [hi, UInt16.toNat_toUInt8, toNat_shiftRight_eight]
  omega

theorem and_ff_shiftRight (x : UInt16) : (x >>> 8) &&& 0xff = (hi x).toUInt16 := by
  have := x.toNat_lt
  apply UInt16.toNat_inj.1
  rw [toNat_and_ff, UInt8.toNat_toUInt16, toNat_hi, toNat_shiftRight_eight]
  omega

theorem hi_xor (x y : UInt16) : hi (x ^^^ y) = hi x ^^^ hi y := by
  apply UInt8.toNat_inj.1
  rw [UInt8.toNat_xor, toNat_hi, toNat_hi, toNat_hi, UInt16.toNat_xor]
  have hdiv (n : Nat) : n / 256 = n >>> 8 := (Nat.shiftRight_eq_div_pow n 8).symm
  rw [hdiv, hdiv, hdiv, Nat.shiftRight_xor_distrib]

theorem hi_toUInt16 (x : UInt8) : hi x.toUInt16 = 0 := by
  have := x.toNat_lt
  apply UInt8.toNat_inj.1
  rw [toNat_hi, UInt8.toNat_toUInt16, UInt8.toNat_zero]
  omega

theorem ext_hi {x y : UInt16} (hh : hi x = hi y) (hl : x.toUInt8 = y.toUInt8) : x = y := by
  have hx := Serial.eq_bytes x
  have hy := Serial.eq_bytes y
  rw [hi, hi] at hh
  rw [hh, hl, ← hy] at hx
  exact hx

/-! ## One byte -/

theorem fcs16Update_eq (crc : UInt16) (b : UInt8) :
    fcs16Update crc b = (hi crc).toUInt16 ^^^ fcsTable (b ^^^ crc.toUInt8) := by
  rw [fcs16Update, fcsTable, and_ff_toUInt8, and_ff_shiftRight, UInt16.or_comm, Serial.or_shiftLeft_eight]
  ac_rfl

theorem toUInt8_fcs16Update (crc : UInt16) (b : UInt8) :
    (fcs16Update crc b).toUInt8 = hi crc ^^^ (fcsTable (b ^^^ crc.toUInt8)).toUInt8 := by
  rw [fcs16Update_eq, UInt16.toUInt8_xor, UInt8.toUInt8_toUInt16]

theorem hi_fcs16Update (crc : UInt16) (b : UInt8) :
    hi (fcs16Update crc b) = hi (fcsTable (b ^^^ crc.toUInt8)) := by
  rw [fcs16Update_eq, hi_xor, hi_toUInt16, UInt8.zero_xor]

/-- Two entries of the table are found by their upper bytes. -/
theorem eq_of_hi_fcsTable (x : UInt8) :
    (hi (fcsTable x) = 0xf0 → x = 0x87) ∧ (hi (fcsTable x) = 0x0f → x = 0xff) := by
  obtain ⟨⟨⟨x, hlt⟩⟩⟩ := x
  revert x
  decide +kernel

theorem xor_eq_iff {a b c : UInt8} : a ^^^ b = c ↔ a = b ^^^ c := by
  constructor
  · rintro rfl
    rw [UInt8.xor_comm a, ← UInt8.xor_assoc, UInt8.xor_self, UInt8.zero_xor]
  · rintro rfl
    rw [UInt8.xor_comm, ← UInt8.xor_assoc, UInt8.xor_self, UInt8.zero_xor]

/-- **The residue.** -/
theorem update_eq_good_iff (crc : UInt16) (a b : UInt8) :
    fcs16Update (fcs16Update crc a) b = fcs16Good ↔
      a = (crc ^^^ fcs16Initial).toUInt8 ∧ b = ((crc ^^^ fcs16Initial) >>> 8).toUInt8 := by
  have hlow : (crc ^^^ fcs16Initial).toUInt8 = crc.toUInt8 ^^^ 0xff := UInt16.toUInt8_xor ..
  have hhigh : ((crc ^^^ fcs16Initial) >>> 8).toUInt8 = hi crc ^^^ 0xff := hi_xor ..
  rw [hlow, hhigh]
  constructor
  · intro h
    -- the upper byte gives the last step, the lower one the step before it
    have hb := congrArg hi h
    have ha := congrArg UInt16.toUInt8 h
    rw [hi_fcs16Update] at hb
    have hb' := (eq_of_hi_fcsTable _).1 hb
    rw [toUInt8_fcs16Update, hb', hi_fcs16Update, xor_eq_iff] at ha
    have ha' := (eq_of_hi_fcsTable _).2 ha
    rw [toUInt8_fcs16Update, ha', xor_eq_iff, UInt8.xor_assoc] at hb'
    rw [xor_eq_iff] at ha'
    exact ⟨ha', hb'⟩
  · rintro ⟨rfl, rfl⟩
    have ha : crc.toUInt8 ^^^ 0xff ^^^ crc.toUInt8 = 0xff := xor_eq_iff.2 rfl
    have hlow' : (fcs16Update crc (crc.toUInt8 ^^^ 0xff)).toUInt8 = hi crc ^^^ 0x78 := by
      rw [toUInt8_fcs16Update, ha]
      rfl
    have hb : hi crc ^^^ 0xff ^^^ (hi crc ^^^ 0x78) = 0x87 := by
      rw [xor_eq_iff, UInt8.xor_assoc]
      rfl
    refine ext_hi ?_ ?_
    · rw [hi_fcs16Update, hlow', hb]
      rfl
    · rw [toUInt8_fcs16Update, hlow', hb, hi_fcs16Update, ha]
      rfl

theorem fcs_eq_good_iff (l : List UInt8) (a b : UInt8) :
    fcs (l ++ [a, b]) = fcs16Good ↔ [a, b] = trailer l := by
  have hsplit : l ++ [a, b] = l ++ [a] ++ [b] := by simp
  rw [hsplit, fcs_snoc, fcs_snoc, update_eq_good_iff, trailer, List.cons.injEq, List.cons.injEq]
  simp

end Ppp
