import Backip.Serial.Crc
import Mathlib.Algebra.Group.Int.Defs
import Mathlib.Algebra.Group.Nat.Defs
import Mathlib.Data.Nat.Bitwise

/-!
# The two checksums agree

Both shift the checksum by a byte and add what a table says about the byte that is shifted out
(`crcByte_eq`, `crcByteSlow_eq`), and the tables are the same (`crcTable_eq`).
-/

set_option autoImplicit false

namespace Serial

/-- The table of `crcByte`. -/
def crcTable (h : UInt8) : UInt16 :=
  let x := h.toUInt16 ^^^ (h >>> 4).toUInt16
  let x := x ^^^ (x <<< 12)
  x ^^^ ((x &&& 0xff) <<< 5)

/-! ## Bytes of a word -/

theorem toNat_shiftLeft_eight (crc : UInt16) : (crc <<< 8).toNat = crc.toNat * 256 % 65536 := by
  simp [UInt16.toNat_shiftLeft, Nat.shiftLeft_eq]

theorem toUInt8_shiftLeft_eight (crc : UInt16) : (crc <<< 8).toUInt8 = 0 := by
  apply UInt8.toNat_inj.1
  rw [UInt16.toNat_toUInt8, toNat_shiftLeft_eight, UInt8.toNat_zero]
  omega

theorem shiftLeft_eight_and (crc : UInt16) : (crc <<< 8) &&& 0xff = 0 := by
  apply UInt16.toNat_inj.1
  rw [UInt16.toNat_and, toNat_shiftLeft_eight]
  have hmask : (255 : UInt16).toNat = 2 ^ 8 - 1 := rfl
  rw [hmask, Nat.and_two_pow_sub_one_eq_mod, UInt16.toNat_zero]
  omega

theorem shiftLeft_eight_shiftLeft (crc : UInt16) : (crc <<< 8) <<< 12 = 0 := by
  apply UInt16.toNat_inj.1
  rw [UInt16.toNat_shiftLeft, toNat_shiftLeft_eight]
  have hshift : (12 : UInt16).toNat % 16 = 12 := rfl
  rw [hshift, Nat.shiftLeft_eq, UInt16.toNat_zero]
  omega

/-- A byte below a shifted word. -/
theorem or_shiftLeft_eight (h : UInt8) (crc : UInt16) :
    h.toUInt16 ||| (crc <<< 8) = (crc <<< 8) ^^^ h.toUInt16 := by
  have hshift : (8 : UInt16).toNat % 16 = 8 := rfl
  apply UInt16.toNat_inj.1
  rw [UInt16.toNat_or, UInt16.toNat_xor, UInt16.toNat_shiftLeft, hshift]
  apply Nat.eq_of_testBit_eq
  intro i
  simp only [Nat.testBit_or, Nat.testBit_xor, Nat.testBit_mod_two_pow, Nat.testBit_shiftLeft]
  by_cases hi : 8 ≤ i
  · have hlow : h.toUInt16.toNat.testBit i = false := by
      refine Nat.testBit_lt_two_pow (Nat.lt_of_lt_of_le h.toNat_lt ?_)
      exact Nat.pow_le_pow_right (by decide) hi
    rw [hlow, Bool.false_or, Bool.xor_false]
  · rw [decide_eq_false hi]
    simp

theorem toUInt8_shiftLeft_eight_xor (crc : UInt16) (h : UInt8) :
    (((crc <<< 8) ^^^ h.toUInt16) &&& 0xff).toUInt8 = h := by
  rw [UInt16.toUInt8_and, UInt16.toUInt8_xor, toUInt8_shiftLeft_eight, UInt8.zero_xor,
    UInt8.toUInt8_toUInt16]
  exact UInt8.and_neg_one

theorem shiftLeft_eight_xor_and (crc x : UInt16) :
    ((crc <<< 8) ^^^ x) &&& 0xff = x &&& 0xff := by
  apply UInt16.toNat_inj.1
  have hzero : (crc <<< 8).toNat &&& (255 : UInt16).toNat = 0 := by
    rw [← UInt16.toNat_and, shiftLeft_eight_and]
    rfl
  rw [UInt16.toNat_and, UInt16.toNat_xor, Nat.and_xor_distrib_right, hzero, Nat.zero_xor,
    UInt16.toNat_and]

/-! ## The table of `crcByte` -/

/-- `crcByte` shifts the checksum and looks up the byte that is shifted out. -/
theorem crcByte_eq (crc : UInt16) (b : UInt8) :
    crcByte crc b = (crc <<< 8) ^^^ crcTable ((crc >>> 8).toUInt8 ^^^ b) := by
  unfold crcByte crcTable
  dsimp only
  rw [or_shiftLeft_eight, UInt16.xor_assoc (crc <<< 8) (crc >>> 8).toUInt8.toUInt16 b.toUInt16,
    ← UInt8.toUInt16_xor]
  generalize (crc >>> 8).toUInt8 ^^^ b = h
  rw [toUInt8_shiftLeft_eight_xor, UInt16.xor_assoc (crc <<< 8) h.toUInt16 (h >>> 4).toUInt16]
  generalize h.toUInt16 ^^^ (h >>> 4).toUInt16 = x
  rw [UInt16.shiftLeft_xor, shiftLeft_eight_shiftLeft, UInt16.zero_xor,
    UInt16.xor_assoc (crc <<< 8) x (x <<< 12), shiftLeft_eight_xor_and, UInt16.xor_assoc]

/-! ## The table of `crc_byte` -/

theorem xor_cancel (a b c : UInt16) : (a ^^^ c) ^^^ (b ^^^ c) = a ^^^ b := by
  have hswap : (a ^^^ c) ^^^ (b ^^^ c) = (a ^^^ b) ^^^ (c ^^^ c) := by ac_rfl
  rw [hswap, UInt16.xor_self, UInt16.xor_zero]

theorem and_top (x : UInt16) : x &&& 0x8000 = 0 ∨ x &&& 0x8000 = 0x8000 := by
  have htop : (0x8000 : UInt16).toNat = 2 ^ 15 := rfl
  simp only [← UInt16.toNat_inj, UInt16.toNat_and, htop, Nat.and_two_pow]
  cases x.toNat.testBit 15
  · exact .inl rfl
  · exact .inr rfl

theorem and_top_xor (x y : UInt16) :
    (x ^^^ y) &&& 0x8000 = (x &&& 0x8000) ^^^ (y &&& 0x8000) := by
  apply UInt16.toNat_inj.1
  simp only [UInt16.toNat_and, UInt16.toNat_xor, Nat.and_xor_distrib_right]

theorem crcBit_top {x : UInt16} (h : x &&& 0x8000 = 0x8000) : crcBit x = (x <<< 1) ^^^ 0x1021 :=
  if_pos (by rw [h]; decide)

theorem crcBit_low {x : UInt16} (h : x &&& 0x8000 = 0) : crcBit x = x <<< 1 :=
  if_neg (not_not_intro h)

theorem crcBit_xor (x y : UInt16) : crcBit (x ^^^ y) = crcBit x ^^^ crcBit y := by
  have htop := and_top_xor x y
  rcases and_top x with hx | hx <;> rcases and_top y with hy | hy <;> rw [hx, hy] at htop
  · rw [crcBit_low htop, crcBit_low hx, crcBit_low hy, UInt16.shiftLeft_xor]
  · rw [crcBit_top htop, crcBit_low hx, crcBit_top hy, UInt16.shiftLeft_xor, UInt16.xor_assoc]
  · rw [crcBit_top htop, crcBit_top hx, crcBit_low hy, UInt16.shiftLeft_xor]
    ac_rfl
  · rw [crcBit_low htop, crcBit_top hx, crcBit_top hy, UInt16.shiftLeft_xor, xor_cancel]

theorem crcBits_xor (k : Nat) (x y : UInt16) : crcBits k (x ^^^ y) = crcBits k x ^^^ crcBits k y := by
  induction k generalizing x y with
  | zero => rfl
  | succ k ih => rw [crcBits, crcBit_xor, ih, crcBits, crcBits]

theorem crcTable_eq (h : UInt8) : crcBits 8 (h.toUInt16 <<< 8) = crcTable h := by
  obtain ⟨⟨⟨h, hlt⟩⟩⟩ := h
  revert h
  decide +kernel

theorem crcBits_low (l : UInt8) : crcBits 8 l.toUInt16 = l.toUInt16 <<< 8 := by
  obtain ⟨⟨⟨l, hlt⟩⟩⟩ := l
  revert l
  decide +kernel

/-- A word is its upper byte above its lower byte. -/
theorem eq_bytes (crc : UInt16) :
    crc = ((crc >>> 8).toUInt8.toUInt16 <<< 8) ^^^ crc.toUInt8.toUInt16 := by
  have hshift : (8 : UInt16).toNat % 16 = 8 := rfl
  rw [← or_shiftLeft_eight]
  apply UInt16.toNat_inj.1
  rw [UInt16.toNat_or, toNat_shiftLeft_eight]
  simp only [UInt8.toNat_toUInt16, UInt16.toNat_toUInt8, UInt16.toNat_shiftRight, hshift]
  have hlt := crc.toNat_lt
  rw [Nat.shiftRight_eq_div_pow, Nat.or_comm, Nat.mod_eq_of_lt (by omega), Nat.mul_comm]
  rw [Nat.mod_eq_of_lt (by omega), ← Nat.two_pow_add_eq_or_of_lt (i := 8) (by omega)]
  omega

theorem crcByteSlow_eq (crc : UInt16) (b : UInt8) :
    crcByteSlow crc b = (crc <<< 8) ^^^ crcTable ((crc >>> 8).toUInt8 ^^^ b) := by
  have hlow : crc.toUInt8.toUInt16 <<< 8 = crc <<< 8 := by
    apply UInt16.toNat_inj.1
    rw [toNat_shiftLeft_eight, toNat_shiftLeft_eight, UInt8.toNat_toUInt16, UInt16.toNat_toUInt8]
    omega
  have hbytes : crc ^^^ (b.toUInt16 <<< 8) =
      (((crc >>> 8).toUInt8 ^^^ b).toUInt16 <<< 8) ^^^ crc.toUInt8.toUInt16 := by
    refine (congrArg (fun x => x ^^^ (b.toUInt16 <<< 8)) (eq_bytes crc)).trans ?_
    rw [UInt8.toUInt16_xor, UInt16.shiftLeft_xor]
    ac_rfl
  rw [crcByteSlow, hbytes, crcBits_xor, crcTable_eq, crcBits_low, hlow, UInt16.xor_comm]

/-- **The two checksums agree.** -/
theorem crcByteSlow_eq_crcByte : crcByteSlow = crcByte := by
  funext crc b
  rw [crcByteSlow_eq, crcByte_eq]

end Serial
