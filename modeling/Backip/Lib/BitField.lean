import Mathlib

/-!
# Bit fields in a list of bytes

The bits of a list of bytes are counted from the low end of each byte (`bitLe`) or from the high end
(`bitBe`). A byte is stored with `set`: `bitLe_set` and `bitBe_set` say what becomes of the bits, and
`bitLe_at` and `bitBe_at` which bit of which byte one is.
-/

set_option autoImplicit false

namespace BitField

abbrev Byte : Type := BitVec 8

variable (data : List Byte)

/-- Bit `i`, counted from the low end of its byte. -/
def bitLe (i : Nat) : Bool := (data.getD (i / 8) 0).getLsbD (i % 8)

/-- Bit `i`, counted from the high end of its byte. -/
def bitBe (i : Nat) : Bool := (data.getD (i / 8) 0).getLsbD (7 - i % 8)

variable {data}

theorem bitLe_at {b i j : Nat} (hat : i = 8 * b + j) (hj : j < 8) :
    bitLe data i = (data.getD b 0).getLsbD j := by
  rw [bitLe, show i / 8 = b by omega, show i % 8 = j by omega]

theorem bitBe_at {b i j : Nat} (hat : i + j = 8 * b + 7) (hj : j < 8) :
    bitBe data i = (data.getD b 0).getLsbD j := by
  rw [bitBe, show i / 8 = b by omega, show 7 - i % 8 = j by omega]

theorem getD_set {b : Nat} (hb : b < data.length) (v : Byte) (j : Nat) :
    (data.set b v).getD j 0 = if j = b then v else data.getD j 0 := by
  rw [List.getD_eq_getElem?_getD, List.getElem?_set]
  by_cases hj : j = b
  · subst hj
    simp [hb]
  · rw [if_neg (Ne.symm hj), if_neg hj, List.getD_eq_getElem?_getD]

theorem bitLe_set {b : Nat} (hb : b < data.length) (v : Byte) (i : Nat) :
    bitLe (data.set b v) i = if i / 8 = b then v.getLsbD (i % 8) else bitLe data i := by
  rw [bitLe, getD_set hb]
  split <;> rfl

theorem bitBe_set {b : Nat} (hb : b < data.length) (v : Byte) (i : Nat) :
    bitBe (data.set b v) i = if i / 8 = b then v.getLsbD (7 - i % 8) else bitBe data i := by
  rw [bitBe, getD_set hb]
  split <;> rfl

/-! ## Masks -/

/-- The lowest bits of a word. -/
def lowMask (length : Nat) : BitVec 64 := 1#64 <<< length - 1#64

theorem getLsbD_lowMask {length : Nat} (h : length ≤ 8) (k : Nat) :
    (lowMask length).getLsbD k = decide (k < length) := by
  have hn : (lowMask length).toNat = 2 ^ length - 1 := by
    interval_cases length <;> rfl
  rw [BitVec.getLsbD, hn, Nat.testBit_two_pow_sub_one]

/-- The lowest bits of a number, and nothing else. -/
def low (length : Nat) (x : BitVec 64) : BitVec 64 := (x.setWidth length).setWidth 64

theorem getLsbD_low (length : Nat) (x : BitVec 64) (k : Nat) :
    (low length x).getLsbD k = (decide (k < length) && x.getLsbD k) := by
  rw [low, BitVec.getLsbD_setWidth, BitVec.getLsbD_setWidth]
  by_cases hk : k < 64
  · rw [decide_eq_true hk, Bool.true_and]
  · rw [BitVec.getLsbD_of_ge x k (by omega), Bool.and_false, Bool.and_false]

end BitField
