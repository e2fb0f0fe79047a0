import Mathlib

/-!
# Numbers in CoAP options (`support/sdk/c/coap/encode.c`, `encode.h`)

An unsigned number is sent as its bytes in big-endian order (`encodeVarBytes`), a duration as an 8-bit
floating point number with a mantissa and an exponent of four bits each (`encodeDown`, `encodeUp`).
`decode_encodeVarBytes` says that the bytes are as few as possible, `encodeDown_greatest` and
`encodeUp_least` that the durations are the closest ones on either side.
-/

set_option autoImplicit false

namespace Coap

/-- The loop of `coap_fls`. -/
def flsLoop (i n : Nat) : Nat := if i = 0 then n else flsLoop (i >>> 1) (n + 1)
termination_by i
decreasing_by
  rw [Nat.shiftRight_eq_div_pow]
  omega

/-- `coap_fls`: the number of bits. -/
def fls (i : Nat) : Nat := flsLoop i 0

/-! ## Bytes -/

/-- `coap_decode_var_bytes`. -/
def decodeVarBytes (buf : List (BitVec 8)) : Nat :=
  buf.foldl (fun n b => ((n <<< 8) + b.toNat) % 2 ^ 32) 0

/-- The loop of `coap_encode_var_bytes` that fills the buffer from its end. -/
def fillVarBytes : Nat → Nat → List (BitVec 8) → List (BitVec 8)
  | 0, _, buf => buf
  | i + 1, val, buf => fillVarBytes i (val >>> 8) (BitVec.ofNat 8 val :: buf)

/-- `coap_encode_var_bytes`: the bytes it writes. -/
def encodeVarBytes (val : Nat) : List (BitVec 8) :=
  fillVarBytes (fls (val >>> 1) / 8 + 1) val []

/-! ## Floating point -/

def hibit : Nat := 128

/-- `MMASK`. -/
def mmask : Nat := 240

/-- `MAX_VALUE`. -/
def maxValue : Nat := (2 ^ 8 - 2 ^ 4) * 2 ^ 15

/-- `COAP_PSEUDOFP_DECODE_8_4`. -/
def decodeFp (r : Nat) : Nat := if r < hibit then r else (r &&& mmask) <<< (r &&& 15)

/-- `COAP_PSEUDOFP_ENCODE_8_4_DOWN`. -/
def encodeDown (v : Nat) : Nat :=
  if v < hibit then v
  else
    let ls := fls v - 8
    ((v >>> ls) &&& mmask) + ls

/-- `COAP_PSEUDOFP_ENCODE_8_4_UP`. -/
def encodeUp (v : Nat) : Nat :=
  if v < hibit then v
  else
    let ls := fls v - 8
    let s := (((v + (16 <<< ls - 1)) % 2 ^ 32) >>> ls) &&& mmask
    if s = 0 then hibit + ls + 1 else s + ls

/-! ## The number of bits -/

theorem flsLoop_spec (i n : Nat) :
    ∃ k, flsLoop i n = n + k ∧ i < 2 ^ k ∧ (0 < i → 2 ^ k ≤ 2 * i) := by
  rw [flsLoop]
  by_cases hi : i = 0
  · exact ⟨0, by rw [if_pos hi]; rfl, by omega, fun h => absurd hi (by omega)⟩
  · have hhalf : i >>> 1 = i / 2 := Nat.shiftRight_eq_div_pow i 1
    rw [if_neg hi]
    obtain ⟨k, heq, hlt, hle⟩ := flsLoop_spec (i >>> 1) (n + 1)
    rw [hhalf] at hlt hle
    refine ⟨k + 1, by rw [heq]; omega, ?_, fun _ => ?_⟩
    · rw [Nat.pow_succ]
      omega
    · rw [Nat.pow_succ]
      rcases Nat.eq_zero_or_pos (i / 2) with hzero | hpos
      -- the last bit
      · have hk : k = 0 := by
          rw [hhalf, hzero, flsLoop, if_pos rfl] at heq
          omega
        rw [hk]
        omega
      · have := hle hpos
        omega
termination_by i
decreasing_by
  rw [Nat.shiftRight_eq_div_pow]
  omega

theorem lt_two_pow_fls (i : Nat) : i < 2 ^ fls i := by
  obtain ⟨k, heq, hlt, _⟩ := flsLoop_spec i 0
  rw [fls, heq, Nat.zero_add]
  exact hlt

theorem two_pow_fls_le {i : Nat} (hi : 0 < i) : 2 ^ fls i ≤ 2 * i := by
  obtain ⟨k, heq, _, hle⟩ := flsLoop_spec i 0
  rw [fls, heq, Nat.zero_add]
  exact hle hi

/-! ## The shortest bytes -/

theorem length_fillVarBytes (n val : Nat) (buf : List (BitVec 8)) :
    (fillVarBytes n val buf).length = n + buf.length := by
  induction n generalizing val buf with
  | zero => exact (Nat.zero_add _).symm
  | succ n ih =>
    rw [fillVarBytes, ih, List.length_cons]
    omega

/-- The number that bytes are, without a bound. -/
def bytesValue (buf : List (BitVec 8)) : Nat := buf.foldl (fun n b => n * 256 + b.toNat) 0

theorem foldl_bytesValue (buf : List (BitVec 8)) (n : Nat) :
    buf.foldl (fun n b => n * 256 + b.toNat) n = n * 256 ^ buf.length + bytesValue buf := by
  induction buf generalizing n with
  | nil => rw [List.foldl_nil, List.length_nil, Nat.pow_zero, Nat.mul_one]; rfl
  | cons b buf ih =>
    rw [bytesValue, List.foldl_cons, List.foldl_cons, ih, ih (0 * 256 + _), List.length_cons,
      Nat.pow_succ]
    ring

theorem bytesValue_cons (b : BitVec 8) (buf : List (BitVec 8)) :
    bytesValue (b :: buf) = b.toNat * 256 ^ buf.length + bytesValue buf := by
  rw [bytesValue, List.foldl_cons, foldl_bytesValue, Nat.zero_mul, Nat.zero_add]

theorem bytesValue_lt (buf : List (BitVec 8)) : bytesValue buf < 256 ^ buf.length := by
  induction buf with
  | nil => exact Nat.one_pos
  | cons b buf ih =>
    rw [bytesValue_cons, List.length_cons, Nat.pow_succ]
    have hb : b.toNat ≤ 255 := by have := b.isLt; omega
    have := Nat.mul_le_mul_right (256 ^ buf.length) hb
    omega

theorem decodeVarBytes_eq (buf : List (BitVec 8)) :
    decodeVarBytes buf = bytesValue buf % 2 ^ 32 := by
  have key : ∀ n m : Nat, n % 2 ^ 32 = m % 2 ^ 32 →
      buf.foldl (fun n b => ((n <<< 8) + b.toNat) % 2 ^ 32) n % 2 ^ 32 =
        buf.foldl (fun n b => n * 256 + b.toNat) m % 2 ^ 32 := by
    induction buf with
    | nil => exact fun _ _ h => h
    | cons b buf ih =>
      intro n m h
      refine ih _ _ ?_
      dsimp only
      rw [Nat.shiftLeft_eq]
      omega
  have hlt : decodeVarBytes buf % 2 ^ 32 = decodeVarBytes buf := by
    rcases List.eq_nil_or_concat buf with rfl | ⟨buf, b, rfl⟩
    · rfl
    · rw [decodeVarBytes, List.concat_eq_append, List.foldl_append, List.foldl_cons, List.foldl_nil,
        Nat.mod_mod]
  rw [← hlt]
  exact key 0 0 rfl

theorem bytesValue_fill (n val : Nat) (buf : List (BitVec 8)) :
    bytesValue (fillVarBytes n val buf) =
      val % 256 ^ n * 256 ^ buf.length + bytesValue buf := by
  induction n generalizing val buf with
  | zero => rw [fillVarBytes, Nat.pow_zero, Nat.mod_one, Nat.zero_mul, Nat.zero_add]
  | succ n ih =>
    have hval : val % 256 ^ (n + 1) = val / 256 % 256 ^ n * 256 + val % 256 := by
      rw [Nat.pow_succ, Nat.mul_comm, Nat.mod_mul]
      ring
    rw [fillVarBytes, ih, bytesValue_cons, List.length_cons, Nat.shiftRight_eq_div_pow, hval,
      BitVec.toNat_ofNat, Nat.pow_succ]
    ring

/-- How many bytes a number takes. -/
theorem length_encodeVarBytes (val : Nat) : ∃ n, (encodeVarBytes val).length = n + 1 ∧
    val < 256 ^ (n + 1) ∧ (0 < n → 256 ^ n ≤ val) := by
  have hhalf : val >>> 1 = val / 2 := Nat.shiftRight_eq_div_pow val 1
  have hlt := lt_two_pow_fls (val >>> 1)
  refine ⟨fls (val >>> 1) / 8, length_fillVarBytes _ _ _, ?_, fun hn => ?_⟩
  · have hpow : 2 ^ (fls (val >>> 1) + 1) ≤ 2 ^ (8 * (fls (val >>> 1) / 8 + 1)) :=
      Nat.pow_le_pow_right (by decide) (by omega)
    rw [Nat.pow_mul, show 2 ^ 8 = 256 from rfl, Nat.pow_succ] at hpow
    rw [hhalf] at hlt hpow ⊢
    omega
  · have hpos : 0 < val >>> 1 := by
      rcases Nat.eq_zero_or_pos (val >>> 1) with hzero | hpos
      · rw [hzero, fls, flsLoop, if_pos rfl] at hn
        cases hn
      · exact hpos
    have hle := two_pow_fls_le hpos
    have hpow : 2 ^ (8 * (fls (val >>> 1) / 8)) ≤ 2 ^ fls (val >>> 1) :=
      Nat.pow_le_pow_right (by decide) (by omega)
    rw [Nat.pow_mul, show 2 ^ 8 = 256 from rfl] at hpow
    rw [hhalf] at hle hpow ⊢
    omega

/-- The bytes of a number give it back, and no other bytes that do are fewer. -/
theorem decode_encodeVarBytes (val : Nat) (hval : val < 2 ^ 32) :
    decodeVarBytes (encodeVarBytes val) = val ∧ (encodeVarBytes val).length ≤ 4 ∧
      ∀ buf, buf ≠ [] → decodeVarBytes buf = val → (encodeVarBytes val).length ≤ buf.length := by
  obtain ⟨n, hlen, hlt, hle⟩ := length_encodeVarBytes val
  refine ⟨?_, ?_, fun buf hbuf hdecode => ?_⟩
  · have hvalue : bytesValue (encodeVarBytes val) = val := by
      rw [encodeVarBytes, length_fillVarBytes, List.length_nil, Nat.add_zero] at hlen
      rw [encodeVarBytes, bytesValue_fill, hlen, Nat.mod_eq_of_lt hlt, List.length_nil, Nat.pow_zero,
        Nat.mul_one]
      rfl
    rw [decodeVarBytes_eq, hvalue, Nat.mod_eq_of_lt hval]
  · rw [hlen]
    refine Nat.lt_of_not_le fun hn : 4 ≤ n => ?_
    have hpow : 256 ^ 4 ≤ 256 ^ n := Nat.pow_le_pow_right (by decide) hn
    have := hle (by omega)
    omega
  · rw [hlen]
    rcases Nat.eq_zero_or_pos n with rfl | hn
    · exact List.length_pos_iff.2 hbuf
    · have hvalue : val ≤ bytesValue buf := by
        rw [decodeVarBytes_eq] at hdecode
        exact hdecode ▸ Nat.mod_le _ _
      have hpow : 256 ^ n < 256 ^ buf.length := by
        have := bytesValue_lt buf
        have := hle hn
        omega
      exact (Nat.pow_lt_pow_iff_right (by decide)).1 hpow

theorem decode_encodeVarBytes_two : decodeVarBytes (encodeVarBytes 300) = 300 ∧
    (encodeVarBytes 300).length ≤ 4 ∧ ∀ buf, buf ≠ [] → decodeVarBytes buf = 300 →
      (encodeVarBytes 300).length ≤ buf.length :=
  decode_encodeVarBytes 300 (by decide)

/-! ## The closest duration -/

theorem and_mmask (x : Nat) : x &&& mmask = 16 * (x / 16 % 16) := by
  have hmask : mmask = (2 ^ 4 - 1) <<< 4 := rfl
  have hright : 16 * (x / 16 % 16) = (x / 2 ^ 4 % 2 ^ 4) <<< 4 := by
    rw [Nat.shiftLeft_eq]
    omega
  rw [hmask, hright]
  refine Nat.eq_of_testBit_eq fun i => ?_
  rw [Nat.testBit_and, Nat.testBit_shiftLeft, Nat.testBit_two_pow_sub_one, Nat.testBit_shiftLeft,
    Nat.testBit_mod_two_pow, Nat.testBit_div_two_pow]
  by_cases hi : 4 ≤ i
  · rw [decide_eq_true hi, Bool.true_and, Bool.true_and, Nat.sub_add_cancel hi, Bool.and_comm]
  · rw [decide_eq_false hi, Bool.false_and, Bool.false_and, Bool.and_false]

/-- A duration of mantissa `m` and exponent `e`. -/
theorem decodeFp_eq {m e : Nat} (hm : 8 ≤ m) (hlt : m < 16) (he : e < 16) :
    decodeFp (16 * m + e) = 16 * m * 2 ^ e := by
  have hlow : (16 * m + e) &&& 15 = e := by
    rw [show 15 = 2 ^ 4 - 1 from rfl, Nat.and_two_pow_sub_one_eq_mod]
    omega
  have hhigh : (16 * m + e) / 16 % 16 = m := by omega
  rw [decodeFp, hibit, if_neg (by omega), and_mmask, hlow, hhigh, Nat.shiftLeft_eq]

/-- A code is its own duration or has a mantissa and an exponent. -/
theorem decodeFp_cases {r : Nat} (hr : r < 256) :
    (r < hibit ∧ decodeFp r = r) ∨
      ∃ m e, 8 ≤ m ∧ m < 16 ∧ e < 16 ∧ r = 16 * m + e ∧ decodeFp r = 16 * m * 2 ^ e := by
  by_cases hlow : r < hibit
  · exact .inl ⟨hlow, if_pos hlow⟩
  · have hcode : r = 16 * (r / 16) + r % 16 := by omega
    have hge : 128 ≤ r := Nat.le_of_not_lt hlow
    refine .inr ⟨r / 16, r % 16, by omega, by omega, by omega, hcode, ?_⟩
    have hdecode := decodeFp_eq (m := r / 16) (e := r % 16) (by omega) (by omega) (by omega)
    rw [← hcode] at hdecode
    exact hdecode

/-- The exponent of a number, and where the number lies. -/
theorem exponent_spec {v : Nat} (hv : hibit ≤ v) :
    ∃ ls, fls v - 8 = ls ∧ 128 * 2 ^ ls ≤ v ∧ v < 256 * 2 ^ ls := by
  have hlt := lt_two_pow_fls v
  have hge : 128 ≤ v := hv
  have hle := two_pow_fls_le (i := v) (by omega)
  have hfls : 8 ≤ fls v := by
    refine Nat.le_of_not_lt fun hfew => ?_
    have hpow : 2 ^ fls v ≤ 2 ^ 7 := Nat.pow_le_pow_right (by decide) (by omega)
    omega
  have hpow : 2 ^ fls v = 256 * 2 ^ (fls v - 8) := by
    conv => lhs; rw [show fls v = 8 + (fls v - 8) by omega, Nat.pow_add]
  refine ⟨_, rfl, ?_, ?_⟩
  · omega
  · omega

/-- Durations of a smaller exponent are smaller, of a greater one greater. -/
theorem exponent_lt {m e ls : Nat} (hm : m < 16) (h : e < ls) : 16 * m * 2 ^ e ≤ 120 * 2 ^ ls := by
  have hpow : 2 ^ (e + 1) ≤ 2 ^ ls := Nat.pow_le_pow_right (by decide) h
  have hmul : 16 * m * 2 ^ e ≤ 240 * 2 ^ e := Nat.mul_le_mul_right _ (by omega)
  rw [Nat.pow_succ] at hpow
  omega

theorem exponent_gt {m e ls : Nat} (hm : 8 ≤ m) (h : ls < e) : 256 * 2 ^ ls ≤ 16 * m * 2 ^ e := by
  have hpow : 2 ^ (ls + 1) ≤ 2 ^ e := Nat.pow_le_pow_right (by decide) h
  have hmul : 128 * 2 ^ e ≤ 16 * m * 2 ^ e := Nat.mul_le_mul_right _ (by omega)
  rw [Nat.pow_succ] at hpow
  omega

/-- A number of at most 23 bits has an exponent of four bits. -/
theorem exponent_lt_sixteen {v ls : Nat} (hv : v < 2 ^ 23) (hle : 128 * 2 ^ ls ≤ v) : ls < 16 := by
  refine Nat.lt_of_not_le fun hge => ?_
  have hpow : 2 ^ 16 ≤ 2 ^ ls := Nat.pow_le_pow_right (by decide) hge
  omega

/-- Rounding down: the code stands for the longest duration that is not longer. -/
theorem encodeDown_greatest (v : Nat) (hv : v < 2 ^ 23) :
    encodeDown v < 256 ∧ decodeFp (encodeDown v) ≤ v ∧
      ∀ r < 256, decodeFp r ≤ v → decodeFp r ≤ decodeFp (encodeDown v) := by
  by_cases hlow : v < hibit
  · have hcode : encodeDown v = v := if_pos hlow
    have hdecode : decodeFp v = v := if_pos hlow
    rw [hcode, hdecode]
    exact ⟨hlow.trans (by decide), Nat.le_refl _, fun _ _ h => h⟩
  · obtain ⟨ls, hls, hge, hlt⟩ := exponent_spec (Nat.le_of_not_lt hlow)
    have hls16 := exponent_lt_sixteen hv hge
    have hpos : 0 < 2 ^ ls := Nat.two_pow_pos ls
    have hq : v / 2 ^ ls < 256 := Nat.div_lt_of_lt_mul (by rw [Nat.mul_comm]; exact hlt)
    have hq' : 128 ≤ v / 2 ^ ls := (Nat.le_div_iff_mul_le hpos).2 hge
    have hcode : encodeDown v = 16 * (v / 2 ^ ls / 16) + ls := by
      rw [encodeDown, if_neg hlow, hls]
      dsimp only
      rw [Nat.shiftRight_eq_div_pow, and_mmask, Nat.mod_eq_of_lt (by omega)]
    have hdecode := decodeFp_eq (m := v / 2 ^ ls / 16) (e := ls) (by omega) (by omega) hls16
    rw [← hcode] at hdecode
    rw [hdecode]
    refine ⟨by omega, ?_, fun r hr hrv => ?_⟩
    · exact (Nat.mul_le_mul_right _ (by omega)).trans (Nat.div_mul_le_self v (2 ^ ls))
    · have hmin : 128 * 2 ^ ls ≤ 16 * (v / 2 ^ ls / 16) * 2 ^ ls :=
        Nat.mul_le_mul_right _ (by omega)
      rcases decodeFp_cases hr with ⟨hsmall, heq⟩ | ⟨m, e, hm, hm', _, _, heq⟩
      · have : r < 128 := hsmall
        omega
      · rw [heq] at hrv ⊢
        rcases Nat.lt_trichotomy e ls with hlt' | rfl | hgt
        · have := exponent_lt hm' hlt'
          omega
        · have hle : 16 * m ≤ v / 2 ^ e := (Nat.le_div_iff_mul_le hpos).2 hrv
          exact Nat.mul_le_mul_right _ (by omega)
        · have := exponent_gt hm hgt
          omega

theorem encodeDown_greatest_hour : encodeDown 3600 < 256 ∧ decodeFp (encodeDown 3600) ≤ 3600 ∧
    ∀ r < 256, decodeFp r ≤ 3600 → decodeFp r ≤ decodeFp (encodeDown 3600) :=
  encodeDown_greatest 3600 (by decide)

/-- The code for rounding up, from the mantissa rounded up: one more may be the next exponent. -/
theorem encodeUp_eq {v ls : Nat} (hlow : ¬ v < hibit) (hv : v ≤ maxValue) (hls : fls v - 8 = ls)
    (hge : 128 * 2 ^ ls ≤ v) (hlt : v < 256 * 2 ^ ls) :
    ∃ q ≤ 16, v ≤ 16 * q * 2 ^ ls ∧ (∀ m, v ≤ 16 * m * 2 ^ ls → q ≤ m) ∧
      encodeUp v < 256 ∧ decodeFp (encodeUp v) = 16 * q * 2 ^ ls := by
  have hpos : 0 < 2 ^ ls := Nat.two_pow_pos ls
  have hmax : maxValue = 240 * 2 ^ 15 := rfl
  have hls16 := exponent_lt_sixteen (v := v) (by omega) hge
  have hpow : 2 ^ ls ≤ 2 ^ 15 := Nat.pow_le_pow_right (by decide) (by omega)
  have hscale (m : Nat) : 16 * m * 2 ^ ls = m * (16 * 2 ^ ls) := by ring
  have hsucc (m : Nat) : (m + 1) * (16 * 2 ^ ls) = m * (16 * 2 ^ ls) + 16 * 2 ^ ls := by ring
  obtain ⟨x, hx⟩ : ∃ x, v + (16 * 2 ^ ls - 1) = x := ⟨_, rfl⟩
  obtain ⟨q, hq⟩ : ∃ q, x / (16 * 2 ^ ls) = q := ⟨_, rfl⟩
  have hqlt : x < (q + 1) * (16 * 2 ^ ls) := by
    rw [← hq, Nat.mul_comm]
    exact Nat.lt_mul_div_succ x (by omega)
  have hqge : 8 ≤ q := hq ▸ (Nat.le_div_iff_mul_le (by omega)).2 (by omega)
  have hqle : q ≤ 16 := by
    have : q < 17 := hq ▸ Nat.div_lt_of_lt_mul (by omega)
    omega
  have hleast (m : Nat) (hm : v ≤ 16 * m * 2 ^ ls) : q ≤ m := by
    have hlt : q < m + 1 := hq ▸ Nat.div_lt_of_lt_mul (by
      rw [Nat.mul_comm, hsucc, ← hscale]
      omega)
    exact Nat.le_of_lt_succ hlt
  have hround : v ≤ 16 * q * 2 ^ ls := by
    rw [hsucc] at hqlt
    rw [hscale]
    omega
  have hs : (((v + (16 <<< ls - 1)) % 2 ^ 32) >>> ls) &&& mmask = 16 * (q % 16) := by
    rw [Nat.shiftLeft_eq, hx, Nat.mod_eq_of_lt (by omega), Nat.shiftRight_eq_div_pow, and_mmask,
      Nat.div_div_eq_div_mul, Nat.mul_comm (2 ^ ls), hq]
  refine ⟨q, hqle, hround, hleast, ?_⟩
  rcases Nat.lt_or_ge q 16 with hsmall | hlarge
  · have hcode : encodeUp v = 16 * q + ls := by
      rw [encodeUp, if_neg hlow, hls]
      dsimp only
      rw [hs, Nat.mod_eq_of_lt hsmall, if_neg (by omega)]
    rw [hcode, decodeFp_eq hqge hsmall hls16]
    exact ⟨by omega, rfl⟩
  · obtain rfl : q = 16 := by omega
    have hls15 : ls < 15 := by
      rcases Nat.lt_or_ge ls 15 with h | h
      · exact h
      -- at the greatest exponent the mantissa is at most fifteen
      · obtain rfl : ls = 15 := by omega
        have := hleast 15 (by omega)
        omega
    have hcode : encodeUp v = 16 * 8 + (ls + 1) := by
      rw [encodeUp, if_neg hlow, hls]
      dsimp only
      rw [hs, if_pos rfl, hibit, Nat.add_assoc]
    rw [hcode, decodeFp_eq (by decide) (by decide) (by omega), Nat.pow_succ]
    exact ⟨by omega, by omega⟩

/-- Rounding up: the code stands for the shortest duration that is not shorter. -/
theorem encodeUp_least (v : Nat) (hv : v ≤ maxValue) :
    encodeUp v < 256 ∧ v ≤ decodeFp (encodeUp v) ∧
      ∀ r < 256, v ≤ decodeFp r → decodeFp (encodeUp v) ≤ decodeFp r := by
  by_cases hlow : v < hibit
  · have hcode : encodeUp v = v := if_pos hlow
    have hdecode : decodeFp v = v := if_pos hlow
    rw [hcode, hdecode]
    exact ⟨hlow.trans (by decide), Nat.le_refl _, fun _ _ h => h⟩
  · obtain ⟨ls, hls, hge, hlt⟩ := exponent_spec (Nat.le_of_not_lt hlow)
    obtain ⟨q, hq, hround, hleast, hcode, hdecode⟩ := encodeUp_eq hlow hv hls hge hlt
    rw [hdecode]
    refine ⟨hcode, hround, fun r hr hrv => ?_⟩
    rcases decodeFp_cases hr with ⟨hsmall, heq⟩ | ⟨m, e, hm, hm', _, _, heq⟩
    · exact absurd (heq ▸ hrv) (by omega)
    · rw [heq] at hrv ⊢
      rcases Nat.lt_trichotomy e ls with hlt' | rfl | hgt
      · have hsmall := exponent_lt hm' hlt'
        have hpos : 0 < 2 ^ ls := Nat.two_pow_pos ls
        omega
      · exact Nat.mul_le_mul_right _ (Nat.mul_le_mul_left _ (hleast m hrv))
      · have htop : 16 * q * 2 ^ ls ≤ 256 * 2 ^ ls := Nat.mul_le_mul_right _ (by omega)
        exact htop.trans (exponent_gt hm hgt)

theorem encodeUp_least_hour : encodeUp 3600 < 256 ∧ 3600 ≤ decodeFp (encodeUp 3600) ∧
    ∀ r < 256, 3600 ≤ decodeFp r → decodeFp (encodeUp 3600) ≤ decodeFp r :=
  encodeUp_least 3600 (by decide)

end Coap
