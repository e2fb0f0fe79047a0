/-!
# Network byte order (`support/sdk/c/blip/lib6lowpan/nwbyte.h`)

The bytes of a word as they stand in a packet, and the word that bytes make.
-/

set_option autoImplicit false

/-- The bytes of a 16-bit word in network order. -/
def UInt16.netBytes (x : UInt16) : List UInt8 := [(x >>> 8).toUInt8, x.toUInt8]

/-- The bytes of a 32-bit word in network order. -/
def UInt32.netBytes (x : UInt32) : List UInt8 :=
  [(x >>> 24).toUInt8, (x >>> 16).toUInt8, (x >>> 8).toUInt8, x.toUInt8]

/-- The 16-bit word of two bytes in network order. -/
def ntohs (hi lo : UInt8) : UInt16 := hi.toUInt16 <<< 8 ||| lo.toUInt16

@[simp] theorem UInt16.length_netBytes (x : UInt16) : x.netBytes.length = 2 := rfl

@[simp] theorem UInt32.length_netBytes (x : UInt32) : x.netBytes.length = 4 := rfl

@[simp] theorem ntohs_netBytes (x : UInt16) : ntohs (x >>> 8).toUInt8 x.toUInt8 = x := by
  apply UInt16.toBitVec_inj.1
  apply BitVec.eq_of_getLsbD_eq
  intro i hi
  have hback : ∀ k, k ≤ i → k + (i - k) = i := fun k hk => by omega
  simp [ntohs, -UInt16.toUInt16_toUInt8]
  grind

@[simp] theorem netBytes_ntohs (hi lo : UInt8) : (ntohs hi lo).netBytes = [hi, lo] := by
  have hhi : (ntohs hi lo >>> 8).toUInt8 = hi := by
    apply UInt8.toBitVec_inj.1
    apply BitVec.eq_of_getLsbD_eq
    intro i hlt
    simp [ntohs, UInt16.toBitVec_toUInt8]
    grind
  have hlo : (ntohs hi lo).toUInt8 = lo := by
    apply UInt8.toBitVec_inj.1
    apply BitVec.eq_of_getLsbD_eq
    intro i hlt
    simp [ntohs, UInt16.toBitVec_toUInt8]
  rw [UInt16.netBytes, hhi, hlo]

theorem ntohs_eq_iff {hi lo hi' lo' : UInt8} :
    ntohs hi lo = ntohs hi' lo' ↔ hi = hi' ∧ lo = lo' := by
  constructor
  · intro h
    have hbytes := congrArg UInt16.netBytes h
    simpa only [netBytes_ntohs, List.cons.injEq, and_true] using hbytes
  · rintro ⟨rfl, rfl⟩
    rfl

theorem ntohs_and (hi lo m n : UInt8) :
    ntohs (hi &&& m) (lo &&& n) = ntohs hi lo &&& ntohs m n := by
  apply UInt16.toBitVec_inj.1
  apply BitVec.eq_of_getLsbD_eq
  intro i hlt
  have hlo : lo.toBitVec.getLsbD i = true → i < 8 := BitVec.lt_of_getLsbD
  have hn : n.toBitVec.getLsbD i = true → i < 8 := BitVec.lt_of_getLsbD
  simp [ntohs]
  grind

theorem toNat_ntohs (hi lo : UInt8) : (ntohs hi lo).toNat = hi.toNat * 256 + lo.toNat := by
  have hhi := hi.toNat_lt
  have hlo := lo.toNat_lt
  have hshift : (hi.toUInt16 <<< 8).toNat = hi.toNat <<< 8 := by
    rw [UInt16.toNat_shiftLeft, UInt8.toNat_toUInt16]
    apply Nat.mod_eq_of_lt
    rw [show (8 : UInt16).toNat % 16 = 8 from rfl, Nat.shiftLeft_eq]
    omega
  rw [ntohs, UInt16.toNat_or, hshift, UInt8.toNat_toUInt16, ← Nat.shiftLeft_add_eq_or_of_lt hlo,
    Nat.shiftLeft_eq]

/-! ## Words that stand in memory in network order -/

/-- `htons` and `ntohs` of a number: the mote is little-endian. -/
def htons (x : UInt16) : UInt16 := x <<< 8 ||| x >>> 8

/-- A number in the memory of the mote. -/
def UInt16.memBytes (x : UInt16) : List UInt8 := [x.toUInt8, (x >>> 8).toUInt8]

theorem toNat_htons (x : UInt16) : (htons x).toNat = x.toNat % 256 * 256 + x.toNat / 256 := by
  have hx := x.toNat_lt
  have hhi : (x <<< 8).toNat = (x.toNat % 256) <<< 8 := by
    rw [UInt16.toNat_shiftLeft, show (8 : UInt16).toNat % 16 = 8 from rfl, Nat.shiftLeft_eq,
      Nat.shiftLeft_eq]
    omega
  have hlo : (x >>> 8).toNat = x.toNat / 256 := by
    rw [UInt16.toNat_shiftRight, show (8 : UInt16).toNat % 16 = 8 from rfl,
      Nat.shiftRight_eq_div_pow]
  rw [htons, UInt16.toNat_or, hhi, hlo, ← Nat.shiftLeft_add_eq_or_of_lt (by omega),
    Nat.shiftLeft_eq]

/-- A word in network order, in memory. -/
theorem memBytes_htons (x : UInt16) : (htons x).memBytes = x.netBytes := by
  have hx := x.toNat_lt
  have hlo : (htons x).toUInt8 = (x >>> 8).toUInt8 := by
    apply UInt8.toNat_inj.1
    rw [UInt16.toNat_toUInt8, UInt16.toNat_toUInt8, toNat_htons, UInt16.toNat_shiftRight,
      show (8 : UInt16).toNat % 16 = 8 from rfl, Nat.shiftRight_eq_div_pow]
    omega
  have hdiv : (x.toNat % 256 * 256 + x.toNat / 256) / 2 ^ 8 = x.toNat % 256 :=
    Nat.div_eq_of_lt_le (by omega) (by omega)
  have hhi : (htons x >>> 8).toUInt8 = x.toUInt8 := by
    apply UInt8.toNat_inj.1
    rw [UInt16.toNat_toUInt8, UInt16.toNat_toUInt8, UInt16.toNat_shiftRight, toNat_htons,
      show (8 : UInt16).toNat % 16 = 8 from rfl, Nat.shiftRight_eq_div_pow, hdiv, Nat.mod_mod]
  rw [UInt16.memBytes, UInt16.netBytes, hlo, hhi]

@[simp] theorem htons_htons (x : UInt16) : htons (htons x) = x := by
  have hx := x.toNat_lt
  apply UInt16.toNat_inj.1
  rw [toNat_htons, toNat_htons]
  omega

theorem htons_inj {x y : UInt16} (h : htons x = htons y) : x = y := by
  rw [← htons_htons x, h, htons_htons]

/-- The 32-bit word of four bytes in network order. -/
def word32 (b₀ b₁ b₂ b₃ : UInt8) : UInt32 :=
  (b₀.toUInt32 <<< 24) ||| (b₁.toUInt32 <<< 16) ||| (b₂.toUInt32 <<< 8) ||| b₃.toUInt32

theorem word32_netBytes (x : UInt32) :
    word32 (x >>> 24).toUInt8 (x >>> 16).toUInt8 (x >>> 8).toUInt8 x.toUInt8 = x := by
  apply UInt32.toBitVec_inj.1
  apply BitVec.eq_of_getLsbD_eq
  intro i hi
  have hback : ∀ k, k ≤ i → k + (i - k) = i := fun k hk => by omega
  simp [word32, -UInt32.toUInt32_toUInt8]
  grind

theorem netBytes_word32 (b₀ b₁ b₂ b₃ : UInt8) :
    (word32 b₀ b₁ b₂ b₃).netBytes = [b₀, b₁, b₂, b₃] := by
  have h₀ : (word32 b₀ b₁ b₂ b₃ >>> 24).toUInt8 = b₀ := by
    apply UInt8.toBitVec_inj.1
    apply BitVec.eq_of_getLsbD_eq
    intro i hi
    simp [word32, UInt32.toBitVec_toUInt8]
    grind
  have h₁ : (word32 b₀ b₁ b₂ b₃ >>> 16).toUInt8 = b₁ := by
    apply UInt8.toBitVec_inj.1
    apply BitVec.eq_of_getLsbD_eq
    intro i hi
    simp [word32, UInt32.toBitVec_toUInt8]
    grind
  have h₂ : (word32 b₀ b₁ b₂ b₃ >>> 8).toUInt8 = b₂ := by
    apply UInt8.toBitVec_inj.1
    apply BitVec.eq_of_getLsbD_eq
    intro i hi
    simp [word32, UInt32.toBitVec_toUInt8]
    grind
  have h₃ : (word32 b₀ b₁ b₂ b₃).toUInt8 = b₃ := by
    apply UInt8.toBitVec_inj.1
    apply BitVec.eq_of_getLsbD_eq
    intro i hi
    simp [word32, UInt32.toBitVec_toUInt8]
  rw [UInt32.netBytes, h₀, h₁, h₂, h₃]
