import Backip.Lowpan.Iphc

/-!
# What `bit_range_zero_p` tests

Its mask for the first byte has the bits in front of the range, and the loop over the whole bytes begins
with that byte. So it tests the range from the start of its first byte on (`bitRangeZeroP_iff`), and is
wrong exactly where the bits of that byte in front of the range are not zero and the range is
(`bitRangeZeroP_exact_iff`).
-/

set_option autoImplicit false

namespace Lowpan

/-- A bit of a buffer, the most significant bit of a byte first. -/
def bitAt (buf : List UInt8) (k : Nat) : Bool := (buf.getD (k / 8) 0).toBitVec.getMsbD (k % 8)

/-! ## Masks -/

/-- The mask of the first `r` bits of a byte. -/
theorem getMsbD_mask {r i : Nat} (hr : r < 8) (hi : i < 8) :
    (UInt8.ofNat (0xff <<< (8 - r))).toBitVec.getMsbD i = decide (i < r) := by
  have hall : ∀ r < 8, ∀ i < 8,
      (UInt8.ofNat (0xff <<< (8 - r))).toBitVec.getMsbD i = decide (i < r) := by decide
  exact hall r hr i hi

theorem byte_zero_iff (b : UInt8) : b = 0 ↔ ∀ i < 8, b.toBitVec.getMsbD i = false := by
  rw [← UInt8.toBitVec_inj]
  refine ⟨fun h i _ => by rw [h]; exact BitVec.getMsbD_zero, fun h => ?_⟩
  exact BitVec.eq_of_getMsbD_eq fun i hi => (h i hi).trans BitVec.getMsbD_zero.symm

theorem and_mask_iff {b : UInt8} {r : Nat} (hr : r < 8) :
    b &&& UInt8.ofNat (0xff <<< (8 - r)) = 0 ↔ ∀ i < r, b.toBitVec.getMsbD i = false := by
  rw [byte_zero_iff]
  constructor
  · intro h i hi
    have hbit := h i (by omega)
    rwa [UInt8.toBitVec_and, BitVec.getMsbD_and, getMsbD_mask hr (by omega), decide_eq_true hi,
      Bool.and_true] at hbit
  · intro h i hi
    rw [UInt8.toBitVec_and, BitVec.getMsbD_and, getMsbD_mask hr hi]
    by_cases hlt : i < r
    · rw [h i hlt, Bool.false_and]
    · rw [decide_eq_false hlt, Bool.and_false]

/-- The bytes from `i` to `j`. -/
theorem all_zero_iff {buf : List UInt8} {i j : Nat} :
    ((buf.take j).drop i).all (· == 0) = true ↔ ∀ n, i ≤ n → n < j → buf.getD n 0 = 0 := by
  rw [List.all_eq_true]
  constructor
  · intro h n hi hj
    by_cases hn : n < buf.length
    · rw [List.getD_eq_getElem _ _ hn]
      refine beq_iff_eq.1 (h _ (List.mem_iff_getElem.2 ⟨n - i, by simp; omega, ?_⟩))
      simp only [List.getElem_drop, List.getElem_take]
      congr 1
      omega
    · exact List.getD_eq_default _ _ (by omega)
  · intro h x hx
    obtain ⟨n, hn, rfl⟩ := List.mem_iff_getElem.1 hx
    simp only [List.length_drop, List.length_take] at hn
    have hzero := h (i + n) (by omega) (by omega)
    rw [List.getD_eq_getElem _ _ (by omega)] at hzero
    simpa using hzero

/-! ## The test -/

variable {buf : List UInt8} {start stop : Nat}

/-- The test is for the bits from the start of the first byte on. -/
theorem bitRangeZeroP_iff (h : start ≤ stop) :
    bitRangeZeroP buf start stop = true ↔
      ∀ k, 8 * (start / 8) ≤ k → k < stop → bitAt buf k = false := by
  simp only [bitRangeZeroP, Bool.and_eq_true, beq_iff_eq, and_mask_iff (Nat.mod_lt _ (by decide)),
    all_zero_iff]
  constructor
  · rintro ⟨⟨-, hend⟩, hbytes⟩ k hk hstop
    by_cases hlast : k / 8 = stop / 8
    · rw [bitAt, hlast]
      exact hend (k % 8) (by omega)
    · rw [bitAt, hbytes (k / 8) (by omega) (by omega)]
      exact BitVec.getMsbD_zero
  · intro hbits
    have hbit (n i : Nat) (hi : i < 8) (hn : start / 8 ≤ n) (hlt : 8 * n + i < stop) :
        (buf.getD n 0).toBitVec.getMsbD i = false := by
      have hk := hbits (8 * n + i) (by omega) hlt
      rwa [bitAt, show (8 * n + i) / 8 = n by omega, show (8 * n + i) % 8 = i by omega] at hk
    refine ⟨⟨fun i hi => ?_, fun i hi => ?_⟩, fun n hs he => ?_⟩
    · exact hbit _ i (by omega) (Nat.le_refl _) (by omega)
    · exact hbit _ i (by omega) (by omega) (by omega)
    · exact (byte_zero_iff _).2 fun i hi => hbit n i hi hs (by omega)

/-- **`bit_range_zero_p` is exact** if the bits in front of the range, in its first byte, are zero or the
range has a bit that is set, and only then. -/
theorem bitRangeZeroP_exact_iff (h : start ≤ stop) (_hlen : stop ≤ 8 * buf.length) :
    (bitRangeZeroP buf start stop = true ↔ ∀ k, start ≤ k → k < stop → bitAt buf k = false) ↔
      (∀ k, 8 * (start / 8) ≤ k → k < start → bitAt buf k = false) ∨
        ∃ k, start ≤ k ∧ k < stop ∧ bitAt buf k = true := by
  rw [bitRangeZeroP_iff h]
  constructor
  · intro hexact
    by_cases hzero : ∀ k, start ≤ k → k < stop → bitAt buf k = false
    · exact .inl fun k hk hstart => hexact.2 hzero k hk (by omega)
    · simp only [not_forall, Bool.not_eq_false] at hzero
      obtain ⟨k, hk, hstop, hset⟩ := hzero
      exact .inr ⟨k, hk, hstop, hset⟩
  · rintro (hfront | ⟨k, hk, hstop, hset⟩)
    · refine ⟨fun hbits k hk => hbits k (by omega), fun hrange k hk hstop => ?_⟩
      by_cases hlt : k < start
      · exact hfront k hk hlt
      · exact hrange k (by omega) hstop
    · refine iff_of_false (fun hbits => ?_) fun hrange => ?_
      · cases hset.symm.trans (hbits k (by omega) hstop)
      · cases hset.symm.trans (hrange k hk hstop)

/-- A range that begins inside a byte of zeros. -/
theorem bitRangeZeroP_exact_zero : bitRangeZeroP [0x00, 0x40] 4 9 = true ↔
    ∀ k, 4 ≤ k → k < 9 → bitAt [0x00, 0x40] k = false :=
  (bitRangeZeroP_exact_iff (by decide) (by decide)).2 (.inl fun k _ hk => by
    have hall : ∀ k < 4, bitAt [0x00, 0x40] k = false := by decide
    exact hall k hk)

/-- The bit that is set is in front of the range. -/
theorem bitRangeZeroP_front : bitRangeZeroP [0x80] 4 8 = false ∧
    ∀ k, 4 ≤ k → k < 8 → bitAt [0x80] k = false := by
  have hall : ∀ k < 8, 4 ≤ k → bitAt [0x80] k = false := by decide
  exact ⟨by decide, fun k hk hlt => hall k hlt hk⟩

end Lowpan
