import Backip.Lowpan.Nhc
import Mathlib.Algebra.Group.Int.Defs
import Mathlib.Algebra.Group.Nat.Defs

/-!
# Header compression is lossless

Each field that `lib6lowpan.c` packs is unpacked from the bits and the bytes it was packed into
(`unpackTcfl_packTcfl`, `unpackAddress_packAddress`, `unpackMulticast_packMulticast`, ...), and the
dispatch keeps the bits of the fields apart (`dispatch_fields`, `dispatch1_fields`).
`lowpanUnpackHeaders_pack` puts the fields of the IPv6 header together, `lowpanUnpackHeaders_plain`
goes on over a UDP header and the payload.
-/

set_option autoImplicit false

namespace Lowpan

/-! ## Traffic class and flow label -/

/-- The bits of a mask of the low `k` bits. -/
theorem getLsbD_mask {w k : Nat} (hk : k ≤ w) (j : Nat) :
    (BitVec.ofNat w (2 ^ k - 1)).getLsbD j = decide (j < k) := by
  rw [BitVec.getLsbD_ofNat, Nat.testBit_two_pow_sub_one]
  grind

/-- ECN and DSCP change places and back. -/
theorem rotate_tc (tc : UInt8) :
    (tc >>> 2 ||| tc <<< 6) >>> 6 ||| (tc >>> 2 ||| tc <<< 6) <<< 2 = tc := by
  apply UInt8.toBitVec_inj.1
  apply BitVec.eq_of_getLsbD_eq
  intro i hi
  simp
  grind

theorem ecn_shiftRight {tc : UInt8} (htc : tc &&& 0x3 = tc) (fl : UInt8) :
    (tc <<< 6 ||| fl &&& 0x0f) >>> 6 = tc := by
  have h3 : ∀ j, (3#8).getLsbD j = decide (j < 2) := getLsbD_mask (k := 2) (by decide)
  have h15 : ∀ j, (15#8).getLsbD j = decide (j < 4) := getLsbD_mask (k := 4) (by decide)
  apply UInt8.toBitVec_inj.1
  apply BitVec.eq_of_getLsbD_eq
  intro i hi
  have hi' := congrArg (fun b => b.toBitVec.getLsbD i) htc
  simp [h3] at hi'
  simp [h15]
  grind

theorem ecn_and (tc fl : UInt8) : (tc <<< 6 ||| fl &&& 0x0f) &&& 0x0f = fl &&& 0x0f := by
  have h15 : ∀ j, (15#8).getLsbD j = decide (j < 4) := getLsbD_mask (k := 4) (by decide)
  apply UInt8.toBitVec_inj.1
  apply BitVec.eq_of_getLsbD_eq
  intro i hi
  simp [h15]
  grind

/-- The parts of the first word, put together. -/
theorem flow_parts {flow : UInt32} (hver : flow >>> 28 = ipv6Version) :
    ipv6Version <<< 28 ||| (flow >>> 20).toUInt8.toUInt32 <<< 20 |||
      (((flow &&& 0x000fffff) >>> 16).toUInt8 &&& 0x0f).toUInt32 <<< 16 |||
      ((flow &&& 0x000fffff) >>> 8).toUInt8.toUInt32 <<< 8 |||
      (flow &&& 0x000fffff).toUInt8.toUInt32 = flow := by
  rw [← hver]
  apply UInt32.toBitVec_inj.1
  apply BitVec.eq_of_getLsbD_eq
  intro i hi
  have hback : ∀ k, k ≤ i → k + (i - k) = i := fun k hk => by omega
  have h15 : ∀ j, (15#32).getLsbD j = decide (j < 4) := getLsbD_mask (k := 4) (by decide)
  have h255 : ∀ j, (255#32).getLsbD j = decide (j < 8) := getLsbD_mask (k := 8) (by decide)
  have hlow : ∀ j, (1048575#32).getLsbD j = decide (j < 20) := getLsbD_mask (k := 20) (by decide)
  simp [UInt32.toBitVec_toUInt8, -UInt32.toUInt32_toUInt8, h15, h255, hlow]
  grind

theorem packTcfl_cases (hdr : Ip6Hdr) {tc : UInt8} {flow : UInt32}
    (htc : tc = (hdr.flow >>> 20).toUInt8) (hflow : flow = hdr.flow &&& 0x000fffff) :
    (flow = 0 ∧ tc = 0 ∧ packTcfl hdr = (iphcTfNone, [])) ∨
    (flow = 0 ∧ packTcfl hdr = (iphcTfEcnDscp, [tc >>> 2 ||| tc <<< 6])) ∨
    (tc &&& 0x3 = tc ∧ packTcfl hdr = (iphcTfEcnFl,
      [tc <<< 6 ||| (flow >>> 16).toUInt8 &&& 0x0f, (flow >>> 8).toUInt8, flow.toUInt8])) ∨
    packTcfl hdr = (iphcTfEcnDscpFl,
      [tc >>> 2 ||| tc <<< 6, (flow >>> 16).toUInt8 &&& 0x0f, (flow >>> 8).toUInt8,
        flow.toUInt8]) := by
  unfold packTcfl
  simp only [← htc, ← hflow]
  split
  case isTrue h => exact .inl ⟨h.1, h.2, rfl⟩
  split
  case isTrue h => exact .inr (.inl ⟨h, rfl⟩)
  split
  case isTrue h => exact .inr (.inr (.inl ⟨h, rfl⟩))
  exact .inr (.inr (.inr rfl))

theorem unpackTcfl_packTcfl {hdr : Ip6Hdr} (hver : hdr.flow >>> 28 = ipv6Version) {d : UInt8}
    (hd : d &&& iphcTfMask = (packTcfl hdr).1) (rest : List UInt8) :
    unpackTcfl d ((packTcfl hdr).2 ++ rest) = .ok (hdr.flow, rest) := by
  have hparts := flow_parts hver
  obtain ⟨tc, htc⟩ : ∃ tc, tc = (hdr.flow >>> 20).toUInt8 := ⟨_, rfl⟩
  obtain ⟨flow, hflow⟩ : ∃ flow, flow = hdr.flow &&& 0x000fffff := ⟨_, rfl⟩
  rw [← htc, ← hflow] at hparts
  rcases packTcfl_cases hdr htc hflow with ⟨rfl, rfl, hp⟩ | ⟨rfl, hp⟩ | ⟨hecn, hp⟩ | hp
  · rw [hp] at hd ⊢
    simp only [unpackTcfl, hd]
    rw [if_neg (by decide), if_neg (by decide), if_neg (by decide), ← hparts]
    rfl
  · rw [hp] at hd ⊢
    simp only [unpackTcfl, hd]
    rw [if_pos trivial, ← hparts]
    simp only [List.cons_append, List.nil_append, Buffer.next_cons, Buffer.ok_bind, rotate_tc]
    rfl
  · rw [hp] at hd ⊢
    simp only [unpackTcfl, hd]
    rw [if_neg (by decide), if_pos trivial, ← hparts]
    simp only [List.cons_append, List.nil_append, Buffer.next_cons, Buffer.ok_bind,
      ecn_shiftRight hecn, ecn_and]
  · rw [hp] at hd ⊢
    have hfl (x : UInt8) : x &&& 0x0f &&& 0x0f = x &&& 0x0f := by
      rw [UInt8.and_assoc]
      rfl
    simp only [unpackTcfl, hd]
    rw [if_neg (by decide), if_neg (by decide), if_pos trivial, ← hparts]
    simp only [List.cons_append, List.nil_append, Buffer.next_cons, Buffer.ok_bind, rotate_tc, hfl]

/-! ## Next header and hop limit -/

theorem unpackNh_packNh {hdr : Ip6Hdr} {d : UInt8} (hd : d &&& iphcNhMask = (packNh hdr).1)
    (rest : List UInt8) :
    unpackNh d ((packNh hdr).2 ++ rest) =
      .ok (if nhcCompressible hdr.nxt then none else some hdr.nxt, rest) := by
  unfold packNh at hd ⊢
  split
  · rename_i hnxt
    rw [if_pos hnxt] at hd
    simp only [unpackNh, hd]
    rw [if_neg (by decide)]
    rfl
  · rename_i hnxt
    rw [if_neg hnxt] at hd
    simp only [unpackNh, hd]
    rw [if_pos trivial]
    rfl

theorem unpackHlim_packHlim {hdr : Ip6Hdr} {d : UInt8}
    (hd : d &&& iphcHlimMask = (packHlim hdr).1) (rest : List UInt8) :
    unpackHlim d ((packHlim hdr).2 ++ rest) = .ok (hdr.hlim, rest) := by
  simp only [unpackHlim, hd]
  unfold packHlim
  split
  · rename_i h
    rw [h]
    rfl
  · split
    · rename_i h
      rw [h]
      rfl
    · split
      · rename_i h
        rw [h]
        rfl
      · rfl

/-! ## Addresses -/

theorem bitRangeZeroP_bytes (buf : List UInt8) (i j : Nat) :
    bitRangeZeroP buf (8 * i) (8 * j) = ((buf.take j).drop i).all (· == 0) := by
  simp [bitRangeZeroP]

/-- Bytes that the compressor finds to be zero. -/
theorem eq_zeros {buf : List UInt8} {i j : Nat} (h : bitRangeZeroP buf (8 * i) (8 * j) = true)
    (hij : i ≤ j) (hj : j ≤ buf.length) :
    buf.drop i = List.replicate (j - i) 0 ++ buf.drop j := by
  rw [bitRangeZeroP_bytes, List.all_eq_true] at h
  have hzero : (buf.take j).drop i = List.replicate (j - i) 0 := by
    rw [List.eq_replicate_iff]
    refine ⟨by simp; omega, fun b hb => by simpa using h b hb⟩
  rw [← hzero, ← List.drop_append_of_le_length (by simp; omega), List.take_append_drop]

theorem Contexts.Agree.matchLength {c : Contexts} (hc : c.Agree) (addr : List UInt8) :
    c.matchLength addr = 0 ∨ (c.matchLength addr = 64 ∧
      c.readContext 0 (List.replicate 16 0) = (64, addr.take 8 ++ List.replicate 8 0)) := by
  cases hc with
  | unshared hmatch =>
    left
    rw [Contexts.matchLength, hmatch]
    rfl
  | shared hlen hmatch hread =>
    rw [Contexts.matchLength, hmatch]
    split
    · rename_i h
      refine .inr ⟨rfl, ?_⟩
      rw [hread, h, splice, hlen]
      rfl
    · exact .inl rfl

/-- The flags of an address mode. -/
theorem flags_of_and {d f : UInt8} (h : d &&& 0x7 = f) :
    d &&& iphcAcContext = f &&& iphcAcContext ∧ d &&& iphcAmMask = f &&& iphcAmMask := by
  rw [← h, UInt8.and_assoc, UInt8.and_assoc]
  exact ⟨rfl, rfl⟩

theorem packAddress_linklocal {addr : List UInt8} (h : isLinklocal addr = true)
    (hlen : addr.length = 16) (m : Nat) (l2 : Ieee154Addr) (pan : UInt16) :
    (packAddress addr m l2 pan = (iphcAm16, addr.drop 14) ∧
      addr = zeroFill linklocalPrefix (addr.drop 14)) ∨
    (packAddress addr m l2 pan = (iphcAm0, []) ∧
      ((l2.mode = .short ∧ addr = linklocalPrefix ++ panIid pan l2.saddr) ∨
        (l2.mode = .ext ∧ addr = linklocalPrefix ++ euiIid l2.laddr))) ∨
    (packAddress addr m l2 pan = (iphcAm64, addr.drop 8) ∧
      addr = linklocalPrefix ++ addr.drop 8) := by
  have hhead : addr.take 8 = linklocalPrefix := beq_iff_eq.1 h
  have hsplit : addr = linklocalPrefix ++ addr.drop 8 := by
    rw [← hhead, List.take_append_drop]
  unfold packAddress
  rw [if_pos h]
  split
  · rename_i hz
    refine .inl ⟨rfl, ?_⟩
    have htail : addr.drop 8 = [0, 0, 0, 0, 0, 0] ++ addr.drop 14 := by
      conv => lhs; rw [← List.take_append_drop 6 (addr.drop 8), hz, List.drop_drop]
    rw [zeroFill, List.length_drop, hlen]
    exact hsplit.trans (by rw [htail]; rfl)
  · split
    · rename_i hiid
      refine .inr (.inl ⟨rfl, ?_⟩)
      rcases hiid with ⟨hiid, hmode⟩ | ⟨hmode, hiid⟩
      · exact .inl ⟨hmode, hiid ▸ hsplit⟩
      · exact .inr ⟨hmode, (beq_iff_eq.1 hiid) ▸ hsplit⟩
    · exact .inr (.inr ⟨rfl, hsplit⟩)

theorem packAddress_context {addr : List UInt8} (h : isLinklocal addr = false)
    (hlen : addr.length = 16) (l2 : Ieee154Addr) (pan : UInt16) :
    (packAddress addr 64 l2 pan = (iphcAcContext ||| iphcAm16, addr.drop 14) ∧
      addr = addr.take 8 ++ List.replicate 6 0 ++ addr.drop 14) ∨
    packAddress addr 64 l2 pan = (iphcAcContext ||| iphcAm64, addr.drop 8) := by
  have hzero : bitRangeZeroP addr 64 64 = true := by
    rw [show bitRangeZeroP addr 64 64 = _ from bitRangeZeroP_bytes addr 8 8]
    simp
  unfold packAddress
  rw [if_neg (by rw [h]; decide), if_pos (by decide), if_neg (by decide), if_pos hzero]
  split
  · rename_i hz
    refine .inl ⟨rfl, ?_⟩
    have htail := eq_zeros (i := 8) (j := 14) hz (by decide) (by omega)
    rw [List.append_assoc, ← htail, List.take_append_drop]
  · exact .inr rfl

theorem packAddress_plain {addr : List UInt8} (h : isLinklocal addr = false)
    (l2 : Ieee154Addr) (pan : UInt16) :
    (packAddress addr 0 l2 pan = (iphcAcContext ||| iphcAm128, []) ∧
      addr = List.replicate 16 0) ∨
    packAddress addr 0 l2 pan = (iphcAm128, addr) := by
  unfold packAddress
  rw [if_neg (by rw [h]; decide), if_neg (Nat.lt_irrefl 0)]
  split
  · rename_i hz
    exact .inl ⟨rfl, beq_iff_eq.1 hz⟩
  · exact .inr rfl

theorem unpackAddress_packAddress {c : Contexts} (hc : c.Agree) {addr : List UInt8}
    (hlen : addr.length = 16) {l2 l2' : Ieee154Addr} (hl2 : l2.Same l2') (pan : UInt16) {d : UInt8}
    (hd : d &&& 0x7 = (packAddress addr (c.matchLength addr) l2 pan).1) (rest : List UInt8) :
    unpackAddress c d 0 ((packAddress addr (c.matchLength addr) l2 pan).2 ++ rest) l2' pan =
      .ok (addr, rest) := by
  by_cases hll : isLinklocal addr = true
  · rcases packAddress_linklocal hll hlen (c.matchLength addr) l2 pan with
      ⟨hp, haddr⟩ | ⟨hp, haddr⟩ | ⟨hp, haddr⟩
    · rw [hp] at hd ⊢
      obtain ⟨hac, ham⟩ := flags_of_and hd
      simp only [unpackAddress, hac, ham]
      rw [if_pos (by decide), if_neg (by decide), if_neg (by decide), if_pos (by decide),
        Buffer.take_append (by rw [List.length_drop, hlen])]
      simp only [Buffer.ok_bind]
      rw [← haddr]
    · rw [hp] at hd ⊢
      obtain ⟨hac, ham⟩ := flags_of_and hd
      simp only [unpackAddress, hac, ham]
      rw [if_pos (by decide), if_neg (by decide), if_neg (by decide), if_neg (by decide)]
      cases hl2 with
      | short h0 h1 =>
        rcases haddr with ⟨-, haddr⟩ | ⟨hmode, -⟩
        · rw [if_neg nofun, haddr, Ieee154Addr.saddr, Ieee154Addr.saddr, h0, h1]
          rfl
        · cases hmode
      | ext d =>
        rcases haddr with ⟨hmode, -⟩ | ⟨-, haddr⟩
        · cases hmode
        · rw [if_pos rfl, ← haddr]
          rfl
    · rw [hp] at hd ⊢
      obtain ⟨hac, ham⟩ := flags_of_and hd
      simp only [unpackAddress, hac, ham]
      rw [if_pos (by decide), if_neg (by decide), if_pos (by decide),
        Buffer.take_append (by rw [List.length_drop, hlen])]
      simp only [Buffer.ok_bind]
      rw [← haddr]
  · have hll' : isLinklocal addr = false := Bool.eq_false_iff.2 hll
    rcases hc.matchLength addr with hm | ⟨hm, hread⟩
    · rw [hm] at hd ⊢
      rcases packAddress_plain hll' l2 pan with ⟨hp, haddr⟩ | hp
      · rw [hp] at hd ⊢
        obtain ⟨hac, ham⟩ := flags_of_and hd
        simp only [unpackAddress, hac, ham]
        rw [if_neg (by decide), if_pos (by decide), ← haddr]
        rfl
      · rw [hp] at hd ⊢
        obtain ⟨hac, ham⟩ := flags_of_and hd
        simp only [unpackAddress, hac, ham]
        rw [if_pos (by decide), if_pos (by decide), Buffer.take_append hlen]
    · rw [hm] at hd ⊢
      have hhead : (addr.take 8).length = 8 := by rw [List.length_take, hlen]; rfl
      rcases packAddress_context hll' hlen l2 pan with ⟨hp, haddr⟩ | hp
      · rw [hp] at hd ⊢
        obtain ⟨hac, ham⟩ := flags_of_and hd
        simp only [unpackAddress, hac, ham]
        rw [if_neg (by decide), if_neg (by decide), hread, unpackStateful, if_neg (by decide),
          if_pos (by decide), Buffer.take_append (by rw [List.length_drop, hlen])]
        simp only [Buffer.ok_bind]
        have hsplice : splice (addr.take 8 ++ List.replicate 8 0) 14 (addr.drop 14) =
            addr.take 8 ++ List.replicate 6 0 ++ addr.drop 14 := by
          rw [splice_of_end (by simp [hlen]), List.take_append, hhead,
            List.take_of_length_le (by omega)]
          rfl
        rw [hsplice, ← haddr]
      · rw [hp] at hd ⊢
        obtain ⟨hac, ham⟩ := flags_of_and hd
        simp only [unpackAddress, hac, ham]
        rw [if_neg (by decide), if_neg (by decide), hread, unpackStateful, if_pos (by decide),
          Buffer.take_append (by rw [List.length_drop, hlen])]
        simp only [Buffer.ok_bind]
        have hsplice : splice (addr.take 8 ++ List.replicate 8 0) 8 (addr.drop 8) = addr := by
          rw [splice_of_end (by simp [hlen]), List.take_left' hhead, List.take_append_drop]
        rw [hsplice]

theorem packMulticast_cases {addr : List UInt8} (hlen : addr.length = 16) {b : UInt8}
    (hhead : addr.take 2 = [0xff, b]) :
    (packMulticast addr = (iphcAmM8, addr.drop 15) ∧
      addr = zeroFill [0xff, 0x02] (addr.drop 15)) ∨
    (packMulticast addr = (iphcAmM32, b :: addr.drop 13) ∧
      addr = zeroFill [0xff, b] (addr.drop 13)) ∨
    (packMulticast addr = (iphcAmM48, b :: addr.drop 11) ∧
      addr = zeroFill [0xff, b] (addr.drop 11)) ∨
    packMulticast addr = (iphcAmM128, addr) := by
  have hb : addr.getD 1 0 = b := by
    rw [← List.take_append_drop 2 addr, hhead]
    rfl
  have hfill (i : Nat) (hz : bitRangeZeroP addr 16 (8 * i) = true) (hi : 2 ≤ i ∧ i ≤ 16) :
      addr = zeroFill [0xff, b] (addr.drop i) := by
    have htail := eq_zeros (i := 2) hz hi.1 (by omega)
    have hcount : 16 - (2 + (16 - i)) = i - 2 := by omega
    rw [zeroFill, List.append_assoc, List.length_drop, hlen, ← hhead]
    rw [show (addr.take 2).length = 2 by rw [hhead]; rfl, hcount, ← htail, List.take_append_drop]
  unfold packMulticast
  split
  · rename_i h
    obtain rfl : b = 0x02 := by simpa [hhead] using h.1
    exact .inl ⟨rfl, hfill 15 h.2 (by decide)⟩
  split
  · rename_i h
    rw [hb]
    exact .inr (.inl ⟨rfl, hfill 13 h (by decide)⟩)
  split
  · rename_i h
    rw [hb]
    exact .inr (.inr (.inl ⟨rfl, hfill 11 h (by decide)⟩))
  exact .inr (.inr (.inr rfl))

theorem unpackMulticast_packMulticast {addr : List UInt8} (hlen : addr.length = 16) {b : UInt8}
    (hhead : addr.take 2 = [0xff, b]) {d : UInt8} (hd : d &&& 0x7 = (packMulticast addr).1)
    (rest : List UInt8) :
    unpackMulticast d ((packMulticast addr).2 ++ rest) = .ok (addr, rest) := by
  rcases packMulticast_cases hlen hhead with ⟨hp, haddr⟩ | ⟨hp, haddr⟩ | ⟨hp, haddr⟩ | hp
  · rw [hp] at hd ⊢
    obtain ⟨hac, ham⟩ := flags_of_and hd
    obtain ⟨x, hx⟩ := List.length_eq_one_iff.1 (show (addr.drop 15).length = 1 by simp [hlen])
    simp only [unpackMulticast, hac, ham]
    rw [if_pos (by decide), if_neg (by decide), if_neg (by decide), if_neg (by decide), hx]
    simp only [List.cons_append, List.nil_append, Buffer.next_cons, Buffer.ok_bind]
    rw [← hx, ← haddr]
  · rw [hp] at hd ⊢
    obtain ⟨hac, ham⟩ := flags_of_and hd
    simp only [unpackMulticast, hac, ham]
    rw [if_pos (by decide), if_neg (by decide), if_neg (by decide), if_pos (by decide)]
    simp only [List.cons_append, Buffer.next_cons, Buffer.ok_bind]
    rw [Buffer.take_append (by rw [List.length_drop, hlen])]
    simp only [Buffer.ok_bind]
    rw [← haddr]
  · rw [hp] at hd ⊢
    obtain ⟨hac, ham⟩ := flags_of_and hd
    simp only [unpackMulticast, hac, ham]
    rw [if_pos (by decide), if_neg (by decide), if_pos (by decide)]
    simp only [List.cons_append, Buffer.next_cons, Buffer.ok_bind]
    rw [Buffer.take_append (by rw [List.length_drop, hlen])]
    simp only [Buffer.ok_bind]
    rw [← haddr]
  · rw [hp] at hd ⊢
    obtain ⟨hac, ham⟩ := flags_of_and hd
    simp only [unpackMulticast, hac, ham]
    rw [if_pos (by decide), if_pos (by decide), Buffer.take_append hlen]

/-! ## The dispatch -/

theorem packTcfl_fst (hdr : Ip6Hdr) : (packTcfl hdr).1 ∈ [0x18, 0x10, 0x08, (0x00 : UInt8)] := by
  rcases packTcfl_cases hdr rfl rfl with ⟨-, -, hp⟩ | ⟨-, hp⟩ | ⟨-, hp⟩ | hp <;>
    simp [hp]

theorem packNh_fst (hdr : Ip6Hdr) : (packNh hdr).1 ∈ [0x04, (0x00 : UInt8)] := by
  unfold packNh
  split <;> simp

theorem packHlim_fst (hdr : Ip6Hdr) : (packHlim hdr).1 ∈ [0x00, 0x01, 0x02, (0x03 : UInt8)] := by
  unfold packHlim
  repeat' split
  all_goals simp

theorem packAddress_fst (addr : List UInt8) (m : Nat) (l2 : Ieee154Addr) (pan : UInt16) :
    (packAddress addr m l2 pan).1 ∈ [0, 1, 2, 3, 4, 5, 6, (7 : UInt8)] := by
  unfold packAddress
  repeat' split
  all_goals
    dsimp only
    decide

theorem packMulticast_fst (addr : List UInt8) :
    (packMulticast addr).1 ∈ [0, 1, 2, 3, 4, 5, 6, (7 : UInt8)] := by
  unfold packMulticast
  repeat' split
  all_goals simp

/-- The fields of the first dispatch byte do not overlap. -/
theorem dispatch_fields : ∀ tf ∈ [0x18, 0x10, 0x08, (0x00 : UInt8)],
    ∀ nh ∈ [0x04, (0x00 : UInt8)], ∀ hl ∈ [0x00, 0x01, 0x02, (0x03 : UInt8)],
      (lowpanDispatchByteVal ||| tf ||| nh ||| hl) &&& lowpanDispatchByteMask =
        lowpanDispatchByteVal ∧
      (lowpanDispatchByteVal ||| tf ||| nh ||| hl) &&& iphcTfMask = tf ∧
      (lowpanDispatchByteVal ||| tf ||| nh ||| hl) &&& iphcNhMask = nh ∧
      (lowpanDispatchByteVal ||| tf ||| nh ||| hl) &&& iphcHlimMask = hl := by
  decide +kernel

/-- Nor do those of the second. -/
theorem dispatch1_fields : ∀ sam ∈ [0, 1, 2, 3, 4, 5, 6, (7 : UInt8)],
    ∀ dam ∈ [0, 1, 2, 3, 4, 5, 6, (7 : UInt8)], ∀ m ∈ [0, iphcM],
      (sam <<< iphcSamShift ||| (dam ||| m) <<< iphcDamShift) &&& iphcCidMask ≠
        iphcCidPresent ∧
      (sam <<< iphcSamShift ||| (dam ||| m) <<< iphcDamShift) >>> iphcSamShift &&& 0x7 = sam ∧
      (sam <<< iphcSamShift ||| (dam ||| m) <<< iphcDamShift) >>> iphcDamShift &&& 0x7 = dam ∧
      (sam <<< iphcSamShift ||| (dam ||| m) <<< iphcDamShift) &&& iphcM = m := by
  decide +kernel

/-! ## The header in `r_buf` -/

/-- A buffer that starts with an IPv6 header. -/
def hdrBuf (flow plen : List UInt8) (nxt hlim : UInt8) (src dst area : List UInt8) : List UInt8 :=
  flow ++ (plen ++ ([nxt] ++ ([hlim] ++ (src ++ (dst ++ area)))))

theorem hdrBuf_append (flow plen : List UInt8) (nxt hlim : UInt8) (src dst area : List UInt8) :
    hdrBuf flow plen nxt hlim src dst area = hdrBuf flow plen nxt hlim src dst [] ++ area := by
  simp [hdrBuf]

theorem write_flow {flow flow' plen src dst area : List UInt8} {nxt hlim : UInt8}
    (h : flow'.length = flow.length) :
    Buffer.write (hdrBuf flow plen nxt hlim src dst area) 0 flow' =
      .ok (hdrBuf flow' plen nxt hlim src dst area) :=
  Buffer.write_append [] flow flow' _ rfl h

section

variable {flow plen src dst area : List UInt8} {nxt hlim : UInt8} (hflow : flow.length = 4)
  (hplen : plen.length = 2)
include hflow hplen

theorem write_nxt (nxt' : UInt8) :
    Buffer.write (hdrBuf flow plen nxt hlim src dst area) 6 [nxt'] =
      .ok (hdrBuf flow plen nxt' hlim src dst area) := by
  have h := Buffer.write_append (flow ++ plen) [nxt] [nxt'] ([hlim] ++ (src ++ (dst ++ area)))
    (show 6 = _ by simp [hflow, hplen]) rfl
  simpa only [hdrBuf, List.append_assoc] using h

theorem write_hlim (hlim' : UInt8) :
    Buffer.write (hdrBuf flow plen nxt hlim src dst area) 7 [hlim'] =
      .ok (hdrBuf flow plen nxt hlim' src dst area) := by
  have h := Buffer.write_append (flow ++ (plen ++ [nxt])) [hlim] [hlim'] (src ++ (dst ++ area))
    (show 7 = _ by simp [hflow, hplen]) rfl
  simpa only [hdrBuf, List.append_assoc] using h

theorem write_src {src' : List UInt8} (hsrc : src'.length = src.length) :
    Buffer.write (hdrBuf flow plen nxt hlim src dst area) 8 src' =
      .ok (hdrBuf flow plen nxt hlim src' dst area) := by
  have h := Buffer.write_append (flow ++ (plen ++ ([nxt] ++ [hlim]))) src src' (dst ++ area)
    (show 8 = _ by simp [hflow, hplen]) hsrc
  simpa only [hdrBuf, List.append_assoc] using h

theorem write_dst (hsrc : src.length = 16) {dst' : List UInt8} (hdst : dst'.length = dst.length) :
    Buffer.write (hdrBuf flow plen nxt hlim src dst area) 24 dst' =
      .ok (hdrBuf flow plen nxt hlim src dst' area) := by
  have h := Buffer.write_append (flow ++ (plen ++ ([nxt] ++ ([hlim] ++ src)))) dst dst' area
    (show 24 = _ by simp [hflow, hplen, hsrc]) hdst
  simpa only [hdrBuf, List.append_assoc] using h

end

/-- Every buffer that is long enough starts with a header. -/
theorem exists_hdrBuf {buf : List UInt8} (h : ip6HdrSize ≤ buf.length) :
    ∃ flow nxt hlim src dst, flow.length = 4 ∧ src.length = 16 ∧ dst.length = 16 ∧
      buf = hdrBuf flow ((buf.drop 4).take 2) nxt hlim src dst (buf.drop ip6HdrSize) := by
  have hcut (i k : Nat) : buf.drop i = (buf.drop i).take k ++ buf.drop (i + k) := by
    rw [← List.drop_drop, List.take_append_drop]
  have hlen (i k : Nat) (hik : i + k ≤ 40) : ((buf.drop i).take k).length = k := by
    have h40 : 40 ≤ buf.length := h
    rw [List.length_take, List.length_drop]
    omega
  obtain ⟨nxt, hnxt⟩ := List.length_eq_one_iff.1 (hlen 6 1 (by decide))
  obtain ⟨hlim, hhlim⟩ := List.length_eq_one_iff.1 (hlen 7 1 (by decide))
  refine ⟨_, nxt, hlim, _, _, hlen 0 4 (by decide), hlen 8 16 (by decide), hlen 24 16 (by decide),
    ?_⟩
  rw [hdrBuf, ← hnxt, ← hhlim, ← hcut 24 16, ← hcut 8 16, ← hcut 7 1, ← hcut 6 1, ← hcut 4 2,
    ← hcut 0 4, List.drop_zero]

/-! ## A UDP header -/

/-- A UDP header as `unpack_udp` leaves it. -/
def udpWithoutLen (udp : List UInt8) : List UInt8 := udp.take 4 ++ [0, 0] ++ udp.drop 6

theorem unpackUdp_packUdp (pre mid post : List UInt8) (n : UInt8) {old udp : List UInt8}
    (hold : old.length = 8) (hudp : udp.length = 8) (rest : List UInt8) :
    unpackUdp (pre ++ (n :: (mid ++ (old ++ post)))) (pre.length + 1 + mid.length) pre.length
        ((nhcUdpPattern ||| nhcUdpPortFull) :: (udp.take 4 ++ udp.drop 6 ++ rest)) =
      .ok (pre ++ (ianaUdp :: (mid ++ (udpWithoutLen udp ++ post))), rest) := by
  match old, hold, udp, hudp with
  | [o0, o1, o2, o3, o4, o5, o6, o7], _, [p0, p1, p2, p3, l0, l1, k0, k1], _ =>
    have hhead (l : List UInt8) : pre ++ ianaUdp :: (mid ++ l) = pre ++ ianaUdp :: mid ++ l := by
      simp
    have hdest : pre.length + 1 + mid.length = (pre ++ ianaUdp :: mid).length := by
      simp only [List.length_append, List.length_cons]
      omega
    have hnxt (l : List UInt8) : Buffer.write (pre ++ (n :: l)) pre.length [ianaUdp] =
        .ok (pre ++ (ianaUdp :: l)) := Buffer.write_append pre [n] [ianaUdp] l rfl rfl
    have hports (l : List UInt8) : unpackPorts (nhcUdpPattern ||| nhcUdpPortFull)
        (p0 :: p1 :: p2 :: p3 :: l) = .ok (ntohs p0 p1, ntohs p2 p3, l) := rfl
    have hcksum : (nhcUdpPattern ||| nhcUdpPortFull) &&& nhcUdpCksum = 0 := rfl
    have hzero := Buffer.write_part (pre ++ ianaUdp :: mid) [o0, o1, o2, o3, o4, o5, o6, o7]
      [0, 0, 0, 0] post rfl (show 4 + _ ≤ _ by simp)
    have hwrite := Buffer.write_part (pre ++ ianaUdp :: mid) [o0, o1, o2, o3, 0, 0, 0, 0]
      [p0, p1, p2, p3] post (Nat.add_zero _).symm (by simp)
    have hsum := Buffer.write_part (pre ++ ianaUdp :: mid) [p0, p1, p2, p3, 0, 0, 0, 0]
      [k0, k1] post rfl (show 6 + _ ≤ _ by simp)
    simp only [splice, List.take, List.drop, List.length_cons, List.length_nil, Nat.zero_add,
      Nat.reduceAdd, List.cons_append, List.nil_append] at hzero hwrite hsum
    simp only [unpackUdp, Buffer.next_cons, Buffer.ok_bind, hnxt, hhead, hdest, List.take,
      List.drop, List.cons_append, List.nil_append, hzero, hports, netBytes_ntohs, hwrite, hcksum,
      if_true, hsum, udpWithoutLen]

theorem length_udpWithoutLen {udp : List UInt8} (h : udp.length = udpHdrSize) :
    (udpWithoutLen udp).length = udpHdrSize := by
  have h8 : udp.length = 8 := h
  simp [udpWithoutLen, h8]

/-- **A UDP header is decoded** over what is at `dest`, and the chain ends. -/
theorem unpackNhcChain_udp (pre mid : List UInt8) (n : UInt8) (cnt : Nat) {area udp : List UInt8}
    {dest nxtHdr : Nat} (hdest : dest = pre.length + 1 + mid.length) (hnxt : nxtHdr = pre.length)
    (harea : udpHdrSize ≤ area.length) (hudp : udp.length = udpHdrSize) (rest : List UInt8) :
    unpackNhcChain (pre ++ (n :: (mid ++ area))) dest cnt nxtHdr
        ((nhcUdpPattern ||| nhcUdpPortFull) :: (udp.take 4 ++ udp.drop 6 ++ rest)) =
      .ok (⟨pre ++ (ianaUdp :: (mid ++ (udpWithoutLen udp ++ area.drop udpHdrSize))),
        dest + udpHdrSize, some dest, some (dest + 4)⟩, rest) := by
  subst hdest hnxt
  have hd : ¬(nhcUdpPattern ||| nhcUdpPortFull) &&& nhcIpv6Mask = nhcIpv6Pattern := by decide
  have hold : (area.take udpHdrSize).length = 8 := by
    rw [List.length_take]
    exact Nat.min_eq_left harea
  have hudp' := unpackUdp_packUdp pre mid (area.drop udpHdrSize) n hold hudp rest
  rw [List.take_append_drop] at hudp'
  have hipnh : unpackIpnh (pre ++ (n :: (mid ++ area))) (pre.length + 1 + mid.length) cnt
      pre.length ((nhcUdpPattern ||| nhcUdpPortFull) :: (udp.take 4 ++ udp.drop 6 ++ rest)) =
      .ok (pre ++ (ianaUdp :: (mid ++ (udpWithoutLen udp ++ area.drop udpHdrSize))), rest) :=
    hudp'
  exact (unpackNhcChain_of_ok hipnh).trans (if_neg hd)

theorem packUdp_eq {packet : Ip6Packet} {cnt offset : Nat} (hcnt : 7 ≤ cnt)
    (hlen : offset + udpHdrSize ≤ packet.bytes.length) :
    packUdp cnt packet offset = some ((nhcUdpPattern ||| nhcUdpPortFull) ::
      (((packet.bytes.drop offset).take udpHdrSize).take 4 ++
        ((packet.bytes.drop offset).take udpHdrSize).drop 6)) := by
  have hread : packet.data.read offset udpHdrSize = (packet.bytes.drop offset).take udpHdrSize :=
    packet.data.read_eq offset udpHdrSize
  have hfull : ((packet.bytes.drop offset).take udpHdrSize).length = udpHdrSize := by
    rw [List.length_take, List.length_drop]
    omega
  rw [packUdp, if_neg (by omega), hread]
  dsimp only
  rw [if_neg (fun h => h hfull)]

/-! ## The whole header -/

theorem unpackDst_packDst {c : Contexts} (hc : c.Agree) {dst : List UInt8}
    (hlen : dst.length = 16) {frame frame' : FrameAddr} (hdst : frame.dst.Same frame'.dst)
    (hpan : frame.dstpan = frame'.dstpan) :
    ∃ dam ∈ [0, 1, 2, 3, 4, 5, 6, (7 : UInt8)], ∃ m ∈ [0, iphcM],
      (packDst c dst frame).1 = dam ||| m ∧
      ∀ d, d >>> iphcDamShift &&& 0x7 = dam → d &&& iphcM = m → ∀ rest,
        unpackDst c d 0 ((packDst c dst frame).2 ++ rest) frame' = .ok (dst, rest) := by
  unfold packDst unpackDst
  split
  · refine ⟨_, packAddress_fst dst (c.matchLength dst) frame.dst frame.dstpan, 0, by simp,
      by simp, ?_⟩
    intro d hd hm rest
    rw [if_neg (by rw [hm]; decide), ← hpan]
    exact unpackAddress_packAddress hc hlen hdst _ hd rest
  · rename_i hff
    refine ⟨_, packMulticast_fst _, iphcM, by simp, rfl, ?_⟩
    intro d hd hm rest
    rw [if_pos (by rw [hm]; decide)]
    match dst, hlen, Classical.not_not.1 hff with
    | b0 :: b1 :: dst, hlen, hb0 =>
      obtain rfl : b0 = 0xff := by simpa using hb0
      exact unpackMulticast_packMulticast hlen rfl hd rest

/-- `r_buf` with the fields of a header but its payload length. -/
def decodedHdr (hdr : Ip6Hdr) (rbuf : List UInt8) (nxt : UInt8) : List UInt8 :=
  hdrBuf hdr.flow.netBytes ((rbuf.drop 4).take 2) nxt hdr.hlim hdr.src.toList hdr.dst.toList
    (rbuf.drop ip6HdrSize)

theorem unpackNext_packNh {hdr : Ip6Hdr} {d : UInt8} (hd : d &&& iphcNhMask = (packNh hdr).1)
    (rbuf : List UInt8) (size : Nat) (buf : List UInt8) :
    unpackNext d rbuf size buf =
      if nhcCompressible hdr.nxt then
        unpackNhcChain rbuf ip6HdrSize (sizeSub size ip6HdrSize) 6 buf
      else .ok (⟨rbuf, ip6HdrSize, none, none⟩, buf) := by
  unfold packNh at hd
  unfold unpackNext
  split at hd
  · rename_i hnxt
    rw [if_pos (by rw [hd]; decide), if_pos hnxt]
  · rename_i hnxt
    rw [if_neg (fun h => h hd), if_neg hnxt]

/-- **Decoding a compressed IPv6 header** puts its fields in place, all but the payload length, and
goes on with the next headers and the payload. -/
theorem lowpanUnpackHeaders_pack {c : Contexts} (hc : c.Agree) {packet : Ip6Packet}
    {frame frame' : FrameAddr} (hsrc : frame.src.Same frame'.src)
    (hdst : frame.dst.Same frame'.dst) (hpan : frame.dstpan = frame'.dstpan) {iphc : List UInt8}
    (hpack : lowpanPackHeaders c packet frame = some iphc) {rbuf : List UInt8}
    (hrbuf : ip6HdrSize ≤ rbuf.length) (size : Nat) (tail : List UInt8) :
    ∃ nxt, lowpanUnpackHeaders c frame' rbuf size (iphc ++ tail) =
      ((if nhcCompressible packet.hdr.nxt then
          unpackNhcChain (decodedHdr packet.hdr rbuf nxt) ip6HdrSize (sizeSub size ip6HdrSize) 6
            tail
        else .ok (⟨decodedHdr packet.hdr rbuf packet.hdr.nxt, ip6HdrSize, none, none⟩, tail)) >>=
      fun r => copyPayload r.1 r.2) := by
  obtain ⟨flow, nxt, hlim, src, dst, hflow, hsrc16, hdst16, hbuf⟩ := exists_hdrBuf hrbuf
  have hplen : ((rbuf.drop 4).take 2).length = 2 := by
    have h40 : 40 ≤ rbuf.length := hrbuf
    simp only [List.length_take, List.length_drop]
    omega
  unfold decodedHdr
  generalize (rbuf.drop 4).take 2 = plen at *
  generalize rbuf.drop ip6HdrSize = area at *
  subst hbuf
  have hlen (a : Vector UInt8 16) : a.toList.length = 16 := by simp
  unfold lowpanPackHeaders at hpack
  simp only [Option.ite_none_left_eq_some, Option.some.injEq] at hpack
  obtain ⟨hver, rfl⟩ := hpack
  have hver' : packet.hdr.flow >>> 28 = ipv6Version := Classical.not_not.1 hver
  obtain ⟨dam, hdam, m, hm, hfst, hdec⟩ := unpackDst_packDst hc (hlen packet.hdr.dst) hdst hpan
  obtain ⟨hd, htf, hnh, hhl⟩ := dispatch_fields _ (packTcfl_fst packet.hdr) _
    (packNh_fst packet.hdr) _ (packHlim_fst packet.hdr)
  obtain ⟨hcid, hsam, hd7, hdm⟩ := dispatch1_fields _
    (packAddress_fst packet.hdr.src.toList (c.matchLength packet.hdr.src.toList) frame.src
      frame.dstpan) dam hdam m hm
  refine ⟨nxt, ?_⟩
  rw [hfst]
  generalize hb0 : lowpanDispatchByteVal ||| (packTcfl packet.hdr).1 ||| (packNh packet.hdr).1 |||
    (packHlim packet.hdr).1 = b0 at *
  generalize hb1 : (packAddress packet.hdr.src.toList (c.matchLength packet.hdr.src.toList)
    frame.src frame.dstpan).1 <<< iphcSamShift ||| (dam ||| m) <<< iphcDamShift = b1 at *
  have hcontexts (buf : List UInt8) : unpackContexts b1 buf = .ok ((0, 0), buf) := if_neg hcid
  have hsrcdec := unpackAddress_packAddress hc (hlen packet.hdr.src) hsrc frame.dstpan hsam
  have hflow' := packet.hdr.flow.length_netBytes
  simp only [lowpanUnpackHeaders, List.cons_append, List.append_assoc, Buffer.next_cons,
    Buffer.ok_bind, hd, hcontexts, unpackTcfl_packTcfl hver' htf]
  rw [if_neg (fun h => h rfl), write_flow (hflow'.trans hflow.symm)]
  simp only [Buffer.ok_bind, unpackNh_packNh hnh]
  have hnxt : Buffer.write (hdrBuf packet.hdr.flow.netBytes plen nxt hlim src dst area) 6
      (if nhcCompressible packet.hdr.nxt then none else some packet.hdr.nxt).toList =
      .ok (hdrBuf packet.hdr.flow.netBytes plen
        (if nhcCompressible packet.hdr.nxt then nxt else packet.hdr.nxt) hlim src dst area) := by
    split
    · exact (Buffer.write_eq (by simp [hdrBuf, hplen]; omega)).trans (by rw [Option.toList, splice_nil])
    · exact write_nxt hflow' hplen _
  rw [hnxt]
  simp only [Buffer.ok_bind, unpackHlim_packHlim hhl, write_hlim hflow' hplen, ← hpan, hsrcdec,
    write_src hflow' hplen ((hlen packet.hdr.src).trans hsrc16.symm), hdec b1 hd7 hdm,
    write_dst hflow' hplen (hlen packet.hdr.src) ((hlen packet.hdr.dst).trans hdst16.symm)]
  rw [unpackNext_packNh hnh]
  split
  · rfl
  · rfl

/-- What `pack_nhc_chain` makes of a payload without extension headers. -/
theorem packNhcChain_plain {packet : Ip6Packet} (hext : isNhcExtension packet.hdr.nxt = false)
    (dest : List UInt8) (cnt : Nat) :
    packNhcChain dest cnt packet =
      if packet.hdr.nxt = ianaUdp then (packUdp cnt packet 0).map fun udp => (udp, udpHdrSize)
      else some ([], 0) := by
  unfold packNhcChain
  rw [packNhcLoop, hext]
  rfl

theorem copyPayload_eq (head : List UInt8) {area payload : List UInt8} {stop : Nat}
    (t a : Option Nat) (hstop : stop = head.length) (hlen : payload.length ≤ area.length) :
    copyPayload ⟨head ++ area, stop, t, a⟩ payload =
      .ok ⟨head ++ (payload ++ area.drop payload.length), stop + payload.length, t, a⟩ := by
  have hold : payload.length = (area.take payload.length).length := by
    rw [List.length_take, Nat.min_eq_left hlen]
  have hwrite := Buffer.write_append head (area.take payload.length) payload
    (area.drop payload.length) hstop hold
  rw [List.take_append_drop] at hwrite
  rw [copyPayload, hwrite]
  rfl

/-- Where the next header stands in a decoded header, and where the header ends. -/
theorem decodedHdr_eq (hdr : Ip6Hdr) {rbuf : List UInt8} (hrbuf : ip6HdrSize ≤ rbuf.length)
    (nxt : UInt8) :
    ∃ pre mid : List UInt8, pre.length = 6 ∧ pre.length + 1 + mid.length = ip6HdrSize ∧
      (∀ nxt', pre ++ nxt' :: mid = hdrBuf hdr.flow.netBytes ((rbuf.drop 4).take 2) nxt' hdr.hlim
        hdr.src.toList hdr.dst.toList []) ∧
      decodedHdr hdr rbuf nxt = pre ++ (nxt :: (mid ++ rbuf.drop ip6HdrSize)) := by
  have hplen : ((rbuf.drop 4).take 2).length = 2 := by
    have h40 : 40 ≤ rbuf.length := hrbuf
    simp only [List.length_take, List.length_drop]
    omega
  refine ⟨hdr.flow.netBytes ++ (rbuf.drop 4).take 2, hdr.hlim :: (hdr.src.toList ++ hdr.dst.toList),
    ?_, ?_, ?_, ?_⟩
  · rw [List.length_append, hplen]
    rfl
  · simp only [List.length_append, List.length_cons, hplen, UInt32.length_netBytes,
      Vector.length_toList]
  · intro nxt'
    simp [hdrBuf]
  · simp [decodedHdr, hdrBuf]

/-- The transport header behind a decoded IPv6 header. -/
def decodedTransport (packet : Ip6Packet) : List UInt8 :=
  if packet.hdr.nxt = ianaUdp then udpWithoutLen (packet.bytes.take udpHdrSize) else []

section

variable {packet : Ip6Packet} (hnxt : isNhcExtension packet.hdr.nxt = false)
  (hudp : packet.hdr.nxt = ianaUdp → udpHdrSize ≤ packet.bytes.length)
include hnxt hudp

theorem exists_packNhcChain (dest : List UInt8) {cnt : Nat} (hcnt : 7 ≤ cnt) :
    ∃ nhc, packNhcChain dest cnt packet = some (nhc, (decodedTransport packet).length) := by
  rw [packNhcChain_plain hnxt]
  unfold decodedTransport
  split
  · rename_i h17
    rw [packUdp_eq hcnt (by simpa using hudp h17), length_udpWithoutLen]
    · exact ⟨_, rfl⟩
    · rw [List.length_take]
      exact Nat.min_eq_left (hudp h17)
  · exact ⟨_, rfl⟩

/-- **Decoding what the compressors produce**, with what follows it. -/
theorem lowpanUnpackHeaders_plain {c : Contexts} (hc : c.Agree) {frame frame' : FrameAddr}
    (hsrc : frame.src.Same frame'.src) (hdst : frame.dst.Same frame'.dst)
    (hpan : frame.dstpan = frame'.dstpan) {iphc nhc : List UInt8} {offset : Nat}
    (hpack : lowpanPackHeaders c packet frame = some iphc) {dest : List UInt8} {cnt : Nat}
    (hchain : packNhcChain dest cnt packet = some (nhc, offset)) {rbuf : List UInt8} (size : Nat)
    {rest : List UInt8} (hroom : ip6HdrSize + offset + rest.length ≤ rbuf.length) :
    lowpanUnpackHeaders c frame' rbuf size (iphc ++ nhc ++ rest) = .ok
      ⟨hdrBuf packet.hdr.flow.netBytes ((rbuf.drop 4).take 2) packet.hdr.nxt packet.hdr.hlim
          packet.hdr.src.toList packet.hdr.dst.toList (decodedTransport packet ++
            (rest ++ rbuf.drop (ip6HdrSize + offset + rest.length))),
        ip6HdrSize + offset + rest.length,
        if packet.hdr.nxt = ianaUdp then some ip6HdrSize else none,
        if packet.hdr.nxt = ianaUdp then some (ip6HdrSize + 4) else none⟩ := by
  have hrbuf : ip6HdrSize ≤ rbuf.length := by omega
  rw [packNhcChain_plain hnxt] at hchain
  unfold decodedTransport
  by_cases h17 : packet.hdr.nxt = ianaUdp
  · have hudp8 : (packet.bytes.take udpHdrSize).length = udpHdrSize := by
      rw [List.length_take]
      exact Nat.min_eq_left (hudp h17)
    have hcnt : 7 ≤ cnt := by
      by_cases hcnt : cnt < 7
      · rw [if_pos h17, packUdp, if_pos hcnt] at hchain
        cases hchain
      · omega
    rw [if_pos h17, packUdp_eq hcnt (by simpa using hudp h17), List.drop_zero] at hchain
    obtain ⟨rfl, rfl⟩ := Prod.mk.inj (Option.some.inj hchain)
    obtain ⟨nxt, hdec⟩ := lowpanUnpackHeaders_pack hc hsrc hdst hpan hpack hrbuf size
      ((nhcUdpPattern ||| nhcUdpPortFull) :: ((packet.bytes.take udpHdrSize).take 4 ++
        (packet.bytes.take udpHdrSize).drop 6) ++ rest)
    obtain ⟨pre, mid, hpre, hmid, hput, hhdr⟩ := decodedHdr_eq packet.hdr hrbuf nxt
    have harea : udpHdrSize ≤ (rbuf.drop ip6HdrSize).length := by
      rw [List.length_drop]
      omega
    have hshape (l : List UInt8) : pre ++ ianaUdp :: (mid ++
        (udpWithoutLen (packet.bytes.take udpHdrSize) ++ l)) =
        (pre ++ ianaUdp :: (mid ++ udpWithoutLen (packet.bytes.take udpHdrSize))) ++ l := by simp
    have hhead : ip6HdrSize + udpHdrSize =
        (pre ++ ianaUdp :: (mid ++ udpWithoutLen (packet.bytes.take udpHdrSize))).length := by
      simp only [List.length_append, List.length_cons, length_udpWithoutLen hudp8]
      omega
    have hfit : rest.length ≤ ((rbuf.drop ip6HdrSize).drop udpHdrSize).length := by
      rw [List.length_drop, List.length_drop]
      omega
    rw [List.append_assoc, hdec, if_pos (by rw [h17]; decide), hhdr, List.cons_append,
      unpackNhcChain_udp pre mid nxt _ hmid.symm hpre.symm harea hudp8, Buffer.ok_bind]
    dsimp only
    rw [hshape, copyPayload_eq _ _ _ hhead hfit, if_pos h17, if_pos h17, if_pos h17, hdrBuf_append,
      ← hput, h17, List.drop_drop, List.drop_drop, Nat.add_assoc]
    simp
  · rw [if_neg h17] at hchain
    obtain ⟨rfl, rfl⟩ := Prod.mk.inj (Option.some.inj hchain)
    obtain ⟨nxt, hdec⟩ := lowpanUnpackHeaders_pack hc hsrc hdst hpan hpack hrbuf size rest
    have hinline : nhcCompressible packet.hdr.nxt = false :=
      Bool.or_eq_false_iff.2 ⟨hnxt, beq_false_of_ne h17⟩
    obtain ⟨pre, mid, hpre, hmid, hput, hhdr⟩ := decodedHdr_eq packet.hdr hrbuf packet.hdr.nxt
    have hshape (l : List UInt8) : pre ++ packet.hdr.nxt :: (mid ++ l) =
        (pre ++ packet.hdr.nxt :: mid) ++ l := by simp
    have hhead : ip6HdrSize = (pre ++ packet.hdr.nxt :: mid).length := by
      simp only [List.length_append, List.length_cons]
      omega
    have hfit : rest.length ≤ (rbuf.drop ip6HdrSize).length := by
      rw [List.length_drop]
      omega
    rw [List.append_nil, hdec, hinline, if_neg (by decide), Buffer.ok_bind]
    dsimp only
    rw [hhdr, hshape, copyPayload_eq _ _ _ hhead hfit, if_neg h17, if_neg h17, if_neg h17,
      hdrBuf_append, ← hput, List.drop_drop]
    simp

end

/-- **Header compression is lossless.** What `lowpan_pack_headers` and `pack_nhc_chain` produce is
what `lowpan_unpack_headers` reads, and it puts the fields of the IPv6 header back, all but the
payload length, the ports and the checksum of a UDP header, and behind them what followed. -/
theorem lowpan_headers_lossless {c : Contexts} (hc : c.Agree) {packet : Ip6Packet}
    (hver : packet.hdr.flow >>> 28 = ipv6Version) (hnxt : isNhcExtension packet.hdr.nxt = false)
    (hudp : packet.hdr.nxt = ianaUdp → udpHdrSize ≤ packet.bytes.length) {frame : FrameAddr}
    (hsrc : frame.src.Usable) (hdst : frame.dst.Usable) (dest : List UInt8) {cnt : Nat}
    (hcnt : 7 ≤ cnt) :
    ∃ iphc nhc offset, lowpanPackHeaders c packet frame = some iphc ∧
      packNhcChain dest cnt packet = some (nhc, offset) ∧
      ∀ (rbuf : List UInt8) (size : Nat) (rest : List UInt8),
        ip6HdrSize + offset + rest.length ≤ rbuf.length →
        ∃ u, lowpanUnpackHeaders c frame rbuf size (iphc ++ nhc ++ rest) = .ok u ∧
          u.stop = ip6HdrSize + offset + rest.length ∧
          u.rbuf = hdrBuf packet.hdr.flow.netBytes ((rbuf.drop 4).take 2) packet.hdr.nxt
            packet.hdr.hlim packet.hdr.src.toList packet.hdr.dst.toList
            (decodedTransport packet ++ (rest ++ rbuf.drop u.stop)) := by
  obtain ⟨iphc, hpack⟩ : ∃ iphc, lowpanPackHeaders c packet frame = some iphc := by
    unfold lowpanPackHeaders
    rw [if_neg (fun h => h hver)]
    exact ⟨_, rfl⟩
  obtain ⟨nhc, hchain⟩ := exists_packNhcChain hnxt hudp dest hcnt
  refine ⟨iphc, nhc, _, hpack, hchain, ?_⟩
  intro rbuf size rest hroom
  have hdec := lowpanUnpackHeaders_plain hnxt hudp hc (.refl hsrc) (.refl hdst) rfl hpack hchain
    size hroom
  exact ⟨_, hdec, rfl, rfl⟩

/-- A shared prefix. -/
def examplePrefix : List UInt8 := [0x20, 0x01, 0x0d, 0xb8, 0, 0, 0, 1]

def exampleContexts : Contexts where
  matchContext addr := if addr.take 8 = examplePrefix then 64 else 0
  readContext _ addr := (64, splice addr 0 examplePrefix)

theorem exampleContexts_agree : exampleContexts.Agree :=
  .shared (show examplePrefix.length = 8 from rfl) (fun _ => rfl) (fun _ => rfl)

def exampleFrame : FrameAddr where
  src := ⟨.short, #v[0x02, 0x00, 0, 0, 0, 0, 0, 0]⟩
  dst := ⟨.short, #v[0x03, 0x00, 0, 0, 0, 0, 0, 0]⟩
  dstpan := 0x22

/-- A datagram from an address with the shared prefix to a multicast address. -/
def examplePacket : Ip6Packet where
  inputif := 0
  hdr :=
    { flow := 0x60000000
      plen := 10
      nxt := ianaUdp
      hlim := 64
      src := #v[0x20, 0x01, 0x0d, 0xb8, 0, 0, 0, 1, 0, 0, 0, 0, 0, 0, 0, 2]
      dst := #v[0xff, 0x02, 0, 0, 0, 0, 0, 0, 0, 0, 0, 0, 0, 0, 0, 0x1a] }
  data := [[0x16, 0x33, 0x16, 0x34, 0, 10, 0xab, 0xcd], [7, 9]]

theorem lowpan_headers_lossless_multicast :
    ∃ iphc nhc offset, lowpanPackHeaders exampleContexts examplePacket exampleFrame = some iphc ∧
      packNhcChain [] 100 examplePacket = some (nhc, offset) ∧
      ∀ (rbuf : List UInt8) (size : Nat) (rest : List UInt8),
        ip6HdrSize + offset + rest.length ≤ rbuf.length →
        ∃ u, lowpanUnpackHeaders exampleContexts exampleFrame rbuf size (iphc ++ nhc ++ rest) =
            .ok u ∧
          u.stop = ip6HdrSize + offset + rest.length ∧
          u.rbuf = hdrBuf [0x60, 0, 0, 0] ((rbuf.drop 4).take 2) ianaUdp 64
            examplePacket.hdr.src.toList examplePacket.hdr.dst.toList
            ([0x16, 0x33, 0x16, 0x34, 0, 0, 0xab, 0xcd] ++ (rest ++ rbuf.drop u.stop)) :=
  lowpan_headers_lossless exampleContexts_agree (by decide) (by decide) (by decide) (.inl rfl)
    (.inl rfl) [] (by decide)

end Lowpan
