import Backip.Lib.Splice
import Backip.Tcp.Circ

/-!
# The transmit buffer holds what was written

`CircBuf.Holds b held`: from the head on, the buffer contains the bytes `held`. A write behind them
that fits appends to them (`Holds.write`), a read returns a part of them (`Holds.read`) and
shortening the head drops from their front (`Holds.shortenHead`).
-/

set_option autoImplicit false

namespace Tcp

/-! ## Sequence numbers -/

/-- The distance of two numbers at offsets from a third. -/
theorem toNat_sub_offsets {a b c : UInt32} {m n : Nat} (ha : a = b + .ofNat m)
    (hc : c = b + .ofNat n) (hnm : n ≤ m) (hm : m < 2 ^ 32) : (a - c).toNat = m - n := by
  have hsplit : UInt32.ofNat m = .ofNat (m - n) + .ofNat n := by
    rw [← UInt32.ofNat_add, Nat.sub_add_cancel hnm]
  have hdist : a - c = .ofNat (m - n) := by grind
  rw [hdist]
  exact UInt32.toNat_ofNat_of_lt' (by unfold UInt32.size; omega)

/-- A number and its offset. -/
theorem sub_of_eq_add {a b : UInt32} {n : Nat} (h : a = b + .ofNat n) (hn : n < 2 ^ 32) :
    (a - b).toNat = n :=
  toNat_sub_offsets h (UInt32.add_zero b).symm (Nat.zero_le n) hn

/-- A number at its distance from another. -/
theorem eq_add_ofNat_sub (a b : UInt32) : a = b + .ofNat (a - b).toNat := by
  rw [UInt32.ofNat_toNat]
  grind

/-! ## The buffer -/

namespace CircBuf

/-- The bytes from the head on. -/
def view (b : CircBuf) : List UInt8 := Circular.view b.data b.dataHead

/-- From its head on, the buffer contains `held`. -/
structure Holds (b : CircBuf) (held : List UInt8) : Prop where
  fits : held.length ≤ b.dataLen
  take : b.view.take held.length = held

/-- A difference of sequence numbers that the buffer can bridge. -/
theorem offsetOf_eq {s head : UInt32} {k : Nat} (hk : k < 2 ^ 16) (h : s = head + .ofNat k) :
    offsetOf s head = k := by
  subst h
  have hsub : head + UInt32.ofNat k - head = UInt32.ofNat k := by
    rw [UInt32.add_comm, UInt32.add_sub_cancel]
  rw [offsetOf, hsub, BitVec.toInt_eq_toNat_of_lt]
  · have hnat : (UInt32.ofNat k).toNat = k := UInt32.toNat_ofNat_of_lt' (by
      have h32 : (2 : Nat) ^ 16 ≤ UInt32.size := by decide
      omega)
    exact congrArg Int.ofNat hnat
  · have hnat : (UInt32.ofNat k).toNat = k := UInt32.toNat_ofNat_of_lt' (by
      have h32 : (2 : Nat) ^ 16 ≤ UInt32.size := by decide
      omega)
    have hbv : (UInt32.ofNat k).toBitVec.toNat = k := hnat
    omega

theorem store_eq (b : CircBuf) {p : Nat} {bytes : List UInt8}
    (hfit : p + bytes.length ≤ b.data.length) :
    ∃ b', b.store p bytes = .ok b' ∧ b'.data = splice b.data p bytes ∧
      b'.dataHead = b.dataHead ∧ b'.headSeqno = b.headSeqno := by
  unfold store
  split
  · rename_i hout
    unfold dataLen at hout
    omega
  · exact ⟨_, rfl, rfl, rfl, rfl⟩

/-- Where `get_ptr_off_1` points, and how much fits in front of the end. -/
theorem getPtrOff1_eq {b : CircBuf} {s : UInt32} {k : Nat} (hk : k ≤ b.data.length)
    (hs : s = b.headSeqno + .ofNat k) (n : Nat) (hn : k + n ≤ b.data.length) :
    (b.dataHead + k + n ≤ b.data.length ∧ b.dataHead + k < b.data.length ∧
      b.getPtrOff1 s n = (((b.dataHead + k : Nat) : Int), (n : Int))) ∨
    (b.dataHead + k < b.data.length ∧ b.data.length < b.dataHead + k + n ∧
      b.getPtrOff1 s n = (((b.dataHead + k : Nat) : Int),
        ((b.data.length - (b.dataHead + k) : Nat) : Int))) ∨
    (b.data.length ≤ b.dataHead + k ∧
      b.getPtrOff1 s n = (((b.dataHead + k - b.data.length : Nat) : Int), (n : Int))) := by
  have hhead := b.head_le
  have hshort := b.data_short
  have hoff := offsetOf_eq (show k < 2 ^ 16 by omega) hs
  unfold getPtrOff1 dataLen
  dsimp only
  rw [hoff]
  by_cases hin : b.dataHead + k < b.data.length
  · have hin' : (b.dataHead : Int) + k < b.data.length := by omega
    simp only [if_pos hin']
    by_cases hend : b.dataHead + k + n ≤ b.data.length
    · refine .inl ⟨hend, hin, ?_⟩
      rw [if_neg (by omega)]
      rfl
    · refine .inr (.inl ⟨hin, by omega, ?_⟩)
      rw [if_pos (by omega)]
      simp only [Prod.mk.injEq]
      omega
  · have hin' : ¬(b.dataHead : Int) + k < b.data.length := by omega
    simp only [if_neg hin']
    refine .inr (.inr ⟨by omega, ?_⟩)
    rw [if_neg (by omega)]
    simp only [Prod.mk.injEq, and_true]
    omega

/-- A splice behind the first elements, cut where it ends. -/
theorem take_splice {l xs : List UInt8} {k : Nat} (hk : k ≤ l.length) :
    (splice l k xs).take (k + xs.length) = l.take k ++ xs := by
  have hlen : (l.take k ++ xs).length = k + xs.length := by
    rw [List.length_append, List.length_take]
    omega
  rw [splice, ← hlen, List.take_left]

theorem Holds.of_splice {b b' : CircBuf} {held bytes : List UInt8} (h : b.Holds held)
    (hfit : held.length + bytes.length ≤ b.dataLen) (hlen : b'.dataLen = b.dataLen)
    (hview : b'.view = splice b.view held.length bytes) : b'.Holds (held ++ bytes) := by
  have hbound := b.head_le
  have hview_len : b.view.length = b.data.length := Circular.length_view hbound
  refine ⟨by rw [List.length_append, hlen]; exact hfit, ?_⟩
  rw [List.length_append, hview, take_splice (by rw [hview_len]; exact h.fits), h.take]

/-- **A write behind what the buffer holds** appends to it, or is refused. -/
theorem Holds.write {b : CircBuf} {held bytes : List UInt8} (h : b.Holds held)
    (hfit : held.length + bytes.length ≤ b.dataLen) {s : UInt32}
    (hs : s = b.headSeqno + .ofNat held.length) :
    b.write s bytes = .error .rejected ∨
      ∃ b', b.write s bytes = .ok b' ∧ b'.Holds (held ++ bytes) ∧
        b'.headSeqno = b.headSeqno ∧ b'.dataLen = b.dataLen := by
  have hhead := b.head_le
  have hfit' : held.length + bytes.length ≤ b.data.length := hfit
  unfold CircBuf.write
  by_cases hfar : b.headSeqno + .ofNat b.dataLen < s
  · exact .inl (if_pos hfar)
  rw [if_neg hfar]
  by_cases hzero : bytes.length = 0
  · refine .inr ⟨b, if_pos hzero, ?_, rfl, rfl⟩
    rw [List.eq_nil_of_length_eq_zero hzero, List.append_nil]
    exact h
  rw [if_neg hzero]
  right
  rcases getPtrOff1_eq (show held.length ≤ b.data.length by omega) hs bytes.length hfit' with
    ⟨hend, -, hptr⟩ | ⟨hin, hout, hptr⟩ | ⟨hwrap, hptr⟩
  · obtain ⟨b', hstore, hdata, hhead', hseq⟩ := b.store_eq hend
    have hlen : b'.data.length = b.data.length := by rw [hdata, length_splice hend]
    refine ⟨b', ?_, h.of_splice hfit hlen ?_, hseq, hlen⟩
    · rw [hptr]
      dsimp only
      rw [if_neg (by omega), Int.toNat_natCast, List.take_length, hstore, Buffer.ok_bind,
        if_neg (fun hne => hne rfl)]
    · rw [view, hdata, hhead', Circular.view_splice_inside hend]
      rfl
  · have htake : (bytes.take (b.data.length - (b.dataHead + held.length))).length =
        b.data.length - (b.dataHead + held.length) := by
      rw [List.length_take]
      omega
    obtain ⟨b1, hstore1, hdata1, hhead1, hseq1⟩ := b.store_eq (p := b.dataHead + held.length)
      (show _ + (bytes.take (b.data.length - (b.dataHead + held.length))).length ≤ _ by omega)
    have hlen1 : b1.data.length = b.data.length := by rw [hdata1, length_splice (by omega)]
    have hdrop : (bytes.drop (b.data.length - (b.dataHead + held.length))).length =
        bytes.length - (b.data.length - (b.dataHead + held.length)) := List.length_drop
    have hfit1 : 0 + (bytes.drop (b.data.length - (b.dataHead + held.length))).length ≤
        b1.data.length := by omega
    obtain ⟨b2, hstore2, hdata2, hhead2, hseq2⟩ := b1.store_eq hfit1
    have hlen2 : b2.data.length = b.data.length := by
      rw [hdata2, length_splice (by omega), hlen1]
    refine ⟨b2, ?_, h.of_splice hfit hlen2 ?_, hseq2.trans hseq1, hlen2⟩
    · have hall : (bytes.drop (b.data.length - (b.dataHead + held.length))).take
          (min ((bytes.length : Int) - ((b.data.length - (b.dataHead + held.length) : Nat) : Int))
            (b1.dataHead : Int)).toNat =
          bytes.drop (b.data.length - (b.dataHead + held.length)) :=
        List.take_of_length_le (by omega)
      rw [hptr]
      dsimp only
      rw [if_neg (by omega), Int.toNat_natCast, hstore1, Buffer.ok_bind, if_pos (by omega), hall]
      exact hstore2
    · rw [view, hdata2, hhead2, hhead1, hdata1,
        Circular.view_splice_across hhead (by omega) (by omega) hfit']
      rfl
  · obtain ⟨b', hstore, hdata, hhead', hseq⟩ := b.store_eq
      (show b.dataHead + held.length - b.data.length + bytes.length ≤ b.data.length by omega)
    have hlen : b'.data.length = b.data.length := by rw [hdata, length_splice (by omega)]
    refine ⟨b', ?_, h.of_splice hfit hlen ?_, hseq, hlen⟩
    · rw [hptr]
      dsimp only
      rw [if_neg (by omega), Int.toNat_natCast, List.take_length, hstore, Buffer.ok_bind,
        if_neg (fun hne => hne rfl)]
    · rw [view, hdata, hhead', Circular.view_splice_wrapped hhead hwrap hfit']
      rfl

/-- **A read of what the buffer holds** returns it. -/
theorem Holds.read {b : CircBuf} {held : List UInt8} (h : b.Holds held) {k n : Nat}
    (hkn : k + n ≤ held.length) {s : UInt32} (hs : s = b.headSeqno + .ofNat k) :
    b.read s n = .ok ((held.drop k).take n) := by
  have hhead := b.head_le
  have hfit : held.length ≤ b.data.length := h.fits
  have hpart : ((b.view).drop k).take n = (held.drop k).take n := by
    conv => rhs; rw [← h.take]
    rw [List.drop_take, List.take_take, Nat.min_eq_left (by omega)]
  unfold CircBuf.read
  rcases getPtrOff1_eq (show k ≤ b.data.length by omega) hs n (by omega) with
    ⟨hend, -, hptr⟩ | ⟨hin, hout, hptr⟩ | ⟨hwrap, hptr⟩
  · have hload : b.load (b.dataHead + k : Nat) n = .ok ((b.data.drop (b.dataHead + k)).take n) :=
      if_neg (by unfold dataLen; omega)
    rw [hptr]
    dsimp only
    rw [hload, Buffer.ok_bind, if_neg (fun hne => hne rfl), Circular.view_read_inside hend]
    exact congrArg _ hpart
  · have hload : b.load (b.dataHead + k : Nat) ((b.data.length - (b.dataHead + k) : Nat) : Int) =
        .ok ((b.data.drop (b.dataHead + k)).take (b.data.length - (b.dataHead + k))) :=
      if_neg (by unfold dataLen; omega)
    have hmin : min ((n : Int) - ((b.data.length - (b.dataHead + k) : Nat) : Int)) b.dataHead =
        ((n - (b.data.length - (b.dataHead + k)) : Nat) : Int) := by omega
    have hload2 : b.load 0 ((n - (b.data.length - (b.dataHead + k)) : Nat) : Int) =
        .ok (b.data.take (n - (b.data.length - (b.dataHead + k)))) :=
      if_neg (by unfold dataLen; omega)
    rw [hptr]
    dsimp only
    rw [hload, Buffer.ok_bind, if_pos (by omega), hmin, hload2, Buffer.ok_bind,
      Circular.view_read_across hhead (by omega) (by omega) (by omega)]
    exact congrArg _ hpart
  · have hload : b.load (b.dataHead + k - b.data.length : Nat) n =
        .ok ((b.data.drop (b.dataHead + k - b.data.length)).take n) :=
      if_neg (by unfold dataLen; omega)
    rw [hptr]
    dsimp only
    rw [hload, Buffer.ok_bind, if_neg (fun hne => hne rfl),
      Circular.view_read_wrapped hhead hwrap (by omega)]
    exact congrArg _ hpart

/-- **Shortening the head** drops what is in front of it. -/
theorem Holds.shortenHead {b : CircBuf} {held : List UInt8} (h : b.Holds held) {j : Nat}
    (hj : j ≤ held.length) {s : UInt32} (hs : s = b.headSeqno + .ofNat j) :
    ∃ b', b.shortenHead s = some b' ∧ b'.Holds (held.drop j) ∧ b'.headSeqno = s ∧
      b'.dataLen = b.dataLen := by
  have hhead := b.head_le
  have hshort := b.data_short
  have hfit : held.length ≤ b.data.length := h.fits
  have hoff := offsetOf_eq (show j < 2 ^ 16 by omega) hs
  have hsum : ((b.dataHead : Int) + offsetOf s b.headSeqno).toNat = b.dataHead + j := by
    rw [hoff]
    omega
  obtain ⟨head, hhead', hwrap⟩ : ∃ head,
      head = (if b.dataHead + j ≤ b.data.length then b.dataHead + j
        else b.dataHead + j - b.data.length) ∧
      wrapHead b.dataLen ((b.dataHead : Int) + offsetOf s b.headSeqno).toNat = some head := by
    refine ⟨_, rfl, ?_⟩
    rw [hsum, wrapHead]
    unfold dataLen
    by_cases hin : b.dataHead + j ≤ b.data.length
    · rw [if_pos hin, if_pos hin]
    · rw [if_neg hin, if_neg hin, if_neg (by omega), wrapHead, if_pos (by omega)]
  unfold CircBuf.shortenHead
  rw [if_neg (by rw [hoff]; omega)]
  split
  · rename_i hnone
    cases hnone.symm.trans hwrap
  · rename_i head' hsome
    obtain rfl := Option.some.inj (hsome.symm.trans hwrap)
    refine ⟨_, rfl, ⟨?_, ?_⟩, rfl, rfl⟩
    · rw [List.length_drop]
      exact Nat.le_trans (Nat.sub_le _ _) hfit
    · have hview := Circular.view_advance hhead (Nat.le_trans hj hfit) hhead'
      have hlen : b.view.length = b.data.length := Circular.length_view hhead
      unfold view
      dsimp only
      rw [hview, List.length_drop, Circular.view,
        List.take_append_of_le_length (by
          rw [List.length_drop]
          unfold view at hlen
          omega), ← List.drop_take]
      exact congrArg _ h.take

end CircBuf

end Tcp
