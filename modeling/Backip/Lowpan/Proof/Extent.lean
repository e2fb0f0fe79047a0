import Backip.Lowpan.Frag

/-!
# Unpacking keeps the buffer's length

`r_buf` is written in place: what `lowpan_recon_start` unpacks into has its length afterwards, and
what is unpacked ends within it (`reconUnpack_extent`).
-/

set_option autoImplicit false

namespace Lowpan

variable {rbuf rbuf' buf buf' : List UInt8} {dest cnt nxtHdr : Nat} {dispatch : UInt8}

theorem extent_unpackExtNxt (h : unpackExtNxt rbuf dest dispatch buf = .ok (rbuf', buf')) :
    rbuf'.length = rbuf.length := by
  unfold unpackExtNxt at h
  split at h
  · simp only [Buffer.bind_eq_ok] at h
    obtain ⟨_, -, rbuf1, hw, hok⟩ := h
    obtain ⟨rfl, -⟩ := Prod.mk.inj (Except.ok.inj hok)
    exact (Buffer.length_write hw).1
  · obtain ⟨rfl, -⟩ := Prod.mk.inj (Except.ok.inj h)
    rfl

theorem extent_unpackExt (h : unpackExt rbuf dest cnt nxtHdr dispatch buf = .ok (rbuf', buf')) :
    rbuf'.length = rbuf.length := by
  unfold unpackExt at h
  split at h
  · cases h
  · simp only [Buffer.bind_eq_ok] at h
    obtain ⟨rbuf1, hw1, ⟨rbuf2, buf2⟩, hnxt, _, -, h⟩ := h
    have h1 := (Buffer.length_write hw1).1
    have h2 := extent_unpackExtNxt hnxt
    split at h
    · cases h
    · simp only [Buffer.bind_eq_ok] at h
      obtain ⟨_, -, rbuf3, hw3, rbuf4, hw4, rbuf5, hw5, _, -, hok⟩ := h
      obtain ⟨rfl, -⟩ := Prod.mk.inj (Except.ok.inj hok)
      rw [(Buffer.length_write hw5).1, (Buffer.length_write hw4).1, (Buffer.length_write hw3).1,
        h2, h1]

theorem extent_unpackUdp (h : unpackUdp rbuf dest nxtHdr buf = .ok (rbuf', buf')) :
    rbuf'.length = rbuf.length := by
  simp only [unpackUdp, Buffer.bind_eq_ok] at h
  obtain ⟨_, -, rbuf1, hw1, rbuf2, hw2, _, -, rbuf3, hw3, h⟩ := h
  have h3 : rbuf3.length = rbuf.length := by
    rw [(Buffer.length_write hw3).1, (Buffer.length_write hw2).1, (Buffer.length_write hw1).1]
  split at h
  · simp only [Buffer.bind_eq_ok] at h
    obtain ⟨_, -, _, -, rbuf4, hw4, hok⟩ := h
    obtain ⟨rfl, -⟩ := Prod.mk.inj (Except.ok.inj hok)
    rw [(Buffer.length_write hw4).1, h3]
  · obtain ⟨rfl, -⟩ := Prod.mk.inj (Except.ok.inj h)
    exact h3

theorem extent_unpackIpnh (h : unpackIpnh rbuf dest cnt nxtHdr buf = .ok (rbuf', buf')) :
    rbuf'.length = rbuf.length := by
  unfold unpackIpnh at h
  split at h
  · cases h
  · split at h
    · exact extent_unpackExt h
    · split at h
      · exact extent_unpackUdp h
      · cases h

theorem extent_unpackNhcChain {u : Unpacked}
    (h : unpackNhcChain rbuf dest cnt nxtHdr buf = .ok (u, buf')) :
    u.rbuf.length = rbuf.length := by
  induction hn : buf.length using Nat.strongRecOn generalizing rbuf dest cnt nxtHdr buf with
  | ind n ih =>
    cases hi : unpackIpnh rbuf dest cnt nxtHdr buf with
    | error e =>
      rw [unpackNhcChain_of_error hi] at h
      cases h
    | ok r =>
      obtain ⟨rbuf1, rest⟩ := r
      have hlen := extent_unpackIpnh hi
      rw [unpackNhcChain_of_ok hi] at h
      split at h
      · split at h
        · rw [← hlen]
          exact ih rest.length (hn ▸ length_unpackIpnh hi) h rfl
        · obtain ⟨rfl, -⟩ := Prod.mk.inj (Except.ok.inj h)
          exact hlen
      · obtain ⟨rfl, -⟩ := Prod.mk.inj (Except.ok.inj h)
        exact hlen

theorem extent_copyPayload {u u' : Unpacked} (h : copyPayload u buf = .ok u') :
    u'.rbuf.length = u.rbuf.length ∧ u'.stop ≤ u.rbuf.length := by
  simp only [copyPayload, Buffer.bind_eq_ok] at h
  obtain ⟨rbuf1, hw, hok⟩ := h
  cases hok
  exact Buffer.length_write hw

theorem extent_lowpanUnpackHeaders {c : Contexts} {frame : FrameAddr} {size : Nat}
    {pkt : List UInt8} {u : Unpacked} (h : lowpanUnpackHeaders c frame rbuf size pkt = .ok u) :
    u.rbuf.length = rbuf.length ∧ u.stop ≤ rbuf.length := by
  simp only [lowpanUnpackHeaders, Buffer.bind_eq_ok] at h
  obtain ⟨_, -, h⟩ := h
  split at h
  · cases h
  · simp only [Buffer.bind_eq_ok] at h
    obtain ⟨_, -, _, -, _, -, rbuf1, hw1, _, -, rbuf2, hw2, _, -, rbuf3, hw3, _, -, rbuf4, hw4, _, -,
      rbuf5, hw5, ⟨u1, buf1⟩, hnext, hcopy⟩ := h
    have h5 : rbuf5.length = rbuf.length := by
      rw [(Buffer.length_write hw5).1, (Buffer.length_write hw4).1, (Buffer.length_write hw3).1,
        (Buffer.length_write hw2).1, (Buffer.length_write hw1).1]
    have h6 : u1.rbuf.length = rbuf5.length := by
      unfold unpackNext at hnext
      split at hnext
      · exact extent_unpackNhcChain hnext
      · obtain ⟨rfl, -⟩ := Prod.mk.inj (Except.ok.inj hnext)
        rfl
    obtain ⟨hlen, hstop⟩ := extent_copyPayload hcopy
    exact ⟨by rw [hlen, h6, h5], by rw [← h5, ← h6]; exact hstop⟩

/-- **The extent of what is unpacked**: it ends within the buffer. -/
theorem reconUnpack_extent {c : Contexts} {frame : FrameAddr} {pkt : List UInt8} {u : Unpacked}
    (h : reconUnpack c frame rbuf pkt = .ok u) :
    u.rbuf.length = rbuf.length ∧ u.stop ≤ rbuf.length := by
  simp only [reconUnpack, Buffer.bind_eq_ok] at h
  obtain ⟨⟨b, rest⟩, -, h⟩ := h
  split at h
  · simp only [Buffer.bind_eq_ok] at h
    obtain ⟨rbuf1, hw, hok⟩ := h
    cases hok
    have := Buffer.length_write hw
    simpa using this
  · exact extent_lowpanUnpackHeaders h

theorem reconFill_extent {size : UInt16} {u : Unpacked} (h : reconFill size u = .ok rbuf) :
    rbuf.length = u.rbuf.length := by
  simp only [reconFill, Buffer.bind_eq_ok] at h
  obtain ⟨rbuf1, hw, h⟩ := h
  split at h
  · cases h
    exact (Buffer.length_write hw).1
  · rw [(Buffer.length_write h).1, (Buffer.length_write hw).1]

end Lowpan
