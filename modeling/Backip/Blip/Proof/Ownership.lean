import Backip.Blip.Reassembly
import Backip.Lowpan.Proof.Extent
import Backip.Lowpan.Proof.IpMalloc
import Mathlib.Algebra.Group.Int.Defs
import Mathlib.Algebra.Group.Nat.Defs

/-!
# Who owns the reassembly buffers

`Owns s`: each buffer of an entry is a block of the heap that is in use, no two entries have the
same, every block in use is some entry's, an unused entry has none, and so it was at every
`ip_free`, `lowpan_recon_add` and `deliver` so far.

Two steps break it. When the headers of a first fragment do not unpack, `lowpan_recon_start` frees
the buffer and the entry keeps the pointer, for `reconstruct_age` to free again. And a later
fragment that finds no reassembly of its datagram is added to an unused entry.

* `owns_iff`: in every run `Owns` holds in all states exactly if all frames are `Proper`.
-/

set_option autoImplicit false

namespace Blip

open Blocks (UsedAt)
open IpMalloc (Mem ipMalloc ipFree Layout Allocated)
open Lowpan (Contexts FrameAddr)

variable {c : Contexts} {mem mem' : Mem} {bs : List Block} {o p n : Nat} {b : Block}

/-! ## Memory -/

theorem writeBytes_of_ne {xs : List UInt8} {i : Nat} (h : writeBytes mem p xs i ≠ mem i) :
    p ≤ i ∧ i < p + xs.length := by
  by_contra hne
  exact h (if_neg hne)

theorem length_readBytes : (readBytes mem p n).length = n := by
  simp [readBytes]

/-- A buffer is written within its block. -/
theorem layout_writeBytes {xs : List UInt8} {k : Nat} (h : Layout mem bs)
    (hb : UsedAt 0 bs o b) (hfit : k + xs.length + 2 ≤ b.len) :
    Layout (writeBytes mem (o + 2 + k) xs) bs := by
  refine h.congr hb fun i hi => ?_
  have := writeBytes_of_ne hi
  omega

/-! ## The property -/

/-- `ip_free` frees a block that is in use and that no other entry has; `lowpan_recon_add` and
`deliver` are applied to an entry with a block in use. -/
def Call.Ok : Call → Prop
  | .free mem p others => Allocated mem p ∧ p ∉ others
  | .add mem buf => ∃ p, buf = some p ∧ Allocated mem p
  | .deliver mem buf => ∃ p, buf = some p ∧ Allocated mem p

namespace Reassembly

structure Owns (s : Reassembly) : Prop where
  noFault : s.fault = false
  allocated : ∀ i p, (s.reconData i).buf = some p → Allocated s.mem p
  sole : ∀ i j p, (s.reconData i).buf = some p → (s.reconData j).buf = some p → i = j
  noLeak : ∀ p, Allocated s.mem p → ∃ i, (s.reconData i).buf = some p
  unused : ∀ i, (s.reconData i).timeout = .unused → (s.reconData i).buf = none
  calls : ∀ call ∈ s.calls, call.Ok

/-- What holds besides: the blocks are large enough, and a reassembly in progress has one. -/
structure Good (s : Reassembly) (bs : List Block) : Prop where
  noFault : s.fault = false
  layout : Layout s.mem bs
  owned : ∀ i p, (s.reconData i).buf = some p →
    ∃ o b, UsedAt 0 bs o b ∧ p = o + 2 ∧ (s.reconData i).size.toNat + 2 ≤ b.len ∧
      6 ≤ (s.reconData i).size.toNat ∧ (s.reconData i).size.toNat ≤ 2047 ∧
      (s.reconData i).bytesRcvd.toNat ≤ (s.reconData i).size.toNat
  sole : ∀ i j p, (s.reconData i).buf = some p → (s.reconData j).buf = some p → i = j
  noLeak : ∀ o b, UsedAt 0 bs o b → ∃ i, (s.reconData i).buf = some (o + 2)
  unused : ∀ i, (s.reconData i).timeout = .unused → (s.reconData i).buf = none
  inUse : ∀ i, (s.reconData i).timeout = .active ∨ (s.reconData i).timeout = .zombie →
    (s.reconData i).buf ≠ none
  calls : ∀ call ∈ s.calls, call.Ok

variable {s s' : Reassembly} {i : Fin nReconstructions} {recon : Recon}

theorem Good.owns (h : Good s bs) : Owns s where
  noFault := h.noFault
  allocated i p hp := by
    obtain ⟨o, b, hb, ho, -⟩ := h.owned i p hp
    exact ⟨bs, o, b, h.layout, hb, ho⟩
  sole := h.sole
  noLeak p hp := by
    obtain ⟨o, b, hb, rfl⟩ := h.layout.allocated_iff.1 hp
    exact h.noLeak o b hb
  unused := h.unused
  calls := h.calls

theorem Good.boot (m : Mem) (data : Fin nReconstructions → Recon) :
    Good (boot m data) [⟨IpMalloc.ipMallocHeapSize, true⟩] where
  noFault := rfl
  layout := .init m
  owned i p hp := by cases hp
  sole i j p hp := by cases hp
  noLeak o b hb := by simp [Blocks.usedAt_true] at hb
  unused i _ := rfl
  inUse i hi := by
    rcases hi with hi | hi <;> cases hi
  calls call hc := by cases hc

theorem mem_others {q : Option (Fin nReconstructions)} :
    p ∈ s.others q ↔ ∃ j, some j ≠ q ∧ (s.reconData j).buf = some p := by
  simp [others]

theorem set_same : (s.set i recon).reconData i = recon := if_pos rfl

theorem set_other {j : Fin nReconstructions} (h : j ≠ i) :
    (s.set i recon).reconData j = s.reconData j := if_neg h

/-! ## Steps that keep the property -/

/-- The entry keeps its buffer. -/
theorem Good.set (h : Good s bs) (hbuf : recon.buf = (s.reconData i).buf)
    (hsize : recon.buf ≠ none → recon.size = (s.reconData i).size ∧
      (recon.bytesRcvd = (s.reconData i).bytesRcvd ∨ recon.bytesRcvd.toNat ≤ recon.size.toNat))
    (hunused : recon.timeout = .unused → recon.buf = none)
    (huse : recon.timeout = .active ∨ recon.timeout = .zombie → recon.buf ≠ none) :
    Good (s.set i recon) bs := by
  have hbufs (j : Fin nReconstructions) :
      ((s.set i recon).reconData j).buf = (s.reconData j).buf := by
    by_cases hj : j = i
    · rw [hj, set_same, hbuf]
    · rw [set_other hj]
  refine ⟨h.noFault, h.layout, ?_, ?_, ?_, ?_, ?_, h.calls⟩
  · intro j p hp
    rw [hbufs] at hp
    by_cases hj : j = i
    · subst hj
      obtain ⟨hsize, hrcvd⟩ := hsize (by rw [hbuf, hp]; simp)
      obtain ⟨o, b, hb, ho, hfit, hsix, hmax, hold⟩ := h.owned j p hp
      rw [set_same, hsize]
      refine ⟨o, b, hb, ho, hfit, hsix, hmax, ?_⟩
      rcases hrcvd with hrcvd | hrcvd
      · rw [hrcvd]
        exact hold
      · rw [← hsize]
        exact hrcvd
    · rw [set_other hj]
      exact h.owned j p hp
  · intro j k p hj hk
    rw [hbufs] at hj hk
    exact h.sole j k p hj hk
  · intro o b hb
    exact (h.noLeak o b hb).imp fun j hj => (hbufs j).trans hj
  · intro j hj
    by_cases hji : j = i
    · rw [hji, set_same] at hj ⊢
      exact hunused hj
    · rw [set_other hji] at hj ⊢
      exact h.unused j hj
  · intro j hj
    by_cases hji : j = i
    · rw [hji, set_same] at hj ⊢
      exact huse hj
    · rw [set_other hji] at hj ⊢
      exact h.inUse j hj

/-- The entry gives its buffer back. -/
theorem Good.release (h : Good s bs) (recon : Recon) {calls : List Call}
    (hp : (s.reconData i).buf = some p) (hlay : Layout mem bs) (hnone : recon.buf = none)
    (huse : recon.timeout ≠ .active ∧ recon.timeout ≠ .zombie)
    (hcalls : ∀ call ∈ calls, call.Ok) :
    ∃ mem' bs', ipFree mem p = some mem' ∧
      Good { s.set i recon with mem := mem', calls := calls } bs' ∧
      (Call.free mem p (s.others (some i))).Ok := by
  obtain ⟨o, b, hb, rfl, -⟩ := h.owned i p hp
  obtain ⟨mem', bs', hm, hl, hiff⟩ := hlay.free hb
  have hbufs {j : Fin nReconstructions} {q : Nat}
      (hq : ((s.set i recon).reconData j).buf = some q) : j ≠ i ∧ (s.reconData j).buf = some q := by
    by_cases hj : j = i
    · rw [hj, set_same, hnone] at hq
      cases hq
    · rw [set_other hj] at hq
      exact ⟨hj, hq⟩
  refine ⟨mem', bs', hm, ⟨h.noFault, hl, ?_, ?_, ?_, ?_, ?_, hcalls⟩,
    ⟨bs, o, b, hlay, hb, rfl⟩, ?_⟩
  · intro j q hq
    obtain ⟨hj, hq⟩ := hbufs hq
    obtain ⟨o', b', hb', rfl, hfit⟩ := h.owned j q hq
    refine ⟨o', b', (hiff o' b').2 ⟨hb', ?_⟩, rfl, ?_⟩
    · rintro rfl
      exact hj (h.sole j i _ hq hp)
    · simp only [set_other hj]
      exact hfit
  · intro j k q hj hk
    exact h.sole j k q (hbufs hj).2 (hbufs hk).2
  · intro o' b' hb'
    obtain ⟨hb', hne⟩ := (hiff o' b').1 hb'
    obtain ⟨j, hj⟩ := h.noLeak o' b' hb'
    have hji : j ≠ i := by
      rintro rfl
      rw [hp] at hj
      simp only [Option.some.injEq, Nat.add_right_cancel_iff] at hj
      exact hne hj.symm
    exact ⟨j, by simpa only [set_other hji] using hj⟩
  · intro j hj
    by_cases hji : j = i
    · simp only [hji, set_same]
      exact hnone
    · simp only [set_other hji] at hj ⊢
      exact h.unused j hj
  · intro j hj
    by_cases hji : j = i
    · simp only [hji, set_same] at hj
      rcases hj with hj | hj
      · exact absurd hj huse.1
      · exact absurd hj huse.2
    · simp only [set_other hji] at hj ⊢
      exact h.inUse j hj
  · intro hmem
    obtain ⟨j, hne, hj⟩ := mem_others.1 hmem
    exact hne (congrArg some (h.sole j i _ hj hp))

/-- The entry gets a new block. -/
theorem Good.acquire {bs' : List Block} (h : Good s bs) (recon : Recon)
    (hnone : (s.reconData i).buf = none)
    (hl : Layout mem bs') (hfresh : ∀ c, ¬ UsedAt 0 bs o c)
    (hnew : ∀ q c, UsedAt 0 bs' q c ↔ UsedAt 0 bs q c ∨ (q = o ∧ c = ⟨n, false⟩))
    (hbuf : recon.buf = some (o + 2)) (hroom : recon.size.toNat + 2 ≤ n)
    (hsize : 6 ≤ recon.size.toNat ∧ recon.size.toNat ≤ 2047 ∧
      recon.bytesRcvd.toNat ≤ recon.size.toNat)
    (huse : recon.timeout ≠ .unused) : Good { s.set i recon with mem := mem } bs' := by
  have howner {j : Fin nReconstructions} {p : Nat} (hj : j ≠ i)
      (hp : (s.reconData j).buf = some p) : p ≠ o + 2 := by
    obtain ⟨q, b, hb, rfl, -⟩ := h.owned j p hp
    intro he
    obtain rfl : q = o := Nat.add_right_cancel he
    exact hfresh b hb
  refine ⟨h.noFault, hl, ?_, ?_, ?_, ?_, ?_, h.calls⟩
  · intro j p hp
    by_cases hj : j = i
    · simp only [hj, set_same] at hp ⊢
      rw [hbuf] at hp
      cases hp
      exact ⟨o, ⟨n, false⟩, (hnew _ _).2 (.inr ⟨rfl, rfl⟩), rfl, hroom, hsize⟩
    · simp only [set_other hj] at hp ⊢
      obtain ⟨q, b, hb, hq⟩ := h.owned j p hp
      exact ⟨q, b, (hnew q b).2 (.inl hb), hq⟩
  · intro j k p hj hk
    by_cases hji : j = i <;> by_cases hki : k = i
    · rw [hji, hki]
    · simp only [hji, set_same, set_other hki, hbuf, Option.some.injEq] at hj hk
      exact absurd hj.symm (howner hki hk)
    · simp only [hki, set_same, set_other hji, hbuf, Option.some.injEq] at hj hk
      exact absurd hk.symm (howner hji hj)
    · simp only [set_other hji, set_other hki] at hj hk
      exact h.sole j k p hj hk
  · intro q b hb
    rcases (hnew q b).1 hb with hb | ⟨rfl, -⟩
    · obtain ⟨j, hj⟩ := h.noLeak q b hb
      have hji : j ≠ i := by
        rintro rfl
        rw [hnone] at hj
        cases hj
      exact ⟨j, by simpa only [set_other hji] using hj⟩
    · exact ⟨i, by simp only [set_same, hbuf]⟩
  · intro j hj
    by_cases hji : j = i
    · simp only [hji, set_same] at hj
      exact absurd hj huse
    · simp only [set_other hji] at hj ⊢
      exact h.unused j hj
  · intro j hj
    by_cases hji : j = i
    · simp [hji, set_same, hbuf]
    · simp only [set_other hji] at hj ⊢
      exact h.inUse j hj

/-- Further calls, and other contents of a buffer. -/
theorem Good.memory {bs' : List Block} (h : Good s bs) (calls : List Call) (hl : Layout mem bs')
    (hiff : ∀ q c, UsedAt 0 bs' q c ↔ UsedAt 0 bs q c) (hcalls : ∀ call ∈ calls, call.Ok) :
    Good { s with mem := mem, calls := calls ++ s.calls } bs' where
  noFault := h.noFault
  layout := hl
  owned i p hp := by
    obtain ⟨o, b, hb, hfit⟩ := h.owned i p hp
    exact ⟨o, b, (hiff o b).2 hb, hfit⟩
  sole := h.sole
  noLeak o b hb := h.noLeak o b ((hiff o b).1 hb)
  unused := h.unused
  inUse := h.inUse
  calls := List.forall_mem_append.2 ⟨hcalls, h.calls⟩

/-! ## The timer -/

theorem Good.age (h : Good s bs) (i : Fin nReconstructions) :
    ∃ s' bs', reconstructAge s i = .ok s' ∧ Good s' bs' := by
  cases ht : (s.reconData i).timeout with
  | active =>
    simp only [reconstructAge, ht]
    exact ⟨_, bs, rfl, h.set rfl (fun _ => ⟨rfl, .inl rfl⟩) (by simp) fun _ => h.inUse i (.inl ht)⟩
  | failed1 =>
    simp only [reconstructAge, ht]
    exact ⟨_, bs, rfl, h.set rfl (fun _ => ⟨rfl, .inl rfl⟩) (by simp) (by simp)⟩
  | unused => exact ⟨s, bs, by simp only [reconstructAge, ht], h⟩
  | zombie | failed2 =>
    cases hp : (s.reconData i).buf with
    | none =>
      simp only [reconstructAge, ht, hp]
      exact ⟨_, bs, rfl, h.set hp.symm (fun _ => ⟨rfl, .inl rfl⟩) (fun _ => rfl) (by simp)⟩
    | some p =>
      obtain ⟨mem', bs', hm, hg, hcall⟩ := h.release
        { s.reconData i with timeout := .unused, buf := none } hp h.layout rfl (by simp) h.calls
      simp only [reconstructAge, ht, hp, hm, ended]
      have hcalls := List.forall_mem_singleton.2 hcall
      exact ⟨_, bs', rfl, hg.memory [_] hg.layout (fun _ _ => .rfl) hcalls⟩

theorem Good.expire (h : Good s bs) : ∃ s' bs', s.expire = .ok s' ∧ Good s' bs' := by
  unfold Reassembly.expire
  induction List.finRange nReconstructions generalizing s bs with
  | nil => exact ⟨s, bs, rfl, h⟩
  | cons i is ih =>
    obtain ⟨s1, bs1, h1, hg1⟩ := h.age i
    obtain ⟨s2, bs2, h2, hg2⟩ := ih hg1
    exact ⟨s2, bs2, by rw [List.foldlM_cons, h1]; exact h2, hg2⟩

/-! ## `lib6lowpan_frag.c` -/

/-- What stands behind the link headers unpacks into a buffer of `size` bytes. -/
def Unpacks (c : Contexts) (frame : FrameAddr) (size : UInt16) (headers : Lowpan.Headers)
    (pkt : List UInt8) : Prop :=
  ∃ u rbuf, Lowpan.reconUnpack c frame (List.replicate size.toNat 0) (pkt.drop headers.len) =
    .ok u ∧ Lowpan.reconFill (if headers.frag1 then size else .ofNat u.stop) u = .ok rbuf

/-- `lowpan_unpack_headers` gives up on it. -/
def Refused (c : Contexts) (frame : FrameAddr) (size : UInt16) (headers : Lowpan.Headers)
    (pkt : List UInt8) : Prop :=
  Lowpan.reconUnpack c frame (List.replicate size.toNat 0) (pkt.drop headers.len) =
    .error .rejected

variable {frame : FrameAddr} {headers : Lowpan.Headers} {pkt : List UInt8} {others : List Nat}

theorem reconUnpackAt_of_unpacks (mem : Mem) (p : Nat) (others : List Nat) (recon : Recon)
    (h : Unpacks c frame recon.size headers pkt) :
    ∃ rbuf stop size, reconUnpackAt c mem p others frame recon headers pkt =
        .ok (0, writeBytes mem p rbuf, { recon with size := size, bytesRcvd := stop }, []) ∧
      rbuf.length = recon.size.toNat ∧ stop.toNat ≤ recon.size.toNat ∧ 6 ≤ recon.size.toNat ∧
      size = (if headers.frag1 then recon.size else stop) := by
  obtain ⟨u, rbuf, hu, hfill⟩ := h
  obtain ⟨hlen, hstop⟩ := Lowpan.reconUnpack_extent hu
  rw [List.length_replicate] at hlen hstop
  have hsix : 6 ≤ u.rbuf.length := by
    simp only [Lowpan.reconFill, Buffer.bind_eq_ok] at hfill
    obtain ⟨rbuf1, hw, -⟩ := hfill
    exact (Buffer.length_write hw).2
  have hlt := recon.size.toNat_lt
  refine ⟨rbuf, .ofNat u.stop, if headers.frag1 then recon.size else .ofNat u.stop, ?_,
    (Lowpan.reconFill_extent hfill).trans hlen, ?_, hlen ▸ hsix, rfl⟩
  · simp only [reconUnpackAt, hu, hfill]
    rfl
  · rw [UInt16.toNat_ofNat_of_lt' (by simp only [UInt16.size]; omega)]
    exact hstop

theorem reconUnpackAt_of_refused (others : List Nat) (recon : Recon)
    (h : Refused c frame recon.size headers pkt)
    (hm : ipFree mem p = some mem') :
    reconUnpackAt c mem p others frame recon headers pkt =
      .ok (-3, mem', recon, [.free mem p others]) := by
  rw [Refused] at h
  simp only [reconUnpackAt, h, hm, ended]
  rfl

/-- Otherwise an access goes out of bounds. -/
theorem unpacks_of_ok {r : Int × Mem × Recon × List Call}
    (h : reconUnpackAt c mem p others frame recon headers pkt = .ok r) :
    Unpacks c frame recon.size headers pkt ∨ Refused c frame recon.size headers pkt := by
  unfold reconUnpackAt at h
  split at h
  · cases h
  · rename_i hu
    exact .inr hu
  · rename_i u hu
    simp only [Buffer.bind_eq_ok] at h
    obtain ⟨rbuf, hfill, -⟩ := h
    exact .inl ⟨u, rbuf, hu, hfill⟩

theorem fragDgramSize_le {size : UInt16} (h : Lowpan.getFragDgramSize pkt = .ok size) :
    size ≤ 2047 := by
  match pkt, h with
  | b0 :: b1 :: _, h =>
    cases h
    have hb : b0.toNat &&& 7 ≤ 7 := Nat.and_le_right
    have hb1 := b1.toNat_lt
    have hhi : (b0 &&& 0x7).toUInt16 <<< 8 = (b0 &&& 0x7).toUInt16 * 256 := by
      apply UInt16.toNat_inj.1
      simp [Nat.shiftLeft_eq]
    rw [UInt16.le_iff_toNat_le, ntohs, UInt16.toNat_or, hhi]
    have hor := Nat.or_lt_two_pow (n := 11)
      (x := ((b0 &&& 0x7).toUInt16 * 256).toNat) (y := b1.toUInt16.toNat)
      (by simp; omega) (by simp; omega)
    have : (2047 : UInt16).toNat = 2047 := rfl
    omega

/-- What `lowpan_recon_start` does with its block. -/
theorem start_of_frag1 {tag size : UInt16} (hh : Lowpan.getHeaderBitmap pkt = some headers)
    (hf : headers.frag1 = true) (htag : Lowpan.getFragDgramTag pkt = .ok tag)
    (hsize : Lowpan.getFragDgramSize pkt = .ok size) {buf : Option Nat}
    (hm : ipMalloc mem size = some (mem', buf)) :
    lowpanReconStart c mem others frame recon pkt =
      match buf with
      | none => .ok (-2, mem', { recon with tag := tag, size := size, buf := none }, [])
      | some p => reconUnpackAt c mem' p others frame
          { recon with tag := tag, size := size, buf := some p } headers pkt := by
  simp only [lowpanReconStart, hh, hf, htag, hsize, if_true]
  cases buf with
  | none => simp only [Buffer.ok_bind, hm, ended]
  | some p => simp only [Buffer.ok_bind, hm, ended]

theorem start_of_whole (hh : Lowpan.getHeaderBitmap pkt = some headers)
    (hf : headers.frag1 = false) {buf : Option Nat}
    (hm : ipMalloc mem 209 = some (mem', buf)) :
    lowpanReconStart c mem others frame recon pkt =
      match buf with
      | none => .ok (-2, mem', { recon with size := 209, buf := none }, [])
      | some p => reconUnpackAt c mem' p others frame
          { recon with size := 209, buf := some p } headers pkt := by
  have hsize : UInt16.ofNat (Lowpan.lib6lowpanMaxLen + Lowpan.lowpanLinkMtu) = 209 := rfl
  simp only [lowpanReconStart, hh, hf, hsize]
  cases buf with
  | none => simp [hm, ended]
  | some p => simp [hm, ended]

/-! ## `IPDispatchP` -/

theorem set_set {r : Recon} : (s.set i r).set i recon = s.set i recon := by
  simp only [Reassembly.set]
  congr 1
  funext j
  split <;> rfl

theorem others_set : (s.set i recon).others (some i) = s.others (some i) := by
  unfold Reassembly.others
  refine List.filterMap_congr fun j hj => ?_
  have hne : j ≠ i := by
    simp only [List.mem_filter, decide_eq_true_eq] at hj
    exact fun he => hj.2 (congrArg some he)
  rw [set_other hne]

/-- A complete reassembly is delivered from its own block. -/
theorem Good.complete (h : Good (s.set i recon) bs) (hbuf : recon.buf ≠ none) :
    ∃ s' bs', s.complete i recon = .ok s' ∧ Good s' bs' := by
  unfold Reassembly.complete
  split
  · obtain ⟨p, hp⟩ := Option.ne_none_iff_exists'.1 hbuf
    have hpi : ((s.set i recon).reconData i).buf = some p := by rw [set_same, hp]
    obtain ⟨o, b, hb, rfl, hfit, hsix, -⟩ := h.owned i p hpi
    rw [set_same] at hfit hsix
    have hlay : Layout (writeBytes s.mem (o + 2 + 4)
        (recon.bytesRcvd - .ofNat Lowpan.ip6HdrSize).netBytes) bs :=
      layout_writeBytes h.layout hb (by simp only [UInt16.length_netBytes]; omega)
    obtain ⟨mem', bs', hm, hg, hcall⟩ := h.release
      { recon with timeout := .unused, buf := none } hpi hlay rfl (by simp) h.calls
    rw [set_set] at hg
    rw [others_set] at hcall
    simp only [deliver, hp, hm, ended, Buffer.ok_bind]
    refine ⟨_, bs', rfl, ?_⟩
    have hdeliver : (Call.deliver s.mem (some (o + 2))).Ok :=
      ⟨o + 2, rfl, bs, o, b, h.layout, hb, rfl⟩
    have := hg.memory [_, _] hg.layout (fun _ _ => .rfl)
      (List.forall_mem_cons.2 ⟨hcall, List.forall_mem_singleton.2 hdeliver⟩)
    exact ⟨this.noFault, this.layout, this.owned, this.sole, this.noLeak, this.unused, this.inUse,
      this.calls⟩
  · exact ⟨_, bs, rfl, h⟩

variable {key tag : UInt16} {lqi rssi : UInt8}

theorem fragDgramSize_of_tag (h : Lowpan.getFragDgramTag pkt = .ok tag) :
    ∃ size, Lowpan.getFragDgramSize pkt = .ok size := by
  match pkt, h with
  | b0 :: b1 :: _ :: _ :: _, _ => exact ⟨_, rfl⟩

/-- A first fragment whose headers unpack, or that finds no block, or that finds a reassembly. -/
theorem Good.first (h : Good s bs) (hh : Lowpan.getHeaderBitmap pkt = some headers)
    (hf : headers.frag1 = true) (htag : Lowpan.getFragDgramTag pkt = .ok tag)
    (hidle : (s.reconData i).buf = none → (s.reconData i).timeout = .unused)
    (hstart : (s.reconData i).timeout = .unused → ∀ size, Lowpan.getFragDgramSize pkt = .ok size →
      ∀ m p, ipMalloc s.mem size = some (m, some p) → Unpacks c frame size headers pkt) :
    ∃ s' bs', receiveFragment c s i frame headers key tag pkt lqi rssi = .ok s' ∧ Good s' bs' := by
  cases hbuf : (s.reconData i).buf with
  | some p =>
    simp only [receiveFragment, hf, hbuf, Option.isSome_some, Bool.and_self, if_true]
    refine ⟨_, bs, rfl, h.set hbuf.symm (fun _ => ⟨rfl, .inl rfl⟩) (fun ht => ?_) (by simp)⟩
    rw [← h.unused i ht, hbuf]
  | none =>
    obtain ⟨size, hsize⟩ := fragDgramSize_of_tag htag
    have hmax := fragDgramSize_le hsize
    simp only [receiveFragment, hf, hbuf, Option.isSome_none, Bool.and_false, if_true]
    rcases h.layout.malloc hmax with ⟨hm, -⟩ | ⟨o, n, mem1, bs1, hm, hl1, hn, hfresh, hnew⟩
    · rw [start_of_frag1 hh hf htag hsize hm]
      refine ⟨_, bs, rfl, ?_⟩
      have hnone := h.memory [] h.layout (fun _ _ => .rfl) (by simp)
      exact hnone.set hbuf.symm (by simp) (by simp) (by simp)
    · have hun := hstart (hidle hbuf) size hsize mem1 (o + 2) hm
      obtain ⟨rbuf, stop, size', hok, hlen, hstop, hsix, rfl⟩ := reconUnpackAt_of_unpacks mem1
        (o + 2) (s.others (some i)) { s.reconData i with
          metadata := ⟨frame.src, lqi, rssi⟩, tag := tag, size := size, buf := some (o + 2) } hun
      rw [start_of_frag1 hh hf htag hsize hm]
      simp only [hf, if_true] at hlen hstop hsix hok
      have hlay : Layout (writeBytes mem1 (o + 2) rbuf) bs1 :=
        layout_writeBytes (k := 0) hl1 ((hnew _ _).2 (.inr ⟨rfl, rfl⟩)) (by simp only; omega)
      have hacq := h.acquire { s.reconData i with
          metadata := ⟨frame.src, lqi, rssi⟩, tag := tag, size := size, buf := some (o + 2),
          bytesRcvd := stop, timeout := .active, sourceKey := key } hbuf hlay hfresh hnew rfl hn
        ⟨hsix, UInt16.le_iff_toNat_le.1 hmax, hstop⟩ (by simp)
      have := Good.complete (s := { s with mem := writeBytes mem1 (o + 2) rbuf }) hacq (by simp)
      simp only [hok, Buffer.ok_bind]
      exact this

/-- A later fragment is as long as its header, or `lowpan_recon_add` refuses it. -/
def Framed (recon : Recon) (headers : Lowpan.Headers) (pkt : List UInt8) : Prop :=
  headers.len ≤ pkt.length ∨ recon.size.toNat <
    (recon.bytesRcvd.toNat + Lowpan.sizeSub pkt.length headers.len) % 2 ^ 16

/-- What `lowpan_recon_add` does to the buffer of a reassembly. -/
theorem add_of_framed (h : Good s bs) (recon : Recon) (hp : recon.buf = some p)
    (hown : recon.size = (s.reconData i).size ∧ recon.bytesRcvd = (s.reconData i).bytesRcvd ∧
      recon.buf = (s.reconData i).buf)
    (hh : Lowpan.getHeaderBitmap pkt = some headers) (hf : headers.fragN = true)
    (hlt : pkt.length < 2 ^ 8) (hfr : Framed recon headers pkt) :
    lowpanReconAdd s.mem recon pkt = .ok (-3, s.mem, recon) ∨
    ∃ mem rcvd, lowpanReconAdd s.mem recon pkt =
        .ok (0, mem, { recon with bytesRcvd := rcvd }) ∧ Layout mem bs ∧
      rcvd.toNat ≤ recon.size.toNat := by
  obtain ⟨hsize, hrcvd, hbuf⟩ := hown
  obtain ⟨o, b, hb, rfl, hfit, -, hmax, hold⟩ := h.owned i p (hbuf ▸ hp)
  rw [← hsize] at hfit hmax hold
  rw [← hrcvd] at hold
  unfold lowpanReconAdd
  simp only [hh, hf, Bool.not_true, Bool.false_eq_true, if_false]
  split
  · exact .inl rfl
  · rename_i hle
    have hlen : headers.len ≤ pkt.length := hfr.resolve_right hle
    rw [Lowpan.sizeSub_of_le hlen] at hle ⊢
    have hsum : recon.bytesRcvd.toNat + (pkt.length - headers.len) ≤ recon.size.toNat := by
      rw [Nat.mod_eq_of_lt (by omega)] at hle
      omega
    have htake : (pkt.drop headers.len).length = pkt.length - headers.len := List.length_drop
    have hcopy : Buffer.take (pkt.length - headers.len) (pkt.drop headers.len) =
        .ok (pkt.drop headers.len, []) := by
      rw [Buffer.take, if_pos (by omega), ← htake, List.take_length, List.drop_length]
    have hroom : recon.bytesRcvd.toNat + (pkt.drop headers.len).length ≤
        (readBytes s.mem (o + 2) recon.size.toNat).length := by
      rw [length_readBytes, htake]
      exact hsum
    refine .inr ⟨writeBytes s.mem (o + 2) (splice (readBytes s.mem (o + 2) recon.size.toNat)
      recon.bytesRcvd.toNat (pkt.drop headers.len)),
      recon.bytesRcvd + .ofNat (pkt.length - headers.len), ?_,
      layout_writeBytes (k := 0) h.layout hb ?_, ?_⟩
    · simp only [hcopy, Buffer.ok_bind, hp, Buffer.write_eq hroom]
    · rw [length_splice hroom, length_readBytes]
      omega
    · rw [UInt16.toNat_add, UInt16.toNat_ofNat_of_lt' (by simp only [UInt16.size]; omega),
        Nat.mod_eq_of_lt (by omega)]
      exact hsum

/-- A later fragment of a reassembly in progress. -/
theorem Good.next (h : Good s bs) (hh : Lowpan.getHeaderBitmap pkt = some headers)
    (hf1 : headers.frag1 = false) (hfn : headers.fragN = true) (hlt : pkt.length < 2 ^ 8)
    (hact : (s.reconData i).timeout = .active) (hfr : Framed (s.reconData i) headers pkt) :
    ∃ s' bs', receiveFragment c s i frame headers key tag pkt lqi rssi = .ok s' ∧ Good s' bs' := by
  obtain ⟨p, hp⟩ := Option.ne_none_iff_exists'.1 (h.inUse i (.inl hact))
  obtain ⟨o, b, hb, ho, -⟩ := h.owned i p hp
  have hadd : (Call.add s.mem (s.reconData i).buf).Ok := ⟨p, hp, bs, o, b, h.layout, hb, ho⟩
  simp only [receiveFragment, hf1, Bool.false_and, Bool.false_eq_true, if_false]
  rcases add_of_framed h { s.reconData i with metadata := ⟨frame.src, lqi, rssi⟩ } hp
    ⟨rfl, rfl, rfl⟩ hh hfn hlt hfr with hok | ⟨mem, rcvd, hok, hl, hle⟩
  · simp only [hok, Buffer.ok_bind]
    refine ⟨_, bs, rfl, ?_⟩
    have hcall := h.memory [_] h.layout (fun _ _ => .rfl) (List.forall_mem_singleton.2 hadd)
    exact hcall.set rfl (fun _ => ⟨rfl, .inl rfl⟩) (by simp) (by simp)
  · simp only [hok, Buffer.ok_bind]
    have hcall := h.memory [_] hl (fun _ _ => .rfl) (List.forall_mem_singleton.2 hadd)
    exact Good.complete (hcall.set rfl (fun _ => ⟨rfl, .inr hle⟩) (by simp) (by simp [hp]))
      (by simp [hp])

/-- A frame that is unpacked at once: its block is given back again. -/
theorem Good.whole {recon0 : Recon} (h : Good s bs) (hh : Lowpan.getHeaderBitmap pkt = some headers)
    (hf : headers.frag1 = false)
    (hstart : ∀ m p, ipMalloc s.mem 209 = some (m, some p) →
      Unpacks c frame 209 headers pkt ∨ Refused c frame 209 headers pkt) :
    ∃ s' bs', receiveWhole c s frame recon0 pkt lqi rssi = .ok s' ∧ Good s' bs' := by
  simp only [receiveWhole]
  rcases h.layout.malloc (show (209 : UInt16) ≤ 2047 by decide) with ⟨hm, -⟩ |
    ⟨o, n, mem1, bs1, hm, hl1, hn, hfresh, hnew⟩
  · rw [start_of_whole hh hf hm]
    exact ⟨_, bs, rfl, h.memory [] h.layout (fun _ _ => .rfl) (by simp)⟩
  · have hblock : UsedAt 0 bs1 o ⟨n, false⟩ := (hnew _ _).2 (.inr ⟨rfl, rfl⟩)
    have hnot : o + 2 ∉ s.others none := by
      intro hmem
      obtain ⟨j, -, hj⟩ := mem_others.1 hmem
      obtain ⟨q, b, hb, hq, -⟩ := h.owned j _ hj
      obtain rfl : o = q := Nat.add_right_cancel hq
      exact hfresh b hb
    -- the block is taken and given back
    have hback {mem2 : Mem} (hl2 : Layout mem2 bs1) : ∃ mem' bs',
        ipFree mem2 (o + 2) = some mem' ∧ Layout mem' bs' ∧
        (∀ q c, UsedAt 0 bs' q c ↔ UsedAt 0 bs q c) ∧
        (Call.free mem2 (o + 2) (s.others none)).Ok := by
      obtain ⟨mem', bs', hfree, hl', hiff⟩ := hl2.free hblock
      refine ⟨mem', bs', hfree, hl', fun q c => ?_, ⟨bs1, o, _, hl2, hblock, rfl⟩, hnot⟩
      rw [hiff, hnew]
      constructor
      · rintro ⟨hb | ⟨rfl, -⟩, hne⟩
        · exact hb
        · exact absurd rfl hne
      · intro hb
        refine ⟨.inl hb, ?_⟩
        rintro rfl
        exact hfresh c hb
    rw [start_of_whole hh hf hm]
    rcases hstart mem1 (o + 2) hm with hun | href
    · obtain ⟨rbuf, stop, size, hok, hlen, -, -, rfl⟩ := reconUnpackAt_of_unpacks mem1
        (o + 2) (s.others none) { recon0 with
          metadata := ⟨frame.src, lqi, rssi⟩, size := 209, buf := some (o + 2) } hun
      simp only [hf, Bool.false_eq_true, if_false] at hlen hok
      have hlen' : rbuf.length = 209 := hlen
      have hn' : 209 + 2 ≤ n := hn
      have hl2 : Layout (writeBytes mem1 (o + 2) rbuf) bs1 :=
        layout_writeBytes (k := 0) hl1 hblock (by simp only; omega)
      have hl3 : Layout (writeBytes (writeBytes mem1 (o + 2) rbuf) (o + 2 + 4)
          (stop - .ofNat Lowpan.ip6HdrSize).netBytes) bs1 :=
        layout_writeBytes hl2 hblock (by simp only [UInt16.length_netBytes]; omega)
      obtain ⟨mem', bs', hfree, hl', hiff, hcall⟩ := hback hl3
      simp only [hok, Buffer.ok_bind, deliver, hfree, ended]
      refine ⟨_, bs', rfl, ?_⟩
      have hdeliver : (Call.deliver (writeBytes mem1 (o + 2) rbuf) (some (o + 2))).Ok :=
        ⟨o + 2, rfl, bs1, o, _, hl2, hblock, rfl⟩
      have := h.memory [_, _] hl' hiff
        (List.forall_mem_cons.2 ⟨hcall, List.forall_mem_singleton.2 hdeliver⟩)
      exact ⟨this.noFault, this.layout, this.owned, this.sole, this.noLeak, this.unused,
        this.inUse, this.calls⟩
    · obtain ⟨mem', bs', hfree, hl', hiff, hcall⟩ := hback hl1
      have hok := reconUnpackAt_of_refused (s.others none) { recon0 with
        metadata := ⟨frame.src, lqi, rssi⟩, size := 209, buf := some (o + 2) } href hfree
      simp only [hok, Buffer.ok_bind]
      exact ⟨_, bs', rfl, h.memory [_] hl' hiff (List.forall_mem_singleton.2 hcall)⟩

/-! ## Frames -/

/-- `get_reconstruct` finds the entry that has the datagram, or one that is not in use if none has
it. -/
theorem getLoop_some {data : Fin nReconstructions → Recon} {is : List (Fin nReconstructions)}
    {ret : Option (Fin nReconstructions)} (h : getLoop data key tag is ret = some i)
    (hret : ∀ j, ret = some j → (data j).timeout = .unused) :
    ((data i).timeout = .active ∨ (data i).timeout = .zombie) ∧ (data i).sourceKey = key ∧
        (data i).tag = tag ∨
      (data i).timeout = .unused ∧ ∀ j ∈ is, (data j).sourceKey = key → (data j).tag = tag →
        (data j).timeout = .unused := by
  induction is generalizing ret with
  | nil => exact .inr ⟨hret i h, by simp⟩
  | cons j is ih =>
    simp only [getLoop] at h
    split at h
    · rename_i hj
      cases h
      exact .inl ⟨hj.2.2, hj.2.1, hj.1⟩
    · rename_i huse
      split at h
      · cases h
      · rename_i hfailed
        have hj : (data j).sourceKey = key → (data j).tag = tag → (data j).timeout = .unused := by
          intro hkey htag
          cases ht : (data j).timeout <;> simp_all
        refine (ih h fun k hk => ?_).imp_right fun hr => ⟨hr.1, List.forall_mem_cons.2 ⟨hj, hr.2⟩⟩
        split at hk
        · rename_i hun
          cases hk
          exact hun
        · exact hret k hk

/-- The entry that `get_reconstruct` finds is unused or in use. -/
theorem getLoop_timeout {data : Fin nReconstructions → Recon} {is : List (Fin nReconstructions)}
    {ret : Option (Fin nReconstructions)} (h : getLoop data key tag is ret = some i)
    (hret : ∀ j, ret = some j → (data j).timeout = .unused) :
    (data i).timeout = .unused ∨ (data i).timeout = .active ∨ (data i).timeout = .zombie := by
  rcases getLoop_some h hret with ⟨huse, -⟩ | ⟨hun, -⟩
  · exact .inr huse
  · exact .inl hun

/-- `get_reconstruct` without the mark it leaves. -/
def find (s : Reassembly) (key tag : UInt16) : Option (Fin nReconstructions) :=
  getLoop s.reconData key tag (List.finRange nReconstructions) none

theorem getReconstruct_of_none (h : s.find key tag = none) :
    s.getReconstruct key tag = (none, s) := by
  unfold getReconstruct
  rw [find] at h
  rw [h]

theorem getReconstruct_of_some (h : s.find key tag = some i) :
    s.getReconstruct key tag = (some i, if (s.reconData i).timeout = .unused then s
      else s.set i { s.reconData i with timeout := .active }) := by
  unfold getReconstruct
  rw [find] at h
  rw [h]

theorem Good.mark (h : Good s bs) (hi : s.find key tag = some i)
    (hne : (s.reconData i).timeout ≠ .unused) :
    Good (s.set i { s.reconData i with timeout := .active }) bs := by
  have ht := (getLoop_timeout hi (by simp)).resolve_left hne
  exact h.set rfl (fun _ => ⟨rfl, .inl rfl⟩) (by simp) fun _ => h.inUse i ht

/-- A first fragment that gets a buffer unpacks, a later one finds a reassembly of its datagram and
is as long as its header, and another frame unpacks or is refused. -/
def Proper (c : Contexts) (s : Reassembly) : Event → Prop
  | .expire => True
  | .receive payload _ _ frame0 _ =>
    ∃ frame buf, Lowpan.unpackIeee154Hdr payload frame0 = .ok (frame, buf) ∧
      ∀ headers, Lowpan.getHeaderBitmap buf = some headers →
        if headers.frag1 || headers.fragN then
          ∃ tag, Lowpan.getFragDgramTag buf = .ok tag ∧
            ∀ i, s.find (hashAddr frame.src) tag = some i →
              if headers.frag1 then
                (s.reconData i).timeout = .unused → ∀ size,
                  Lowpan.getFragDgramSize buf = .ok size → ∀ m p,
                    ipMalloc s.mem size = some (m, some p) → Unpacks c frame size headers buf
              else (s.reconData i).timeout ≠ .unused ∧ Framed (s.reconData i) headers buf
        else ∀ m p, ipMalloc s.mem 209 = some (m, some p) →
          Unpacks c frame 209 headers buf ∨ Refused c frame 209 headers buf

theorem length_unpackAddr {mode : Lowpan.AddrMode} {old : Vector UInt8 8} {buf buf' : List UInt8}
    {a : Lowpan.Ieee154Addr} (h : Lowpan.unpackAddr mode old buf = .ok (a, buf')) :
    buf'.length ≤ buf.length := by
  unfold Lowpan.unpackAddr at h
  repeat' split at h
  all_goals cases h
  all_goals first
    | exact Nat.le_refl _
    | simp only [List.length_cons]; omega

theorem length_unpackIeee154Hdr {payload buf : List UInt8} {frame0 : FrameAddr}
    (h : Lowpan.unpackIeee154Hdr payload frame0 = .ok (frame, buf)) :
    buf.length ≤ payload.length := by
  unfold Lowpan.unpackIeee154Hdr at h
  split at h
  · simp only [Buffer.bind_eq_ok] at h
    obtain ⟨⟨dst, buf1⟩, h1, ⟨src, buf2⟩, h2, hok⟩ := h
    cases hok
    have hdst := length_unpackAddr h1
    have hsrc := length_unpackAddr h2
    simp only [List.length_cons] at hdst hsrc ⊢
    omega
  · cases h

/-- A proper frame keeps the property. -/
theorem Good.receive {payload : List UInt8} {frame0 : FrameAddr} {recon0 : Recon} (h : Good s bs)
    (hlt : payload.length < 2 ^ 8) (hp : Proper c s (.receive payload lqi rssi frame0 recon0)) :
    ∃ s' bs', s.receive c payload lqi rssi frame0 recon0 = .ok s' ∧ Good s' bs' := by
  obtain ⟨frame, buf, hhdr, hp⟩ := hp
  have hlen := length_unpackIeee154Hdr hhdr
  simp only [Reassembly.receive, hhdr, Buffer.ok_bind]
  cases hh : Lowpan.getHeaderBitmap buf with
  | none => exact ⟨s, bs, rfl, h⟩
  | some headers =>
    have hp := hp headers hh
    cases hfrag : (headers.frag1 || headers.fragN) with
    | false =>
      rw [hfrag, if_neg (by simp)] at hp
      obtain ⟨hf1, hfn⟩ := Bool.or_eq_false_iff.1 hfrag
      have hhlen : headers.len = 0 := by simp [Lowpan.Headers.len, hf1, hfn]
      simp only [hfrag, Bool.false_eq_true, if_false, hhlen, List.drop_zero]
      exact h.whole hh hf1 hp
    | true =>
      rw [hfrag, if_pos rfl] at hp
      obtain ⟨tag, htag, hp⟩ := hp
      simp only [hfrag, if_true, htag, Buffer.ok_bind]
      cases hi : s.find (hashAddr frame.src) tag with
      | none =>
        rw [getReconstruct_of_none hi]
        exact ⟨s, bs, rfl, h⟩
      | some i =>
        have hp := hp i hi
        rw [getReconstruct_of_some hi]
        by_cases hun : (s.reconData i).timeout = .unused
        · rw [if_pos hun]
          cases hf1 : headers.frag1 with
          | true =>
            rw [if_pos hf1] at hp
            exact h.first hh hf1 htag (fun _ => hun) hp
          | false =>
            rw [if_neg (by simp [hf1])] at hp
            exact absurd hun hp.1
        · rw [if_neg hun]
          have hg := h.mark hi hun
          have hact : ((s.set i { s.reconData i with timeout := .active }).reconData i).timeout =
            .active := by rw [set_same]
          simp only
          cases hf1 : headers.frag1 with
          | true =>
            exact hg.first hh hf1 htag (fun hnone => absurd hnone (hg.inUse i (.inl hact)))
              fun hidle => by rw [hact] at hidle; cases hidle
          | false =>
            rw [if_neg (by simp [hf1])] at hp
            have hfn : headers.fragN = true := by simpa [hf1] using hfrag
            refine hg.next hh hf1 hfn (by omega) hact ?_
            rw [set_same]
            exact hp.2

/-! ## Frames that are not proper -/

theorem mem_calls_complete (h : s.complete i recon = .ok s') {call : Call}
    (hc : call ∈ s.calls) : call ∈ s'.calls := by
  unfold Reassembly.complete at h
  split at h
  · simp only [Buffer.bind_eq_ok] at h
    obtain ⟨r, -, hok⟩ := h
    cases hok
    exact List.mem_append.2 (.inr (.tail _ hc))
  · cases h
    exact hc

theorem framed_of_ok {r : Int × Mem × Recon} (hh : Lowpan.getHeaderBitmap pkt = some headers)
    (hfn : headers.fragN = true) (h : lowpanReconAdd mem recon pkt = .ok r) :
    Framed recon headers pkt := by
  unfold lowpanReconAdd at h
  simp only [hh, hfn, Bool.not_true, Bool.false_eq_true, if_false] at h
  split at h
  · rename_i hlt
    exact .inr hlt
  · simp only [Buffer.bind_eq_ok] at h
    obtain ⟨⟨payload, rest⟩, htake, -⟩ := h
    refine .inl ?_
    by_contra hlen
    have hbig : Lowpan.sizeSub pkt.length headers.len = pkt.length + 2 ^ 16 - headers.len :=
      if_neg hlen
    have hhl : headers.len ≤ 9 := by
      rw [Lowpan.Headers.len, if_pos hfn]
      split <;> decide
    rw [Buffer.take, if_neg (by rw [hbig, List.length_drop]; omega)] at htake
    cases htake

/-- A refused first fragment leaves the entry a pointer to a block that is free. -/
theorem not_allocated_of_freed {size : UInt16} {m : Mem} (h : Layout s.mem bs) (hsz : size ≤ 2047)
    (hm : ipMalloc s.mem size = some (m, some p)) (hf : ipFree m p = some mem') :
    ¬ Allocated mem' p := by
  rcases h.malloc hsz with ⟨hm', -⟩ | ⟨o, n, m', bs1, hm', hl1, -, -, hnew⟩
  · rw [hm] at hm'
    cases hm'
  · rw [hm] at hm'
    cases hm'
    obtain ⟨mem2, bs2, hf', hl2, hiff⟩ := hl1.free ((hnew _ _).2 (.inr ⟨rfl, rfl⟩))
    rw [hf] at hf'
    cases hf'
    rw [hl2.allocated_iff]
    rintro ⟨q, b, hb, hq⟩
    exact ((hiff q b).1 hb).2 (Nat.add_right_cancel hq).symm

theorem unpacks_of_owns {size : UInt16} {m : Mem} (h : Good s bs)
    (hh : Lowpan.getHeaderBitmap pkt = some headers) (hf : headers.frag1 = true)
    (htag : Lowpan.getFragDgramTag pkt = .ok tag) (hsize : Lowpan.getFragDgramSize pkt = .ok size)
    (hun : (s.reconData i).timeout = .unused) (hm : ipMalloc s.mem size = some (m, some p))
    (hok : receiveFragment c s i frame headers key tag pkt lqi rssi = .ok s') (ho : Owns s') :
    Unpacks c frame size headers pkt := by
  simp only [receiveFragment, hf, h.unused i hun, Option.isSome_none, Bool.and_false, if_true,
    Bool.false_eq_true, if_false, start_of_frag1 hh hf htag hsize hm, Buffer.bind_eq_ok] at hok
  obtain ⟨r, hr, hok⟩ := hok
  refine (unpacks_of_ok hr).resolve_right fun href => ?_
  unfold reconUnpackAt at hr
  rw [Refused] at href
  simp only [href, Buffer.bind_eq_ok] at hr
  obtain ⟨mem', hfree, hr⟩ := hr
  cases hfm : ipFree m p with
  | none =>
    rw [hfm] at hfree
    cases hfree
  | some mem2 =>
    rw [hfm] at hfree
    cases hfree
    cases hr
    simp only [show (-3 : Int) < 0 by decide, if_true] at hok
    cases hok
    exact not_allocated_of_freed h.layout (fragDgramSize_le hsize) hm hfm
      (ho.allocated i p (by rw [set_same]))

/-- **A frame after which the property holds was proper.** -/
theorem proper_of_owns {payload : List UInt8} {frame0 : FrameAddr} {recon0 : Recon} (h : Good s bs)
    (hok : s.receive c payload lqi rssi frame0 recon0 = .ok s') (ho : Owns s') :
    Proper c s (.receive payload lqi rssi frame0 recon0) := by
  simp only [Reassembly.receive, Buffer.bind_eq_ok] at hok
  obtain ⟨⟨frame, buf⟩, hhdr, hok⟩ := hok
  refine ⟨frame, buf, hhdr, fun headers hh => ?_⟩
  simp only [hh] at hok
  cases hfrag : (headers.frag1 || headers.fragN) with
  | false =>
    obtain ⟨hf1, hfn⟩ := Bool.or_eq_false_iff.1 hfrag
    have hhlen : headers.len = 0 := by simp [Lowpan.Headers.len, hf1, hfn]
    rw [if_neg (by simp)]
    intro m p hm
    simp only [hfrag, Bool.false_eq_true, if_false, hhlen, List.drop_zero, receiveWhole,
      start_of_whole hh hf1 hm, Buffer.bind_eq_ok] at hok
    obtain ⟨r, hr, -⟩ := hok
    have hunpacks := unpacks_of_ok hr
    exact hunpacks
  | true =>
    simp only [hfrag, if_true, Buffer.bind_eq_ok] at hok
    obtain ⟨tag, htag, hok⟩ := hok
    rw [if_pos rfl]
    refine ⟨tag, htag, fun i hi => ?_⟩
    rw [getReconstruct_of_some hi] at hok
    simp only at hok
    cases hf1 : headers.frag1 with
    | true =>
      rw [if_pos rfl]
      intro hun size hsize m p hm
      rw [if_pos hun] at hok
      exact unpacks_of_owns h hh hf1 htag hsize hun hm hok ho
    | false =>
      have hfn : headers.fragN = true := by simpa [hf1] using hfrag
      simp only [Bool.false_eq_true, if_false]
      obtain ⟨s1, hs1, hmem, hrecon⟩ : ∃ s1 : Reassembly, (if (s.reconData i).timeout = .unused then
          s else s.set i { s.reconData i with timeout := .active }) = s1 ∧
          (s1.reconData i).buf = (s.reconData i).buf ∧
          (Framed (s1.reconData i) headers buf → Framed (s.reconData i) headers buf) := by
        refine ⟨_, rfl, ?_⟩
        split
        · exact ⟨rfl, id⟩
        · rw [set_same]
          exact ⟨rfl, id⟩
      rw [hs1] at hok
      simp only [receiveFragment, hf1, Bool.false_and, Bool.false_eq_true, if_false,
        Buffer.bind_eq_ok] at hok
      obtain ⟨⟨rv, mem1, recon1⟩, hadd, _, hr, hok⟩ := hok
      have hframed := framed_of_ok hh hfn hadd
      cases hr
      have hcall : Call.add s1.mem (s1.reconData i).buf ∈ s'.calls := by
        split at hok
        · cases hok
          exact .head _
        · exact mem_calls_complete hok (.head _)
      obtain ⟨p, hp, -⟩ := ho.calls _ hcall
      refine ⟨fun hun => ?_, hrecon hframed⟩
      rw [hmem, h.unused i hun] at hp
      cases hp

/-! ## Runs -/

theorem Good.step {e : Event} (h : Good s bs) (hp : Proper c s e)
    (hs : (machine c).step s e = some s') : ∃ bs', Good s' bs' := by
  simp only [machine, Reassembly.step, h.noFault, Bool.false_eq_true, if_false] at hs
  cases e with
  | expire =>
    obtain ⟨s1, bs1, hok, hg⟩ := h.expire
    simp only [hok, Option.map_some, Option.some.injEq] at hs
    exact ⟨bs1, hs ▸ hg⟩
  | receive payload lqi rssi frame0 recon0 =>
    simp only at hs
    split at hs
    · rename_i hlt
      obtain ⟨s1, bs1, hok, hg⟩ := h.receive hlt hp
      simp only [hok, Option.map_some, Option.some.injEq] at hs
      exact ⟨bs1, hs ▸ hg⟩
    · cases hs

theorem Good.proper {e : Event} (h : Good s bs) (hs : (machine c).step s e = some s')
    (ho : Owns s') : Proper c s e := by
  simp only [machine, Reassembly.step, h.noFault, Bool.false_eq_true, if_false] at hs
  cases e with
  | expire => trivial
  | receive payload lqi rssi frame0 recon0 =>
    simp only at hs
    split at hs
    · simp only [Option.map_some, Option.some.injEq] at hs
      split at hs
      · rename_i s1 hok
        exact proper_of_owns h hok (hs ▸ ho)
      · have hfault := ho.noFault
        rw [← hs] at hfault
        cases hfault
    · cases hs

/-- **Ownership of the reassembly buffers**: in a run, from boot on, each buffer of an entry is its
own block in use, each `ip_free` frees such a block, and `lowpan_recon_add` and `deliver` are applied
to one, exactly if all frames were proper. -/
theorem owns_iff {h : List (Reassembly × Event)} (hr : (machine c).Run h s) :
    (Owns s ∧ ∀ p ∈ h, Owns p.1) ↔ ∀ p ∈ h, Proper c p.1 p.2 := by
  refine Machine.Run.forall_iff_of_strong (J := fun s => ∃ bs, Good s bs) ?_ ?_ ?_ ?_ hr
  · rintro _ ⟨mem, data, rfl⟩
    exact ⟨_, .boot mem data⟩
  · rintro s ⟨bs, hg⟩
    exact hg.owns
  · rintro s e s' ⟨bs, hg⟩ hp hs
    exact hg.step hp hs
  · rintro s e s' ⟨bs, hg⟩ hs ho
    exact hg.proper hs ho

/-- No context is shared. -/
def noContexts : Contexts := ⟨fun _ => 0, fun _ addr => (0, addr)⟩

/-- A frame from the neighbour with the short address 2. -/
def frameOf (payload : List UInt8) : Event :=
  .receive ([0, 0x41, 0x88, 0, 0x22, 0, 1, 0, 2, 0] ++ payload) 0 0
    ⟨zeroed.metadata.sender, zeroed.metadata.sender, 0⟩ zeroed

/-- A datagram in two fragments. -/
theorem owns_iff_delivered : ∃ h s, (machine noContexts).Run h s ∧
    s.delivered.map List.length = [48] ∧
    ((Owns s ∧ ∀ p ∈ h, Owns p.1) ↔ ∀ p ∈ h, Proper noContexts p.1 p.2) := by
  obtain ⟨h, s, hr, hp⟩ := Machine.exists_run_of_exec (M := machine noContexts)
    (s := boot (fun _ => 0) fun _ => zeroed) ⟨_, _, rfl⟩
    [frameOf ([0xc0, 48, 0, 7, 0x41] ++ List.replicate 40 0), .expire,
      frameOf ([0xe0, 48, 0, 7, 5] ++ List.replicate 8 1)]
    (fun _ s => s.delivered.map List.length = [48]) (by decide)
  exact ⟨h, s, hr, of_decide_eq_true hp, owns_iff hr⟩

/-- A first fragment whose headers do not unpack: the timer frees its buffer a second time. And a
later fragment without a first one is added to an entry without a buffer. -/
theorem freed_twice :
    (∃ h s, (machine noContexts).Run h s ∧
      ∃ call ∈ s.calls, ∃ mem others, call = .free mem 2 others ∧ ¬ Allocated mem 2) ∧
    ∃ h s, (machine noContexts).Run h s ∧ ∃ call ∈ s.calls, ∃ mem, call = .add mem none := by
  constructor
  · obtain ⟨h, s, hr, hp⟩ := Machine.exists_run_of_exec (M := machine noContexts)
      (s := boot (fun _ => 0) fun _ => zeroed) ⟨_, _, rfl⟩
      [frameOf [0xc0, 48, 0, 7, 0], .expire, .expire]
      (fun _ s => s.calls.any fun
        | .free mem p _ => p = 2 && !IpMalloc.tagInuse (IpMalloc.tag mem 0)
        | _ => false) (by decide)
    obtain ⟨call, hmem, hcall⟩ := List.any_eq_true.1 hp
    refine ⟨h, s, hr, call, hmem, ?_⟩
    cases call with
    | free mem p others =>
      simp only [Bool.and_eq_true, decide_eq_true_iff, Bool.not_eq_true'] at hcall
      obtain ⟨rfl, htag⟩ := hcall
      refine ⟨mem, others, rfl, fun ha => ?_⟩
      cases htag.symm.trans ha.inuse
    | add mem buf => cases hcall
    | deliver mem buf => cases hcall
  · obtain ⟨h, s, hr, hp⟩ := Machine.exists_run_of_exec (M := machine noContexts)
      (s := boot (fun _ => 0) fun _ => zeroed) ⟨_, _, rfl⟩
      [frameOf [0xe0, 48, 0, 7, 5, 1]]
      (fun _ s => s.calls.any fun
        | .add _ none => true
        | _ => false) (by decide)
    obtain ⟨call, hmem, hcall⟩ := List.any_eq_true.1 hp
    refine ⟨h, s, hr, call, hmem, ?_⟩
    match call, hcall with
    | .add mem none, _ => exact ⟨mem, rfl⟩

end Reassembly

end Blip
