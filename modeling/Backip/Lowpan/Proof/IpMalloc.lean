import Backip.Lowpan.IpMalloc
import Mathlib.Algebra.Group.Int.Defs
import Mathlib.Algebra.Group.Nat.Defs
import Mathlib.Data.List.Nodup
import Mathlib.Data.Nat.Bitwise
import Mathlib.Tactic.ByContra

/-!
# The heap is always tiled by its blocks

`Layout m bs`: the tags in the memory are those of the blocks `bs`, which tile the heap. The loops
walk from block to block (`seek_spec`), so they end. `ip_malloc` splits the first block that is
free and large enough (`ipMalloc_spec`), `ip_free` releases the block of the pointer
(`ipFree_spec`).

* `heap_integrity`: from `ip_malloc_init` on, whatever is allocated, freed and written into the
  live blocks, the tags tile the heap, the live blocks lie apart from each other and from the tags
  and hold what was asked for, `ip_malloc` returns `NULL` only where no free block is large enough,
  all loops end, and without a live block the heap is one free block.
-/

set_option autoImplicit false

namespace IpMalloc

open Blocks

/-! ## Tags -/

theorem toNat_tagLen (t : UInt16) : (tagLen t).toNat = t.toNat % 4096 := by
  rw [tagLen, UInt16.toNat_and]
  exact Nat.and_two_pow_sub_one_eq_mod _ 12

theorem tagInuse_eq (t : UInt16) : tagInuse t = decide (32768 ≤ t.toNat) := by
  have ht := t.toNat_lt
  have hand : (t &&& ipMallocInuse).toNat = 2 ^ 15 * (t.toNat.testBit 15).toNat := by
    rw [UInt16.toNat_and, Nat.mul_comm]
    exact Nat.and_two_pow _ 15
  have hbit : t.toNat.testBit 15 = decide (32768 ≤ t.toNat) := by
    rw [Nat.testBit_eq_decide_div_mod_eq]
    simp only [decide_eq_decide]
    omega
  rw [tagInuse, bne, beq_eq_decide, ← hbit]
  cases hb : t.toNat.testBit 15 with
  | false => simp [← UInt16.toNat_inj, hand, hb]
  | true => simp [← UInt16.toNat_inj, hand, hb]

theorem tag_setTag (m : Mem) (cur : Nat) (v : UInt16) : tag (setTag m cur v) cur = v := by
  apply UInt16.toNat_inj.1
  have hv := v.toNat_lt
  simp [tag, setTag, Nat.shiftRight_eq_div_pow]
  omega

theorem setTag_of_ne {m : Mem} {cur i : Nat} {v : UInt16} (h : i ≠ cur) (h' : i ≠ cur + 1) :
    setTag m cur v i = m i := by
  simp [setTag, h, h']

theorem tag_setTag_of_apart {m : Mem} {cur o : Nat} {v : UInt16}
    (h : o + 2 ≤ cur ∨ cur + 2 ≤ o) : tag (setTag m cur v) o = tag m o := by
  rw [tag, tag, setTag_of_ne (by omega) (by omega), setTag_of_ne (by omega) (by omega)]

/-- The block a tag describes. -/
def blockOf (t : UInt16) : Block := ⟨(tagLen t).toNat, !tagInuse t⟩

theorem blockOf_used {n : UInt16} (h : n.toNat < 4096) :
    blockOf (n &&& ipMallocLen ||| ipMallocInuse) = ⟨n.toNat, false⟩ := by
  have hn : (n &&& ipMallocLen).toNat = n.toNat := (toNat_tagLen n).trans (Nat.mod_eq_of_lt h)
  have hor : (n &&& ipMallocLen ||| ipMallocInuse).toNat = n.toNat + 2 ^ 15 := by
    rw [UInt16.toNat_or, hn, Nat.or_comm, Nat.add_comm]
    exact (Nat.two_pow_add_eq_or_of_lt (i := 15) (by omega) 1).symm
  simp only [blockOf, toNat_tagLen, tagInuse_eq, hor, Block.mk.injEq]
  refine ⟨by omega, by simp⟩

theorem blockOf_free {n : UInt16} (h : n.toNat < 4096) : blockOf n = ⟨n.toNat, true⟩ := by
  simp only [blockOf, toNat_tagLen, tagInuse_eq, Block.mk.injEq]
  refine ⟨Nat.mod_eq_of_lt h, by simp; omega⟩

theorem blockOf_clear (t : UInt16) :
    blockOf (t &&& ~~~ipMallocInuse) = ⟨(blockOf t).len, true⟩ := by
  have hand : (t &&& ~~~ipMallocInuse).toNat = t.toNat % 2 ^ 15 := by
    rw [UInt16.toNat_and]
    exact Nat.and_two_pow_sub_one_eq_mod _ 15
  simp only [blockOf, toNat_tagLen, tagInuse_eq, hand, Block.mk.injEq]
  refine ⟨by omega, by simp; omega⟩

/-- The block whose tag is at `o`. -/
def view (m : Mem) (o : Nat) : Block := blockOf (tag m o)

variable {m : Mem} {bs pre post : List Block} {b c : Block} {p o : Nat} {v : UInt16}

theorem view_free : (view m o).free = !tagInuse (tag m o) := rfl

theorem view_len : (view m o).len = (tagLen (tag m o)).toNat := rfl

theorem tagged_setTag_behind (h : Tagged (view m) p bs) (hlt : o + 2 ≤ p) :
    Tagged (view (setTag m o v)) p bs := by
  refine h.congr fun q b hb => ?_
  have := (at_bounds hb).1
  rw [view, tag_setTag_of_apart (by omega), view]

theorem tagged_setTag_before (h : Tagged (view m) p bs) (hlen : ∀ a ∈ bs, 2 ≤ a.len) :
    Tagged (view (setTag m (p + total bs) v)) p bs := by
  refine h.congr fun q b hb => ?_
  have := (at_bounds hb).2
  have := hlen b (at_mem hb)
  rw [view, tag_setTag_of_apart (by omega), view]

/-- A tag is written behind `pre`. -/
theorem tagged_setTag (hpre : Tagged (view m) 0 pre) (hlen : ∀ a ∈ pre, 2 ≤ a.len)
    (hv : blockOf v = c) (hc : 2 ≤ c.len) (hpost : Tagged (view m) (total pre + c.len) post) :
    Tagged (view (setTag m (total pre) v)) 0 (pre ++ c :: post) := by
  have hbefore := tagged_setTag_before (v := v) hpre hlen
  rw [Nat.zero_add] at hbefore
  refine tagged_append.2 ⟨hbefore, ?_⟩
  rw [Nat.zero_add]
  refine tagged_cons.2 ⟨?_, tagged_setTag_behind hpost (by omega)⟩
  rw [view, tag_setTag, hv]

/-! ## Layouts -/

/-- The tags in `m` are those of the blocks `bs`, which tile the heap. -/
structure Layout (m : Mem) (bs : List Block) : Prop where
  tiled : Tiled 2 ipMallocHeapSize bs
  tagged : Tagged (view m) 0 bs

theorem Layout.two_le (h : Layout m bs) : ∀ b ∈ bs, 2 ≤ b.len :=
  fun b hb => Nat.le_of_dvd (h.tiled.pos b hb) (h.tiled.aligned b hb)

theorem Layout.init (m : Mem) : Layout (ipMallocInit m) [⟨ipMallocHeapSize, true⟩] := by
  refine ⟨⟨rfl, by simp, ?_, .singleton _⟩, ?_⟩
  · intro b hb
    rw [List.mem_singleton.1 hb]
    decide
  · refine tagged_cons.2 ⟨?_, tagged_nil⟩
    rw [view, ipMallocInit, tag_setTag]
    decide

/-! ## The loops -/

/-- The start of the last of the blocks laid out from `p` on. -/
def lastStart (prev : Option Nat) : Nat → List Block → Option Nat
  | _, [] => prev
  | p, b :: bs => lastStart (some p) (p + b.len) bs

theorem lastStart_snoc {prev : Option Nat} :
    lastStart prev p (pre ++ [b]) = some (p + total pre) := by
  induction pre generalizing p prev with
  | nil => rfl
  | cons a pre ih => simp [lastStart, ih, Nat.add_assoc]

/-- The loop passes the blocks at which it does not stop. -/
theorem seek_spec (stop : Nat → Bool) (prev : Option Nat) {fuel : Nat}
    (hpos : ∀ b ∈ bs, 0 < b.len) (ht : Tagged (view m) p bs)
    (hend : p + total bs = ipMallocHeapSize) (hf : bs.length < fuel) :
    ∃ pre post, bs = pre ++ post ∧
      seek m stop fuel prev p = some (lastStart prev p pre, p + total pre) ∧
      (∀ o b, At p pre o b → stop o = false) ∧ (post ≠ [] → stop (p + total pre) = true) := by
  induction bs generalizing p prev fuel with
  | nil =>
    cases fuel with
    | zero => cases hf
    | succ fuel =>
      have hp : ¬ p < ipMallocHeapSize := by simp only [total_nil] at hend; omega
      exact ⟨[], [], rfl, by simp [seek, hp, lastStart], by simp, by simp⟩
  | cons b bs ih =>
    cases fuel with
    | zero => cases hf
    | succ fuel =>
      obtain ⟨hb, ht⟩ := tagged_cons.1 ht
      have hbpos := hpos b (.head _)
      have hp : p < ipMallocHeapSize := by simp only [total_cons] at hend; omega
      cases hs : stop p with
      | true => exact ⟨[], b :: bs, rfl, by simp [seek, hs, lastStart], by simp, by simp [hs]⟩
      | false =>
        obtain ⟨pre, post, rfl, hseek, hpre, hpost⟩ := ih (some p)
          (fun a ha => hpos a (.tail _ ha)) ht (by rw [← hend, total_cons, Nat.add_assoc])
          (Nat.lt_of_succ_lt_succ hf)
        refine ⟨b :: pre, post, rfl, ?_, ?_, ?_⟩
        · have hlen : (tagLen (tag m p)).toNat = b.len := by rw [← view_len, hb]
          simp [seek, hs, hp, hlen, hseek, lastStart, Nat.add_assoc]
        · rintro o a (⟨rfl, -⟩ | ha)
          · exact hs
          · exact hpre o a ha
        · intro hne
          rw [total_cons, ← Nat.add_assoc]
          exact hpost hne

theorem Layout.seek_spec (h : Layout m bs) (stop : Nat → Bool) :
    ∃ pre post, bs = pre ++ post ∧
      seek m stop loopFuel none 0 = some (lastStart none 0 pre, total pre) ∧
      (∀ o b, At 0 pre o b → stop o = false) ∧ (post ≠ [] → stop (total pre) = true) := by
  have hlen := length_le_total h.tiled.pos
  rw [h.tiled.total_eq] at hlen
  have := IpMalloc.seek_spec stop none h.tiled.pos h.tagged
    (by rw [h.tiled.total_eq, Nat.zero_add]) (Nat.lt_succ_of_le hlen)
  simpa only [Nat.zero_add] using this

theorem freespaceLoop_spec {fuel : Nat} {ret : UInt16} (hpos : ∀ b ∈ bs, 0 < b.len)
    (ht : Tagged (view m) p bs) (hend : p + total bs = ipMallocHeapSize) (hf : bs.length < fuel) :
    freespaceLoop m fuel ret p = some (ret + UInt16.ofNat (total (bs.filter Block.free))) := by
  induction bs generalizing p ret fuel with
  | nil =>
    cases fuel with
    | zero => cases hf
    | succ fuel =>
      have hp : ¬ p < ipMallocHeapSize := by simp only [total_nil] at hend; omega
      simp [freespaceLoop, hp]
  | cons b bs ih =>
    cases fuel with
    | zero => cases hf
    | succ fuel =>
      obtain ⟨hb, ht⟩ := tagged_cons.1 ht
      have hbpos := hpos b (.head _)
      have hp : p < ipMallocHeapSize := by simp only [total_cons] at hend; omega
      have hlen : (tagLen (tag m p)).toNat = b.len := by rw [← view_len, hb]
      have hlen' : tagLen (tag m p) = UInt16.ofNat b.len := by rw [← hlen, UInt16.ofNat_toNat]
      have hfree : (!tagInuse (tag m p)) = b.free := by rw [← view_free, hb]
      rw [freespaceLoop, if_pos hp, hlen, ih (fun a ha => hpos a (.tail _ ha)) ht
        (by rw [← hend, total_cons, Nat.add_assoc]) (Nat.lt_of_succ_lt_succ hf), hfree]
      cases hbf : b.free with
      | true =>
        rw [List.filter_cons_of_pos hbf, if_pos rfl, total_cons, hlen', UInt16.ofNat_add,
          UInt16.add_assoc]
      | false => rw [List.filter_cons_of_neg (by simp [hbf]), if_neg (by simp)]

/-! ## `ip_malloc` -/

theorem toNat_request {sz : UInt16} (h : sz ≤ 2047) :
    (request sz).toNat = sz.toNat + 4 + sz.toNat % 2 := by
  have h' : sz.toNat ≤ 2047 := UInt16.le_iff_toNat_le.1 h
  simp [request, ipMallocAlign, bndrtSize, UInt16.toNat_mod]
  omega

/-- The memory after the block of `old` bytes at `cur` is split. -/
def splitTag (m : Mem) (cur : Nat) (sz : UInt16) : Mem :=
  setTag (setTag m cur (sz &&& ipMallocLen ||| ipMallocInuse)) (cur + sz.toNat)
    ((tagLen (tag m cur) - sz) &&& ipMallocLen)

theorem ipMalloc_of_seek {sz : UInt16} {prev : Option Nat} {cur : Nat}
    (h : seek m (fun cur => !(tagLen (tag m cur) < request sz || tagInuse (tag m cur)))
      loopFuel none 0 = some (prev, cur)) :
    ipMalloc m sz = if cur < ipMallocHeapSize then
      some (splitTag m cur (request sz - 2), some (cur + 2)) else some (m, none) := by
  unfold ipMalloc
  simp only [h]
  rfl

theorem tagged_splitTag {n : UInt16} (h : Layout m (pre ++ b :: post)) (hn : 2 ≤ n.toNat)
    (hlt : n.toNat + 2 ≤ b.len) :
    Tagged (view (splitTag m (total pre) n)) 0
      (pre ++ ⟨n.toNat, false⟩ :: ⟨b.len - n.toNat, true⟩ :: post) := by
  have htot : total (pre ++ b :: post) = 1500 := h.tiled.total_eq
  have htwo := h.two_le
  simp only [total_append, total_cons] at htot
  simp only [List.forall_mem_append, List.forall_mem_cons] at htwo
  obtain ⟨hpre, hpost⟩ := tagged_append.1 h.tagged
  rw [Nat.zero_add] at hpost
  obtain ⟨hb, hpost⟩ := tagged_cons.1 hpost
  have hused := tagged_setTag hpre htwo.1 (blockOf_used (n := n) (by omega)) hn
    (tagged_nil (p := _))
  have hlen : (tagLen (tag m (total pre))).toNat = b.len := by rw [← view_len, hb]
  have hrest : ((tagLen (tag m (total pre)) - n) &&& ipMallocLen).toNat = b.len - n.toNat := by
    have hsub := UInt16.toNat_sub_of_le (tagLen (tag m (total pre))) n
      (UInt16.le_iff_toNat_le.2 (by omega))
    have := toNat_tagLen (tagLen (tag m (total pre)) - n)
    rw [tagLen, hsub, hlen] at this
    rw [this]
    omega
  have hfree := blockOf_free (n := (tagLen (tag m (total pre)) - n) &&& ipMallocLen) (by omega)
  rw [hrest] at hfree
  have hlens : ∀ a ∈ pre ++ [⟨n.toNat, false⟩], 2 ≤ a.len := by
    simp only [List.forall_mem_append, List.forall_mem_singleton]
    exact ⟨htwo.1, hn⟩
  have hbehind : Tagged (view (setTag m (total pre) (n &&& ipMallocLen ||| ipMallocInuse)))
      (total (pre ++ [⟨n.toNat, false⟩]) + (b.len - n.toNat)) post := by
    simp only [total_append, total_cons, total_nil]
    refine tagged_setTag_behind ?_ (by omega)
    rwa [show total pre + (n.toNat + 0) + (b.len - n.toNat) = total pre + b.len by omega]
  have hboth := tagged_setTag hused hlens hfree (by simp only; omega) hbehind
  simpa [splitTag] using hboth

/-- `ip_malloc` splits a free block, unless none is large enough. -/
theorem ipMalloc_spec {sz : UInt16} (h : Layout m bs) (hsz : sz ≤ 2047) :
    (ipMalloc m sz = some (m, none) ∧ ∀ b ∈ bs, b.free = true → b.len < (request sz).toNat) ∨
    ∃ pre b post n k m', bs = pre ++ b :: post ∧ b.free = true ∧ n + k = b.len ∧
      sz.toNat + 2 ≤ n ∧ ipMalloc m sz = some (m', some (total pre + 2)) ∧
      Layout m' (pre ++ ⟨n, false⟩ :: ⟨k, true⟩ :: post) := by
  obtain ⟨pre, post, rfl, hseek, hpre, hpost⟩ := h.seek_spec
    fun cur => !(tagLen (tag m cur) < request sz || tagInuse (tag m cur))
  have htot : total (pre ++ post) = 1500 := h.tiled.total_eq
  rw [total_append] at htot
  cases post with
  | nil =>
    refine .inl ⟨?_, ?_⟩
    · have hend : ¬ total pre < ipMallocHeapSize := by
        simp only [total_nil, ipMallocHeapSize] at htot ⊢
        omega
      rw [ipMalloc_of_seek hseek, if_neg hend]
    · intro b hb hfree
      obtain ⟨o, ho⟩ := at_of_mem (p := 0) hb
      rw [List.append_nil] at ho
      have hstop := hpre o b ho
      have hview := h.tagged o b (by rwa [List.append_nil])
      rw [← hview, view_free, Bool.not_eq_true'] at hfree
      rw [← hview, view_len]
      simpa [hfree, UInt16.lt_iff_toNat_lt] using hstop
  | cons b post =>
    have hreq := toNat_request hsz
    have hn : (request sz - 2).toNat = (request sz).toNat - 2 :=
      UInt16.toNat_sub_of_le _ _ (UInt16.le_iff_toNat_le.2 (by rw [hreq]; simp; omega))
    have hb := h.tagged (total pre) b (at_append.2 (.inr (.inl ⟨(Nat.zero_add _).symm, rfl⟩)))
    have hb2 := h.two_le b (List.mem_append.2 (.inr (.head _)))
    have hstop := hpost (by simp)
    simp only [Bool.not_eq_true', Bool.or_eq_false_iff, decide_eq_false_iff_not,
      UInt16.lt_iff_toNat_lt, Nat.not_lt] at hstop
    obtain ⟨hfit, hfree⟩ := hstop
    rw [← view_len, hb] at hfit
    have hbfree : b.free = true := by rw [← hb, view_free, hfree, Bool.not_false]
    have heven := h.tiled.aligned b (List.mem_append.2 (.inr (.head _)))
    refine .inr ⟨pre, b, post, (request sz - 2).toNat, b.len - (request sz - 2).toNat,
      splitTag m (total pre) (request sz - 2), rfl, hbfree, by omega, by omega, ?_,
      h.tiled.split hbfree (by omega) (by omega) (by omega) (by omega) (by omega), ?_⟩
    · have hcur : total pre < ipMallocHeapSize := by
        simp only [total_cons, ipMallocHeapSize] at htot ⊢
        omega
      rw [ipMalloc_of_seek hseek, if_pos hcur]
    · exact tagged_splitTag h (by omega) (by omega)

/-! ## `ip_free` -/

theorem blockOf_add {t u : UInt16} (ht : blockOf t = b) (hu : blockOf u = c)
    (h : b.len + c.len < 4096) : blockOf (tagLen t + tagLen u) = ⟨b.len + c.len, true⟩ := by
  subst ht hu
  have hadd : (tagLen t + tagLen u).toNat = (blockOf t).len + (blockOf u).len := by
    rw [UInt16.toNat_add]
    exact Nat.mod_eq_of_lt (by simp only [blockOf] at h; omega)
  rw [blockOf_free (by rw [hadd]; exact h), hadd]

/-- The flag is cleared and the block behind, if it is free, joined. -/
theorem freeNext_spec (h : Layout m (pre ++ b :: post)) :
    ∃ n post', release pre b.len post = joinPrev pre n post' ∧
      (∀ a ∈ pre, 2 ≤ a.len) ∧ 2 ≤ n ∧ total pre + n ≤ 1500 ∧
      Tagged (view (freeNext m (total pre))) 0 (pre ++ ⟨n, true⟩ :: post') := by
  have htot : total (pre ++ b :: post) = 1500 := h.tiled.total_eq
  have htwo := h.two_le
  simp only [total_append, total_cons] at htot
  simp only [List.forall_mem_append, List.forall_mem_cons] at htwo
  obtain ⟨hpre, hpost⟩ := tagged_append.1 h.tagged
  rw [Nat.zero_add] at hpost
  obtain ⟨hb, hpost⟩ := tagged_cons.1 hpost
  have hlen : (tagLen (tag m (total pre))).toNat = b.len := by rw [← view_len, hb]
  have hclear : blockOf (tag m (total pre) &&& ~~~ipMallocInuse) = ⟨b.len, true⟩ := by
    rw [blockOf_clear]
    exact congrArg (fun x => Block.mk x.len true) hb
  have hcleared := tagged_setTag hpre htwo.1 hclear htwo.2.1 hpost
  unfold freeNext
  simp only [hlen]
  cases post with
  | nil =>
    refine ⟨b.len, [], rfl, htwo.1, htwo.2.1, by omega, ?_⟩
    rwa [if_neg]
    simp only [total_nil, Nat.add_zero] at htot
    simp [Nat.add_comm b.len, htot]
  | cons c post =>
    simp only [total_cons, List.forall_mem_cons] at htot htwo
    have hnext : b.len + total pre < ipMallocHeapSize := by
      simp only [ipMallocHeapSize]
      omega
    rw [Nat.add_comm b.len] at hnext ⊢
    obtain ⟨hpretag, hposttag⟩ := tagged_append.1 hcleared
    rw [Nat.zero_add] at hposttag
    obtain ⟨hcur, hposttag⟩ := tagged_cons.1 hposttag
    obtain ⟨hc, hposttag⟩ := tagged_cons.1 hposttag
    simp only [hnext, decide_true, Bool.true_and, ← view_free, hc]
    cases hcf : c.free with
    | false =>
      refine ⟨b.len, c :: post, by simp [release, hcf], htwo.1, htwo.2.1, by omega, ?_⟩
      rwa [if_neg (by simp)]
    | true =>
      refine ⟨b.len + c.len, post, by simp [release, hcf], htwo.1, by omega, by omega, ?_⟩
      rw [if_pos rfl]
      exact tagged_setTag hpretag htwo.1 (blockOf_add (b := ⟨b.len, true⟩) hcur hc
        (by simp only; omega)) (by simp only; omega) (by rwa [← Nat.add_assoc])

/-- The block before is joined if it is free. -/
theorem freePrev_spec {n : Nat} (h : Tagged (view m) 0 (pre ++ ⟨n, true⟩ :: post))
    (hlen : ∀ a ∈ pre, 2 ≤ a.len) (hn : 2 ≤ n) (hend : total pre + n ≤ 1500) :
    Tagged (view (freePrev m (lastStart none 0 pre) (total pre))) 0 (joinPrev pre n post) := by
  obtain rfl | ⟨pre, a, rfl⟩ := pre.eq_nil_or_concat'
  · exact h
  · simp only [List.forall_mem_append, List.forall_mem_singleton] at hlen
    simp only [total_append, total_cons, total_nil, Nat.add_zero] at hend ⊢
    have hsplit := h
    rw [List.append_assoc, List.singleton_append] at hsplit
    obtain ⟨hpre, hpost⟩ := tagged_append.1 hsplit
    rw [Nat.zero_add] at hpost
    obtain ⟨ha, hpost⟩ := tagged_cons.1 hpost
    obtain ⟨hcur, hpost⟩ := tagged_cons.1 hpost
    rw [lastStart_snoc, Nat.zero_add, joinPrev_snoc]
    simp only [freePrev, ← view_free, ha]
    cases haf : a.free with
    | false => rwa [if_neg (by simp), if_neg (by simp)]
    | true =>
      rw [if_pos rfl, if_pos rfl]
      exact tagged_setTag hpre hlen.1 (blockOf_add ha hcur (by simp only; omega))
        (by simp only; omega) (by rwa [← Nat.add_assoc])

/-- `ip_free` gives the block of the pointer back. -/
theorem ipFree_spec (h : Layout m bs) (hb : At 0 bs o b) :
    ∃ pre post m', bs = pre ++ b :: post ∧ o = total pre ∧ ipFree m (o + 2) = some m' ∧
      Layout m' (release pre b.len post) := by
  obtain ⟨pre, post, rfl, hseek, hpre, hpost⟩ := h.seek_spec fun cur => cur + 2 == o + 2
  cases post with
  | nil =>
    rw [List.append_nil] at hb
    have := hpre o b hb
    simp at this
  | cons c post =>
    have hcur := hpost (by simp)
    simp only [beq_iff_eq, Nat.add_right_cancel_iff] at hcur
    subst hcur
    obtain rfl : b = c := at_unique h.tiled.pos hb
      (at_append.2 (.inr (.inl ⟨(Nat.zero_add _).symm, rfl⟩)))
    obtain ⟨n, post', hrel, hlen, hn, hend, htag⟩ := freeNext_spec h
    refine ⟨pre, post, freePrev (freeNext m (total pre)) (lastStart none 0 pre) (total pre), rfl,
      rfl, ?_, h.tiled.release, ?_⟩
    · unfold ipFree
      simp only [hseek]
      exact if_pos rfl
    · rw [hrel]
      exact freePrev_spec htag hlen hn hend

/-! ## The blocks in use -/

/-- `ip_malloc` ends, and puts a new block in use or none. -/
theorem Layout.malloc {sz : UInt16} (h : Layout m bs) (hsz : sz ≤ 2047) :
    (ipMalloc m sz = some (m, none) ∧ ∀ b ∈ bs, b.free = true → b.len < (request sz).toNat) ∨
    ∃ o n m' bs', ipMalloc m sz = some (m', some (o + 2)) ∧ Layout m' bs' ∧ sz.toNat + 2 ≤ n ∧
      (∀ c, ¬ UsedAt 0 bs o c) ∧
      ∀ q c, UsedAt 0 bs' q c ↔ UsedAt 0 bs q c ∨ (q = o ∧ c = ⟨n, false⟩) := by
  rcases ipMalloc_spec h hsz with hnone | ⟨pre, b, post, n, k, m', rfl, hbf, hnk, hn, hm, hl⟩
  · exact .inl hnone
  · refine .inr ⟨total pre, n, m', _, hm, hl, hn, ?_, ?_⟩
    · rintro c ⟨hc, hcu⟩
      have hat : At 0 (pre ++ b :: post) (total pre) b :=
        at_append.2 (.inr (.inl ⟨(Nat.zero_add _).symm, rfl⟩))
      rw [at_unique h.tiled.pos hc hat, hbf] at hcu
      cases hcu
    · intro q c
      rw [usedAt_split hbf hnk, Nat.zero_add]

/-- `ip_free` of a block in use ends and takes it out of use. -/
theorem Layout.free (h : Layout m bs) (hb : UsedAt 0 bs o b) :
    ∃ m' bs', ipFree m (o + 2) = some m' ∧ Layout m' bs' ∧
      ∀ q c, UsedAt 0 bs' q c ↔ UsedAt 0 bs q c ∧ q ≠ o := by
  obtain ⟨pre, post, m', rfl, rfl, hm, hl⟩ := ipFree_spec h hb.1
  refine ⟨m', _, hm, hl, fun q c => ?_⟩
  rw [usedAt_release_iff h.tiled.pos, Nat.zero_add]

/-- What is written into a block behind its tag changes no tag. -/
theorem Layout.congr {m' : Mem} (h : Layout m bs) (hb : UsedAt 0 bs o b)
    (hm : ∀ i, m' i ≠ m i → o + 2 ≤ i ∧ i < o + b.len) : Layout m' bs := by
  refine ⟨h.tiled, h.tagged.congr fun q c hc => ?_⟩
  have hc2 := h.two_le c (at_mem hc)
  have hout : ∀ i, q ≤ i → i < q + 2 → m' i = m i := by
    intro i hqi hi
    by_contra hne
    have hin := hm i hne
    rcases Nat.lt_trichotomy q o with hlt | rfl | hlt
    · have := at_disjoint hc hb.1 hlt
      omega
    · omega
    · have := at_disjoint hb.1 hc hlt
      omega
  simp only [view, tag, hout q (by omega) (by omega), hout (q + 1) (by omega) (by omega)]

/-- The tags determine the blocks. -/
theorem tagged_unique {bs' : List Block} (hpos : ∀ a ∈ bs, 0 < a.len)
    (hpos' : ∀ a ∈ bs', 0 < a.len) (h : Tagged (view m) p bs) (h' : Tagged (view m) p bs')
    (hlen : total bs = total bs') : bs = bs' := by
  induction bs generalizing p bs' with
  | nil =>
    cases bs' with
    | nil => rfl
    | cons a bs' =>
      have := hpos' a (.head _)
      simp only [total_nil, total_cons] at hlen
      omega
  | cons b bs ih =>
    cases bs' with
    | nil =>
      have := hpos b (.head _)
      simp only [total_nil, total_cons] at hlen
      omega
    | cons a bs' =>
      obtain ⟨hb, h⟩ := tagged_cons.1 h
      obtain ⟨ha, h'⟩ := tagged_cons.1 h'
      obtain rfl : b = a := hb.symm.trans ha
      simp only [total_cons, Nat.add_left_cancel_iff] at hlen
      rw [ih (fun x hx => hpos x (.tail _ hx)) (fun x hx => hpos' x (.tail _ hx)) h h' hlen]

theorem Layout.unique {bs' : List Block} (h : Layout m bs) (h' : Layout m bs') : bs = bs' :=
  tagged_unique h.tiled.pos h'.tiled.pos h.tagged h'.tagged
    (h.tiled.total_eq.trans h'.tiled.total_eq.symm)

/-- `p` points to a block in use. -/
def Allocated (m : Mem) (p : Nat) : Prop :=
  ∃ bs o b, Layout m bs ∧ UsedAt 0 bs o b ∧ p = o + 2

theorem Layout.allocated_iff (h : Layout m bs) :
    Allocated m p ↔ ∃ o b, UsedAt 0 bs o b ∧ p = o + 2 := by
  constructor
  · rintro ⟨bs', o, b, h', hb, hp⟩
    exact ⟨o, b, h'.unique h ▸ hb, hp⟩
  · rintro ⟨o, b, hb, hp⟩
    exact ⟨bs, o, b, h, hb, hp⟩

theorem Allocated.inuse (h : Allocated m p) : tagInuse (tag m (p - 2)) = true := by
  obtain ⟨bs, o, b, h, ⟨hb, hbf⟩, rfl⟩ := h
  rw [← h.tagged o b hb, view_free] at hbf
  simpa using hbf

/-! ## Runs -/

/-- The blocks in use are those of the live pointers. -/
structure Sound (s : State) (bs : List Block) : Prop where
  layout : Layout s.mem bs
  live_used : ∀ l ∈ s.live, ∃ o b, UsedAt 0 bs o b ∧ l.ptr = o + 2 ∧ l.size.toNat + 2 ≤ b.len
  used_live : ∀ o b, UsedAt 0 bs o b → ∃ l ∈ s.live, l.ptr = o + 2
  nodup : (s.live.map Live.ptr).Nodup

variable {s s' : State} {l : Live} {sz : UInt16}

theorem Sound.init (m : Mem) : Sound ⟨ipMallocInit m, []⟩ [⟨ipMallocHeapSize, true⟩] where
  layout := .init m
  live_used := by simp
  used_live := by simp [usedAt_true]
  nodup := .nil

/-- A live block lies behind its own tag and apart from the others. -/
theorem Sound.apart (h : Sound s bs) (hmem : l ∈ s.live) (hb : At 0 bs o b) :
    o + 2 ≤ l.ptr ∧ (l.ptr < o + b.len → l.ptr = o + 2) ∨ l.ptr + l.size.toNat ≤ o := by
  obtain ⟨q, c, hc, hptr, hsize⟩ := h.live_used l hmem
  rcases Nat.lt_trichotomy o q with hlt | rfl | hlt
  · have := at_disjoint hb hc.1 hlt
    omega
  · omega
  · have := at_disjoint hc.1 hb hlt
    omega

theorem Sound.malloc (h : Sound s bs) (hs : step s (.malloc sz) = some s') :
    ∃ bs', Sound s' bs' := by
  obtain ⟨hl, hlive, hused, hnd⟩ := h
  simp only [step] at hs
  split at hs
  · rename_i hsz
    rcases hl.malloc hsz with ⟨hm, -⟩ | ⟨o, n, m', bs', hm, hl', hn, hfresh, hnew⟩
    · obtain rfl : s = s' := by simpa [hm] using hs
      exact ⟨bs, hl, hlive, hused, hnd⟩
    · obtain rfl : State.mk m' (⟨o + 2, sz⟩ :: s.live) = s' := by simpa [hm] using hs
      refine ⟨bs', hl', ?_, ?_, ?_⟩
      · intro l hmem
        rcases List.mem_cons.1 hmem with rfl | hmem
        · exact ⟨o, ⟨n, false⟩, (hnew _ _).2 (.inr ⟨rfl, rfl⟩), rfl, hn⟩
        · obtain ⟨q, c, hc, hp⟩ := hlive l hmem
          exact ⟨q, c, (hnew q c).2 (.inl hc), hp⟩
      · intro q c hc
        rcases (hnew q c).1 hc with hc | ⟨rfl, -⟩
        · obtain ⟨l, hmem, hp⟩ := hused q c hc
          exact ⟨l, .tail _ hmem, hp⟩
        · exact ⟨_, .head _, rfl⟩
      · refine List.nodup_cons.2 ⟨fun hmem => ?_, hnd⟩
        obtain ⟨l, hmem, hp⟩ := List.mem_map.1 hmem
        obtain ⟨q, c, hc, hq, -⟩ := hlive l hmem
        obtain rfl : q = o := by simp only at hp; omega
        exact hfresh c hc
  · cases hs

theorem Sound.free (h : Sound s bs) (hs : step s (.free l) = some s') : ∃ bs', Sound s' bs' := by
  obtain ⟨hl, hlive, hused, hnd⟩ := h
  simp only [step] at hs
  split at hs
  · rename_i hmem
    obtain ⟨o, b, hb, hptr, hsize⟩ := hlive l hmem
    obtain ⟨m', bs', hm, hl', hrel⟩ := hl.free hb
    obtain rfl : State.mk m' (s.live.erase l) = s' := by simpa [hptr, hm] using hs
    have hne (l' : Live) : l' ∈ s.live.erase l ↔ l' ∈ s.live ∧ l'.ptr ≠ l.ptr := by
      rw [(List.Nodup.of_map _ hnd).mem_erase_iff, and_comm]
      refine and_congr_right fun hl' => not_congr ⟨fun he => he ▸ rfl, fun he => ?_⟩
      exact List.inj_on_of_nodup_map hnd hl' hmem he
    refine ⟨bs', hl', ?_, ?_, ?_⟩
    · intro l' hl'
      obtain ⟨hmem', hptr'⟩ := (hne l').1 hl'
      obtain ⟨q, c, hc, hp, hsz⟩ := hlive l' hmem'
      exact ⟨q, c, (hrel q c).2 ⟨hc, by omega⟩, hp, hsz⟩
    · intro q c hc
      obtain ⟨hc, hq⟩ := (hrel q c).1 hc
      obtain ⟨l', hmem', hp⟩ := hused q c hc
      exact ⟨l', (hne l').2 ⟨hmem', by omega⟩, hp⟩
    · exact hnd.sublist ((List.erase_sublist).map _)
  · cases hs

/-- A byte written into a live block is in no tag. -/
theorem Sound.write {i : Nat} {x : UInt8} (h : Sound s bs)
    (hs : step s (.write l i x) = some s') : Sound s' bs := by
  obtain ⟨hl, hlive, hused, hnd⟩ := h
  simp only [step] at hs
  split at hs
  · rename_i hmem
    obtain ⟨hmem, hi⟩ := hmem
    cases hs
    obtain ⟨o, b, hb, hptr, hsize⟩ := hlive l hmem
    refine ⟨hl.congr hb fun j hj => ?_, hlive, hused, hnd⟩
    have hj' : j = l.ptr + i := by
      by_contra hne
      exact hj (if_neg hne)
    omega
  · cases hs

theorem Sound.disjoint {l' : Live} (h : Sound s bs) (hl : l ∈ s.live) (hl' : l' ∈ s.live)
    (hne : l.ptr ≠ l'.ptr) :
    l.ptr + l.size.toNat ≤ l'.ptr ∨ l'.ptr + l'.size.toNat ≤ l.ptr := by
  obtain ⟨o, b, hb, hptr, hsize⟩ := h.live_used l hl
  have := h.apart hl' hb.1
  omega

theorem sound_of_run {h : List (State × Event)} (hr : machine.Run h s) : ∃ bs, Sound s bs := by
  induction hr with
  | init hi =>
    obtain ⟨m, rfl⟩ := hi
    exact ⟨_, .init m⟩
  | @step _ _ _ e _ hs ih =>
    obtain ⟨bs, hb⟩ := ih
    cases e with
    | malloc sz => exact hb.malloc hs
    | free l => exact hb.free hs
    | write l i x => exact ⟨bs, hb.write hs⟩

/-- `ip_malloc` ends; it returns `NULL` only where no free block has room for `sz` bytes and two
tags. -/
theorem Layout.malloc_ends (h : Layout m bs) (hsz : sz ≤ 2047) :
    ∃ m' p, ipMalloc m sz = some (m', p) ∧
      (p = none → ∀ b ∈ bs, b.free = true → b.len < sz.toNat + 2 * bndrtSize) := by
  rcases h.malloc hsz with ⟨hm, hfull⟩ | ⟨o, n, m', bs', hm, -⟩
  · refine ⟨m, none, hm, fun _ b hb hbf => ?_⟩
    have hlt := hfull b hb hbf
    have heven := h.tiled.aligned b hb
    rw [toNat_request hsz] at hlt
    simp only [bndrtSize]
    omega
  · exact ⟨m', _, hm, fun hnone => by cases hnone⟩

theorem Layout.freespace (h : Layout m bs) :
    ipMallocFreespace m = some (UInt16.ofNat (total (bs.filter Block.free))) := by
  have hlen := length_le_total h.tiled.pos
  rw [h.tiled.total_eq] at hlen
  rw [ipMallocFreespace, freespaceLoop_spec h.tiled.pos h.tagged
    (by rw [h.tiled.total_eq, Nat.zero_add]) (Nat.lt_succ_of_le hlen), UInt16.zero_add]

/-- Without a live block the heap is one free block. -/
theorem Sound.one_block (h : Sound s bs) (hnone : s.live = []) :
    bs = [⟨ipMallocHeapSize, true⟩] := by
  refine h.layout.tiled.all_free (by decide) fun b hb => ?_
  obtain ⟨o, ho⟩ := at_of_mem (p := 0) hb
  cases hbf : b.free with
  | true => rfl
  | false =>
    obtain ⟨l, hl, -⟩ := h.used_live o b ⟨ho, hbf⟩
    rw [hnone] at hl
    cases hl

/-- **Heap integrity**: the tags tile the heap, no two neighbours are both free, the live blocks lie
apart from each other and from the tags and hold what was asked for, `NULL` is returned only where
no free block is large enough, every loop ends, and without a live block the heap is one free
block. -/
theorem heap_integrity {h : List (State × Event)} (hr : machine.Run h s) :
    ∃ bs : List Block,
      (∀ o b, At 0 bs o b → view s.mem o = b) ∧
      total bs = ipMallocHeapSize ∧ (∀ b ∈ bs, 0 < b.len ∧ b.len % 2 = 0) ∧ bs.IsChain Apart ∧
      (∀ l ∈ s.live, ∃ o b, At 0 bs o b ∧ b.free = false ∧ l.ptr = o + bndrtSize ∧
        l.ptr + l.size.toNat ≤ o + b.len) ∧
      s.live.Pairwise (fun l l' =>
        l.ptr + l.size.toNat ≤ l'.ptr ∨ l'.ptr + l'.size.toNat ≤ l.ptr) ∧
      (∀ l ∈ s.live, ∀ o b, At 0 bs o b →
        o + bndrtSize ≤ l.ptr ∨ l.ptr + l.size.toNat ≤ o) ∧
      (∀ sz ≤ 2047, ∃ m p, ipMalloc s.mem sz = some (m, p) ∧
        (p = none → ∀ b ∈ bs, b.free = true → b.len < sz.toNat + 2 * bndrtSize)) ∧
      (∀ l ∈ s.live, ∃ m, ipFree s.mem l.ptr = some m) ∧
      ipMallocFreespace s.mem = some (UInt16.ofNat (total (bs.filter Block.free))) ∧
      (s.live = [] → bs = [⟨ipMallocHeapSize, true⟩]) := by
  obtain ⟨bs, hb⟩ := sound_of_run hr
  have htiled := hb.layout.tiled
  refine ⟨bs, hb.layout.tagged, htiled.total_eq, ?_, htiled.apart, ?_, ?_, ?_, ?_, ?_,
    hb.layout.freespace, hb.one_block⟩
  · exact fun b hmem => ⟨htiled.pos b hmem, Nat.mod_eq_zero_of_dvd (htiled.aligned b hmem)⟩
  · intro l hl
    obtain ⟨o, b, hu, hptr, hsize⟩ := hb.live_used l hl
    exact ⟨o, b, hu.1, hu.2, hptr, by omega⟩
  · refine (List.pairwise_map.1 hb.nodup).imp_of_mem fun hl hl' hne => ?_
    exact hb.disjoint hl hl' hne
  · intro l hl o b ho
    exact (hb.apart hl ho).imp_left And.left
  · exact fun sz hsz => hb.layout.malloc_ends hsz
  · intro l hl
    obtain ⟨o, b, hu, hptr, -⟩ := hb.live_used l hl
    obtain ⟨m', -, hm, -⟩ := hb.layout.free hu
    exact ⟨m', hptr ▸ hm⟩

/-- The first of three blocks is given back: the heap is one free, two used and one free block. -/
theorem heap_integrity_three : ∃ s : State, machine.Reachable s ∧
    s.live = [⟨1106, 301⟩, ⟨104, 1000⟩] ∧ ∃ bs : List Block, total bs = 1500 ∧
      (∀ l ∈ s.live, ∃ m, ipFree s.mem l.ptr = some m) := by
  obtain ⟨h, s, hr, hp⟩ := Machine.exists_run_of_exec (M := machine)
    (s := ⟨ipMallocInit fun _ => 0, []⟩) ⟨_, rfl⟩
    [.malloc 100, .malloc 1000, .write ⟨2, 100⟩ 99 255, .malloc 301, .free ⟨2, 100⟩]
    (fun _ s => s.live = [⟨1106, 301⟩, ⟨104, 1000⟩]) (by decide)
  obtain ⟨bs, -, htot, -, -, -, -, -, -, hfree, -⟩ := heap_integrity hr
  exact ⟨s, ⟨h, hr⟩, of_decide_eq_true hp, bs, htot, hfree⟩

end IpMalloc
