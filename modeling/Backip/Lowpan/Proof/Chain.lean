import Backip.Lowpan.Proof.Compression

/-!
# Extension headers, compressed and decompressed

`packNhcLoop_of_measured` packs a chain of headers whose options the compressor can measure
(`ExtHdr.Measured`), `unpackNhcChain_chain` unpacks it when no padding is longer than seven bytes,
and `not_lensAt` says what goes wrong when one is. `nhcChain_roundTrip_iff` puts them together.
-/

set_option autoImplicit false

namespace Lowpan

open Ipv6

/-! ## Extension headers -/

/-- A well-formed extension header without its next-header byte: options that fill it, or a body
that is not looked into. -/
inductive ExtHdr
  | options (type len : UInt8) (opts : List Opt) (htype : type = ipv6Hop ∨ type = ipv6Dest)
      (hlen : (opts.flatMap Opt.bytes).length = 8 * len.toNat + 6) (hshort : extLen len < 256)
  | opaqueBody (type len : UInt8) (body : List UInt8)
      (htype : type = ipv6Routing ∨ type = ipv6Frag ∨ type = ipv6Mobility)
      (hlen : body.length = 8 * len.toNat + 6) (hshort : extLen len < 256)

namespace ExtHdr

def type : ExtHdr → UInt8
  | options type .. => type
  | opaqueBody type .. => type

def len : ExtHdr → UInt8
  | options _ len .. => len
  | opaqueBody _ len .. => len

def body : ExtHdr → List UInt8
  | options _ _ opts .. => opts.flatMap Opt.bytes
  | opaqueBody _ _ body .. => body

/-- The length up to the padding at the end. -/
def contentLen : ExtHdr → Nat
  | options _ _ opts .. => 2 + Ipv6.contentLen opts
  | opaqueBody _ len .. => extLen len

/-- The length of the padding at the end. -/
def padLen (h : ExtHdr) : Nat := extLen h.len - h.contentLen

theorem length_body (h : ExtHdr) : h.body.length + 2 = extLen h.len := by
  cases h with
  | options type len opts htype hlen hshort =>
    simp only [body, ExtHdr.len, hlen, extLen]
    omega
  | opaqueBody type len body htype hlen hshort =>
    simp only [ExtHdr.body, ExtHdr.len, hlen, extLen]
    omega

theorem short (h : ExtHdr) : extLen h.len < 256 := by
  cases h <;> assumption

theorem contentLen_le (h : ExtHdr) : h.contentLen ≤ extLen h.len := by
  cases h with
  | options type len opts htype hlen hshort =>
    have hle := Ipv6.contentLen_le opts
    simp only [contentLen, ExtHdr.len, extLen]
    omega
  | opaqueBody type len body htype hlen hshort => exact Nat.le_refl _

theorem two_le_contentLen (h : ExtHdr) : 2 ≤ h.contentLen := by
  cases h with
  | options type len opts htype hlen hshort => exact Nat.le_add_right _ _
  | opaqueBody type len body htype hlen hshort =>
    simp only [contentLen, extLen]
    omega

theorem isNhcExtension_type (h : ExtHdr) : isNhcExtension h.type = true := by
  cases h with
  | options type len opts htype hlen hshort => rcases htype with rfl | rfl <;> rfl
  | opaqueBody type len body htype hlen hshort => rcases htype with rfl | rfl | rfl <;> rfl

end ExtHdr

/-- The next-header value in front of a chain. -/
def firstType : List ExtHdr → UInt8 → UInt8
  | [], upper => upper
  | h :: _, _ => h.type

/-- A chain in memory. -/
def chainBytes : List ExtHdr → UInt8 → List UInt8
  | [], _ => []
  | h :: hs, upper => firstType hs upper :: h.len :: (h.body ++ chainBytes hs upper)

/-! ## The length without padding -/

/-- One turn of the loop goes over one option. -/
theorem ipnhLoop_option {pkt : IpIovec} {limit : Nat} (pre : List UInt8) (o : Opt)
    {tail : List UInt8} (endOffset : Nat) (hflat : pkt.flatten = pre ++ (o.bytes ++ tail))
    (hlt : pre.length < limit) (hread : 2 ≤ o.len + tail.length) :
    ipnhLoop pkt limit pre.length endOffset =
      ipnhLoop pkt limit (pre ++ o.bytes).length
        (if o.isPad then endOffset else (pre ++ o.bytes).length) := by
  rw [ipnhLoop, if_neg (by omega)]
  cases o with
  | pad1 =>
    cases tail with
    | nil => exact absurd hread (by decide)
    | cons b tail =>
      rw [IpIovec.read_two hflat]
      simp only [Opt.bytes, Opt.isPad, List.length_append, List.length_cons, List.length_nil,
        if_true]
  | tlv t htype =>
    have hlen : (UInt8.ofNat t.data.length).toNat = t.data.length :=
      UInt8.toNat_ofNat_of_lt' t.short
    have hend : (pre ++ (Opt.tlv t htype).bytes).length = pre.length + 2 + t.data.length := by
      simp only [Opt.bytes, Tlv.bytes, List.length_append, List.length_cons]
      omega
    rw [IpIovec.read_two hflat]
    simp only [if_neg htype, hlen, hend, Opt.isPad]
    by_cases hpad : t.type = ipv6TlvPadN
    · simp [hpad]
    · rw [if_pos hpad, if_neg (by simpa using hpad)]

/-- The loop stops where the two bytes of an option cannot be read. -/
theorem ipnhLoop_short {pkt : IpIovec} {limit : Nat} (pre : List UInt8) {tail : List UInt8}
    (endOffset : Nat) (hflat : pkt.flatten = pre ++ tail) (hlt : pre.length < limit)
    (hread : tail.length < 2) : ipnhLoop pkt limit pre.length endOffset = none := by
  rw [ipnhLoop, if_neg (by omega), IpIovec.read_eq, hflat, List.drop_left]
  match tail, hread with
  | [], _ => rfl
  | [b], _ => rfl

theorem optsLen_pos {opts : List Opt} (hne : opts ≠ []) : 0 < (opts.flatMap Opt.bytes).length :=
  Nat.lt_of_le_of_lt (Nat.zero_le _) (lastStart_lt hne)

/-- The loop over options that its bound does not cut. -/
theorem ipnhLoop_of_lt {pkt : IpIovec} (limit : Nat) (pre : List UInt8) {opts : List Opt}
    (hne : opts ≠ []) {rest : List UInt8} (endOffset : Nat)
    (hflat : pkt.flatten = pre ++ (opts.flatMap Opt.bytes ++ rest))
    (hlt : pre.length + lastStart opts < limit)
    (hle : limit ≤ pre.length + (opts.flatMap Opt.bytes).length)
    (hread : lastStart opts + 2 ≤ (opts.flatMap Opt.bytes).length + rest.length) :
    ipnhLoop pkt limit pre.length endOffset =
      some (pre.length + (opts.flatMap Opt.bytes).length,
        if Ipv6.contentLen opts = 0 then endOffset else pre.length + Ipv6.contentLen opts) := by
  induction opts generalizing pre endOffset with
  | nil => exact absurd rfl hne
  | cons o opts ih =>
    rw [List.flatMap_cons, List.append_assoc] at hflat
    rw [List.flatMap_cons, List.length_append] at hle hread ⊢
    have hpre : (pre ++ o.bytes).length = pre.length + o.len := List.length_append
    have hlen : o.bytes.length = o.len := rfl
    cases opts with
    | nil =>
      simp only [lastStart, List.flatMap_nil, List.length_nil, List.nil_append] at hlt hle hread hflat
      have hend := end_cons o [] pre.length endOffset
      rw [ipnhLoop_option pre o endOffset hflat (by omega) (by omega), ipnhLoop,
        if_pos (by omega), hpre]
      rw [← hend, hlen]
      rfl
    | cons o' opts =>
      have hstart : lastStart (o :: o' :: opts) = o.len + lastStart (o' :: opts) := rfl
      have hpos := optsLen_pos (show o' :: opts ≠ [] by simp)
      have hlen_pos := o.len_pos
      have hend := end_cons o (o' :: opts) pre.length endOffset
      rw [hstart] at hlt hread
      rw [ipnhLoop_option pre o endOffset hflat (by omega)
        (by rw [List.length_append]; omega),
        ih (pre ++ o.bytes) (by simp) _ (by rw [hflat, List.append_assoc])
          (by omega) (by omega) (by omega), hpre, ← hend, hlen, Nat.add_assoc]

/-- The loop over options of which the last cannot be read. -/
theorem ipnhLoop_unreadable {pkt : IpIovec} (limit : Nat) (pre : List UInt8) {opts : List Opt}
    (hne : opts ≠ []) {rest : List UInt8} (endOffset : Nat)
    (hflat : pkt.flatten = pre ++ (opts.flatMap Opt.bytes ++ rest))
    (hlt : pre.length + lastStart opts < limit)
    (hread : (opts.flatMap Opt.bytes).length + rest.length < lastStart opts + 2) :
    ipnhLoop pkt limit pre.length endOffset = none := by
  induction opts generalizing pre endOffset with
  | nil => exact absurd rfl hne
  | cons o opts ih =>
    rw [List.flatMap_cons, List.append_assoc] at hflat
    rw [List.flatMap_cons, List.length_append] at hread
    have hpre : (pre ++ o.bytes).length = pre.length + o.len := List.length_append
    have hlen : o.bytes.length = o.len := rfl
    cases opts with
    | nil =>
      simp only [lastStart, List.flatMap_nil, List.length_nil] at hlt hread
      exact ipnhLoop_short pre endOffset hflat hlt (by
        simp only [List.flatMap_nil, List.nil_append, List.length_append]
        omega)
    | cons o' opts =>
      have hstart : lastStart (o :: o' :: opts) = o.len + lastStart (o' :: opts) := rfl
      have hlast := lastStart_lt (show o' :: opts ≠ [] by simp)
      have hpos := o.len_pos
      rw [hstart] at hlt hread
      rw [ipnhLoop_option pre o endOffset hflat (by omega)
        (by rw [List.length_append]; omega)]
      exact ih (pre ++ o.bytes) (by simp) _ (by rw [hflat, List.append_assoc]) (by omega) (by omega)

/-- The loop ends early where its bound is at most the start of an option. -/
theorem ipnhLoop_of_le {pkt : IpIovec} (limit : Nat) (pre : List UInt8) {opts : List Opt}
    {rest : List UInt8} (endOffset : Nat)
    (hflat : pkt.flatten = pre ++ (opts.flatMap Opt.bytes ++ rest))
    (hle : limit ≤ pre.length + lastStart opts) :
    ∃ stop end', ipnhLoop pkt limit pre.length endOffset = some (stop, end') ∧
      stop ≤ pre.length + lastStart opts := by
  by_cases hnow : limit ≤ pre.length
  · exact ⟨pre.length, endOffset, by rw [ipnhLoop, if_pos hnow], Nat.le_add_right _ _⟩
  induction opts generalizing pre endOffset with
  | nil => exact absurd hle hnow
  | cons o opts ih =>
    rw [List.flatMap_cons, List.append_assoc] at hflat
    have hpre : (pre ++ o.bytes).length = pre.length + o.len := List.length_append
    cases opts with
    | nil => exact absurd hle hnow
    | cons o' opts =>
      have hstart : lastStart (o :: o' :: opts) = o.len + lastStart (o' :: opts) := rfl
      have hpos := optsLen_pos (show o' :: opts ≠ [] by simp)
      have := o.len_pos
      rw [hstart] at hle ⊢
      rw [ipnhLoop_option pre o endOffset hflat (by omega) (by rw [List.length_append]; omega)]
      by_cases hnow' : limit ≤ (pre ++ o.bytes).length
      · refine ⟨_, _, by rw [ipnhLoop, if_pos hnow'], ?_⟩
        omega
      · obtain ⟨stop, end', hloop, hstop⟩ := ih (pre ++ o.bytes) _
          (by rw [hflat, List.append_assoc]) (by omega) hnow'
        exact ⟨stop, end', hloop, by omega⟩

/-! ## Packing a header -/

namespace ExtHdr

/-- Whether `__ipnh_real_length` goes over all options of the header at `offset` in a packet of
`total` bytes: its bound lies behind the start of the last one, of which it can read two bytes. -/
def Measured (offset total : Nat) : ExtHdr → Prop
  | options _ len opts .. => offset + 2 + lastStart opts < extLen len ∧
      offset + 2 + lastStart opts + 2 ≤ total
  | opaqueBody .. => True

instance (offset total : Nat) : (h : ExtHdr) → Decidable (h.Measured offset total)
  | options .. => inferInstanceAs (Decidable (_ ∧ _))
  | opaqueBody .. => inferInstanceAs (Decidable True)

def eid (h : ExtHdr) : UInt8 := (eidOf h.type).getD 0

/-- A header as it is packed, in front of the next header `nxt`. -/
def packed (h : ExtHdr) (nxt : UInt8) : List UInt8 :=
  (if nhcCompressible nxt then [nhcIpv6Pattern ||| h.eid ||| nhcNh, .ofNat h.contentLen]
    else [nhcIpv6Pattern ||| h.eid, nxt, .ofNat h.contentLen]) ++ h.body.take (h.contentLen - 2)

theorem type_cases (h : ExtHdr) :
    h.type ∈ [ipv6Hop, ipv6Routing, ipv6Frag, ipv6Dest, ipv6Mobility] := by
  cases h with
  | options type len opts htype hlen hshort => rcases htype with rfl | rfl <;> simp [type]
  | opaqueBody type len body htype hlen hshort =>
    rcases htype with rfl | rfl | rfl <;> simp [type]

theorem eidOf_type (h : ExtHdr) : eidOf h.type = some h.eid := by
  have hall : ∀ t ∈ [ipv6Hop, ipv6Routing, ipv6Frag, ipv6Dest, ipv6Mobility],
      eidOf t = some ((eidOf t).getD 0) := by decide +kernel
  exact hall _ h.type_cases

end ExtHdr

namespace ExtHdr

theorem toNat_contentLen (h : ExtHdr) : (UInt8.ofNat h.contentLen).toNat = h.contentLen :=
  UInt8.toNat_ofNat_of_lt' (Nat.lt_of_le_of_lt h.contentLen_le h.short)

theorem length_content (h : ExtHdr) : (h.body.take (h.contentLen - 2)).length = h.contentLen - 2 := by
  have hbody := h.length_body
  have hle := h.contentLen_le
  rw [List.length_take]
  omega

end ExtHdr

/-- The loop decides the length of a header with options. -/
theorem ipnhRealLength_options {pkt : IpIovec} {offset : Nat} {type nxt : UInt8} (len : UInt8)
    (htype : type = ipv6Hop ∨ type = ipv6Dest) (hread : pkt.read offset 2 = [nxt, len]) :
    ipnhRealLength type pkt offset =
      match ipnhLoop pkt (extLen len) (offset + 2) (offset + 2) with
      | none => 255
      | some (stop, endOffset) =>
        if stop - offset ≠ extLen len then 0 else .ofNat (endOffset - offset) := by
  have hopt : ¬(type ≠ ipv6Hop ∧ type ≠ ipv6Dest) := fun hother =>
    htype.elim hother.1 hother.2
  unfold ipnhRealLength
  rw [hread]
  exact if_neg hopt

section

variable {packet : Ip6Packet} {pre tail : List UInt8} {nxt : UInt8} {h : ExtHdr}
  (hflat : packet.bytes = pre ++ (nxt :: h.len :: (h.body ++ tail)))
include hflat

theorem ipnhRealLength_of_measured (hm : h.Measured pre.length packet.bytes.length) :
    ipnhRealLength h.type packet.data pre.length = .ofNat h.contentLen := by
  have htwo : packet.data.read pre.length 2 = [nxt, h.len] := IpIovec.read_two hflat
  cases h with
  | opaqueBody type len body htype hlen hshort =>
    have hother : type ≠ ipv6Hop ∧ type ≠ ipv6Dest := by
      rcases htype with rfl | rfl | rfl <;> decide
    unfold ipnhRealLength
    rw [htwo]
    exact if_pos hother
  | options type len opts htype hlen hshort =>
    obtain ⟨hlt, hread⟩ := hm
    have hstart : (pre ++ [nxt, len]).length = pre.length + 2 := List.length_append
    have htotal := congrArg List.length hflat
    simp only [ExtHdr.body, List.length_append, List.length_cons] at htotal
    have hext : extLen len = 8 * len.toNat + 8 := by
      unfold extLen
      omega
    have hne : opts ≠ [] := by
      rintro rfl
      cases hlen
    have hflat' : packet.data.flatten = (pre ++ [nxt, len]) ++ (opts.flatMap Opt.bytes ++ tail) :=
      hflat.trans (by simp [ExtHdr.body, ExtHdr.len])
    have hloop := ipnhLoop_of_lt (extLen len) (pre ++ [nxt, len]) hne (pre.length + 2) hflat'
      (by omega) (by omega) (by omega)
    have hstop : pre.length + 2 + (opts.flatMap Opt.bytes).length - pre.length = extLen len := by
      omega
    have hend : (if Ipv6.contentLen opts = 0 then pre.length + 2
        else pre.length + 2 + Ipv6.contentLen opts) - pre.length = 2 + Ipv6.contentLen opts := by
      split <;> omega
    rw [hstart] at hloop
    refine (ipnhRealLength_options len htype htwo).trans ?_
    rw [hloop]
    dsimp only
    rw [if_neg (Classical.not_not.2 hstop), hend]
    rfl

theorem ipnhRealLength_of_not_measured (hm : ¬h.Measured pre.length packet.bytes.length) :
    ipnhRealLength h.type packet.data pre.length = 0 ∨
      (ipnhRealLength h.type packet.data pre.length = 255 ∧ tail = []) := by
  have htwo : packet.data.read pre.length 2 = [nxt, h.len] := IpIovec.read_two hflat
  cases h with
  | opaqueBody type len body htype hlen hshort => exact absurd trivial hm
  | options type len opts htype hlen hshort =>
    have hstart : (pre ++ [nxt, len]).length = pre.length + 2 := List.length_append
    have htotal := congrArg List.length hflat
    simp only [ExtHdr.body, List.length_append, List.length_cons] at htotal
    have hext : extLen len = 8 * len.toNat + 8 := by
      unfold extLen
      omega
    have hne : opts ≠ [] := by
      rintro rfl
      cases hlen
    have hlast := lastStart_lt hne
    have hflat' : packet.data.flatten = (pre ++ [nxt, len]) ++ (opts.flatMap Opt.bytes ++ tail) :=
      hflat.trans (by simp [ExtHdr.body, ExtHdr.len])
    by_cases hlt : pre.length + 2 + lastStart opts < extLen len
    · right
      have hnone := ipnhLoop_unreadable (extLen len) (pre ++ [nxt, len]) hne
        (pre.length + 2) hflat' (by omega) (by
          simp only [ExtHdr.Measured] at hm
          omega)
      rw [hstart] at hnone
      have htail : tail.length = 0 := by
        simp only [ExtHdr.Measured] at hm
        omega
      refine ⟨(ipnhRealLength_options len htype htwo).trans ?_, List.eq_nil_of_length_eq_zero htail⟩
      rw [hnone]
    · left
      obtain ⟨stop, end', hloop, hstop⟩ := ipnhLoop_of_le (extLen len)
        (pre ++ [nxt, len]) (pre.length + 2) hflat' (by omega)
      rw [hstart] at hloop
      refine (ipnhRealLength_options len htype htwo).trans ?_
      rw [hloop]
      exact if_pos (by omega)

/-- `iov_read` of the first bytes behind the length field. -/
theorem read_body {n : Nat} (hn : n ≤ h.body.length) :
    packet.data.read (pre.length + 2) n = h.body.take n := by
  have hflat' : packet.data.flatten = (pre ++ [nxt, h.len]) ++ (h.body ++ tail) :=
    hflat.trans (by simp)
  have hstart : (pre ++ [nxt, h.len]).length = pre.length + 2 := List.length_append
  rw [IpIovec.read_eq, hflat', ← hstart, List.drop_left, List.take_append_of_le_length hn]

theorem packIpnh_of_measured (hm : h.Measured pre.length packet.bytes.length) {cnt : Nat}
    (hcnt : extLen h.len ≤ cnt) (dest : List UInt8) :
    packIpnh dest cnt h.type packet pre.length =
      some (splice dest 0 (h.packed nxt), nxt, extLen h.len) := by
  have htwo : packet.data.read pre.length 2 = [nxt, h.len] := IpIovec.read_two hflat
  have hbody := h.length_body
  have htwo_le := h.two_le_contentLen
  have hle := h.contentLen_le
  have hread := read_body hflat (show h.contentLen - 2 ≤ h.body.length by omega)
  have hcnt' : ¬cnt < h.len.toNat := by
    simp only [extLen] at hcnt
    omega
  have hzero : ¬UInt8.ofNat h.contentLen = 0 := by
    intro hzero
    have hnat := h.toNat_contentLen
    rw [hzero] at hnat
    exact absurd hnat (by simp; omega)
  unfold packIpnh
  rw [htwo]
  dsimp only
  rw [if_neg hcnt', h.eidOf_type]
  dsimp only
  rw [ipnhRealLength_of_measured hflat hm, if_neg hzero, h.toNat_contentLen, hread,
    if_neg (by rw [h.length_content]; omega)]
  rfl

theorem packIpnh_of_not_measured (hm : ¬h.Measured pre.length packet.bytes.length) (cnt : Nat)
    (dest : List UInt8) : packIpnh dest cnt h.type packet pre.length = none := by
  have htwo : packet.data.read pre.length 2 = [nxt, h.len] := IpIovec.read_two hflat
  unfold packIpnh
  rw [htwo]
  dsimp only
  split
  · rfl
  rw [h.eidOf_type]
  dsimp only
  rcases ipnhRealLength_of_not_measured hflat hm with hreal | ⟨hreal, rfl⟩
  · rw [hreal, if_pos rfl]
  · have hbody := h.length_body
    have hshort := h.short
    have hread : (packet.data.read (pre.length + 2) 253).length ≤ h.body.length := by
      have hflat' : packet.data.flatten = (pre ++ [nxt, h.len]) ++ h.body :=
        hflat.trans (by simp)
      have hstart : (pre ++ [nxt, h.len]).length = pre.length + 2 := List.length_append
      rw [IpIovec.read_eq, hflat', ← hstart, List.drop_left, List.length_take]
      exact Nat.min_le_right _ _
    have hfew : ((packet.data.read (pre.length + 2) 253).length : Int) ≠ 253 := by
      simp only [extLen] at hbody hshort
      omega
    rw [hreal, if_neg (by decide)]
    exact if_pos hfew

end

/-! ## Packing a chain -/

/-- The length of a chain. -/
def chainLen : List ExtHdr → Nat
  | [] => 0
  | h :: hs => extLen h.len + chainLen hs

theorem length_chainBytes (hs : List ExtHdr) (upper : UInt8) :
    (chainBytes hs upper).length = chainLen hs := by
  induction hs with
  | nil => rfl
  | cons h hs ih =>
    simp only [chainBytes, chainLen, List.length_cons, List.length_append, ih, ← h.length_body]
    omega

/-- `ExtHdr.Measured` of each header of a chain. -/
def Measured (total : Nat) : Nat → List ExtHdr → Prop
  | _, [] => True
  | offset, h :: hs => h.Measured offset total ∧ Measured total (offset + extLen h.len) hs

instance (total : Nat) : (offset : Nat) → (hs : List ExtHdr) → Decidable (Measured total offset hs)
  | _, [] => inferInstanceAs (Decidable True)
  | offset, h :: hs =>
    have := instDecidableMeasured total (offset + extLen h.len) hs
    inferInstanceAs (Decidable (_ ∧ _))

/-- A chain as it is packed: behind each header is a gap where its padding was. -/
inductive Packed (upper : UInt8) : List ExtHdr → List UInt8 → Prop
  | nil : Packed upper [] []
  | cons {h : ExtHdr} {hs : List ExtHdr} {gap bytes : List UInt8} (hgap : gap.length = h.padLen)
      (hrest : Packed upper hs bytes) :
      Packed upper (h :: hs) (h.packed (firstType hs upper) ++ gap ++ bytes)

/-- The flag of the next header tells whether it is inline. -/
theorem packed_nh (h : ExtHdr) (nxt : UInt8) (l : List UInt8) :
    (h.packed nxt ++ l).headD 0 &&& nhcNh ≠ 0 ↔ nhcCompressible nxt = true := by
  have hall : ∀ t ∈ [ipv6Hop, ipv6Routing, ipv6Frag, ipv6Dest, ipv6Mobility],
      (nhcIpv6Pattern ||| (eidOf t).getD 0 ||| nhcNh) &&& nhcNh ≠ 0 ∧
      (nhcIpv6Pattern ||| (eidOf t).getD 0) &&& nhcNh = 0 := by decide +kernel
  obtain ⟨hnh, hinline⟩ := hall _ h.type_cases
  unfold ExtHdr.packed
  split
  · rename_i hcomp
    exact iff_of_true hnh hcomp
  · rename_i hcomp
    exact iff_of_false (fun hne => hne hinline) hcomp

theorem length_packed (h : ExtHdr) (nxt : UInt8) :
    (h.packed nxt).length = h.contentLen + (if nhcCompressible nxt then 0 else 1) := by
  have htwo := h.two_le_contentLen
  rw [ExtHdr.packed, List.length_append, h.length_content]
  split <;> simp only [List.length_cons, List.length_nil] <;> omega

/-- A packed header and the gap behind it are what the loop goes over in the buffer. -/
theorem take_splice_packed (h : ExtHdr) (nxt : UInt8) {dest : List UInt8} {n : Nat}
    (hn : n = extLen h.len + if nhcCompressible nxt then 0 else 1) (hdest : n ≤ dest.length) :
    ∃ gap : List UInt8, gap.length = h.padLen ∧
      (splice dest 0 (h.packed nxt)).take n = h.packed nxt ++ gap := by
  have hlen := length_packed h nxt
  have hle := h.contentLen_le
  have hpad : h.padLen = extLen h.len - h.contentLen := rfl
  refine ⟨(dest.drop (h.packed nxt).length).take h.padLen, ?_, ?_⟩
  · rw [List.length_take, List.length_drop]
    omega
  · have hcut : n = (h.packed nxt).length + h.padLen := by omega
    rw [splice, List.take_zero, List.nil_append, Nat.zero_add, hcut, List.take_length_add_append]

theorem nhcCompressible_type (h : ExtHdr) : nhcCompressible h.type = true := by
  have hall : ∀ t ∈ [ipv6Hop, ipv6Routing, ipv6Frag, ipv6Dest, ipv6Mobility],
      nhcCompressible t = true := by decide +kernel
  exact hall _ h.type_cases

theorem length_append_hdr (pre : List UInt8) (nxt : UInt8) (h : ExtHdr) :
    (pre ++ (nxt :: h.len :: h.body)).length = pre.length + extLen h.len := by
  have hbody := h.length_body
  simp only [List.length_append, List.length_cons]
  omega

/-- One turn of the loop over a header that is measured. -/
theorem packNhcLoop_turn {packet : Ip6Packet} {pre tail : List UInt8} {nxt : UInt8} {h : ExtHdr}
    (hflat : packet.bytes = pre ++ (nxt :: h.len :: (h.body ++ tail)))
    (hm : h.Measured pre.length packet.bytes.length) {cnt : Nat} (hcnt : extLen h.len ≤ cnt)
    (dest : List UInt8) {n : Nat} (hn : n = extLen h.len + if nhcCompressible nxt then 0 else 1) :
    packNhcLoop dest cnt packet h.type pre.length =
      (packNhcLoop ((splice dest 0 (h.packed nxt)).drop n) (cnt - extLen h.len) packet nxt
        (pre ++ (nxt :: h.len :: h.body)).length).map fun (bytes, rest) =>
          ((splice dest 0 (h.packed nxt)).take n ++ bytes, rest) := by
  have hextra : (if (splice dest 0 (h.packed nxt)).headD 0 &&& nhcNh ≠ 0 then 0 else 1) =
      if nhcCompressible nxt then 0 else 1 := by
    rw [splice, List.take_zero, List.nil_append, Nat.zero_add]
    exact ite_congr (propext (packed_nh h nxt _)) (fun _ => rfl) (fun _ => rfl)
  rw [packNhcLoop_of_some h.isNhcExtension_type (packIpnh_of_measured hflat hm hcnt dest), hextra,
    ← hn, sizeSub_of_le hcnt, length_append_hdr]

theorem chainBytes_cons {packet : Ip6Packet} {pre payload : List UInt8} {upper : UInt8}
    {h : ExtHdr} {hs : List ExtHdr}
    (hflat : packet.bytes = pre ++ (chainBytes (h :: hs) upper ++ payload)) :
    packet.bytes = pre ++ (firstType hs upper :: h.len ::
        (h.body ++ (chainBytes hs upper ++ payload))) ∧
      packet.bytes = (pre ++ (firstType hs upper :: h.len :: h.body)) ++
        (chainBytes hs upper ++ payload) := by
  constructor <;> simp [hflat, chainBytes]

/-- **The loop packs a chain** whose options it can measure. -/
theorem packNhcLoop_of_measured {upper : UInt8} (hupper : isNhcExtension upper = false)
    {packet : Ip6Packet} {payload : List UInt8} (hs : List ExtHdr) (pre : List UInt8)
    {dest : List UInt8} (cnt : Nat)
    (hflat : packet.bytes = pre ++ (chainBytes hs upper ++ payload))
    (hm : Measured packet.bytes.length pre.length hs) (hcnt : chainLen hs ≤ cnt)
    (hdest : hs ≠ [] → chainLen hs + 1 ≤ dest.length) :
    ∃ bytes, packNhcLoop dest cnt packet (firstType hs upper) pre.length =
        some (bytes, cnt - chainLen hs, upper, pre.length + chainLen hs) ∧
      Packed upper hs bytes := by
  induction hs generalizing pre dest cnt with
  | nil =>
    refine ⟨[], ?_, .nil⟩
    rw [packNhcLoop, firstType, if_neg (by rw [hupper]; decide)]
    rfl
  | cons h hs ih =>
    rw [chainLen] at hcnt
    have hdest' : extLen h.len + chainLen hs + 1 ≤ dest.length := hdest (by simp)
    have hlen := length_packed h (firstType hs upper)
    have hle := h.contentLen_le
    obtain ⟨hhead, hrest⟩ := chainBytes_cons hflat
    obtain ⟨hmh, hmrest⟩ := hm
    rw [← length_append_hdr pre (firstType hs upper) h] at hmrest
    obtain ⟨n, hn⟩ : ∃ n, n = extLen h.len + if nhcCompressible (firstType hs upper) then 0 else 1 :=
      ⟨_, rfl⟩
    have hnle : n ≤ dest.length := by
      split at hn <;> omega
    have hroom : hs ≠ [] →
        chainLen hs + 1 ≤ ((splice dest 0 (h.packed (firstType hs upper))).drop n).length := by
      intro hne
      have hcomp : nhcCompressible (firstType hs upper) = true := by
        cases hs with
        | nil => exact absurd rfl hne
        | cons h' hs => exact nhcCompressible_type h'
      rw [if_pos hcomp] at hn hlen
      rw [List.length_drop, length_splice (by omega)]
      omega
    obtain ⟨gap, hgap, htake⟩ := take_splice_packed h (firstType hs upper) hn hnle
    obtain ⟨bytes, hloop, hpacked⟩ := ih (pre ++ (firstType hs upper :: h.len :: h.body))
      (cnt - extLen h.len) hrest hmrest (by omega) hroom
    refine ⟨h.packed (firstType hs upper) ++ gap ++ bytes, ?_, .cons hgap hpacked⟩
    rw [firstType, packNhcLoop_turn hhead hmh (by omega) dest hn, htake, hloop, length_append_hdr,
      chainLen, Nat.sub_sub, Nat.add_assoc]
    rfl

/-- The loop gives up at a header that it cannot measure, and at an IPv6 header. -/
theorem packNhcLoop_eq_none {upper : UInt8} {packet : Ip6Packet} {payload : List UInt8}
    (hs : List ExtHdr) (pre : List UInt8) {dest : List UInt8} (cnt : Nat)
    (hflat : packet.bytes = pre ++ (chainBytes hs upper ++ payload))
    (hm : Measured packet.bytes.length pre.length hs → upper = ipv6Ipv6)
    (hcnt : chainLen hs ≤ cnt) :
    packNhcLoop dest cnt packet (firstType hs upper) pre.length = none := by
  induction hs generalizing pre dest cnt with
  | nil =>
    obtain rfl := hm trivial
    refine packNhcLoop_of_none rfl ?_
    unfold packIpnh
    split
    · split
      · rfl
      · rfl
    · rfl
  | cons h hs ih =>
    rw [chainLen] at hcnt
    obtain ⟨hhead, hrest⟩ := chainBytes_cons hflat
    by_cases hmh : h.Measured pre.length packet.bytes.length
    · have hmrest : Measured packet.bytes.length
          (pre ++ (firstType hs upper :: h.len :: h.body)).length hs → upper = ipv6Ipv6 := by
        rw [length_append_hdr]
        exact fun hmrest => hm ⟨hmh, hmrest⟩
      rw [firstType, packNhcLoop_turn hhead hmh (by omega) dest rfl,
        ih (pre ++ (firstType hs upper :: h.len :: h.body)) _ hrest hmrest (by omega)]
      rfl
    · exact packNhcLoop_of_none h.isNhcExtension_type (packIpnh_of_not_measured hhead hmh cnt dest)

/-! ## Unpacking a header -/

namespace ExtHdr

/-- The length of a header that is unpacked: it is padded to the next multiple of 8. -/
def unpackedLen (h : ExtHdr) : Nat := h.contentLen + h.padLen % 8

theorem contentLen_add_padLen (h : ExtHdr) : h.contentLen + h.padLen = 8 * (h.len.toNat + 1) := by
  have hle := h.contentLen_le
  unfold padLen extLen at *
  omega

theorem padding_eq (h : ExtHdr) : (8 - h.contentLen % 8) % 8 = h.padLen % 8 := by
  have hsum := h.contentLen_add_padLen
  omega

/-- The dispatch byte of a header. -/
def dispatch (h : ExtHdr) (nxt : UInt8) : UInt8 :=
  if nhcCompressible nxt then nhcIpv6Pattern ||| h.eid ||| nhcNh else nhcIpv6Pattern ||| h.eid

theorem dispatch_eq (h : ExtHdr) (nxt : UInt8) :
    h.dispatch nxt &&& nhcIpv6Mask = nhcIpv6Pattern ∧
      typeOf (h.dispatch nxt &&& nhcEidMask) = some h.type ∧
      (h.dispatch nxt &&& nhcNh = 0 ↔ nhcCompressible nxt = false) := by
  have hall : ∀ t ∈ [ipv6Hop, ipv6Routing, ipv6Frag, ipv6Dest, ipv6Mobility],
      ((nhcIpv6Pattern ||| (eidOf t).getD 0 ||| nhcNh) &&& nhcIpv6Mask = nhcIpv6Pattern ∧
        typeOf ((nhcIpv6Pattern ||| (eidOf t).getD 0 ||| nhcNh) &&& nhcEidMask) = some t ∧
        (nhcIpv6Pattern ||| (eidOf t).getD 0 ||| nhcNh) &&& nhcNh ≠ 0) ∧
      (nhcIpv6Pattern ||| (eidOf t).getD 0) &&& nhcIpv6Mask = nhcIpv6Pattern ∧
        typeOf ((nhcIpv6Pattern ||| (eidOf t).getD 0) &&& nhcEidMask) = some t ∧
        (nhcIpv6Pattern ||| (eidOf t).getD 0) &&& nhcNh = 0 := by decide +kernel
  obtain ⟨⟨hm, ht, hnh⟩, hm', ht', hnh'⟩ := hall _ h.type_cases
  unfold dispatch
  split
  · rename_i hcomp
    exact ⟨hm, ht, iff_of_false hnh (by rw [hcomp]; decide)⟩
  · rename_i hcomp
    exact ⟨hm', ht', iff_of_true hnh' (Bool.eq_false_iff.2 hcomp)⟩

theorem packed_eq (h : ExtHdr) (nxt : UInt8) :
    h.packed nxt = h.dispatch nxt :: ((if nhcCompressible nxt then [] else [nxt]) ++
      (.ofNat h.contentLen :: h.body.take (h.contentLen - 2))) := by
  unfold packed dispatch
  split <;> rfl

/-- The padding that the decoder writes is an option, or none. -/
theorem options_padding (h : ExtHdr) {old : List UInt8} (hold : old.length = h.padLen % 8) :
    (padding h.type (h.padLen % 8)).length ≤ old.length ∧
      Ipv6.Options (splice old 0 (padding h.type (h.padLen % 8))) := by
  cases h with
  | opaqueBody type len body htype hlen hshort =>
    have hother : padding type 0 = [] := by
      unfold padding
      split <;> rfl
    have hzero : (opaqueBody type len body htype hlen hshort).padLen = 0 := Nat.sub_self _
    rw [hzero] at hold ⊢
    obtain rfl := List.eq_nil_of_length_eq_zero hold
    simp only [ExtHdr.type, Nat.zero_mod, hother]
    exact ⟨Nat.le_refl _, .nil⟩
  | options type len opts htype hlen hshort =>
    have hextra8 := Nat.mod_lt (options type len opts htype hlen hshort).padLen
      (show 0 < 8 by decide)
    generalize (options type len opts htype hlen hshort).padLen % 8 = extra at *
    have hpad : padding type extra = if extra = 1 then [ipv6TlvPad1]
        else if 1 < extra then [ipv6TlvPadN, .ofNat (extra - 2)] else [] := if_pos htype
    simp only [ExtHdr.type, hpad]
    match old, hold with
    | [], hold =>
      subst hold
      exact ⟨Nat.le_refl _, .nil⟩
    | [a], hold =>
      subst hold
      exact ⟨Nat.le_refl _, .pad1 .nil⟩
    | a :: b :: old, hold =>
      have hextra : extra - 2 = old.length := by
        rw [← hold]
        rfl
      have hlen : old.length = (UInt8.ofNat old.length).toNat :=
        (UInt8.toNat_ofNat_of_lt' (show old.length < 256 by omega)).symm
      rw [if_neg (by rw [← hold]; simp), if_pos (by rw [← hold]; simp), hextra]
      refine ⟨by simp, ?_⟩
      have hopts := Ipv6.Options.tlv (show ipv6TlvPadN ≠ 0 by decide) hlen .nil
      simpa [splice] using hopts

end ExtHdr

/-- A list, cut in three. -/
theorem exists_cut {l : List UInt8} {i k : Nat} (h : i + k ≤ l.length) :
    ∃ c p, c.length = i ∧ p.length = k ∧ l = c ++ (p ++ l.drop (i + k)) := by
  refine ⟨l.take i, (l.drop i).take k, ?_, ?_, ?_⟩
  · rw [List.length_take]
    omega
  · rw [List.length_take, List.length_drop]
    omega
  · rw [← List.drop_drop, List.take_append_drop, List.take_append_drop]

/-- **A packed header is unpacked** over what is at `dest`. Its next-header byte is written when it
is inline, its padding is made anew. -/
theorem unpackIpnh_packed (h : ExtHdr) (nxt n : UInt8) (pre mid : List UInt8) (a0 : UInt8)
    {area gap : List UInt8} {dest nxtHdr cnt : Nat} (hdest : dest = pre.length + 1 + mid.length)
    (hnxt : nxtHdr = pre.length) (harea : h.unpackedLen ≤ area.length + 1)
    (hgap : gap.length = h.padLen) (hcnt : h.unpackedLen ≤ cnt) (rest : List UInt8) :
    ∃ pad : List UInt8, pad.length = h.padLen % 8 ∧ Ipv6.Options pad ∧
      unpackIpnh (pre ++ (n :: (mid ++ (a0 :: area)))) dest cnt nxtHdr
          (h.packed nxt ++ gap ++ rest) =
        .ok (pre ++ (h.type :: (mid ++ ((if nhcCompressible nxt then a0 else nxt) ::
            .ofNat (h.unpackedLen / 8 - 1) :: (h.body.take (h.contentLen - 2) ++ (pad ++
              area.drop (h.unpackedLen - 1)))))),
          gap.drop (h.padLen % 8) ++ rest) := by
  have htwo := h.two_le_contentLen
  have hcontent := h.length_content
  have hmod := Nat.mod_le h.padLen 8
  have hunpacked : h.unpackedLen = h.contentLen + h.padLen % 8 := rfl
  obtain ⟨hmask, heid, hnh⟩ := h.dispatch_eq nxt
  match area, harea with
  | [], harea =>
    rw [List.length_nil] at harea
    omega
  | a1 :: area, harea =>
    rw [List.length_cons] at harea
    obtain ⟨c, p, hc, hp, hcut⟩ := exists_cut (l := area) (i := h.contentLen - 2)
      (k := h.padLen % 8) (by omega)
    have hpost : (a1 :: area).drop (h.unpackedLen - 1) =
        area.drop (h.contentLen - 2 + h.padLen % 8) := by
      rw [show h.unpackedLen - 1 = h.contentLen - 2 + h.padLen % 8 + 1 by omega, List.drop_succ_cons]
    rw [hpost]
    generalize area.drop (h.contentLen - 2 + h.padLen % 8) = post at *
    subst hcut
    obtain ⟨hpadfit, hpadopts⟩ := h.options_padding hp
    refine ⟨splice p 0 (padding h.type (h.padLen % 8)), ?_, hpadopts, ?_⟩
    · rw [length_splice (by omega), hp]
    have hskip : (h.body.take (h.contentLen - 2) ++ gap.take (h.padLen % 8)).length =
        h.contentLen + h.padLen % 8 - 2 := by
      rw [List.length_append, hcontent, List.length_take]
      omega
    have hat (t : UInt8) : (pre ++ t :: mid).length = dest := by
      simp only [List.length_append, List.length_cons]
      omega
    have hwtype (l : List UInt8) : Buffer.write (pre ++ (n :: l)) nxtHdr [h.type] =
        .ok (pre ++ (h.type :: l)) := Buffer.write_append pre [n] [h.type] l hnxt rfl
    have hinline (l buf : List UInt8) : unpackExtNxt ((pre ++ h.type :: mid) ++ (a0 :: l)) dest
        (h.dispatch nxt) ((if nhcCompressible nxt then [] else [nxt]) ++ buf) =
        .ok ((pre ++ h.type :: mid) ++ ((if nhcCompressible nxt then a0 else nxt) :: l), buf) := by
      unfold unpackExtNxt
      by_cases hcomp : nhcCompressible nxt = true
      · rw [if_neg (by rw [hnh, hcomp]; decide), if_pos hcomp, if_pos hcomp]
        rfl
      · have hw := Buffer.write_append (pre ++ h.type :: mid) [a0] [nxt] l (hat h.type).symm rfl
        rw [if_pos (by rw [hnh]; exact Bool.eq_false_iff.2 hcomp), if_neg hcomp, if_neg hcomp]
        simp only [List.cons_append, List.nil_append, Buffer.next_cons, Buffer.ok_bind] at hw ⊢
        rw [hw]
        rfl
    generalize hx : (if nhcCompressible nxt then a0 else nxt) = x at *
    generalize hi : (if nhcCompressible nxt then [] else [nxt]) = inline at *
    generalize hd : h.dispatch nxt = d at *
    generalize hb : h.body.take (h.contentLen - 2) = body at *
    have hwbody := Buffer.write_append ((pre ++ h.type :: mid) ++ [x, a1]) c body (p ++ post)
      (show dest + 2 = _ by rw [List.length_append, hat]; rfl) (by omega)
    have hwpad := Buffer.write_part ((pre ++ h.type :: mid) ++ (x :: a1 :: body)) p
      (padding h.type (h.padLen % 8)) post (k := 0)
      (show dest + h.contentLen = _ by
        rw [List.length_append, hat]
        simp only [List.length_cons]
        omega) (by omega)
    have hwlen (l : List UInt8) := Buffer.write_append ((pre ++ h.type :: mid) ++ [x]) [a1]
      [.ofNat ((h.contentLen + h.padLen % 8) / 8 - 1)] l
      (show dest + 1 = _ by rw [List.length_append, hat]; rfl) rfl
    have htake : Buffer.take (h.contentLen - 2) (body ++ (gap ++ rest)) = .ok (body, gap ++ rest) :=
      Buffer.take_append hcontent _
    have htake' : Buffer.take (h.contentLen + h.padLen % 8 - 2) (body ++ (gap ++ rest)) =
        .ok (body ++ gap.take (h.padLen % 8), gap.drop (h.padLen % 8) ++ rest) := by
      have hsplit : body ++ (gap ++ rest) =
          (body ++ gap.take (h.padLen % 8)) ++ (gap.drop (h.padLen % 8) ++ rest) := by
        rw [List.append_assoc, ← List.append_assoc (gap.take _), List.take_append_drop]
      rw [hsplit]
      exact Buffer.take_append hskip _
    rw [h.packed_eq, hd, hi, hb, hunpacked]
    simp only [List.cons_append, List.append_assoc, List.nil_append] at *
    unfold unpackIpnh
    dsimp only
    rw [if_pos hmask]
    unfold unpackExt
    rw [heid]
    simp only [hwtype, Buffer.ok_bind, hinline, Buffer.next_cons, h.toNat_contentLen, h.padding_eq,
      sizeSub_of_le htwo, sizeSub_of_le (show 2 ≤ h.contentLen + h.padLen % 8 by omega), htake,
      hwbody, hwpad, hwlen, htake']
    rw [if_neg (by omega)]

/-! ## Unpacking a chain -/

theorem extLen_unpackedLen (h : ExtHdr) :
    extLen (.ofNat (h.unpackedLen / 8 - 1)) = h.unpackedLen := by
  have htwo := h.two_le_contentLen
  have hle := h.contentLen_le
  have hshort := h.short
  have hsum := h.contentLen_add_padLen
  have hunpacked : h.unpackedLen = h.contentLen + h.padLen % 8 := rfl
  rw [extLen, UInt8.toNat_ofNat_of_lt' (show h.unpackedLen / 8 - 1 < 256 by omega)]
  omega

/-- One turn of `unpack_nhc_chain` over a packed header. -/
theorem unpackNhcChain_packed (h : ExtHdr) (nxt n : UInt8) (pre mid : List UInt8) (a0 : UInt8)
    {area gap : List UInt8} {dest nxtHdr cnt : Nat} (hdest : dest = pre.length + 1 + mid.length)
    (hnxt : nxtHdr = pre.length) (harea : h.unpackedLen ≤ area.length + 1)
    (hgap : gap.length = h.padLen) (hcnt : h.unpackedLen ≤ cnt) (rest : List UInt8) :
    ∃ (pad : List UInt8) (x : UInt8) (rbuf : List UInt8), pad.length = h.padLen % 8 ∧
      Ipv6.Options pad ∧ x = (if nhcCompressible nxt then a0 else nxt) ∧
      rbuf = pre ++ (h.type :: (mid ++ (x :: .ofNat (h.unpackedLen / 8 - 1) ::
        (h.body.take (h.contentLen - 2) ++ (pad ++ area.drop (h.unpackedLen - 1)))))) ∧
      unpackNhcChain (pre ++ (n :: (mid ++ (a0 :: area)))) dest cnt nxtHdr
          (h.packed nxt ++ gap ++ rest) =
        if nhcCompressible nxt then
          unpackNhcChain rbuf (dest + h.unpackedLen) (cnt - h.unpackedLen) dest
            (gap.drop (h.padLen % 8) ++ rest)
        else .ok (⟨rbuf, dest + h.unpackedLen, some dest, none⟩,
          gap.drop (h.padLen % 8) ++ rest) := by
  obtain ⟨pad, hpad, hopts, hipnh⟩ := unpackIpnh_packed h nxt n pre mid a0 hdest hnxt harea hgap
    hcnt rest
  refine ⟨pad, _, _, hpad, hopts, rfl, rfl, ?_⟩
  generalize (if nhcCompressible nxt = true then a0 else nxt) = x at hipnh ⊢
  obtain ⟨hmask, -, hnh⟩ := h.dispatch_eq nxt
  have hhead : (h.packed nxt ++ gap ++ rest).headD 0 = h.dispatch nxt := by
    rw [h.packed_eq]
    rfl
  have hlen (t x y : UInt8) (l : List UInt8) :
      (pre ++ (t :: (mid ++ (x :: y :: l)))).getD (dest + 1) 0 = y := by
    have hshape : pre ++ (t :: (mid ++ (x :: y :: l))) = (pre ++ t :: (mid ++ [x])) ++ y :: l := by
      simp
    have hat : dest + 1 = (pre ++ t :: (mid ++ [x])).length := by
      simp only [List.length_append, List.length_cons, List.length_nil]
      omega
    rw [hshape, hat, List.getD_eq_getElem?_getD, List.getElem?_append_right (Nat.le_refl _),
      Nat.sub_self]
    rfl
  rw [unpackNhcChain_of_ok hipnh, hhead, if_pos hmask, hlen, extLen_unpackedLen, sizeSub_of_le hcnt]
  by_cases hcomp : nhcCompressible nxt = true
  · rw [if_pos (by rw [Ne, hnh, hcomp]; decide), if_pos hcomp]
  · rw [if_neg (by rw [Ne, hnh]; simpa using hcomp), if_neg hcomp]

theorem unpackedLen_eq {h : ExtHdr} (hpad : h.padLen < 8) :
    h.unpackedLen = extLen h.len ∧ UInt8.ofNat (h.unpackedLen / 8 - 1) = h.len := by
  have hsum := h.contentLen_add_padLen
  have hunpacked : h.unpackedLen = h.contentLen + h.padLen % 8 := rfl
  have hlen : h.unpackedLen / 8 - 1 = h.len.toNat := by omega
  refine ⟨?_, ?_⟩
  · unfold extLen
    omega
  · rw [hlen, UInt8.ofNat_toNat]

/-- A chain that differs from the given one in the padding alone: the next headers, the lengths and
the bytes up to the padding are the same. -/
inductive SameChain (upper : UInt8) : List ExtHdr → List UInt8 → Prop
  | nil : SameChain upper [] []
  | cons {h : ExtHdr} {hs : List ExtHdr} {pad bytes : List UInt8} (hlen : pad.length = h.padLen)
      (hpad : Ipv6.Options pad) (hrest : SameChain upper hs bytes) :
      SameChain upper (h :: hs) (firstType hs upper :: h.len ::
        (h.body.take (h.contentLen - 2) ++ (pad ++ bytes)))

/-- The upper-layer header as far as it is packed. -/
def packedUpper (upper : UInt8) (payload : List UInt8) : List UInt8 :=
  if upper = ianaUdp then (nhcUdpPattern ||| nhcUdpPortFull) ::
    ((payload.take udpHdrSize).take 4 ++ (payload.take udpHdrSize).drop 6)
  else []

/-- What is unpacked from it. -/
def unpackedUpper (upper : UInt8) (payload : List UInt8) : List UInt8 :=
  if upper = ianaUdp then udpWithoutLen (payload.take udpHdrSize) else []

section

variable {upper : UInt8} {payload : List UInt8}
  (hudp : upper = ianaUdp → udpHdrSize ≤ payload.length)
include hudp

theorem length_udp (h17 : upper = ianaUdp) : (payload.take udpHdrSize).length = udpHdrSize := by
  rw [List.length_take]
  exact Nat.min_eq_left (hudp h17)

/-- **A packed chain is unpacked**, in place and with the same lengths, when no header has more than
seven bytes of padding. -/
theorem unpackNhcChain_chain (hupper : isNhcExtension upper = false) {hs : List ExtHdr}
    {bytes : List UInt8} (hpacked : Packed upper hs bytes) (hpad : ∀ h ∈ hs, h.padLen < 8)
    (hcomp : nhcCompressible (firstType hs upper) = true) (pre mid : List UInt8) (n : UInt8)
    (area : List UInt8) (dest nxtHdr cnt : Nat) (hdest : dest = pre.length + 1 + mid.length)
    (hnxt : nxtHdr = pre.length)
    (harea : chainLen hs + (unpackedUpper upper payload).length ≤ area.length)
    (hcnt : chainLen hs ≤ cnt) (rest : List UInt8) :
    ∃ u d, unpackNhcChain (pre ++ (n :: (mid ++ area))) dest cnt nxtHdr
        (bytes ++ (packedUpper upper payload ++ rest)) = .ok (u, rest) ∧
      SameChain upper hs d ∧
      u.stop = dest + (chainLen hs + (unpackedUpper upper payload).length) ∧
      u.rbuf = pre ++ (firstType hs upper :: (mid ++ (d ++ (unpackedUpper upper payload ++
        area.drop (chainLen hs + (unpackedUpper upper payload).length))))) := by
  induction hpacked generalizing pre mid n area dest nxtHdr cnt with
  | nil =>
    have hor : nhcCompressible upper = (isNhcExtension upper || upper == ianaUdp) := rfl
    have h17 : upper = ianaUdp := by
      rw [firstType, hor, hupper] at hcomp
      exact beq_iff_eq.1 hcomp
    have h8 : (unpackedUpper upper payload).length = udpHdrSize := by
      rw [unpackedUpper, if_pos h17, length_udpWithoutLen (length_udp hudp h17)]
    rw [h8] at harea ⊢
    simp only [packedUpper, unpackedUpper, if_pos h17, chainLen, Nat.zero_add, List.nil_append,
      firstType] at harea ⊢
    refine ⟨_, [], unpackNhcChain_udp pre mid n cnt hdest hnxt harea (length_udp hudp h17) rest,
      .nil, rfl, ?_⟩
    rw [h17]
    rfl
  | @cons h hs gap bytes hgap hrest ih =>
    have hpad_h := hpad h (by simp)
    obtain ⟨hlen, hlenbyte⟩ := unpackedLen_eq hpad_h
    rw [chainLen] at harea hcnt
    have hlong : 8 ≤ extLen h.len := by
      unfold extLen
      omega
    match area, harea with
    | [], harea =>
      rw [List.length_nil] at harea
      omega
    | a0 :: area, harea =>
      rw [List.length_cons] at harea
      obtain ⟨pad, x, rbuf, hpadlen, hopts, hx, hrbuf, hchain⟩ :=
        unpackNhcChain_packed h (firstType hs upper) n pre mid a0 hdest hnxt
          (show h.unpackedLen ≤ area.length + 1 by omega) hgap (show h.unpackedLen ≤ cnt by omega)
          (bytes ++ (packedUpper upper payload ++ rest))
      rw [Nat.mod_eq_of_lt hpad_h] at hpadlen hchain
      rw [List.drop_of_length_le (Nat.le_of_eq hgap), List.nil_append, hlen] at hchain
      rw [hlenbyte, hlen] at hrbuf
      rw [List.append_assoc, hchain, hrbuf]
      by_cases hcomp' : nhcCompressible (firstType hs upper) = true
      · have hcontent := h.length_content
        have htwo := h.two_le_contentLen
        have hsum := h.contentLen_add_padLen
        have hmid : (h.len :: (h.body.take (h.contentLen - 2) ++ pad)).length + 1 =
            extLen h.len := by
          simp only [List.length_cons, List.length_append, hcontent, hpadlen, extLen]
          omega
        have hpre : (pre ++ h.type :: mid).length = dest := by
          simp only [List.length_append, List.length_cons]
          omega
        obtain ⟨u, d, hdec, hsame, hstop, hu⟩ := ih (fun h' hh' => hpad h' (by simp [hh'])) hcomp'
          (pre ++ h.type :: mid) (h.len :: (h.body.take (h.contentLen - 2) ++ pad)) x
          (area.drop (extLen h.len - 1)) (dest + extLen h.len) dest (cnt - extLen h.len)
          (by omega) hpre.symm (by rw [List.length_drop]; omega) (by omega)
        refine ⟨u, _, ?_, .cons hpadlen hopts hsame, ?_, ?_⟩
        · rw [if_pos hcomp', ← hdec]
          simp
        · rw [hstop, chainLen]
          omega
        · have hdrop : (a0 :: area).drop (chainLen (h :: hs) +
              (unpackedUpper upper payload).length) =
              (area.drop (extLen h.len - 1)).drop (chainLen hs +
                (unpackedUpper upper payload).length) := by
            have hsucc : chainLen (h :: hs) + (unpackedUpper upper payload).length =
                extLen h.len - 1 + (chainLen hs + (unpackedUpper upper payload).length) + 1 := by
              rw [chainLen]
              omega
            rw [hsucc, List.drop_succ_cons, List.drop_drop]
          rw [hu, hdrop]
          simp [firstType]
      · cases hs with
        | cons h' hs => exact absurd (nhcCompressible_type h') hcomp'
        | nil =>
          cases hrest
          have h17 : ¬upper = ianaUdp := by
            rintro rfl
            exact hcomp' rfl
          have hup : unpackedUpper upper payload = [] := if_neg h17
          have hpk : packedUpper upper payload = [] := if_neg h17
          rw [if_neg hcomp', hup, hpk]
          rw [if_neg hcomp'] at hx
          refine ⟨_, _, rfl, .cons hpadlen hopts .nil, rfl, ?_⟩
          have hsucc : chainLen [h] + ([] : List UInt8).length = extLen h.len - 1 + 1 := by
            simp only [chainLen, List.length_nil]
            omega
          rw [hsucc, List.drop_succ_cons, hx]
          simp [firstType]

end

/-! ## Where the lengths differ -/

section

variable {rbuf rbuf' buf buf' : List UInt8} {dest nxtHdr i : Nat} (hi : i < dest)
  (hne : i ≠ nxtHdr)
include hi hne

/-- `unpack_ipnh` writes at `dest` and behind it, and the next header. -/
theorem unpackIpnh_frame {cnt : Nat}
    (h : unpackIpnh rbuf dest cnt nxtHdr buf = .ok (rbuf', buf')) : rbuf'[i]? = rbuf[i]? := by
  have hout {k n : Nat} : i < dest + k ∨ dest + k + n ≤ i := .inl (Nat.lt_add_right k hi)
  have hnxt : i < nxtHdr ∨ nxtHdr + 1 ≤ i := by omega
  unfold unpackIpnh at h
  split at h
  · cases h
  split at h
  · unfold unpackExt at h
    split at h
    · cases h
    simp only [Buffer.bind_eq_ok] at h
    obtain ⟨rbuf1, hw1, ⟨rbuf2, buf2⟩, hinline, ⟨length, buf3⟩, -, h⟩ := h
    split at h
    · cases h
    simp only [Buffer.bind_eq_ok] at h
    obtain ⟨_, -, rbuf4, hw4, rbuf5, hw5, rbuf6, hw6, _, -, hok⟩ := h
    cases hok
    have hw2 : rbuf2[i]? = rbuf1[i]? := by
      unfold unpackExtNxt at hinline
      split at hinline
      · simp only [Buffer.bind_eq_ok] at hinline
        obtain ⟨_, -, rbuf', hw, hok⟩ := hinline
        cases hok
        exact Buffer.getElem?_write hw (hout (k := 0))
      · cases hinline
        rfl
    rw [Buffer.getElem?_write hw6 hout, Buffer.getElem?_write hw5 hout,
      Buffer.getElem?_write hw4 hout, hw2, Buffer.getElem?_write hw1 hnxt]
  split at h
  · simp only [unpackUdp, Buffer.bind_eq_ok] at h
    obtain ⟨_, -, rbuf1, hw1, rbuf2, hw2, _, -, rbuf3, hw3, h⟩ := h
    have hhead : rbuf3[i]? = rbuf[i]? := by
      rw [Buffer.getElem?_write hw3 (hout (k := 0)), Buffer.getElem?_write hw2 hout,
        Buffer.getElem?_write hw1 hnxt]
    split at h
    · simp only [Buffer.bind_eq_ok] at h
      obtain ⟨_, -, _, -, rbuf4, hw4, hok⟩ := h
      cases hok
      rw [Buffer.getElem?_write hw4 hout, hhead]
    · cases h
      exact hhead
  · cases h

theorem unpackNhcChain_frame {cnt : Nat} {u : Unpacked}
    (h : unpackNhcChain rbuf dest cnt nxtHdr buf = .ok (u, buf')) : u.rbuf[i]? = rbuf[i]? := by
  induction hk : buf.length using Nat.strongRecOn generalizing rbuf buf dest nxtHdr cnt with
  | ind k ih =>
    cases hipnh : unpackIpnh rbuf dest cnt nxtHdr buf with
    | error e =>
      rw [unpackNhcChain_of_error hipnh] at h
      cases h
    | ok r =>
      obtain ⟨rbuf1, rest⟩ := r
      have hstep := unpackIpnh_frame hi hne hipnh
      rw [unpackNhcChain_of_ok hipnh] at h
      split at h
      · split at h
        · have hshort := length_unpackIpnh hipnh
          have hrest := ih rest.length (by omega) (Nat.lt_add_right _ hi) (by omega) h rfl
          rw [hrest, hstep]
        · cases h
          exact hstep
      · cases h
        exact hstep

end

/-- Whether the length fields of a chain stand where they should. -/
def LensAt : List ExtHdr → List UInt8 → Prop
  | [], _ => True
  | h :: hs, l => l[1]? = some h.len ∧ LensAt hs (l.drop (extLen h.len))

theorem SameChain.lensAt {upper : UInt8} {hs : List ExtHdr} {d : List UInt8}
    (h : SameChain upper hs d) (l : List UInt8) : LensAt hs (d ++ l) := by
  induction h with
  | nil => trivial
  | @cons h hs pad bytes hlen hpad hrest ih =>
    refine ⟨rfl, ?_⟩
    have hcontent := h.length_content
    have htwo := h.two_le_contentLen
    have hsum := h.contentLen_add_padLen
    have hshape : (firstType hs upper :: h.len :: (h.body.take (h.contentLen - 2) ++
        (pad ++ bytes))) ++ l =
        (firstType hs upper :: h.len :: (h.body.take (h.contentLen - 2) ++ pad)) ++
          (bytes ++ l) := by simp
    have hlong : extLen h.len =
        (firstType hs upper :: h.len :: (h.body.take (h.contentLen - 2) ++ pad)).length := by
      simp only [List.length_cons, List.length_append, hcontent, hlen, extLen]
      omega
    rw [hshape, hlong, List.drop_left]
    exact ih

/-- **A header with more than seven bytes of padding** is not put back at its length, whatever
follows it. -/
theorem not_lensAt {upper : UInt8} {hs : List ExtHdr} {bytes : List UInt8}
    (hpacked : Packed upper hs bytes) (hpad : ∃ h ∈ hs, 8 ≤ h.padLen) (pre mid : List UInt8)
    (n : UInt8) (area : List UInt8) (dest nxtHdr cnt : Nat)
    (hdest : dest = pre.length + 1 + mid.length) (hnxt : nxtHdr = pre.length)
    (harea : chainLen hs ≤ area.length) (hcnt : chainLen hs ≤ cnt) {rest rest' : List UInt8}
    {u : Unpacked}
    (hdec : unpackNhcChain (pre ++ (n :: (mid ++ area))) dest cnt nxtHdr (bytes ++ rest) =
      .ok (u, rest')) : ¬LensAt hs (u.rbuf.drop dest) := by
  induction hpacked generalizing pre mid n area dest nxtHdr cnt with
  | nil => simp at hpad
  | @cons h hs gap bytes hgap hrest ih =>
    have htwo := h.two_le_contentLen
    have hsum := h.contentLen_add_padLen
    have hunpacked : h.unpackedLen = h.contentLen + h.padLen % 8 := rfl
    have hext : extLen h.len = 8 * (h.len.toNat + 1) := Nat.mul_comm _ _
    rw [chainLen] at harea hcnt
    match area, harea with
    | [], harea =>
      rw [List.length_nil] at harea
      omega
    | a0 :: area, harea =>
      rw [List.length_cons] at harea
      obtain ⟨pad, x, rbuf, hpadlen, -, -, hrbuf, hchain⟩ :=
        unpackNhcChain_packed h (firstType hs upper) n pre mid a0 hdest hnxt
          (show h.unpackedLen ≤ area.length + 1 by omega) hgap (show h.unpackedLen ≤ cnt by omega)
          (bytes ++ rest)
      rw [← List.append_assoc _ bytes] at hchain
      rw [hchain] at hdec
      by_cases hlong : 8 ≤ h.padLen
      · -- the byte that is written differs, and no later header writes it
        have hbyte : rbuf[dest + 1]? = some (.ofNat (h.unpackedLen / 8 - 1)) := by
          have hshape : rbuf = (pre ++ h.type :: (mid ++ [x])) ++
              .ofNat (h.unpackedLen / 8 - 1) :: (h.body.take (h.contentLen - 2) ++
                (pad ++ area.drop (h.unpackedLen - 1))) := by
            rw [hrbuf]
            simp
          have hat : dest + 1 = (pre ++ h.type :: (mid ++ [x])).length := by
            simp only [List.length_append, List.length_cons, List.length_nil]
            omega
          rw [hshape, hat, List.getElem?_append_right (Nat.le_refl _), Nat.sub_self]
          rfl
        have hkept : u.rbuf[dest + 1]? = rbuf[dest + 1]? := by
          split at hdec
          · exact unpackNhcChain_frame (by omega) (by omega) hdec
          · cases hdec
            rfl
        have hdiff : ¬UInt8.ofNat (h.unpackedLen / 8 - 1) = h.len := by
          intro heq
          have hunp := extLen_unpackedLen h
          rw [heq] at hunp
          omega
        intro hlens
        have hone := hlens.1
        rw [List.getElem?_drop, hkept, hbyte] at hone
        exact hdiff (Option.some.inj hone)
      · have hpad_h : h.padLen < 8 := Nat.lt_of_not_le hlong
        obtain ⟨hlen, hlenbyte⟩ := unpackedLen_eq hpad_h
        have hpad' : ∃ h ∈ hs, 8 ≤ h.padLen := by
          obtain ⟨h', hmem, hlong'⟩ := hpad
          rcases List.mem_cons.1 hmem with rfl | hmem
          · exact absurd hlong' hlong
          · exact ⟨h', hmem, hlong'⟩
        have hcomp : nhcCompressible (firstType hs upper) = true := by
          cases hs with
          | nil => simp at hpad'
          | cons h' hs => exact nhcCompressible_type h'
        have hcontent := h.length_content
        rw [if_pos hcomp, Nat.mod_eq_of_lt hpad_h, List.drop_of_length_le (Nat.le_of_eq hgap),
          List.nil_append, hlen, hrbuf] at hdec
        have hmid : (UInt8.ofNat (h.unpackedLen / 8 - 1) :: (h.body.take (h.contentLen - 2) ++
            pad)).length + 1 = extLen h.len := by
          simp only [List.length_cons, List.length_append, hcontent, hpadlen]
          omega
        have hpre : (pre ++ h.type :: mid).length = dest := by
          simp only [List.length_append, List.length_cons]
          omega
        have hnot := ih hpad' (pre ++ h.type :: mid)
          (UInt8.ofNat (h.unpackedLen / 8 - 1) :: (h.body.take (h.contentLen - 2) ++ pad)) x
          (area.drop (h.unpackedLen - 1)) (dest + extLen h.len) dest (cnt - extLen h.len)
          (by omega) hpre.symm (by rw [List.length_drop]; omega) (by omega)
          (by rw [← hdec]; simp)
        intro hlens
        have hrest := hlens.2
        rw [List.drop_drop] at hrest
        exact hnot hrest

/-! ## The round trip -/

/-- `pack_nhc_chain` packs the chain, and from what it produces `unpack_nhc_chain` puts a chain that
differs in the padding alone, and the upper-layer header, where they were; nothing else in `r_buf`
changes, and what follows in the frame is left. -/
def RoundTrip (hs : List ExtHdr) (upper : UInt8) (payload : List UInt8) (packet : Ip6Packet)
    (dest : List UInt8) (cnt : Nat) : Prop :=
  ∃ nhc, packNhcChain dest cnt packet =
      some (nhc, chainLen hs + (unpackedUpper upper payload).length) ∧
    ∀ (rbuf : List UInt8) (at' nxtHdr size : Nat) (rest : List UInt8), nxtHdr < at' →
      at' + chainLen hs + (unpackedUpper upper payload).length ≤ rbuf.length →
      chainLen hs ≤ size →
      ∃ u chain, unpackNhcChain rbuf at' size nxtHdr (nhc ++ rest) = .ok (u, rest) ∧
        SameChain upper hs chain ∧
        u.stop = at' + (chainLen hs + (unpackedUpper upper payload).length) ∧
        u.rbuf = splice (rbuf.set nxtHdr (firstType hs upper)) at'
          (chain ++ unpackedUpper upper payload)

/-- The chains that go through: the compressor can measure each header in its place, and no header
has more than seven bytes of padding. -/
def Compressible (total : Nat) (hs : List ExtHdr) (upper : UInt8) : Prop :=
  Measured total 0 hs ∧ (∀ h ∈ hs, h.padLen < 8) ∧ upper ≠ ipv6Ipv6

instance (total : Nat) (hs : List ExtHdr) (upper : UInt8) : Decidable (Compressible total hs upper) :=
  inferInstanceAs (Decidable (_ ∧ _ ∧ _))

theorem SameChain.length {upper : UInt8} {hs : List ExtHdr} {d : List UInt8}
    (h : SameChain upper hs d) : d.length = chainLen hs := by
  induction h with
  | nil => rfl
  | @cons h hs pad bytes hlen hpad hrest ih =>
    have hcontent := h.length_content
    have htwo := h.two_le_contentLen
    have hsum := h.contentLen_add_padLen
    simp only [List.length_cons, List.length_append, hcontent, hlen, ih, chainLen, extLen]
    omega

section

variable {hs : List ExtHdr} {upper : UInt8} {payload : List UInt8} {packet : Ip6Packet}
  (hfirst : packet.hdr.nxt = firstType hs upper)
  (hbytes : packet.bytes = chainBytes hs upper ++ payload)
  (hext : upper ∉ [ipv6Hop, ipv6Routing, ipv6Frag, ipv6Dest, ipv6Mobility])
  (hudp : upper = ianaUdp → udpHdrSize ≤ payload.length)
include hfirst hbytes

theorem measured_of_packNhcChain {dest : List UInt8} {cnt : Nat} (hcnt : chainLen hs ≤ cnt)
    {r : List UInt8 × Nat} (hpack : packNhcChain dest cnt packet = some r) :
    Measured packet.bytes.length 0 hs ∧ upper ≠ ipv6Ipv6 := by
  by_cases hm : Measured packet.bytes.length 0 hs → upper = ipv6Ipv6
  · have hnone : packNhcLoop dest cnt packet (firstType hs upper) ([] : List UInt8).length = none :=
      packNhcLoop_eq_none hs [] cnt hbytes hm hcnt
    rw [List.length_nil] at hnone
    rw [packNhcChain, hfirst, hnone] at hpack
    cases hpack
  · exact Classical.not_imp.1 hm

include hudp

theorem packNhcChain_of_measured (hupper : isNhcExtension upper = false)
    (hm : Measured packet.bytes.length 0 hs) {dest : List UInt8} {cnt : Nat}
    (hcnt : chainLen hs + 7 ≤ cnt) (hdest : cnt ≤ dest.length) :
    ∃ bytes, packNhcChain dest cnt packet = some (bytes ++ packedUpper upper payload,
        chainLen hs + (unpackedUpper upper payload).length) ∧ Packed upper hs bytes := by
  obtain ⟨bytes, hloop, hpacked⟩ := packNhcLoop_of_measured hupper hs [] cnt hbytes hm
    (by omega) (fun _ => show chainLen hs + 1 ≤ dest.length by omega)
  refine ⟨bytes, ?_, hpacked⟩
  rw [List.length_nil, Nat.zero_add] at hloop
  rw [packNhcChain, hfirst, hloop]
  unfold packedUpper unpackedUpper
  by_cases h17 : upper = ianaUdp
  · have hlen := congrArg List.length hbytes
    have hpay := hudp h17
    have hdrop : packet.bytes.drop (chainLen hs) = payload := by
      rw [hbytes, ← length_chainBytes hs upper, List.drop_left]
    rw [List.length_append, length_chainBytes] at hlen
    have hpack := packUdp_eq (show 7 ≤ cnt - chainLen hs by omega)
      (show chainLen hs + udpHdrSize ≤ packet.bytes.length by omega)
    rw [hdrop] at hpack
    dsimp only
    rw [if_pos h17, if_pos h17, if_pos h17, hpack,
      length_udpWithoutLen (length_udp hudp h17)]
    rfl
  · dsimp only
    rw [if_neg h17, if_neg h17, if_neg h17, List.append_nil]
    rfl

include hext

/-- **Extension headers survive compression exactly when** the compressor can measure each header in
its place, none has more than seven bytes of padding and no IPv6 header follows. -/
theorem nhcChain_roundTrip_iff (hne : hs ≠ [] ∨ upper = ianaUdp) {dest : List UInt8} {cnt : Nat}
    (hcnt : chainLen hs + udpHdrSize ≤ cnt) (hdest : cnt ≤ dest.length) :
    RoundTrip hs upper payload packet dest cnt ↔
      Compressible packet.bytes.length hs upper := by
  have hcnt8 : chainLen hs + 8 ≤ cnt := hcnt
  have hplain (h41 : upper ≠ ipv6Ipv6) : isNhcExtension upper = false := by
    simp only [List.mem_cons, List.not_mem_nil, or_false, not_or] at hext
    simp [isNhcExtension, hext, h41]
  constructor
  · rintro ⟨nhc, hpack, hdec⟩
    obtain ⟨hm, h41⟩ := measured_of_packNhcChain hfirst hbytes (by omega) hpack
    obtain ⟨bytes, hpack', hpacked⟩ := packNhcChain_of_measured hfirst hbytes hudp (hplain h41) hm
      (show chainLen hs + 7 ≤ cnt by omega) hdest
    refine ⟨hm, ?_, h41⟩
    intro h hmem
    refine Nat.lt_of_not_le fun hlong => ?_
    obtain ⟨hnhc, -⟩ := Prod.mk.inj (Option.some.inj (hpack.symm.trans hpack'))
    obtain ⟨area, harea⟩ : ∃ area : List UInt8,
        area = List.replicate (chainLen hs + (unpackedUpper upper payload).length) 0 := ⟨_, rfl⟩
    have harea' : area.length = chainLen hs + (unpackedUpper upper payload).length := by
      rw [harea, List.length_replicate]
    obtain ⟨u, chain, hu, hsame, -, hrbuf⟩ := hdec (0 :: area) 1 0 (chainLen hs) []
      Nat.zero_lt_one (by rw [List.length_cons]; omega) (Nat.le_refl _)
    have hu' : unpackNhcChain ([] ++ (0 :: ([] ++ area))) 1 (chainLen hs) 0
        (bytes ++ packedUpper upper payload) = .ok (u, []) := by
      rw [← hnhc, ← List.append_nil nhc]
      exact hu
    have hnot := not_lensAt hpacked ⟨h, hmem, hlong⟩ [] [] 0 area 1 0 (chainLen hs) rfl rfl
      (by omega) (Nat.le_refl _) hu'
    refine hnot ?_
    have hlen := hsame.length
    have hdrop : u.rbuf.drop 1 = chain ++ unpackedUpper upper payload := by
      have hsplice : splice ((0 :: area).set 0 (firstType hs upper)) 1
          (chain ++ unpackedUpper upper payload) =
          firstType hs upper :: (chain ++ unpackedUpper upper payload) :=
        splice_of_end (by
          simp only [List.set_cons_zero, List.length_cons, List.length_append, hlen, harea']
          omega)
      rw [hrbuf, hsplice]
      rfl
    rw [hdrop]
    exact hsame.lensAt _
  · rintro ⟨hm, hshort, h41⟩
    obtain ⟨bytes, hpack, hpacked⟩ := packNhcChain_of_measured hfirst hbytes hudp (hplain h41) hm
      (show chainLen hs + 7 ≤ cnt by omega) hdest
    refine ⟨_, hpack, ?_⟩
    intro rbuf at' nxtHdr size rest hlt hroom hsize
    have hcomp : nhcCompressible (firstType hs upper) = true := by
      cases hs with
      | nil =>
        obtain rfl := hne.resolve_left (fun hne => hne rfl)
        rfl
      | cons h hs => exact nhcCompressible_type h
    obtain ⟨pre, n, mid, area, hpre, hmid, hcut⟩ :
        ∃ (pre : List UInt8) (n : UInt8) (mid area : List UInt8), pre.length = nxtHdr ∧
          pre.length + 1 + mid.length = at' ∧ rbuf = pre ++ (n :: (mid ++ area)) := by
      have hlt' : nxtHdr < rbuf.length := by omega
      refine ⟨rbuf.take nxtHdr, rbuf[nxtHdr], (rbuf.drop (nxtHdr + 1)).take (at' - nxtHdr - 1),
        (rbuf.drop (nxtHdr + 1)).drop (at' - nxtHdr - 1), ?_, ?_, ?_⟩
      · rw [List.length_take]
        omega
      · simp only [List.length_take, List.length_drop]
        omega
      · rw [List.take_append_drop, ← List.drop_eq_getElem_cons hlt', List.take_append_drop]
    obtain ⟨u, chain, hdec, hsame, hstop, hu⟩ := unpackNhcChain_chain hudp (hplain h41) hpacked
      hshort hcomp pre mid n area at' nxtHdr size hmid.symm hpre.symm (by
        rw [hcut] at hroom
        simp only [List.length_append, List.length_cons] at hroom
        omega) hsize rest
    refine ⟨u, chain, by rw [hcut, List.append_assoc]; exact hdec, hsame, hstop, ?_⟩
    have hset : rbuf.set nxtHdr (firstType hs upper) =
        (pre ++ firstType hs upper :: mid) ++ area := by
      rw [hcut, ← hpre]
      simp
    have hat : (pre ++ firstType hs upper :: mid).length = at' := by
      simp only [List.length_append, List.length_cons]
      omega
    have hlen := hsame.length
    rw [hu, hset, splice_append_right (Nat.le_of_eq hat), hat, Nat.sub_self, splice, List.take_zero,
      List.nil_append, Nat.zero_add, List.length_append, hlen]
    simp

end

/-- A destination-options header of eight bytes with two bytes of padding. -/
def exampleDest : ExtHdr :=
  .options ipv6Dest 0 [.tlv ⟨5, [7, 9], by decide⟩ (by decide), .pad1, .pad1] (.inr rfl) (by decide)
    (by decide)

/-- A hop-by-hop header of eight bytes. -/
def exampleHop : ExtHdr :=
  .options ipv6Hop 0 [.tlv ⟨99, [0, 1, 0, 2], by decide⟩ (by decide)] (.inl rfl) (by decide)
    (by decide)

def exampleUdp : List UInt8 := [0x16, 0x33, 0x16, 0x34, 0, 10, 0xab, 0xcd, 7, 9]

/-- A packet with extension headers in front of a UDP header. -/
def exampleChain (hs : List ExtHdr) : Ip6Packet :=
  { examplePacket with
    hdr := { examplePacket.hdr with
      plen := .ofNat (chainLen hs + exampleUdp.length)
      nxt := firstType hs ianaUdp }
    data := [chainBytes hs ianaUdp, exampleUdp] }

theorem nhcChain_roundTrip_dest :
    RoundTrip [exampleDest] ianaUdp exampleUdp (exampleChain [exampleDest]) (List.replicate 64 0)
      64 :=
  (nhcChain_roundTrip_iff rfl rfl (by decide) (by decide) (.inr rfl)
    (by decide) (by decide)).2 (by decide)

/-- The second of two headers is not packed: its options end behind the bound of the loop. -/
theorem two_options_headers_rejected :
    (exampleChain [exampleHop, exampleDest]).hdr.nxt = firstType [exampleHop, exampleDest] ianaUdp ∧
      (exampleChain [exampleHop, exampleDest]).bytes =
        chainBytes [exampleHop, exampleDest] ianaUdp ++ exampleUdp ∧
      packNhcChain (List.replicate 64 0) 64 (exampleChain [exampleHop, exampleDest]) = none ∧
      ¬RoundTrip [exampleHop, exampleDest] ianaUdp exampleUdp
        (exampleChain [exampleHop, exampleDest]) (List.replicate 64 0) 64 := by
  have hnone : packNhcChain (List.replicate 64 0) 64 (exampleChain [exampleHop, exampleDest]) =
      none := by decide +kernel
  refine ⟨rfl, rfl, hnone, ?_⟩
  rintro ⟨nhc, hpack, -⟩
  rw [hnone] at hpack
  cases hpack

end Lowpan
