import Backip.Lowpan.Proof.Extent
import Mathlib

/-!
# When decoding a frame stays in bounds

The functions that unpack a frame do not get its length, and write before they check. Their accesses
stay in bounds exactly if the headers that the dispatch bytes announce lie in the frame, and what
they unpack to lies in the buffer, up to where the functions give up: `IphcFits`, `ChainFits`,
`StartFits`, `AddFits` say so with the lengths alone.

* `decode_inBounds_iff`: the accesses of `lowpan_recon_start` and `lowpan_recon_add`.
-/

set_option autoImplicit false

namespace Lowpan

open Buffer (Takes InBounds)

/-! ## The lengths of the inline fields -/

def tfLen (dispatch : UInt8) : Nat :=
  let tf := dispatch &&& iphcTfMask
  if tf = iphcTfEcnDscp then 1
  else if tf = iphcTfEcnFl then 3
  else if tf = iphcTfEcnDscpFl then 4
  else 0

def nhLen (dispatch : UInt8) : Nat := if dispatch &&& iphcNhMask = iphcNhInline then 1 else 0

def hlimLen (dispatch : UInt8) : Nat :=
  let hl := dispatch &&& iphcHlimMask
  if hl = iphcHlim1 then 0 else if hl = iphcHlim64 then 0 else if hl = iphcHlim255 then 0 else 1

def cidLen (dispatch1 : UInt8) : Nat := if dispatch1 &&& iphcCidMask = iphcCidPresent then 1 else 0

/-- An address of `unpack_address`. -/
def addrLen (dispatch : UInt8) : Nat :=
  let am := dispatch &&& iphcAmMask
  if dispatch &&& iphcAcContext = 0 then
    if am = iphcAm128 then 16 else if am = iphcAm64 then 8 else if am = iphcAm16 then 2 else 0
  else if am = iphcAm128 then 0
  else if am = iphcAm64 then 8
  else if am = iphcAm16 then 2
  else 0

/-- An address of `unpack_multicast`. -/
def mcastLen (dispatch : UInt8) : Nat :=
  let am := dispatch &&& iphcAmMask
  if am = iphcAmM128 then 16 else if am = iphcAmM48 then 6 else if am = iphcAmM32 then 4 else 1

def dstLen (dispatch1 : UInt8) : Nat :=
  if dispatch1 &&& iphcM ≠ 0 then mcastLen (dispatch1 >>> iphcDamShift)
  else addrLen (dispatch1 >>> iphcDamShift)

/-- `unpack_multicast` gives up: stateful compression of a group. -/
def mcastRefused (dispatch1 : UInt8) : Prop :=
  dispatch1 &&& iphcM ≠ 0 ∧ (dispatch1 >>> iphcDamShift) &&& iphcAcContext ≠ 0

instance (dispatch1 : UInt8) : Decidable (mcastRefused dispatch1) :=
  inferInstanceAs (Decidable (_ ∧ _))

variable {c : Contexts} {dispatch dispatch1 context : UInt8} {buf : List UInt8}

theorem takes_unpackContexts : Takes (fun _ => True) (cidLen dispatch1) buf
    (unpackContexts dispatch1 buf) := by
  unfold cidLen unpackContexts
  split
  · refine Takes.bind (j := 0) Takes.next fun b _ => ?_
    exact .of_ok trivial
  · exact .of_ok trivial

theorem takes_unpackTcfl : Takes (fun _ => True) (tfLen dispatch) buf
    (unpackTcfl dispatch buf) := by
  unfold tfLen unpackTcfl
  dsimp only
  split
  · refine Takes.bind (j := 0) Takes.next fun b0 _ => ?_
    exact .of_ok trivial
  · split
    · refine Takes.bind (j := 2) Takes.next fun b0 _ => ?_
      refine Takes.bind (j := 1) Takes.next fun b1 _ => ?_
      refine Takes.bind (j := 0) Takes.next fun b2 _ => ?_
      exact .of_ok trivial
    · split
      · refine Takes.bind (j := 3) Takes.next fun b0 _ => ?_
        refine Takes.bind (j := 2) Takes.next fun b1 _ => ?_
        refine Takes.bind (j := 1) Takes.next fun b2 _ => ?_
        refine Takes.bind (j := 0) Takes.next fun b3 _ => ?_
        exact .of_ok trivial
      · exact .of_ok trivial

theorem takes_unpackNh : Takes (fun nxt => nxt.toList.length ≤ 1) (nhLen dispatch) buf
    (unpackNh dispatch buf) := by
  unfold nhLen unpackNh
  split
  · refine Takes.bind (j := 0) Takes.next fun nxt _ => ?_
    exact .of_ok (Nat.le_refl 1)
  · exact .of_ok (Nat.zero_le 1)

theorem takes_unpackHlim : Takes (fun _ => True) (hlimLen dispatch) buf
    (unpackHlim dispatch buf) := by
  unfold hlimLen unpackHlim
  dsimp only
  split
  · exact .of_ok trivial
  · split
    · exact .of_ok trivial
    · split
      · exact .of_ok trivial
      · exact .next

theorem length_zeroFill {head tail : List UInt8} (h : head.length + tail.length ≤ 16) :
    (zeroFill head tail).length = 16 := by
  simp only [zeroFill, List.length_append, List.length_replicate]
  omega

/-- `lowpan_extern_read_context` fills in an address. -/
def Contexts.Whole (c : Contexts) : Prop :=
  ∀ context addr, addr.length = 16 → (c.readContext context addr).2.length = 16

theorem takes_unpackStateful {ctxlen : Int} {addr : List UInt8} {am : UInt8} {frame : Ieee154Addr}
    (haddr : addr.length = 16) (ham : am ≠ iphcAm128) :
    Takes (fun a => a.length = 16) (if am = iphcAm64 then 8 else if am = iphcAm16 then 2 else 0) buf
      (unpackStateful ctxlen addr am buf frame) := by
  have hsplice {off : Nat} {xs : List UInt8} (h : off + xs.length ≤ 16) :
      (splice addr off xs).length = 16 := by
    rw [length_splice (by omega), haddr]
  unfold unpackStateful
  split
  · refine Takes.bind (j := 0) Takes.take fun iid hiid => ?_
    exact .of_ok (hsplice (by omega))
  · split
    · refine Takes.bind (j := 0) Takes.take fun tail htail => ?_
      exact .of_ok (hsplice (by omega))
    · split
      · exact .of_ok (hsplice (by simp [euiIid]))
      · split
        · exact .of_ok (hsplice (by simp [Ieee154Addr.saddr]))
        · exact .of_ok haddr

theorem takes_unpackAddress {frame : Ieee154Addr} {pan : UInt16} (hc : c.Whole) :
    Takes (fun a => a.length = 16) (addrLen dispatch) buf
      (unpackAddress c dispatch context buf frame pan) := by
  unfold addrLen unpackAddress
  dsimp only
  split
  · split
    · exact .take
    · split
      · refine Takes.bind (j := 0) Takes.take fun iid hiid => ?_
        exact .of_ok (by simp [linklocalPrefix, hiid])
      · split
        · refine Takes.bind (j := 0) Takes.take fun tail htail => ?_
          exact .of_ok (length_zeroFill (by simp [linklocalPrefix, htail]))
        · split
          · exact .of_ok (by simp [linklocalPrefix, euiIid])
          · exact .of_ok (by simp [linklocalPrefix, panIid, Ieee154Addr.saddr])
  · split
    · exact .of_ok (by simp)
    · rename_i ham
      exact takes_unpackStateful (hc context _ (by simp)) ham

theorem takes_unpackMulticast (hac : dispatch &&& iphcAcContext = 0) :
    Takes (fun a => a.length = 16) (mcastLen dispatch) buf (unpackMulticast dispatch buf) := by
  have hcopy (amount : Nat) (hle : amount ≤ 14) : Takes (fun a => a.length = 16) (1 + amount) buf
      (Buffer.next buf >>= fun r => Buffer.take amount r.2 >>= fun q =>
        .ok (zeroFill [0xff, r.1] q.1, q.2)) := by
    refine Takes.bind (j := amount) Takes.next fun b _ => ?_
    refine Takes.bind (j := 0) Takes.take fun tail htail => ?_
    exact .of_ok (length_zeroFill (by simp [htail]; omega))
  unfold mcastLen unpackMulticast
  simp only [hac, if_true]
  split
  · exact .take
  · split
    · exact hcopy 5 (by decide)
    · split
      · exact hcopy 3 (by decide)
      · refine Takes.bind (j := 0) Takes.next fun b _ => ?_
        exact .of_ok (length_zeroFill (by simp))

theorem takes_unpackDst {frame : FrameAddr} (hc : c.Whole) (hmc : ¬ mcastRefused dispatch1) :
    Takes (fun a => a.length = 16) (dstLen dispatch1) buf
      (unpackDst c dispatch1 context buf frame) := by
  unfold dstLen unpackDst
  split
  · rename_i hm
    refine takes_unpackMulticast ?_
    by_contra hac
    exact hmc ⟨hm, hac⟩
  · exact takes_unpackAddress hc

theorem unpackDst_of_refused {frame : FrameAddr} (hmc : mcastRefused dispatch1) :
    unpackDst c dispatch1 context buf frame = .error .rejected := by
  obtain ⟨hm, hac⟩ := hmc
  unfold unpackDst
  rw [if_pos hm, unpackMulticast]
  simp only [hac, if_false]

/-! ## The IPv6 header -/

variable {rbuf : List UInt8} {size : Nat} {frame : FrameAddr} {N : List UInt8 → Prop}

/-- The headers behind the IPv6 header, and the payload, into a buffer of `rbuf`'s length: in bounds
exactly if `N` holds of what is left of the frame. -/
def NextIff (dispatch : UInt8) (len size : Nat) (N : List UInt8 → Prop) : Prop :=
  ∀ rbuf buf, rbuf.length = len → 40 ≤ len → (InBounds (do
    let (u, buf) ← unpackNext dispatch rbuf size buf
    copyPayload u buf) ↔ N buf)

/-- `lowpan_unpack_headers` from the addresses on. -/
def unpackAddresses (c : Contexts) (frame : FrameAddr) (dispatch dispatch1 : UInt8) (size : Nat)
    (context0 context1 : UInt8) (rbuf buf : List UInt8) : Except Stop Unpacked := do
  let (src, buf) ← unpackAddress c (dispatch1 >>> iphcSamShift) context0 buf frame.src frame.dstpan
  let rbuf ← Buffer.write rbuf 8 src
  let (dst, buf) ← unpackDst c dispatch1 context1 buf frame
  let rbuf ← Buffer.write rbuf 24 dst
  let (u, buf) ← unpackNext dispatch rbuf size buf
  copyPayload u buf

/-- The addresses, and `N` of what is left behind them, into a buffer of `len` bytes. -/
def AddressesFit (dispatch1 : UInt8) (len : Nat) (N : List UInt8 → Prop) (buf : List UInt8) :
    Prop :=
  addrLen (dispatch1 >>> iphcSamShift) ≤ buf.length ∧ 24 ≤ len ∧
    (mcastRefused dispatch1 ∨
      dstLen dispatch1 ≤ (buf.drop (addrLen (dispatch1 >>> iphcSamShift))).length ∧ 40 ≤ len ∧
      N ((buf.drop (addrLen (dispatch1 >>> iphcSamShift))).drop (dstLen dispatch1)))

theorem addresses_inBounds {context0 context1 : UInt8} (hc : c.Whole)
    (hN : NextIff dispatch rbuf.length size N) :
    InBounds (unpackAddresses c frame dispatch dispatch1 size context0 context1 rbuf buf) ↔
      AddressesFit dispatch1 rbuf.length N buf := by
  refine (takes_unpackAddress hc).inBounds fun src hsrc => ?_
  dsimp only
  refine Buffer.inBounds_write (by omega) fun rbuf1 h1 => ?_
  by_cases hmc : mcastRefused dispatch1
  · rw [unpackDst_of_refused hmc, Buffer.error_bind]
    simp [hmc]
  · rw [or_iff_right hmc]
    refine (takes_unpackDst hc hmc).inBounds fun dst hdst => ?_
    dsimp only
    rw [← h1]
    refine Buffer.inBounds_splice (by omega) fun h40 => ?_
    exact hN _ _ ((length_splice (by omega)).trans h1) (h1 ▸ h40)

/-- The bytes of the IPv6 header between the two dispatch bytes and the source address. -/
def fieldsLen (dispatch dispatch1 : UInt8) : Nat :=
  cidLen dispatch1 + tfLen dispatch + nhLen dispatch + hlimLen dispatch

/-- `lowpan_unpack_headers` up to the addresses, and then `k`. -/
def unpackFields (k : UInt8 → UInt8 → List UInt8 → List UInt8 → Except Stop Unpacked)
    (dispatch dispatch1 : UInt8) (rbuf buf : List UInt8) : Except Stop Unpacked := do
  let ((context0, context1), buf) ← unpackContexts dispatch1 buf
  let (flow, buf) ← unpackTcfl dispatch buf
  let rbuf ← Buffer.write rbuf 0 flow.netBytes
  let (nxt, buf) ← unpackNh dispatch buf
  let rbuf ← Buffer.write rbuf 6 nxt.toList
  let (hlim, buf) ← unpackHlim dispatch buf
  let rbuf ← Buffer.write rbuf 7 [hlim]
  k context0 context1 rbuf buf

theorem lowpanUnpackHeaders_eq
    (hd : dispatch &&& lowpanDispatchByteMask = lowpanDispatchByteVal) :
    lowpanUnpackHeaders c frame rbuf size (dispatch :: dispatch1 :: buf) =
      unpackFields (unpackAddresses c frame dispatch dispatch1 size) dispatch dispatch1 rbuf
        buf := by
  unfold lowpanUnpackHeaders unpackFields unpackAddresses
  simp only [Buffer.next_cons, Buffer.ok_bind, hd, ne_eq, not_true_eq_false, if_false]

theorem fields_inBounds {A : List UInt8 → Prop}
    {k : UInt8 → UInt8 → List UInt8 → List UInt8 → Except Stop Unpacked}
    (hk : ∀ c0 c1 rbuf' buf', rbuf'.length = rbuf.length → (InBounds (k c0 c1 rbuf' buf') ↔ A buf'))
    (hA : ∀ buf', A buf' → 24 ≤ rbuf.length) :
    InBounds (unpackFields k dispatch dispatch1 rbuf buf) ↔
      fieldsLen dispatch dispatch1 ≤ buf.length ∧ A (buf.drop (fieldsLen dispatch dispatch1)) := by
  obtain ⟨b1, hb1⟩ : ∃ b1, buf.drop (cidLen dispatch1) = b1 := ⟨_, rfl⟩
  obtain ⟨b2, hb2⟩ : ∃ b2, b1.drop (tfLen dispatch) = b2 := ⟨_, rfl⟩
  obtain ⟨b3, hb3⟩ : ∃ b3, b2.drop (nhLen dispatch) = b3 := ⟨_, rfl⟩
  obtain ⟨b4, hb4⟩ : ∃ b4, b3.drop (hlimLen dispatch) = b4 := ⟨_, rfl⟩
  have hreads : InBounds (unpackFields k dispatch dispatch1 rbuf buf) ↔
      cidLen dispatch1 ≤ buf.length ∧ tfLen dispatch ≤ b1.length ∧
        nhLen dispatch ≤ b2.length ∧ hlimLen dispatch ≤ b3.length ∧ A b4 := by
    refine takes_unpackContexts.inBounds fun ctx _ => ?_
    rw [hb1]
    refine takes_unpackTcfl.inBounds fun flow _ => ?_
    rw [hb2]
    refine Buffer.inBounds_write_of_imp (fun h => ?_) fun rbuf1 h1 => ?_
    · have := hA _ h.2.2
      simp only [UInt32.length_netBytes]
      omega
    refine takes_unpackNh.inBounds fun nxt hnxt => ?_
    rw [hb3]
    refine Buffer.inBounds_write_of_imp (fun h => ?_) fun rbuf2 h2 => ?_
    · have := hA _ h.2
      omega
    refine takes_unpackHlim.inBounds fun hlim _ => ?_
    rw [hb4]
    refine Buffer.inBounds_write_of_imp (fun h => ?_) fun rbuf3 h3 => ?_
    · have := hA _ h
      simp only [List.length_singleton]
      omega
    exact hk _ _ _ _ (h3.trans (h2.trans h1))
  rw [hreads]
  have hdrop : buf.drop (fieldsLen dispatch dispatch1) = b4 := by
    rw [← hb4, ← hb3, ← hb2, ← hb1]
    simp only [List.drop_drop, fieldsLen]
  have l1 : b1.length = buf.length - cidLen dispatch1 := by rw [← hb1, List.length_drop]
  have l2 : b2.length = b1.length - tfLen dispatch := by rw [← hb2, List.length_drop]
  have l3 : b3.length = b2.length - nhLen dispatch := by rw [← hb3, List.length_drop]
  rw [hdrop, fieldsLen]
  constructor
  · rintro ⟨hcid, htf, hnh, hhlim, h⟩
    exact ⟨by omega, h⟩
  · rintro ⟨hlen, h⟩
    exact ⟨by omega, by omega, by omega, by omega, h⟩

/-- What is left of the frame behind the IPv6 header. -/
def behindIphc (dispatch dispatch1 : UInt8) (buf : List UInt8) : List UInt8 :=
  buf.drop (fieldsLen dispatch dispatch1 + addrLen (dispatch1 >>> iphcSamShift) + dstLen dispatch1)

theorem unpackHeaders_inBounds (hc : c.Whole) (hN : NextIff dispatch rbuf.length size N)
    (hd : dispatch &&& lowpanDispatchByteMask = lowpanDispatchByteVal) :
    InBounds (lowpanUnpackHeaders c frame rbuf size (dispatch :: dispatch1 :: buf)) ↔
      fieldsLen dispatch dispatch1 + addrLen (dispatch1 >>> iphcSamShift) ≤ buf.length ∧
      24 ≤ rbuf.length ∧ (mcastRefused dispatch1 ∨
        fieldsLen dispatch dispatch1 + addrLen (dispatch1 >>> iphcSamShift) + dstLen dispatch1 ≤
          buf.length ∧ 40 ≤ rbuf.length ∧ N (behindIphc dispatch dispatch1 buf)) := by
  rw [lowpanUnpackHeaders_eq hd]
  have hiff : InBounds (unpackFields (unpackAddresses c frame dispatch dispatch1 size) dispatch
      dispatch1 rbuf buf) ↔ _ := fields_inBounds (A := AddressesFit dispatch1 rbuf.length N)
    (fun c0 c1 rbuf' buf' hlen => by rw [← hlen]; exact addresses_inBounds hc (hlen ▸ hN))
    fun buf' h => h.2.1
  rw [hiff, AddressesFit]
  simp only [List.drop_drop, List.length_drop, behindIphc]
  constructor
  · rintro ⟨hf, hs, h24, hor⟩
    exact ⟨by omega, h24, hor.imp_right fun h => ⟨by omega, h.2⟩⟩
  · rintro ⟨hfs, h24, hor⟩
    exact ⟨by omega, by omega, h24, hor.imp_right fun h => ⟨by omega, h.2⟩⟩

/-! ## The headers behind it -/

variable {dest cnt nxtHdr : Nat}

/-- An extension header of `length` bytes with its padding. -/
def extSpan (length : Nat) : Nat := length + (8 - length % 8) % 8

/-- What `unpack_ipnh` writes into `ip6e_len`. -/
def extUnits (length : Nat) : UInt8 := .ofNat (extSpan length / 8 - 1)

/-- The next header field of an extension header that is inline. -/
def extNxtLen (dispatch : UInt8) : Nat := if dispatch &&& nhcNh = 0 then 1 else 0

def portsLen (dispatch : UInt8) : Nat :=
  let mode := dispatch &&& nhcUdpPortMask
  if mode = nhcUdpPortFull then 4
  else if mode = nhcUdpPortSrcFull then 3
  else if mode = nhcUdpPortDstFull then 3
  else 1

def cksumLen (dispatch : UInt8) : Nat := if dispatch &&& nhcUdpCksum = 0 then 2 else 0

/-- The body of an extension header of `length` bytes lies in the frame and in the buffer. -/
def BodyFits (type : UInt8) (len dest length : Nat) (body : List UInt8) : Prop :=
  sizeSub length 2 ≤ body.length ∧ dest + 2 + sizeSub length 2 ≤ len ∧
    dest + length + (padding type ((8 - length % 8) % 8)).length ≤ len ∧
    sizeSub (extSpan length) 2 ≤ body.length

/-- The compressed headers at `dest`, for which `unpack_ipnh` believes that `cnt` bytes are left,
and the payload, into a buffer of `len` bytes. -/
def ChainFits (len dest cnt : Nat) (buf : List UInt8) : Prop :=
  match buf with
  | [] => False
  | dispatch :: rest =>
    if dispatch &&& nhcIpv6Mask = nhcIpv6Pattern then
      match typeOf (dispatch &&& nhcEidMask) with
      | none => True
      | some type =>
        let length := (rest.getD (extNxtLen dispatch) 0).toNat
        let body := rest.drop (extNxtLen dispatch + 1)
        let behind := body.drop (sizeSub (extSpan length) 2)
        let dest' := dest + extLen (extUnits length)
        extNxtLen dispatch + 1 ≤ rest.length ∧ (extNxtLen dispatch = 1 → dest < len) ∧
          (cnt < sizeSub (extSpan length) 2 ∨
            BodyFits type len dest length body ∧
              if dispatch &&& nhcNh ≠ 0 then
                ChainFits len dest' (sizeSub cnt (extLen (extUnits length))) behind
              else dest' + behind.length ≤ len)
    else if dispatch &&& nhcUdpMask = nhcUdpPattern then
      portsLen dispatch + cksumLen dispatch ≤ rest.length ∧ dest + udpHdrSize ≤ len ∧
        dest + udpHdrSize + (rest.length - (portsLen dispatch + cksumLen dispatch)) ≤ len
    else True
termination_by buf.length
decreasing_by
  simp only [List.length_drop, List.length_cons]
  omega

theorem unpackPorts_cases (dispatch : UInt8) (buf : List UInt8) :
    (portsLen dispatch ≤ buf.length ∧
      ∃ s d, unpackPorts dispatch buf = .ok (s, d, buf.drop (portsLen dispatch))) ∨
    (buf.length < portsLen dispatch ∧ unpackPorts dispatch buf = .error .outOfBounds) := by
  unfold portsLen unpackPorts
  dsimp only
  split
  · rcases buf with _ | ⟨b0, _ | ⟨b1, _ | ⟨b2, _ | ⟨b3, rest⟩⟩⟩⟩
    all_goals first
      | exact .inr ⟨by simp, rfl⟩
      | exact .inl ⟨by simp, _, _, rfl⟩
  · split
    · rcases buf with _ | ⟨b0, _ | ⟨b1, _ | ⟨b2, rest⟩⟩⟩
      all_goals first
        | exact .inr ⟨by simp, rfl⟩
        | exact .inl ⟨by simp, _, _, rfl⟩
    · split
      · rcases buf with _ | ⟨b0, _ | ⟨b1, _ | ⟨b2, rest⟩⟩⟩
        all_goals first
          | exact .inr ⟨by simp, rfl⟩
          | exact .inl ⟨by simp, _, _, rfl⟩
      · rcases buf with _ | ⟨b0, rest⟩
        · exact .inr ⟨by simp, rfl⟩
        · exact .inl ⟨by simp, _, _, rfl⟩

/-- `unpack_udp` of a header that fits. -/
theorem unpackUdp_ok {rest : List UInt8} (hn : nxtHdr < rbuf.length)
    (hlen : portsLen dispatch + cksumLen dispatch ≤ rest.length) (hfit : dest + 8 ≤ rbuf.length) :
    ∃ rbuf', unpackUdp rbuf dest nxtHdr (dispatch :: rest) =
        .ok (rbuf', rest.drop (portsLen dispatch + cksumLen dispatch)) ∧
      rbuf'.length = rbuf.length := by
  rcases unpackPorts_cases dispatch rest with ⟨hp, s, d, hports⟩ | ⟨hp, -⟩
  · obtain ⟨rbuf1, hw1⟩ : ∃ rbuf1, Buffer.write rbuf nxtHdr [ianaUdp] = .ok rbuf1 :=
      ⟨_, Buffer.write_eq (by simp only [List.length_singleton]; omega)⟩
    have h1 := (Buffer.length_write hw1).1
    obtain ⟨rbuf2, hw2⟩ : ∃ rbuf2, Buffer.write rbuf1 (dest + 4) [0, 0, 0, 0] = .ok rbuf2 :=
      ⟨_, Buffer.write_eq (by simp only [List.length_cons, List.length_nil]; omega)⟩
    have h2 := (Buffer.length_write hw2).1
    obtain ⟨rbuf3, hw3⟩ : ∃ rbuf3,
        Buffer.write rbuf2 dest (s.netBytes ++ d.netBytes) = .ok rbuf3 :=
      ⟨_, Buffer.write_eq (by simp only [List.length_append, UInt16.length_netBytes]; omega)⟩
    have h3 := (Buffer.length_write hw3).1
    simp only [unpackUdp, Buffer.next_cons, Buffer.ok_bind, hw1, hw2, hports, hw3]
    unfold cksumLen at hlen ⊢
    split
    · rename_i hck
      rw [if_pos hck] at hlen
      obtain ⟨b0, b1, rest', hrest⟩ : ∃ b0 b1 rest',
          rest.drop (portsLen dispatch) = b0 :: b1 :: rest' := by
        have hl : 2 ≤ (rest.drop (portsLen dispatch)).length := by
          rw [List.length_drop]
          omega
        obtain ⟨b0, l, hl₀⟩ :=
          List.exists_cons_of_ne_nil (List.ne_nil_of_length_pos (Nat.lt_of_succ_le (Nat.le_of_lt hl)))
        rw [hl₀, List.length_cons] at hl
        obtain ⟨b1, rest', rfl⟩ :=
          List.exists_cons_of_ne_nil (List.ne_nil_of_length_pos (Nat.le_of_succ_le_succ hl))
        exact ⟨b0, b1, rest', hl₀⟩
      have hw4 : Buffer.write rbuf3 (dest + 6) (ntohs b0 b1).netBytes = .ok _ :=
        Buffer.write_eq (by simp only [UInt16.length_netBytes]; omega)
      rw [← List.drop_drop, hrest]
      simp only [Buffer.next_cons, Buffer.ok_bind, hw4]
      exact ⟨_, rfl, by rw [(Buffer.length_write hw4).1, h3, h2, h1]⟩
    · exact ⟨rbuf3, rfl, by rw [h3, h2, h1]⟩
  · omega

/-- `unpack_udp`, and `g` behind it. -/
theorem unpackUdp_inBounds {rest : List UInt8} {P : Prop}
    {g : List UInt8 × List UInt8 → Except Stop Unpacked} (hn : nxtHdr < rbuf.length)
    (hg : ∀ rbuf', rbuf'.length = rbuf.length →
      (InBounds (g (rbuf', rest.drop (portsLen dispatch + cksumLen dispatch))) ↔ P)) :
    InBounds (unpackUdp rbuf dest nxtHdr (dispatch :: rest) >>= g) ↔
      portsLen dispatch + cksumLen dispatch ≤ rest.length ∧ dest + 8 ≤ rbuf.length ∧ P := by
  by_cases hfit : portsLen dispatch + cksumLen dispatch ≤ rest.length ∧ dest + 8 ≤ rbuf.length
  · obtain ⟨rbuf', hok, hlen⟩ := unpackUdp_ok hn hfit.1 hfit.2
    rw [hok, Buffer.ok_bind, hg rbuf' hlen]
    exact ⟨fun h => ⟨hfit.1, hfit.2, h⟩, fun h => h.2.2⟩
  · refine iff_of_false (fun hin => hfit ?_) fun h => hfit ⟨h.1, h.2.1⟩
    simp only [unpackUdp, Buffer.next_cons, Buffer.ok_bind, bind_assoc] at hin
    obtain ⟨-, hin⟩ := hin.write
    obtain ⟨hdest, hin⟩ := hin.write
    rw [length_splice (by simp only [List.length_singleton]; omega)] at hdest
    rcases unpackPorts_cases dispatch rest with ⟨hports, s, d, hok⟩ | ⟨-, hbad⟩
    · refine ⟨?_, by simpa using hdest⟩
      rw [hok, Buffer.ok_bind] at hin
      obtain ⟨-, hin⟩ := hin.write
      unfold cksumLen
      split
      · rename_i hck
        simp only [hck, if_true, bind_assoc] at hin
        obtain ⟨b0, l0, h0, hin⟩ := hin.next
        obtain ⟨b1, l1, h1 : l0 = b1 :: l1, -⟩ := hin.next
        have hlen : (rest.drop (portsLen dispatch)).length = (b0 :: b1 :: l1).length := by
          rw [← h1]
          exact congrArg List.length h0
        simp only [List.length_drop, List.length_cons] at hlen
        omega
      · exact hports
    · rw [hbad, Buffer.error_bind] at hin
      exact absurd hin Buffer.not_inBounds_outOfBounds

theorem unpackExtNxt_ok {rest : List UInt8} (hlen : extNxtLen dispatch ≤ rest.length)
    (hdest : extNxtLen dispatch = 1 → dest < rbuf.length) :
    ∃ rbuf', unpackExtNxt rbuf dest dispatch rest = .ok (rbuf', rest.drop (extNxtLen dispatch)) ∧
      rbuf'.length = rbuf.length := by
  unfold extNxtLen at hlen hdest ⊢
  unfold unpackExtNxt
  split
  · rename_i hnh
    rw [if_pos hnh] at hlen hdest
    match rest, hlen with
    | nxt :: rest, _ =>
      have hw : Buffer.write rbuf dest [nxt] = .ok _ :=
        Buffer.write_eq (by simp only [List.length_singleton]; exact hdest rfl)
      simp only [Buffer.next_cons, Buffer.ok_bind, hw]
      exact ⟨_, rfl, (Buffer.length_write hw).1⟩
  · exact ⟨rbuf, rfl, rfl⟩

theorem unpackExtNxt_inBounds {rest : List UInt8}
    {g : List UInt8 × List UInt8 → Except Stop Unpacked}
    (h : InBounds (unpackExtNxt rbuf dest dispatch rest >>= g)) :
    extNxtLen dispatch ≤ rest.length ∧ (extNxtLen dispatch = 1 → dest < rbuf.length) ∧
      ∃ rbuf', rbuf'.length = rbuf.length ∧
        InBounds (g (rbuf', rest.drop (extNxtLen dispatch))) := by
  unfold unpackExtNxt at h
  unfold extNxtLen
  split at h
  · rename_i hnh
    rw [if_pos hnh]
    simp only [bind_assoc] at h
    obtain ⟨nxt, rest', rfl, h⟩ := h.next
    obtain ⟨hfit, h⟩ := h.write
    exact ⟨by simp, fun _ => hfit, _, length_splice hfit, h⟩
  · rename_i hnh
    rw [if_neg hnh]
    exact ⟨Nat.zero_le _, nofun, rbuf, rfl, h⟩

theorem next_drop {rest : List UInt8} {k : Nat} (h : k < rest.length) :
    Buffer.next (rest.drop k) = .ok (rest.getD k 0, rest.drop (k + 1)) := by
  rw [List.drop_eq_getElem_cons h, Buffer.next_cons, List.getD_eq_getElem _ _ h]

/-- `unpack_ipnh` of an extension header that fits. -/
theorem unpackExt_ok {rest : List UInt8} {type : UInt8} {length : Nat} {body : List UInt8}
    (htype : typeOf (dispatch &&& nhcEidMask) = some type) (hn : nxtHdr < rbuf.length)
    (hlength : (rest.getD (extNxtLen dispatch) 0).toNat = length)
    (hb : rest.drop (extNxtLen dispatch + 1) = body)
    (hlen : extNxtLen dispatch + 1 ≤ rest.length)
    (hdest : extNxtLen dispatch = 1 → dest < rbuf.length)
    (hcnt : ¬ cnt < sizeSub (extSpan length) 2)
    (hbody : BodyFits type rbuf.length dest length body) :
    ∃ rbuf', unpackExt rbuf dest cnt nxtHdr dispatch rest =
        .ok (rbuf', body.drop (sizeSub (extSpan length) 2)) ∧
      rbuf'.length = rbuf.length ∧ rbuf'.getD (dest + 1) 0 = extUnits length := by
  obtain ⟨hb1, hb2, hb3, hb4⟩ := hbody
  obtain ⟨rbuf1, hw1⟩ : ∃ rbuf1, Buffer.write rbuf nxtHdr [type] = .ok rbuf1 :=
    ⟨_, Buffer.write_eq (by simp only [List.length_singleton]; omega)⟩
  have h1 := (Buffer.length_write hw1).1
  obtain ⟨rbuf2, hnxt, h2⟩ : ∃ rbuf2,
      unpackExtNxt rbuf1 dest dispatch rest = .ok (rbuf2, rest.drop (extNxtLen dispatch)) ∧
        rbuf2.length = rbuf1.length := unpackExtNxt_ok (by omega) (h1 ▸ hdest)
  have hnext : Buffer.next (rest.drop (extNxtLen dispatch)) = .ok _ := next_drop (by omega)
  have htake : Buffer.take (sizeSub length 2) body = .ok (body.take (sizeSub length 2), _) :=
    Buffer.take_eq hb1
  have htlen : (body.take (sizeSub length 2)).length = sizeSub length 2 := by
    rw [List.length_take]
    omega
  obtain ⟨rbuf3, hw3⟩ : ∃ rbuf3, Buffer.write rbuf2 (dest + 2) (body.take (sizeSub length 2)) =
      .ok rbuf3 := ⟨_, Buffer.write_eq (by omega)⟩
  have h3 := (Buffer.length_write hw3).1
  obtain ⟨rbuf4, hw4⟩ : ∃ rbuf4, Buffer.write rbuf3 (dest + length)
      (padding type ((8 - length % 8) % 8)) = .ok rbuf4 := ⟨_, Buffer.write_eq (by omega)⟩
  have h4 := (Buffer.length_write hw4).1
  have hw5 : Buffer.write rbuf4 (dest + 1) [extUnits length] = .ok _ :=
    Buffer.write_eq (by simp only [List.length_singleton]; omega)
  have hlast : Buffer.take (sizeSub (extSpan length) 2) body = .ok _ := Buffer.take_eq hb4
  refine ⟨splice rbuf4 (dest + 1) [extUnits length], ?_,
    by rw [(Buffer.length_write hw5).1, h4, h3, h2, h1],
    Buffer.getD_splice_singleton _ _ (by omega)⟩
  unfold extSpan at hcnt hlast
  unfold extUnits extSpan at hw5
  unfold unpackExt
  simp only [htype, hw1, Buffer.ok_bind, hnxt, hnext, hlength, hb, hcnt, if_false, htake, hw3, hw4,
    hw5, hlast]
  rfl

/-- `unpack_ipnh` of an extension header that is longer than what it believes to be left. -/
theorem unpackExt_rejected {rest : List UInt8} {type : UInt8} {length : Nat}
    (htype : typeOf (dispatch &&& nhcEidMask) = some type) (hn : nxtHdr < rbuf.length)
    (hlength : (rest.getD (extNxtLen dispatch) 0).toNat = length)
    (hlen : extNxtLen dispatch + 1 ≤ rest.length)
    (hdest : extNxtLen dispatch = 1 → dest < rbuf.length)
    (hcnt : cnt < sizeSub (extSpan length) 2) :
    unpackExt rbuf dest cnt nxtHdr dispatch rest = .error .rejected := by
  obtain ⟨rbuf1, hw1⟩ : ∃ rbuf1, Buffer.write rbuf nxtHdr [type] = .ok rbuf1 :=
    ⟨_, Buffer.write_eq (by simp only [List.length_singleton]; omega)⟩
  have h1 := (Buffer.length_write hw1).1
  obtain ⟨rbuf2, hnxt, h2⟩ : ∃ rbuf2,
      unpackExtNxt rbuf1 dest dispatch rest = .ok (rbuf2, rest.drop (extNxtLen dispatch)) ∧
        rbuf2.length = rbuf1.length := unpackExtNxt_ok (by omega) (h1 ▸ hdest)
  have hnext : Buffer.next (rest.drop (extNxtLen dispatch)) = .ok _ := next_drop (by omega)
  unfold extSpan at hcnt
  unfold unpackExt
  simp only [htype, hw1, Buffer.ok_bind, hnxt, hnext, hlength, hcnt, if_true]

/-- Nothing else stays in bounds, but a header that is refused. -/
theorem bodyFits_of_inBounds {rest : List UInt8} {type : UInt8} {length : Nat} {body : List UInt8}
    {g : List UInt8 × List UInt8 → Except Stop Unpacked}
    (htype : typeOf (dispatch &&& nhcEidMask) = some type)
    (hlength : (rest.getD (extNxtLen dispatch) 0).toNat = length)
    (hb : rest.drop (extNxtLen dispatch + 1) = body)
    (h : InBounds (unpackExt rbuf dest cnt nxtHdr dispatch rest >>= g)) :
    extNxtLen dispatch + 1 ≤ rest.length ∧ (extNxtLen dispatch = 1 → dest < rbuf.length) ∧
      (cnt < sizeSub (extSpan length) 2 ∨ BodyFits type rbuf.length dest length body) := by
  simp only [unpackExt, htype, bind_assoc] at h
  obtain ⟨hfit0, h⟩ := h.write
  obtain ⟨hnxt, hdest, rbuf2, h2, h⟩ := unpackExtNxt_inBounds h
  rw [length_splice hfit0] at hdest h2
  by_cases hlen : extNxtLen dispatch < rest.length
  · simp only [next_drop hlen, Buffer.ok_bind, hlength, hb] at h
    refine ⟨hlen, hdest, ?_⟩
    by_cases hcnt : cnt < sizeSub (extSpan length) 2
    · exact .inl hcnt
    · have hcnt' := hcnt
      unfold extSpan at hcnt'
      simp only [hcnt', if_false, bind_assoc] at h
      obtain ⟨htake, h⟩ := h.take
      obtain ⟨hw3, h⟩ := h.write
      obtain ⟨hw4, h⟩ := h.write
      obtain ⟨hw5, h⟩ := h.write
      obtain ⟨hlast, -⟩ := h.take
      have htlen : (body.take (sizeSub length 2)).length = sizeSub length 2 := by
        rw [List.length_take]
        omega
      rw [length_splice hw3] at hw4
      simp only [htlen] at hw3
      exact .inr ⟨htake, by omega, by omega, hlast⟩
  · have hnil : rest.drop (extNxtLen dispatch) = [] := List.drop_eq_nil_of_le (by omega)
    simp only [hnil] at h
    obtain ⟨_, _, hcons, -⟩ := h.next
    cases hcons

/-- One turn of `unpack_nhc_chain`, as a parser that goes on after `unpack_ipnh`. -/
theorem unpackNhcChain_bind {buf : List UInt8} : unpackNhcChain rbuf dest cnt nxtHdr buf =
    unpackIpnh rbuf dest cnt nxtHdr buf >>= fun r =>
      if buf.headD 0 &&& nhcIpv6Mask = nhcIpv6Pattern then
        if buf.headD 0 &&& nhcNh ≠ 0 then
          unpackNhcChain r.1 (dest + extLen (r.1.getD (dest + 1) 0))
            (sizeSub cnt (extLen (r.1.getD (dest + 1) 0))) dest r.2
        else .ok (⟨r.1, dest + extLen (r.1.getD (dest + 1) 0), some dest, none⟩, r.2)
      else .ok (⟨r.1, dest + udpHdrSize, some dest, some (dest + 4)⟩, r.2) := by
  cases h : unpackIpnh rbuf dest cnt nxtHdr buf with
  | error e => rw [unpackNhcChain_of_error h, Buffer.error_bind]
  | ok r => rw [unpackNhcChain_of_ok h, Buffer.ok_bind]

theorem copyPayload_inBounds {u : Unpacked} {buf : List UInt8} :
    InBounds (copyPayload u buf) ↔ u.stop + buf.length ≤ u.rbuf.length := by
  unfold copyPayload
  rw [Buffer.inBounds_splice (P := True) rfl fun _ => by simp, and_true]

/-- What follows an extension header that fits. -/
theorem ext_turn_inBounds {rest : List UInt8} {type : UInt8} {length : Nat} {body : List UInt8}
    {g : List UInt8 × List UInt8 → Except Stop Unpacked} {P : Prop}
    (htype : typeOf (dispatch &&& nhcEidMask) = some type) (hn : nxtHdr < rbuf.length)
    (hlength : (rest.getD (extNxtLen dispatch) 0).toNat = length)
    (hb : rest.drop (extNxtLen dispatch + 1) = body)
    (hg : ∀ rbuf', rbuf'.length = rbuf.length → rbuf'.getD (dest + 1) 0 = extUnits length →
      dest < rbuf.length → extNxtLen dispatch + 1 ≤ rest.length →
      (InBounds (g (rbuf', body.drop (sizeSub (extSpan length) 2))) ↔ P)) :
    InBounds (unpackExt rbuf dest cnt nxtHdr dispatch rest >>= g) ↔
      extNxtLen dispatch + 1 ≤ rest.length ∧ (extNxtLen dispatch = 1 → dest < rbuf.length) ∧
      (cnt < sizeSub (extSpan length) 2 ∨ BodyFits type rbuf.length dest length body ∧ P) := by
  have hgo (hlen : extNxtLen dispatch + 1 ≤ rest.length)
      (hdest : extNxtLen dispatch = 1 → dest < rbuf.length)
      (hcnt : ¬ cnt < sizeSub (extSpan length) 2)
      (hbody : BodyFits type rbuf.length dest length body) :
      InBounds (unpackExt rbuf dest cnt nxtHdr dispatch rest >>= g) ↔ P := by
    obtain ⟨rbuf', hok, hl, hget⟩ := unpackExt_ok htype hn hlength hb hlen hdest hcnt hbody
    rw [hok, Buffer.ok_bind]
    exact hg rbuf' hl hget (by have := hbody.2.1; omega) hlen
  constructor
  · intro h
    obtain ⟨hlen, hdest, hor⟩ := bodyFits_of_inBounds htype hlength hb h
    refine ⟨hlen, hdest, ?_⟩
    by_cases hcnt : cnt < sizeSub (extSpan length) 2
    · exact .inl hcnt
    · have hbody := hor.resolve_left hcnt
      exact .inr ⟨hbody, (hgo hlen hdest hcnt hbody).1 h⟩
  · rintro ⟨hlen, hdest, hor⟩
    by_cases hcnt : cnt < sizeSub (extSpan length) 2
    · rw [unpackExt_rejected htype hn hlength hlen hdest hcnt, Buffer.error_bind]
      exact Buffer.inBounds_rejected
    · obtain ⟨hbody, hP⟩ := hor.resolve_left hcnt
      exact (hgo hlen hdest hcnt hbody).2 hP

theorem chain_inBounds {buf : List UInt8} (hn : nxtHdr < rbuf.length) :
    InBounds (do
      let (u, buf) ← unpackNhcChain rbuf dest cnt nxtHdr buf
      copyPayload u buf) ↔ ChainFits rbuf.length dest cnt buf := by
  induction hm : buf.length using Nat.strongRecOn generalizing rbuf dest cnt nxtHdr buf with
  | ind m ih =>
    rw [unpackNhcChain_bind, bind_assoc, ChainFits.eq_def]
    cases buf with
    | nil => simp [unpackIpnh]
    | cons dispatch rest =>
      simp only [unpackIpnh, List.headD_cons]
      by_cases hext : dispatch &&& nhcIpv6Mask = nhcIpv6Pattern
      · simp only [hext, if_true]
        cases htype : typeOf (dispatch &&& nhcEidMask) with
        | none => simp [unpackExt, htype]
        | some type =>
          obtain ⟨length, hlength⟩ : ∃ length,
            (rest.getD (extNxtLen dispatch) 0).toNat = length := ⟨_, rfl⟩
          obtain ⟨body, hb⟩ : ∃ body, rest.drop (extNxtLen dispatch + 1) = body := ⟨_, rfl⟩
          simp only [hlength, hb]
          refine ext_turn_inBounds htype hn hlength hb fun rbuf' hl hget hdest hlen => ?_
          simp only [hget]
          split
          · rw [← hl]
            refine ih _ ?_ (hl ▸ hdest) rfl
            rw [← hm, ← hb]
            simp only [List.length_drop, List.length_cons]
            omega
          · rw [Buffer.ok_bind, copyPayload_inBounds, hl]
      · simp only [hext, if_false]
        by_cases hudp : dispatch &&& nhcUdpMask = nhcUdpPattern
        · simp only [hudp, if_true]
          rw [unpackUdp_inBounds hn fun rbuf' hlen => ?_]
          · rw [Buffer.ok_bind, copyPayload_inBounds]
            simp only [hlen, List.length_drop]
        · simp [hudp]

/-! ## The frames -/

/-- The headers behind the IPv6 header, and the payload, into a buffer of `len` bytes. -/
def NextFits (dispatch : UInt8) (len : Nat) (buf : List UInt8) : Prop :=
  if dispatch &&& iphcNhMask ≠ 0 then ChainFits len ip6HdrSize (sizeSub len ip6HdrSize) buf
  else ip6HdrSize + buf.length ≤ len

/-- A compressed packet: the fields that the dispatch bytes announce, then the rest. -/
def IphcFits (len : Nat) : List UInt8 → Prop
  | [] => False
  | [dispatch] => dispatch &&& lowpanDispatchByteMask ≠ lowpanDispatchByteVal
  | dispatch :: dispatch1 :: buf =>
    dispatch &&& lowpanDispatchByteMask = lowpanDispatchByteVal →
      fieldsLen dispatch dispatch1 + addrLen (dispatch1 >>> iphcSamShift) ≤ buf.length ∧
      24 ≤ len ∧ (mcastRefused dispatch1 ∨
        fieldsLen dispatch dispatch1 + addrLen (dispatch1 >>> iphcSamShift) + dstLen dispatch1 ≤
          buf.length ∧
        ip6HdrSize ≤ len ∧ NextFits dispatch len (behindIphc dispatch dispatch1 buf))

/-- What stands behind the link headers, into a buffer of `len` bytes. -/
def UnpackFits (len : Nat) : List UInt8 → Prop
  | [] => False
  | b :: rest =>
    if b = lowpanIpv6Pattern then 6 ≤ len ∧ rest.length ≤ len else IphcFits len (b :: rest)

/-- The size that a first frame claims. -/
def claimedSize (headers : Headers) (pkt : List UInt8) : UInt16 :=
  if headers.frag1 then ntohs (pkt.getD 0 0 &&& 0x7) (pkt.getD 1 0)
  else .ofNat (lib6lowpanMaxLen + lowpanLinkMtu)

/-- `lowpan_recon_start`. -/
def StartFits (allocated : Bool) (pkt : List UInt8) : Prop :=
  ∀ headers, getHeaderBitmap pkt = some headers →
    (headers.frag1 = true → lowmsgFrag1Len ≤ pkt.length) ∧
    (allocated = true → UnpackFits (claimedSize headers pkt).toNat (pkt.drop headers.len))

/-- `lowpan_recon_add`. -/
def AddFits (recon : LowpanReconstruct) (pkt : List UInt8) : Prop :=
  ∀ headers, getHeaderBitmap pkt = some headers → headers.fragN = true →
    recon.size.toNat < (recon.bytesRcvd.toNat + sizeSub pkt.length headers.len) % 2 ^ 16 ∨
    headers.len ≤ pkt.length ∧
      recon.bytesRcvd.toNat + (pkt.length - headers.len) ≤ recon.size.toNat

theorem next_inBounds : NextIff dispatch size size (NextFits dispatch size) := by
  intro rbuf buf hlen h40
  unfold unpackNext NextFits
  split
  · rw [← hlen]
    exact chain_inBounds (by omega)
  · rw [Buffer.ok_bind, copyPayload_inBounds, hlen]

theorem iphc_inBounds {pkt : List UInt8} (hc : c.Whole) :
    InBounds (lowpanUnpackHeaders c frame rbuf rbuf.length pkt) ↔ IphcFits rbuf.length pkt := by
  match pkt with
  | [] => simp [lowpanUnpackHeaders, Buffer.next, IphcFits]
  | [dispatch] =>
    by_cases hd : dispatch &&& lowpanDispatchByteMask = lowpanDispatchByteVal
    · simp [lowpanUnpackHeaders, Buffer.next, IphcFits, hd]
    · simp [lowpanUnpackHeaders, IphcFits, hd]
  | dispatch :: dispatch1 :: buf =>
    rw [IphcFits]
    by_cases hd : dispatch &&& lowpanDispatchByteMask = lowpanDispatchByteVal
    · rw [forall_prop_of_true hd]
      exact unpackHeaders_inBounds hc next_inBounds hd
    · simp [lowpanUnpackHeaders, hd]

/-- The length of the compressed datagram's UDP header stays in the buffer. -/
theorem appLen_unpackUdp {rbuf' buf buf' : List UInt8}
    (h : unpackUdp rbuf dest nxtHdr buf = .ok (rbuf', buf')) : dest + 8 ≤ rbuf'.length := by
  have hlen := extent_unpackUdp h
  simp only [unpackUdp, Buffer.bind_eq_ok] at h
  obtain ⟨_, -, rbuf1, hw1, rbuf2, hw2, -⟩ := h
  have h1 := (Buffer.length_write hw1).1
  have h2 := (Buffer.length_write hw2).2
  simp only [List.length_cons, List.length_nil] at h2
  omega

theorem appLen_unpackIpnh {rbuf' buf buf' : List UInt8}
    (h : unpackIpnh rbuf dest cnt nxtHdr buf = .ok (rbuf', buf'))
    (hext : buf.headD 0 &&& nhcIpv6Mask ≠ nhcIpv6Pattern) : dest + 8 ≤ rbuf'.length := by
  unfold unpackIpnh at h
  split at h
  · cases h
  · rw [List.headD_cons] at hext
    rw [if_neg hext] at h
    split at h
    · exact appLen_unpackUdp h
    · cases h

theorem appLen_unpackNhcChain {u : Unpacked} {buf buf' : List UInt8} {a : Nat}
    (h : unpackNhcChain rbuf dest cnt nxtHdr buf = .ok (u, buf')) (ha : u.appLen = some a) :
    a + 2 ≤ u.rbuf.length := by
  induction hn : buf.length using Nat.strongRecOn generalizing rbuf dest cnt nxtHdr buf with
  | ind n ih =>
    cases hi : unpackIpnh rbuf dest cnt nxtHdr buf with
    | error e =>
      rw [unpackNhcChain_of_error hi] at h
      cases h
    | ok r =>
      obtain ⟨rbuf1, rest⟩ := r
      rw [unpackNhcChain_of_ok hi] at h
      split at h
      · split at h
        · exact ih rest.length (hn ▸ length_unpackIpnh hi) h rfl
        · obtain ⟨rfl, -⟩ := Prod.mk.inj (Except.ok.inj h)
          cases ha
      · rename_i hext
        obtain ⟨rfl, -⟩ := Prod.mk.inj (Except.ok.inj h)
        cases ha
        have := appLen_unpackIpnh hi hext
        dsimp only
        omega

theorem appLen_lowpanUnpackHeaders {pkt : List UInt8} {u : Unpacked} {a : Nat}
    (h : lowpanUnpackHeaders c frame rbuf size pkt = .ok u) (ha : u.appLen = some a) :
    a + 2 ≤ u.rbuf.length := by
  simp only [lowpanUnpackHeaders, Buffer.bind_eq_ok] at h
  obtain ⟨_, -, h⟩ := h
  split at h
  · cases h
  · simp only [Buffer.bind_eq_ok] at h
    obtain ⟨_, -, _, -, _, -, _, -, _, -, _, -, _, -, _, -, _, -, _, -, _, -, _, -, ⟨u1, buf1⟩,
      hnext, hcopy⟩ := h
    have hlen := (extent_copyPayload hcopy).1
    have happ : u.appLen = u1.appLen := by
      simp only [copyPayload, Buffer.bind_eq_ok] at hcopy
      obtain ⟨_, -, hok⟩ := hcopy
      cases hok
      rfl
    rw [happ] at ha
    rw [hlen]
    unfold unpackNext at hnext
    split at hnext
    · exact appLen_unpackNhcChain hnext ha
    · obtain ⟨rfl, -⟩ := Prod.mk.inj (Except.ok.inj hnext)
      cases ha

/-- Unpacked headers fill an IPv6 header. -/
theorem length_lowpanUnpackHeaders {pkt : List UInt8} {u : Unpacked}
    (h : lowpanUnpackHeaders c frame rbuf size pkt = .ok u) : 8 ≤ u.rbuf.length := by
  have hlen := (extent_lowpanUnpackHeaders h).1
  simp only [lowpanUnpackHeaders, Buffer.bind_eq_ok] at h
  obtain ⟨_, -, h⟩ := h
  split at h
  · cases h
  · simp only [Buffer.bind_eq_ok] at h
    obtain ⟨_, -, _, -, _, -, rbuf1, hw1, _, -, rbuf2, hw2, _, -, rbuf3, hw3, -⟩ := h
    have h1 := (Buffer.length_write hw1).1
    have h2 := (Buffer.length_write hw2).1
    have h3 := (Buffer.length_write hw3).2
    simp only [List.length_singleton] at h3
    omega

/-- The elided lengths are filled into headers that are there. -/
theorem reconFill_ok {u : Unpacked} {s : UInt16} (h6 : 6 ≤ u.rbuf.length)
    (happ : ∀ a, u.appLen = some a → a + 2 ≤ u.rbuf.length) :
    ∃ rbuf', reconFill s u = .ok rbuf' := by
  unfold reconFill
  have hw : Buffer.write u.rbuf 4 (s - .ofNat ip6HdrSize).netBytes = .ok _ :=
    Buffer.write_eq (by rw [UInt16.length_netBytes]; omega)
  have hlen := (Buffer.length_write hw).1
  rw [hw, Buffer.ok_bind]
  cases ha : u.appLen with
  | none => exact ⟨_, rfl⟩
  | some a =>
    have := happ a ha
    exact ⟨_, Buffer.write_eq (by rw [UInt16.length_netBytes]; omega)⟩

theorem reconFill_inBounds {n : Nat} {s : UInt16} :
    InBounds (reconFill s ⟨rbuf, n, none, none⟩) ↔ 6 ≤ rbuf.length := by
  rw [reconFill, Buffer.inBounds_write (n := 6) (P := True) (by simp) fun _ _ => by simp, and_true]

/-- What `lowpan_recon_start` finds behind the link headers: it gives up, leaves the buffers, or
goes on to fill in the lengths. -/
theorem reconUnpack_cases {pkt : List UInt8} (hc : c.Whole) :
    (reconUnpack c frame rbuf pkt = .error .rejected ∧ UnpackFits rbuf.length pkt) ∨
    (reconUnpack c frame rbuf pkt = .error .outOfBounds ∧ ¬ UnpackFits rbuf.length pkt) ∨
    ∃ u, reconUnpack c frame rbuf pkt = .ok u ∧
      ∀ s, InBounds (reconFill s u) ↔ UnpackFits rbuf.length pkt := by
  cases pkt with
  | nil => exact .inr (.inl ⟨rfl, id⟩)
  | cons b rest =>
    unfold reconUnpack UnpackFits
    rw [Buffer.next_cons, Buffer.ok_bind]
    by_cases hb : b = lowpanIpv6Pattern
    · simp only [hb, if_true]
      by_cases hrest : rest.length ≤ rbuf.length
      · rw [Buffer.write_eq (by omega), Buffer.ok_bind]
        have hlen : (splice rbuf 0 rest).length = rbuf.length := length_splice (by omega)
        refine .inr (.inr ⟨_, rfl, fun s => ?_⟩)
        rw [reconFill_inBounds, hlen, and_iff_left hrest]
      · rw [Buffer.write_error (by omega), Buffer.error_bind]
        exact .inr (.inl ⟨rfl, fun h => hrest h.2⟩)
    · simp only [hb, if_false]
      have hiff : InBounds (lowpanUnpackHeaders c frame rbuf rbuf.length (b :: rest)) ↔ _ :=
        iphc_inBounds hc
      rw [← hiff]
      cases h : lowpanUnpackHeaders c frame rbuf rbuf.length (b :: rest) with
      | error e =>
        cases e with
        | outOfBounds => exact .inr (.inl ⟨rfl, Buffer.not_inBounds_outOfBounds⟩)
        | rejected => exact .inl ⟨rfl, Buffer.inBounds_rejected⟩
      | ok u =>
        refine .inr (.inr ⟨u, rfl, fun s => iff_of_true ?_ (Buffer.inBounds_ok u)⟩)
        have h8 := length_lowpanUnpackHeaders h
        obtain ⟨rbuf', hfill⟩ : ∃ rbuf', reconFill s u = .ok rbuf' :=
          reconFill_ok (by omega) fun a => appLen_lowpanUnpackHeaders h
        rw [hfill]
        exact Buffer.inBounds_ok rbuf'

theorem reconSetup_ok {recon : LowpanReconstruct} {headers : Headers} {pkt : List UInt8}
    (h : headers.frag1 = true → lowmsgFrag1Len ≤ pkt.length) :
    ∃ recon', reconSetup recon headers pkt = .ok recon' ∧
      recon'.size = claimedSize headers pkt := by
  unfold reconSetup claimedSize
  cases hf : headers.frag1 with
  | false => exact ⟨_, rfl, rfl⟩
  | true =>
    match pkt, h hf with
    | b0 :: b1 :: b2 :: b3 :: _, _ => exact ⟨_, rfl, rfl⟩

theorem reconSetup_error {recon : LowpanReconstruct} {headers : Headers} {pkt : List UInt8}
    (hf : headers.frag1 = true) (h : pkt.length < lowmsgFrag1Len) :
    reconSetup recon headers pkt = .error .outOfBounds := by
  unfold reconSetup
  rw [if_pos hf]
  match pkt, h with
  | [], _ => rfl
  | [_], _ => rfl
  | [_, _], _ => rfl
  | [_, _, _], _ => rfl

theorem start_inBounds {allocated : Bool} {recon : LowpanReconstruct} {pkt : List UInt8}
    (hc : c.Whole) :
    InBounds (lowpanReconStart c allocated frame recon pkt) ↔ StartFits allocated pkt := by
  unfold lowpanReconStart StartFits
  cases getHeaderBitmap pkt with
  | none => simp
  | some headers =>
    simp only [Option.some.injEq, forall_eq']
    by_cases hf : headers.frag1 = true → lowmsgFrag1Len ≤ pkt.length
    · obtain ⟨recon', hok, hsize⟩ : ∃ recon', reconSetup recon headers pkt = .ok recon' ∧
          recon'.size = claimedSize headers pkt := reconSetup_ok hf
      rw [hok, Buffer.ok_bind, and_iff_right hf]
      cases allocated with
      | false => simp
      | true =>
        simp only [Bool.not_true, Bool.false_eq_true, if_false, true_implies]
        obtain ⟨rbuf, hrbuf⟩ : ∃ rbuf : List UInt8,
            List.replicate recon'.size.toNat 0 = rbuf := ⟨_, rfl⟩
        have hlen : rbuf.length = recon'.size.toNat := by rw [← hrbuf, List.length_replicate]
        rw [← hsize, hrbuf, ← hlen]
        have hcases : (reconUnpack c frame rbuf (pkt.drop headers.len) = .error .rejected ∧ _) ∨
            _ := reconUnpack_cases hc
        rcases hcases with ⟨hu, hfit⟩ | ⟨hu, hfit⟩ | ⟨u, hu, hfill⟩
        · rw [hu]
          exact iff_of_true (Buffer.inBounds_ok _) hfit
        · rw [hu]
          exact iff_of_false Buffer.not_inBounds_outOfBounds hfit
        · rw [hu, ← hfill]
          exact Buffer.inBounds_bind_ok
    · obtain ⟨hf1, hlt⟩ : headers.frag1 = true ∧ pkt.length < lowmsgFrag1Len := by
        simpa using hf
      rw [reconSetup_error hf1 hlt, Buffer.error_bind]
      exact iff_of_false Buffer.not_inBounds_outOfBounds fun h => hf h.1

/-! ## The datagram that is being put together -/

/-- A datagram that `lowpan_recon_start` has started, and `lowpan_recon_add` continued. -/
inductive Reassembled (c : Contexts) : LowpanReconstruct → Prop
  | start {frame : FrameAddr} {recon recon' : LowpanReconstruct} {pkt : List UInt8}
      (h : lowpanReconStart c true frame recon pkt = .ok (0, recon')) : Reassembled c recon'
  | add {recon recon' : LowpanReconstruct} {pkt : List UInt8} (hr : Reassembled c recon)
      (h : lowpanReconAdd recon pkt = .ok (0, recon')) : Reassembled c recon'

/-- The bytes that have been received lie in the datagram, and the datagram in its block. -/
structure Sized (recon : LowpanReconstruct) (rbuf : List UInt8) : Prop where
  buf : recon.buf = .block rbuf
  rcvd : recon.bytesRcvd.toNat ≤ recon.size.toNat
  size : recon.size.toNat ≤ rbuf.length
  block : rbuf.length < 2 ^ 16

theorem sized_of_start {recon recon' : LowpanReconstruct} {pkt : List UInt8}
    (h : lowpanReconStart c true frame recon pkt = .ok (0, recon')) :
    ∃ rbuf, Sized recon' rbuf := by
  unfold lowpanReconStart at h
  split at h
  · cases h
  · simp only [Buffer.bind_eq_ok] at h
    obtain ⟨recon1, -, h⟩ := h
    simp only [Bool.not_true, Bool.false_eq_true, if_false] at h
    split at h
    · cases h
    · cases h
    · rename_i u hu
      simp only [Buffer.bind_eq_ok] at h
      obtain ⟨rbuf', hfill, hok⟩ := h
      cases hok
      obtain ⟨hlen, hstop⟩ := reconUnpack_extent hu
      rw [List.length_replicate] at hlen hstop
      have hlen' : rbuf'.length = recon1.size.toNat := (reconFill_extent hfill).trans hlen
      have hlt := recon1.size.toNat_lt
      have hmod : u.stop % 2 ^ 16 = u.stop := Nat.mod_eq_of_lt (by omega)
      refine ⟨rbuf', rfl, ?_, ?_, by omega⟩
      · dsimp only
        split
        · simp only [UInt16.toNat_ofNat', hmod]
          exact hstop
        · exact Nat.le_refl _
      · dsimp only
        split
        · omega
        · simp only [UInt16.toNat_ofNat', hmod]
          omega

theorem add_inBounds {recon : LowpanReconstruct} {rbuf pkt : List UInt8} (hr : Sized recon rbuf) :
    InBounds (lowpanReconAdd recon pkt) ↔ AddFits recon pkt := by
  unfold lowpanReconAdd AddFits
  cases getHeaderBitmap pkt with
  | none => simp
  | some headers =>
    simp only [Option.some.injEq, forall_eq']
    cases hn : headers.fragN with
    | false => simp
    | true =>
      simp only [Bool.not_true, Bool.false_eq_true, if_false, true_implies]
      split
      · rename_i hover
        exact iff_of_true (Buffer.inBounds_ok _) (.inl hover)
      · rename_i hover
        rw [or_iff_right hover]
        have hpay : (pkt.drop headers.len).length = pkt.length - headers.len := List.length_drop
        have hrcvd := hr.rcvd
        have hsize := hr.size
        have hblock := hr.block
        by_cases hlen : headers.len ≤ pkt.length
        · rw [sizeSub_of_le hlen] at hover ⊢
          rw [Buffer.take_eq (by omega), Buffer.ok_bind, hr.buf, and_iff_right hlen]
          dsimp only
          rw [Buffer.inBounds_bind_ok]
          by_cases hfit : recon.bytesRcvd.toNat + (pkt.length - headers.len) ≤ rbuf.length
          · rw [Buffer.write_eq (by rw [List.length_take]; omega)]
            rw [Nat.mod_eq_of_lt (by omega)] at hover
            exact iff_of_true (Buffer.inBounds_ok _) (by omega)
          · rw [Buffer.write_error (by rw [List.length_take]; omega)]
            exact iff_of_false Buffer.not_inBounds_outOfBounds (by omega)
        · have hpast : sizeSub pkt.length headers.len = pkt.length + 2 ^ 16 - headers.len :=
            if_neg hlen
          have h9 : headers.len ≤ 9 := by
            simp only [Headers.len, hn, if_true]
            split <;> decide
          rw [Buffer.take_error (by omega), Buffer.error_bind]
          exact iff_of_false Buffer.not_inBounds_outOfBounds fun h => hlen h.1

theorem sized_of_add {recon recon' : LowpanReconstruct} {rbuf pkt : List UInt8}
    (hr : Sized recon rbuf) (h : lowpanReconAdd recon pkt = .ok (0, recon')) :
    ∃ rbuf', Sized recon' rbuf' := by
  unfold lowpanReconAdd at h
  split at h
  · cases h
  · rename_i headers hb
    split at h
    · cases h
    · dsimp only at h
      split at h
      · cases h
      · rename_i hover
        simp only [Buffer.bind_eq_ok, hr.buf] at h
        obtain ⟨⟨payload, _⟩, htake, rbuf', hw, hok⟩ := h
        cases hok
        have hlen : payload.length = sizeSub pkt.length headers.len := by
          unfold Buffer.take at htake
          split at htake
          · cases htake
            rw [List.length_take]
            omega
          · cases htake
        obtain ⟨hw1, hw2⟩ := Buffer.length_write hw
        have hblock := hr.block
        have hsize := hr.size
        dsimp only at hw2
        rw [hlen] at hw2
        rw [Nat.mod_eq_of_lt (by omega)] at hover
        refine ⟨rbuf', rfl, ?_, by dsimp only; omega, by omega⟩
        dsimp only
        rw [UInt16.toNat_add, UInt16.toNat_ofNat', Nat.mod_eq_of_lt (a := sizeSub _ _) (by omega),
          Nat.mod_eq_of_lt (by omega)]
        omega

theorem Reassembled.sized {recon : LowpanReconstruct} (h : Reassembled c recon) :
    ∃ rbuf, Sized recon rbuf := by
  induction h with
  | start h => exact sized_of_start h
  | add _ h ih =>
    obtain ⟨rbuf, hr⟩ := ih
    exact sized_of_add hr h

/-- A neighbourhood without contexts, and a first fragment that has been received. -/
def bareContexts : Contexts := ⟨fun _ => 0, fun _ addr => (0, addr)⟩

def shortAddr : Ieee154Addr := ⟨.short, .replicate 8 0⟩

def idleRecon : LowpanReconstruct := ⟨0, 0, 0, .null, 0, .unused, ⟨shortAddr, 0, 0⟩⟩

/-- The first of two fragments: the header, and 8 bytes to come. -/
def headerFrag : List UInt8 := [0xc0, 48, 0, 7, 0x41] ++ List.replicate 40 0

theorem headerFrag_started :
    lowpanReconStart bareContexts true ⟨shortAddr, shortAddr, 0⟩ idleRecon headerFrag =
      .ok (0, ⟨7, 0, 48, .block (List.replicate 5 0 ++ [8] ++ List.replicate 42 0), 40, .unused,
        ⟨shortAddr, 0, 0⟩⟩) := by
  decide

end Lowpan
