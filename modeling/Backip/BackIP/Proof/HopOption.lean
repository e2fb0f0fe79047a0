import Backip.BackIP.Header
import Backip.BackIP.Proof.Accounting
import Mathlib.Algebra.Group.Int.Defs
import Mathlib.Algebra.Group.Nat.Defs

/-!
# The option a packet carries is the sender's backpressure

`initiate`, `findHeader`, `findTLV`, `iov_read` and `iov_update` agree on where the option is in
every packet, however it is cut into buffers; the value itself has eight bits, which the
backpressure need not fit. `optionValue_iff` says when the option is right: at the sender and at a
forwarder.
-/

set_option autoImplicit false

namespace BackIP

/-- Where `findHeader` and `findTLV` locate the option. -/
def locate (pkt : Ip6Packet) : Option Nat :=
  (IPPacket.findHeader pkt.data pkt.hdr.nxt ipv6Hop).1.bind fun off =>
    IPPacket.findTlv pkt.data off backipHbhOptType

/-- The value of the option at `off`. -/
def valueAt (pkt : Ip6Packet) (off : Nat) : Option UInt8 := pkt.bytes[off + tlvHdrSize]?

/-- The IPv6 header and the payload of a packet without its first extension header. -/
def withoutHeader (pkt : Ip6Packet) : Ip6Hdr × List UInt8 :=
  let size := ((pkt.bytes.getD 1 0).toNat + 1) * 8
  ({ pkt.hdr with nxt := pkt.bytes.getD 0 0, plen := pkt.hdr.plen - .ofNat size },
    pkt.bytes.drop size)

/-- `pkt'` is `pkt` with the option for a node of backpressure `backpressure`. -/
structure Initiated (backpressure : Nat) (pkt pkt' : Ip6Packet) : Prop where
  wellFormed : pkt.WellFormed → pkt'.WellFormed
  plen : pkt'.hdr.plen.toNat = pkt.hdr.plen.toNat + 8
  located : ∃ off v, locate pkt' = some off ∧ valueAt pkt' off = some v ∧
    v.toNat = backpressure + 1
  removed : withoutHeader pkt' = (pkt.hdr, pkt.bytes)

/-- `pkt'` is `pkt` with the value of the option at `off` set to `backpressure`. -/
structure Approved (backpressure off : Nat) (pkt pkt' : Ip6Packet) : Prop where
  hdr : pkt'.hdr = pkt.hdr
  other : ∀ i, i ≠ off + tlvHdrSize → pkt'.bytes[i]? = pkt.bytes[i]?
  value : ∃ v, valueAt pkt' off = some v ∧ v.toNat = backpressure

/-! ## `initiate` -/

section Initiate

variable {pkt : Ip6Packet} (hicmp : pkt.hdr.nxt ≠ ianaIcmp) (backpressure : Nat)

include hicmp

theorem initiate_hdr : (initiate backpressure pkt).hdr =
    { pkt.hdr with nxt := ipv6Hop, plen := pkt.hdr.plen + 8 } := by
  rw [initiate, if_neg hicmp]
  rfl

theorem initiate_bytes : (initiate backpressure pkt).bytes =
    pkt.hdr.nxt :: 0 :: ([backipHbhOptType, 4, .ofNat (backpressure + 1), 0, 0, 0] ++
      pkt.bytes) := by
  rw [initiate, if_neg hicmp, Ip6Packet.bytes, List.flatten_cons]
  simp only [BackipDataHdr.bytes]
  rfl

theorem locate_initiate : locate (initiate backpressure pkt) = some 2 := by
  have hflat : (initiate backpressure pkt).data.flatten = [] ++ pkt.hdr.nxt :: 0 ::
      ([].flatMap Ipv6.Tlv.bytes ++ backipHbhOptType :: 4 ::
        ([.ofNat (backpressure + 1), 0, 0, 0] ++ pkt.bytes)) := initiate_bytes hicmp backpressure
  have hheader : IPPacket.findHeader (initiate backpressure pkt).data ipv6Hop ipv6Hop =
      (some 0, ipv6Hop) := by
    rw [IPPacket.findHeader, IPPacket.findHeaderLoop, if_neg (by decide)]
    rfl
  rw [locate, initiate_hdr hicmp, hheader]
  exact IPPacket.findTlv_of_options [] (List.forall_mem_nil _) hflat (by decide)

theorem valueAt_initiate :
    valueAt (initiate backpressure pkt) 2 = some (.ofNat (backpressure + 1)) := by
  rw [valueAt, initiate_bytes hicmp]
  rfl

theorem withoutHeader_initiate :
    withoutHeader (initiate backpressure pkt) = (pkt.hdr, pkt.bytes) := by
  have hplen : pkt.hdr.plen + 8 - .ofNat 8 = pkt.hdr.plen := UInt16.add_sub_cancel ..
  rw [withoutHeader, initiate_bytes hicmp, initiate_hdr hicmp]
  exact Prod.ext (congrArg (fun plen => { pkt.hdr with plen := plen }) hplen) rfl

theorem wellFormed_initiate (hhop : pkt.hdr.nxt ≠ ipv6Hop)
    (hplen : pkt.hdr.plen.toNat + 8 < 2 ^ 16) (h : pkt.WellFormed) :
    (initiate backpressure pkt).WellFormed := by
  have hopts : Ipv6.Options (backipHbhOptType :: 4 ::
      ([.ofNat (backpressure + 1), 0, 0, 0] ++ [])) := .tlv (by decide) rfl .nil
  constructor
  · have hmod : (pkt.hdr.plen + 8).toNat = pkt.hdr.plen.toNat + 8 := by
      rw [UInt16.toNat_add]
      exact Nat.mod_eq_of_lt hplen
    rw [initiate_hdr hicmp, initiate_bytes hicmp, hmod, h.plen]
    rfl
  · rw [initiate_hdr hicmp, initiate_bytes hicmp]
    exact h.payload.hop_of_not_hop hhop rfl hopts

/-- The packet gets the option exactly if the value and the length fit their fields. -/
theorem initiated_iff (hhop : pkt.hdr.nxt ≠ ipv6Hop) :
    Initiated backpressure pkt (initiate backpressure pkt) ↔
      backpressure + 1 < 2 ^ 8 ∧ pkt.hdr.plen.toNat + 8 < 2 ^ 16 := by
  have hplen : (initiate backpressure pkt).hdr.plen.toNat =
      (pkt.hdr.plen.toNat + 8) % 2 ^ 16 := by
    rw [initiate_hdr hicmp, UInt16.toNat_add]
    rfl
  constructor
  · intro h
    obtain ⟨off, v, _, _, hv⟩ := h.located
    have hp := h.plen
    rw [hplen] at hp
    exact ⟨hv ▸ v.toNat_lt, hp ▸ Nat.mod_lt _ (by decide)⟩
  · rintro ⟨hv, hp⟩
    exact ⟨wellFormed_initiate hicmp backpressure hhop hp, hplen.trans (Nat.mod_eq_of_lt hp),
      ⟨2, _, locate_initiate hicmp backpressure, valueAt_initiate hicmp backpressure,
        UInt8.toNat_ofNat_of_lt' hv⟩, withoutHeader_initiate hicmp backpressure⟩

end Initiate

/-! ## `approve` -/

section Approve

variable {pkt : Ip6Packet} {off : Nat} (hloc : locate pkt = some off)
  (hfit : off + 6 ≤ pkt.bytes.length) (backpressure : Nat)

include hloc hfit

/-- `approve` writes one byte. -/
theorem exists_approve : ∃ pkt', approve backpressure pkt = some pkt' ∧ pkt'.hdr = pkt.hdr ∧
    pkt'.bytes = pkt.bytes.set (off + tlvHdrSize) (.ofNat backpressure) := by
  obtain ⟨ext, hext, htlv⟩ := Option.bind_eq_some_iff.1 hloc
  have hlt : off + tlvHdrSize < pkt.bytes.length :=
    Nat.lt_of_lt_of_le (Nat.add_lt_add_left (by decide) off) hfit
  -- what is written back is what was read, but for its first byte
  have hread : pkt.data.read (off + tlvHdrSize) (dataHdrSize - dataHdrOffset) =
      pkt.bytes[off + tlvHdrSize] :: (pkt.bytes.drop (off + tlvHdrSize + 1)).take 3 := by
    rw [IpIovec.read_eq, show pkt.data.flatten = pkt.bytes from rfl, List.drop_eq_getElem_cons hlt]
    rfl
  have hlen : (pkt.bytes[off + tlvHdrSize] ::
      (pkt.bytes.drop (off + tlvHdrSize + 1)).take 3).length = dataHdrSize - dataHdrOffset := by
    rw [List.length_cons, List.length_take, List.length_drop]
    simp only [tlvHdrSize, dataHdrSize, dataHdrOffset]
    omega
  obtain ⟨iov, hiov, hflat, _⟩ := IpIovec.exists_update pkt.data (off + tlvHdrSize)
    (.ofNat backpressure :: (pkt.bytes.drop (off + tlvHdrSize + 1)).take 3) hlt
    (Nat.le_trans (Nat.le_of_eq (congrArg (off + tlvHdrSize + ·) hlen)) hfit)
  refine ⟨{ pkt with data := iov }, ?_, rfl, hflat.trans (splice_cons_drop _ _ hlt)⟩
  simp only [approve, hext, htlv, hread, hlen, ne_eq, not_true_eq_false, if_false]
  rw [List.set_cons_zero, hiov]
  rfl

/-- A forwarder's option is right exactly if the value fits its field. -/
theorem approved_iff :
    (∃ pkt', approve backpressure pkt = some pkt' ∧ Approved backpressure off pkt pkt') ↔
      backpressure < 2 ^ 8 := by
  constructor
  · rintro ⟨_, _, h⟩
    obtain ⟨v, _, hv⟩ := h.value
    exact hv ▸ v.toNat_lt
  · intro hbp
    obtain ⟨pkt', happ, hhdr, hbytes⟩ := exists_approve hloc hfit backpressure
    refine ⟨pkt', happ, hhdr, ?_, _, ?_, UInt8.toNat_ofNat_of_lt' hbp⟩
    · intro i hi
      rw [hbytes, List.getElem?_set_ne hi.symm]
    · rw [valueAt, hbytes, List.getElem?_set_self]
      exact Nat.lt_of_lt_of_le (Nat.add_lt_add_left (by decide) off) hfit

end Approve

/-! ## Every backlog is reached -/

/-- A data packet that comes while the link is idle adds one to the backpressure. -/
theorem QueueView.Move.send_idle {v v' : QueueView} (hv : v.Inv) {i : Nat} {frame : Message}
    {len : Nat} {r : TinyError} {now : Nat} (hf : v.flag = false) (hp : v.pending = [])
    (hlt : v.virtual < 65535) (hm : Move v (.send i frame len r now) v') :
    v'.flag = false ∧ v'.pending = [] ∧ v'.sending = v.sending ∧
      v'.stack.length + v'.virtual = v.stack.length + v.virtual + 1 := by
  cases hm with
  | bypassBusy _ _ _ _ _ hf' => rw [hf] at hf'; cases hf'
  | bypass _ _ _ _ _ hf' => rw [hf] at hf'; cases hf'
  | refuse _ _ _ _ _ _ hfree => exact absurd hfree (hv.free_discard_ne_nil hp)
  | accept _ _ _ _ _ m free q freeQe =>
    refine ⟨hf, hp, rfl, ?_⟩
    rw [List.length_append, List.length_singleton]
    rcases v.discard_cases with ⟨hd, _⟩ | ⟨q, rest, hs, _, hd⟩
    · rw [hd]
      exact Nat.add_right_comm _ _ _
    · rw [hd, hs, List.length_cons]
      change rest.length + 1 + inc16 v.virtual = rest.length + 1 + v.virtual + 1
      rw [inc16]
      omega

/-- The queue reaches every backpressure its counters can hold. -/
theorem Queueing.exists_getBp_eq {n : Nat} (hn : n ≤ 65535) :
    ∃ s, machine.Reachable s ∧ s.getBp = n := by
  suffices h : ∃ s, machine.Reachable s ∧ s.view.flag = false ∧ s.view.pending = [] ∧
      s.view.sending = 0 ∧ s.view.stack.length + s.view.virtual = n by
    obtain ⟨s, hr, _, _, hsend, hlen⟩ := h
    exact ⟨s, hr, by rw [getBp_view, hsend, hlen, Nat.add_zero]⟩
  induction n with
  | zero => exact ⟨boot.start, .init rfl, rfl, rfl, rfl, rfl⟩
  | succ n ih =>
    obtain ⟨s, hr, hf, hp, hsend, hlen⟩ := ih (Nat.le_of_succ_le hn)
    have hv := reachable_inv hr
    obtain ⟨s', hs⟩ : ∃ s', s.step (.send 0 ⟨[], 0, 0, 0, .data⟩ 20 .success 0) = some s' :=
      ⟨_, rfl⟩
    obtain ⟨h1, h2, h3, h4⟩ := (step_move hv hs).send_idle hv hf hp (by omega)
    have hr' : machine.Reachable s' :=
      hr.step (e := .send 0 ⟨[], 0, 0, 0, .data⟩ 20 .success 0) hs
    exact ⟨s', hr', h1, h2, h3.trans hsend, by rw [h4, hlen]⟩

/-- **The option is the backpressure.** In every state of the queue: a packet that starts here gets
the option exactly if the backpressure with this packet, and the new length, fit their fields; and a
packet that carries the option leaves with the value replaced, and nothing else, exactly if the
backpressure fits its field. -/
theorem optionValue_iff (s : Queueing) :
    (∀ pkt : Ip6Packet, pkt.hdr.nxt ≠ ianaIcmp → pkt.hdr.nxt ≠ ipv6Hop →
      (Initiated s.getBp pkt (initiate s.getBp pkt) ↔
        s.getBp + 1 < 2 ^ 8 ∧ pkt.hdr.plen.toNat + 8 < 2 ^ 16)) ∧
    ∀ (pkt : Ip6Packet) (off : Nat), locate pkt = some off → off + 6 ≤ pkt.bytes.length →
      ((∃ pkt', approve s.getBp pkt = some pkt' ∧ Approved s.getBp off pkt pkt') ↔
        s.getBp < 2 ^ 8) :=
  ⟨fun _ hicmp hhop => initiated_iff hicmp s.getBp hhop,
    fun _ _ hloc hfit => approved_iff hloc hfit s.getBp⟩

/-- A UDP packet of eight bytes. -/
def udpPacket : Ip6Packet where
  inputif := 0
  hdr := ⟨0x60000000, 8, ianaUdp, 64, .replicate 16 0, .replicate 16 0⟩
  data := [[0xDA, 0xC9, 0xDA, 0xC9, 0, 8, 0, 0]]

/-- An idle node sends the packet, and forwards it. -/
theorem optionValue_iff_idle :
    Initiated 0 udpPacket (initiate 0 udpPacket) ∧
      ∃ pkt, approve 0 (initiate 0 udpPacket) = some pkt ∧
        Approved 0 2 (initiate 0 udpPacket) pkt := by
  obtain ⟨h1, h2⟩ := optionValue_iff Queueing.boot.start
  exact ⟨(h1 udpPacket (by decide) (by decide)).2 (by decide),
    (h2 (initiate 0 udpPacket) 2 (locate_initiate (by decide) 0) (by decide)).2 (by decide)⟩

/-- With a backpressure of 255 the packet says 0. -/
theorem optionValue_false : ¬ ∀ s, Queueing.machine.Reachable s → ∀ pkt : Ip6Packet,
    pkt.hdr.nxt ≠ ianaIcmp → pkt.hdr.nxt ≠ ipv6Hop →
      Initiated s.getBp pkt (initiate s.getBp pkt) := by
  intro hall
  obtain ⟨s, hr, hbp⟩ := Queueing.exists_getBp_eq (show 255 ≤ 65535 by decide)
  have h := hall s hr udpPacket (by decide) (by decide)
  rw [hbp, initiated_iff (by decide) 255 (by decide)] at h
  exact absurd h.1 (by decide)

end BackIP
