import Backip.BackIP.Header
import Backip.Blip.RoutingTable
import Backip.Lowpan.Header
import Mathlib

/-!
# The IP layer (`tos/lib/net/blip/`: `IPAddressP.nc`, `IPForwardingEngineP.nc`, `IPProtocolsP.nc`,
`IPNeighborDiscoveryP.nc`)

`Engine.recv` is `IPForward.recv`: it delivers a packet or passes it on. `ForwardingEvents` are the
handlers that routing protocols wire to the engine; those of BackIP are `backipEvents`.
`Engine.recv_of_forwards` and `Engine.recv_of_not_forwards` say when a packet is passed on. What is
remembered for the link results (`Pool`) is left out.

A link-local address is made from an address of the link (`getLLAddr`) and taken back to it
(`resolveAddress`). The mote's frames have what is left of its own after both, so the two are
inverse or the mote sends from an address it does not have: `resolves_self_iff` says when.
-/

set_option autoImplicit false

namespace Blip

/-! ## `IPAddressP` -/

/-- The addresses of a node: `m_short_addr`, `m_addr` and those of `Ieee154Address`, the PAN and
the short address as numbers. -/
structure IPAddress where
  shortAddr : Bool
  addr : In6Addr
  panId : UInt16
  saddr : UInt16
  laddr : Vector UInt8 8

/-- `s6_addr16[i]`, in host order. -/
def In6Addr.word (a : In6Addr) (i : Fin 8) : UInt16 :=
  a[2 * i.val].toUInt16 <<< 8 ||| a[2 * i.val + 1].toUInt16

namespace IPAddress

/-- `IPAddress.isLocalAddress`. -/
def isLocalAddress (self : IPAddress) (a : In6Addr) : Bool :=
  if In6Addr.word a 0 = 0xfe80 then
    if self.shortAddr ∧ In6Addr.word a 5 = 0x00ff ∧ In6Addr.word a 6 = 0xfe00 then
      In6Addr.word a 4 == self.panId &&& ~~~0x200 && In6Addr.word a 7 == self.saddr
    else
      a[8] == self.laddr[7] ^^^ 0x2 && a[9] == self.laddr[6] && a[10] == self.laddr[5] &&
        a[11] == self.laddr[4] && a[12] == self.laddr[3] && a[13] == self.laddr[2] &&
        a[14] == self.laddr[1] && a[15] == self.laddr[0]
  else if a[0] = 0xff then a[1] &&& 0x0f ≤ 2
  else a == self.addr

/-- `IPAddress.isLLAddress`. -/
def isLLAddress (a : In6Addr) : Bool :=
  In6Addr.word a 0 == 0xfe80 || a[0] == 0xff && a[1] &&& 0x0f ≤ 2

end IPAddress

/-! ## `IPForwardingEngineP` -/

/-- `ROUTE_TABLE_SZ`. -/
abbrev routeTableSz : Nat := 20
/-- `ROUTE_IFACE_154`. -/
abbrev routeIface154 : UInt8 := 1

/-- The handlers of `ForwardingEvents` (`none`: `FALSE`). `initiate` gives the packet it leaves;
`approve` its payload: no handler writes to the header of a packet on its way. -/
structure ForwardingEvents where
  initiate : UInt8 → Ip6Packet → In6Addr → Option Ip6Packet
  approve : UInt8 → Ip6Packet → In6Addr → Option IpIovec

/-- The handlers of BackIP, on its interface; others have the default ones. -/
def backipEvents (backpressure : Nat) : ForwardingEvents where
  initiate ifindex pkt _ :=
    some (if ifindex = routeIface154 then BackIP.initiate backpressure pkt else pkt)
  approve ifindex pkt _ :=
    if ifindex = routeIface154 then (BackIP.approve backpressure pkt).map (·.data)
    else some pkt.data

/-- The engine of a node. -/
structure Engine (size : Nat) where
  table : RoutingTable size
  addr : IPAddress

/-- What the engine signals and calls. -/
inductive Output
  | recv (hdr : Ip6Hdr) (payload : List UInt8)
  | send (ifindex : UInt8) (next : In6Addr) (pkt : Ip6Packet)
deriving DecidableEq

namespace Engine

variable {size : Nat}

/-- The entry `lookupRoute` finds for a destination. -/
def route (e : Engine size) (dst : In6Addr) : Option RouteEntry :=
  (e.table.lookupRoute dst 128).map (e.table.table.getD · .zero)

/-- `IP.send`, up to the call of `IPForward.send` (`none`: `FAIL`). -/
def send (e : Engine size) (events : ForwardingEvents) (pkt : Ip6Packet) : Option Output :=
  let entry := e.route pkt.hdr.dst
  if e.addr.isLocalAddress pkt.hdr.dst ∧ pkt.hdr.dst[0] ≠ 0xff then none
  else if IPAddress.isLLAddress pkt.hdr.dst ∧ entry.all (·.prefixlen < 128) then
    some (.send routeIface154 pkt.hdr.dst { pkt with hdr := { pkt.hdr with hlim := 1 } })
  else
    match entry with
    | none => none
    | some entry =>
      (events.initiate entry.ifindex pkt entry.nextHop).map (.send entry.ifindex entry.nextHop ·)

/-- `IPForward.recv`. The bytes at `payload` are as many as the header says. A local packet is shown
to the handlers, which can write to its payload; `next_hop` is not set there. -/
def recv (e : Engine size) (events : ForwardingEvents) (ifindex : UInt8) (hdr : Ip6Hdr)
    (payload : List UInt8) : List Output :=
  if e.addr.isLocalAddress hdr.dst then
    let data := events.approve ifindex ⟨ifindex.toNat, hdr, [payload]⟩ (Vector.replicate 16 0)
    [.recv hdr (data.elim payload List.flatten)]
  else
    let headerOff := (IPPacket.findHeader [payload] hdr.nxt ipv6Routing).1
    if hdr.hlim = 0 then []
    else if headerOff.isSome then []
    else
      match e.route hdr.dst with
      | none => []
      | some entry =>
        match events.approve entry.ifindex ⟨ifindex.toNat, hdr, [payload]⟩ entry.nextHop with
        | none => []
        | some data => [.send entry.ifindex entry.nextHop ⟨ifindex.toNat, hdr, data⟩]

/-- A node forwards a packet: it is not for the node, its hop limit is not 0, it has no routing
header, there is a route and the handlers approve. -/
structure Forwards (e : Engine size) (events : ForwardingEvents) (ifindex : UInt8) (hdr : Ip6Hdr)
    (payload : List UInt8) : Prop where
  remote : e.addr.isLocalAddress hdr.dst = false
  hlim : hdr.hlim ≠ 0
  noRouting : (IPPacket.findHeader [payload] hdr.nxt ipv6Routing).1 = none
  route : ∃ entry, e.route hdr.dst = some entry ∧
    (events.approve entry.ifindex ⟨ifindex.toNat, hdr, [payload]⟩ entry.nextHop).isSome

variable {e : Engine size} {events : ForwardingEvents} {ifindex : UInt8} {hdr : Ip6Hdr}
  {payload : List UInt8}

/-- **A forwarded packet keeps its header.** -/
theorem recv_of_forwards (h : e.Forwards events ifindex hdr payload) : ∃ ifindex' next data,
    e.recv events ifindex hdr payload = [.send ifindex' next ⟨ifindex.toNat, hdr, data⟩] := by
  obtain ⟨entry, hentry, happrove⟩ := h.route
  obtain ⟨data, hdata⟩ := Option.isSome_iff_exists.1 happrove
  refine ⟨entry.ifindex, entry.nextHop, data, ?_⟩
  rw [recv, if_neg (by rw [h.remote]; exact Bool.false_ne_true)]
  dsimp only
  rw [if_neg h.hlim, h.noRouting, if_neg (by exact Bool.false_ne_true), hentry]
  dsimp only
  rw [hdata]

/-- A node that does not forward a packet delivers it or drops it. -/
theorem recv_of_not_forwards (h : ¬e.Forwards events ifindex hdr payload) :
    e.recv events ifindex hdr payload = [] ∨
      ∃ data, e.recv events ifindex hdr payload = [.recv hdr data] := by
  by_cases hlocal : e.addr.isLocalAddress hdr.dst = true
  · exact .inr ⟨_, if_pos hlocal⟩
  left
  rw [recv, if_neg hlocal]
  dsimp only
  split
  · rfl
  rename_i hlim
  split
  · rfl
  rename_i hrouting
  split
  · rfl
  rename_i entry hentry
  split
  · rfl
  rename_i data hdata
  exact absurd ⟨Bool.eq_false_iff.2 hlocal, hlim, Option.not_isSome_iff_eq_none.1 hrouting,
    entry, hentry, Option.isSome_of_eq_some hdata⟩ h

end Engine

/-! ## `IPProtocolsP` -/

namespace IPProtocols

/-- `IP.send`. The version is written over the first byte of the header. -/
def send {size : Nat} (e : Engine size) (events : ForwardingEvents) (pkt : Ip6Packet) :
    Option Output :=
  e.send events
    { pkt with hdr := { pkt.hdr with flow := pkt.hdr.flow &&& 0xffffff ||| 0x60000000, hlim := 16 } }

/-- `SubIP.recv`: the protocol that is signalled, and what it gets. The word behind a fragment
header's first two bytes is read past the end as zero. -/
def recv (hdr : Ip6Hdr) (payload : List UInt8) : Option (UInt8 × List UInt8) :=
  let fragOff := (IPPacket.findHeader [payload] hdr.nxt ipv6Frag).1
  if fragOff.any fun off => payload.getD (off + 2) 0 ≠ 0 ∨ payload.getD (off + 3) 0 ≠ 0 then none
  else
    match IPPacket.findHeader [payload] hdr.nxt ip6pktTransport with
    | (none, _) => none
    | (some off, nxt) => some (nxt, payload.drop off)

end IPProtocols

end Blip

namespace Blip

open Lowpan (Ieee154Addr FrameAddr)

namespace IPAddress

/-- `IPAddress.getLLAddr`. -/
def getLLAddr (self : IPAddress) : In6Addr :=
  if self.shortAddr then
    #v[0xfe, 0x80, 0, 0, 0, 0, 0, 0,
      (self.panId >>> 8).toUInt8 &&& ~~~0x2, self.panId.toUInt8, 0x00, 0xff, 0xfe, 0x00,
      (self.saddr >>> 8).toUInt8, self.saddr.toUInt8]
  else
    #v[0xfe, 0x80, 0, 0, 0, 0, 0, 0,
      self.laddr[7] ^^^ 0x2, self.laddr[6], self.laddr[5], self.laddr[4],
      self.laddr[3], self.laddr[2], self.laddr[1], self.laddr[0]]

/-- `IPAddress.setSource`: the source that a packet for `dst` gets. -/
def setSource (self : IPAddress) (dst : In6Addr) : In6Addr :=
  let linkLocal :=
    if dst[0] = 0xff then dst[1] &&& 0x0f ≤ 0x2
    else if dst[0] = 0xfe then dst[1] &&& 0xf0 ≤ 0x80
    else False
  if linkLocal then self.getLLAddr else self.addr

/-! ## `IPNeighborDiscoveryP` -/

/-- `i_saddr` is set: the bytes behind it are left. -/
def setSaddr (link : Ieee154Addr) (hi lo : UInt8) : Ieee154Addr :=
  ⟨.short, (link.data.set 0 lo).set 1 hi⟩

/-- `NeighborDiscovery.resolveAddress` (`none`: `FAIL`, with `link` as it was). -/
def resolveAddress (self : IPAddress) (a : In6Addr) (link : Ieee154Addr) : Option Ieee154Addr :=
  if In6Addr.word a 0 = 0xfe80 then
    if In6Addr.word a 5 = 0x00ff ∧ In6Addr.word a 6 = 0xfe00 then
      if In6Addr.word a 4 = self.panId &&& ~~~0x200 then some (setSaddr link a[14] a[15])
      else none
    else some ⟨.ext, #v[a[15], a[14], a[13], a[12], a[11], a[10], a[9], a[8] ^^^ 0x2]⟩
  else if a[0] = 0xff ∧ a[1] &&& 0x0f = 0x02 then some (setSaddr link 0xff 0xff)
  else none

/-- `IPForward.send` up to `IPLower.send`: the addresses of the frame for a next hop. `fr` is what
stands in the variable before. -/
def frameAddr (self : IPAddress) (next : In6Addr) (fr : FrameAddr) : Option FrameAddr := do
  let src ← self.resolveAddress self.getLLAddr fr.src
  let dst ← self.resolveAddress next fr.dst
  pure { src := src, dst := dst, dstpan := self.panId }

/-! ## The address of the mote -/

/-- The address that the mote has on its link. -/
def linkAddr (self : IPAddress) : Ieee154Addr :=
  if self.shortAddr then
    ⟨.short, #v[self.saddr.toUInt8, (self.saddr >>> 8).toUInt8, 0, 0, 0, 0, 0, 0]⟩
  else ⟨.ext, self.laddr⟩

/-- The middle of the EUI-64 is what stands there when the identifier is that of a short
address. -/
def LooksShort (eui : Vector UInt8 8) : Prop :=
  eui[5] = 0x00 ∧ eui[4] = 0xff ∧ eui[3] = 0xfe ∧ eui[2] = 0x00

/-- The mote's address resolves to the address it has on its link, and is its own. -/
def ResolvesSelf (self : IPAddress) : Prop :=
  (∀ link, ∃ l, self.resolveAddress self.getLLAddr link = some l ∧ l.Same self.linkAddr) ∧
    self.isLocalAddress self.getLLAddr = true

/-- The bytes of a PAN with its U bit unset. -/
theorem ntohs_panId (pan : UInt16) :
    ntohs ((pan >>> 8).toUInt8 &&& ~~~0x2) pan.toUInt8 = pan &&& ~~~0x200 := by
  have hmask : ntohs (~~~0x2) 0xff = ~~~0x200 := by decide
  have hlow : pan.toUInt8 &&& 0xff = pan.toUInt8 := UInt8.and_neg_one
  have h := ntohs_and (pan >>> 8).toUInt8 pan.toUInt8 (~~~0x2) 0xff
  rwa [ntohs_netBytes, hmask, hlow] at h

theorem word_linkLocal : ntohs 0xfe 0x80 = 0xfe80 := by decide

theorem word_shortIid : ntohs 0x00 0xff = 0x00ff ∧ ntohs 0xfe 0x00 = 0xfe00 := by decide

/-- The words of the address made from a short address. -/
theorem word_getLLAddr {self : IPAddress} (h : self.shortAddr = true) :
    In6Addr.word self.getLLAddr 0 = 0xfe80 ∧
      In6Addr.word self.getLLAddr 4 = self.panId &&& ~~~0x200 ∧
      In6Addr.word self.getLLAddr 5 = 0x00ff ∧ In6Addr.word self.getLLAddr 6 = 0xfe00 ∧
      In6Addr.word self.getLLAddr 7 = self.saddr := by
  rw [getLLAddr, if_pos h]
  exact ⟨word_linkLocal, ntohs_panId self.panId, word_shortIid.1, word_shortIid.2,
    ntohs_netBytes self.saddr⟩

theorem getLLAddr_ext {self : IPAddress} (h : self.shortAddr = false) :
    self.getLLAddr = (#v[0xfe, 0x80, 0, 0, 0, 0, 0, 0,
      self.laddr[7] ^^^ 0x2, self.laddr[6], self.laddr[5], self.laddr[4],
      self.laddr[3], self.laddr[2], self.laddr[1], self.laddr[0]] : In6Addr) :=
  if_neg (by simp [h])

theorem word_getLLAddr_ext {self : IPAddress} (h : self.shortAddr = false) :
    In6Addr.word self.getLLAddr 0 = 0xfe80 := by
  rw [getLLAddr_ext h]
  exact word_linkLocal

/-- The address made from an EUI-64 has the pattern of a short address when that has it. -/
theorem looksShort_iff {self : IPAddress} (h : self.shortAddr = false) :
    (In6Addr.word self.getLLAddr 5 = 0x00ff ∧ In6Addr.word self.getLLAddr 6 = 0xfe00) ↔
      LooksShort self.laddr := by
  rw [getLLAddr_ext h, ← word_shortIid.1, ← word_shortIid.2]
  change (ntohs self.laddr[5] self.laddr[4] = _ ∧ ntohs self.laddr[3] self.laddr[2] = _) ↔ _
  rw [ntohs_eq_iff, ntohs_eq_iff, LooksShort, and_assoc]

theorem isLocal_getLLAddr (self : IPAddress) : self.isLocalAddress self.getLLAddr = true := by
  cases h : self.shortAddr with
  | true =>
    obtain ⟨h0, h4, h5, h6, h7⟩ := word_getLLAddr h
    rw [isLocalAddress, if_pos h0, if_pos ⟨h, h5, h6⟩, h4, h7]
    simp
  | false =>
    rw [isLocalAddress, if_pos (word_getLLAddr_ext h), if_neg (by simp [h]), getLLAddr_ext h]
    simp

/-- With a short address, the PAN and the address come back. -/
theorem resolve_short {self : IPAddress} (h : self.shortAddr = true) (link : Ieee154Addr) :
    ∃ l, self.resolveAddress self.getLLAddr link = some l ∧ l.Same self.linkAddr := by
  obtain ⟨h0, h4, h5, h6, -⟩ := word_getLLAddr h
  refine ⟨_, by rw [resolveAddress, if_pos h0, if_pos ⟨h5, h6⟩, if_pos h4], ?_⟩
  rw [linkAddr, if_pos h, getLLAddr, if_pos h]
  exact .short (by simp [Vector.get_eq_getElem]) (by simp [Vector.get_eq_getElem])

/-- With an EUI-64, the eight bytes come back, unless they are taken for a short address. -/
theorem resolve_ext_iff {self : IPAddress} (h : self.shortAddr = false) (link : Ieee154Addr) :
    (∃ l, self.resolveAddress self.getLLAddr link = some l ∧ l.Same self.linkAddr) ↔
      ¬ LooksShort self.laddr := by
  have hlink : self.linkAddr = ⟨.ext, self.laddr⟩ := if_neg (by simp [h])
  rw [resolveAddress, if_pos (word_getLLAddr_ext h), hlink]
  constructor
  · rintro ⟨l, hl, hsame⟩ hlooks
    rw [if_pos ((looksShort_iff h).2 hlooks)] at hl
    -- what comes back is a short address
    cases hsame
    simp [setSaddr] at hl
  · intro hlooks
    refine ⟨_, if_neg (fun hw => hlooks ((looksShort_iff h).1 hw)), ?_⟩
    have hback : #v[self.getLLAddr[15], self.getLLAddr[14], self.getLLAddr[13],
        self.getLLAddr[12], self.getLLAddr[11], self.getLLAddr[10], self.getLLAddr[9],
        self.getLLAddr[8] ^^^ 0x2] = self.laddr := by
      rw [getLLAddr_ext h]
      ext i hi
      interval_cases i <;> simp
    rw [hback]
    exact .ext self.laddr

/-- **The mote's address resolves to its own address on the link** exactly when that is a short
one or an EUI-64 that is not taken for one. -/
theorem resolves_self_iff (self : IPAddress) :
    self.ResolvesSelf ↔ (self.shortAddr = false → ¬ LooksShort self.laddr) := by
  rw [ResolvesSelf, and_iff_left self.isLocal_getLLAddr]
  cases h : self.shortAddr with
  | true => simp [resolve_short h]
  | false =>
    exact ⟨fun hresolves _ => (resolve_ext_iff h ⟨.none, Vector.replicate 8 0⟩).1 (hresolves _),
      fun hlooks link => (resolve_ext_iff h link).2 (hlooks rfl)⟩

/-- An EUI-64 with `ff fe` in the middle. -/
def exampleMote : IPAddress where
  shortAddr := false
  addr := Vector.replicate 16 0
  panId := 0x22
  saddr := 1
  laddr := #v[0x01, 0x00, 0x00, 0xfe, 0xff, 0x00, 0x22, 0x02]

theorem looks_short_unresolved : ¬ exampleMote.ResolvesSelf := by
  rw [ResolvesSelf]
  rintro ⟨hresolves, -⟩
  obtain ⟨l, hl, hsame⟩ := hresolves ⟨.none, Vector.replicate 8 0⟩
  have hshort : exampleMote.resolveAddress exampleMote.getLLAddr ⟨.none, Vector.replicate 8 0⟩ =
      some ⟨.short, #v[0x01, 0x00, 0, 0, 0, 0, 0, 0]⟩ := by decide
  cases hl.symm.trans hshort
  cases hsame

end IPAddress

end Blip
