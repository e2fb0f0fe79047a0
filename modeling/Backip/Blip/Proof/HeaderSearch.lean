import Backip.Blip.ForwardingEngine

/-!
# Where `findHeader` finds a header

`IPPacket.firstHeader` is the header that a search should find: the first of its type in the chain
of extension headers, which ends at the transport header (`IPPacket.transport`). The loop of
`findHeader` does not stop there: it reads on as if what follows were extension headers
(`IPPacket.Names`), and finds a header exactly if the chain has one or such bytes name its type
(`findHeader_iff`). `headersFound_iff` is what comes of that for a packet.
-/

set_option autoImplicit false

namespace IPPacket

/-! ## The chain of headers -/

/-- The types of extension headers. -/
def extensions : List UInt8 := [ipv6Hop, ipv6Routing, ipv6Frag, ipv6Dest, ipv6Mobility]

/-- The header behind an extension header at `off`: its offset and type. -/
def next? (bytes : List UInt8) (off : Nat) : Option (Nat × UInt8) :=
  match bytes[off]?, bytes[off + 1]? with
  | some nxt, some len => some (off + (len.toNat + 1) * 8, nxt)
  | _, _ => none

theorem lt_of_next? {bytes : List UInt8} {off off' : Nat} {nxt : UInt8}
    (h : next? bytes off = some (off', nxt)) : bytes.length - off' < bytes.length - off := by
  unfold next? at h
  split at h
  · rename_i len hoff _
    cases h
    have := (List.getElem?_eq_some_iff.1 hoff).1
    omega
  · cases h

/-- The first header of a type, from a header of type `nxt` at `off` on. -/
def firstHeader (bytes : List UInt8) (type : UInt8) (off : Nat) (nxt : UInt8) : Option Nat :=
  if nxt = type then some off
  else if nxt ∈ extensions then
    match h : next? bytes off with
    | none => none
    | some (off', nxt') => firstHeader bytes type off' nxt'
  else none
termination_by bytes.length - off
decreasing_by exact lt_of_next? h

/-- The transport header: the first that is not an extension header. -/
def transport (bytes : List UInt8) (off : Nat) (nxt : UInt8) : Option (Nat × UInt8) :=
  if nxt ∈ extensions then
    match h : next? bytes off with
    | none => none
    | some (off', nxt') => transport bytes off' nxt'
  else some (off, nxt)
termination_by bytes.length - off
decreasing_by exact lt_of_next? h

/-- The bytes from `off` on, read as extension headers, name a type. -/
inductive Names (bytes : List UInt8) (type : UInt8) : Nat → Prop
  | here {off off' : Nat} (h : next? bytes off = some (off', type)) : Names bytes type off
  | next {off off' : Nat} {nxt : UInt8} (h : next? bytes off = some (off', nxt))
      (hrest : Names bytes type off') : Names bytes type off

theorem transport_ext {bytes : List UInt8} {nxt : UInt8} (off : Nat) (hext : nxt ∈ extensions) :
    transport bytes off nxt =
      (next? bytes off).bind fun next => transport bytes next.1 next.2 := by
  rw [transport, if_pos hext]
  split
  · rename_i hnext
    rw [hnext]
    rfl
  · rename_i hnext
    rw [hnext]
    rfl

theorem firstHeader_ext {bytes : List UInt8} {type nxt : UInt8} (off : Nat) (hne : nxt ≠ type)
    (hext : nxt ∈ extensions) :
    firstHeader bytes type off nxt =
      (next? bytes off).bind fun next => firstHeader bytes type next.1 next.2 := by
  rw [firstHeader, if_neg hne, if_pos hext]
  split
  · rename_i hnext
    rw [hnext]
    rfl
  · rename_i hnext
    rw [hnext]
    rfl

/-- There is no header of a type, but the bytes from the transport header on name it. -/
structure Misread (bytes : List UInt8) (type first : UInt8) : Prop where
  absent : firstHeader bytes type 0 first = none
  named : ∃ off nxt, transport bytes 0 first = some (off, nxt) ∧ Names bytes type off

/-! ## The loop -/

theorem read_two_eq (payload : IpIovec) (off : Nat) :
    (∃ nxt len, payload.read off 2 = [nxt, len] ∧
      next? payload.flatten off = some (off + (len.toNat + 1) * 8, nxt)) ∨
    (∀ nxt len, payload.read off 2 ≠ [nxt, len]) ∧ next? payload.flatten off = none := by
  have hfirst : payload.flatten[off]? = (payload.flatten.drop off)[0]? := by
    rw [List.getElem?_drop, Nat.add_zero]
  have hsecond : payload.flatten[off + 1]? = (payload.flatten.drop off)[1]? := by
    rw [List.getElem?_drop]
  rw [IpIovec.read_eq, next?, hfirst, hsecond]
  match payload.flatten.drop off with
  | [] => exact .inr ⟨fun _ _ h => (by cases h), rfl⟩
  | [_] => exact .inr ⟨fun _ _ h => (by cases h), rfl⟩
  | nxt :: len :: _ => exact .inl ⟨nxt, len, rfl, rfl⟩

/-- A turn of the loop. -/
theorem findHeaderLoop_skip {payload : IpIovec} {search nxt : UInt8} (off : Nat)
    (hskip : skips search nxt = true) :
    findHeaderLoop payload search off nxt =
      (next? payload.flatten off).bind fun next =>
        findHeaderLoop payload search next.1 next.2 := by
  rw [findHeaderLoop, if_pos hskip]
  rcases read_two_eq payload off with ⟨nxt', len, hread, hnext⟩ | ⟨hread, hnext⟩
  · rw [hnext, Option.bind_some]
    split
    · rename_i nxt'' len' hread'
      cases hread.symm.trans hread'
      rfl
    · rename_i hnot
      exact absurd hread (hnot _ _)
  · rw [hnext, Option.bind_none]
    split
    · rename_i nxt' len hread'
      exact absurd hread' (hread _ _)
    · rfl

theorem findHeaderLoop_stop {payload : IpIovec} {search nxt : UInt8} (off : Nat)
    (hskip : skips search nxt = false) :
    findHeaderLoop payload search off nxt = some (off, nxt) := by
  rw [findHeaderLoop, if_neg (by rw [hskip]; exact Bool.false_ne_true)]

theorem skips_transport (nxt : UInt8) :
    skips ip6pktTransport nxt = decide (nxt ∈ extensions) := by
  simp [skips, extensions, Bool.or_assoc, Bool.beq_eq_decide_eq]

theorem skips_of_ne {type nxt : UInt8} (htype : type ∈ extensions) (hne : nxt ≠ type) :
    skips type nxt = true := by
  have htransport : type ≠ ip6pktTransport := by
    rintro rfl
    exact absurd htype (by decide)
  simp [skips, htransport, Ne.symm hne]

theorem skips_self {type : UInt8} (htype : type ∈ extensions) : skips type type = false := by
  have htransport : type ≠ ip6pktTransport := by
    rintro rfl
    exact absurd htype (by decide)
  simp [skips, htransport]

/-- A search for the transport header finds it. -/
theorem findHeaderLoop_transport (payload : IpIovec) (off : Nat) (nxt : UInt8) :
    findHeaderLoop payload ip6pktTransport off nxt = transport payload.flatten off nxt := by
  induction off, nxt using transport.induct payload.flatten with
  | case1 off nxt hext hnext =>
    rw [findHeaderLoop_skip off (by rw [skips_transport, decide_eq_true hext]),
      transport_ext off hext, hnext]
    rfl
  | case2 off nxt hext off' nxt' hnext ih =>
    rw [findHeaderLoop_skip off (by rw [skips_transport, decide_eq_true hext]),
      transport_ext off hext, hnext]
    exact ih
  | case3 off nxt hext =>
    rw [findHeaderLoop_stop off (by rw [skips_transport, decide_eq_false hext]), transport,
      if_neg hext]

/-- A search for an extension header finds the first in the chain, or goes on from the transport
header. -/
theorem findHeaderLoop_chain (payload : IpIovec) {type : UInt8} (htype : type ∈ extensions)
    (off : Nat) (nxt : UInt8) :
    findHeaderLoop payload type off nxt =
      match firstHeader payload.flatten type off nxt with
      | some off' => some (off', type)
      | none => (transport payload.flatten off nxt).bind fun t =>
          findHeaderLoop payload type t.1 t.2 := by
  induction off, nxt using firstHeader.induct payload.flatten type with
  | case1 off =>
    rw [firstHeader, if_pos rfl]
    exact findHeaderLoop_stop off (skips_self htype)
  | case2 off nxt hne hext hnext =>
    rw [findHeaderLoop_skip off (skips_of_ne htype hne), firstHeader_ext off hne hext,
      transport_ext off hext, hnext]
    rfl
  | case3 off nxt hne hext off' nxt' hnext ih =>
    rw [findHeaderLoop_skip off (skips_of_ne htype hne), firstHeader_ext off hne hext,
      transport_ext off hext, hnext]
    exact ih
  | case4 off nxt hne hext =>
    rw [firstHeader, if_neg hne, if_neg hext, transport, if_neg hext]
    rfl

/-- Past the transport header the loop finds what the bytes name. -/
theorem findHeaderLoop_isSome_iff (payload : IpIovec) {type : UInt8} (htype : type ∈ extensions)
    (off : Nat) {nxt : UInt8} (hne : nxt ≠ type) :
    (findHeaderLoop payload type off nxt).isSome ↔ Names payload.flatten type off := by
  constructor
  · intro h
    induction hn : payload.flatten.length - off using Nat.strongRecOn generalizing off nxt with
    | ind n ih =>
      rw [findHeaderLoop_skip off (skips_of_ne htype hne)] at h
      match hnext : next? payload.flatten off with
      | none =>
        rw [hnext] at h
        cases h
      | some (off', nxt') =>
        rw [hnext, Option.bind_some] at h
        by_cases hsame : nxt' = type
        · exact .here (hsame ▸ hnext)
        · exact .next hnext (ih _ (hn ▸ lt_of_next? hnext) off' hsame h rfl)
  · intro h
    induction h generalizing nxt with
    | here hnext =>
      rw [findHeaderLoop_skip _ (skips_of_ne htype hne), hnext]
      exact Option.isSome_of_eq_some (findHeaderLoop_stop _ (skips_self htype))
    | @next off off' nxt' hnext hrest ih =>
      rw [findHeaderLoop_skip _ (skips_of_ne htype hne), hnext, Option.bind_some]
      by_cases hsame : nxt' = type
      · rw [hsame]
        exact Option.isSome_of_eq_some (findHeaderLoop_stop _ (skips_self htype))
      · exact ih hsame

/-- What a search for an extension header finds is of its type. -/
theorem findHeaderLoop_type {payload : IpIovec} {type nxt nxt' : UInt8} {off off' : Nat}
    (htype : type ∈ extensions)
    (h : findHeaderLoop payload type off nxt = some (off', nxt')) : nxt' = type := by
  induction hn : payload.flatten.length - off using Nat.strongRecOn generalizing off nxt with
  | ind n ih =>
    by_cases hsame : nxt = type
    · rw [hsame, findHeaderLoop_stop off (skips_self htype)] at h
      cases h
      rfl
    · rw [findHeaderLoop_skip off (skips_of_ne htype hsame)] at h
      match hnext : next? payload.flatten off with
      | none =>
        rw [hnext] at h
        cases h
      | some (off₁, nxt₁) =>
        rw [hnext, Option.bind_some] at h
        exact ih _ (hn ▸ lt_of_next? hnext) h rfl

theorem transport_not_mem {bytes : List UInt8} {off off' : Nat} {nxt nxt' : UInt8}
    (h : transport bytes off nxt = some (off', nxt')) : nxt' ∉ extensions := by
  induction off, nxt using transport.induct bytes with
  | case1 off nxt hext hnext =>
    rw [transport_ext off hext, hnext] at h
    cases h
  | case2 off nxt hext off₁ nxt₁ hnext ih =>
    rw [transport_ext off hext, hnext] at h
    exact ih h
  | case3 off nxt hext =>
    rw [transport, if_neg hext] at h
    cases h
    exact hext

/-- What `findHeader` returns for an extension header is where its loop ends. -/
theorem findHeader_fst {payload : IpIovec} {type first : UInt8} (htype : type ∈ extensions) :
    (findHeader payload first type).1 = (findHeaderLoop payload type 0 first).map (·.1) := by
  have hnonext : type ≠ ipv6Nonext := by
    rintro rfl
    exact absurd htype (by decide)
  unfold findHeader
  match hloop : findHeaderLoop payload type 0 first with
  | none => rfl
  | some (off, nxt) =>
    obtain rfl := findHeaderLoop_type htype hloop
    exact if_neg hnonext

/-- **`findHeader` finds the first header of a type**, or that there is none, unless the bytes from
the transport header on are misread as headers. -/
theorem findHeader_iff (payload : IpIovec) {type : UInt8} (first : UInt8)
    (htype : type ∈ extensions) :
    (findHeader payload first type).1 = firstHeader payload.flatten type 0 first ↔
      ¬Misread payload.flatten type first := by
  rw [findHeader_fst htype, findHeaderLoop_chain payload htype]
  match hfirst : firstHeader payload.flatten type 0 first with
  | some off =>
    refine ⟨fun _ hmis => ?_, fun _ => rfl⟩
    cases hfirst.symm.trans hmis.absent
  | none =>
    match htransport : transport payload.flatten 0 first with
    | none =>
      refine ⟨fun _ hmis => ?_, fun _ => rfl⟩
      obtain ⟨off, nxt, hsome, -⟩ := hmis.named
      cases htransport.symm.trans hsome
    | some (off, nxt) =>
      have hne : nxt ≠ type := by
        rintro rfl
        exact transport_not_mem htransport htype
      have hnames := findHeaderLoop_isSome_iff payload htype off hne
      simp only [Option.bind_some, Option.map_eq_none_iff]
      rw [← Option.not_isSome_iff_eq_none, hnames]
      refine not_congr ⟨fun h => ⟨hfirst, off, nxt, htransport, h⟩, fun hmis => ?_⟩
      obtain ⟨off', nxt', hsome, hnamed⟩ := hmis.named
      cases htransport.symm.trans hsome
      exact hnamed

end IPPacket

namespace Blip

open IPPacket

/-- What a packet owes to the searches: they find the first header of their type or none; without a
fragment header the transport protocol gets it; without a routing header it is passed on (where it
is for another node, its hop limit is not 0 and there is a route that the handlers approve). -/
structure HeadersFound (hdr : Ip6Hdr) (payload : List UInt8) : Prop where
  found : ∀ type ∈ extensions, ∀ iov : IpIovec, iov.flatten = payload →
    (findHeader iov hdr.nxt type).1 = firstHeader payload type 0 hdr.nxt
  delivered : ∀ off nxt, transport payload 0 hdr.nxt = some (off, nxt) → nxt ≠ ipv6Nonext →
    firstHeader payload ipv6Frag 0 hdr.nxt = none →
    IPProtocols.recv hdr payload = some (nxt, payload.drop off)
  forwarded : firstHeader payload ipv6Routing 0 hdr.nxt = none →
    ∀ (size : Nat) (e : Engine size) (events : ForwardingEvents) (ifindex : UInt8),
      e.addr.isLocalAddress hdr.dst = false → hdr.hlim ≠ 0 →
      (∃ entry, e.route hdr.dst = some entry ∧
        (events.approve entry.ifindex ⟨ifindex.toNat, hdr, [payload]⟩ entry.nextHop).isSome) →
      ∃ ifindex' next data,
        e.recv events ifindex hdr payload = [.send ifindex' next ⟨ifindex.toNat, hdr, data⟩]

theorem flatten_singleton (payload : List UInt8) : [payload].flatten = payload :=
  List.append_nil payload

theorem recv_of_not_misread {hdr : Ip6Hdr} {payload : List UInt8}
    (hfrag : ¬Misread payload ipv6Frag hdr.nxt) {off : Nat} {nxt : UInt8}
    (htransport : transport payload 0 hdr.nxt = some (off, nxt)) (hnxt : nxt ≠ ipv6Nonext)
    (habsent : firstHeader payload ipv6Frag 0 hdr.nxt = none) :
    IPProtocols.recv hdr payload = some (nxt, payload.drop off) := by
  have hnone : (findHeader [payload] hdr.nxt ipv6Frag).1 = none := by
    rw [(findHeader_iff [payload] hdr.nxt (by decide)).2 (by rwa [flatten_singleton]),
      flatten_singleton, habsent]
  have hfound : findHeader [payload] hdr.nxt ip6pktTransport = (some off, nxt) := by
    unfold findHeader
    rw [findHeaderLoop_transport, flatten_singleton, htransport]
    dsimp only
    rw [if_neg hnxt, if_pos rfl]
  unfold IPProtocols.recv
  rw [hnone, hfound]
  rfl

/-- **The searches find what they should in a packet exactly if no bytes from its transport header
on are misread.** -/
theorem headersFound_iff (hdr : Ip6Hdr) (payload : List UInt8) :
    HeadersFound hdr payload ↔ ∀ type ∈ extensions, ¬Misread payload type hdr.nxt := by
  constructor
  · intro h type htype
    have hfound := h.found type htype [payload] (flatten_singleton payload)
    rw [← flatten_singleton payload] at hfound ⊢
    exact (findHeader_iff _ _ htype).1 (by simpa only [flatten_singleton] using hfound)
  · intro h
    refine ⟨?_, ?_, ?_⟩
    · intro type htype iov hiov
      have hmis := h type htype
      rw [← hiov] at hmis ⊢
      exact (findHeader_iff iov _ htype).2 hmis
    · intro off nxt htransport hnxt habsent
      exact recv_of_not_misread (h _ (by decide)) htransport hnxt habsent
    · intro habsent size e events ifindex hremote hhlim hroute
      refine Engine.recv_of_forwards ⟨hremote, hhlim, ?_, hroute⟩
      rw [(findHeader_iff [payload] hdr.nxt (by decide)).2 (by
        rw [flatten_singleton]
        exact h _ (by decide)), flatten_singleton, habsent]

/-- A UDP datagram from the port 0x2c00. -/
def udpHdr : Ip6Hdr where
  flow := 0x60000000
  plen := 12
  nxt := ianaUdp
  hlim := 16
  src := Vector.replicate 16 1
  dst := Vector.replicate 16 2

def udpDatagram : List UInt8 := [0x2c, 0, 0, 7, 0, 12, 0, 0, 1, 2, 3, 4]

/-- **The datagram is taken for a fragment and discarded**: its first byte is the type of the
fragment header. -/
theorem headers_not_found : IPProtocols.recv udpHdr udpDatagram = none ∧
    ¬HeadersFound udpHdr udpDatagram := by
  have hnone : IPProtocols.recv udpHdr udpDatagram = none := by decide +kernel
  refine ⟨hnone, fun h => ?_⟩
  have hrecv := h.delivered 0 ianaUdp (by decide +kernel) (by decide) (by decide +kernel)
  cases hnone.symm.trans hrecv

end Blip
