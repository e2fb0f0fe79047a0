import Backip.Blip.ForwardingEngine
import Mathlib

/-!
# A network of forwarding engines, and the hop limit

Packets that a node has handed to a link are in flight. Any node may receive them, any number of
times or never: the link layer picks the neighbour, and links lose and repeat packets. Routes and
addresses of the nodes change freely.

`Network.Bounded`: a packet is forwarded by no more nodes than its hop limit allows, and each hands
it on with a smaller one. A packet leaves `IPForward.recv` with the hop limit it came with
(`Engine.recv_of_forwards`), so this is so exactly as long as no packet is forwarded
(`Network.hop_limit_iff`); two nodes that route to each other pass a packet on forever.
-/

set_option autoImplicit false

namespace Blip

/-- A packet in flight, the hop limit it was injected with and how many nodes have forwarded it. -/
structure Flight where
  pkt : Ip6Packet
  limit : Nat
  hops : Nat

/-- The nodes, the packets in flight, and the hop limits that the forwarded packets came in and
went out with. -/
structure Network (size : Nat) where
  nodes : Nat → Engine size
  flights : List Flight
  forwarded : List (UInt8 × UInt8)

namespace Network

variable {size : Nat}

/-- A packet sets out. -/
def launch (s : Network size) (pkt : Ip6Packet) : Network size :=
  { s with flights := s.flights ++ [⟨pkt, pkt.hdr.hlim.toNat, 0⟩] }

/-- A packet in flight is passed on. -/
def pass (s : Network size) (f : Flight) : Output → Network size
  | .recv _ _ => s
  | .send _ _ pkt =>
    { s with
      flights := s.flights ++ [⟨pkt, f.limit, f.hops + 1⟩]
      forwarded := (f.pkt.hdr.hlim, pkt.hdr.hlim) :: s.forwarded }

/-- What happens: a node's routes or addresses change, a node sends a packet, a packet is injected
from outside, a packet in flight arrives at a node. -/
inductive Event
  | route (n : Nat) (e : RoutingTable.Event)
  | address (n : Nat) (addr : IPAddress)
  | send (n : Nat) (events : ForwardingEvents) (pkt : Ip6Packet)
  | inject (pkt : Ip6Packet)
  | arrive (n : Nat) (events : ForwardingEvents) (ifindex : UInt8) (k : Nat)

def setNode (s : Network size) (n : Nat) (e : Engine size) : Network size :=
  { s with nodes := fun i => if i = n then e else s.nodes i }

/-- What a node does with a packet in flight. -/
def received (s : Network size) (n : Nat) (events : ForwardingEvents) (ifindex : UInt8)
    (f : Flight) : List Output :=
  (s.nodes n).recv events ifindex f.pkt.hdr f.pkt.bytes

def step (s : Network size) : Event → Option (Network size)
  | .route n e => some (s.setNode n { s.nodes n with table := (s.nodes n).table.step e })
  | .address n addr => some (s.setNode n { s.nodes n with addr := addr })
  | .send n events pkt =>
    match IPProtocols.send (s.nodes n) events pkt with
    | some (.send _ _ pkt) => some (s.launch pkt)
    | _ => some s
  | .inject pkt => some (s.launch pkt)
  | .arrive n events ifindex k =>
    s.flights[k]?.map fun f => (s.received n events ifindex f).foldl (·.pass f) s

/-- No packet is in flight. -/
def machine (size : Nat) : Machine (Network size) Event where
  init s := s.flights = [] ∧ s.forwarded = []
  step := step

end Network

end Blip

namespace Blip

namespace Network

variable {size : Nat}

/-- Every packet in flight has been forwarded by at most as many nodes as its hop limit says, and
each forwarding has made the hop limit smaller. -/
structure Bounded (s : Network size) : Prop where
  hops : ∀ f ∈ s.flights, f.hops ≤ f.limit
  forwarded : ∀ hlims ∈ s.forwarded, hlims.2 < hlims.1

/-- The node does not forward the packet that arrives. -/
def Event.Stops (s : Network size) : Event → Prop
  | .arrive n events ifindex k => ∀ f, s.flights[k]? = some f →
      ¬(s.nodes n).Forwards events ifindex f.pkt.hdr f.pkt.bytes
  | _ => True

theorem Bounded.launch {s : Network size} (h : s.Bounded) (pkt : Ip6Packet) :
    (s.launch pkt).Bounded := by
  refine ⟨?_, h.forwarded⟩
  intro f hf
  rcases List.mem_append.1 hf with hf | hf
  · exact h.hops f hf
  · obtain rfl := List.mem_singleton.1 hf
    exact Nat.zero_le _

/-- A step keeps the bound exactly if it does not forward. -/
theorem Bounded.step_iff {s s' : Network size} {e : Event} (h : s.Bounded)
    (hstep : s.step e = some s') : s'.Bounded ↔ e.Stops s := by
  cases e with
  | route n e =>
    cases hstep
    exact ⟨fun _ => trivial, fun _ => ⟨h.hops, h.forwarded⟩⟩
  | address n addr =>
    cases hstep
    exact ⟨fun _ => trivial, fun _ => ⟨h.hops, h.forwarded⟩⟩
  | send n events pkt =>
    refine ⟨fun _ => trivial, fun _ => ?_⟩
    unfold step at hstep
    dsimp only at hstep
    split at hstep
    · cases hstep
      exact h.launch _
    · cases hstep
      exact h
  | inject pkt =>
    cases hstep
    exact ⟨fun _ => trivial, fun _ => h.launch pkt⟩
  | arrive n events ifindex k =>
    obtain ⟨f, hf, rfl⟩ := Option.map_eq_some_iff.1 hstep
    by_cases hforwards : (s.nodes n).Forwards events ifindex f.pkt.hdr f.pkt.bytes
    · obtain ⟨ifindex', next, data, hrecv⟩ := Engine.recv_of_forwards hforwards
      constructor
      · intro h'
        rw [received, hrecv] at h'
        exact absurd (h'.forwarded _ (.head _)) (UInt8.lt_irrefl _)
      · intro hstops
        exact absurd hforwards (hstops f hf)
    · have hsame : (s.received n events ifindex f).foldl (·.pass f) s = s := by
        rcases Engine.recv_of_not_forwards hforwards with hrecv | ⟨data, hrecv⟩
        · rw [received, hrecv]
          rfl
        · rw [received, hrecv]
          rfl
      rw [hsame]
      refine ⟨fun _ f' hf' => ?_, fun _ => h⟩
      obtain rfl := Option.some.inj (hf.symm.trans hf')
      exact hforwards

/-- **The hop limit bounds the paths of a run exactly if the run forwards nothing.** -/
theorem hop_limit_iff {h : List (Network size × Event)} {s : Network size}
    (hr : (machine size).Run h s) :
    (s.Bounded ∧ ∀ st ∈ h, st.1.Bounded) ↔ ∀ st ∈ h, st.2.Stops st.1 := by
  refine hr.forall_iff (I := fun _ => True) (C := fun s e => Event.Stops s e)
    ⟨fun _ _ => trivial, fun _ _ _ _ _ => trivial⟩ ?_ ?_
  · intro s hs
    refine ⟨?_, ?_⟩
    · rw [hs.1]
      exact fun f hf => absurd hf List.not_mem_nil
    · rw [hs.2]
      exact fun f hf => absurd hf List.not_mem_nil
  · intro s e s' _ hs hstep
    exact hs.step_iff hstep

/-- The address of a node, and the node, with a default route to the other one of two. -/
def exampleAddr (n : Nat) : In6Addr :=
  #v[0x20, 0, 0, 0, 0, 0, 0, 0, 0, 0, 0, 0, 0, 0, 0, .ofNat n]

def exampleNode (n : Nat) : Engine routeTableSz where
  table := (RoutingTable.init routeTableSz).step
    (.addRoute (exampleAddr 0) 0 (some (exampleAddr (1 - n))) routeIface154)
  addr :=
    { shortAddr := false
      addr := exampleAddr n
      panId := 0
      saddr := 0
      laddr := Vector.replicate 8 0 }

def exampleNetwork : Network routeTableSz := ⟨exampleNode, [], []⟩

/-- A packet for a third node, with the hop limit 1. -/
def examplePacket (n : Nat) : Ip6Packet where
  inputif := 1
  hdr :=
    { flow := 0x60000000
      plen := 0
      nxt := ianaUdp
      hlim := 1
      src := exampleAddr 0
      dst := exampleAddr n }
  data := [[]]

/-- A packet that is delivered at once. -/
theorem hop_limit_iff_delivered : ∃ h s,
    (machine routeTableSz).Run h s ∧ h.length = 2 ∧ s.Bounded := by
  have hr := Machine.Run.step (M := machine routeTableSz) (.step (.init (s := exampleNetwork)
    ⟨rfl, rfl⟩) (e := .inject (examplePacket 1)) rfl)
    (e := .arrive 1 (backipEvents 0) 1 0) rfl
  refine ⟨_, _, hr, rfl, ((hop_limit_iff hr).2 ?_).1⟩
  simp only [List.forall_mem_cons, List.not_mem_nil, false_implies, implies_true, and_true]
  refine ⟨?_, trivial⟩
  intro f hf hforwards
  obtain rfl := Option.some.inj hf
  have hremote := hforwards.remote
  exact absurd hremote (by decide)

/-- **Two nodes pass a packet with the hop limit 1 on** three times, and it keeps the limit. -/
theorem hop_limit_exceeded : ∃ h s, (machine routeTableSz).Run h s ∧
    ∃ f ∈ s.flights, f.limit = 1 ∧ f.hops = 3 ∧ f.pkt.hdr.hlim = 1 := by
  obtain ⟨h, s, hr, hp⟩ := Machine.exists_run_of_exec (M := machine routeTableSz)
    (s := exampleNetwork) ⟨rfl, rfl⟩
    [.inject (examplePacket 2), .arrive 0 (backipEvents 0) 1 0, .arrive 1 (backipEvents 0) 1 1,
      .arrive 0 (backipEvents 0) 1 2]
    (fun _ s => s.flights.any fun f => f.limit = 1 && f.hops = 3 && f.pkt.hdr.hlim = 1)
    (by decide +kernel)
  simp only [List.any_eq_true, Bool.and_eq_true, decide_eq_true_iff] at hp
  obtain ⟨f, hf, ⟨hlimit, hhops⟩, hhlim⟩ := hp
  exact ⟨h, s, hr, f, hf, hlimit, hhops, hhlim⟩

end Network

end Blip
