import Backip.Blip.ForwardingEngine
import Backip.Lib.Machine
import Backip.System.InCksum
import Mathlib

/-!
# UDP (`tos/lib/net/blip/UdpP.nc`, `in_cksum.c`)

A port stands in `local_ports` as it goes into a header. `bind` takes a number and turns it round;
`allocLport` looks for a counter value whose turned form no client has.

* `ports_unique_iff`: `bind` keeps the ports apart. `alloc_lport` gives out the counter, not turned
  and perhaps past the value it looked at; these are the steps that still give out what was found
  free.
* `checksums_agree`: `in_cksum` is the checksum of RFC 1071 of a chain whose words add up in 32 bits,
  and a receiver finds for a datagram what its sender put there, however long it is.
-/

set_option autoImplicit false

namespace Blip

/-- `local_ports` and `last_localport`, for `n` clients. -/
structure UdpP (n : Nat) where
  localPorts : Vector UInt16 n
  lastLocalport : UInt16
deriving DecidableEq, Repr

namespace UdpP

/-- `LOCAL_PORT_START` and `LOCAL_PORT_STOP`. -/
abbrev localPortStart : UInt16 := 51024
abbrev localPortStop : UInt16 := 54999

/-- The number of values that the counter goes round. -/
abbrev localPortCount : Nat := 3976

def nextLocalport (port : UInt16) : UInt16 :=
  if port < localPortStop then port + 1 else localPortStart

/-- After `Init.init`. -/
def init (n : Nat) : UdpP n where
  localPorts := Vector.replicate n 0
  lastLocalport := localPortStart

/-- The loop of `alloc_lport` with `compare`: the counter and `compare` at its end. After as many
turns the counter has come round (`none`: it goes on). -/
def allocLoop {n : Nat} (ports : Vector UInt16 n) : Nat → UInt16 → UInt16 → Option (UInt16 × UInt16)
  | 0, _, _ => none
  | turns + 1, last, compare =>
    if compare ∈ ports then
      let last := nextLocalport last
      allocLoop ports turns last (htons last)
    else some (last, compare)

variable {n : Nat}

/-- `alloc_lport`: the counter, which it also returns, and the port it found free. -/
def allocLport (s : UdpP n) : Option (UInt16 × UInt16) :=
  allocLoop s.localPorts (localPortCount + 1) (nextLocalport s.lastLocalport)
    (htons s.lastLocalport)

/-- `UDP.bind` (`false`: `FAIL`). -/
def bind (s : UdpP n) (clnt : Fin n) (port : UInt16) : Bool × UdpP n :=
  let port := htons port
  if 0 < port ∧ ∃ i : Fin n, i ≠ clnt ∧ s.localPorts[i] = port then (false, s)
  else (true, { s with localPorts := s.localPorts.set clnt port })

/-- The local port in `UDP.sendto` and `UDP.sendtov` (`false`: `FAIL`; `none`: `alloc_lport` does
not return). -/
def takePort (s : UdpP n) (clnt : Fin n) : Option (Bool × UdpP n) :=
  if s.localPorts[clnt] = 0 then
    match s.allocLport with
    | none => none
    | some (port, _) =>
      some (port ≠ 0, { localPorts := s.localPorts.set clnt port, lastLocalport := port })
  else some (true, s)

inductive Event (n : Nat)
  | bind (clnt : Fin n) (port : UInt16)
  | sendto (clnt : Fin n)

/-- The clients call in any order. -/
def machine (n : Nat) : Machine (UdpP n) (Event n) where
  init s := s = init n
  step s e := match e with
    | .bind clnt port => some (s.bind clnt port).2
    | .sendto clnt => (s.takePort clnt).map (·.2)

/-! ## Datagrams -/

/-- `struct udp_hdr` in memory. -/
def hdrBytes (srcport dstport len chksum : UInt16) : List UInt8 :=
  srcport.memBytes ++ dstport.memBytes ++ len.memBytes ++ chksum.memBytes

/-- `UDP.sendtov` with a port taken: the packet given to `IP.send`. `dstport` is `sin6_port`. -/
def datagram (addr : IPAddress) (s : UdpP n) (clnt : Fin n) (dst : In6Addr) (dstport : UInt16)
    (iov : IpIovec) : Ip6Packet :=
  let len := UInt16.ofNat (iov.len + 8)
  let udp := hdrBytes s.localPorts[clnt] dstport (htons len)
  let hdr : Ip6Hdr :=
    { flow := 0x60000000, plen := len, nxt := ianaUdp, hlim := 0, src := addr.setSource dst,
      dst := dst }
  { inputif := 0, hdr := hdr,
    data := udp (htons (msgCksum hdr (udp 0 :: iov) ianaUdp)) :: iov }

/-- `UDP.sendto` (`none`: it does not return). -/
def sendto (addr : IPAddress) (s : UdpP n) (clnt : Fin n) (dst : In6Addr) (dstport : UInt16)
    (payload : List UInt8) : Option (Option Ip6Packet × UdpP n) :=
  (s.takePort clnt).map fun (ok, s') =>
    (if ok then some (datagram addr s' clnt dst dstport [payload]) else none, s')

/-- The first client with a port, as the loop of `IP.recv` finds it. -/
def findPort (s : UdpP n) (port : UInt16) : Option (Fin n) :=
  (List.finRange n).find? fun i => s.localPorts[i] == port

/-- `IP.recv` of a packet that has a UDP header: the client that gets it, the sender's address and
port, and the payload. `delay` is a build with `DELAY`. -/
def recv (s : UdpP n) (delay : Bool) (iph : Ip6Hdr) :
    List UInt8 → Option (Fin n × In6Addr × UInt16 × List UInt8)
  | s0 :: s1 :: d0 :: d1 :: l0 :: l1 :: c0 :: c1 :: payload =>
    match s.findPort (ntohs d1 d0) with
    | none => none
    | some i =>
      let packet := s0 :: s1 :: d0 :: d1 :: l0 :: l1 :: 0 :: 0 :: payload
      if ntohs c0 c1 ≠ msgCksum iph [packet] ianaUdp ∧ ¬ delay then none
      else some (i, iph.src, ntohs s1 s0, payload)
  | _ => none

end UdpP

end Blip

namespace Blip.UdpP

variable {n : Nat} {s s' : UdpP n}

/-! ## The counter -/

/-- The values that `alloc_lport` looks at: the counter's, then those from the second one on. -/
def probe (s : UdpP n) (k : Nat) : UInt16 :=
  if k = 0 then s.lastLocalport else nextLocalport^[k] (nextLocalport s.lastLocalport)

/-- A client has the network-order form of a counter value. -/
def Taken (s : UdpP n) (port : UInt16) : Prop := htons port ∈ s.localPorts

theorem toNat_nextLocalport (port : UInt16) :
    (nextLocalport port).toNat = if port.toNat < 54999 then port.toNat + 1 else 51024 := by
  have hlt : port < localPortStop ↔ port.toNat < 54999 := UInt16.lt_iff_toNat_lt
  rw [nextLocalport]
  by_cases h : port.toNat < 54999
  · rw [if_pos (hlt.2 h), if_pos h, UInt16.toNat_add, show (1 : UInt16).toNat = 1 from rfl]
    omega
  · rw [if_neg (fun hp => h (hlt.1 hp)), if_neg h]
    rfl

/-- The counter goes round. -/
theorem toNat_iterate {port : UInt16} (hlo : 51024 ≤ port.toNat) (hhi : port.toNat ≤ 54999)
    (k : Nat) :
    (nextLocalport^[k] port).toNat = 51024 + (port.toNat - 51024 + k) % localPortCount := by
  have hcount : localPortCount = 3976 := rfl
  induction k generalizing port with
  | zero =>
    rw [Function.iterate_zero, id_eq, hcount]
    omega
  | succ k ih =>
    have hnext := toNat_nextLocalport port
    split at hnext
    all_goals
      rw [Function.iterate_succ_apply, ih (by omega) (by omega), hcount]
      omega

/-- No value is followed by its own turned form. -/
theorem nextLocalport_ne_htons (port : UInt16) : nextLocalport port ≠ htons port := by
  intro h
  have hnat := congrArg UInt16.toNat h
  have hlt := port.toNat_lt
  rw [toNat_htons, toNat_nextLocalport] at hnat
  split at hnat
  all_goals omega

/-! ## `alloc_lport` -/

theorem allocLoop_some {ports : Vector UInt16 n} {turns : Nat} {last compare : UInt16}
    {r : UInt16 × UInt16} (h : allocLoop ports turns last compare = some r) :
    r.2 ∉ ports ∧ ∃ k, r.1 = nextLocalport^[k] last ∧
      r.2 = (if k = 0 then compare else htons (nextLocalport^[k] last)) ∧
      ∀ j < k, (if j = 0 then compare else htons (nextLocalport^[j] last)) ∈ ports := by
  induction turns generalizing last compare with
  | zero => cases h
  | succ turns ih =>
    rw [allocLoop] at h
    split at h
    · rename_i htaken
      obtain ⟨hfree, k, hlast, hcompare, hall⟩ := ih h
      refine ⟨hfree, k + 1, hlast, ?_, ?_⟩
      · rw [hcompare, if_neg (Nat.succ_ne_zero k), Function.iterate_succ_apply]
        split
        · rename_i h0
          rw [h0, Function.iterate_zero, id_eq]
        · rfl
      · intro j hj
        cases j with
        | zero => exact htaken
        | succ j =>
          have hmem := hall j (by omega)
          rw [if_neg (Nat.succ_ne_zero j), Function.iterate_succ_apply]
          split at hmem
          · rename_i h0
            rwa [h0, Function.iterate_zero, id_eq]
          · exact hmem
    · rename_i hfree
      cases h
      exact ⟨hfree, 0, rfl, rfl, fun j hj => absurd hj (Nat.not_lt_zero j)⟩

/-- What `alloc_lport` finds: the first value it looks at that no client has. The counter, which it
gives out, is that value only if it was not the first it looked at. -/
theorem allocLport_some {r : UInt16 × UInt16} (h : s.allocLport = some r) :
    ∃ k, (∀ j < k, s.Taken (s.probe j)) ∧ ¬ s.Taken (s.probe k) ∧ r.2 = htons (s.probe k) ∧
      r.1 = if k = 0 then nextLocalport s.lastLocalport else s.probe k := by
  obtain ⟨hfree, k, hlast, hcompare, hall⟩ := allocLoop_some h
  have hprobe (j : Nat) : (if j = 0 then htons s.lastLocalport
      else htons (nextLocalport^[j] (nextLocalport s.lastLocalport))) = htons (s.probe j) := by
    rw [probe, apply_ite htons]
  rw [hprobe] at hcompare
  refine ⟨k, fun j hj => ?_, ?_, hcompare, ?_⟩
  · have hmem := hall j hj
    rwa [hprobe] at hmem
  · rw [Taken, ← hcompare]
    exact hfree
  · rw [hlast, probe]
    split
    · rename_i h0
      rw [h0, Function.iterate_zero, id_eq]
    · rfl

/-! ## It returns -/

theorem allocLoop_none {ports : Vector UInt16 n} {turns : Nat} {last compare : UInt16}
    (h : allocLoop ports turns last compare = none) {j : Nat} (hpos : 0 < j) (hj : j < turns) :
    htons (nextLocalport^[j] last) ∈ ports := by
  induction turns generalizing last compare j with
  | zero => exact absurd hj (Nat.not_lt_zero j)
  | succ turns ih =>
    rw [allocLoop] at h
    split at h
    · obtain ⟨j, rfl⟩ := Nat.exists_eq_succ_of_ne_zero (Nat.pos_iff_ne_zero.1 hpos)
      rw [Function.iterate_succ_apply]
      cases j with
      | zero =>
        -- the value compared with on the next turn
        cases turns with
        | zero => omega
        | succ turns =>
          dsimp only at h
          rw [allocLoop] at h
          split at h
          · rename_i hmem
            exact hmem
          · cases h
      | succ j => exact ih h (Nat.succ_pos j) (by omega)
    · cases h

/-- The counter is one of its values. -/
def InRange (s : UdpP n) : Prop :=
  51024 ≤ s.lastLocalport.toNat ∧ s.lastLocalport.toNat ≤ 54999

theorem InRange.next (h : s.InRange) : 51024 ≤ (nextLocalport s.lastLocalport).toNat ∧
    (nextLocalport s.lastLocalport).toNat ≤ 54999 := by
  obtain ⟨hlo, hhi⟩ := h
  rw [toNat_nextLocalport]
  split
  all_goals omega

/-- With no more clients than a byte can count, some counter value is free. -/
theorem InRange.exists_alloc (h : s.InRange) (hn : n ≤ 256) : ∃ r, s.allocLport = some r := by
  cases halloc : s.allocLport with
  | some r => exact ⟨r, rfl⟩
  | none =>
    exfalso
    obtain ⟨hlo, hhi⟩ := h.next
    let ports := (List.range 257).map fun j =>
      htons (nextLocalport^[j + 1] (nextLocalport s.lastLocalport))
    have hnodup : ports.Nodup := by
      refine List.Nodup.map_on ?_ List.nodup_range
      intro i hi j hj heq
      rw [List.mem_range] at hi hj
      have hnat := congrArg UInt16.toNat (htons_inj heq)
      have hcount : localPortCount = 3976 := rfl
      rw [toNat_iterate hlo hhi, toNat_iterate hlo hhi, hcount] at hnat
      omega
    have hsub : ports ⊆ s.localPorts.toList := by
      intro port hport
      obtain ⟨j, hj, rfl⟩ := List.mem_map.1 hport
      rw [List.mem_range] at hj
      rw [Vector.mem_toList_iff]
      exact allocLoop_none halloc (Nat.succ_pos j) (by
        rw [show localPortCount = 3976 from rfl]
        omega)
    have hlen := (List.subperm_of_subset hnodup hsub).length_le
    rw [List.length_map, List.length_range, Vector.length_toList] at hlen
    omega

/-- What is allocated is a value of the counter. -/
theorem InRange.alloc (h : s.InRange) {r : UInt16 × UInt16} (halloc : s.allocLport = some r) :
    51024 ≤ r.1.toNat ∧ r.1.toNat ≤ 54999 := by
  obtain ⟨-, k, hlast, -⟩ := allocLoop_some halloc
  obtain ⟨hlo, hhi⟩ := h.next
  have hcount : localPortCount = 3976 := rfl
  rw [hlast, toNat_iterate hlo hhi, hcount]
  omega

theorem inRange_inductive (n : Nat) : (machine n).Inductive InRange where
  init := by
    rintro t rfl
    exact ⟨Nat.le_refl _, show (51024 : Nat) ≤ 54999 by omega⟩
  step := by
    intro t e t' h hs
    cases e with
    | bind clnt port =>
      cases hs
      rw [UdpP.bind]
      split
      all_goals exact h
    | sendto clnt =>
      obtain ⟨⟨ok, t''⟩, htake, rfl⟩ := Option.map_eq_some_iff.1 hs
      rw [takePort] at htake
      split at htake
      · cases halloc : t.allocLport with
        | none =>
          rw [halloc] at htake
          cases htake
        | some r =>
          rw [halloc] at htake
          cases htake
          exact h.alloc halloc
      · cases htake
        exact h

/-- **`sendto` gets a port** in every state reached: `alloc_lport` returns, and never zero. -/
theorem exists_takePort {h : List (UdpP n × Event n)} (hr : (machine n).Run h s) (hn : n ≤ 256)
    (clnt : Fin n) : ∃ s', s.takePort clnt = some (true, s') := by
  have hrange := hr.inv (inRange_inductive n)
  rw [takePort]
  split
  · obtain ⟨r, halloc⟩ := hrange.exists_alloc hn
    have hpos : r.1 ≠ 0 := by
      intro hzero
      have hlo := (hrange.alloc halloc).1
      rw [hzero] at hlo
      exact absurd hlo (by decide)
    rw [halloc]
    dsimp only
    rw [decide_eq_true hpos]
    exact ⟨_, rfl⟩
  · exact ⟨_, rfl⟩

theorem exists_takePort_two : ∃ s', (init 2).takePort 0 = some (true, s') :=
  exists_takePort (.init rfl) (by decide) 0

/-! ## What the ports are for -/

/-- The ports of different clients differ. -/
def Distinct (s : UdpP n) : Prop :=
  ∀ i j : Fin n, i ≠ j → s.localPorts[i] ≠ 0 → s.localPorts[i] ≠ s.localPorts[j]

/-- A port that `sendto` allocates is the one that was found free. -/
def AllocatesFree (s : UdpP n) : Event n → Prop
  | .bind .. => True
  | .sendto clnt => s.localPorts[clnt] = 0 →
    ∀ port compare, s.allocLport = some (port, compare) → port = compare

/-- The counter's value is taken, and the first value looked at that is not taken is the same in
both byte orders. -/
def FindsSymmetric (s : UdpP n) : Prop :=
  ∃ k, 0 < k ∧ (∀ j < k, s.Taken (s.probe j)) ∧ ¬ s.Taken (s.probe k) ∧
    htons (s.probe k) = s.probe k

/-- Nothing is allocated, or a port that is the same in both byte orders. -/
def Careful (s : UdpP n) : Event n → Prop
  | .bind .. => True
  | .sendto clnt => s.localPorts[clnt] = 0 → s.FindsSymmetric

theorem symmetric_of_eq {port compare : UInt16} (h : s.allocLport = some (port, compare)) :
    port = compare ↔ s.FindsSymmetric := by
  obtain ⟨k, htaken, hfree, hcompare, hport⟩ := allocLport_some h
  dsimp only at hcompare hport
  constructor
  · intro heq
    rcases Nat.eq_zero_or_pos k with rfl | hk
    · rw [if_pos rfl, heq, hcompare] at hport
      exact absurd hport.symm (nextLocalport_ne_htons s.lastLocalport)
    · rw [if_neg (Nat.pos_iff_ne_zero.1 hk)] at hport
      exact ⟨k, hk, htaken, hfree, by rw [← hcompare, ← heq, hport]⟩
  · rintro ⟨k', hk', htaken', hfree', hsymm⟩
    obtain rfl : k = k' := by
      rcases Nat.lt_trichotomy k k' with hlt | rfl | hlt
      · exact absurd (htaken' k hlt) hfree
      · rfl
      · exact absurd (htaken k' hlt) hfree'
    rw [if_neg (Nat.pos_iff_ne_zero.1 hk')] at hport
    rw [hport, hcompare, hsymm]

theorem init_distinct (n : Nat) : (init n).Distinct := by
  intro i j _ hi
  simp [init] at hi

/-- A port is written that no other client has. -/
theorem Distinct.set (h : s.Distinct) {clnt : Fin n} {port : UInt16}
    (hport : port ≠ 0 → ∀ i : Fin n, i ≠ clnt → s.localPorts[i] ≠ port)
    {last : UInt16} : (UdpP.mk (s.localPorts.set clnt port) last).Distinct := by
  intro i j hij hi
  have hget (k : Fin n) : (s.localPorts.set clnt port)[k] =
      if clnt = k then port else s.localPorts[k] := by
    simp [Vector.getElem_set, Fin.ext_iff]
  dsimp only at hi ⊢
  rw [hget] at hi ⊢
  rw [hget]
  by_cases hci : clnt = i
  · subst hci
    rw [if_pos rfl] at hi ⊢
    rw [if_neg hij]
    exact (hport hi j (Ne.symm hij)).symm
  · rw [if_neg hci] at hi ⊢
    by_cases hcj : clnt = j
    · subst hcj
      rw [if_pos rfl]
      intro heq
      exact hport (heq ▸ hi) i hij heq
    · rw [if_neg hcj]
      exact h i j hij hi

theorem Distinct.bind (h : s.Distinct) (clnt : Fin n) (port : UInt16) :
    (s.bind clnt port).2.Distinct := by
  rw [UdpP.bind]
  split
  · exact h
  · rename_i hfree
    refine h.set fun hne i hi heq => hfree ⟨?_, i, hi, heq⟩
    exact UInt16.pos_iff_ne_zero.2 hne

/-- A port that was found free is no other client's. -/
theorem Distinct.takePort (h : s.Distinct) {clnt : Fin n} {ok : Bool}
    (hc : s.localPorts[clnt] = 0 → s.FindsSymmetric) (ht : s.takePort clnt = some (ok, s')) :
    s'.Distinct := by
  rw [UdpP.takePort] at ht
  split at ht
  · rename_i h0
    cases halloc : s.allocLport with
    | none =>
      rw [halloc] at ht
      cases ht
    | some r =>
      obtain ⟨port, compare⟩ := r
      rw [halloc] at ht
      cases ht
      obtain rfl := (symmetric_of_eq halloc).2 (hc h0)
      have hfree : port ∉ s.localPorts := (allocLoop_some halloc).1
      refine h.set fun _ i _ heq => hfree ?_
      rw [← heq]
      exact Vector.getElem_mem i.isLt
  · cases ht
    exact h

/-- **Ports are unique, and what is allocated was found free**, in every state and step of a run,
exactly when each of its steps allocates nothing or a port that is the same in both byte orders,
not the first it looks at. -/
theorem ports_unique_iff {h : List (UdpP n × Event n)} (hr : (machine n).Run h s) :
    ((s.Distinct ∧ ∀ p ∈ h, p.1.Distinct) ∧ ∀ p ∈ h, p.1.AllocatesFree p.2) ↔
      ∀ p ∈ h, p.1.Careful p.2 := by
  have hinit : ∀ t, (machine n).init t → t.Distinct := by
    rintro t rfl
    exact init_distinct n
  have hstep : ∀ t e t', t.Distinct → t.Careful e → (machine n).step t e = some t' →
      t'.Distinct := by
    intro t e t' hd hc hs
    cases e with
    | bind clnt port =>
      cases hs
      exact hd.bind clnt port
    | sendto clnt =>
      obtain ⟨⟨ok, t''⟩, htake, rfl⟩ := Option.map_eq_some_iff.1 hs
      exact hd.takePort hc htake
  have hfree := hr.forall_steps_iff (R := AllocatesFree) hinit hstep (by
    intro t e t' _ hs
    cases e with
    | bind clnt port => exact Iff.rfl
    | sendto clnt =>
      obtain ⟨⟨ok, t''⟩, htake, -⟩ := Option.map_eq_some_iff.1 hs
      refine imp_congr_right fun h0 => ?_
      rw [UdpP.takePort, if_pos h0] at htake
      cases halloc : t.allocLport with
      | none =>
        rw [halloc] at htake
        cases htake
      | some r =>
        rw [← symmetric_of_eq halloc]
        constructor
        · intro hall
          exact hall _ _ rfl
        · rintro heq port compare hsome
          cases hsome
          exact heq)
  rw [hfree, and_iff_right_iff_imp]
  exact hr.inv_of_steps hinit hstep

/-- Two clients bind and send. -/
theorem ports_unique_bound : ∃ (h : List (UdpP 2 × Event 2)) (s : UdpP 2), (machine 2).Run h s ∧
    h.length = 4 ∧ s.Distinct := by
  obtain ⟨h, s, hr, hp⟩ := Machine.exists_run_of_exec (M := machine 2) rfl
    [.bind 0 7, .bind 1 8, .sendto 0, .sendto 1]
    (fun h _ => h.length == 4 && h.all fun p => match p.2 with
      | .bind .. => true
      | .sendto clnt => p.1.localPorts[clnt] != 0) (by decide)
  rw [Bool.and_eq_true, beq_iff_eq, List.all_eq_true] at hp
  refine ⟨h, s, hr, hp.1, ((ports_unique_iff hr).2 fun p hmem => ?_).1.1⟩
  have hbound := hp.2 p hmem
  obtain ⟨t, e⟩ := p
  cases e with
  | bind clnt port => trivial
  | sendto clnt => exact fun h0 => absurd h0 (by simpa using hbound)

/-- Client 0 binds port 20935, which stands in memory as 51025; that number is allocated to
client 1. -/
theorem port_given_twice : ∃ (h : List (UdpP 2 × Event 2)) (s : UdpP 2), (machine 2).Run h s ∧
    h.length = 2 ∧ s.localPorts[0] = 51025 ∧ s.localPorts[1] = 51025 := by
  obtain ⟨h, s, hr, hp⟩ := Machine.exists_run_of_exec (M := machine 2) rfl
    [.bind 0 20935, .sendto 1]
    (fun h s => h.length = 2 ∧ s.localPorts[0] = 51025 ∧ s.localPorts[1] = 51025)
    (by decide +kernel)
  exact ⟨h, s, hr, of_decide_eq_true hp⟩

end Blip.UdpP

namespace Blip.UdpP

open OnesComplement

variable {n : Nat}

theorem inCksum_congr {vec vec' : IpIovec} (h : EvenChunks vec) (h' : EvenChunks vec')
    (heq : vec.flatten = vec'.flatten) : inCksum vec = inCksum vec' := by
  rw [inCksum, inCksum, cksumSum, cksumSum, foldl_cksumChunk h, foldl_cksumChunk h', heq]

/-- The checksum of a message does not depend on where an even header ends. -/
theorem msgCksum_cons (iph : Ip6Hdr) {l : List UInt8} (heven : l.length % 2 = 0)
    (payload : List UInt8) (nxt : UInt8) :
    msgCksum iph [l, payload] nxt = msgCksum iph [l ++ payload] nxt := by
  have hlen : IpIovec.len [l, payload] = IpIovec.len [l ++ payload] := by
    rw [IpIovec.len_eq, IpIovec.len_eq]
    simp
  rw [msgCksum, msgCksum, hlen]
  refine inCksum_congr ?_ ?_ (by simp)
  all_goals simp [EvenChunks, heven]

theorem findPort_some {s : UdpP n} {port : UInt16} (h : ∃ j : Fin n, s.localPorts[j] = port) :
    ∃ i : Fin n, s.findPort port = some i ∧ s.localPorts[i] = port ∧
      ∀ j : Fin n, s.localPorts[j] = port → i ≤ j := by
  obtain ⟨j, hj⟩ := h
  cases hfind : s.findPort port with
  | none =>
    have hnone := List.find?_eq_none.1 hfind j (List.mem_finRange j)
    exact absurd (beq_iff_eq.2 hj) hnone
  | some i =>
    obtain ⟨hi, as, bs, hcut, has⟩ := List.find?_eq_some_iff_append.1 hfind
    refine ⟨i, rfl, beq_iff_eq.1 hi, fun k hk => ?_⟩
    have hsorted : (as ++ i :: bs).Pairwise (· < ·) := hcut ▸ List.pairwise_lt_finRange n
    have hk' : k ∈ as ++ i :: bs := hcut ▸ List.mem_finRange k
    rcases List.mem_append.1 hk' with hmem | hmem
    · simpa [hk] using has k hmem
    · rcases List.mem_cons.1 hmem with rfl | hmem
      · exact Nat.le_refl _
      · exact Nat.le_of_lt ((List.pairwise_cons.1 (List.pairwise_append.1 hsorted).2.1).1 k hmem)

/-- **A datagram is received** by the first client with its destination port. -/
theorem recv_datagram {m : Nat} (addr : IPAddress) (s : UdpP n) (clnt : Fin n) (dst : In6Addr)
    {dstport : UInt16} (payload : List UInt8) (t : UdpP m) (delay : Bool)
    (h : ∃ j : Fin m, t.localPorts[j] = dstport) :
    ∃ i : Fin m, t.localPorts[i] = dstport ∧ (∀ j : Fin m, t.localPorts[j] = dstport → i ≤ j) ∧
      t.recv delay (datagram addr s clnt dst dstport [payload]).hdr
          (datagram addr s clnt dst dstport [payload]).bytes =
        some (i, addr.setSource dst, s.localPorts[clnt], payload) := by
  obtain ⟨i, hfind, hi, hfirst⟩ := findPort_some h
  refine ⟨i, hi, hfirst, ?_⟩
  have hdstport : ntohs (dstport >>> 8).toUInt8 dstport.toUInt8 = dstport := ntohs_netBytes dstport
  have hbytes : (datagram addr s clnt dst dstport [payload]).bytes =
      hdrBytes s.localPorts[clnt] dstport (htons (.ofNat (payload.length + 8)))
        (htons (msgCksum (datagram addr s clnt dst dstport [payload]).hdr
          [hdrBytes s.localPorts[clnt] dstport (htons (.ofNat (payload.length + 8))) 0, payload]
          ianaUdp)) ++ payload := by
    simp [Ip6Packet.bytes, datagram, IpIovec.len]
  rw [hbytes, msgCksum_cons _ (by simp [hdrBytes, UInt16.memBytes])]
  generalize hhdr : (datagram addr s clnt dst dstport [payload]).hdr = hdr
  have hsrc : hdr.src = addr.setSource dst := hhdr ▸ rfl
  generalize hck : msgCksum hdr _ ianaUdp = cksum
  rw [hdrBytes, memBytes_htons cksum]
  simp only [UInt16.memBytes, UInt16.netBytes, List.cons_append, List.nil_append, recv, hdstport,
    hfind, ntohs_netBytes, hsrc]
  rw [if_neg]
  rintro ⟨hne, -⟩
  exact hne hck.symm

/-- **Checksums agree.** `in_cksum` of a chain with even chunks, whose words add up to less than
2^32, is the checksum of its bytes; and a datagram made by `sendto` is received, whatever its
length. -/
theorem checksums_agree :
    (∀ vec : IpIovec, EvenChunks vec → (netWords vec.flatten).sum < 2 ^ 32 →
      (inCksum vec).toNat = checksum vec.flatten) ∧
    ∀ (n m : Nat) (addr : IPAddress) (s s' : UdpP n) (clnt : Fin n) (dst : In6Addr)
      (dstport : UInt16) (payload : List UInt8) (pkt : Ip6Packet) (t : UdpP m) (delay : Bool),
      sendto addr s clnt dst dstport payload = some (some pkt, s') →
      (∃ j : Fin m, t.localPorts[j] = dstport) →
      ∃ i : Fin m, t.localPorts[i] = dstport ∧
        (∀ j : Fin m, t.localPorts[j] = dstport → i ≤ j) ∧
        t.recv delay pkt.hdr pkt.bytes =
          some (i, addr.setSource dst, s'.localPorts[clnt], payload) := by
  constructor
  · intro vec heven hsum
    rw [inCksum_eq heven, Nat.mod_eq_of_lt hsum, checksum_eq]
  · intro n m addr s s' clnt dst dstport payload pkt t delay hsend hbound
    rw [sendto, Option.map_eq_some_iff] at hsend
    obtain ⟨⟨ok, s''⟩, -, hpkt⟩ := hsend
    rw [Prod.mk.injEq] at hpkt
    obtain ⟨hpkt, rfl⟩ := hpkt
    cases ok with
    | false => cases hpkt
    | true =>
      rw [if_pos rfl, Option.some.injEq] at hpkt
      rw [← hpkt]
      exact recv_datagram addr s'' clnt dst payload t delay hbound

/-- A chain of three chunks. -/
theorem checksums_agree_chunks : (inCksum [[0x12, 0x34], [], [0x56]]).toNat =
    checksum [0x12, 0x34, 0x56] :=
  checksums_agree.1 [[0x12, 0x34], [], [0x56]] (by simp [EvenChunks]) (by decide)

theorem netWords_replicate (k : Nat) :
    (netWords (List.replicate (2 * k) 0xff)).sum = k * 65535 := by
  induction k with
  | zero => rfl
  | succ k ih =>
    rw [Nat.mul_succ, List.replicate_succ, List.replicate_succ, netWords, List.sum_cons, ih,
      show (0xff : UInt8).toNat = 255 from rfl]
    omega

/-- 131,076 bytes of ones: their sum does not fit. -/
theorem sum_overflows : (inCksum [List.replicate (2 * 65538) 0xff]).toNat = 1 ∧
    checksum (List.replicate (2 * 65538) 0xff) = 0 := by
  have heven : EvenChunks [List.replicate (2 * 65538) 0xff] := ⟨.inl rfl, trivial⟩
  rw [inCksum_eq heven, checksum_eq, List.flatten_singleton, netWords_replicate]
  decide

end Blip.UdpP
