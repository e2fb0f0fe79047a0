import Backip.Lib.ByteMask
import Backip.Lib.CyclicScan
import Backip.System.ArbiterP
import Mathlib.Data.List.Nodup

/-!
# Queues of resource clients (`tos/interfaces/ResourceQueue.nc`, `tos/system/RoundRobinResourceQueueC.nc`)

`FcfsResourceQueueC`, whose commands are in `ArbiterP.lean`, and `RoundRobinResourceQueueC`. Their
commands are atomic sections.

`waiting` is not in the code: the clients that were enqueued with `SUCCESS` and not dequeued since, in
the order in which they were enqueued.

`ResourceQueue.Implements holds`: the commands of a queue do to the lists it `holds` what they should,
which gives `Serves` in every state that is reached (`Implements.serves`). Both queues do
(`fcfs_implements`, `roundRobin_implements`). In `RoundRobinResourceQueueC` a client that was dequeued
comes last in the next scan: while another one waits, who was dequeued since is further ahead of `last`
than that one (`Passed`).
-/

set_option autoImplicit false

/-- The commands on a queue. `dequeue` is given a bound on the turns its loop may take, and has no value
if they are not enough. -/
structure ResourceQueue (σ : Type) where
  isEmpty : σ → Bool
  isEnqueued : σ → UInt8 → Bool
  dequeue : Nat → σ → Option (UInt8 × σ)
  enqueue : σ → UInt8 → TinyError × σ

/-- `NO_ENTRY`. -/
abbrev noEntry : UInt8 := 0xFF

/-- `FcfsResourceQueueC`. -/
def fcfsResourceQueue : ResourceQueue (LinkedQueue UInt8) where
  isEmpty := ArbiterP.isEmpty
  isEnqueued := ArbiterP.isEnqueued
  dequeue _ q := some (ArbiterP.dequeue q)
  enqueue := ArbiterP.enqueue

/-! ## `RoundRobinResourceQueueC` -/

structure RoundRobinQueue (size : Nat) where
  resQ : ByteMask
  last : UInt8

namespace RoundRobinQueue

variable {size : Nat}

/-- After `Init.init`. -/
def init (size : Nat) : RoundRobinQueue size := ⟨fun _ => 0#8, 0⟩

/-- `clearEntry`. -/
def clearEntry (q : RoundRobinQueue size) (id : UInt8) : RoundRobinQueue size :=
  { q with resQ := q.resQ.clear id.toNat }

/-- `RoundRobinQueue.isEmpty`. -/
def isEmpty (q : RoundRobinQueue size) : Bool :=
  (List.range ((size - 1) / 8 + 1)).all fun i => !decide (q.resQ i > 0#8)

/-- `RoundRobinQueue.isEnqueued`. -/
def isEnqueued (q : RoundRobinQueue size) (id : UInt8) : Bool := q.resQ.get id.toNat

/-- What `RoundRobinQueue.dequeue` returns when its loop ends. -/
def take (q : RoundRobinQueue size) : Option Nat → UInt8 × RoundRobinQueue size
  | some i => (.ofNat i, { q.clearEntry (.ofNat i) with last := .ofNat i })
  | none => (noEntry, q)

/-- `RoundRobinQueue.dequeue`. -/
def dequeue (fuel : Nat) (q : RoundRobinQueue size) : Option (UInt8 × RoundRobinQueue size) :=
  let last := q.last.toNat
  (CyclicScan.scan size (fun i => q.isEnqueued (.ofNat i)) last fuel (last + 1)).map q.take

/-- `RoundRobinQueue.enqueue`. -/
def enqueue (q : RoundRobinQueue size) (id : UInt8) : TinyError × RoundRobinQueue size :=
  if !q.isEnqueued id then (.success, { q with resQ := q.resQ.set id.toNat }) else (.ebusy, q)

end RoundRobinQueue

/-- `RoundRobinResourceQueueC`. -/
def roundRobinResourceQueue (size : Nat) : ResourceQueue (RoundRobinQueue size) where
  isEmpty := RoundRobinQueue.isEmpty
  isEnqueued := RoundRobinQueue.isEnqueued
  dequeue := RoundRobinQueue.dequeue
  enqueue := RoundRobinQueue.enqueue

/-! ## Runs -/

namespace ResourceQueue

structure State (σ : Type) where
  impl : σ
  waiting : List UInt8

inductive Event
  | enqueue (id : UInt8)
  | dequeue
deriving DecidableEq, Repr

variable {σ : Type} (Q : ResourceQueue σ) (n : Nat)

/-- One command of `n` clients. -/
def step (s : State σ) : Event → Option (State σ)
  | .enqueue id =>
    if id.toNat < n then
      let r := Q.enqueue s.impl id
      some ⟨r.2, if r.1 = .success then s.waiting ++ [id] else s.waiting⟩
    else none
  | .dequeue => (Q.dequeue n s.impl).map fun r => ⟨r.2, s.waiting.erase r.1⟩

def machine (init : σ) : Machine (State σ) Event where
  init s := s = ⟨init, []⟩
  step := Q.step n

/-- What clients and arbiters rely on. -/
structure Serves (s : State σ) : Prop where
  isEnqueued : ∀ id : UInt8, id.toNat < n → (Q.isEnqueued s.impl id = true ↔ id ∈ s.waiting)
  isEmpty : Q.isEmpty s.impl = true ↔ s.waiting = []
  accepts : ∀ id : UInt8, id.toNat < n → id ∉ s.waiting → (Q.enqueue s.impl id).1 = .success
  busy : ∀ id : UInt8, id.toNat < n → id ∈ s.waiting → Q.enqueue s.impl id = (.ebusy, s.impl)
  dequeue : ∃ r, (∀ fuel, n ≤ fuel → Q.dequeue fuel s.impl = some r) ∧
    (r.1 = noEntry ↔ s.waiting = []) ∧ (s.waiting = [] → r.2 = s.impl) ∧
    (s.waiting ≠ [] → r.1 ∈ s.waiting ∧
      ∀ id : UInt8, id.toNat < n → (Q.isEnqueued r.2 id = true ↔ id ∈ s.waiting ∧ id ≠ r.1))

/-- The step dequeues `id`. -/
def Dequeues (id : UInt8) (p : State σ × Event) : Bool :=
  p.2 = .dequeue && (Q.dequeue n p.1.impl).any fun r => r.1 = id

end ResourceQueue

namespace ResourceQueue

variable {σ : Type} {Q : ResourceQueue σ} {n : Nat} {holds : σ → List UInt8 → Prop}

/-- The queue holds lists of clients, and its commands change them as they should. -/
structure Implements (Q : ResourceQueue σ) (n : Nat) (holds : σ → List UInt8 → Prop) : Prop where
  client : ∀ {q l}, holds q l → ∀ id ∈ l, id.toNat < n
  isEnqueued : ∀ {q l}, holds q l → ∀ id : UInt8, id.toNat < n → (Q.isEnqueued q id = true ↔ id ∈ l)
  isEmpty : ∀ {q l}, holds q l → (Q.isEmpty q = true ↔ l = [])
  enqueue : ∀ {q l} {id : UInt8}, holds q l → id.toNat < n → id ∉ l →
    (Q.enqueue q id).1 = .success ∧ holds (Q.enqueue q id).2 (l ++ [id])
  busy : ∀ {q l} {id : UInt8}, holds q l → id.toNat < n → id ∈ l → Q.enqueue q id = (.ebusy, q)
  dequeue_nil : ∀ {q}, holds q [] → ∀ fuel, n ≤ fuel → Q.dequeue fuel q = some (noEntry, q)
  dequeue : ∀ {q l}, holds q l → l ≠ [] → ∃ id q', (∀ fuel, n ≤ fuel → Q.dequeue fuel q = some (id, q')) ∧
    id ∈ l ∧ holds q' (l.erase id)
  nodup : ∀ {q l}, holds q l → l.Nodup

theorem ne_noEntry (hn : n ≤ 254) {id : UInt8} (h : id.toNat < n) : id ≠ noEntry := by
  rintro rfl
  have hno : noEntry.toNat = 255 := rfl
  omega

namespace Implements

variable (hQ : Implements Q n holds)
include hQ

theorem step {s s' : State σ} {e : Event} (h : holds s.impl s.waiting) (hs : Q.step n s e = some s') :
    holds s'.impl s'.waiting := by
  cases e with
  | enqueue id =>
    obtain ⟨hid, hs⟩ := Option.ite_none_right_eq_some.1 hs
    cases hs
    by_cases hmem : id ∈ s.waiting
    · rw [hQ.busy h hid hmem]
      exact h
    · obtain ⟨hret, hnew⟩ := hQ.enqueue h hid hmem
      rw [if_pos hret]
      exact hnew
  | dequeue =>
    obtain ⟨r, hr, rfl⟩ := Option.map_eq_some_iff.1 hs
    by_cases hnil : s.waiting = []
    · rw [hnil] at h
      cases (hQ.dequeue_nil h n (Nat.le_refl _)).symm.trans hr
      rw [hnil]
      exact h
    · obtain ⟨id, q', hdeq, -, hrest⟩ := hQ.dequeue h hnil
      cases (hdeq n (Nat.le_refl _)).symm.trans hr
      exact hrest

theorem reachable {init : σ} (hinit : holds init []) {s : State σ}
    (h : (Q.machine n init).Reachable s) : holds s.impl s.waiting :=
  h.inv (P := fun s => holds s.impl s.waiting)
    ⟨fun s hi => by rw [show s = _ from hi]; exact hinit, fun _ _ _ h hs => hQ.step h hs⟩

theorem serves {s : State σ} (hn : n ≤ 254) (h : holds s.impl s.waiting) : Serves Q n s where
  isEnqueued := hQ.isEnqueued h
  isEmpty := hQ.isEmpty h
  accepts _ hid hmem := (hQ.enqueue h hid hmem).1
  busy _ := hQ.busy h
  dequeue := by
    by_cases hnil : s.waiting = []
    · exact ⟨(noEntry, s.impl), hQ.dequeue_nil (hnil ▸ h), iff_of_true rfl hnil, fun _ => rfl,
        fun hne => absurd hnil hne⟩
    · obtain ⟨id, q', hdeq, hmem, hrest⟩ := hQ.dequeue h hnil
      refine ⟨(id, q'), hdeq, iff_of_false (fun hno => ?_) hnil, fun hn => absurd hn hnil,
        fun _ => ⟨hmem, fun id' hid' => ?_⟩⟩
      · exact ne_noEntry hn (hQ.client h id hmem) hno
      · rw [hQ.isEnqueued hrest id' hid', (hQ.nodup h).mem_erase_iff, and_comm]

end Implements

/-! ## `FcfsResourceQueueC` -/

/-- The links hold the clients. -/
def FcfsHolds (n : Nat) (q : LinkedQueue UInt8) (l : List UInt8) : Prop :=
  LinkedQueue.Represents ArbiterP.noRes q l ∧ ∀ id ∈ l, id.toNat < n

theorem fcfs_implements (hn : n ≤ 254) : Implements fcfsResourceQueue n (FcfsHolds n) where
  client h := h.2
  nodup h := h.1.nodup
  isEnqueued h id hid := h.1.waiting_iff (ne_noEntry hn hid)
  isEmpty h := decide_eq_true_iff.trans h.1.head_eq_no
  enqueue {q l id} h hid hmem := by
    have hnot : ArbiterP.isEnqueued q id = false :=
      Bool.eq_false_iff.2 (mt (h.1.waiting_iff (ne_noEntry hn hid)).1 hmem)
    have henq : fcfsResourceQueue.enqueue q id = (.success, q.push ArbiterP.noRes id) := by
      change ArbiterP.enqueue q id = _
      rw [ArbiterP.enqueue, hnot]
      rfl
    rw [henq]
    refine ⟨rfl, h.1.push (ne_noEntry hn hid) hmem, fun id' hid' => ?_⟩
    rcases List.mem_append.1 hid' with hid' | hid'
    · exact h.2 id' hid'
    · rw [List.mem_singleton.1 hid']
      exact hid
  busy {q l id} h hid hmem := by
    have hin : ArbiterP.isEnqueued q id = true := (h.1.waiting_iff (ne_noEntry hn hid)).2 hmem
    change ArbiterP.enqueue q id = _
    rw [ArbiterP.enqueue, hin]
    rfl
  dequeue_nil h _ _ := congrArg some h.1.pop_nil
  dequeue {q l} h hne := by
    cases l with
    | nil => exact absurd rfl hne
    | cons id l =>
      obtain ⟨hid, hrest⟩ := h.1.pop_cons
      refine ⟨id, (ArbiterP.dequeue q).2, fun _ _ => ?_, .head _, ?_⟩
      · exact congrArg some (Prod.ext hid rfl)
      · rw [List.erase_cons_head]
        exact ⟨hrest, fun id' hid' => h.2 id' (.tail _ hid')⟩

/-- The client dequeued is the one that was accepted first. -/
theorem fcfs_dequeue {q : LinkedQueue UInt8} {id : UInt8} {l : List UInt8}
    (h : FcfsHolds n q (id :: l)) : (ArbiterP.dequeue q).1 = id := h.1.pop_cons.1

/-! ## `RoundRobinResourceQueueC` -/

/-- The bits are those of the clients. -/
structure RoundRobinHolds (n : Nat) (q : RoundRobinQueue n) (l : List UInt8) : Prop where
  bits : ∀ c, q.resQ.get c = true ↔ ∃ id ∈ l, id.toNat = c
  client : ∀ id ∈ l, id.toNat < n
  nodup : l.Nodup
  last : q.last.toNat < n

namespace RoundRobinHolds

variable {q : RoundRobinQueue n} {l : List UInt8}

theorem isEnqueued (h : RoundRobinHolds n q l) (id : UInt8) : q.isEnqueued id = true ↔ id ∈ l := by
  refine (h.bits id.toNat).trans ⟨?_, fun hmem => ⟨id, hmem, rfl⟩⟩
  rintro ⟨id', hmem, heq⟩
  rwa [← UInt8.toNat_inj.1 heq]

theorem isEmpty (h : RoundRobinHolds n q l) : q.isEmpty = true ↔ l = [] := by
  rw [RoundRobinQueue.isEmpty, List.all_eq_true]
  constructor
  · intro hall
    refine List.eq_nil_iff_forall_not_mem.2 fun id hid => ?_
    have hlt := h.client id hid
    have hzero := hall (id.toNat / 8) (List.mem_range.2 (by omega))
    have hbit := (h.bits id.toNat).2 ⟨id, hid, rfl⟩
    rw [Bool.not_eq_true', decide_eq_false_iff_not, BitVec.not_lt, BitVec.le_zero_iff] at hzero
    rw [ByteMask.get, hzero, BitVec.zero_and] at hbit
    exact absurd hbit (by decide)
  · rintro rfl i -
    have hzero : q.resQ i = 0#8 := by
      refine BitVec.eq_of_getLsbD_eq fun j hj => ?_
      have hbit := mt (h.bits (8 * i + j)).1 nofun
      rw [ByteMask.get_eq, show (8 * i + j) / 8 = i by omega, show (8 * i + j) % 8 = j by omega,
        Bool.not_eq_true] at hbit
      rw [hbit, BitVec.getLsbD_zero]
    rw [hzero]
    rfl

/-- What the loop of `dequeue` finds. -/
theorem dequeue_spec (h : RoundRobinHolds n q l) (hn : n ≤ 254) :
    (l = [] ∧ ∀ fuel, n ≤ fuel → q.dequeue fuel = some (noEntry, q)) ∨
    ∃ id ∈ l, (∀ fuel, n ≤ fuel →
        q.dequeue fuel = some (id, { q.clearEntry id with last := id })) ∧
      ∀ id' ∈ l, CyclicScan.ahead n q.last.toNat id.toNat ≤ CyclicScan.ahead n q.last.toNat id'.toNat := by
  have hof {i : Nat} (hi : i < n) : (UInt8.ofNat i).toNat = i := by
    rw [UInt8.toNat_ofNat', Nat.mod_eq_of_lt (by omega)]
  obtain ⟨r, hscan, hfinds⟩ := CyclicScan.scan_spec (p := fun i => q.isEnqueued (.ofNat i)) h.last
  have hdeq : ∀ fuel, n ≤ fuel → q.dequeue fuel = some (q.take r) := by
    intro fuel hfuel
    rw [RoundRobinQueue.dequeue, CyclicScan.scan_mono hscan hfuel]
    rfl
  cases r with
  | none =>
    refine .inl ⟨List.eq_nil_iff_forall_not_mem.2 fun id hid => ?_, hdeq⟩
    have hno := hfinds id.toNat (h.client id hid)
    dsimp only at hno
    rw [UInt8.ofNat_toNat, (h.isEnqueued id).2 hid] at hno
    cases hno
  | some i =>
    obtain ⟨hi, hp, hmin⟩ := hfinds
    refine .inr ⟨.ofNat i, (h.isEnqueued _).1 hp, hdeq, fun id' hid' => ?_⟩
    rw [hof hi]
    refine hmin id'.toNat (h.client id' hid') ?_
    dsimp only
    rw [UInt8.ofNat_toNat]
    exact (h.isEnqueued id').2 hid'

/-- A client is taken out. -/
theorem erase (h : RoundRobinHolds n q l) {id : UInt8} (hid : id ∈ l) :
    RoundRobinHolds n { q.clearEntry id with last := id } (l.erase id) where
  bits c := by
    change (q.resQ.clear id.toNat).get c = true ↔ _
    rw [ByteMask.get_clear, Bool.and_eq_true, Bool.not_eq_true', decide_eq_false_iff_not, h.bits]
    simp only [h.nodup.mem_erase_iff]
    constructor
    · rintro ⟨hne, id', hmem, rfl⟩
      exact ⟨id', ⟨fun heq => hne (heq ▸ rfl), hmem⟩, rfl⟩
    · rintro ⟨id', ⟨hne, hmem⟩, rfl⟩
      exact ⟨fun heq => hne (UInt8.toNat_inj.1 heq), id', hmem, rfl⟩
  client id' hid' := h.client id' (List.mem_of_mem_erase hid')
  nodup := h.nodup.erase id
  last := h.client id hid

end RoundRobinHolds

theorem roundRobin_init (hpos : 1 ≤ n) : RoundRobinHolds n (.init n) [] where
  bits c := by
    rw [RoundRobinQueue.init, ByteMask.get_zero]
    exact iff_of_false nofun fun ⟨_, hid, _⟩ => by cases hid
  client := nofun
  nodup := .nil
  last := hpos

theorem roundRobin_implements (hn : n ≤ 254) :
    Implements (roundRobinResourceQueue n) n (RoundRobinHolds n) where
  client h := h.client
  nodup h := h.nodup
  isEnqueued h id _ := h.isEnqueued id
  isEmpty h := h.isEmpty
  enqueue {q l id} h hid hmem := by
    have hnot : q.isEnqueued id = false := Bool.eq_false_iff.2 (mt (h.isEnqueued id).1 hmem)
    have henq : (roundRobinResourceQueue n).enqueue q id =
        (.success, { q with resQ := q.resQ.set id.toNat }) := by
      change RoundRobinQueue.enqueue q id = _
      rw [RoundRobinQueue.enqueue, hnot]
      rfl
    rw [henq]
    refine ⟨rfl, fun c => ?_, fun id' hid' => ?_, ?_, h.last⟩
    · rw [ByteMask.get_set, Bool.or_eq_true, decide_eq_true_iff, h.bits]
      simp only [List.mem_append, List.mem_singleton]
      constructor
      · rintro (rfl | ⟨id', hid', rfl⟩)
        · exact ⟨id, .inr rfl, rfl⟩
        · exact ⟨id', .inl hid', rfl⟩
      · rintro ⟨id', hid' | rfl, rfl⟩
        · exact .inr ⟨id', hid', rfl⟩
        · exact .inl rfl
    · rcases List.mem_append.1 hid' with hid' | hid'
      · exact h.client id' hid'
      · rw [List.mem_singleton.1 hid']
        exact hid
    · exact List.nodup_append.2 ⟨h.nodup, List.nodup_singleton _, fun a ha b hb hab =>
        hmem (List.mem_singleton.1 hb ▸ hab ▸ ha)⟩
  busy {q l id} h hid hmem := by
    have hin : q.isEnqueued id = true := (h.isEnqueued id).2 hmem
    change RoundRobinQueue.enqueue q id = _
    rw [RoundRobinQueue.enqueue, hin]
    rfl
  dequeue_nil {q} h := by
    rcases h.dequeue_spec hn with ⟨-, hdeq⟩ | ⟨id, hid, -⟩
    · exact hdeq
    · cases hid
  dequeue {q l} h hne := by
    rcases h.dequeue_spec hn with ⟨hnil, -⟩ | ⟨id, hid, hdeq, -⟩
    · exact absurd hnil hne
    · exact ⟨id, _, hdeq, hid, h.erase hid⟩

/-! ### Fairness -/

variable {s s' : State (RoundRobinQueue n)} {id x : UInt8}

/-- `x` is further ahead than `id`. -/
def Passed (s : State (RoundRobinQueue n)) (id x : UInt8) : Prop :=
  x.toNat < n ∧
    CyclicScan.ahead n s.impl.last.toNat id.toNat < CyclicScan.ahead n s.impl.last.toNat x.toNat

/-- While `id` waits, another client that was dequeued since was so once, and is passed. -/
def Once (h : List (State (RoundRobinQueue n) × Event)) (s : State (RoundRobinQueue n))
    (id x : UInt8) : Prop :=
  h.countP ((roundRobinResourceQueue n).Dequeues n x) = 0 ∨
    h.countP ((roundRobinResourceQueue n).Dequeues n x) = 1 ∧ Passed s id x

theorem Once.le {h : List (State (RoundRobinQueue n) × Event)} (ho : Once h s id x) :
    h.countP ((roundRobinResourceQueue n).Dequeues n x) ≤ 1 := by
  rcases ho with h0 | ⟨h1, -⟩ <;> omega

/-- A step that dequeues another client than `id`. -/
theorem Once.dequeue {h : List (State (RoundRobinQueue n) × Event)} (ho : Once h s id x)
    (hn : n ≤ 254) (hs : RoundRobinHolds n s.impl s.waiting) (hid : id ∈ s.waiting)
    (hstep : (roundRobinResourceQueue n).step n s .dequeue = some s')
    (hnot : (roundRobinResourceQueue n).Dequeues n id (s, .dequeue) = false) (hx : x ≠ id) :
    id ∈ s'.waiting ∧ Once ((s, .dequeue) :: h) s' id x := by
  obtain ⟨hnil, -⟩ | ⟨y, hy, hdeq, hmin⟩ := hs.dequeue_spec hn
  · rw [hnil] at hid
    cases hid
  have hdeq : (roundRobinResourceQueue n).dequeue n s.impl = _ := hdeq n (Nat.le_refl _)
  have hret (z : UInt8) : (roundRobinResourceQueue n).Dequeues n z (s, .dequeue) = decide (y = z) := by
    rw [Dequeues, hdeq]
    rfl
  rw [hret, decide_eq_false_iff_not] at hnot
  obtain ⟨r, hr, rfl⟩ := Option.map_eq_some_iff.1 hstep
  cases hdeq.symm.trans hr
  have hlt_id := hs.client id hid
  have hlt_y := hs.client y hy
  have hbefore : CyclicScan.ahead n s.impl.last.toNat y.toNat <
      CyclicScan.ahead n s.impl.last.toNat id.toNat :=
    Nat.lt_of_le_of_ne (hmin id hid) fun heq =>
      hnot (UInt8.toNat_inj.1 (CyclicScan.ahead_inj hs.last hlt_y hlt_id heq))
  refine ⟨(List.mem_erase_of_ne (Ne.symm hnot)).2 hid, ?_⟩
  rw [Once, List.countP_cons, hret]
  by_cases hyx : y = x
  · subst hyx
    -- it was not dequeued before: then it would be further ahead than `id`
    have hzero : h.countP ((roundRobinResourceQueue n).Dequeues n y) = 0 := by
      refine ho.resolve_right fun hp => ?_
      have hpassed := hp.2.2
      omega
    refine .inr ⟨by simp [hzero], hlt_y, ?_⟩
    have hself : CyclicScan.ahead n y.toNat y.toNat = n - 1 := CyclicScan.ahead_self hlt_y
    have hlt : CyclicScan.ahead n y.toNat id.toNat < n := CyclicScan.ahead_lt hlt_y hlt_id
    have hne : CyclicScan.ahead n y.toNat id.toNat ≠ CyclicScan.ahead n y.toNat y.toNat := fun heq =>
      hnot (UInt8.toNat_inj.1 (CyclicScan.ahead_inj hlt_y hlt_id hlt_y heq)).symm
    dsimp only
    omega
  · rw [decide_eq_false hyx]
    refine ho.imp_right fun ⟨hcount, hlt_x, hpassed⟩ => ⟨hcount, hlt_x, ?_⟩
    have hadv_id := CyclicScan.ahead_advance hs.last hlt_y hlt_id hbefore
    have hadv_x := CyclicScan.ahead_advance hs.last hlt_y hlt_x (Nat.lt_trans hbefore hpassed)
    dsimp only
    omega

theorem once_of_run (hpos : 1 ≤ n) (hn : n ≤ 254)
    {h₁ h₂ : List (State (RoundRobinQueue n) × Event)} {s₀ : State (RoundRobinQueue n)}
    (hr : ((roundRobinResourceQueue n).machine n (.init n)).Run (h₂ ++ (s₀, .enqueue id) :: h₁) s)
    (hacc : ((roundRobinResourceQueue n).enqueue s₀.impl id).1 = .success)
    (hnot : ∀ p ∈ h₂, (roundRobinResourceQueue n).Dequeues n id p = false) (hx : x ≠ id) :
    id ∈ s.waiting ∧ Once h₂ s id x := by
  induction h₂ generalizing s with
  | nil =>
    cases hr with
    | step _ hs =>
      obtain ⟨-, hs⟩ := Option.ite_none_right_eq_some.1 hs
      cases hs
      rw [if_pos hacc]
      exact ⟨List.mem_append_right _ (.head _), .inl rfl⟩
  | cons p h₂ ih =>
    obtain ⟨hp, hrest⟩ := List.forall_mem_cons.1 hnot
    cases hr with
    | @step _ s' _ e hr hs =>
      obtain ⟨hid, ho⟩ := ih hr hrest
      have hholds := (roundRobin_implements hn).reachable (roundRobin_init hpos) ⟨_, hr⟩
      cases e with
      | dequeue => exact ho.dequeue hn hholds hid hs hp hx
      | enqueue id' =>
        obtain ⟨-, hs⟩ := Option.ite_none_right_eq_some.1 hs
        cases hs
        have hlast : ((roundRobinResourceQueue n).enqueue s'.impl id').2.last = s'.impl.last := by
          change (RoundRobinQueue.enqueue s'.impl id').2.last = _
          rw [RoundRobinQueue.enqueue]
          split <;> rfl
        refine ⟨?_, ?_⟩
        · dsimp only
          split
          · exact List.mem_append_left _ hid
          · exact hid
        · rw [Once, List.countP_cons, Passed, hlast]
          exact ho

/-- **Resource queues lose nobody**; one of them serves clients in the order of their requests, the other
serves nobody twice while another one waits. -/
theorem queues_serve (hpos : 1 ≤ n) (hn : n ≤ 254) :
    (∀ s, (fcfsResourceQueue.machine n (.empty noEntry)).Reachable s →
      Serves fcfsResourceQueue n s ∧
        ∀ id rest, s.waiting = id :: rest → (ArbiterP.dequeue s.impl).1 = id) ∧
    (∀ s, ((roundRobinResourceQueue n).machine n (.init n)).Reachable s →
      Serves (roundRobinResourceQueue n) n s) ∧
    ∀ h₁ h₂ s₀ s id, ((roundRobinResourceQueue n).machine n (.init n)).Run
        (h₂ ++ (s₀, .enqueue id) :: h₁) s →
      ((roundRobinResourceQueue n).enqueue s₀.impl id).1 = .success →
      (∀ p ∈ h₂, (roundRobinResourceQueue n).Dequeues n id p = false) →
      ∀ x ≠ id, h₂.countP ((roundRobinResourceQueue n).Dequeues n x) ≤ 1 := by
  refine ⟨fun s h => ?_, fun s h => ?_, fun h₁ h₂ s₀ s id hr hacc hnot x hx => ?_⟩
  · have hholds := (fcfs_implements hn).reachable ⟨LinkedQueue.represents_empty _, nofun⟩ h
    exact ⟨(fcfs_implements hn).serves hn hholds, fun id rest hw => fcfs_dequeue (hw ▸ hholds)⟩
  · exact (roundRobin_implements hn).serves hn
      ((roundRobin_implements hn).reachable (roundRobin_init hpos) h)
  · exact (once_of_run hpos hn hr hacc hnot hx).2.le

/-- Of the clients 0 and 2 of three the second is dequeued first. -/
theorem queues_serve_three : ∃ s, ((roundRobinResourceQueue 3).machine 3 (.init 3)).Reachable s ∧
    s.waiting = [0] ∧ Serves (roundRobinResourceQueue 3) 3 s := by
  obtain ⟨h, s, hr, hs⟩ := Machine.exists_run_of_exec
    (M := (roundRobinResourceQueue 3).machine 3 (.init 3)) rfl [.enqueue 0, .enqueue 2, .dequeue]
    (fun _ s => s.waiting = [0]) (by decide)
  exact ⟨s, ⟨h, hr⟩, of_decide_eq_true hs, (queues_serve (by decide) (by decide)).2.1 s ⟨h, hr⟩⟩

end ResourceQueue
