import Backip.Ctp.CtpForwardingEngineP
import Mathlib.Data.List.Nodup
import Mathlib.Data.List.Perm.Subperm

/-!
# CTP: where the buffers and the queue entries are

`Placed hand s`: every queue entry is in its pool, in the queue, or its client's idle slot, and every
message is in its pool, the message of a queue entry, with the radio or the applications, in the
loopback slot, or in `hand`, the messages a handler is working on. Each is there once. The pools and
the queue have never refused anything, and `MessagePool` was only given messages that were forwarded.

Every handler keeps this but for `sendTask`: it takes whatever packet is in the sent cache for a
forwarded one, and as a root it completes a packet that the link may still be sending (`Sound.step`).
-/

set_option autoImplicit false

namespace Ctp

/-- An entry of `QEntryPool`. -/
def QePtr.isPool : QePtr → Bool
  | .pool _ => true
  | _ => false

/-- An entry in the queue and its `client`. -/
def QePtr.Owned (cfg : Config) (client : UInt8) : QePtr → Prop
  | .null => False
  | .pool _ => client = 0xff
  | .client i => i < cfg.clientCount ∧ client = i.toUInt8

/-- No pool and no queue has failed, and `MessagePool` was given the message of a forwarded packet. -/
def Call.Fine : Call → Prop
  | .enqueue ret | .qEntryPut ret => ret = .success
  | .messagePut client ret => client = 0xff ∧ ret = .success
  | _ => True

instance : DecidablePred Call.Fine
  | .enqueue _ | .qEntryPut _ => inferInstanceAs (Decidable (_ = _))
  | .messagePut .. => inferInstanceAs (Decidable (_ ∧ _))
  | .subSend .. | .txNoAck .. | .txAck .. | .recomputeRoutes | .triggerImmediateRouteUpdate
  | .triggerRouteUpdate | .receive .. | .sendDone .. => .isTrue trivial

/-- The entries of `QEntryPool` and of the clients. -/
def poolEntries : List QePtr := (List.range forwardCount).map .pool

def clientEntries (cfg : Config) : List QePtr := (List.range cfg.clientCount).map .client

/-- The messages. -/
def buffers (cfg : Config) : List MsgPtr :=
  (List.range forwardCount).map .pool ++ cfg.radio.map .other ++ cfg.app.map .other ++ [.loopback]

namespace Forwarder

variable {cfg : Config} {s : Forwarder cfg} {hand : List MsgPtr}

/-- The queue. -/
def queue (s : Forwarder cfg) : List QePtr := s.sendQueue.toList

/-- The messages that are in no queue entry. -/
def loose (s : Forwarder cfg) : List MsgPtr :=
  s.messagePool.toList ++ s.radio ++ s.app ++ [s.loopbackMsgPtr]

structure Placed (hand : List MsgPtr) (s : Forwarder cfg) : Prop where
  entries : (s.qEntryPool.toList ++ s.queue.filter QePtr.isPool).Perm poolEntries
  nodup : s.queue.Nodup
  owned : ∀ q ∈ s.queue, q.Owned cfg (s.qe q).client
  idle : ∀ i < cfg.clientCount,
    s.clientPtrs i = if .client i ∈ s.queue then .null else .client i
  messages : (hand ++ s.loose ++ s.queue.map s.msgOf).Perm (buffers cfg)
  count : s.messagePool.toList.length + (s.queue.filter QePtr.isPool).length = forwardCount
  calls : ∀ c ∈ s.calls, c.Fine

/-! ## The queue has room -/

theorem Placed.queue_subset (h : Placed hand s) : s.queue ⊆ poolEntries ++ clientEntries cfg := by
  intro q hq
  have ho := h.owned q hq
  cases q with
  | null => exact ho.elim
  | pool i =>
    exact List.mem_append_left _ (h.entries.subset (List.mem_append_right _ (by simp [hq, QePtr.isPool])))
  | client i => exact List.mem_append_right _ (by simpa [clientEntries] using ho.1)

/-- There is room for an entry that is not in the queue. -/
theorem Placed.room (h : Placed hand s) {q : QePtr} (hq : q ∉ s.queue)
    (hall : q ∈ poolEntries ++ clientEntries cfg) :
    s.sendQueue.toList.length < cfg.clientCount + forwardCount := by
  have hnd : (q :: s.queue).Nodup := List.nodup_cons.2 ⟨hq, h.nodup⟩
  have hle := (List.subperm_of_subset hnd (List.cons_subset.2 ⟨hall, h.queue_subset⟩)).length_le
  simp only [List.length_cons, List.length_append, poolEntries, clientEntries, List.length_map,
    List.length_range] at hle
  have : s.queue.length = s.sendQueue.toList.length := rfl
  omega

theorem poolEntries_nodup : poolEntries.Nodup :=
  List.nodup_range.map fun _ _ h => QePtr.pool.inj h

theorem Placed.not_mem_of_free (h : Placed hand s) {i : Nat} {free : List QePtr}
    (hf : s.qEntryPool.toList = .pool i :: free) : .pool i ∉ s.queue := by
  have hnd : (s.qEntryPool.toList ++ s.queue.filter QePtr.isPool).Nodup :=
    h.entries.nodup_iff.2 poolEntries_nodup
  intro hm
  exact (List.nodup_append.1 hnd).2.2 (.pool i) (hf ▸ .head _) _
    (List.mem_filter.2 ⟨hm, rfl⟩) rfl

/-- A free entry is one of the pool's. -/
theorem Placed.free_pool (h : Placed hand s) {q : QePtr} (hq : q ∈ s.qEntryPool.toList) :
    ∃ i, q = .pool i := by
  obtain ⟨i, -, rfl⟩ := List.mem_map.1 (h.entries.subset (List.mem_append_left _ hq))
  exact ⟨i, rfl⟩

theorem Placed.free_length (h : Placed hand s) :
    s.qEntryPool.toList.length = s.messagePool.toList.length := by
  have hlen := h.entries.length_eq
  have hcount := h.count
  simp only [List.length_append, poolEntries, List.length_map, List.length_range] at hlen
  omega

/-! ## Moves -/

/-- The messages in no queue entry change places. -/
theorem Placed.move (h : Placed hand s) {hand' radio app : List MsgPtr} {loop : MsgPtr}
    (hp : (hand ++ s.loose).Perm
      (hand' ++ (s.messagePool.toList ++ radio ++ app ++ [loop]))) :
    Placed hand' { s with radio := radio, app := app, loopbackMsgPtr := loop } :=
  ⟨h.entries, h.nodup, h.owned, h.idle, (hp.symm.append_right _).trans h.messages, h.count, h.calls⟩

theorem Placed.record (h : Placed hand s) {c : Call} (hc : c.Fine) : Placed hand (s.record c) :=
  ⟨h.entries, h.nodup, h.owned, h.idle, h.messages, h.count, List.forall_mem_cons.2 ⟨hc, h.calls⟩⟩

theorem Placed.setMsg (h : Placed hand s) (msg : MsgPtr) (m : Message) :
    Placed hand (s.setMsg msg m) :=
  ⟨h.entries, h.nodup, h.owned, h.idle, h.messages, h.count, h.calls⟩

/-- An entry changes, but for its message and its client. -/
theorem Placed.setQe (h : Placed hand s) (q : QePtr) {e : FeQueueEntry} (hm : e.msg = (s.qe q).msg)
    (hc : e.client = (s.qe q).client) : Placed hand (s.setQe q e) := by
  have hmsg : (s.setQe q e).msgOf = s.msgOf := by
    funext y
    by_cases hy : y = q
    · rw [hy]
      simpa [Forwarder.setQe, msgOf] using hm
    · simp [Forwarder.setQe, msgOf, hy]
  refine ⟨h.entries, h.nodup, ?_, h.idle, ?_, h.count, h.calls⟩
  · intro y hy
    have hcl : ((s.setQe q e).qe y).client = (s.qe y).client := by
      by_cases hyq : y = q
      · rw [hyq]
        simpa [Forwarder.setQe] using hc
      · simp [Forwarder.setQe, hyq]
    rw [hcl]
    exact h.owned y hy
  · rw [hmsg]
    exact h.messages

/-- A buffer is swapped against one of the applications. -/
theorem Placed.swap {msg : MsgPtr} (h : Placed (msg :: hand) s) (back : MsgPtr) :
    Placed ((s.swap msg back).1 :: hand) (s.swap msg back).2 := by
  rw [Forwarder.swap]
  split
  · next hb =>
    refine h.move (List.perm_iff_count.2 fun m => ?_)
    have hc := List.perm_iff_count.1 (List.perm_cons_erase hb) m
    simp only [loose, List.count_append, List.count_cons] at hc ⊢
    omega
  · exact h

/-! ## The head leaves the queue -/

/-- `s'` is `s` with the entry `q` at the head taken off the queue and put nowhere yet. -/
structure Left (q : QePtr) (s s' : Forwarder cfg) : Prop where
  queue : s.queue = q :: s'.queue
  qe : s'.qe = s.qe
  messagePool : s'.messagePool = s.messagePool
  qEntryPool : s'.qEntryPool = s.qEntryPool
  clientPtrs : s'.clientPtrs = s.clientPtrs
  radio : s'.radio = s.radio
  app : s'.app = s.app
  loopback : s'.loopbackMsgPtr = s.loopbackMsgPtr
  calls : ∀ c ∈ s'.calls, c.Fine

theorem left_dequeue {q : QePtr} {rest : List QePtr} (hq : s.queue = q :: rest)
    (hcalls : ∀ c ∈ s.calls, c.Fine) : Left q s s.dequeue :=
  ⟨hq.trans (congrArg _ (QueueC.dequeue_cons hq).2.symm), rfl, rfl, rfl, rfl, rfl, rfl, rfl, hcalls⟩

theorem Left.record {q : QePtr} {s' : Forwarder cfg} (h : Left q s s') {c : Call} (hc : c.Fine) :
    Left q s (s'.record c) :=
  ⟨h.queue, h.qe, h.messagePool, h.qEntryPool, h.clientPtrs, h.radio, h.app, h.loopback,
    List.forall_mem_cons.2 ⟨hc, h.calls⟩⟩

theorem left_retire {q : QePtr} {rest : List QePtr} (hq : s.queue = q :: rest)
    (hcalls : ∀ c ∈ s.calls, c.Fine) (rand16 : UInt16) : Left q s (s.retire rand16) :=
  have h := left_dequeue hq hcalls
  ⟨h.queue, h.qe, h.messagePool, h.qEntryPool, h.clientPtrs, h.radio, h.app, h.loopback, h.calls⟩

theorem first_eq {q : QePtr} {rest : List QePtr} (hq : s.queue = q :: rest) :
    s.sendQueue.first = q :=
  (QueueC.dequeue_cons hq).1

/-- What is left in the queue keeps its place. -/
theorem Placed.tail {q : QePtr} {s' : Forwarder cfg} (h : Placed hand s) (hl : Left q s s') :
    q ∉ s'.queue ∧ s'.queue.Nodup ∧ ∀ y ∈ s'.queue, y.Owned cfg (s'.qe y).client := by
  have hnd := h.nodup
  rw [hl.queue, List.nodup_cons] at hnd
  refine ⟨hnd.1, hnd.2, fun y hy => ?_⟩
  rw [hl.qe]
  exact h.owned y (hl.queue ▸ .tail _ hy)

theorem put_spec (s : Forwarder cfg) (client : UInt8) (msg : MsgPtr) (q : QePtr)
    (hm : s.messagePool.toList.length < forwardCount)
    (hq : s.qEntryPool.toList.length < forwardCount) :
    ((s.putMessage client msg).putQEntry q).messagePool.toList = s.messagePool.toList ++ [msg] ∧
    ((s.putMessage client msg).putQEntry q).qEntryPool.toList = s.qEntryPool.toList ++ [q] ∧
    ((s.putMessage client msg).putQEntry q).calls =
      .qEntryPut .success :: .messagePut client .success :: s.calls := by
  obtain ⟨hm₁, hm₂⟩ := PoolP.put_ok msg hm
  obtain ⟨hq₁, hq₂⟩ := PoolP.put_ok q hq
  refine ⟨hm₂, hq₂, ?_⟩
  rw [putQEntry, putMessage]
  simp only [Forwarder.record, hm₁, hq₁]

/-- An entry of the pool goes back, with its message. -/
theorem Placed.free {i : Nat} {s' : Forwarder cfg} (h : Placed hand s)
    (hl : Left (.pool i) s s') :
    Placed hand ((s'.putMessage 0xff (s.msgOf (.pool i))).putQEntry (.pool i)) := by
  obtain ⟨-, hnd, howned⟩ := h.tail hl
  have hfilter : s.queue.filter QePtr.isPool = .pool i :: s'.queue.filter QePtr.isPool := by
    rw [hl.queue]
    rfl
  have hcount := h.count
  rw [hfilter, List.length_cons] at hcount
  have hlen := h.free_length
  obtain ⟨hm, hq, hcalls⟩ := put_spec s' 0xff (s.msgOf (.pool i)) (.pool i)
    (by rw [hl.messagePool]; omega) (by rw [hl.qEntryPool]; omega)
  have hqueue : ((s'.putMessage 0xff (s.msgOf (.pool i))).putQEntry (.pool i)).queue = s'.queue := rfl
  refine ⟨?_, hnd, howned, ?_, ?_, ?_, ?_⟩
  · rw [hq, hl.qEntryPool, hqueue]
    refine List.Perm.trans ?_ h.entries
    rw [hfilter, List.append_assoc]
    exact .refl _
  · intro j hj
    show s'.clientPtrs j = _
    rw [hl.clientPtrs, h.idle j hj, hl.queue]
    simp [hqueue]
  · have hof : ((s'.putMessage 0xff (s.msgOf (.pool i))).putQEntry (.pool i)).msgOf = s.msgOf := by
      funext y
      exact congrArg (fun f => FeQueueEntry.msg (f y)) hl.qe
    have hloose : ((s'.putMessage 0xff (s.msgOf (.pool i))).putQEntry (.pool i)).loose =
        (s.messagePool.toList ++ [s.msgOf (.pool i)]) ++ s.radio ++ s.app ++ [s.loopbackMsgPtr] := by
      rw [loose, hm, hl.messagePool]
      show _ ++ s'.radio ++ s'.app ++ [s'.loopbackMsgPtr] = _
      rw [hl.radio, hl.app, hl.loopback]
    refine List.Perm.trans (List.perm_iff_count.2 fun m => ?_) h.messages
    rw [hof, hloose, hqueue, hl.queue]
    simp only [loose, List.map_cons, List.count_append, List.count_cons, List.count_nil]
    omega
  · rw [hm, hl.messagePool, hqueue, List.length_append, List.length_singleton]
    omega
  · rw [hcalls]
    exact List.forall_mem_cons.2 ⟨rfl, List.forall_mem_cons.2 ⟨⟨rfl, rfl⟩, hl.calls⟩⟩

/-- An entry of a client goes back to its slot, and its message to the application. -/
theorem Placed.handBack {i : Nat} {s' : Forwarder cfg} (h : Placed hand s)
    (hl : Left (.client i) s s') {c : Call} (hc : c.Fine) :
    Placed hand ({ s' with
      clientPtrs := Function.update s'.clientPtrs i (.client i)
      app := s.msgOf (.client i) :: s'.app }.record c) := by
  obtain ⟨hnot, hnd, howned⟩ := h.tail hl
  have hfilter : s.queue.filter QePtr.isPool = s'.queue.filter QePtr.isPool := by
    rw [hl.queue]
    rfl
  refine ⟨?_, hnd, howned, ?_, ?_, ?_, List.forall_mem_cons.2 ⟨hc, hl.calls⟩⟩
  · show (s'.qEntryPool.toList ++ s'.queue.filter QePtr.isPool).Perm _
    rw [hl.qEntryPool, ← hfilter]
    exact h.entries
  · intro j hj
    show Function.update s'.clientPtrs i (.client i) j = if .client j ∈ s'.queue then _ else _
    by_cases hji : j = i
    · rw [hji, Function.update_self, if_neg hnot]
    · rw [Function.update_of_ne hji, hl.clientPtrs, h.idle j hj, hl.queue]
      simp [hji]
  · refine List.Perm.trans (List.perm_iff_count.2 fun m => ?_) h.messages
    have hof : s'.msgOf = s.msgOf := by
      funext y
      rw [msgOf, hl.qe, msgOf]
    show List.count m (hand ++ (s'.messagePool.toList ++ s'.radio ++
      (s.msgOf (.client i) :: s'.app) ++ [s'.loopbackMsgPtr]) ++ s'.queue.map s'.msgOf) = _
    rw [hof, hl.queue, hl.messagePool, hl.radio, hl.app, hl.loopback]
    simp only [loose, List.map_cons, List.count_append, List.count_cons, List.count_nil]
    omega
  · show s'.messagePool.toList.length + (s'.queue.filter QePtr.isPool).length = _
    rw [hl.messagePool, ← hfilter]
    exact h.count

theorem client_toNat {i : Nat} (hi : i < cfg.clientCount) : i.toUInt8.toNat = i := by
  have := cfg.clientCount_le
  exact Nat.mod_eq_of_lt (by omega)

/-- The head is complete. -/
theorem Placed.packetComplete {q : QePtr} {s' : Forwarder cfg} (h : Placed hand s)
    (hl : Left q s s') (success : Bool) :
    Placed hand (s'.packetComplete q (s.msgOf q) success) := by
  have ho := h.owned q (hl.queue ▸ .head _)
  have hqe : s'.qe q = s.qe q := congrFun hl.qe q
  rw [Forwarder.packetComplete]
  dsimp only
  rw [hqe]
  cases q with
  | null => exact ho.elim
  | pool i =>
    have hcl : (s.qe (.pool i)).client = 0xff := ho
    have := cfg.clientCount_le
    rw [hcl, if_neg (show ¬(0xff : UInt8).toNat < cfg.clientCount from by
      show ¬255 < _
      omega)]
    cases success with
    | true =>
      have hl' : Left (.pool i) s
          { s' with sentCache := s'.sentCache.insert (s'.mem (s.qe (.pool i)).msg) } :=
        ⟨hl.queue, hl.qe, hl.messagePool, hl.qEntryPool, hl.clientPtrs, hl.radio, hl.app,
          hl.loopback, hl.calls⟩
      rw [if_pos rfl]
      exact h.free hl'
    | false =>
      rw [if_neg Bool.false_ne_true]
      exact h.free hl
  | client i =>
    have hcl : (s.qe (.client i)).client = i.toUInt8 := ho.2
    rw [hcl, client_toNat ho.1, if_pos ho.1]
    exact h.handBack hl (c := .sendDone _ _) trivial

theorem Placed.retire {q : QePtr} {rest : List QePtr} (h : Placed hand s) (hq : s.queue = q :: rest)
    (rand16 : UInt16) (success : Bool) :
    Placed hand ((s.retire rand16).packetComplete q (s.msgOf q) success) :=
  h.packetComplete (left_retire hq h.calls rand16) success

/-- `SubSend.sendDone` of the message at the head. -/
theorem Placed.subSendDone {q : QePtr} {rest : List QePtr} (h : Placed hand s)
    (hq : s.queue = q :: rest) (error : TinyError) (rand16 : UInt16) :
    Placed hand (s.subSendDone (s.msgOf q) error rand16) := by
  rw [Forwarder.subSendDone, first_eq hq]
  dsimp only
  split
  · exact ⟨h.entries, h.nodup, h.owned, h.idle, h.messages, h.count, h.calls⟩
  · split
    · have hr := ((h.record (c := .txNoAck (s.qe q).serial (s.mem (s.msgOf q)).dst) trivial).record
        (c := .recomputeRoutes) trivial).setQe q
          (e := { s.qe q with retries := (s.qe q).retries - 1 }) rfl rfl
      split
      · exact ⟨hr.entries, hr.nodup, hr.owned, hr.idle, hr.messages, hr.count, hr.calls⟩
      · have hc := hr.retire hq rand16 false
        have hmsg : (((s.record (.txNoAck (s.qe q).serial (s.mem (s.msgOf q)).dst)).record
            .recomputeRoutes).setQe q { s.qe q with retries := (s.qe q).retries - 1 }).msgOf q =
              s.msgOf q := by
          simp [msgOf, Forwarder.setQe]
        rw [hmsg] at hc
        exact hc
    · exact h.packetComplete ((left_retire hq h.calls rand16).record (c := .txAck _ _) trivial) true

/-! ## The handlers -/

/-- What the link is sending is at the head of the queue, and if it is a forwarded packet, it is not
in the cache. -/
def Link (s : Forwarder cfg) : Prop :=
  ∀ m, s.pending = some m → ∃ q rest, s.queue = q :: rest ∧ s.msgOf q = m ∧
    (q.isPool = true → s.sentCache.lookup (s.mem m) = false)

structure Sound (s : Forwarder cfg) : Prop where
  placed : Placed [] s
  link : s.Link

/-- `sendTask` comes to a packet to send. -/
def Ready (s : Forwarder cfg) (a : Answers) : Bool :=
  !(s.sending || s.sendQueue.empty) && a.etx.isSome && (s.isRoot || a.hasRoute)

/-- What `sendTask` must not find: a client's packet that is in the cache, or, as a root, a packet that
the link is still sending. -/
def Safe (s : Forwarder cfg) : Event → Prop
  | .sendTask a => s.Ready a = true →
    (s.sendQueue.first.isPool = false →
      s.sentCache.lookup (s.mem (s.msgOf s.sendQueue.first)) = false) ∧
    (s.isRoot = true → s.pending = none)
  | _ => True

instance (s : Forwarder cfg) : DecidablePred s.Safe
  | .sendTask _ => inferInstanceAs (Decidable (_ → _ ∧ _))
  | .start | .stop | .startDone _ | .stopDone _ | .routeFound | .setRoot | .unsetRoot | .send ..
  | .retxmitTimerFired | .subSendDone .. | .receive .. | .snoop .. => .isTrue trivial

/-- The ways through `sendTask`. -/
theorem sendTask_cases (s : Forwarder cfg) (a : Answers) :
    s.Ready a = false ∧
      ((s.sending = true ∨ s.queue = []) ∧ s.sendTask a = s ∨ s.sendTask a = s.retryLater) ∨
    s.Ready a = true ∧ ∃ q rest gradient, s.queue = q :: rest ∧ a.etx = some gradient ∧
      (s.sentCache.lookup (s.mem (s.msgOf q)) = true ∧ s.sendTask a = s.suppress q ∨
        s.sentCache.lookup (s.mem (s.msgOf q)) = false ∧ s.isRoot = true ∧
          s.sendTask a = s.loopback q a ∨
        s.sentCache.lookup (s.mem (s.msgOf q)) = false ∧ s.isRoot = false ∧
          s.sendTask a = s.transmit q gradient a) := by
  rw [sendTask, Ready]
  by_cases hidle : (s.sending || s.sendQueue.empty) = true
  · rw [if_pos hidle]
    refine .inl ⟨by simp [hidle], .inl ⟨?_, rfl⟩⟩
    rcases Bool.or_eq_true_iff.1 hidle with hs | he
    · exact .inl hs
    · exact .inr ((QueueC.empty_iff _).1 he)
  · rw [if_neg hidle]
    have hne : s.sendQueue.toList ≠ [] := by
      intro hnil
      simp [(QueueC.empty_iff _).2 hnil] at hidle
    obtain ⟨q, rest, hq⟩ := List.exists_cons_of_ne_nil hne
    cases hetx : a.etx with
    | none => exact .inl ⟨by simp, .inr rfl⟩
    | some gradient =>
      dsimp only
      by_cases hroute : (!s.isRoot && !a.hasRoute) = true
      · rw [if_pos hroute]
        refine .inl ⟨?_, .inr rfl⟩
        simp only [Bool.and_eq_true, Bool.not_eq_true'] at hroute
        simp [hroute]
      · rw [if_neg hroute, first_eq hq]
        have hroute' : (s.isRoot || a.hasRoute) = true := by
          revert hroute
          cases s.isRoot <;> cases a.hasRoute <;> simp
        refine .inr ⟨by simp only [hidle, hroute']; rfl, q, rest, gradient, hq, rfl, ?_⟩
        by_cases hl : s.sentCache.lookup (s.mem (s.msgOf q)) = true
        · exact .inl ⟨hl, if_pos hl⟩
        · rw [if_neg hl]
          have hl' := Bool.eq_false_iff.2 hl
          by_cases hr : s.isRoot = true
          · exact .inr (.inl ⟨hl', hr, if_pos hr⟩)
          · exact .inr (.inr ⟨hl', Bool.eq_false_iff.2 hr, if_neg hr⟩)

/-- A packet that is given up as a duplicate is one that was forwarded. -/
theorem Placed.suppress {i : Nat} {rest : List QePtr} (h : Placed hand s)
    (hq : s.queue = .pool i :: rest) : Placed hand (s.suppress (.pool i)) := by
  have hcl : (s.qe (.pool i)).client = 0xff := h.owned (.pool i) (by simp [hq])
  have hf := h.free (left_dequeue hq h.calls)
  rw [Forwarder.suppress, hcl]
  exact ⟨hf.entries, hf.nodup, hf.owned, hf.idle, hf.messages, hf.count, hf.calls⟩

theorem swap_queue (s : Forwarder cfg) (msg back : MsgPtr) : (s.swap msg back).2.queue = s.queue := by
  rw [swap]
  split <;> rfl

theorem swap_qe (s : Forwarder cfg) (msg back : MsgPtr) : (s.swap msg back).2.qe = s.qe := by
  rw [swap]
  split <;> rfl

theorem Placed.swapLoopback (h : Placed [] s) (back : MsgPtr) :
    Placed [] { (s.swap s.loopbackMsgPtr back).2 with
      loopbackMsgPtr := (s.swap s.loopbackMsgPtr back).1 } := by
  rw [Forwarder.swap]
  split
  · next hb =>
    refine h.move (List.perm_iff_count.2 fun m => ?_)
    have hc := List.perm_iff_count.1 (List.perm_cons_erase hb) m
    simp only [loose, List.count_append, List.count_cons, List.count_nil] at hc ⊢
    omega
  · exact h

/-- A root swaps the loopback message, and completes the packet. -/
theorem Placed.loopback {q : QePtr} {rest : List QePtr} (h : Placed [] s)
    (hq : s.queue = q :: rest) (a : Answers) : Placed [] (s.loopback q a) := by
  have h' := ((h.setMsg s.loopbackMsgPtr (s.mem (s.msgOf q))).record
    (c := .receive (s.qe q).serial (s.mem (s.msgOf q))) trivial).swapLoopback a.back
  have hqueue : Forwarder.queue { (((s.setMsg s.loopbackMsgPtr (s.mem (s.msgOf q))).record
      (.receive (s.qe q).serial (s.mem (s.msgOf q)))).swap s.loopbackMsgPtr a.back).2 with
        loopbackMsgPtr := (((s.setMsg s.loopbackMsgPtr (s.mem (s.msgOf q))).record
          (.receive (s.qe q).serial (s.mem (s.msgOf q)))).swap s.loopbackMsgPtr a.back).1 } =
      q :: rest := (swap_queue _ _ _).trans hq
  exact h'.subSendDone hqueue .success a.rand16

/-- `s'` has its buffers and entries where `s` has them. -/
structure Same (s s' : Forwarder cfg) : Prop where
  sendQueue : s'.sendQueue = s.sendQueue
  qe : s'.qe = s.qe
  messagePool : s'.messagePool = s.messagePool
  qEntryPool : s'.qEntryPool = s.qEntryPool
  clientPtrs : s'.clientPtrs = s.clientPtrs
  radio : s'.radio = s.radio
  app : s'.app = s.app
  loopback : s'.loopbackMsgPtr = s.loopbackMsgPtr

theorem Placed.same {s' : Forwarder cfg} (h : Placed hand s) (hs : Same s s')
    (hcalls : ∀ c ∈ s'.calls, c.Fine) : Placed hand s' := by
  have hqueue : s'.queue = s.queue := congrArg QueueC.toList hs.sendQueue
  have hof : s'.msgOf = s.msgOf := by
    funext y
    rw [msgOf, hs.qe, msgOf]
  have hloose : s'.loose = s.loose := by
    rw [loose, hs.messagePool, hs.radio, hs.app, hs.loopback, loose]
  refine ⟨?_, ?_, ?_, ?_, ?_, ?_, hcalls⟩
  · rw [hs.qEntryPool, hqueue]
    exact h.entries
  · rw [hqueue]
    exact h.nodup
  · rw [hqueue, hs.qe]
    exact h.owned
  · rw [hqueue, hs.clientPtrs]
    exact h.idle
  · rw [hloose, hqueue, hof]
    exact h.messages
  · rw [hs.messagePool, hqueue]
    exact h.count

/-- What the link answers: it accepts the message, the packet is too big, or it refuses it. -/
inductive Outcome (a : Answers) (q : QePtr) (s s' : Forwarder cfg) : Prop
  | accepted : a.subSend = .success → s.pending = none → s'.sending = true →
      s'.pending = some (s.msgOf q) → s'.sendPosted = s.sendPosted → Outcome a q s s'
  | truncated : a.subSend = .esize → s'.sending = s.sending → s'.pending = s.pending →
      s'.sendPosted = true → Outcome a q s s'
  | refused : a.subSend ≠ .esize → (a.subSend = .success → s.pending.isSome = true) →
      s'.sending = s.sending → s'.pending = s.pending → s'.sendPosted = s.sendPosted →
      Outcome a q s s'

/-- What a transmission leaves as it was, and what comes of it. -/
structure Transmitted (a : Answers) (q : QePtr) (s s' : Forwarder cfg) : Prop where
  same : Same s s'
  sentCache : s'.sentCache = s.sentCache
  retxmitTimer : s'.retxmitTimer = s.retxmitTimer
  radioOn : s'.radioOn = s.radioOn
  isRoot : s'.isRoot = s.isRoot
  accepted : s'.accepted = s.accepted
  sig : ∀ m, (s'.mem m).sig = (s.mem m).sig
  calls : ∃ len ret, s'.calls = .subSend (s.qe q).serial a.nextHop len ret :: s.calls
  outcome : Outcome a q s s'

theorem sig_update {mem : MsgPtr → Message} {msg : MsgPtr} {m : Message} (h : m.sig = (mem msg).sig)
    (x : MsgPtr) : (Function.update mem msg m x).sig = (mem x).sig := by
  by_cases hx : x = msg
  · rw [hx, Function.update_self, h]
  · rw [Function.update_of_ne hx]

theorem subSend_pending (s : Forwarder cfg) (q : QePtr) (dst : UInt16) (r : TinyError) :
    (s.subSend q dst r).2.pending =
      if (s.subSend q dst r).1 = .success then some (s.msgOf q) else s.pending := rfl

theorem transmit_spec (s : Forwarder cfg) (q : QePtr) (gradient : UInt16) (a : Answers) :
    Transmitted a q s (s.transmit q gradient a) := by
  let msg := s.msgOf q
  let s₁ : Forwarder cfg := { s.setMsg msg (s.advertise gradient (s.mem msg)) with
    ackPending := s.ackPending || a.requestAck, queueCongested := false }
  have hsig₁ (x : MsgPtr) : (s₁.mem x).sig = (s.mem x).sig :=
    sig_update (m := s.advertise gradient (s.mem msg)) rfl x
  have hsig₂ (x : MsgPtr) : ((s₁.subSend q a.nextHop a.subSend).2.mem x).sig = (s.mem x).sig :=
    (sig_update (m := { s₁.mem msg with dst := a.nextHop }) rfl x).trans (hsig₁ x)
  have hret : (s₁.subSend q a.nextHop a.subSend).1 =
      if s.pending.isSome ∧ a.subSend = .success then .ebusy else a.subSend := rfl
  have hpend := subSend_pending s₁ q a.nextHop a.subSend
  rw [transmit]
  split
  · next hok =>
    change (s₁.subSend q a.nextHop a.subSend).1 = .success at hok
    have hr : a.subSend = .success ∧ s.pending = none := by
      rw [hret] at hok
      split at hok
      · cases hok
      · next hn => exact ⟨hok, by simpa [hok] using hn⟩
    rw [if_pos hok] at hpend
    exact ⟨⟨rfl, rfl, rfl, rfl, rfl, rfl, rfl, rfl⟩, rfl, rfl, rfl, rfl, rfl, hsig₂, ⟨_, _, rfl⟩,
      .accepted hr.1 hr.2 rfl hpend rfl⟩
  · next hsize =>
    change (s₁.subSend q a.nextHop a.subSend).1 = .esize at hsize
    have hr : a.subSend = .esize := by
      rw [hret] at hsize
      split at hsize
      · cases hsize
      · exact hsize
    rw [if_neg (by rw [hsize]; nofun)] at hpend
    exact ⟨⟨rfl, rfl, rfl, rfl, rfl, rfl, rfl, rfl⟩, rfl, rfl, rfl, rfl, rfl,
      fun x => (sig_update (m := { (s₁.subSend q a.nextHop a.subSend).2.mem msg with
        length := maxPayloadLength cfg + dataHeaderSize }) rfl x).trans (hsig₂ x), ⟨_, _, rfl⟩,
      .truncated hr rfl hpend rfl⟩
  · next hok hsize =>
    change (s₁.subSend q a.nextHop a.subSend).1 ≠ .success at hok
    change (s₁.subSend q a.nextHop a.subSend).1 ≠ .esize at hsize
    rw [if_neg hok] at hpend
    refine ⟨⟨rfl, rfl, rfl, rfl, rfl, rfl, rfl, rfl⟩, rfl, rfl, rfl, rfl, rfl, hsig₂, ⟨_, _, rfl⟩,
      .refused ?_ ?_ rfl hpend rfl⟩
    · intro he
      rw [hret, he] at hsize
      exact hsize (if_neg (by simp))
    · intro he
      by_contra hn
      rw [hret, if_neg (by simp [he, hn])] at hok
      exact hok he

theorem Placed.transmit (h : Placed hand s) (q : QePtr) (gradient : UInt16) (a : Answers) :
    Placed hand (s.transmit q gradient a) := by
  have ht := transmit_spec s q gradient a
  obtain ⟨len, ret, hcalls⟩ := ht.calls
  refine h.same ht.same ?_
  rw [hcalls]
  exact List.forall_mem_cons.2 ⟨trivial, h.calls⟩

/-! ### Packets that come in -/

/-- A packet in entry `q` has come to the end of the queue. -/
structure Entered (q : QePtr) (e : FeQueueEntry) (s s' : Forwarder cfg) : Prop where
  queue : s'.queue = s.queue ++ [q]
  qe : s'.qe = Function.update s.qe q e
  radio : s'.radio = s.radio
  app : s'.app = s.app
  loopback : s'.loopbackMsgPtr = s.loopbackMsgPtr
  sentCache : s'.sentCache = s.sentCache
  pending : s'.pending = s.pending
  sending : s'.sending = s.sending
  radioOn : s'.radioOn = s.radioOn
  isRoot : s'.isRoot = s.isRoot

/-- `Send.send` has accepted a packet. -/
structure Accepted (client : Nat) (msg : MsgPtr) (s s' : Forwarder cfg) : Prop extends
    Entered (.client client)
      { msg := msg, client := client.toUInt8, retries := maxRetries, serial := some s.accepted } s s' where
  messagePool : s'.messagePool = s.messagePool
  qEntryPool : s'.qEntryPool = s.qEntryPool
  clientPtrs : s'.clientPtrs = Function.update s.clientPtrs client .null
  mem : ∀ x ≠ msg, s'.mem x = s.mem x
  sendPosted : s'.sendPosted = (s.sendPosted || (s.radioOn && !s.sending))
  retxmitTimer : s'.retxmitTimer = s.retxmitTimer
  accepted : s'.accepted = s.accepted + 1
  calls : s'.calls = .enqueue .success :: s.calls

/-- `Send.send` has refused a packet; that of a busy client has its header filled in. -/
structure Refused (client : Nat) (msg : MsgPtr) (s s' : Forwarder cfg) : Prop where
  same : Same s s'
  sentCache : s'.sentCache = s.sentCache
  pending : s'.pending = s.pending
  sending : s'.sending = s.sending
  radioOn : s'.radioOn = s.radioOn
  isRoot : s'.isRoot = s.isRoot
  sendPosted : s'.sendPosted = s.sendPosted
  retxmitTimer : s'.retxmitTimer = s.retxmitTimer
  accepted : s'.accepted = s.accepted
  calls : s'.calls = s.calls
  mem : ∀ x ≠ msg, s'.mem x = s.mem x

theorem Placed.client_not_mem (h : Placed hand s) {i : Nat} (hi : i < cfg.clientCount)
    (hp : s.clientPtrs i ≠ .null) : s.clientPtrs i = .client i ∧ .client i ∉ s.queue := by
  have := h.idle i hi
  split at this
  · exact absurd this hp
  · next hn => exact ⟨this, hn⟩

theorem Placed.send_cases (h : Placed hand s) {client : Nat} (hi : client < cfg.clientCount)
    (msg : MsgPtr) (len : UInt8) :
    (s.send client msg len).1 ≠ .success ∧ Refused client msg s (s.send client msg len).2 ∨
      s.clientPtrs client ≠ .null ∧ (s.send client msg len).1 = .success ∧
        Accepted client msg s (s.send client msg len).2 := by
  have hsame : Same s s := ⟨rfl, rfl, rfl, rfl, rfl, rfl, rfl, rfl⟩
  have hnone : Refused client msg s s :=
    ⟨hsame, rfl, rfl, rfl, rfl, rfl, rfl, rfl, rfl, rfl, fun _ _ => rfl⟩
  rw [send]
  split
  · exact .inl ⟨nofun, hnone⟩
  · split
    · exact .inl ⟨nofun, hnone⟩
    · dsimp only
      split
      · exact .inl ⟨nofun, ⟨rfl, rfl, rfl, rfl, rfl, rfl, rfl, rfl⟩, rfl, rfl, rfl, rfl, rfl, rfl, rfl,
          rfl, rfl, fun x hx => Function.update_of_ne hx _ _⟩
      · next hp =>
        obtain ⟨hq, hnot⟩ := h.client_not_mem hi hp
        have hroom := h.room hnot (List.mem_append_right _ (by simpa [clientEntries] using hi))
        obtain ⟨hret, hlist⟩ := QueueC.enqueue_ok (.client client) hroom
        have hq' : (s.fillHeader client msg len).clientPtrs client = .client client := hq
        have hret' : (((s.fillHeader client msg len).fillEntry client (.client client) msg).enqueue
            (.client client)).1 = .success := hret
        right
        rw [hq', hret', if_pos rfl]
        refine ⟨hp, ?_, ⟨hlist, ?_, ?_, ?_, ?_, ?_, ?_, ?_, ?_, ?_⟩, ?_, ?_, ?_, ?mem, ?_, ?_, ?_, ?calls⟩
        case mem => exact fun x hx => Function.update_of_ne hx _ _
        case calls => exact congrArg (fun r => .enqueue r :: s.calls) hret
        all_goals simp only [occupy, enqueue, Forwarder.record, fillEntry, Forwarder.setQe, fillHeader,
          Forwarder.setMsg]

/-- `forward` has accepted the message `msg`, and given `newMsg` away. -/
structure Forwarded (i : Nat) (newMsg msg : MsgPtr) (s s' : Forwarder cfg) : Prop extends
    Entered (.pool i) { msg := msg, client := 0xff, retries := maxRetries } s s' where
  messagePool : s.messagePool.toList = newMsg :: s'.messagePool.toList
  qEntryPool : s.qEntryPool.toList = .pool i :: s'.qEntryPool.toList
  clientPtrs : s'.clientPtrs = s.clientPtrs
  mem : ∀ x ≠ msg, x ≠ newMsg → s'.mem x = s.mem x
  accepted : s'.accepted = s.accepted
  armed : s'.sendPosted = true ∨ s'.retxmitTimer.isRunning = true
  timer : s.retxmitTimer.isRunning = true → s'.retxmitTimer.isRunning = true
  calls : ∃ l, s'.calls = l ++ .enqueue .success :: s.calls ∧
    ∀ c ∈ l, c = .triggerImmediateRouteUpdate

theorem detectLoop_spec (s : Forwarder cfg) (m : MsgPtr) (a : Answers) :
    ∃ timer posted l, s.detectLoop m a =
        { s with retxmitTimer := timer, sendPosted := posted, calls := l ++ s.calls } ∧
      (posted = true ∨ timer.isRunning = true) ∧
      (s.retxmitTimer.isRunning = true → timer.isRunning = true) ∧
      ∀ c ∈ l, c = .triggerImmediateRouteUpdate := by
  rw [detectLoop]
  by_cases hloop : (a.etx.any fun gradient => (s.mem m).etx ≤ gradient) = true
  · rw [if_pos hloop]
    exact ⟨_, _, [.triggerImmediateRouteUpdate], rfl, .inr rfl, fun _ => rfl, by simp⟩
  · rw [if_neg hloop]
    by_cases hrun : s.retxmitTimer.isRunning = true
    · exact ⟨s.retxmitTimer, s.sendPosted, [], by simp [hrun], .inr hrun, id, by simp⟩
    · exact ⟨s.retxmitTimer, true, [], by simp [hrun, postSend], .inl rfl, id, by simp⟩

theorem Placed.forward_cases {msg : MsgPtr} (h : Placed (msg :: hand) s) (a : Answers) :
    s.forward msg a = (msg, s) ∨
      ∃ i newMsg, (s.forward msg a).1 = newMsg ∧
        Forwarded i newMsg msg s (s.forward msg a).2 := by
  by_cases hempty : (s.messagePool.empty || s.qEntryPool.empty) = true
  · exact .inl (if_pos hempty)
  · have hne : s.messagePool.toList ≠ [] ∧ s.qEntryPool.toList ≠ [] := by
      simpa [← PoolP.empty_iff] using hempty
    obtain ⟨newMsg, free, hm⟩ := List.exists_cons_of_ne_nil hne.1
    obtain ⟨q, freeQe, hfq⟩ := List.exists_cons_of_ne_nil hne.2
    obtain ⟨i, rfl⟩ := h.free_pool (q := q) (by simp [hfq])
    obtain ⟨hm₁, hm₂⟩ := PoolP.get_cons hm
    obtain ⟨hq₁, hq₂⟩ := PoolP.get_cons hfq
    have hall : QePtr.pool i ∈ poolEntries :=
      h.entries.subset (List.mem_append_left _ (by simp [hfq]))
    have hroom := h.room (h.not_mem_of_free hfq) (List.mem_append_left _ hall)
    obtain ⟨hret, hlist⟩ := QueueC.enqueue_ok (.pool i) hroom
    let s₁ : Forwarder cfg :=
      { s with qEntryPool := s.qEntryPool.get.2, messagePool := s.messagePool.get.2 }
    have hret' : ((s₁.fillForward (.pool i) msg newMsg).enqueue (.pool i)).1 = .success := hret
    have hf : s.forward msg a =
        (newMsg, ((s₁.fillForward (.pool i) msg newMsg).enqueue (.pool i)).2.detectLoop msg a) := by
      rw [forward, if_neg hempty]
      simp only [hq₁, hm₁]
      exact if_pos hret'
    obtain ⟨timer, posted, l, hd, harmed, htimer, hl⟩ :=
      detectLoop_spec ((s₁.fillForward (.pool i) msg newMsg).enqueue (.pool i)).2 msg a
    right
    refine ⟨i, newMsg, by rw [hf], ?_⟩
    rw [hf, hd]
    refine ⟨⟨hlist, ?_, ?_, ?_, ?_, ?_, ?_, ?_, ?_, ?_⟩, ?pool, ?entries, ?_, ?mem, ?_, harmed, htimer,
      l, ?calls, hl⟩
    case pool => exact hm.trans (congrArg (newMsg :: ·) hm₂.symm)
    case entries => exact hfq.trans (congrArg (QePtr.pool i :: ·) hq₂.symm)
    case mem =>
      intro x hx hx'
      exact (Function.update_of_ne hx _ _).trans (Function.update_of_ne hx' _ _)
    case calls => exact congrArg (fun r => l ++ .enqueue r :: s.calls) hret
    all_goals simp only [enqueue, Forwarder.record, fillForward, Forwarder.setQe, Forwarder.setMsg, s₁]

theorem Entered.qe_old {q : QePtr} {e : FeQueueEntry} {s' : Forwarder cfg} (hs : Entered q e s s')
    (hq : q ∉ s.queue) {y : QePtr} (hy : y ∈ s.queue) : s'.qe y = s.qe y := by
  rw [hs.qe]
  exact Function.update_of_ne (fun he : y = q => hq (he ▸ hy)) _ _

/-- An entry has come to the end of the queue, with a message from the hand. -/
theorem Placed.entered {q : QePtr} {e : FeQueueEntry} {hand' : List MsgPtr} {s' : Forwarder cfg}
    (h : Placed (e.msg :: hand) s) (hs : Entered q e s s') (hq : q ∉ s.queue)
    (howned : q.Owned cfg e.client) (hloose : (hand ++ s.loose).Perm (hand' ++ s'.loose))
    (hentries : (s'.qEntryPool.toList ++ s'.queue.filter QePtr.isPool).Perm poolEntries)
    (hidle : ∀ i < cfg.clientCount,
      s'.clientPtrs i = if .client i ∈ s'.queue then .null else .client i)
    (hcount : s'.messagePool.toList.length + (s'.queue.filter QePtr.isPool).length = forwardCount)
    (hcalls : ∀ c ∈ s'.calls, c.Fine) : Placed hand' s' where
  entries := hentries
  nodup := by
    rw [hs.queue]
    refine List.nodup_append.2 ⟨h.nodup, List.pairwise_singleton _ q, ?_⟩
    intro y hy z hz he
    exact hq (List.mem_singleton.1 hz ▸ he ▸ hy)
  owned := by
    intro y hy
    rw [hs.queue, List.mem_append, List.mem_singleton] at hy
    rcases hy with hy | rfl
    · rw [hs.qe_old hq hy]
      exact h.owned y hy
    · rw [hs.qe, Function.update_self]
      exact howned
  idle := hidle
  messages := by
    have hold : s.queue.map s'.msgOf = s.queue.map s.msgOf :=
      List.map_congr_left fun y hy => congrArg FeQueueEntry.msg (hs.qe_old hq hy)
    have hnew : s'.msgOf q = e.msg := by rw [msgOf, hs.qe, Function.update_self]
    rw [hs.queue, List.map_append, List.map_singleton, hold, hnew]
    refine List.Perm.trans (List.perm_iff_count.2 fun m => ?_) h.messages
    have hc := List.perm_iff_count.1 hloose m
    simp only [List.count_append, List.count_cons, List.count_nil] at hc ⊢
    omega
  count := hcount
  calls := hcalls

theorem Placed.accepted {client : Nat} {msg : MsgPtr} {s' : Forwarder cfg} (h : Placed [] s)
    (hi : client < cfg.clientCount) (hp : s.clientPtrs client ≠ .null) (hmsg : msg ∈ s.app)
    (hs : Accepted client msg s s') : Placed [] { s' with app := s'.app.erase msg } := by
  obtain ⟨-, hnot⟩ := h.client_not_mem hi hp
  have hfilter : (s.queue ++ [QePtr.client client]).filter QePtr.isPool = s.queue.filter QePtr.isPool := by
    simp [QePtr.isPool]
  have happ := List.perm_cons_erase hmsg
  have hmove : Placed [msg] { s with app := s.app.erase msg } :=
    h.move (List.perm_iff_count.2 fun m => by
      have hc := List.perm_iff_count.1 happ m
      simp only [loose, List.count_append, List.count_cons, List.count_nil] at hc ⊢
      omega)
  have hentered : Entered (.client client)
      { msg := msg, client := client.toUInt8, retries := maxRetries, serial := some s.accepted }
      { s with app := s.app.erase msg } { s' with app := s'.app.erase msg } :=
    ⟨hs.queue, hs.qe, hs.radio, congrArg (·.erase msg) hs.app, hs.loopback, hs.sentCache, hs.pending,
      hs.sending, hs.radioOn, hs.isRoot⟩
  refine Placed.entered hmove hentered hnot ⟨hi, rfl⟩ ?_ ?_ ?_ ?_ ?_
  · show (s.messagePool.toList ++ s.radio ++ s.app.erase msg ++ [s.loopbackMsgPtr]).Perm
      (s'.messagePool.toList ++ s'.radio ++ s'.app.erase msg ++ [s'.loopbackMsgPtr])
    rw [hs.messagePool, hs.radio, hs.app, hs.loopback]
  · show (s'.qEntryPool.toList ++ s'.queue.filter QePtr.isPool).Perm _
    rw [hs.qEntryPool, hs.queue, hfilter]
    exact h.entries
  · intro j hj
    show s'.clientPtrs j = if .client j ∈ s'.queue then _ else _
    rw [hs.clientPtrs, hs.queue]
    by_cases hji : j = client
    · rw [hji, Function.update_self, if_pos (by simp)]
    · rw [Function.update_of_ne hji, h.idle j hj]
      simp [hji]
  · show s'.messagePool.toList.length + (s'.queue.filter QePtr.isPool).length = _
    rw [hs.messagePool, hs.queue, hfilter]
    exact h.count
  · show ∀ c ∈ s'.calls, c.Fine
    rw [hs.calls]
    exact List.forall_mem_cons.2 ⟨rfl, h.calls⟩

theorem Placed.forwarded {i : Nat} {newMsg msg : MsgPtr} {s' : Forwarder cfg}
    (h : Placed (msg :: hand) s) (hs : Forwarded i newMsg msg s s') : Placed (newMsg :: hand) s' := by
  have hfilter : s'.queue.filter QePtr.isPool = s.queue.filter QePtr.isPool ++ [.pool i] := by
    rw [hs.queue, List.filter_append]
    rfl
  refine h.entered (e := { msg := msg, client := 0xff, retries := maxRetries }) hs.toEntered
    (h.not_mem_of_free hs.qEntryPool) rfl ?_ ?_ ?_ ?_ ?_
  · refine List.perm_iff_count.2 fun m => ?_
    simp only [loose, hs.messagePool, hs.radio, hs.app, hs.loopback, List.count_append,
      List.count_cons, List.cons_append]
    omega
  · refine List.Perm.trans (List.perm_iff_count.2 fun q => ?_) h.entries
    rw [hfilter, hs.qEntryPool]
    simp only [List.count_append, List.count_cons, List.count_nil]
    omega
  · intro j hj
    rw [hs.clientPtrs, h.idle j hj, hs.queue]
    simp
  · have hcount := h.count
    rw [hs.messagePool, List.length_cons] at hcount
    rw [hfilter, List.length_append, List.length_singleton]
    omega
  · obtain ⟨l, hcalls, hl⟩ := hs.calls
    rw [hcalls]
    intro c hc
    rcases List.mem_append.1 hc with hc | hc
    · rw [hl c hc]
      trivial
    · rcases List.mem_cons.1 hc with rfl | hc
      · rfl
      · exact h.calls c hc

theorem Forwarded.countHop {i : Nat} {newMsg msg : MsgPtr} {s' : Forwarder cfg}
    (hs : Forwarded i newMsg msg (s.countHop msg) s') : Forwarded i newMsg msg s s' :=
  { hs with
    mem := fun x hx hx' => (hs.mem x hx hx').trans (Function.update_of_ne hx _ _) }

/-- The ways through `SubReceive.receive`. -/
theorem Placed.receive_cases {msg : MsgPtr} (h : Placed (msg :: hand) s) (a : Answers) :
    (s.subReceive msg a).1 = msg ∧ Refused 0 msg s (s.subReceive msg a).2 ∨
      (s.isRoot = true ∧ ∃ s' m, Refused 0 msg s s' ∧
        s.subReceive msg a = (s'.record (.receive none m)).swap msg a.back) ∨
      ∃ i newMsg, (s.subReceive msg a).1 = newMsg ∧
        Forwarded i newMsg msg s (s.subReceive msg a).2 := by
  have hr : Refused 0 msg s (s.countHop msg) :=
    ⟨⟨rfl, rfl, rfl, rfl, rfl, rfl, rfl, rfl⟩, rfl, rfl, rfl, rfl, rfl, rfl, rfl, rfl, rfl,
      fun x hx => Function.update_of_ne hx _ _⟩
  have h₁ : Placed (msg :: hand) (s.countHop msg) := h.setMsg msg _
  rw [subReceive]
  split
  · exact .inl ⟨rfl, hr⟩
  · split
    · exact .inl ⟨rfl, hr⟩
    · split
      · exact .inl ⟨rfl, hr⟩
      · split
        · next hroot => exact .inr (.inl ⟨hroot, _, _, hr, rfl⟩)
        · split
          · exact .inl ⟨rfl, hr⟩
          · rcases h₁.forward_cases a with he | ⟨i, newMsg, h1, hf⟩
            · rw [he]
              exact .inl ⟨rfl, hr⟩
            · exact .inr (.inr ⟨i, newMsg, h1, hf.countHop⟩)

/-! ## What the link is sending -/

theorem buffers_nodup (cfg : Config) : (buffers cfg).Nodup := by
  have hother : (cfg.radio.map MsgPtr.other ++ cfg.app.map MsgPtr.other).Nodup := by
    rw [← List.map_append]
    exact cfg.nodup.map fun _ _ h => MsgPtr.other.inj h
  have hpool : ((List.range forwardCount).map MsgPtr.pool).Nodup :=
    List.nodup_range.map fun _ _ h => MsgPtr.pool.inj h
  rw [buffers, List.append_assoc _ (cfg.radio.map _)]
  refine List.nodup_append.2 ⟨List.nodup_append.2 ⟨hpool, hother, ?_⟩, List.pairwise_singleton _ _, ?_⟩
  · intro x hx y hy
    obtain ⟨i, -, rfl⟩ := List.mem_map.1 hx
    rcases List.mem_append.1 hy with hy | hy
    · obtain ⟨n, -, rfl⟩ := List.mem_map.1 hy
      nofun
    · obtain ⟨n, -, rfl⟩ := List.mem_map.1 hy
      nofun
  · intro x hx y hy
    rw [List.mem_singleton.1 hy]
    rintro rfl
    simp at hx

/-- A message that is in no queue entry is not that of one. -/
theorem Placed.msg_ne (h : Placed hand s) {q : QePtr} (hq : q ∈ s.queue) {x : MsgPtr}
    (hx : x ∈ hand ++ s.loose) : s.msgOf q ≠ x :=
  have hnd := h.messages.nodup_iff.2 (buffers_nodup cfg)
  fun he => (List.nodup_append.1 hnd).2.2 x hx _ (List.mem_map_of_mem hq) he.symm

theorem Placed.msg_inj (h : Placed hand s) {q q' : QePtr} (hq : q ∈ s.queue) (hq' : q' ∈ s.queue)
    (he : s.msgOf q = s.msgOf q') : q = q' := by
  have hnd := h.messages.nodup_iff.2 (buffers_nodup cfg)
  exact List.inj_on_of_nodup_map (List.nodup_append.1 hnd).2.1 hq hq' he

theorem LruCtpMsgCacheP.lookup_congr {size : Nat} (c : LruCtpMsgCacheP size) {m m' : Message}
    (h : m.sig = m'.sig) : c.lookup m = c.lookup m' := by
  rw [LruCtpMsgCacheP.lookup, LruCtpMsgCacheP.find, h, LruCtpMsgCacheP.lookup, LruCtpMsgCacheP.find]

/-- A step that leaves the head, its message and the cache keeps what the link is sending there. -/
theorem Link.keep {s' : Forwarder cfg} (h : s.Link) (hp : s'.pending = s.pending)
    (hq : ∀ q rest, s.queue = q :: rest → ∃ rest', s'.queue = q :: rest')
    (hmsg : ∀ q ∈ s.queue, s'.msgOf q = s.msgOf q) (hc : s'.sentCache = s.sentCache)
    (hsig : ∀ q ∈ s.queue, q.isPool = true →
      (s'.mem (s.msgOf q)).sig = (s.mem (s.msgOf q)).sig) : s'.Link := by
  intro m hm
  obtain ⟨q, rest, hqueue, rfl, hl⟩ := h m (hp.symm.trans hm)
  obtain ⟨rest', hqueue'⟩ := hq q rest hqueue
  have hmem : q ∈ s.queue := hqueue ▸ .head _
  refine ⟨q, rest', hqueue', hmsg q hmem, fun hpool => ?_⟩
  rw [hc, LruCtpMsgCacheP.lookup_congr _ (hsig q hmem hpool)]
  exact hl hpool

theorem Link.refused {client : Nat} {msg : MsgPtr} {s' : Forwarder cfg} (h : s.Link)
    (hs : Refused client msg s s') (hne : ∀ q ∈ s.queue, q.isPool = true → s.msgOf q ≠ msg) :
    s'.Link :=
  h.keep hs.pending (fun q rest hq => ⟨rest, (congrArg QueueC.toList hs.same.sendQueue).trans hq⟩)
    (fun q _ => congrArg FeQueueEntry.msg (congrFun hs.same.qe q)) hs.sentCache
    fun q hq hp => congrArg Message.sig (hs.mem _ (hne q hq hp))

theorem Link.entered {q : QePtr} {e : FeQueueEntry} {s' : Forwarder cfg} (h : s.Link)
    (hs : Entered q e s s') (hq : q ∉ s.queue)
    (hmem : ∀ y ∈ s.queue, s'.mem (s.msgOf y) = s.mem (s.msgOf y)) : s'.Link :=
  h.keep hs.pending (fun y rest hy => ⟨rest ++ [q], by rw [hs.queue, hy]; rfl⟩)
    (fun y hy => congrArg FeQueueEntry.msg (hs.qe_old hq hy)) hs.sentCache
    fun y hy _ => congrArg Message.sig (hmem y hy)

theorem link_of_idle (h : s.pending = none) : s.Link := by
  intro m hm
  rw [h] at hm
  cases hm

theorem packetComplete_pending (s : Forwarder cfg) (q : QePtr) (msg : MsgPtr) (success : Bool) :
    (s.packetComplete q msg success).pending = s.pending := by
  rw [packetComplete]
  dsimp only
  split
  · rfl
  · cases success <;> rfl

theorem subSendDone_pending (s : Forwarder cfg) (msg : MsgPtr) (error : TinyError)
    (rand16 : UInt16) : (s.subSendDone msg error rand16).pending = s.pending := by
  rw [subSendDone]
  dsimp only
  split
  · rfl
  · split
    · split
      · simp only [startRetxmitTimer, setQe, record]
      · rw [packetComplete_pending]
        simp only [retire, startRetxmitTimer, dequeue, setQe, record]
    · rw [packetComplete_pending]
      simp only [retire, startRetxmitTimer, dequeue, record]

theorem swap_pending (s : Forwarder cfg) (msg back : MsgPtr) :
    (s.swap msg back).2.pending = s.pending := by
  rw [swap]
  split <;> rfl

theorem loopback_pending (s : Forwarder cfg) (q : QePtr) (a : Answers) :
    (s.loopback q a).pending = s.pending :=
  (subSendDone_pending _ _ _ _).trans (swap_pending _ _ _)

/-! ## Steps -/

theorem Sound.sendTask (h : Sound s) {a : Answers} (hsafe : s.Safe (.sendTask a)) :
    Sound (s.sendTask a) := by
  rcases s.sendTask_cases a with ⟨-, ⟨-, he⟩ | he⟩ | ⟨hready, q, rest, gradient, hq, hetx, hcases⟩
  · rw [he]
    exact h
  · rw [he]
    have hp := h.placed
    exact ⟨⟨hp.entries, hp.nodup, hp.owned, hp.idle, hp.messages, hp.count, hp.calls⟩, h.link⟩
  · obtain ⟨hclient, hroot⟩ := hsafe hready
    rw [first_eq hq] at hclient
    rcases hcases with ⟨hl, he⟩ | ⟨-, hr, he⟩ | ⟨hl, -, he⟩
    · -- a packet in the cache is one that was forwarded, and the link is not sending it
      have hpool : q.isPool = true := by
        by_contra hn
        rw [hclient (Bool.eq_false_iff.2 hn)] at hl
        cases hl
      have hpend : s.pending = none := by
        cases hp : s.pending with
        | none => rfl
        | some m =>
          obtain ⟨q', rest', hq', rfl, hl'⟩ := h.link m hp
          cases hq.symm.trans hq'
          rw [hl' hpool] at hl
          cases hl
      rw [he]
      cases q with
      | null => cases hpool
      | client i => cases hpool
      | pool i => exact ⟨h.placed.suppress hq, link_of_idle hpend⟩
    · rw [he]
      exact ⟨h.placed.loopback hq a, link_of_idle ((loopback_pending s q a).trans (hroot hr))⟩
    · rw [he]
      have ht := transmit_spec s q gradient a
      have hqueue : (s.transmit q gradient a).queue = q :: rest :=
        (congrArg QueueC.toList ht.same.sendQueue).trans hq
      have hmsg (y : QePtr) : (s.transmit q gradient a).msgOf y = s.msgOf y :=
        congrArg FeQueueEntry.msg (congrFun ht.same.qe y)
      have hkeep (hp : (s.transmit q gradient a).pending = s.pending) :
          (s.transmit q gradient a).Link :=
        h.link.keep hp (fun y l hy => ⟨l, (congrArg QueueC.toList ht.same.sendQueue).trans hy⟩)
          (fun y _ => hmsg y) ht.sentCache fun y _ _ => ht.sig _
      refine ⟨h.placed.transmit q gradient a, ?_⟩
      cases ht.outcome with
      | accepted _ _ _ hp _ =>
        intro m hm
        cases hp.symm.trans hm
        refine ⟨q, rest, hqueue, hmsg q, fun _ => ?_⟩
        rw [ht.sentCache, LruCtpMsgCacheP.lookup_congr _ (ht.sig _)]
        exact hl
      | truncated _ _ hp _ => exact hkeep hp
      | refused _ _ _ hp _ => exact hkeep hp

theorem Sound.clientSend {client : Nat} {msg : MsgPtr} {len : UInt8} {s' : Forwarder cfg}
    (h : Sound s) (hs : s.clientSend client msg len = some s') : Sound s' := by
  obtain ⟨⟨hi, hmsg⟩, hs⟩ := Option.ite_none_right_eq_some.1 hs
  cases hs
  rcases h.placed.send_cases hi msg len with ⟨hret, hr⟩ | ⟨hp, hret, ha⟩
  · dsimp only
    rw [if_neg hret]
    refine ⟨h.placed.same hr.same (hr.calls ▸ h.placed.calls), h.link.refused hr ?_⟩
    rintro q hq hpool
    rcases hmsg with hmsg | ⟨hp, rfl⟩
    · exact h.placed.msg_ne hq (by simp [loose, hmsg])
    · -- the client waits for a message of its own
      have hc : .client client ∈ s.queue := by
        have := h.placed.idle client hi
        by_contra hn
        rw [if_neg hn, hp] at this
        cases this
      intro he
      cases h.placed.msg_inj hq hc he
      cases hpool
  · have hmsg' : msg ∈ s.app := hmsg.resolve_right fun hb => hp hb.1
    dsimp only
    rw [if_pos hret]
    refine ⟨h.placed.accepted hi hp hmsg' ha, ?_⟩
    have hl : (s.send client msg len).2.Link := by
      refine h.link.entered ha.toEntered (h.placed.client_not_mem hi hp).2 fun y hy => ha.mem _ ?_
      exact h.placed.msg_ne hy (by simp [loose, hmsg'])
    exact hl

theorem Link.swap (h : s.Link) (msg back : MsgPtr) : (s.swap msg back).2.Link := by
  rw [Forwarder.swap]
  split
  · exact h
  · exact h

/-- The radio gets a message from the hand. -/
theorem Placed.give {m : MsgPtr} (h : Placed (m :: hand) s) :
    Placed hand { s with radio := m :: s.radio } :=
  h.move (List.perm_iff_count.2 fun x => by
    simp only [loose, List.count_append, List.count_cons, List.cons_append]
    omega)

theorem Placed.arrive {msg : MsgPtr} (h : Placed [] s) (hm : msg ∈ s.radio) (frame : Message) :
    Placed [msg] ({ s with radio := s.radio.erase msg }.setMsg msg frame) := by
  refine Placed.setMsg (h.move (List.perm_iff_count.2 fun m => ?_)) _ _
  have hc := List.perm_iff_count.1 (List.perm_cons_erase hm) m
  simp only [loose, List.count_append, List.count_cons, List.count_nil] at hc ⊢
  omega

/-- A frame that arrives, whatever the handler does with it. -/
theorem Sound.arrive {msg : MsgPtr} {frame : Message} {f : Forwarder cfg → MsgPtr × Forwarder cfg}
    {s' : Forwarder cfg} (h : Sound s) (hs : s.arrive msg frame f = some s')
    (hf : ∀ s₁ : Forwarder cfg, Placed [msg] s₁ → s₁.Link →
      Placed [(f s₁).1] (f s₁).2 ∧ (f s₁).2.Link) : Sound s' := by
  obtain ⟨hm, hs⟩ := Option.ite_none_right_eq_some.1 hs
  cases hs
  have hlink : Link ({ s with radio := s.radio.erase msg }.setMsg msg frame) :=
    h.link.keep rfl (fun q rest hq => ⟨rest, hq⟩) (fun _ _ => rfl) rfl fun q hq _ => by
      refine congrArg Message.sig (Function.update_of_ne (h.placed.msg_ne hq ?_) _ _)
      simp [loose, hm]
  obtain ⟨hp, hl⟩ := hf _ (h.placed.arrive hm frame) hlink
  exact ⟨hp.give, hl⟩

theorem Placed.subReceive {msg : MsgPtr} (h : Placed [msg] s) (hl : s.Link) (a : Answers) :
    Placed [(s.subReceive msg a).1] (s.subReceive msg a).2 ∧ (s.subReceive msg a).2.Link := by
  have hne : ∀ q ∈ s.queue, s.msgOf q ≠ msg := fun q hq => h.msg_ne hq (.head _)
  rcases h.receive_cases a with ⟨h1, hr⟩ | ⟨-, s₁, m, hr, he⟩ | ⟨i, newMsg, h1, hf⟩
  · rw [h1]
    exact ⟨h.same hr.same (hr.calls ▸ h.calls), hl.refused hr fun q hq _ => hne q hq⟩
  · rw [he]
    have h₁ : Placed [msg] s₁ := h.same hr.same (hr.calls ▸ h.calls)
    have hl₁ : s₁.Link := hl.refused hr fun q hq _ => hne q hq
    exact ⟨(h₁.record (c := .receive none m) trivial).swap a.back, Link.swap (s := s₁.record _) hl₁ msg a.back⟩
  · rw [h1]
    refine ⟨h.forwarded hf, hl.entered hf.toEntered (h.not_mem_of_free hf.qEntryPool) ?_⟩
    intro y hy
    refine hf.mem _ (hne y hy) (h.msg_ne hy ?_)
    simp [loose, hf.messagePool]

theorem Placed.subSnoop {msg : MsgPtr} (h : Placed [msg] s) (hl : s.Link) (a : Answers) :
    Placed [(s.subSnoop msg a).1] (s.subSnoop msg a).2 ∧ (s.subSnoop msg a).2.Link := by
  rw [Forwarder.subSnoop]
  split
  · exact ⟨(h.record (c := .triggerRouteUpdate) trivial).swap a.back,
      Link.swap (s := s.record _) hl msg a.back⟩
  · exact ⟨h.swap a.back, hl.swap msg a.back⟩

theorem Sound.subSendDone {msg : MsgPtr} (h : Sound s) (hp : s.pending = some msg)
    (error : TinyError) (acked : Bool) (rand16 : UInt16) :
    Sound (({ s with pending := none }.setMsg msg { s.mem msg with acked := acked }).subSendDone msg
      error rand16) := by
  obtain ⟨q, rest, hq, rfl, -⟩ := h.link msg hp
  have hp' := h.placed
  have h₁ : Placed [] ({ s with pending := none }.setMsg (s.msgOf q)
      { s.mem (s.msgOf q) with acked := acked }) :=
    ⟨hp'.entries, hp'.nodup, hp'.owned, hp'.idle, hp'.messages, hp'.count, hp'.calls⟩
  exact ⟨h₁.subSendDone hq error rand16, link_of_idle (subSendDone_pending _ _ _ _)⟩

/-- **A safe step keeps every buffer and entry in its place.** -/
theorem Sound.step {e : Event} {s' : Forwarder cfg} (h : Sound s) (hsafe : s.Safe e)
    (hs : s.step e = some s') : Sound s' := by
  have hp := h.placed
  cases e with
  | start =>
    cases hs
    exact ⟨⟨hp.entries, hp.nodup, hp.owned, hp.idle, hp.messages, hp.count, hp.calls⟩, h.link⟩
  | stop =>
    cases hs
    exact ⟨⟨hp.entries, hp.nodup, hp.owned, hp.idle, hp.messages, hp.count, hp.calls⟩, h.link⟩
  | startDone error =>
    cases hs
    rw [startDone]
    dsimp only
    split
    · split <;>
        exact ⟨⟨hp.entries, hp.nodup, hp.owned, hp.idle, hp.messages, hp.count, hp.calls⟩, h.link⟩
    · exact h
  | stopDone error =>
    cases hs
    rw [stopDone]
    split
    · exact ⟨⟨hp.entries, hp.nodup, hp.owned, hp.idle, hp.messages, hp.count, hp.calls⟩, h.link⟩
    · exact h
  | routeFound =>
    cases hs
    exact ⟨⟨hp.entries, hp.nodup, hp.owned, hp.idle, hp.messages, hp.count, hp.calls⟩, h.link⟩
  | setRoot =>
    cases hs
    exact ⟨⟨hp.entries, hp.nodup, hp.owned, hp.idle, hp.messages, hp.count, hp.calls⟩, h.link⟩
  | unsetRoot =>
    cases hs
    exact ⟨⟨hp.entries, hp.nodup, hp.owned, hp.idle, hp.messages, hp.count, hp.calls⟩, h.link⟩
  | send client msg len => exact h.clientSend hs
  | sendTask a =>
    obtain ⟨-, hs⟩ := Option.ite_none_right_eq_some.1 hs
    cases hs
    have h₁ : Sound { s with sendPosted := false } :=
      ⟨⟨hp.entries, hp.nodup, hp.owned, hp.idle, hp.messages, hp.count, hp.calls⟩, h.link⟩
    exact h₁.sendTask hsafe
  | retxmitTimerFired =>
    obtain ⟨-, hs⟩ := Option.ite_none_right_eq_some.1 hs
    cases hs
    exact ⟨⟨hp.entries, hp.nodup, hp.owned, hp.idle, hp.messages, hp.count, hp.calls⟩, h.link⟩
  | subSendDone error acked rand16 =>
    cases hpend : s.pending with
    | none =>
      rw [Forwarder.step, hpend] at hs
      cases hs
    | some msg =>
      rw [Forwarder.step, hpend] at hs
      cases hs
      exact h.subSendDone hpend error acked rand16
  | receive msg frame a =>
    have hs' : s.arrive msg frame (·.subReceive msg a) = some s' := hs
    exact h.arrive hs' fun s₁ hp₁ hl₁ => hp₁.subReceive hl₁ a
  | snoop msg frame a =>
    have hs' : s.arrive msg frame (·.subSnoop msg a) = some s' := hs
    exact h.arrive hs' fun s₁ hp₁ hl₁ => hp₁.subSnoop hl₁ a

theorem queue_boot (cfg : Config) : (boot cfg).queue = [] := rfl

theorem placed_boot (cfg : Config) : Placed [] (boot cfg) := by
  have hfree : (boot cfg).qEntryPool.toList = poolEntries := PoolP.toList_init _ _
  have hpool : (boot cfg).messagePool.toList = (List.range forwardCount).map .pool :=
    PoolP.toList_init _ _
  refine ⟨?_, ?_, ?_, ?_, ?_, ?_, nofun⟩
  · rw [hfree, queue_boot, List.filter_nil, List.append_nil]
  · rw [queue_boot]
    exact .nil
  · rw [queue_boot]
    nofun
  · rw [queue_boot]
    exact fun i _ => (if_neg List.not_mem_nil).symm
  · rw [loose, hpool, queue_boot, List.map_nil, List.append_nil]
    exact .refl _
  · rw [hpool, queue_boot]
    rfl

theorem sound_boot (cfg : Config) : Sound (boot cfg) := ⟨placed_boot cfg, link_of_idle rfl⟩

/-! ## A node that is not a root -/

theorem packetComplete_isRoot (s : Forwarder cfg) (q : QePtr) (msg : MsgPtr) (success : Bool) :
    (s.packetComplete q msg success).isRoot = s.isRoot := by
  rw [packetComplete]
  dsimp only
  split
  · rfl
  · cases success <;> rfl

theorem subSendDone_isRoot (s : Forwarder cfg) (msg : MsgPtr) (error : TinyError)
    (rand16 : UInt16) : (s.subSendDone msg error rand16).isRoot = s.isRoot := by
  rw [subSendDone]
  dsimp only
  split
  · rfl
  · split
    · split
      · simp only [startRetxmitTimer, setQe, record]
      · rw [packetComplete_isRoot]
        simp only [retire, startRetxmitTimer, dequeue, setQe, record]
    · rw [packetComplete_isRoot]
      simp only [retire, startRetxmitTimer, dequeue, record]

theorem swap_isRoot (s : Forwarder cfg) (msg back : MsgPtr) :
    (s.swap msg back).2.isRoot = s.isRoot := by
  rw [swap]
  split <;> rfl

theorem sendTask_isRoot (s : Forwarder cfg) (a : Answers) : (s.sendTask a).isRoot = s.isRoot := by
  rcases s.sendTask_cases a with ⟨-, ⟨-, he⟩ | he⟩ | ⟨-, q, rest, gradient, -, -, hcases⟩
  · rw [he]
  · rw [he]
    rfl
  · rcases hcases with ⟨-, he⟩ | ⟨-, -, he⟩ | ⟨-, -, he⟩
    · rw [he]
      rfl
    · rw [he]
      exact (subSendDone_isRoot _ _ _ _).trans (swap_isRoot _ _ _)
    · rw [he]
      exact (transmit_spec s q gradient a).isRoot

theorem step_isRoot {e : Event} {s' : Forwarder cfg} (h : Sound s) (hs : s.step e = some s')
    (h₁ : e ≠ .setRoot) (h₂ : e ≠ .unsetRoot) : s'.isRoot = s.isRoot := by
  cases e with
  | start | stop | routeFound => cases hs; rfl
  | startDone error =>
    cases hs
    rw [startDone]
    dsimp only
    split
    · split <;> rfl
    · rfl
  | stopDone error =>
    cases hs
    rw [stopDone]
    split <;> rfl
  | setRoot => exact absurd rfl h₁
  | unsetRoot => exact absurd rfl h₂
  | send client msg len =>
    obtain ⟨⟨hi, -⟩, hs⟩ := Option.ite_none_right_eq_some.1 hs
    cases hs
    have hroot : (s.send client msg len).2.isRoot = s.isRoot := by
      rcases h.placed.send_cases hi msg len with ⟨-, hr⟩ | ⟨-, -, ha⟩
      · exact hr.isRoot
      · exact ha.isRoot
    dsimp only
    split <;> exact hroot
  | sendTask a =>
    obtain ⟨-, hs⟩ := Option.ite_none_right_eq_some.1 hs
    cases hs
    exact sendTask_isRoot _ _
  | retxmitTimerFired =>
    obtain ⟨-, hs⟩ := Option.ite_none_right_eq_some.1 hs
    cases hs
    rfl
  | subSendDone error acked rand16 =>
    cases hpend : s.pending with
    | none =>
      rw [Forwarder.step, hpend] at hs
      cases hs
    | some msg =>
      rw [Forwarder.step, hpend] at hs
      cases hs
      exact subSendDone_isRoot _ _ _ _
  | receive msg frame a =>
    obtain ⟨hm, hs⟩ := Option.ite_none_right_eq_some.1 hs
    cases hs
    rcases (h.placed.arrive hm frame).receive_cases a with ⟨-, hr⟩ | ⟨-, s₁, m, hr, he⟩ | ⟨i, n, -, hf⟩
    · exact hr.isRoot
    · dsimp only
      rw [he]
      exact (swap_isRoot _ _ _).trans hr.isRoot
    · exact hf.isRoot
  | snoop msg frame a =>
    obtain ⟨-, hs⟩ := Option.ite_none_right_eq_some.1 hs
    cases hs
    dsimp only
    rw [Forwarder.subSnoop]
    split <;> exact swap_isRoot _ _ _

/-- `sendTask` does not find a client's packet in the cache. -/
def NoOwnDuplicate (s : Forwarder cfg) : Event → Prop
  | .sendTask a => s.Ready a = true → s.sendQueue.first.isPool = false →
    s.sentCache.lookup (s.mem (s.msgOf s.sendQueue.first)) = false
  | _ => True

instance (s : Forwarder cfg) : DecidablePred s.NoOwnDuplicate
  | .sendTask _ => inferInstanceAs (Decidable (_ → _ → _))
  | .start | .stop | .startDone _ | .stopDone _ | .routeFound | .setRoot | .unsetRoot | .send ..
  | .retxmitTimerFired | .subSendDone .. | .receive .. | .snoop .. => .isTrue trivial

/-- The engine of a node that does not become a root. -/
def nonRoot (cfg : Config) : Machine (Forwarder cfg) Event := (machine cfg).restrict (· ≠ .setRoot)

theorem safe_of_noOwnDuplicate (hroot : s.isRoot = false) {e : Event} (h : s.NoOwnDuplicate e) :
    s.Safe e := by
  cases e with
  | sendTask a =>
    intro hready
    refine ⟨h hready, fun hr => ?_⟩
    rw [hroot] at hr
    cases hr
  | _ => trivial

/-- A client's packet that is taken for a duplicate goes into `MessagePool`. -/
theorem noOwnDuplicate_of_placed {e : Event} {s' : Forwarder cfg} (h : Sound s)
    (hs : s.step e = some s') (hp : Placed [] s') : s.NoOwnDuplicate e := by
  cases e with
  | sendTask a =>
    intro hready hclient
    obtain ⟨-, hs⟩ := Option.ite_none_right_eq_some.1 hs
    cases hs
    rcases sendTask_cases { s with sendPosted := false } a with
      ⟨hno, -⟩ | ⟨-, q, rest, gradient, hq, -, hcases⟩
    · exact absurd (hready.symm.trans hno) (by decide)
    · rw [first_eq hq] at hclient ⊢
      rcases hcases with ⟨-, he⟩ | ⟨hl, -⟩ | ⟨hl, -⟩
      · have ho := h.placed.owned q (hq ▸ .head _)
        rw [he] at hp
        have hcall : Call.messagePut (s.qe q).client
            (s.messagePool.put (s.msgOf q)).1 ∈ (suppress { s with sendPosted := false } q).calls :=
          .tail _ (.head _)
        have hcl : (s.qe q).client = 0xff := (hp.calls _ hcall).1
        cases q with
        | null => exact ho.elim
        | pool i => cases hclient
        | client i =>
          have hi := client_toNat ho.1
          rw [← ho.2, hcl] at hi
          have := cfg.clientCount_le
          have := ho.1
          change 255 = i at hi
          omega
      · exact hl
      · exact hl
  | _ => trivial

/-- **Where the buffers of a node that is not a root are.** -/
theorem placed_iff {h : List (Forwarder cfg × Event)} (hr : (nonRoot cfg).Run h s) :
    (Placed [] s ∧ ∀ p ∈ h, Placed [] p.1) ↔ ∀ p ∈ h, p.1.NoOwnDuplicate p.2 := by
  refine hr.forall_iff_of_strong (J := fun s => Sound s ∧ s.isRoot = false) ?_ (fun _ h => h.1.placed)
    ?_ ?_
  · rintro _ rfl
    exact ⟨sound_boot cfg, rfl⟩
  · rintro s e s' ⟨hsound, hroot⟩ hc hs
    obtain ⟨hne, hs⟩ := Machine.restrict_step hs
    refine ⟨hsound.step (safe_of_noOwnDuplicate hroot hc) hs, ?_⟩
    by_cases hu : e = .unsetRoot
    · subst hu
      cases hs
      rfl
    · rw [step_isRoot hsound hs hne hu]
      exact hroot
  · rintro s e s' ⟨hsound, -⟩ hs hp
    exact noOwnDuplicate_of_placed hsound (Machine.restrict_step hs).2 hp

/-- A client's packet is sent, and so is one that comes in. -/
theorem placed_sent : ∃ h s, (nonRoot exampleConfig).Run h s ∧
    (Placed [] s ∧ ∀ p ∈ h, Placed [] p.1) ∧ s.calls.contains (.sendDone 0 (some 0)) = true := by
  obtain ⟨h, s, hr, hs⟩ := Machine.exists_run_of_exec (M := nonRoot exampleConfig)
    (s := boot exampleConfig) rfl
    [.start, .startDone .success, .send 0 (.other 1) 4, .sendTask {}, .subSendDone .success true 0,
      .receive (.other 0) { origin := 5, etx := 100 } {}, .retxmitTimerFired, .sendTask {}]
    (fun h s => h.all (fun p => p.1.NoOwnDuplicate p.2) &&
      s.calls.contains (.sendDone 0 (some 0))) (by decide)
  simp only [Bool.and_eq_true, List.all_eq_true, decide_eq_true_eq] at hs
  exact ⟨h, s, hr, (placed_iff hr).2 hs.1, hs.2⟩

/-- A packet with the address of this node comes in with `thl` 255 and is sent on. It makes the first
packet of the client a duplicate, whose message goes into the pool. -/
theorem not_placed : ∃ h s, (nonRoot exampleConfig).Run h s ∧
    .other 1 ∈ s.messagePool.toList ∧ ¬Placed [] s := by
  obtain ⟨h, s, hr, hs⟩ := Machine.exists_run_of_exec (M := nonRoot exampleConfig)
    (s := boot exampleConfig) rfl
    [.start, .startDone .success,
      .receive (.other 0) { origin := 1, thl := 255, etx := 100, type := 7 } {}, .sendTask {},
      .subSendDone .success true 0, .send 0 (.other 1) 4,
      .receive (.pool 0) { origin := 5, etx := 100 } {}, .sendTask {}]
    (fun _ s => s.messagePool.toList.contains (.other 1) &&
      s.calls.contains (.messagePut 0 .success)) (by decide)
  simp only [Bool.and_eq_true, List.contains_iff_mem] at hs
  refine ⟨h, s, hr, hs.1, fun hp => ?_⟩
  exact absurd (hp.calls _ hs.2).1 (by decide)

end Forwarder

end Ctp
