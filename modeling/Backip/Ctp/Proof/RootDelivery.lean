import Backip.Ctp.Proof.ForwarderProgress
import Mathlib

/-!
# CTP: a root delivers its own packets

`Book` is what remains of the forwarder when only the order of service counts: the tickets of the
packets in the queue, and what has been done about this node's packets. Every step is a `Turn` of the
book (`Sound.stepped`), and the results about single packets are proved of turns.

`root_delivers`: a packet that gets to the head of the queue of a root is received and completed once,
and nothing else is done about it. It needs the steps to be `Clears`: the root must not take the
acknowledgement of an earlier packet to be missing for one of its own.
-/

set_option autoImplicit false

namespace Ctp

/-- The packet of this node that a call is about. -/
def Call.serial : Call → Option Nat
  | .subSend serial .. | .txNoAck serial _ | .txAck serial _ | .receive serial _
  | .sendDone _ serial => serial
  | _ => none

/-- The calls about packets of this node. -/
def note (l : List Call) : List Call := l.filter (·.serial.isSome)

/-- The client of a packet in the queue, and the number of one of this node's. -/
abbrev Ticket := UInt8 × Option Nat

structure Book where
  tickets : List Ticket
  served : List Call
  accepted : Nat

namespace Book

/-- The packets of this node that are in the queue. -/
def serials (b : Book) : List Nat := b.tickets.filterMap (·.2)

/-- What has been done about packet `n`, the last call first. -/
def about (b : Book) (n : Nat) : List Call := b.served.filter (·.serial = some n)

/-- One step of the queue's service. `here`: the node is a root that the link has no message of. -/
inductive Turn (here : Prop) : Book → Book → Prop
  | keep (b : Book) : Turn here b b
  | accept (tickets : List Ticket) (served : List Call) (n : Nat) {client : UInt8} :
      client ≠ 0xff →
      Turn here ⟨tickets, served, n⟩ ⟨tickets ++ [(client, some n)], served, n + 1⟩
  | forward (tickets : List Ticket) (served : List Call) (n : Nat) :
      Turn here ⟨tickets, served, n⟩ ⟨tickets ++ [(0xff, none)], served, n⟩
  /-- The packet at the head is tried. -/
  | attempt {t : Ticket} (rest : List Ticket) {l : List Call} (served : List Call) (n : Nat) :
      (∀ c ∈ l, c.serial = t.2) → (t.2 ≠ none → ¬here) →
      Turn here ⟨t :: rest, served, n⟩ ⟨t :: rest, note l ++ served, n⟩
  /-- The packet at the head leaves; an own packet of a root is received. -/
  | leave {t : Ticket} (rest : List Ticket) {l : List Call} (served : List Call) (n : Nat) :
      (∀ c ∈ l, c.serial = t.2) →
      (t.2 ≠ none → here →
        ∃ dst m, l = [.sendDone t.1 t.2, .txAck t.2 dst, .receive t.2 m]) →
      Turn here ⟨t :: rest, served, n⟩ ⟨rest, note l ++ served, n⟩

/-- The numbers are in use once, and nothing is done about a packet before it is at the head. -/
structure Kept (b : Book) : Prop where
  nodup : b.serials.Nodup
  lt : ∀ n ∈ b.serials, n < b.accepted
  served : ∀ c ∈ b.served, ∀ n, c.serial = some n → n < b.accepted
  waiting : ∀ t rest, b.tickets = t :: rest → ∀ n, some n ∈ rest.map (·.2) → b.about n = []
  foreign : ∀ t ∈ b.tickets, t.1 = 0xff → t.2 = none

variable {b b' : Book} {here : Prop} {n : Nat}

theorem mem_serials : n ∈ b.serials ↔ some n ∈ b.tickets.map (·.2) := by
  rw [serials, List.mem_filterMap, List.mem_map]

/-- Calls about one packet are no calls about another. -/
theorem about_note {t : Ticket} {l : List Call} (hl : ∀ c ∈ l, c.serial = t.2) (h : t.2 ≠ some n)
    (tickets tickets' : List Ticket) (served : List Call) (m : Nat) :
    about ⟨tickets', note l ++ served, m⟩ n = about ⟨tickets, served, m⟩ n := by
  have hnil : (note l).filter (fun c => c.serial = some n) = [] := by
    rw [List.filter_eq_nil_iff]
    intro c hc hn
    exact h ((hl c (List.mem_filter.1 hc).1).symm.trans (of_decide_eq_true hn))
  rw [about, List.filter_append, hnil]
  rfl

/-- All of the calls about a packet are there. -/
theorem about_note_self {l : List Call} (hl : ∀ c ∈ l, c.serial = some n)
    (tickets tickets' : List Ticket) (served : List Call) (m : Nat) :
    about ⟨tickets', note l ++ served, m⟩ n = l ++ about ⟨tickets, served, m⟩ n := by
  have hall : (note l).filter (fun c => c.serial = some n) = l := by
    rw [note, List.filter_filter, List.filter_eq_self]
    intro c hc
    simp [hl c hc]
  rw [about, List.filter_append, hall]
  rfl

theorem Kept.about_new (h : Kept b) : b.about b.accepted = [] := by
  rw [about, List.filter_eq_nil_iff]
  intro c hc hn
  exact absurd (h.served c hc _ (of_decide_eq_true hn)) (Nat.lt_irrefl _)

theorem note_served {l served : List Call} {t : Ticket} {m : Nat} (hl : ∀ c ∈ l, c.serial = t.2)
    (ht : ∀ n, t.2 = some n → n < m) (hs : ∀ c ∈ served, ∀ n, c.serial = some n → n < m) :
    ∀ c ∈ note l ++ served, ∀ n, c.serial = some n → n < m := by
  intro c hc n hn
  rcases List.mem_append.1 hc with hc | hc
  · exact ht n ((hl c (List.mem_filter.1 hc).1).symm.trans hn)
  · exact hs c hc n hn

/-- The packet at the head is not behind it. -/
theorem Kept.head {t : Ticket} {rest : List Ticket} {served : List Call} {m : Nat}
    (h : Kept ⟨t :: rest, served, m⟩) (n : Nat) (ht : t.2 = some n) :
    some n ∉ rest.map (·.2) ∧ n < m := by
  have hnd := h.nodup
  rw [serials, List.filterMap_cons, ht] at hnd
  refine ⟨fun hm => (List.nodup_cons.1 hnd).1 ?_, h.lt n (mem_serials.2 ?_)⟩
  · exact List.mem_filterMap.2 (List.mem_map.1 hm)
  · exact List.mem_map.2 ⟨t, .head _, ht⟩

theorem Kept.turn (h : Kept b) (ht : Turn here b b') : Kept b' := by
  cases ht with
  | keep => exact h
  | @accept tickets served n client hclient =>
    have hnew : n ∉ serials ⟨tickets, served, n⟩ := fun hn => Nat.lt_irrefl _ (h.lt n hn)
    have hserials : serials ⟨tickets ++ [(client, some n)], served, n + 1⟩ =
        serials ⟨tickets, served, n⟩ ++ [n] := by simp [serials]
    refine ⟨?_, ?_, fun c hc m hm => Nat.lt_succ_of_lt (h.served c hc m hm), ?_, ?_⟩
    · rw [hserials]
      refine List.nodup_append.2 ⟨h.nodup, List.pairwise_singleton _ n, ?_⟩
      intro x hx y hy he
      exact hnew (List.mem_singleton.1 hy ▸ he ▸ hx)
    · rw [hserials]
      intro m hm
      rcases List.mem_append.1 hm with hm | hm
      · exact Nat.lt_succ_of_lt (h.lt m hm)
      · rw [List.mem_singleton.1 hm]
        exact Nat.lt_succ_self n
    · intro t rest he m hm
      cases tickets with
      | nil =>
        cases he
        simp at hm
      | cons t' rest' =>
        obtain ⟨-, rfl⟩ := List.cons.inj he
        simp only [List.append_eq, List.map_append, List.mem_append, List.map_cons, List.map_nil,
          List.mem_singleton, Option.some.injEq] at hm
        rcases hm with hm | rfl
        · exact h.waiting _ _ rfl m hm
        · exact h.about_new
    · intro t ht h0
      rcases List.mem_append.1 ht with ht | ht
      · exact h.foreign t ht h0
      · rw [List.mem_singleton.1 ht] at h0
        exact absurd h0 hclient
  | forward tickets served n =>
    have hserials : serials ⟨tickets ++ [(0xff, none)], served, n⟩ =
        serials ⟨tickets, served, n⟩ := by simp [serials]
    refine ⟨hserials ▸ h.nodup, hserials ▸ h.lt, h.served, ?_, ?_⟩
    · intro t rest he m hm
      cases tickets with
      | nil =>
        cases he
        simp at hm
      | cons t' rest' =>
        obtain ⟨-, rfl⟩ := List.cons.inj he
        simp only [List.append_eq, List.map_append, List.mem_append, List.map_cons, List.map_nil,
          List.mem_singleton, reduceCtorEq, or_false] at hm
        exact h.waiting _ _ rfl m hm
    · intro t ht h0
      rcases List.mem_append.1 ht with ht | ht
      · exact h.foreign t ht h0
      · rw [List.mem_singleton.1 ht]
  | @attempt t rest l served n hl _ =>
    have ht := h.head
    refine ⟨h.nodup, h.lt, note_served hl (fun m hm => (ht m hm).2) h.served, ?_, h.foreign⟩
    rintro _ _ he m hm
    cases he
    rw [about_note hl ?_ (t :: rest)]
    · exact h.waiting _ _ rfl m hm
    · exact fun he => (ht m he).1 hm
  | @leave t rest l served n hl _ =>
    have ht := h.head
    refine ⟨?_, ?_, note_served hl (fun m hm => (ht m hm).2) h.served, ?_, ?_⟩
    · have hnd := h.nodup
      rw [serials, List.filterMap_cons] at hnd
      cases hm : t.2 with
      | none => exact (hm ▸ hnd : _)
      | some m =>
        rw [hm] at hnd
        exact (List.nodup_cons.1 hnd).2
    · intro m hm
      refine h.lt m ?_
      rw [mem_serials] at hm ⊢
      exact .tail _ hm
    · rintro t' rest' rfl m hm
      have hm' : some m ∈ (t' :: rest').map (·.2) := .tail _ hm
      rw [about_note hl ?_ (t :: t' :: rest')]
      · exact h.waiting _ _ rfl m hm'
      · exact fun he => (ht m he).1 hm'
    · exact fun t' ht' => h.foreign t' (.tail _ ht')

/-- What was there stays as it was, or is at the head. -/
theorem Turn.about_other (ht : Turn here b b')
    (hn : ∀ t rest, b.tickets = t :: rest → t.2 ≠ some n) : b'.about n = b.about n := by
  cases ht with
  | keep | accept | forward => rfl
  | @attempt t rest l served m hl _ => exact about_note hl (hn t rest rfl) _ _ _ _
  | @leave t rest l served m hl _ => exact about_note hl (hn t rest rfl) _ _ _ _

/-- A packet that has left does not come back. -/
theorem Turn.gone (h : Kept b) (ht : Turn here b b') (hlt : n < b.accepted) (hn : n ∉ b.serials) :
    n < b'.accepted ∧ n ∉ b'.serials ∧ b'.about n = b.about n := by
  have hother : ∀ t rest, b.tickets = t :: rest → t.2 ≠ some n := by
    intro t rest he hs
    refine hn (mem_serials.2 (List.mem_map.2 ⟨t, ?_, hs⟩))
    rw [he]
    exact .head _
  refine ⟨?_, ?_, ht.about_other hother⟩
  · cases ht with
    | accept => exact Nat.lt_succ_of_lt hlt
    | _ => exact hlt
  · rw [mem_serials] at hn ⊢
    cases ht with
    | keep => exact hn
    | accept tickets served m _ =>
      rw [List.map_append, List.mem_append, not_or]
      refine ⟨hn, fun hm => ?_⟩
      cases List.mem_singleton.1 hm
      exact Nat.lt_irrefl _ hlt
    | forward tickets served m =>
      rw [List.map_append, List.mem_append, not_or]
      exact ⟨hn, by simp⟩
    | attempt => exact hn
    | leave => exact fun hm => hn (.tail _ hm)

/-- Nothing has been done about a packet when it gets to the head. -/
theorem Turn.reach (h : Kept b) (ht : Turn here b b') {client : UInt8}
    (hb : b.tickets.head? ≠ some (client, some n)) (hb' : b'.tickets.head? = some (client, some n)) :
    b'.about n = [] := by
  cases ht with
  | keep => exact absurd hb' hb
  | accept tickets served m _ =>
    cases tickets with
    | nil =>
      cases hb'
      exact h.about_new
    | cons t rest => exact absurd hb' hb
  | forward tickets served m =>
    cases tickets with
    | nil => cases hb'
    | cons t rest => exact absurd hb' hb
  | attempt => exact absurd hb' hb
  | @leave t rest l served m hl _ =>
    cases rest with
    | nil => cases hb'
    | cons t' rest' =>
      cases hb'
      have hne : t.2 ≠ some n := fun he => (h.head n he).1 (.head _)
      rw [about_note hl hne (t :: (client, some n) :: rest')]
      exact h.waiting _ _ rfl n (.head _)

/-- An own packet at the head of a root's queue stays, or is received and completed. -/
theorem Turn.front (h : Kept b) (ht : Turn here b b') (hhere : here) {client : UInt8}
    (hb : b.tickets.head? = some (client, some n)) :
    b'.tickets.head? = some (client, some n) ∧ b'.about n = b.about n ∨
      (∃ dst m, b'.about n =
        [.sendDone client (some n), .txAck (some n) dst, .receive (some n) m] ++ b.about n) ∧
      n < b'.accepted ∧ n ∉ b'.serials := by
  cases ht with
  | keep => exact .inl ⟨hb, rfl⟩
  | accept tickets served m _ =>
    refine .inl ⟨?_, rfl⟩
    cases tickets with
    | nil => cases hb
    | cons t rest => exact hb
  | forward tickets served m =>
    refine .inl ⟨?_, rfl⟩
    cases tickets with
    | nil => cases hb
    | cons t rest => exact hb
  | attempt rest served m hl hno =>
    cases hb
    exact absurd hhere (hno nofun)
  | leave rest served m hl hleave =>
    cases hb
    obtain ⟨dst, msg, rfl⟩ := hleave nofun hhere
    obtain ⟨hrest, hlt⟩ := h.head n rfl
    exact .inr ⟨⟨dst, msg, about_note_self hl _ _ _ _⟩, hlt, fun hm => hrest (mem_serials.1 hm)⟩

end Book

namespace Forwarder

variable {cfg : Config} {s s' : Forwarder cfg} {hand : List MsgPtr}

def ticket (s : Forwarder cfg) (q : QePtr) : Ticket := ((s.qe q).client, (s.qe q).serial)

def book (s : Forwarder cfg) : Book := ⟨s.queue.map s.ticket, note s.calls, s.accepted⟩

/-- The node is a root, and the link has none of its messages. -/
def AtRoot (s : Forwarder cfg) : Prop := s.isRoot = true ∧ s.pending = none

theorem note_append (l l' : List Call) : note (l ++ l') = note l ++ note l' := List.filter_append _ _

theorem book_eq (hq : s'.sendQueue = s.sendQueue) (hqe : s'.qe = s.qe)
    (hn : note s'.calls = note s.calls) (ha : s'.accepted = s.accepted) : s'.book = s.book := by
  have ht : s'.ticket = s.ticket := by
    funext q
    rw [ticket, hqe, ticket]
  rw [book, queue, hq, ht, hn, ha, book, queue]

/-- What is not a client's packet has no number. -/
theorem Placed.own (h : Placed hand s) (hk : s.book.Kept) {q : QePtr} (hq : q ∈ s.queue) :
    (s.qe q).client.toNat < cfg.clientCount ∨ (s.qe q).serial = none := by
  have ho := h.owned q hq
  cases q with
  | null => exact ho.elim
  | pool i => exact .inr (hk.foreign _ (List.mem_map.2 ⟨_, hq, rfl⟩) ho)
  | client i =>
    left
    rw [ho.2, client_toNat ho.1]
    exact ho.1

theorem Placed.pool_serial (h : Placed hand s) (hk : s.book.Kept) {q : QePtr} (hq : q ∈ s.queue)
    (hpool : q.isPool = true) : (s.qe q).serial = none := by
  cases q with
  | null => cases hpool
  | pool i => exact hk.foreign _ (List.mem_map.2 ⟨_, hq, rfl⟩) (h.owned _ hq)
  | client i => cases hpool

/-! ## The handlers, in the book -/

theorem packetComplete_book {q : QePtr} (msg : MsgPtr) (success : Bool)
    (h : (s.qe q).client.toNat < cfg.clientCount ∨ (s.qe q).serial = none) :
    (s.packetComplete q msg success).book =
      ⟨s.book.tickets, note [.sendDone (s.qe q).client (s.qe q).serial] ++ s.book.served,
        s.accepted⟩ := by
  rw [packetComplete]
  dsimp only
  split
  · exact congrArg (Book.mk s.book.tickets · s.accepted)
      (note_append [.sendDone (s.qe q).client (s.qe q).serial] s.calls)
  · next hno =>
    rw [h.resolve_left hno]
    cases success <;> rfl

theorem retire_book {q : QePtr} {rest : List QePtr} (hq : s.queue = q :: rest) (rand16 : UInt16) :
    (s.retire rand16).book = ⟨rest.map s.ticket, s.book.served, s.accepted⟩ :=
  congrArg (fun l : List QePtr => Book.mk (l.map s.ticket) s.book.served s.accepted)
    (QueueC.dequeue_cons hq).2

theorem retire_complete {q : QePtr} {rest : List QePtr} (hq : s.queue = q :: rest)
    (h : (s.qe q).client.toNat < cfg.clientCount ∨ (s.qe q).serial = none) (rand16 : UInt16)
    (msg : MsgPtr) (success : Bool) :
    ((s.retire rand16).packetComplete q msg success).book =
      ⟨rest.map s.ticket, note [.sendDone (s.qe q).client (s.qe q).serial] ++ note s.calls,
        s.accepted⟩ := by
  have ht : (s.retire rand16).book.tickets = rest.map s.ticket :=
    congrArg Book.tickets (retire_book hq rand16)
  have h' : ((s.retire rand16).qe q).client.toNat < cfg.clientCount ∨
      ((s.retire rand16).qe q).serial = none := h
  rw [packetComplete_book msg success h', ht]
  rfl

theorem note_cons (c : Call) (l l' : List Call) : note (c :: l) ++ note l' =
    note [c] ++ note (l ++ l') := by
  rw [← note_append, ← note_append, List.cons_append, List.singleton_append]

theorem subSendDone_ok {q : QePtr} {rest : List QePtr} (hq : s.queue = q :: rest)
    (h : (s.qe q).client.toNat < cfg.clientCount ∨ (s.qe q).serial = none) {msg : MsgPtr}
    (hack : (s.ackPending && !(s.mem msg).acked) = false) (rand16 : UInt16) :
    (s.subSendDone msg .success rand16).book = ⟨rest.map s.ticket,
      note [.sendDone (s.qe q).client (s.qe q).serial,
        .txAck (s.qe q).serial (s.mem msg).dst] ++ note s.calls, s.accepted⟩ := by
  rw [subSendDone, first_eq hq, note_cons]
  dsimp only
  rw [if_neg (by simp), hack, if_neg (by simp)]
  exact retire_complete (s := s.record (.txAck (s.qe q).serial (s.mem msg).dst)) hq h rand16 msg true

/-- However the packet at the head comes out, at a node that is no root or that the link has a
message of. -/
theorem subSendDone_turn {q : QePtr} {rest : List QePtr} (hq : s.queue = q :: rest)
    (h : (s.qe q).client.toNat < cfg.clientCount ∨ (s.qe q).serial = none) {here : Prop}
    (hno : (s.qe q).serial ≠ none → ¬here) (msg : MsgPtr) (error : TinyError) (rand16 : UInt16) :
    Book.Turn here s.book (s.subSendDone msg error rand16).book := by
  have hbook : s.book = ⟨s.ticket q :: rest.map s.ticket, note s.calls, s.accepted⟩ := by
    rw [book, hq, List.map_cons]
  have hleave {l : List Call} (hl : ∀ c ∈ l, c.serial = (s.qe q).serial) :
      Book.Turn here s.book ⟨rest.map s.ticket, note l ++ note s.calls, s.accepted⟩ := by
    rw [hbook]
    exact .leave _ _ _ hl fun hsome hhere => absurd hhere (hno hsome)
  by_cases herr : error = .success
  · subst herr
    cases hack : s.ackPending && !(s.mem msg).acked with
    | false =>
      rw [subSendDone_ok hq h hack]
      exact hleave (by simp [Call.serial])
    | true =>
      let c : Call := .txNoAck (s.qe q).serial (s.mem msg).dst
      let e : FeQueueEntry := { s.qe q with retries := (s.qe q).retries - 1 }
      let t : Forwarder cfg := ((s.record c).record .recomputeRoutes).setQe q e
      have hqe : (t.qe q).client = (s.qe q).client ∧ (t.qe q).serial = (s.qe q).serial := by
        rw [show t.qe q = e from Function.update_self _ _ _]
        exact ⟨rfl, rfl⟩
      have hticket : t.ticket = s.ticket := by
        funext y
        by_cases hy : y = q
        · rw [hy, ticket, hqe.1, hqe.2, ticket]
        · rw [ticket, show t.qe y = s.qe y from Function.update_of_ne hy _ _, ticket]
      have ht : s.subSendDone msg .success rand16 =
          if (t.qe q).retries ≠ 0 then
            t.startRetxmitTimer rand16 cfg.forwardPacketTime cfg.forwardPacketTime
          else (t.retire rand16).packetComplete q msg false := by
        rw [subSendDone, first_eq hq]
        dsimp only
        rw [if_neg (by simp), hack, if_pos rfl]
        rfl
      have hcalls : note t.calls = note [c] ++ note s.calls := note_append [c] s.calls
      rw [ht]
      split
      · have hb : (t.startRetxmitTimer rand16 cfg.forwardPacketTime cfg.forwardPacketTime).book =
            ⟨s.ticket q :: rest.map s.ticket, note [c] ++ note s.calls, s.accepted⟩ := by
          show Book.mk (s.queue.map t.ticket) (note t.calls) s.accepted = _
          rw [hq, hticket, hcalls, List.map_cons]
        rw [hb, hbook]
        exact .attempt _ _ _ (by simp [c, Call.serial, ticket]) hno
      · rw [retire_complete (s := t) hq (by rw [hqe.1, hqe.2]; exact h), hticket, hcalls, hqe.1, hqe.2]
        rw [← List.append_assoc, ← note_append]
        exact hleave (by simp [c, Call.serial])
  · rw [subSendDone, if_pos herr]
    exact .keep _

theorem swap_keeps (s : Forwarder cfg) (msg back : MsgPtr) :
    (s.swap msg back).2.sendQueue = s.sendQueue ∧ (s.swap msg back).2.ackPending = s.ackPending ∧
    (s.swap msg back).2.mem = s.mem ∧ (s.swap msg back).2.accepted = s.accepted ∧
    (s.swap msg back).2.calls = s.calls := by
  rw [swap]
  split <;> exact ⟨rfl, rfl, rfl, rfl, rfl⟩

/-- The loopback comes to a `SubSend.sendDone` in a state like this one, but for the call. -/
theorem Placed.loopback_eq (h : Placed [] s) {q : QePtr} (hq : q ∈ s.queue) (a : Answers) :
    ∃ t : Forwarder cfg, s.loopback q a = t.subSendDone (s.msgOf q) .success a.rand16 ∧
      t.sendQueue = s.sendQueue ∧ t.qe = s.qe ∧ t.ackPending = s.ackPending ∧
      t.mem (s.msgOf q) = s.mem (s.msgOf q) ∧ t.accepted = s.accepted ∧
      t.calls = .receive (s.qe q).serial (s.mem (s.msgOf q)) :: s.calls := by
  have hne : s.msgOf q ≠ s.loopbackMsgPtr := h.msg_ne hq (by simp [loose])
  let r := ((s.setMsg s.loopbackMsgPtr (s.mem (s.msgOf q))).record
    (.receive (s.qe q).serial (s.mem (s.msgOf q)))).swap s.loopbackMsgPtr a.back
  have hqe : r.2.qe = s.qe := swap_qe _ _ _
  have hmsg : r.2.msgOf q = s.msgOf q := congrArg FeQueueEntry.msg (congrFun hqe q)
  refine ⟨{ r.2 with loopbackMsgPtr := r.1 }, ?_, ?_⟩
  · rw [← hmsg]
    rfl
  · obtain ⟨h₁, h₂, h₃, h₄, h₅⟩ := swap_keeps ((s.setMsg s.loopbackMsgPtr (s.mem (s.msgOf q))).record
      (.receive (s.qe q).serial (s.mem (s.msgOf q)))) s.loopbackMsgPtr a.back
    exact ⟨h₁, hqe, h₂, (congrFun h₃ _).trans (Function.update_of_ne hne _ _), h₄, h₅⟩

/-- A client's packet is received and completed, unless its acknowledgement is taken to be missing. -/
theorem Placed.loopback_own (h : Placed [] s) (hk : s.book.Kept) {q : QePtr} {rest : List QePtr}
    (hq : s.queue = q :: rest) (a : Answers)
    (hacked : s.ackPending = true → (s.mem (s.msgOf q)).acked = true) :
    ∃ dst, (s.loopback q a).book = ⟨rest.map s.ticket,
      note [.sendDone (s.qe q).client (s.qe q).serial, .txAck (s.qe q).serial dst,
        .receive (s.qe q).serial (s.mem (s.msgOf q))] ++ note s.calls, s.accepted⟩ := by
  have hmem : q ∈ s.queue := hq ▸ .head _
  obtain ⟨t, he, hqueue, hqe, hack, hmsg, hacc, hcalls⟩ := h.loopback_eq hmem a
  have hown := h.own hk hmem
  rw [← hqe] at hown
  have hticket : t.ticket = s.ticket := by
    funext y
    rw [ticket, hqe, ticket]
  have hack' : (t.ackPending && !(t.mem (s.msgOf q)).acked) = false := by
    rw [hack, hmsg]
    cases hp : s.ackPending with
    | false => rfl
    | true => rw [hacked hp]; rfl
  have hnote (c c' c'' : Call) : note [c, c'] ++ note (c'' :: s.calls) =
      note [c, c', c''] ++ note s.calls := by
    rw [← note_append, ← note_append]
    rfl
  refine ⟨(t.mem (s.msgOf q)).dst, ?_⟩
  rw [he, subSendDone_ok ((congrArg QueueC.toList hqueue).trans hq) hown hack', hcalls, hticket, hacc,
    hqe, hnote]

theorem Placed.loopback_turn (h : Placed [] s) (hk : s.book.Kept) {q : QePtr} {rest : List QePtr}
    (hq : s.queue = q :: rest) (a : Answers)
    (hclean : q.isPool = false → s.ackPending = true → (s.mem (s.msgOf q)).acked = true)
    {here : Prop} : Book.Turn here s.book (s.loopback q a).book := by
  have hmem : q ∈ s.queue := hq ▸ .head _
  cases hpool : q.isPool with
  | true =>
    obtain ⟨t, he, hqueue, hqe, -, -, hacc, hcalls⟩ := h.loopback_eq hmem a
    have hnone := h.pool_serial hk hmem hpool
    have hbook : t.book = s.book := by
      refine book_eq hqueue hqe ?_ hacc
      rw [hcalls, hnone]
      rfl
    have hown := h.own hk hmem
    rw [← hqe] at hown hnone
    rw [he, ← hbook]
    exact subSendDone_turn ((congrArg QueueC.toList hqueue).trans hq) hown
      (fun hsome => absurd hnone hsome) _ _ _
  | false =>
    obtain ⟨dst, hb⟩ := h.loopback_own hk hq a (hclean hpool)
    have hbook : s.book = ⟨s.ticket q :: rest.map s.ticket, note s.calls, s.accepted⟩ := by
      rw [book, hq, List.map_cons]
    rw [hb, hbook]
    exact .leave _ _ _ (by simp [Call.serial, ticket]) fun _ _ => ⟨_, _, rfl⟩

/-! ## Steps -/

/-- `sendTask` would find nothing wrong: the packet at the head is not a client's that is in the
cache, and if the node is a root, the link is not sending it, and no acknowledgement is missing for it. -/
def Clean (s : Forwarder cfg) : Prop :=
  (s.sendQueue.first.isPool = false →
    s.sentCache.lookup (s.mem (s.msgOf s.sendQueue.first)) = false ∧
    (s.isRoot = true → s.ackPending = true → (s.mem (s.msgOf s.sendQueue.first)).acked = true)) ∧
  (s.isRoot = true → s.pending = none)

instance : Decidable s.Clean := inferInstanceAs (Decidable ((_ → _ ∧ (_ → _ → _)) ∧ (_ → _)))

/-- Every `sendTask` that comes to a packet finds nothing wrong. -/
def Clears (s : Forwarder cfg) : Event → Prop
  | .sendTask a => s.Ready a = true → s.Clean
  | _ => True

instance (s : Forwarder cfg) : DecidablePred s.Clears
  | .sendTask _ => inferInstanceAs (Decidable (_ → _))
  | .start | .stop | .startDone _ | .stopDone _ | .routeFound | .setRoot | .unsetRoot | .send ..
  | .retxmitTimerFired | .subSendDone .. | .receive .. | .snoop .. => .isTrue trivial

theorem Clears.safe {e : Event} (h : s.Clears e) : s.Safe e := by
  cases e with
  | sendTask a => exact fun hready => ⟨fun hc => ((h hready).1 hc).1, (h hready).2⟩
  | _ => trivial

/-- While a packet is being sent, the timer is running or the link has a message. -/
def Timed (s : Forwarder cfg) : Prop :=
  s.sending = true → s.retxmitTimer.isRunning = true ∨ s.pending.isSome = true

/-- What a step does: a turn of the book; and when another packet gets to the head, the link has no
message and the forwarder is armed. -/
structure Stepped (s s' : Forwarder cfg) : Prop where
  turn : Book.Turn s.AtRoot s.book s'.book
  pending : s.AtRoot ∨ s.queue = [] → s'.pending = none
  timed : s.Timed → s'.Timed
  reach : s.queue ≠ [] → s'.book.tickets.head? ≠ s.book.tickets.head? →
    s'.pending = none ∧ s'.Armed

theorem Timed.congr (h : s.Timed) (hs : s'.sending = s.sending)
    (ht : s'.retxmitTimer = s.retxmitTimer) (hp : s'.pending = s.pending) : s'.Timed := by
  rw [Timed, hs, ht, hp]
  exact h

/-- The link has no message of a root of this kind, and none of an empty queue. -/
def Settled (s : Forwarder cfg) : Prop := s.AtRoot ∨ s.queue = [] → s.pending = none

theorem Sound.settled (h : Sound s) : s.Settled := by
  intro hi
  rcases hi with hi | hempty
  · exact hi.2
  · cases hp : s.pending with
    | none => rfl
    | some m =>
      obtain ⟨q, rest, hq, -⟩ := h.link m hp
      cases hempty.symm.trans hq

theorem Settled.still (h : s.Settled) (hb : s'.book = s.book) (hp : s'.pending = s.pending)
    (ht : s.Timed → s'.Timed) : Stepped s s' where
  turn := hb ▸ .keep _
  pending hi := hp.trans (h hi)
  timed := ht
  reach _ hne := absurd (congrArg (·.tickets.head?) hb) hne

/-- A packet comes to the end of the queue. -/
theorem Settled.joined (h : s.Settled) {t : Ticket} (hb : s'.book.tickets = s.book.tickets ++ [t])
    (hturn : Book.Turn s.AtRoot s.book ⟨s.book.tickets ++ [t], note s'.calls, s'.accepted⟩)
    (hp : s'.pending = s.pending) (ht : s.Timed → s'.Timed) : Stepped s s' where
  turn := by
    rw [← hb] at hturn
    exact hturn
  pending hi := hp.trans (h hi)
  timed := ht
  reach hne hhead := by
    refine absurd ?_ hhead
    obtain ⟨q, rest, hq⟩ := List.exists_cons_of_ne_nil hne
    rw [hb, book, hq]
    rfl

theorem Entered.tickets {q : QePtr} {e : FeQueueEntry} (hs : Entered q e s s') (hq : q ∉ s.queue) :
    s'.book.tickets = s.book.tickets ++ [(e.client, e.serial)] := by
  have hold : s.queue.map s'.ticket = s.queue.map s.ticket := by
    refine List.map_congr_left fun y hy => ?_
    rw [ticket, hs.qe_old hq hy, ticket]
  have hnew : s'.ticket q = (e.client, e.serial) := by
    rw [ticket, hs.qe, Function.update_self]
  rw [book, hs.queue, List.map_append, hold, List.map_singleton, hnew]
  rfl

theorem suppress_book {q : QePtr} {rest : List QePtr} (hq : s.queue = q :: rest) :
    (s.suppress q).book = ⟨rest.map s.ticket, note s.calls, s.accepted⟩ :=
  congrArg (fun l : List QePtr => Book.mk (l.map s.ticket) (note s.calls) s.accepted)
    (QueueC.dequeue_cons hq).2

/-- The task is posted again, and nothing else happens to what runs it. -/
theorem suppress_frame (s : Forwarder cfg) (q : QePtr) :
    (s.suppress q).pending = s.pending ∧ (s.suppress q).sending = s.sending ∧
      (s.suppress q).retxmitTimer = s.retxmitTimer ∧ (s.suppress q).sendPosted = true := by
  simp only [suppress, dequeue, putMessage, putQEntry, postSend, record, and_self]

theorem Sound.stepped_sendTask (h : Sound s) (hk : s.book.Kept) {a : Answers}
    (hc : s.Ready a = true → s.Clean) : Stepped s (s.sendTask a) := by
  rcases s.sendTask_cases a with ⟨-, ⟨-, he⟩ | he⟩ | ⟨hready, q, rest, gradient, hq, -, hcases⟩
  · rw [he]
    exact h.settled.still rfl rfl id
  · rw [he]
    exact h.settled.still rfl rfl fun _ _ => .inl rfl
  · obtain ⟨hclient, hroot⟩ := hc hready
    rw [first_eq hq] at hclient
    have hmem : q ∈ s.queue := hq ▸ .head _
    have hbook : s.book = ⟨s.ticket q :: rest.map s.ticket, note s.calls, s.accepted⟩ := by
      rw [book, hq, List.map_cons]
    rcases hcases with ⟨hl, he⟩ | ⟨-, hr, he⟩ | ⟨-, hr, he⟩
    · -- a packet in the cache is one that was forwarded, and the link is not sending it
      have hpool : q.isPool = true := by
        by_contra hn
        cases hl.symm.trans (hclient (Bool.eq_false_iff.2 hn)).1
      have hpend : s.pending = none := by
        cases hp : s.pending with
        | none => rfl
        | some m =>
          obtain ⟨q', rest', hq', rfl, hl'⟩ := h.link m hp
          cases hq.symm.trans hq'
          cases hl.symm.trans (hl' hpool)
      have hnone := h.placed.pool_serial hk hmem hpool
      obtain ⟨hp, hsend, htimer, hposted⟩ := suppress_frame s q
      rw [he]
      refine ⟨?_, fun _ => hp.trans hpend, fun ht => ht.congr hsend htimer hp,
        fun _ _ => ⟨hp.trans hpend, .inl hposted⟩⟩
      rw [suppress_book hq, hbook]
      exact .leave (l := []) _ _ _ nofun fun hsome => absurd hnone hsome
    · have hpend := (loopback_pending s q a).trans (hroot hr)
      have htimer : (s.loopback q a).retxmitTimer.isRunning = true := subSendDone_timer _ _ _ _
      rw [he]
      exact ⟨h.placed.loopback_turn hk hq a fun hp => (hclient hp).2 hr, fun _ => hpend,
        fun _ _ => .inl htimer, fun _ _ => ⟨hpend, .inr (.inl htimer)⟩⟩
    · have ht := transmit_spec s q gradient a
      obtain ⟨len, ret, hcalls⟩ := ht.calls
      have hticket : (s.transmit q gradient a).ticket = s.ticket := by
        funext y
        rw [ticket, ht.same.qe, ticket]
      have hbook' : (s.transmit q gradient a).book = ⟨s.ticket q :: rest.map s.ticket,
          note [.subSend (s.qe q).serial a.nextHop len ret] ++ note s.calls, s.accepted⟩ := by
        rw [book, queue, ht.same.sendQueue, hticket, hcalls, ht.accepted, ← note_append,
          show s.sendQueue.toList = q :: rest from hq]
        rfl
      have hnot : ¬s.AtRoot := fun hroot' => by cases hr.symm.trans hroot'.1
      rw [he]
      refine ⟨?_, ?_, ?_, fun _ hhead => absurd ?_ hhead⟩
      · rw [hbook', hbook]
        exact .attempt _ _ _ (by simp [Call.serial, ticket]) fun _ => hnot
      · rintro (hroot' | hempty)
        · exact absurd hroot' hnot
        · cases hempty.symm.trans hq
      · intro htimed hsend
        cases ht.outcome with
        | accepted _ _ _ hp _ => rw [hp]; exact .inr rfl
        | truncated _ hs hp _ =>
          rw [ht.retxmitTimer, hp]
          exact htimed (hs ▸ hsend)
        | refused _ _ hs hp _ =>
          rw [ht.retxmitTimer, hp]
          exact htimed (hs ▸ hsend)
      · rw [hbook', hbook]

theorem Sound.stepped_clientSend {client : Nat} {msg : MsgPtr} {len : UInt8} (h : Sound s)
    (hs : s.clientSend client msg len = some s') : Stepped s s' := by
  obtain ⟨⟨hi, hmsg⟩, hs⟩ := Option.ite_none_right_eq_some.1 hs
  cases hs
  rcases h.placed.send_cases hi msg len with ⟨hret, hr⟩ | ⟨hp, hret, ha⟩
  · dsimp only
    rw [if_neg hret]
    exact h.settled.still (book_eq hr.same.sendQueue hr.same.qe (congrArg note hr.calls) hr.accepted) hr.pending
      fun ht => ht.congr hr.sending hr.retxmitTimer hr.pending
  · dsimp only
    rw [if_pos hret]
    have htickets := ha.toEntered.tickets (h.placed.client_not_mem hi hp).2
    have hclient : client.toUInt8 ≠ 0xff := by
      intro he
      have hto := client_toNat hi
      rw [he] at hto
      have := cfg.clientCount_le
      change 255 = client at hto
      omega
    have hturn : Book.Turn s.AtRoot s.book ⟨s.book.tickets ++ [(client.toUInt8, some s.accepted)],
        note (s.send client msg len).2.calls, (s.send client msg len).2.accepted⟩ := by
      rw [ha.calls, ha.accepted]
      exact .accept _ _ _ hclient
    have hstepped : Stepped s (s.send client msg len).2 :=
      h.settled.joined htickets hturn ha.pending fun ht => ht.congr ha.sending ha.retxmitTimer ha.pending
    exact ⟨hstepped.turn, hstepped.pending, hstepped.timed, hstepped.reach⟩

theorem Settled.subReceive {msg : MsgPtr} (h : s.Settled) (hp : Placed [msg] s) (a : Answers) :
    Stepped s (s.subReceive msg a).2 := by
  rcases hp.receive_cases a with ⟨-, hr⟩ | ⟨-, s₁, m, hr, he⟩ | ⟨i, newMsg, -, hf⟩
  · exact h.still (book_eq hr.same.sendQueue hr.same.qe (congrArg note hr.calls) hr.accepted) hr.pending
      fun ht => ht.congr hr.sending hr.retxmitTimer hr.pending
  · obtain ⟨h₁, -, -, h₄, h₅⟩ := swap_keeps (s₁.record (.receive none m)) msg a.back
    have hst := swap_still (s₁.record (.receive none m)) msg a.back
    rw [he]
    refine h.still (book_eq (h₁.trans hr.same.sendQueue) ((swap_qe _ _ _).trans hr.same.qe) ?_
      (h₄.trans hr.accepted)) (hst.pending.trans hr.pending) fun ht => ht.congr
        (hst.sending.trans hr.sending) (hst.retxmitTimer.trans hr.retxmitTimer)
        (hst.pending.trans hr.pending)
    rw [h₅]
    exact (congrArg note hr.calls : note s₁.calls = _)
  · obtain ⟨l, hcalls, hl⟩ := hf.calls
    have hnote : note l = [] := by
      refine List.filter_eq_nil_iff.2 fun c hc => ?_
      rw [hl c hc]
      nofun
    refine h.joined (hf.toEntered.tickets (hp.not_mem_of_free hf.qEntryPool)) ?_ hf.pending
      fun ht hsend => (ht (hf.sending ▸ hsend)).imp hf.timer fun hp => hf.pending ▸ hp
    rw [hcalls, hf.accepted, note_append, hnote]
    exact .forward _ _ _

theorem Settled.subSnoop (h : s.Settled) (msg : MsgPtr) (a : Answers) :
    Stepped s (s.subSnoop msg a).2 := by
  have hswap (t : Forwarder cfg) (hb : t.book = s.book) (hp : t.pending = s.pending)
      (hsend : t.sending = s.sending) (htimer : t.retxmitTimer = s.retxmitTimer) :
      Stepped s (t.swap msg a.back).2 := by
    obtain ⟨h₁, -, -, h₄, h₅⟩ := swap_keeps t msg a.back
    have hst := swap_still t msg a.back
    exact h.still ((book_eq h₁ (swap_qe _ _ _) (congrArg note h₅) h₄).trans hb) (hst.pending.trans hp)
      fun ht => ht.congr (hst.sending.trans hsend) (hst.retxmitTimer.trans htimer)
        (hst.pending.trans hp)
  rw [Forwarder.subSnoop]
  split <;> exact hswap _ rfl rfl rfl rfl

/-- A frame that arrives, whatever the handler does with it. -/
theorem Sound.stepped_arrive {msg : MsgPtr} {frame : Message}
    {f : Forwarder cfg → MsgPtr × Forwarder cfg} (h : Sound s) (hs : s.arrive msg frame f = some s')
    (hf : ∀ s₁ : Forwarder cfg, Placed [msg] s₁ → s₁.Settled → Stepped s₁ (f s₁).2) :
    Stepped s s' := by
  obtain ⟨hm, hs⟩ := Option.ite_none_right_eq_some.1 hs
  cases hs
  have hst := hf _ (h.placed.arrive hm frame) h.settled
  exact ⟨hst.turn, hst.pending, hst.timed, hst.reach⟩

theorem Sound.stepped {e : Event} (h : Sound s) (hk : s.book.Kept) (hc : s.Clears e)
    (hs : s.step e = some s') : Stepped s s' := by
  cases e with
  | start | stop | routeFound | setRoot | unsetRoot =>
    cases hs
    exact h.settled.still rfl rfl id
  | startDone error =>
    cases hs
    rw [startDone]
    dsimp only
    split
    · split <;> exact h.settled.still rfl rfl id
    · exact h.settled.still rfl rfl id
  | stopDone error =>
    cases hs
    rw [stopDone]
    split <;> exact h.settled.still rfl rfl id
  | send client msg len => exact h.stepped_clientSend hs
  | sendTask a =>
    obtain ⟨-, hs⟩ := Option.ite_none_right_eq_some.1 hs
    cases hs
    have hp := h.placed
    have h₁ : Sound { s with sendPosted := false } :=
      ⟨⟨hp.entries, hp.nodup, hp.owned, hp.idle, hp.messages, hp.count, hp.calls⟩, h.link⟩
    have hst := h₁.stepped_sendTask hk hc
    exact ⟨hst.turn, hst.pending, hst.timed, hst.reach⟩
  | retxmitTimerFired =>
    obtain ⟨-, hs⟩ := Option.ite_none_right_eq_some.1 hs
    cases hs
    exact h.settled.still rfl rfl (by rintro _ ⟨⟩)
  | subSendDone error acked rand16 =>
    cases hpend : s.pending with
    | none =>
      rw [Forwarder.step, hpend] at hs
      cases hs
    | some msg =>
      rw [Forwarder.step, hpend] at hs
      cases hs
      obtain ⟨q, rest, hq, rfl, -⟩ := h.link msg hpend
      have hnot : ¬s.AtRoot := fun hroot => by cases hpend.symm.trans hroot.2
      have hmem : q ∈ s.queue := hq ▸ .head _
      have hown := h.placed.own hk hmem
      have hidle := subSendDone_pending ({ s with pending := none }.setMsg (s.msgOf q)
        { s.mem (s.msgOf q) with acked := acked }) (s.msgOf q) error rand16
      have htimer := subSendDone_timer ({ s with pending := none }.setMsg (s.msgOf q)
        { s.mem (s.msgOf q) with acked := acked }) (s.msgOf q) error rand16
      refine ⟨?_, fun _ => hidle, fun _ _ => .inl htimer, fun _ _ => ⟨hidle, .inr (.inl htimer)⟩⟩
      exact subSendDone_turn (s := { s with pending := none }.setMsg (s.msgOf q)
        { s.mem (s.msgOf q) with acked := acked }) hq hown (fun _ => hnot) (s.msgOf q) error
        rand16
  | receive msg frame a =>
    have hs' : s.arrive msg frame (·.subReceive msg a) = some s' := hs
    exact h.stepped_arrive hs' fun _ hp hi => hi.subReceive hp a
  | snoop msg frame a =>
    have hs' : s.arrive msg frame (·.subSnoop msg a) = some s' := hs
    exact h.stepped_arrive hs' fun _ _ hi => hi.subSnoop msg a

/-! ## Runs -/

/-- What holds in every run whose steps are `Clears`. -/
structure Serving (s : Forwarder cfg) : Prop where
  sound : Sound s
  kept : s.book.Kept
  timed : s.Timed

theorem serving_boot (cfg : Config) : Serving (boot cfg) where
  sound := sound_boot cfg
  kept := by
    have hbook : (boot cfg).book = ⟨[], [], 0⟩ := by rw [book, queue_boot]; rfl
    rw [hbook]
    exact ⟨.nil, nofun, nofun, nofun, nofun⟩
  timed := nofun

theorem Serving.step {e : Event} (h : Serving s) (hc : s.Clears e) (hs : s.step e = some s') :
    Serving s' :=
  have hst := h.sound.stepped h.kept hc hs
  ⟨h.sound.step hc.safe hs, h.kept.turn hst.turn, hst.timed h.timed⟩

/-- Packet `n`, of `client`, is at the head of a root's queue, and nothing has been done about it. -/
structure Waiting (client : UInt8) (n : Nat) (s : Forwarder cfg) : Prop where
  head : s.book.tickets.head? = some (client, some n)
  atRoot : s.AtRoot
  untouched : s.book.about n = []

/-- Packet `n` has been received once and completed once, and nothing else has been done about it. -/
def Delivered (client : UInt8) (n : Nat) (s : Forwarder cfg) : Prop :=
  ∃ dst m, s.book.about n =
    [.sendDone client (some n), .txAck (some n) dst, .receive (some n) m]

variable {client : UInt8} {n : Nat}

/-- The packet waits and the forwarder moves, or it is delivered for good. -/
def Phase (client : UInt8) (n : Nat) (s : Forwarder cfg) : Prop :=
  s.Waiting client n ∧ s.Moving ∨
    s.Delivered client n ∧ n < s.book.accepted ∧ n ∉ s.book.serials

theorem Waiting.undelivered (h : s.Waiting client n) : ¬s.Delivered client n := by
  rintro ⟨dst, m, hd⟩
  cases h.untouched.symm.trans hd

theorem Phase.step {e : Event} (h : Serving s) (hp : s.Phase client n) (hc : s.Clears e)
    (hroot : e = .unsetRoot → s.Delivered client n) (hs : s.step e = some s') :
    s'.Phase client n := by
  have hst := h.sound.stepped h.kept hc hs
  rcases hp with ⟨hw, hm⟩ | ⟨⟨dst, m, hd⟩, hlt, hgone⟩
  · have hne : e ≠ .unsetRoot := fun he => hw.undelivered (hroot he)
    have hisRoot : s'.isRoot = true := by
      by_cases he : e = .setRoot
      · subst he
        cases hs
        rfl
      · rw [step_isRoot h.sound hs he hne]
        exact hw.atRoot.1
    rcases hst.turn.front h.kept hw.atRoot hw.head with ⟨hhead, habout⟩ | ⟨⟨dst, m, habout⟩, hgone⟩
    · refine .inl ⟨⟨hhead, ⟨hisRoot, hst.pending (.inl hw.atRoot)⟩, habout.trans hw.untouched⟩, ?_⟩
      have hretries : s.Retries e := by
        cases e with
        | sendTask a =>
          intro _ hno
          cases hno.symm.trans hw.atRoot.1
        | _ => trivial
      exact (Live.step ⟨hm, h.timed⟩ hretries hs).moving
    · rw [hw.untouched] at habout
      exact .inr ⟨⟨dst, m, habout⟩, hgone⟩
  · obtain ⟨hlt', hgone', habout⟩ := hst.turn.gone h.kept hlt hgone
    exact .inr ⟨⟨dst, m, habout.trans hd⟩, hlt', hgone'⟩

/-- A packet gets to the head of a root's queue. -/
theorem Serving.reach {e : Event} (h : Serving s) (hc : s.Clears e) (hs : s.step e = some s')
    (hbefore : s.book.tickets.head? ≠ some (client, some n))
    (hhead : s'.book.tickets.head? = some (client, some n)) (hroot : s'.isRoot = true) :
    s'.Phase client n := by
  have hst := h.sound.stepped h.kept hc hs
  have habout := hst.turn.reach h.kept hbefore hhead
  by_cases hempty : s.queue = []
  · refine .inl ⟨⟨hhead, ⟨hroot, hst.pending (.inr hempty)⟩, habout⟩, ?_⟩
    have hlive : Live s := ⟨fun _ hne => absurd hempty hne, h.timed⟩
    have hretries : s.Retries e := by
      cases e with
      | sendTask a =>
        intro hready
        rw [Ready, (QueueC.empty_iff _).2 hempty] at hready
        simp at hready
      | _ => trivial
    exact (hlive.step hretries hs).moving
  · have hne : s'.book.tickets.head? ≠ s.book.tickets.head? := fun he => hbefore (he.symm.trans hhead)
    obtain ⟨hpend, harmed⟩ := hst.reach hempty hne
    exact .inl ⟨⟨hhead, ⟨hroot, hpend⟩, habout⟩, fun _ _ => harmed⟩

/-! ## The packet does not wait for ever -/

/-- The events that serve the queue: the timer fires, and `sendTask` runs while the routing engine
knows its metric. -/
def Event.Serves : Event → Prop
  | .retxmitTimerFired => True
  | .sendTask a => a.etx.isSome = true
  | _ => False

/-- `sendTask` delivers the packet. -/
theorem Waiting.leads_posted (h : Serving s) (hw : s.Waiting client n) (hc : s.Clean)
    (hidle : s.sending = false) (hpost : s.sendPosted = true) :
    (machine cfg).Leads Event.Serves (Delivered client n) s := by
  refine .step (e := .sendTask {}) rfl (if_pos hpost) (.here ?_)
  obtain ⟨hclient, -⟩ := hc
  cases hqueue : s.queue with
  | nil =>
    have hhead := hw.head
    rw [book, hqueue] at hhead
    cases hhead
  | cons q rest =>
    have hmem : q ∈ s.queue := hqueue ▸ .head _
    have hhead := hw.head
    rw [book, hqueue] at hhead
    have hticket : s.ticket q = (client, some n) := Option.some.inj hhead
    have hpool : q.isPool = false := by
      cases hp : q.isPool with
      | false => rfl
      | true =>
        cases (h.sound.placed.pool_serial h.kept hmem hp).symm.trans (congrArg Prod.snd hticket)
    rw [first_eq hqueue] at hclient
    have hp := h.sound.placed
    have h₁ : Placed [] { s with sendPosted := false } :=
      ⟨hp.entries, hp.nodup, hp.owned, hp.idle, hp.messages, hp.count, hp.calls⟩
    have hready : Ready { s with sendPosted := false } {} = true := by
      have hne : s.sendQueue.empty = false := by
        rw [Bool.eq_false_iff]
        intro he
        cases hqueue.symm.trans ((QueueC.empty_iff _).1 he)
      show (!(s.sending || s.sendQueue.empty) && true && (s.isRoot || true)) = true
      rw [hidle, hne]
      simp
    rcases sendTask_cases { s with sendPosted := false } {} with
      ⟨hno, -⟩ | ⟨-, q', rest', gradient, hq, -, hcases⟩
    · cases hready.symm.trans hno
    · cases hqueue.symm.trans hq
      rcases hcases with ⟨hl, -⟩ | ⟨-, -, he⟩ | ⟨-, hr, -⟩
      · cases hl.symm.trans (hclient hpool).1
      · obtain ⟨dst, hb⟩ := h₁.loopback_own h.kept hq {} ((hclient hpool).2 hw.atRoot.1)
        have hcl : (s.qe q).client = client := congrArg Prod.fst hticket
        have hserial : (s.qe q).serial = some n := congrArg Prod.snd hticket
        have habout := Book.about_note_self (n := n) (l := [.sendDone client (some n),
          .txAck (some n) dst, .receive (some n) (s.mem (s.msgOf q))]) (by simp [Call.serial])
          s.book.tickets (rest.map s.ticket) (note s.calls) s.accepted
        refine ⟨dst, s.mem (s.msgOf q), ?_⟩
        rw [he, hb]
        show Book.about ⟨_, note [.sendDone (s.qe q).client (s.qe q).serial,
          .txAck (s.qe q).serial dst, .receive (s.qe q).serial _] ++ _, _⟩ n = _
        rw [hcl, hserial]
        exact habout.trans (congrArg (_ ++ ·) hw.untouched)
      · cases hr.symm.trans hw.atRoot.1

theorem Waiting.leads (h : Serving s) (hw : s.Waiting client n) (hm : s.Moving) (hc : s.Clean)
    (hr : s.radioOn = true) : (machine cfg).Leads Event.Serves (Delivered client n) s := by
  have htimer (ht : s.retxmitTimer.isRunning = true) :
      (machine cfg).Leads Event.Serves (Delivered client n) s := by
    refine .step (e := .retxmitTimerFired) trivial (if_pos ht) ?_
    exact Waiting.leads_posted (h.step (e := .retxmitTimerFired) trivial (if_pos ht))
      ⟨hw.head, hw.atRoot, hw.untouched⟩ hc rfl rfl
  have hno : ¬s.pending.isSome = true := by
    rw [hw.atRoot.2]
    nofun
  cases hsend : s.sending with
  | true => exact htimer ((h.timed hsend).resolve_right hno)
  | false =>
    have hne : s.queue ≠ [] := by
      intro hempty
      have hhead := hw.head
      rw [book, hempty] at hhead
      cases hhead
    rcases hm hr hne with hpost | ht | hp
    · exact hw.leads_posted h hc hsend hpost
    · exact htimer ht
    · exact absurd hp hno

/-- **A root delivers its own packets once.** A packet of `client` gets to the head of a root's queue. In
every state of every run from there, unless root is given up before, the packet has been received once
and completed once and nothing else has been done about it; or nothing at all has been done about it
yet, and the events that serve the queue lead to its delivery. -/
theorem root_delivers {h h' : List (Forwarder cfg × Event)} {e : Event} {s₁ : Forwarder cfg}
    (hr : (machine cfg).Run (h' ++ (s, e) :: h) s')
    (hc : ∀ p ∈ h' ++ (s, e) :: h, p.1.Clears p.2) (hs : s.step e = some s₁)
    (hbefore : s.book.tickets.head? ≠ some (client, some n))
    (hhead : s₁.book.tickets.head? = some (client, some n)) (hroot : s₁.isRoot = true)
    (hstay : ∀ p ∈ h', p.2 = .unsetRoot → p.1.Delivered client n) :
    s'.Delivered client n ∨ s'.Waiting client n ∧
      (s'.radioOn = true → s'.Clean →
        (machine cfg).Leads Event.Serves (Delivered client n) s') := by
  have hserving : Serving s := by
    refine (hr.before.inv_of_steps (P := Serving) (C := Clears) ?_ ?_ ?_).1
    · rintro _ rfl
      exact serving_boot cfg
    · exact fun _ _ _ h hc hs => h.step hc hs
    · exact fun p hp => hc p (List.mem_append_right _ (.tail _ hp))
  have hclears : s.Clears e := hc _ (List.mem_append_right _ (.head _))
  have hphase := hr.after (P := fun t => Serving t ∧ t.Phase client n)
    (C := fun t e => t.Clears e ∧ (e = .unsetRoot → t.Delivered client n))
    (fun _ _ _ h hc hs => ⟨h.1.step hc.1 hs, h.2.step h.1 hc.1 hc.2 hs⟩) hs
    ⟨hserving.step hclears hs, hserving.reach hclears hs hbefore hhead hroot⟩
    (fun p hp => ⟨hc p (List.mem_append_left _ hp), hstay p hp⟩)
  rcases hphase with ⟨h', ⟨hw, hm⟩ | ⟨hd, -⟩⟩
  · exact .inr ⟨hw, fun hradio hclean => hw.leads h' hm hclean hradio⟩
  · exact .inl hd

/-- The last step of a run is one of a root whose queue the packet of its client comes to head. -/
def headsAtRoot (h : List (Forwarder exampleConfig × Event)) (s : Forwarder exampleConfig) : Bool :=
  match h with
  | p₁ :: p :: h =>
    (p₁ :: p :: h).all (fun p => p.1.Clears p.2) && p₁.2 ≠ .unsetRoot &&
      p.1.book.tickets.head? ≠ some (0, some 0) && p₁.1.book.tickets.head? = some (0, some 0) &&
      p₁.1.isRoot && s.book.tickets = []
  | _ => false

/-- A root delivers the packet of its client. -/
theorem root_delivers_one : ∃ h s, (machine exampleConfig).Run h s ∧ s.Delivered 0 0 := by
  obtain ⟨h, s, hr, hs⟩ := Machine.exists_run_of_exec (M := machine exampleConfig)
    (s := boot exampleConfig) rfl
    [.start, .startDone .success, .setRoot, .send 0 (.other 1) 4, .sendTask {}] headsAtRoot (by decide)
  obtain _ | ⟨p₁, _ | ⟨p, h⟩⟩ := h
  · cases hs
  · cases hs
  · simp only [headsAtRoot, Bool.and_eq_true, List.all_eq_true, decide_eq_true_eq] at hs
    obtain ⟨⟨⟨⟨⟨hc, hstay⟩, hbefore⟩, hhead⟩, hroot⟩, hempty⟩ := hs
    have hstep : p.1.step p.2 = some p₁.1 := by
      cases hr with
      | step hr _ =>
        cases hr with
        | step _ hs => exact hs
    have hstay' : ∀ q ∈ [p₁], q.2 = .unsetRoot → q.1.Delivered 0 0 := by
      intro q hq he
      rw [List.mem_singleton.1 hq] at he
      exact absurd he hstay
    have hr' : (machine exampleConfig).Run ([p₁] ++ (p.1, p.2) :: h) s := hr
    refine ⟨_, s, hr, (root_delivers hr' hc hstep hbefore hhead hroot hstay').resolve_right ?_⟩
    rintro ⟨hw, -⟩
    have hhead' := hw.head
    rw [hempty] at hhead'
    cases hhead'

/-- A packet of another node is sent and acknowledged, and the node becomes a root. The packet of its
client, whose acknowledgement nobody was asked for, is received and not completed, over and over. -/
theorem not_root_delivers : ∃ h s, (machine exampleConfig).Run h s ∧
    (∃ p ∈ h, p.1.Waiting 0 0) ∧ (∀ p ∈ h, p.2 ≠ .unsetRoot) ∧
    s.book.about 0 = [.txNoAck (some 0) 0, .receive (some 0) { length := 12, origin := 1, type := 7 },
      .txNoAck (some 0) 0, .receive (some 0) { length := 12, origin := 1, type := 7 }] := by
  obtain ⟨h, s, hr, hs⟩ := Machine.exists_run_of_exec (M := machine exampleConfig)
    (s := boot exampleConfig) rfl
    [.start, .startDone .success, .receive (.other 0) { origin := 5, etx := 100 } {}, .sendTask {},
      .subSendDone .success true 0, .setRoot, .send 0 (.other 1) 4, .sendTask {}, .retxmitTimerFired,
      .sendTask {}]
    (fun h s => h.any (fun p => p.1.book.tickets.head? = some (0, some 0) && p.1.isRoot &&
        p.1.pending = none && p.1.book.about 0 = []) && h.all (fun p => p.2 ≠ .unsetRoot) &&
      s.book.about 0 = [.txNoAck (some 0) 0, .receive (some 0) { length := 12, origin := 1, type := 7 },
        .txNoAck (some 0) 0, .receive (some 0) { length := 12, origin := 1, type := 7 }]) (by decide)
  simp only [Bool.and_eq_true, List.any_eq_true, List.all_eq_true, decide_eq_true_eq] at hs
  obtain ⟨⟨⟨p, hp, ⟨⟨hhead, hroot⟩, hpend⟩, habout⟩, hstay⟩, hcalls⟩ := hs
  exact ⟨h, s, hr, ⟨p, hp, hhead, ⟨hroot, hpend⟩, habout⟩, hstay, hcalls⟩

end Forwarder

end Ctp
