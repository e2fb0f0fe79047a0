import Backip.BackIP.QueueView
import Backip.Lib.Custody

/-!
# The invariant of the queue

`QueueView.Inv` says where everything is: each queue entry, with a message buffer of its own, is
free, on the stack or in flight (`custody`), and the link holds at most one message, the one in
flight or a beacon's frame (`link`). It is kept by every move (`Inv.move`), because a move passes an
entry from one of these places to another:

* a full stack, a delivery: `Custody.release`,
* an accepted `Send.send`: `Custody.take`,
* to the link and back: `Custody.perm`.
-/

set_option autoImplicit false

namespace BackIP

/-- The calls whose result nothing checks succeed. -/
def Call.Succeeds : Call → Prop
  | .pushTop ret | .messagePut ret | .qEntryPut ret => ret = .success
  | _ => True

namespace QueueView

/-- The queue entries, and the message buffers. -/
def entries : List QePtr := (List.range forwardingQueueSize).map .entry
def buffers : List MsgPtr := (List.range forwardingQueueSize).map .pool

theorem entries_nodup : entries.Nodup := by decide

/-- The packet at the link: the current one, if the link holds its message. -/
def inFlight (v : QueueView) : List QePtr :=
  if v.msgOf v.current ∈ v.pending then [v.current] else []

/-- What the link holds: nothing, the message `msg` of the current packet, or a frame of the layer
above. -/
inductive Link (pending : List MsgPtr) (msg : MsgPtr) (sending : Nat) (suppress busy : Bool) : Prop
  | idle (hp : pending = []) (hs : sending = 0)
  | data (hp : pending = [msg]) (hs : sending = 1) (hsup : suppress = true) (hb : busy = true)
  | beacon (i : Nat) (hp : pending = [.frag i]) (hs : sending = 0) (hsup : suppress = false)
      (hb : busy = true)

structure Inv (v : QueueView) : Prop where
  custody : Custody entries buffers v.msgOf v.freeQe v.free (v.stack ++ v.inFlight)
  msg_ne_frag : ∀ q i, v.msgOf q ≠ .frag i
  link : Link v.pending (v.msgOf v.current) v.sending v.suppress v.busy
  succeeds : ∀ c ∈ v.calls, c.Succeeds

variable {v : QueueView}

/-! ## Reading the invariant -/

theorem inFlight_idle (hp : v.pending = []) : v.inFlight = [] := by simp [inFlight, hp]

theorem inFlight_data (hp : v.pending = [v.msgOf v.current]) : v.inFlight = [v.current] := by
  simp [inFlight, hp]

namespace Inv

theorem inFlight_beacon (h : v.Inv) {i : Nat} (hp : v.pending = [.frag i]) : v.inFlight = [] := by
  simp [inFlight, hp, h.msg_ne_frag]

/-- While the radio is not locked the link holds nothing. -/
theorem idle (h : v.Inv) (hb : v.busy = false) : v.pending = [] ∧ v.sending = 0 := by
  rcases h.link with ⟨hp, hs⟩ | ⟨_, _, _, hb'⟩ | ⟨_, _, _, _, hb'⟩
  · exact ⟨hp, hs⟩
  · rw [hb] at hb'; cases hb'
  · rw [hb] at hb'; cases hb'

/-- A message the link signals done while `suppress_sendDone` is set is the current packet's. -/
theorem data (h : v.Inv) {m : MsgPtr} (hm : m ∈ v.pending) (hs : v.suppress = true) :
    m = v.msgOf v.current ∧ v.pending = [v.msgOf v.current] ∧ v.sending = 1 ∧ v.busy = true := by
  rcases h.link with ⟨hp, _⟩ | ⟨hp, hsd, _, hb⟩ | ⟨_, _, _, hsup, _⟩
  · rw [hp] at hm; cases hm
  · rw [hp] at hm
    exact ⟨List.mem_singleton.1 hm, hp, hsd, hb⟩
  · rw [hs] at hsup; cases hsup

/-- A message the link signals done while `suppress_sendDone` is clear is a frame of the layer
above. -/
theorem beacon (h : v.Inv) {m : MsgPtr} (hm : m ∈ v.pending) (hs : v.suppress = false) :
    ∃ i, m = .frag i ∧ v.pending = [.frag i] ∧ v.sending = 0 ∧ v.busy = true := by
  rcases h.link with ⟨hp, _⟩ | ⟨_, _, hsup, _⟩ | ⟨i, hp, hsd, _, hb⟩
  · rw [hp] at hm; cases hm
  · rw [hs] at hsup; cases hsup
  · rw [hp] at hm
    exact ⟨i, List.mem_singleton.1 hm, hp, hsd, hb⟩

theorem length_freeQe (h : v.Inv) :
    v.freeQe.length + (v.stack.length + v.inFlight.length) = forwardingQueueSize := by
  rw [← List.length_append]
  exact h.custody.length_free

theorem length_free (h : v.Inv) :
    v.free.length + (v.stack.length + v.inFlight.length) = forwardingQueueSize := by
  rw [← List.length_append]
  exact h.custody.length_freeBuf

/-- The two pools are empty together. -/
theorem freeQe_eq_nil_iff (h : v.Inv) : v.freeQe = [] ↔ v.free = [] := by
  have h1 := h.length_freeQe
  have h2 := h.length_free
  rw [← List.length_eq_zero_iff, ← List.length_eq_zero_iff]
  omega

/-- A free buffer is one of the pool's. -/
theorem free_ne_frag (h : v.Inv) {m : MsgPtr} (hm : m ∈ v.free) (i : Nat) : m ≠ .frag i := by
  have hb := h.custody.freeBuf_subset hm
  rw [buffers, List.mem_map] at hb
  obtain ⟨j, _, rfl⟩ := hb
  exact MsgPtr.noConfusion

theorem custody_idle (h : v.Inv) (hp : v.pending = []) :
    Custody entries buffers v.msgOf v.freeQe v.free v.stack := by
  have hc := h.custody
  rwa [inFlight_idle hp, List.append_nil] at hc

/-! ## Showing it, for each state of the link -/

theorem of_idle (hp : v.pending = []) (hs : v.sending = 0)
    (hc : Custody entries buffers v.msgOf v.freeQe v.free v.stack)
    (hm : ∀ q i, v.msgOf q ≠ .frag i) (hok : ∀ c ∈ v.calls, c.Succeeds) : v.Inv :=
  ⟨by rwa [inFlight_idle hp, List.append_nil], hm, .idle hp hs, hok⟩

theorem of_data (hp : v.pending = [v.msgOf v.current]) (hs : v.sending = 1)
    (hsup : v.suppress = true) (hb : v.busy = true)
    (hc : Custody entries buffers v.msgOf v.freeQe v.free (v.stack ++ [v.current]))
    (hm : ∀ q i, v.msgOf q ≠ .frag i) (hok : ∀ c ∈ v.calls, c.Succeeds) : v.Inv :=
  ⟨by rwa [inFlight_data hp], hm, .data hp hs hsup hb, hok⟩

theorem of_beacon {i : Nat} (hp : v.pending = [.frag i]) (hs : v.sending = 0)
    (hsup : v.suppress = false) (hb : v.busy = true)
    (hc : Custody entries buffers v.msgOf v.freeQe v.free v.stack)
    (hm : ∀ q i, v.msgOf q ≠ .frag i) (hok : ∀ c ∈ v.calls, c.Succeeds) : v.Inv :=
  ⟨by rwa [show v.inFlight = [] by simp [inFlight, hp, hm], List.append_nil], hm,
    .beacon i hp hs hsup hb, hok⟩

/-! ## Every move keeps it -/

-- no equation of views may turn on what a counter wraps to
attribute [local irreducible] inc16 dec16

theorem init : Queueing.boot.start.view.Inv where
  custody := by
    constructor
    · simpa [Queueing.view, Queueing.start, Queueing.boot, inFlight, entries] using
        List.Perm.of_eq (PoolP.toList_init QePtr.entry (by decide))
    · simpa [Queueing.view, Queueing.start, Queueing.boot, inFlight, buffers] using
        List.Perm.of_eq (PoolP.toList_init MsgPtr.pool (by decide))
  msg_ne_frag _ _ := MsgPtr.noConfusion
  link := .idle rfl rfl
  succeeds := by simp [Queueing.view, Queueing.start, Queueing.boot]

theorem check (h : v.Inv) (b : Bool) : (v.check b).Inv where
  custody := h.custody
  msg_ne_frag := h.msg_ne_frag
  link := h.link
  succeeds := by
    unfold QueueView.check
    cases b with
    | false => exact h.succeeds
    | true => exact List.forall_mem_cons.2 ⟨trivial, h.succeeds⟩

/-- A full stack hands its oldest entry back. -/
theorem discard (h : v.Inv) : v.discard.Inv := by
  rcases v.discard_cases with ⟨hd, _⟩ | ⟨q, rest, hs, _, hd⟩
  · rw [hd]; exact h
  · have hc := h.custody
    rw [hs, List.cons_append] at hc
    rw [hd]
    refine ⟨hc.release, h.msg_ne_frag, h.link, ?_⟩
    simp only [List.forall_mem_cons]
    exact ⟨rfl, rfl, trivial, h.succeeds⟩

/-- A queue that made space while the link holds nothing has a buffer free. -/
theorem free_discard_ne_nil (h : v.Inv) (hp : v.discard.pending = []) : v.discard.free ≠ [] := by
  intro hfree
  have hlen := h.discard.length_free
  rw [hfree, inFlight_idle hp] at hlen
  simp only [List.length_nil, Nat.zero_add, Nat.add_zero] at hlen
  rcases v.discard_cases with ⟨hd, hroom⟩ | ⟨q, rest, hs, hfull, hd⟩
  · exact hroom (hd ▸ hlen)
  · rw [hd] at hlen
    rw [hs, List.length_cons, show rest.length = forwardingQueueSize from hlen] at hfull
    exact Nat.succ_ne_self _ hfull

theorem chosen (h : v.Inv) (b : Bool) (a : LlAddr) : (v.chosen b a).Inv :=
  (check (v := { v with posted := false, nb := a })
    ⟨h.custody, h.msg_ne_frag, h.link, h.succeeds⟩ b).discard

section Accept

variable {m : MsgPtr} {free : List MsgPtr} {q : QePtr} {freeQe : List QePtr}
  (h : v.Inv) (hfree : v.free = m :: free) (hfreeQe : v.freeQe = q :: freeQe) (now : Nat)

include h hfreeQe in
/-- A free entry is on no stack and not at the link. -/
theorem not_mem_held : q ∉ v.stack ++ v.inFlight :=
  h.custody.not_mem_held entries_nodup (by rw [hfreeQe]; exact .head _)

include h hfree hfreeQe in
/-- The packet in flight, if there is one, is not in the entry taken. -/
theorem link_accept :
    (((Function.update v.qe q ⟨m, 0, now⟩ v.current).msg ∈ v.pending ↔
      v.msgOf v.current ∈ v.pending) ∧
    Link v.pending (Function.update v.qe q ⟨m, 0, now⟩ v.current).msg v.sending v.suppress
      v.busy) := by
  have hm : ∀ i, m ≠ .frag i := h.free_ne_frag (hfree ▸ .head _)
  by_cases hcur : v.current = q
  · rw [hcur, Function.update_self]
    rcases h.link with ⟨hp, hs⟩ | ⟨hp, _⟩ | ⟨i, hp, hs, hsup, hb⟩
    · exact ⟨by simp [hp], .idle hp hs⟩
    · refine absurd (List.mem_append_right _ ?_) (h.not_mem_held hfreeQe)
      rw [inFlight_data hp, hcur]
      exact .head _
    · exact ⟨by simp [hp, hm i, h.msg_ne_frag], .beacon i hp hs hsup hb⟩
  · rw [Function.update_of_ne hcur]
    exact ⟨Iff.rfl, h.link⟩

include h hfree hfreeQe in
theorem inFlight_accept (v' : QueueView) (hqe : v'.qe = Function.update v.qe q ⟨m, 0, now⟩)
    (hcur : v'.current = v.current) (hp : v'.pending = v.pending) : v'.inFlight = v.inFlight := by
  have hl := (h.link_accept hfree hfreeQe now).1
  rw [inFlight, msgOf, hqe, hcur, hp]
  exact if_congr hl rfl rfl

include h hfree hfreeQe in
/-- A packet taken into the queue gets an entry and a buffer that were free. -/
theorem accept :
    { v with
      free := free
      freeQe := freeQe
      stack := v.stack ++ [q]
      qe := Function.update v.qe q ⟨m, 0, now⟩ }.Inv := by
  have hm : ∀ i, m ≠ .frag i := h.free_ne_frag (hfree ▸ .head _)
  have hfl := h.inFlight_accept hfree hfreeQe now { v with
      free := free
      freeQe := freeQe
      stack := v.stack ++ [q]
      qe := Function.update v.qe q ⟨m, 0, now⟩ } rfl rfl rfl
  refine ⟨?_, ?_, (h.link_accept hfree hfreeQe now).2, h.succeeds⟩
  · have hc := h.custody
    rw [hfree, hfreeQe] at hc
    have htake : Custody entries buffers
        (fun q' => (Function.update v.qe q ⟨m, 0, now⟩ q').msg) freeQe free
        (q :: (v.stack ++ v.inFlight)) :=
      hc.take entries_nodup (by simp) fun y hy => by simp [hy, msgOf]
    rw [hfl]
    refine htake.perm ?_
    rw [List.append_assoc]
    exact List.perm_middle.symm
  · intro q' i
    by_cases hq' : q' = q
    · simpa [msgOf, hq'] using hm i
    · simpa [msgOf, hq'] using h.msg_ne_frag q' i

end Accept

/-- A change to an entry that keeps its buffer leaves custody as it is. -/
theorem custody_update (h : v.Inv) (hp : v.pending = []) (q : QePtr) (e : QueueEntry)
    (he : e.msg = v.msgOf q) :
    Custody entries buffers (fun q' => (Function.update v.qe q e q').msg) v.freeQe v.free
      v.stack := by
  apply (h.custody_idle hp).congr
  intro y _
  by_cases hy : y = q
  · simp [hy, he]
  · simp [hy, msgOf]

theorem msg_update_ne_frag (h : v.Inv) (q : QePtr) (e : QueueEntry) (he : e.msg = v.msgOf q)
    (q' : QePtr) (i : Nat) : (Function.update v.qe q e q').msg ≠ .frag i := by
  by_cases hq : q' = q
  · simpa [hq, he] using h.msg_ne_frag q i
  · simpa [hq, msgOf] using h.msg_ne_frag q' i

/-- **Every move keeps the invariant.** -/
theorem move (h : v.Inv) {v' : QueueView} {e : QEvent} (hm : Move v e v') : v'.Inv := by
  cases hm with
  | sendingBeacon => exact ⟨h.custody, h.msg_ne_frag, h.link, h.succeeds⟩
  | bypassBusy i frame len r now =>
    exact ⟨h.custody, h.msg_ne_frag, h.link, List.forall_mem_cons.2 ⟨trivial, h.succeeds⟩⟩
  | bypass i frame len r now hf hb =>
    obtain ⟨hp, hs⟩ := h.idle hb
    have hok : ∀ c ∈ Call.send (.frag i) true r :: .subSendBeacon (.frag i) frame len r :: v.calls,
        c.Succeeds :=
      List.forall_mem_cons.2 ⟨trivial, List.forall_mem_cons.2 ⟨trivial, h.succeeds⟩⟩
    by_cases hr : r = .success
    · exact of_beacon (i := i) (by simp [hr, hp]) hs rfl rfl (h.custody_idle hp) h.msg_ne_frag hok
    · exact of_idle (by simp [hr, hp]) hs (h.custody_idle hp) h.msg_ne_frag hok
  | refuse i frame len r now hf hfree =>
    have hd := h.discard
    exact ⟨hd.custody, hd.msg_ne_frag, hd.link, List.forall_mem_cons.2 ⟨trivial, hd.succeeds⟩⟩
  | accept i frame len r now m free q freeQe hf hfree hfreeQe =>
    have ha := h.discard.accept hfree hfreeQe now
    refine ⟨ha.custody, ha.msg_ne_frag, ha.link, ?_⟩
    simp only [List.forall_mem_cons]
    exact ⟨trivial, trivial, rfl, h.discard.succeeds⟩
  | taskBusy nb r hp hb => exact ⟨h.custody, h.msg_ne_frag, h.link, h.succeeds⟩
  | taskIdle nb r b hp hb hs hv =>
    exact check (v := { v with posted := false }) ⟨h.custody, h.msg_ne_frag, h.link, h.succeeds⟩ b
  | taskNoNeighbour r b hp hb hs =>
    have hc := h.check b
    exact ⟨hc.custody, hc.msg_ne_frag, hc.link, hc.succeeds⟩
  | giveUp a r b l q hp hb hs ht =>
    have hc := h.chosen b a
    obtain ⟨hp', hs'⟩ := hc.idle hb
    refine of_idle hp' rfl ?_ ?_ ?_
    · exact hc.custody_update hp' q _ rfl
    · exact hc.msg_update_ne_frag q _ rfl
    · simp only [List.forall_mem_cons]
      exact ⟨rfl, trivial, hc.succeeds⟩
  | transmit a b l q frame len hp hb hs ht =>
    have hc := h.chosen b a
    obtain ⟨hp', hs'⟩ := hc.idle hb
    refine of_data (by simp [msgOf, show v.pending = [] from hp']) rfl rfl rfl ?_ ?_ ?_
    · have hu := hc.custody_update hp' q { v.qe q with txCount := (v.qe q).txCount + 1 } rfl
      rw [hs] at hu
      exact hu
    · exact hc.msg_update_ne_frag q { v.qe q with txCount := (v.qe q).txCount + 1 } rfl
    · exact List.forall_mem_cons.2 ⟨trivial, hc.succeeds⟩
  | localSendFailed a r b l q frame len hr hp hb hs ht =>
    have hc := h.chosen b a
    obtain ⟨hp', hs'⟩ := hc.idle hb
    refine of_idle hp' rfl (hc.custody_idle hp') hc.msg_ne_frag ?_
    simp only [List.forall_mem_cons]
    exact ⟨rfl, trivial, hc.succeeds⟩
  | sendNull a r b hp hb hs hv =>
    have hc := check (v := { v with posted := false, nb := a })
      ⟨h.custody, h.msg_ne_frag, h.link, h.succeeds⟩ b
    obtain ⟨hp', hs'⟩ := hc.idle hb
    exact of_idle hp' hs' (hc.custody_idle hp') hc.msg_ne_frag
      (List.forall_mem_cons.2 ⟨trivial, hc.succeeds⟩)
  | txRetryTimerFired ht => exact ⟨h.custody, h.msg_ne_frag, h.link, h.succeeds⟩
  | signalDone hp =>
    exact ⟨h.custody, h.msg_ne_frag, h.link, List.forall_mem_cons.2 ⟨trivial, h.succeeds⟩⟩
  | retry m error now hm hs =>
    obtain ⟨rfl, hp, _, _⟩ := h.data hm hs
    have hc := h.custody
    rw [inFlight_data hp] at hc
    refine of_idle (by simp [hp]) rfl hc h.msg_ne_frag ?_
    exact List.forall_mem_cons.2 ⟨rfl, h.succeeds⟩
  | deliver m error now txTime hm hs =>
    obtain ⟨rfl, hp, _, _⟩ := h.data hm hs
    have hc := h.custody
    rw [inFlight_data hp] at hc
    refine of_idle (by simp [hp]) rfl (hc.perm (List.perm_append_singleton _ _)).release
      h.msg_ne_frag ?_
    simp only [List.forall_mem_cons]
    exact ⟨rfl, rfl, trivial, h.succeeds⟩
  | beaconDone m error d now hm hs =>
    obtain ⟨i, rfl, hp, hs', _⟩ := h.beacon hm hs
    have hc := h.custody
    rw [h.inFlight_beacon hp, List.append_nil] at hc
    exact of_idle (by simp [hp]) hs' hc h.msg_ne_frag (List.forall_mem_cons.2 ⟨trivial, h.succeeds⟩)

end Inv

end QueueView

end BackIP
