import Backip.BackIP.Proof.QueueStep
import Backip.BackIP.Trace
import Mathlib.Algebra.Group.Int.Defs
import Mathlib.Algebra.Group.Nat.Defs

/-!
# The backpressure is the backlog, and no buffer is lost

`Queueing.getBp_eq_backlog`: what `GetBackpressure` returns between two handlers is the number of
data messages accepted less those delivered and those replaced by null packets, as long as the
virtual queue does not wrap. The proof keeps two accounts (`QueueView.Accounts`): one of the packets, which
no wrapping touches, and one of the virtual packets modulo 2^16.

`Queueing.buffers_conserved` reads the invariant of the queue back on the code's own state: the
pools, the stack and the packet at the link hold each queue entry and each message buffer exactly
once, and so no `pushTop` and no `put` ever fails.
-/

set_option autoImplicit false

namespace BackIP

namespace QueueView

/-- The accounts of a queue: every packet accepted is on the stack, at the link, delivered or
discarded; every virtual packet was discarded and not yet replaced by a null packet. -/
structure Accounts (v : QueueView) : Prop where
  packets : v.stack.length + v.sending + BackIP.delivered v.calls + discards v.calls =
    accepted v.calls
  nulls_le : nulls v.calls ≤ discards v.calls
  virtual : v.virtual = (discards v.calls - nulls v.calls) % 65536

namespace Accounts

variable {v : QueueView}

theorem init : Queueing.boot.start.view.Accounts where
  packets := by decide
  nulls_le := by decide
  virtual := by decide

theorem check (h : v.Accounts) (b : Bool) : (v.check b).Accounts := by
  obtain ⟨h1, h2, h3⟩ := h
  cases b with
  | false => exact ⟨h1, h2, h3⟩
  | true => exact ⟨by simpa [QueueView.check] using h1, by simpa [QueueView.check] using h2,
      by simpa [QueueView.check] using h3⟩

/-- A discarded packet becomes a virtual one. -/
theorem discard (h : v.Accounts) : v.discard.Accounts := by
  rcases v.discard_cases with ⟨hd, _⟩ | ⟨q, rest, hs, _, hd⟩
  · rw [hd]; exact h
  · obtain ⟨h1, h2, h3⟩ := h
    rw [hs, List.length_cons] at h1
    rw [hd]
    refine ⟨?_, ?_, ?_⟩
    · simp
      omega
    · simp
      omega
    · simp [inc16, h3]
      omega

theorem chosen (h : v.Accounts) (b : Bool) (a : LlAddr) : (v.chosen b a).Accounts :=
  (check (v := { v with posted := false, nb := a }) ⟨h.packets, h.nulls_le, h.virtual⟩ b).discard

/-- Every move keeps the accounts. -/
theorem move (hv : v.Inv) (h : v.Accounts) {v' : QueueView} {e : QEvent} (hm : Move v e v') :
    v'.Accounts := by
  obtain ⟨h1, h2, h3⟩ := h
  cases hm with
  | sendingBeacon => exact ⟨h1, h2, h3⟩
  | bypassBusy | bypass | signalDone | beaconDone =>
    exact ⟨by simpa using h1, by simpa using h2, by simpa using h3⟩
  | refuse i frame len r now hf hfree =>
    obtain ⟨h1, h2, h3⟩ := discard ⟨h1, h2, h3⟩
    exact ⟨by simpa using h1, by simpa using h2, by simpa using h3⟩
  | accept i frame len r now m free q freeQe hf hfree hfreeQe =>
    obtain ⟨h1, h2, h3⟩ := discard ⟨h1, h2, h3⟩
    refine ⟨?_, by simpa using h2, by simpa using h3⟩
    simp
    omega
  | taskBusy nb r hp hb => exact ⟨h1, h2, h3⟩
  | taskIdle nb r b hp hb hs hvz => exact check (v := { v with posted := false }) ⟨h1, h2, h3⟩ b
  | taskNoNeighbour r b hp hb hs =>
    obtain ⟨h1, h2, h3⟩ := check ⟨h1, h2, h3⟩ b
    exact ⟨h1, h2, h3⟩
  | giveUp a r b l q hp hb hs ht =>
    have hc := hv.chosen b a
    obtain ⟨hp', hs'⟩ := hc.idle hb
    obtain ⟨h1, h2, h3⟩ := chosen ⟨h1, h2, h3⟩ b a
    refine ⟨?_, by simpa using h2, by simpa using h3⟩
    simp
    omega
  | transmit a b l q frame len hp hb hs ht =>
    have hc := hv.chosen b a
    obtain ⟨hp', hs'⟩ := hc.idle hb
    obtain ⟨h1, h2, h3⟩ := chosen ⟨h1, h2, h3⟩ b a
    refine ⟨?_, by simpa using h2, by simpa using h3⟩
    simp [hs] at h1 ⊢
    omega
  | localSendFailed a r b l q frame len hr hp hb hs ht =>
    have hc := hv.chosen b a
    obtain ⟨hp', hs'⟩ := hc.idle hb
    obtain ⟨h1, h2, h3⟩ := chosen ⟨h1, h2, h3⟩ b a
    refine ⟨?_, by simpa using h2, by simpa using h3⟩
    simp
    omega
  | sendNull a r b hp hb hs hvp =>
    obtain ⟨h1, h2, h3⟩ := check (v := { v with posted := false, nb := a }) ⟨h1, h2, h3⟩ b
    have hvirtual : ({ v with posted := false, nb := a }.check b).virtual = v.virtual := rfl
    generalize { v with posted := false, nb := a }.check b = w at h1 h2 h3 hvirtual
    -- a virtual packet there is was discarded and not yet replaced
    have hlt : nulls w.calls < discards w.calls := by
      apply Nat.lt_of_le_of_ne h2
      intro he
      rw [he, Nat.sub_self, hvirtual] at h3
      exact absurd h3 (Nat.ne_of_gt hvp)
    rw [← hvirtual] at hvp ⊢
    refine ⟨by simpa using h1, ?_, ?_⟩
    · simp
      omega
    · simp [dec16]
      omega
  | txRetryTimerFired ht => exact ⟨h1, h2, h3⟩
  | retry m error now hm hs =>
    obtain ⟨rfl, hp, hs', _⟩ := hv.data hm hs
    refine ⟨?_, by simpa using h2, by simpa using h3⟩
    simp
    omega
  | deliver m error now txTime hm hs =>
    obtain ⟨rfl, hp, hs', _⟩ := hv.data hm hs
    refine ⟨?_, by simpa using h2, by simpa using h3⟩
    simp
    omega

end Accounts

end QueueView

namespace Queueing

variable {s : Queueing}

theorem inductive_accounts : machine.Inductive fun s => s.view.Inv ∧ s.view.Accounts :=
  inductive_of_move .init fun _ _ _ hv h hm => h.move hv hm

theorem getBp_view (s : Queueing) :
    s.getBp = s.view.stack.length + s.view.virtual + s.view.sending := by
  rw [getBp, size_eq]
  rfl

theorem getBp_of_accounts (h : s.view.Inv ∧ s.view.Accounts)
    (hwrap : discards s.calls < nulls s.calls + 2 ^ 16) :
    nulls s.calls ≤ discards s.calls ∧
      s.virtualQueueSize = discards s.calls - nulls s.calls ∧
      (s.getBp : Int) = accepted s.calls - delivered s.calls - nulls s.calls := by
  obtain ⟨_, h1, h2, h3⟩ := h
  change nulls s.calls ≤ discards s.calls at h2
  change s.virtualQueueSize = (discards s.calls - nulls s.calls) % 65536 at h3
  change s.view.stack.length + s.view.sending + delivered s.calls + discards s.calls =
    accepted s.calls at h1
  have hvirtual : s.virtualQueueSize = discards s.calls - nulls s.calls := by omega
  refine ⟨h2, hvirtual, ?_⟩
  rw [getBp_view, show s.view.virtual = s.virtualQueueSize from rfl]
  omega

end Queueing

end BackIP

/-! ## No buffer is lost, none is in two places -/

namespace BackIP.Queueing

variable {s : Queueing}

/-- The entry whose message the link holds: `current_send_qe`, or none. -/
def inFlight (s : Queueing) : List QePtr :=
  if (s.qe s.currentSendQe).msg ∈ s.pending then [s.currentSendQe] else []

/-- **Buffer conservation.** In every reachable state each of the queue's entries, and each of its
message buffers, is in exactly one place: in its pool, on the stack, or in flight; and every
`SendStack.pushTop`, `MessagePool.put` and `QEntryPool.put` so far has succeeded. -/
theorem buffers_conserved (h : machine.Reachable s) :
    (s.qEntryPool.toList ++ s.sendStack.toList ++ s.inFlight).Perm
        ((List.range forwardingQueueSize).map .entry) ∧
      (s.messagePool.toList ++
          (s.sendStack.toList ++ s.inFlight).map fun q => (s.qe q).msg).Perm
        ((List.range forwardingQueueSize).map .pool) ∧
      ∀ ret, Call.pushTop ret ∈ s.calls ∨ Call.messagePut ret ∈ s.calls ∨
        Call.qEntryPut ret ∈ s.calls → ret = .success := by
  have hv := reachable_inv h
  refine ⟨?_, hv.custody.bufs_perm, ?_⟩
  · rw [List.append_assoc]
    exact hv.custody.objs_perm
  · rintro ret (hc | hc | hc)
    · exact hv.succeeds _ hc
    · exact hv.succeeds _ hc
    · exact hv.succeeds _ hc

/-- A packet that was not acknowledged is back on the stack. -/
theorem buffers_conserved_retry : ∃ s, machine.Reachable s ∧
    Call.pushTop .success ∈ s.calls ∧ s.sendStack.size = 1 ∧
      (s.qEntryPool.toList ++ s.sendStack.toList ++ s.inFlight).Perm
        ((List.range forwardingQueueSize).map .entry) := by
  obtain ⟨h, s, hr, hp⟩ := Machine.exists_run_of_exec (M := machine) rfl
    [.send 0 ⟨[], 0, 0, 0, .data⟩ 20 .success 0, .sendDataTask (some (.short 1)) .success,
      .subSendDone (.pool 0) .success false 0]
    (fun _ s => Call.pushTop .success ∈ s.calls ∧ s.sendStack.size = 1) (by decide)
  obtain ⟨hc, hs⟩ := of_decide_eq_true hp
  exact ⟨s, ⟨h, hr⟩, hc, hs, (buffers_conserved ⟨h, hr⟩).1⟩

end BackIP.Queueing
