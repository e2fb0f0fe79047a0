import Backip.BackIP.Node
import Backip.BackIP.Proof.QueueStep
import Mathlib.Data.List.Infix

/-!
# Which neighbour is charged

A packet carries only the number of its attempts; the neighbour charged is the one chosen last. The
two belong together as long as no packet changes its neighbour between two charges
(`Node.KeepsNeighbour`): then every charge is for attempts that went to the neighbour charged
(`Node.charged_right`). Beacons between two attempts can change the neighbour, and the last one is
charged for both (`Node.charged_right_false`).
-/

set_option autoImplicit false

namespace BackIP

namespace QueueView

variable {v v' : QueueView} {e : QEvent}

/-- The attempts a packet counts all went to one neighbour, those of the packet at the link to the
current one. -/
structure Charges (v : QueueView) : Prop where
  same : ∀ q ∈ v.stack ++ v.inFlight, ∃ a,
    attempts q v.calls = List.replicate (v.qe q).txCount a
  flying : ∀ q ∈ v.inFlight, attempts q v.calls = List.replicate (v.qe q).txCount v.nb
  le : ∀ q ∈ v.stack ++ v.inFlight, (v.qe q).txCount ≤ maxRetxAttempts
  charged : ChargedRight v.calls

/-- A packet on top of the stack that is tried again, or given up on, has the neighbour its earlier
attempts went to. -/
def KeepsNeighbour (v : QueueView) : QEvent → Prop
  | .sendDataTask (some a) r => v.busy = false → ∀ q ∈ v.stack.getLast?,
      (r = .success ∨ maxRetxAttempts ≤ (v.qe q).txCount) → ∀ b ∈ attempts q v.calls, b = a
  | _ => True

/-- With no packet at the link, what the packets on the stack count. -/
theorem Charges.of_idle (hfl : v.inFlight = [])
    (hs : ∀ q ∈ v.stack, (∃ a, attempts q v.calls = List.replicate (v.qe q).txCount a) ∧
      (v.qe q).txCount ≤ maxRetxAttempts)
    (hc : ChargedRight v.calls) : v.Charges where
  same q hq := by rw [hfl, List.append_nil] at hq; exact (hs q hq).1
  flying q hq := by rw [hfl] at hq; cases hq
  le q hq := by rw [hfl, List.append_nil] at hq; exact (hs q hq).2
  charged := hc

/-- Moves that leave the packets' counts and attempts alone. -/
theorem Charges.frame (h : v.Charges)
    (hheld : ∀ q ∈ v'.stack ++ v'.inFlight, q ∈ v.stack ++ v.inFlight)
    (hfl : ∀ q ∈ v'.inFlight, q ∈ v.inFlight ∧ v'.nb = v.nb)
    (hqe : ∀ q, (v'.qe q).txCount = (v.qe q).txCount)
    (ha : ∀ q, attempts q v'.calls = attempts q v.calls) (hc : ChargedRight v'.calls) :
    v'.Charges where
  same q hq := by rw [ha, hqe]; exact h.same q (hheld q hq)
  flying q hq := by
    obtain ⟨hq, hnb⟩ := hfl q hq
    rw [ha, hqe, hnb]
    exact h.flying q hq
  le q hq := by rw [hqe]; exact h.le q (hheld q hq)
  charged := hc

/-- The same, to a state with no packet at the link. -/
theorem Charges.frame_idle (h : v.Charges) (hfl : v'.inFlight = [])
    (hheld : ∀ q ∈ v'.stack, q ∈ v.stack ++ v.inFlight)
    (hqe : ∀ q, (v'.qe q).txCount = (v.qe q).txCount)
    (ha : ∀ q, attempts q v'.calls = attempts q v.calls) (hc : ChargedRight v'.calls) :
    v'.Charges := by
  refine h.frame (fun q hq => hheld q ?_) ?_ hqe ha hc
  · rwa [hfl, List.append_nil] at hq
  · intro q hq
    rw [hfl] at hq; cases hq

theorem Charges.discard (h : v.Charges) : v.discard.Charges := by
  rcases v.discard_cases with ⟨hd, _⟩ | ⟨q, rest, hs, _, hd⟩
  · rw [hd]; exact h
  · rw [hd]
    refine h.frame ?_ (fun q' hq' => ⟨hq', rfl⟩) (fun _ => rfl) (fun _ => rfl) ?_
    · intro q' hq'
      rw [hs]
      exact .tail _ hq'
    · exact .cons rfl rfl (.cons rfl rfl (.cons rfl rfl h.charged))

theorem Charges.check (h : v.Charges) (b : Bool) : (v.check b).Charges := by
  refine h.frame (fun _ hq => hq) (fun _ hq => ⟨hq, rfl⟩) (fun _ => rfl) ?_ ?_
  · cases b <;> exact fun _ => rfl
  · cases b with
    | false => exact h.charged
    | true => exact .cons rfl rfl h.charged

/-- A neighbour is chosen only while no packet is at the link. -/
theorem Charges.chosen (h : v.Charges) (hv : v.Inv) (hb : v.busy = false) (b : Bool) (a : LlAddr) :
    (v.chosen b a).Charges := by
  have hfl := inFlight_idle (v := { v with posted := false, nb := a }) (hv.idle hb).1
  refine (check (v := { v with posted := false, nb := a }) (h.frame (fun _ hq => hq)
    ?_ (fun _ => rfl) (fun _ => rfl) h.charged) b).discard
  intro q hq
  rw [hfl] at hq
  cases hq

/-- The top of the stack stays on top when the bottom is discarded. -/
theorem getLast?_of_discard {l : List QePtr} {q : QePtr} (hs : v.discard.stack = l ++ [q]) :
    v.stack.getLast? = some q := by
  rcases v.discard_cases with ⟨hd, _⟩ | ⟨q', rest, hs', _, hd⟩
  · rw [hd] at hs
    rw [hs, List.getLast?_concat]
  · rw [hd] at hs
    have hrest : rest = l ++ [q] := hs
    rw [hs', hrest, ← List.cons_append, List.getLast?_concat]

theorem attempts_discard (v : QueueView) (q : QePtr) :
    attempts q v.discard.calls = attempts q v.calls := by
  rcases v.discard_cases with ⟨hd, _⟩ | ⟨q', rest, hs', _, hd⟩
  · rw [hd]
  · rw [hd]; rfl

theorem attempts_chosen (v : QueueView) (b : Bool) (a : LlAddr) (q : QePtr) :
    attempts q (v.chosen b a).calls = attempts q v.calls := by
  rw [QueueView.chosen, attempts_discard]
  cases b <;> rfl

/-- The attempts that count, all equal to `a`. -/
theorem replicate_of_forall {n : Nat} {c a : LlAddr} (h : ∀ b ∈ List.replicate n c, b = a) :
    List.replicate n c = List.replicate n a :=
  List.eq_replicate_iff.2 ⟨List.length_replicate, h⟩

/-- Every move that keeps the neighbour of a packet charges the right one. -/
theorem Move.charges (hv : v.Inv) (h : v.Charges) (hkeep : v.KeepsNeighbour e)
    (hm : Move v e v') : v'.Charges := by
  have hv' := hv.move hm
  cases hm with
  | sendingBeacon => exact ⟨h.same, h.flying, h.le, h.charged⟩
  | bypassBusy i frame len r now hf hb =>
    exact ⟨h.same, h.flying, h.le, .cons rfl rfl h.charged⟩
  | bypass i frame len r now hf hb =>
    obtain ⟨hp, _⟩ := hv.idle hb
    refine h.frame_idle ?_ (fun _ hq => List.mem_append_left _ hq) (fun _ => rfl) (fun _ => rfl)
      (.cons rfl rfl (.cons rfl rfl h.charged))
    by_cases hr : r = .success
    · exact hv'.inFlight_beacon (i := i) (by simp [hr, hp])
    · exact inFlight_idle (by simp [hr, hp])
  | refuse i frame len r now hf hfree =>
    have hd := h.discard
    exact ⟨hd.same, hd.flying, hd.le, .cons rfl rfl hd.charged⟩
  | accept i frame len r now m free q freeQe hf hfree hfreeQe =>
    have hd := h.discard
    have hvd := hv.discard
    have hq : q ∉ v.discard.stack ++ v.discard.inFlight := hvd.not_mem_held hfreeQe
    have hfl := hvd.inFlight_accept hfree hfreeQe now { v.discard with
      free := free
      freeQe := freeQe
      stack := v.discard.stack ++ [q]
      qe := Function.update v.qe q ⟨m, 0, now⟩
      mMsgp := .frag i
      posted := true
      donePosted := true
      calls := .send (.frag i) false .success :: .enqueue q :: .pushTop .success ::
        v.discard.calls } rfl rfl rfl
    -- a packet that was held before is not the new one
    have hold : ∀ q' ∈ v.discard.stack ++ v.discard.inFlight,
        Function.update v.qe q ⟨m, 0, now⟩ q' = v.qe q' ∧
        attempts q' (.send (.frag i) false .success :: .enqueue q :: .pushTop .success ::
          v.discard.calls) = attempts q' v.discard.calls := fun q' hq' => by
      have hne : q' ≠ q := fun he => hq (he ▸ hq')
      exact ⟨Function.update_of_ne hne .., if_neg hne.symm⟩
    have hsplit : ∀ q' ∈ (v.discard.stack ++ [q]) ++ v.discard.inFlight,
        q' = q ∨ q' ∈ v.discard.stack ++ v.discard.inFlight := by
      intro q' hq'
      simp only [List.mem_append, List.mem_singleton] at hq' ⊢
      tauto
    refine ⟨?_, ?_, ?_,
      .cons rfl rfl (.cons rfl rfl (.cons rfl rfl hd.charged))⟩
    · intro q' hq'
      rw [hfl] at hq'
      rcases hsplit q' hq' with rfl | hq'
      · exact ⟨.none, by simp [attempts]⟩
      · dsimp only
        rw [(hold q' hq').1, (hold q' hq').2]
        exact hd.same q' hq'
    · intro q' hq'
      rw [hfl] at hq'
      have hq'' := List.mem_append_right v.discard.stack hq'
      dsimp only
      rw [(hold q' hq'').1, (hold q' hq'').2]
      exact hd.flying q' hq'
    · intro q' hq'
      rw [hfl] at hq'
      rcases hsplit q' hq' with rfl | hq'
      · simp
      · dsimp only
        rw [(hold q' hq').1]
        exact hd.le q' hq'
  | taskBusy nb r hp hb => exact ⟨h.same, h.flying, h.le, h.charged⟩
  | taskIdle nb r b hp hb hs hvz =>
    exact Charges.check (v := { v with posted := false }) ⟨h.same, h.flying, h.le, h.charged⟩ b
  | taskNoNeighbour r b hp hb hs =>
    have hc := h.check b
    exact ⟨hc.same, hc.flying, hc.le, hc.charged⟩
  | giveUp a r b l q hp hb hs ht =>
    have hc := h.chosen hv hb b a
    have hvc := hv.chosen b a
    have hfl : (v.chosen b a).inFlight = [] := inFlight_idle (hv.idle hb).1
    have hq : q ∈ (v.chosen b a).stack ++ (v.chosen b a).inFlight := by rw [hs]; simp
    obtain ⟨a₀, ha₀⟩ := hc.same q hq
    have hcount : (v.qe q).txCount = maxRetxAttempts := Nat.le_antisymm (hc.le q hq) ht
    have hall := hkeep hb q (getLast?_of_discard hs) (.inr ht)
    rw [← v.attempts_chosen b a, ha₀] at hall
    have hcharged : attempts q (v.chosen b a).calls = List.replicate maxRetxAttempts a := by
      rw [ha₀, replicate_of_forall hall]
      exact congrArg (fun n => List.replicate n a) hcount
    refine Charges.of_idle (inFlight_idle (hv.idle hb).1) ?_
      (.cons rfl rfl (.cons_giveUp hc.charged hcharged))
    intro q' hq'
    by_cases hqq : q' = q
    · subst hqq
      refine ⟨⟨a, ?_⟩, ?_⟩
      · simp [attempts]
      · simp
    · have hq'' : q' ∈ (v.chosen b a).stack ++ (v.chosen b a).inFlight :=
        List.mem_append_left _ hq'
      have ha : attempts q' (.pushTop .success :: .giveUp q a (2 * maxRetxAttempts) ::
          (v.chosen b a).calls) = attempts q' (v.chosen b a).calls := if_neg (Ne.symm hqq)
      dsimp only
      rw [ha, Function.update_of_ne hqq]
      exact ⟨hc.same q' hq'', hc.le q' hq''⟩
  | transmit a b l q frame len hp hb hs ht =>
    have hc := h.chosen hv hb b a
    have hvc := hv.chosen b a
    have hpend : (v.chosen b a).pending = [] := (hv.idle hb).1
    have hfl : (v.chosen b a).inFlight = [] := inFlight_idle hpend
    have hnd := hvc.custody.nodup_held entries_nodup
    rw [hs, hfl, List.append_nil] at hnd
    have hql : q ∉ l := fun hq => (List.nodup_append.1 hnd).2.2 q hq q (.head _) rfl
    have hq : q ∈ (v.chosen b a).stack ++ (v.chosen b a).inFlight := by rw [hs]; simp
    obtain ⟨a₀, ha₀⟩ := hc.same q hq
    have hall := hkeep hb q (getLast?_of_discard hs) (.inl rfl)
    rw [← v.attempts_chosen b a, ha₀] at hall
    have hself : attempts q (.subSendData q a frame len .success :: (v.chosen b a).calls) =
        List.replicate ((v.qe q).txCount + 1) a := by
      rw [attempts, if_pos ⟨rfl, rfl⟩, ha₀, replicate_of_forall hall]
      rfl
    have hother : ∀ q' ∈ l, q' ≠ q ∧
        attempts q' (.subSendData q a frame len .success :: (v.chosen b a).calls) =
          attempts q' (v.chosen b a).calls ∧
        q' ∈ (v.chosen b a).stack ++ (v.chosen b a).inFlight := fun q' hq' => by
      have hne : q' ≠ q := fun he => hql (he ▸ hq')
      refine ⟨hne, if_neg fun h => hne h.1.symm, ?_⟩
      rw [hs]
      simp [hq']
    have hfl' := inFlight_data (v := { v.chosen b a with
          stack := l
          current := q
          suppress := true
          sending := 1
          busy := true
          qe := Function.update v.qe q { v.qe q with txCount := (v.qe q).txCount + 1 }
          pending := v.msgOf q :: v.pending
          calls := .subSendData q a frame len .success :: (v.chosen b a).calls })
      (by simp [msgOf, show v.pending = [] from hpend])
    refine ⟨?_, ?_, ?_, .cons rfl rfl hc.charged⟩
    · intro q' hq'
      rw [hfl', List.mem_append, List.mem_singleton] at hq'
      rcases hq' with hq' | rfl
      · obtain ⟨hne, ha, hmem⟩ := hother q' hq'
        dsimp only
        rw [ha, Function.update_of_ne hne]
        exact hc.same q' hmem
      · exact ⟨a, by simpa using hself⟩
    · intro q' hq'
      rw [hfl', List.mem_singleton] at hq'
      subst hq'
      dsimp only
      rw [Function.update_self]
      exact hself
    · intro q' hq'
      rw [hfl', List.mem_append, List.mem_singleton] at hq'
      rcases hq' with hq' | rfl
      · obtain ⟨hne, _, hmem⟩ := hother q' hq'
        dsimp only
        rw [Function.update_of_ne hne]
        exact hc.le q' hmem
      · dsimp only
        rw [Function.update_self]
        exact ht
  | localSendFailed a r b l q frame len hr hp hb hs ht =>
    have hc := h.chosen hv hb b a
    refine hc.frame_idle (inFlight_idle (hv.idle hb).1) (fun _ hq => List.mem_append_left _ hq)
      (fun _ => rfl) ?_ (.cons rfl rfl (.cons rfl rfl hc.charged))
    intro q'
    exact if_neg fun h => hr h.2
  | sendNull a r b hp hb hs hvp =>
    refine h.frame_idle (inFlight_idle (hv.idle hb).1) (fun _ hq => List.mem_append_left _ hq)
      (fun _ => rfl) ?_ ?_
    · intro q'
      cases b <;> rfl
    · cases b with
      | false => exact .cons rfl rfl h.charged
      | true => exact .cons rfl rfl (.cons rfl rfl h.charged)
  | txRetryTimerFired ht => exact ⟨h.same, h.flying, h.le, h.charged⟩
  | signalDone hp => exact ⟨h.same, h.flying, h.le, .cons rfl rfl h.charged⟩
  | retry m error now hm hs =>
    obtain ⟨rfl, hp, _, _⟩ := hv.data hm hs
    refine h.frame_idle (inFlight_idle (by simp [hp])) ?_ (fun _ => rfl)
      (fun _ => rfl) (.cons rfl rfl h.charged)
    intro q' hq'
    rwa [inFlight_data hp]
  | deliver m error now txTime hm hs =>
    obtain ⟨rfl, hp, _, _⟩ := hv.data hm hs
    have hfl := inFlight_data hp
    have hnd := hv.custody.nodup_held entries_nodup
    rw [hfl] at hnd
    have hcur : v.current ∉ v.stack :=
      fun hq => (List.nodup_append.1 hnd).2.2 _ hq _ (.head _) rfl
    have hcharged := h.flying v.current (by rw [hfl]; exact .head _)
    refine Charges.of_idle (inFlight_idle (by simp [hp])) ?_
      (.cons rfl rfl (.cons rfl rfl (.cons_delivered h.charged hcharged)))
    intro q' hq'
    have hne : v.current ≠ q' := fun he => hcur (he ▸ hq')
    have ha : attempts q' (.qEntryPut .success :: .messagePut .success ::
        .delivered v.current v.nb (v.qe v.current).txCount txTime :: v.calls) =
          attempts q' v.calls := if_neg hne
    have hq'' : q' ∈ v.stack ++ v.inFlight := List.mem_append_left _ hq'
    dsimp only
    rw [ha]
    exact ⟨h.same q' hq'', h.le q' hq''⟩
  | beaconDone m error d now hm hs =>
    obtain ⟨i, rfl, hp, _, _⟩ := hv.beacon hm hs
    exact h.frame_idle (inFlight_idle (by simp [hp])) (fun _ hq => List.mem_append_left _ hq)
      (fun _ => rfl) (fun _ => rfl) (.cons rfl rfl h.charged)

end QueueView

namespace Node

variable {n : Node}

/-- A `sendDataTask` that tries the packet on top of the stack again, or gives up on it, selects the
neighbour the packet's attempts since its last charge went to. -/
def KeepsNeighbour (n : Node) : NEvent → Prop
  | .sendDataTask r _ => n.q.radioBusy = false → ∀ a ∈ n.selected,
      ∀ q ∈ n.q.sendStack.toList.getLast?,
        (r = .success ∨ maxRetxAttempts ≤ (n.q.qe q).txCount) → ∀ b ∈ attempts q n.q.calls, b = a
  | _ => True

instance (n : Node) : (e : NEvent) → Decidable (n.KeepsNeighbour e)
  | .sendDataTask r _ => inferInstanceAs (Decidable (n.q.radioBusy = false → ∀ a ∈ n.selected,
      ∀ q ∈ n.q.sendStack.toList.getLast?,
        (r = .success ∨ maxRetxAttempts ≤ (n.q.qe q).txCount) → ∀ b ∈ attempts q n.q.calls, b = a))
  | .beaconTimerFired | .recvfrom .. | .setRoot | .unsetRoot | .send .. | .sendNullPkt ..
  | .txRetryTimerFired | .signalDone | .subSendDone .. => instDecidableTrue

theorem keepsNeighbour_view {e : NEvent} {e' : QEvent} (h : n.KeepsNeighbour e)
    (he : n.toQEvent e = some e') : n.q.view.KeepsNeighbour e' := by
  cases e with
  | sendDataTask r null =>
    cases he
    cases hs : n.selected with
    | none => trivial
    | some a => exact fun hb q hq hr => h hb a hs q hq hr
  | recvfrom llAddr data | setRoot | unsetRoot => cases he
  | _ => cases he; trivial

theorem charges_of_run {h : List (Node × NEvent)} (hr : machine.Run h n)
    (hkeep : ∀ p ∈ h, p.1.KeepsNeighbour p.2) : n.q.view.Charges := by
  have hq := hr.map simulation
  have hC := Machine.forall_mapHist (C := fun s e => s.view.KeepsNeighbour e)
    (f := Node.q) (g := toQEvent) fun p hp e he => keepsNeighbour_view (hkeep p hp) he
  refine (hq.inv_of_steps (P := fun s => s.view.Inv ∧ s.view.Charges)
    (C := fun s e => s.view.KeepsNeighbour e) ?_ ?_ hC).1.2
  · intro s0 h0
    rw [show s0 = Queueing.boot.start from h0]
    exact ⟨.init, .of_idle rfl (fun q hq => nomatch hq) .nil⟩
  · intro s e s' hv hk hs
    have hm := Queueing.step_move hv.1 hs
    exact ⟨hv.1.move hm, hm.charges hv.1 hv.2 hk⟩

/-- **The link that was used is charged.** In a run in which packets keep their neighbours, every
charge so far was for attempts that all went to the neighbour charged: on delivery for just as many
since the last charge, on giving up for `MAX_RETX_ATTEMPTS`. -/
theorem charged_right {h : List (Node × NEvent)} (hr : machine.Run h n)
    (hkeep : ∀ p ∈ h, p.1.KeepsNeighbour p.2) : ChargedRight n.q.calls :=
  (charges_of_run hr hkeep).charged

/-- A packet is lost once and delivered by the same neighbour. -/
theorem charged_right_retry : ∃ h n, machine.Run h n ∧ delivered n.q.calls = 1 ∧
    ChargedRight n.q.calls := by
  obtain ⟨h, n, hr, hp⟩ := Machine.exists_run_of_exec (M := machine)
    (s := ⟨.start .boot, (Beaconing.start .boot .success .success true).2, 0⟩)
    ⟨rfl, ⟨.boot, rfl⟩, rfl⟩
    [.recvfrom (some (.short 1)) (write4B 100 ++ write4B 0),
      .send 0 ⟨[], 0, 0, 0, .data⟩ 20 .success 0, .send 0 ⟨[], 0, 0, 0, .data⟩ 20 .success 0,
      .sendDataTask .success .success, .subSendDone (.pool 1) .success false 5,
      .sendDataTask .success .success, .subSendDone (.pool 1) .success true 9]
    (fun h n => delivered n.q.calls = 1 ∧ ∀ p ∈ h, p.1.KeepsNeighbour p.2) (by decide)
  obtain ⟨hd, hkeep⟩ := of_decide_eq_true hp
  exact ⟨h, n, hr, hd, charged_right hr hkeep⟩

/-- A charge in the record that is not for the neighbour's attempts. -/
def wrongCharge (calls : List Call) : Bool :=
  calls.tails.any fun
    | .delivered q n c _ :: before => attempts q before ≠ List.replicate c n
    | _ => false

/-- A packet is lost at one neighbour; the other, of a lower backpressure, delivers it and is
charged for both attempts. -/
theorem charged_right_false : ¬ ∀ n, machine.Reachable n → ChargedRight n.q.calls := by
  intro hall
  obtain ⟨h, n, hr, hp⟩ := Machine.exists_run_of_exec (M := machine)
    (s := ⟨.start .boot, (Beaconing.start .boot .success .success true).2, 0⟩)
    ⟨rfl, ⟨.boot, rfl⟩, rfl⟩
    [.recvfrom (some (.short 1)) (write4B 100 ++ write4B 1),
      .send 0 ⟨[], 0, 0, 0, .data⟩ 20 .success 0, .send 0 ⟨[], 0, 0, 0, .data⟩ 20 .success 0,
      .send 0 ⟨[], 0, 0, 0, .data⟩ 20 .success 0,
      .sendDataTask .success .success, .subSendDone (.pool 2) .success false 5,
      .recvfrom (some (.short 2)) (write4B 100 ++ write4B 0),
      .sendDataTask .success .success, .subSendDone (.pool 2) .success true 9]
    (fun _ n => wrongCharge n.q.calls) (by decide)
  obtain ⟨l, hl, hw⟩ := List.any_eq_true.1 hp
  have hc := hall n ⟨h, hr⟩
  split at hw
  · rename_i q a c txTime before
    exact of_decide_eq_true hw (hc.delivered q a c txTime before ((List.mem_tails _ _).1 hl))
  · cases hw

end Node

end BackIP
