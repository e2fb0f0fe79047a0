import Backip.BackIP.Node
import Backip.BackIP.Proof.Accounting

/-!
# A backlog keeps something armed

While packets or virtual packets wait, `sendDataTask` is posted, `txRetryTimer` runs, the link holds
a message or a null packet is on its way (`Node.Armed`). All but two ways through the handlers see
to that (`Node.armed_iff`): `sendDataTask` relies on a null packet that `UDPNull.sendto` may refuse,
and a null packet that comes back may be taken for the beacon and be lost.
-/

set_option autoImplicit false

namespace BackIP

namespace QueueView

variable {v v' : QueueView} {e : QEvent}

def Backlog (v : QueueView) : Prop := v.stack ≠ [] ∨ 0 < v.virtual

def Armed (v : QueueView) : Prop := v.posted = true ∨ v.timer = true ∨ v.pending ≠ []

/-- `sendDataTask` leaves by the null packet's exit. -/
structure NullExit (v : QueueView) : Prop where
  idle : v.busy = false
  empty : v.stack = []
  virtual : 0 < v.virtual

theorem nulls_discard (v : QueueView) : nulls v.discard.calls = nulls v.calls := by
  rcases v.discard_cases with ⟨hd, _⟩ | ⟨q, rest, _, _, hd⟩
  · rw [hd]
  · rw [hd]; simp

theorem nulls_check (v : QueueView) (b : Bool) : nulls (v.check b).calls = nulls v.calls := by
  cases b
  · rfl
  · simp [check]

theorem nulls_chosen (v : QueueView) (b : Bool) (a : LlAddr) :
    nulls (v.chosen b a).calls = nulls v.calls := by
  rw [chosen, nulls_discard, nulls_check]

theorem chosen_of_empty (hs : v.stack = []) (b : Bool) (a : LlAddr) :
    (v.chosen b a).stack = [] := by
  rw [chosen, discard_of_room]
  · cases b <;> exact hs
  · cases b <;> simp [check, hs, forwardingQueueSize]

theorem calls_suffix_discard (v : QueueView) : v.calls <:+ v.discard.calls :=
  List.suffix_append _ _

theorem calls_suffix_check (v : QueueView) (b : Bool) : v.calls <:+ (v.check b).calls := by
  cases b
  · exact List.suffix_rfl
  · exact List.suffix_cons _ _

theorem calls_suffix_chosen (v : QueueView) (b : Bool) (a : LlAddr) :
    v.calls <:+ (v.chosen b a).calls :=
  (calls_suffix_check { v with posted := false, nb := a } b).trans (calls_suffix_discard _)

/-- A move only adds to the record of calls. -/
theorem Move.calls_suffix (hm : Move v e v') : v.calls <:+ v'.calls := by
  have hcons := fun (c : Call) {l : List Call} (h : v.calls <:+ l) => h.trans (List.suffix_cons c l)
  cases hm with
  | sendingBeacon | taskBusy | txRetryTimerFired => exact List.suffix_rfl
  | bypassBusy | signalDone | retry | beaconDone => exact hcons _ List.suffix_rfl
  | bypass => exact hcons _ (hcons _ List.suffix_rfl)
  | refuse => exact hcons _ v.calls_suffix_discard
  | accept => exact hcons _ (hcons _ (hcons _ v.calls_suffix_discard))
  | taskIdle nb r b => exact calls_suffix_check { v with posted := false } b
  | taskNoNeighbour r b => exact calls_suffix_check { v with posted := false } b
  | giveUp a r b => exact hcons _ (hcons _ (v.calls_suffix_chosen b a))
  | transmit a b => exact hcons _ (v.calls_suffix_chosen b a)
  | localSendFailed a r b => exact hcons _ (hcons _ (v.calls_suffix_chosen b a))
  | sendNull a r b => exact hcons _ (calls_suffix_check { v with posted := false, nb := a } b)
  | deliver => exact hcons _ (hcons _ (hcons _ List.suffix_rfl))

/-- What `sendDataTask` leaves armed: something for the backlog, but by the null packet's exit. -/
theorem Move.armed_sendDataTask {nb : Option LlAddr} {r : TinyError}
    (hm : Move v (.sendDataTask nb r) v') :
    (v'.Backlog → v'.Armed) ∧ ¬ (nb.isSome = true ∧ v.NullExit) ∧
        nulls v'.calls = nulls v.calls ∨
      (nb.isSome = true ∧ v.NullExit) ∧ v'.stack = [] ∧ v'.virtual = dec16 v.virtual ∧
        v'.posted = false ∧ v'.timer = v.timer ∧ v'.pending = v.pending ∧
        nulls v'.calls = nulls v.calls + 1 := by
  cases hm with
  | taskBusy _ _ hp hb =>
    refine .inl ⟨fun _ => .inr (.inl rfl), ?_, rfl⟩
    rintro ⟨_, hx⟩
    exact Bool.false_ne_true (hx.idle.symm.trans hb)
  | taskIdle _ _ b hp hb hs hvz =>
    refine .inl ⟨?_, ?_, nulls_check _ b⟩
    · intro hback
      rcases hback with h | h
      · exact absurd hs h
      · exact absurd hvz (Nat.ne_of_gt h)
    · rintro ⟨_, hx⟩
      exact Nat.ne_of_gt hx.virtual hvz
  | taskNoNeighbour _ b hp hb hs =>
    exact .inl ⟨fun _ => .inr (.inl rfl), fun ⟨hn, _⟩ => Bool.false_ne_true hn, nulls_check _ b⟩
  | giveUp a _ b l q hp hb hs ht =>
    refine .inl ⟨fun _ => .inr (.inl rfl), ?_, by simp [nulls_chosen]⟩
    rintro ⟨_, hx⟩
    exact List.append_ne_nil_of_right_ne_nil l (List.cons_ne_nil q [])
      (hs.symm.trans (chosen_of_empty hx.empty b a))
  | transmit a b l q frame len hp hb hs ht =>
    refine .inl ⟨fun _ => .inr (.inr (List.cons_ne_nil _ _)), ?_,
      by simp [nulls_chosen]⟩
    rintro ⟨_, hx⟩
    exact List.append_ne_nil_of_right_ne_nil l (List.cons_ne_nil q [])
      (hs.symm.trans (chosen_of_empty hx.empty b a))
  | localSendFailed a _ b l q frame len hr hp hb hs ht =>
    refine .inl ⟨fun _ => .inr (.inl rfl), ?_, by simp [nulls_chosen]⟩
    rintro ⟨_, hx⟩
    exact List.append_ne_nil_of_right_ne_nil l (List.cons_ne_nil q [])
      (hs.symm.trans (chosen_of_empty hx.empty b a))
  | sendNull a _ b hp hb hs hvp =>
    exact .inr ⟨⟨rfl, hb, hs, hvp⟩, hs, rfl, rfl, rfl, rfl, by simp [nulls_check]⟩

/-- A `Send.send` leaves something armed for the backlog, but where it takes the beacon's way and
hands nothing to the link. -/
theorem Move.armed_send (hv : v.Inv) {i : Nat} {frame : Message} {len : Nat} {r : TinyError}
    {now : Nat} (hm : Move v (.send i frame len r now) v') :
    nulls v'.calls = nulls v.calls ∧
      ((v'.Backlog → v'.Armed) ∧ ¬ (v.flag = true ∧ (v.busy = true ∨ r ≠ .success)) ∨
        (v.flag = true ∧ (v.busy = true ∨ r ≠ .success)) ∧ (v'.Backlog ↔ v.Backlog) ∧
          (v'.Armed ↔ v.Armed)) := by
  cases hm with
  | bypassBusy _ _ _ _ _ hf hb => exact ⟨by simp, .inr ⟨⟨hf, .inl hb⟩, .rfl, .rfl⟩⟩
  | bypass _ _ _ _ _ hf hb =>
    refine ⟨by simp, ?_⟩
    by_cases hr : r = .success
    · refine .inl ⟨fun _ => .inr (.inr (by simp [hr])), ?_⟩
      rintro ⟨_, h⟩
      exact h.elim (fun h => Bool.false_ne_true (hb.symm.trans h)) fun h => h hr
    · exact .inr ⟨⟨hf, .inr hr⟩, .rfl, by simp [Armed, hr]⟩
  | refuse _ _ _ _ _ hf hfree =>
    refine ⟨by simp [nulls_discard], .inl ⟨fun _ => .inr (.inr ?_), ?_⟩⟩
    · intro hp
      exact hv.free_discard_ne_nil hp hfree
    · rintro ⟨h, _⟩
      exact Bool.false_ne_true (hf.symm.trans h)
  | accept _ _ _ _ _ m free q freeQe hf hfree hfreeQe =>
    refine ⟨by simp [nulls_discard], .inl ⟨fun _ => .inl rfl, ?_⟩⟩
    rintro ⟨h, _⟩
    exact Bool.false_ne_true (hf.symm.trans h)

/-- The other events leave what is armed as it is, or something armed for the backlog. -/
theorem Move.armed_other (hm : Move v e v')
    (hsend : ∀ i frame len r now, e ≠ .send i frame len r now)
    (htask : ∀ nb r, e ≠ .sendDataTask nb r) :
    nulls v'.calls = nulls v.calls ∧
      ((v'.Backlog → v'.Armed) ∨ (v'.Backlog ↔ v.Backlog) ∧ (v'.Armed ↔ v.Armed)) := by
  cases hm with
  | sendingBeacon => exact ⟨rfl, .inr ⟨.rfl, .rfl⟩⟩
  | bypassBusy | bypass | refuse | accept => exact (hsend _ _ _ _ _ rfl).elim
  | taskBusy | taskIdle | taskNoNeighbour | giveUp | transmit | localSendFailed | sendNull =>
    exact (htask _ _ rfl).elim
  | txRetryTimerFired => exact ⟨rfl, .inl fun _ => .inl rfl⟩
  | signalDone => exact ⟨by simp, .inr ⟨.rfl, .rfl⟩⟩
  | retry => exact ⟨by simp, .inl fun _ => .inl rfl⟩
  | deliver =>
    refine ⟨by simp, .inl fun hback => .inl ?_⟩
    rw [decide_eq_true (show v.stack ≠ [] ∨ 0 < v.virtual from hback), Bool.or_true]
  | beaconDone =>
    refine ⟨by simp, .inl fun hback => .inl ?_⟩
    rw [decide_eq_true (show v.stack ≠ [] ∨ 0 < v.virtual from hback), Bool.or_true]

end QueueView

namespace Node

variable {n n' : Node} {e : NEvent}

/-- Packets or virtual packets wait. -/
def Backlog (n : Node) : Prop := 0 < n.q.sendStack.size ∨ 0 < n.q.virtualQueueSize

/-- Something will run the queue again, or a null packet is on its way. -/
def Armed (n : Node) : Prop :=
  n.q.sendDataPosted = true ∨ n.q.txRetryTimer.isSome = true ∨ n.q.pending ≠ [] ∨
    0 < n.nullInTransit

/-- No stall. -/
def Runs (n : Node) : Prop := n.Backlog → n.Armed

/-- `sendDataTask` generates a null packet that `UDPNull.sendto` refuses, with virtual packets left
and nothing else on its way; or the last null packet on its way is taken for the beacon and lost. -/
def Stalls (n : Node) : NEvent → Prop
  | .sendDataTask _ null =>
    null ≠ .success ∧ n.selected.isSome = true ∧ n.q.radioBusy = false ∧
      n.q.sendStack.size = 0 ∧ 1 < n.q.virtualQueueSize ∧ n.q.txRetryTimer = none ∧
      n.nullInTransit = 0
  | .sendNullPkt _ _ _ r _ =>
    n.q.sendingBeacon = true ∧ (n.q.radioBusy = true ∨ r ≠ .success) ∧ n.Backlog ∧
      n.q.sendDataPosted = false ∧ n.q.txRetryTimer = none ∧ n.q.pending = [] ∧
      n.nullInTransit = 1
  | _ => False

instance (n : Node) : Decidable n.Backlog :=
  inferInstanceAs (Decidable (0 < n.q.sendStack.size ∨ 0 < n.q.virtualQueueSize))

instance (n : Node) : Decidable n.Armed :=
  inferInstanceAs (Decidable (n.q.sendDataPosted = true ∨ n.q.txRetryTimer.isSome = true ∨
    n.q.pending ≠ [] ∨ 0 < n.nullInTransit))

instance (n : Node) : (e : NEvent) → Decidable (n.Stalls e)
  | .sendDataTask _ null => inferInstanceAs (Decidable (null ≠ .success ∧
      n.selected.isSome = true ∧ n.q.radioBusy = false ∧ n.q.sendStack.size = 0 ∧
      1 < n.q.virtualQueueSize ∧ n.q.txRetryTimer = none ∧ n.nullInTransit = 0))
  | .sendNullPkt _ _ _ r _ => inferInstanceAs (Decidable (n.q.sendingBeacon = true ∧
      (n.q.radioBusy = true ∨ r ≠ .success) ∧ n.Backlog ∧ n.q.sendDataPosted = false ∧
      n.q.txRetryTimer = none ∧ n.q.pending = [] ∧ n.nullInTransit = 1))
  | .beaconTimerFired | .recvfrom .. | .setRoot | .unsetRoot | .send .. | .txRetryTimerFired
  | .signalDone | .subSendDone .. => instDecidableFalse

theorem backlog_iff (n : Node) : n.Backlog ↔ n.q.view.Backlog := by
  rw [Backlog, Queueing.size_eq, List.length_pos_iff]
  rfl

theorem armed_iff_view (n : Node) : n.Armed ↔ n.q.view.Armed ∨ 0 < n.nullInTransit := by
  simp only [Armed, QueueView.Armed, or_assoc]
  rfl

/-- The null packets of one step. -/
theorem nulls_newCalls {q q' : Queueing} {e : QEvent} (hm : QueueView.Move q.view e q'.view) :
    nulls (newCalls q q') = nulls q'.calls - nulls q.calls := by
  obtain ⟨l, hl⟩ := hm.calls_suffix
  have h := congrArg nulls hl
  rw [nulls_append] at h
  rw [newCalls_eq (show q'.calls = l ++ q.calls from hl.symm)]
  change nulls l + nulls q.calls = nulls q'.calls at h
  omega

/-- What the step of another handler leaves of a node that runs. -/
theorem runs_of_frame (hr : n.Runs)
    (h : (n'.q.view.Backlog → n'.q.view.Armed) ∨
      (n'.q.view.Backlog ↔ n.q.view.Backlog) ∧ (n'.q.view.Armed ↔ n.q.view.Armed))
    (hle : n.nullInTransit ≤ n'.nullInTransit) : n'.Runs := by
  intro hback
  rw [backlog_iff] at hback
  rw [armed_iff_view]
  rcases h with h | ⟨hb, ha⟩
  · exact .inl (h hback)
  · rcases (armed_iff_view n).1 (hr ((backlog_iff n).2 (hb.1 hback))) with h | h
    · exact .inl (ha.2 h)
    · exact .inr (Nat.lt_of_lt_of_le h hle)

/-- `sendDataTask` stalls the node exactly by the null packet's exit. -/
theorem runs_sendDataTask {q' : Queueing} {r null : TinyError} (hv : n.q.view.Inv)
    (hacc : n.q.view.Accounts)
    (hm : QueueView.Move n.q.view (.sendDataTask n.selected r) q'.view) :
    (n.after null q').Runs ↔ ¬ n.Stalls (.sendDataTask r null) := by
  have hsize : n.q.sendStack.size = 0 ↔ n.q.view.stack = [] := by
    rw [Queueing.size_eq, List.length_eq_zero_iff]
  have hnulls := nulls_newCalls hm
  rcases hm.armed_sendDataTask with ⟨harmed, hexit, _⟩ | ⟨⟨hsel, hx⟩, hs, hvirt, hp, ht, hpend, hn⟩
  · refine iff_of_true ?_ ?_
    · intro hback
      exact (armed_iff_view _).2 (.inl (harmed ((backlog_iff _).1 hback)))
    · rintro ⟨_, hsel, hb, hsz, hlt, _⟩
      exact hexit ⟨hsel, ⟨hb, hsize.1 hsz, Nat.lt_trans Nat.zero_lt_one hlt⟩⟩
  · have hone : nulls (newCalls n.q q') = 1 := by
      have : nulls q'.calls = nulls n.q.calls + 1 := hn
      omega
    have hvirtual : n.q.virtualQueueSize < 65536 := by
      have : n.q.virtualQueueSize = (discards n.q.calls - nulls n.q.calls) % 65536 := hacc.virtual
      omega
    have hpos : 0 < n.q.virtualQueueSize := hx.virtual
    have hback : (n.after null q').Backlog ↔ 1 < n.q.virtualQueueSize := by
      rw [backlog_iff, QueueView.Backlog]
      have : q'.view.virtual = n.q.virtualQueueSize - 1 := by
        rw [hvirt, dec16, show n.q.view.virtual = n.q.virtualQueueSize from rfl]
        omega
      simp only [after, hs, this, ne_eq, not_true_eq_false, false_or]
      omega
    have harmed : (n.after null q').Armed ↔
        n.q.txRetryTimer.isSome = true ∨ null = .success ∨ 0 < n.nullInTransit := by
      have hpend' : q'.view.pending = [] := hpend.trans (hv.idle hx.idle).1
      have ht' : q'.view.timer = n.q.txRetryTimer.isSome := ht
      rw [armed_iff_view, QueueView.Armed]
      simp only [after, hp, ht', hpend', hone, Bool.false_eq_true, ne_eq, not_true_eq_false,
        false_or, or_false]
      by_cases hnull : null = .success <;> simp [hnull]
    rw [Runs, hback, harmed, Stalls, ← not_iff_not, not_not]
    simp only [hsel, hsize.2 hx.empty, show n.q.radioBusy = false from hx.idle, true_and,
      Classical.not_imp, not_or, Nat.not_lt, Nat.le_zero, Bool.not_eq_true,
      Option.isSome_eq_false_iff, Option.isNone_iff_eq_none]
    tauto

/-- A null packet that reaches `Send.send` stalls the node exactly if it was the last one and is
taken for the beacon and lost. -/
theorem runs_sendNullPkt {q' : Queueing} {i : Nat} {frame : Message} {len : Nat} {r : TinyError}
    {now : Nat} (hv : n.q.view.Inv) (h0 : n.nullInTransit ≠ 0)
    (hm : QueueView.Move n.q.view (.send i frame len r now) q'.view) :
    ({ n with nullInTransit := n.nullInTransit - 1 }.after .success q').Runs ↔
      ¬ n.Stalls (.sendNullPkt i frame len r now) := by
  obtain ⟨hn, h⟩ := hm.armed_send hv
  have hzero : nulls (newCalls n.q q') = 0 := by
    rw [nulls_newCalls hm]
    exact Nat.sub_eq_zero_of_le (Nat.le_of_eq hn)
  rcases h with ⟨harmed, hno⟩ | ⟨hlost, hb, ha⟩
  · refine iff_of_true ?_ fun ⟨hf, hor, _⟩ => hno ⟨hf, hor⟩
    intro hback
    exact (armed_iff_view _).2 (.inl (harmed ((backlog_iff _).1 hback)))
  · have hback : ({ n with nullInTransit := n.nullInTransit - 1 }.after .success q').Backlog ↔
        n.Backlog := by
      rw [backlog_iff, backlog_iff]
      exact hb
    have harmed : ({ n with nullInTransit := n.nullInTransit - 1 }.after .success q').Armed ↔
        n.q.view.Armed ∨ 0 < n.nullInTransit - 1 := by
      rw [armed_iff_view]
      simp only [after, hzero, if_true, Nat.add_zero]
      exact or_congr_left ha
    have hnot : ¬ n.q.view.Armed ↔
        n.q.sendDataPosted = false ∧ n.q.txRetryTimer = none ∧ n.q.pending = [] := by
      simp [QueueView.Armed, Queueing.view]
    have hlast : ¬ 0 < n.nullInTransit - 1 ↔ n.nullInTransit = 1 := by omega
    rw [Runs, hback, harmed, Stalls, ← not_iff_not, not_not, Classical.not_imp, not_or, hnot, hlast]
    constructor
    · rintro ⟨hback, ⟨hp, ht, hpend⟩, h1⟩
      exact ⟨hlost.1, hlost.2, hback, hp, ht, hpend, h1⟩
    · rintro ⟨_, _, hback, hp, ht, hpend, h1⟩
      exact ⟨hback, ⟨hp, ht, hpend⟩, h1⟩

/-- A step keeps the node running exactly if it is no stall. -/
theorem step_runs (hv : n.q.view.Inv ∧ n.q.view.Accounts) (hr : n.Runs)
    (h : n.step e = some n') : n'.Runs ↔ ¬ n.Stalls e := by
  cases e with
  | beaconTimerFired =>
    simp only [step, Option.ite_none_right_eq_some, Option.map_eq_some_iff] at h
    obtain ⟨_, q', hq, rfl⟩ := h
    have hm := (Queueing.step_move hv.1 hq).armed_other (fun _ _ _ _ _ => QEvent.noConfusion)
      fun _ _ => QEvent.noConfusion
    exact iff_of_true (runs_of_frame hr hm.2 (Nat.le_refl _)) id
  | recvfrom llAddr data | setRoot | unsetRoot =>
    cases h
    exact iff_of_true hr id
  | send i frame len r now =>
    simp only [step, Option.map_eq_some_iff] at h
    obtain ⟨q', hq, rfl⟩ := h
    obtain ⟨_, hm⟩ := (Queueing.step_move hv.1 hq).armed_send hv.1
    exact iff_of_true (runs_of_frame hr (hm.imp And.left And.right) (Nat.le_add_right _ _)) id
  | sendNullPkt i frame len r now =>
    simp only [step, Option.ite_none_left_eq_some, Option.map_eq_some_iff] at h
    obtain ⟨h0, q', hq, rfl⟩ := h
    exact runs_sendNullPkt hv.1 h0 (Queueing.step_move hv.1 hq)
  | sendDataTask r null =>
    simp only [step, Option.map_eq_some_iff] at h
    obtain ⟨q', hq, rfl⟩ := h
    exact runs_sendDataTask hv.1 hv.2 (Queueing.step_move hv.1 hq)
  | txRetryTimerFired | signalDone | subSendDone msg error delivered now =>
    simp only [step, Option.map_eq_some_iff] at h
    obtain ⟨q', hq, rfl⟩ := h
    have hm := (Queueing.step_move hv.1 hq).armed_other (fun _ _ _ _ _ => QEvent.noConfusion)
      fun _ _ => QEvent.noConfusion
    exact iff_of_true (runs_of_frame hr hm.2 (Nat.le_add_right _ _)) id

/-- The invariants of the queue are invariants of the node. -/
theorem inductive_accounts :
    machine.Inductive fun n => n.q.view.Inv ∧ n.q.view.Accounts where
  init n hn := Queueing.inductive_accounts.init n.q hn.1
  step n e n' hv h := by
    have hs := simulation.step n e n' h
    cases he : n.toQEvent e with
    | none =>
      rw [he] at hs
      rwa [show n'.q = n.q from hs]
    | some e' =>
      rw [he] at hs
      exact Queueing.inductive_accounts.step _ _ _ hv hs

/-- **A backlog keeps something armed.** In every state of a run something runs the queue again
while packets or virtual packets wait, exactly if no step of the run stalls the node. -/
theorem armed_iff {h : List (Node × NEvent)} (hr : machine.Run h n) :
    ((n.Backlog → n.Armed) ∧ ∀ p ∈ h, p.1.Backlog → p.1.Armed) ↔ ∀ p ∈ h, ¬ p.1.Stalls p.2 := by
  refine hr.forall_iff (P := Runs) (C := fun n e => ¬ n.Stalls e) inductive_accounts
    ?_ fun n e n' hv hr hs => step_runs hv hr hs
  intro n hn hback
  rw [Backlog, hn.1] at hback
  exact absurd hback (by decide)

/-- Eleven packets come and all leave: nine are delivered and two have become virtual ones. -/
def drain : List NEvent :=
  .recvfrom (some (.short 1)) (write4B 100 ++ write4B 0) ::
    (List.replicate 11 (.send 0 ⟨[], 0, 0, 0, .data⟩ 20 .success 0) ++
      [0, 9, 8, 7, 6, 5, 4, 3, 2].flatMap fun i =>
        [.sendDataTask .success .success, .subSendDone (.pool i) .success true 0])

/-- Nine packets are delivered and `UDPNull.sendto` accepts a null packet for the tenth. -/
theorem armed_iff_null : ∃ h n, machine.Run h n ∧ n.Backlog ∧ 0 < n.nullInTransit ∧
    ∀ p ∈ h, p.1.Backlog → p.1.Armed := by
  obtain ⟨h, n, hr, hp⟩ := Machine.exists_run_of_exec (M := machine)
    (s := ⟨.start .boot, (Beaconing.start .boot .success .success true).2, 0⟩)
    ⟨rfl, ⟨.boot, rfl⟩, rfl⟩ (drain ++ [.sendDataTask .success .success])
    (fun h n => n.Backlog ∧ 0 < n.nullInTransit ∧ ∀ p ∈ h, ¬ p.1.Stalls p.2) (by decide +kernel)
  obtain ⟨hb, hn, hno⟩ := of_decide_eq_true hp
  exact ⟨h, n, hr, hb, hn, ((armed_iff hr).2 hno).2⟩

/-- `UDPNull.sendto` refuses the null packet: a virtual packet waits and nothing is armed. -/
theorem armed_false : ¬ ∀ n, machine.Reachable n → n.Backlog → n.Armed := by
  intro hall
  obtain ⟨h, n, hr, hp⟩ := Machine.exists_run_of_exec (M := machine)
    (s := ⟨.start .boot, (Beaconing.start .boot .success .success true).2, 0⟩)
    ⟨rfl, ⟨.boot, rfl⟩, rfl⟩ (drain ++ [.sendDataTask .success .fail])
    (fun _ n => n.Backlog ∧ ¬ n.Armed) (by decide +kernel)
  obtain ⟨hback, hno⟩ := of_decide_eq_true hp
  exact hno (hall n ⟨h, hr⟩ hback)

end Node

end BackIP
