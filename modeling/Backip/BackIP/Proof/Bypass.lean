import Backip.BackIP.Egress
import Backip.BackIP.Proof.DispatchStep
import Backip.BackIP.Proof.QueueStep

/-!
# Only the beacon takes the beacon's way

The flag that sends a frame past the forwarding queue is set before the beacon is even queued, and
the first frame to reach `Send.send` afterwards takes it. That is the beacon as long as no frame
waits in the fragment queue when `BeaconTimer` fires, the beacon is one frame, and no other packet
is sent while the flag of a beacon that did not get into the queue is still set
(`Egress.InTurn`); then, in every run, the beacon alone passes by and no beacon is queued
(`Egress.onlyBeacons`). A data frame that waits takes the beacon's place
(`Egress.onlyBeacons_false`).
-/

set_option autoImplicit false

namespace BackIP

/-- A call that hands on no frame of the layer above and answers none. -/
def Call.Quiet : Call → Prop
  | .send .. | .sendDone .. | .subSendBeacon .. | .enqueue .. => False
  | _ => True

/-- A call that hands on `frame` by the way the beacon's flag says. -/
def Call.HandsOn (flag : Bool) (frame : Message) : Call → Prop
  | .subSendBeacon _ frame' _ _ => flag = true ∧ frame' = frame
  | .enqueue _ => flag = false
  | _ => True

theorem Call.Quiet.handsOn {c : Call} (h : c.Quiet) (flag : Bool) (frame : Message) :
    c.HandsOn flag frame := by
  cases c with
  | subSendBeacon | enqueue => exact h.elim
  | _ => trivial

namespace QueueView

variable {v v' v'' : QueueView} {e : QEvent}

/-- A `sendDone` for a frame of the layer above is to come: from the task, or from the link. -/
def Owes (v : QueueView) : Prop := v.donePosted = true ∨ ∃ i, MsgPtr.frag i ∈ v.pending

/-- And only one. -/
def OwesOne (v : QueueView) : Prop := ¬ (v.donePosted = true ∧ ∃ i, MsgPtr.frag i ∈ v.pending)

/-- Only quiet calls lie between `v` and `v'`. -/
def Quietly (v v' : QueueView) : Prop := ∃ l, v'.calls = l ++ v.calls ∧ ∀ c ∈ l, c.Quiet

theorem Quietly.refl (v : QueueView) : Quietly v v := ⟨[], rfl, List.forall_mem_nil _⟩

theorem Quietly.trans (h : Quietly v v') (h' : Quietly v' v'') : Quietly v v'' := by
  obtain ⟨l, hl, hq⟩ := h
  obtain ⟨l', hl', hq'⟩ := h'
  exact ⟨l' ++ l, by rw [hl', hl, List.append_assoc], List.forall_mem_append.2 ⟨hq', hq⟩⟩

/-- And the quiet calls `l`. -/
theorem Quietly.append (h : Quietly v v') (l : List Call) (h' : v''.calls = l ++ v'.calls)
    (hq : ∀ c ∈ l, c.Quiet) : Quietly v v'' :=
  h.trans ⟨l, h', hq⟩

theorem quietly_discard (v : QueueView) : Quietly v v.discard := by
  refine ⟨_, rfl, ?_⟩
  intro c hc
  obtain ⟨q, _, hc⟩ := List.mem_flatMap.1 hc
  simp only [List.mem_cons, List.not_mem_nil, or_false] at hc
  rcases hc with rfl | rfl | rfl <;> trivial

theorem quietly_check (v : QueueView) (b : Bool) : Quietly v (v.check b) := by
  cases b with
  | false => exact .refl v
  | true => exact (Quietly.refl v).append [_] rfl (List.forall_mem_singleton.2 trivial)

theorem quietly_chosen (v : QueueView) (b : Bool) (a : LlAddr) : Quietly v (v.chosen b a) :=
  (quietly_check { v with posted := false, nb := a } b).trans (quietly_discard _)

/-- A packet at the link is no frame of the layer above, and nothing is there when it is gone. -/
theorem Inv.no_frag_of_data (hv : v.Inv) (hp : v.pending = [v.msgOf v.current]) :
    (¬ ∃ i, MsgPtr.frag i ∈ v.pending) ∧
      ¬ ∃ i, MsgPtr.frag i ∈ v.pending.erase (v.msgOf v.current) := by
  constructor
  · rintro ⟨i, hi⟩
    rw [hp, List.mem_singleton] at hi
    exact hv.msg_ne_frag _ i hi.symm
  · rintro ⟨i, hi⟩
    simp [hp] at hi

/-- `Send.send` hands the frame on and uses the flag up; it owes an answer exactly if it accepts
the frame. -/
theorem Move.send_spec (hv : v.Inv) (howes : ¬ v.Owes) {i : Nat} {frame : Message} {len : Nat}
    {r : TinyError} {now : Nat} (hm : Move v (.send i frame len r now) v') :
    ∃ msg bypass ret l, v'.calls = .send msg bypass ret :: l ++ v.calls ∧
      (∀ c ∈ l, c.HandsOn v.flag frame) ∧ v'.flag = false ∧ (v'.Owes ↔ ret = .success) ∧
      v'.OwesOne := by
  obtain ⟨hdone, hpend⟩ := not_or.1 howes
  have hfalse : (.eretry : TinyError) ≠ .success := nofun
  cases hm with
  | bypassBusy _ _ _ _ _ hf hb =>
    exact ⟨_, _, _, [], rfl, List.forall_mem_nil _, rfl, iff_of_false howes hfalse,
      fun h => hdone h.1⟩
  | bypass _ _ _ _ _ hf hb =>
    have hnil := (hv.idle hb).1
    refine ⟨_, _, _, [_], rfl, List.forall_mem_singleton.2 ⟨hf, rfl⟩, rfl, ?_,
      fun h => hdone h.1⟩
    by_cases hr : r = .success
    · exact iff_of_true (.inr ⟨i, by simp [hr]⟩) hr
    · refine iff_of_false (fun h => howes ?_) hr
      simpa [Owes, hr] using h
  | refuse _ _ _ _ _ hf hfree =>
    obtain ⟨l, hl, hq⟩ := v.quietly_discard
    exact ⟨_, _, _, l, congrArg (List.cons _) hl, fun c hc => (hq c hc).handsOn _ _, hf,
      iff_of_false howes hfalse, fun h => hdone h.1⟩
  | accept _ _ _ _ _ m free q freeQe hf hfree hfreeQe =>
    obtain ⟨l, hl, hq⟩ := v.quietly_discard
    refine ⟨_, _, _, .enqueue q :: .pushTop .success :: l,
      congrArg (fun calls => _ :: _ :: _ :: calls) hl, ?_, hf, iff_of_true (.inl rfl) rfl,
      fun h => hpend h.2⟩
    exact List.forall_mem_cons.2 ⟨hf, List.forall_mem_cons.2 ⟨trivial,
      fun c hc => (hq c hc).handsOn _ _⟩⟩

/-- The other handlers hand on no frame of the layer above; they answer at most the one that is
owed an answer. -/
theorem Move.other_spec (hv : v.Inv) (hm : Move v e v')
    (hsend : ∀ i frame len r now, e ≠ .send i frame len r now) (hflag : e ≠ .sendingBeacon) :
    v'.flag = v.flag ∧
      (Quietly v v' ∧ (v'.Owes ↔ v.Owes) ∧ (v.OwesOne → v'.OwesOne) ∨
        ∃ msg error, v'.calls = .sendDone msg error :: v.calls ∧ v.Owes ∧
          (v.OwesOne → ¬ v'.Owes)) := by
  have hr := Quietly.refl v
  cases hm with
  | sendingBeacon => exact absurd rfl hflag
  | bypassBusy | bypass | refuse | accept => exact (hsend _ _ _ _ _ rfl).elim
  | taskBusy | txRetryTimerFired => exact ⟨rfl, .inl ⟨hr, .rfl, id⟩⟩
  | taskIdle _ _ b | taskNoNeighbour _ b =>
    exact ⟨rfl, .inl ⟨quietly_check { v with posted := false } b, .rfl, id⟩⟩
  | giveUp a _ b l q | localSendFailed a _ b l q =>
    refine ⟨rfl, .inl ⟨(v.quietly_chosen b a).append [_, _] rfl ?_, .rfl, id⟩⟩
    exact List.forall_mem_cons.2 ⟨trivial, List.forall_mem_singleton.2 trivial⟩
  | transmit a b l q frame len hp hb =>
    have hnil := (hv.idle hb).1
    have hfrag : ∀ i, MsgPtr.frag i ∉ v.msgOf q :: v.pending := fun i hi => by
      rw [hnil, List.mem_singleton] at hi
      exact hv.msg_ne_frag q i hi.symm
    refine ⟨rfl, .inl ⟨(v.quietly_chosen b a).append [_] rfl (List.forall_mem_singleton.2 trivial),
      or_congr_right ?_, fun _ h => h.2.elim hfrag⟩⟩
    exact iff_of_false (fun ⟨i, hi⟩ => hfrag i hi) fun ⟨i, hi⟩ => hfrag i (.tail _ hi)
  | sendNull a _ b =>
    refine ⟨rfl, .inl ⟨?_, .rfl, id⟩⟩
    exact (quietly_check { v with posted := false, nb := a } b).append [_] rfl
      (List.forall_mem_singleton.2 trivial)
  | signalDone hp =>
    refine ⟨rfl, .inr ⟨_, _, rfl, .inl hp, fun hone h => hone ⟨hp, h.resolve_left ?_⟩⟩⟩
    exact Bool.false_ne_true
  | retry m error now hm hs =>
    obtain ⟨rfl, hp, _, _⟩ := hv.data hm hs
    obtain ⟨hold, hnew⟩ := hv.no_frag_of_data hp
    exact ⟨rfl, .inl ⟨hr.append [_] rfl (List.forall_mem_singleton.2 trivial),
      or_congr_right (iff_of_false hnew hold), fun _ h => hnew h.2⟩⟩
  | deliver m error now txTime hm hs =>
    obtain ⟨rfl, hp, _, _⟩ := hv.data hm hs
    obtain ⟨hold, hnew⟩ := hv.no_frag_of_data hp
    refine ⟨rfl, .inl ⟨hr.append [_, _, _] rfl ?_, or_congr_right (iff_of_false hnew hold),
      fun _ h => hnew h.2⟩⟩
    exact List.forall_mem_cons.2 ⟨trivial, List.forall_mem_cons.2 ⟨trivial,
      List.forall_mem_singleton.2 trivial⟩⟩
  | beaconDone m error delivered now hm hs =>
    obtain ⟨i, rfl, hp, _, _⟩ := hv.beacon hm hs
    refine ⟨rfl, .inr ⟨_, _, rfl, .inr ⟨i, hm⟩, fun hone h => hone ?_⟩⟩
    rcases h with h | ⟨j, hj⟩
    · exact ⟨h, i, hm⟩
    · simp [hp] at hj

end QueueView

namespace Egress

variable {s s' : Egress} {e : EEvent}

/-- A fragment that was handed over and accepted is answered once. -/
structure Inv (s : Egress) : Prop where
  q : s.q.view.Inv
  d : s.d.Inv []
  owes : s.q.view.Owes ↔ s.d.radioBusy = true
  one : s.q.view.OwesOne
  handed : s.d.radioBusy = true → s.d.frames ≠ []

/-- The next frame to be handed over is the announced beacon's exactly while the flag is set. -/
structure InOrder (s : Egress) : Prop where
  flagged : s.q.sendingBeacon = true → ∀ x rest, s.d.waiting = x :: rest →
    x.2.origin = .beacon s.announced ∧ ∀ y ∈ rest, y.2.origin = .data
  clear : s.q.sendingBeacon = false → ∀ y ∈ s.d.waiting, y.2.origin = .data

/-- `BeaconTimer` fires only while no frame waits, with a beacon of at most one frame; no other
packet is sent while the flag is set and no beacon waits to use it up. -/
def InTurn (s : Egress) : EEvent → Prop
  | .beaconTimerFired none => s.d.waiting = []
  | .beaconTimerFired (some frags) => s.d.waiting = [] ∧ frags.length ≤ 1
  | .send _ _ => s.q.sendingBeacon = true → s.d.waiting ≠ []
  | _ => True

instance (s : Egress) : (e : EEvent) → Decidable (s.InTurn e)
  | .beaconTimerFired none => inferInstanceAs (Decidable (s.d.waiting = []))
  | .beaconTimerFired (some frags) =>
    inferInstanceAs (Decidable (s.d.waiting = [] ∧ frags.length ≤ 1))
  | .send _ _ => inferInstanceAs (Decidable (s.q.sendingBeacon = true → s.d.waiting ≠ []))
  | .sendTask .. | .sendDataTask .. | .txRetryTimerFired | .signalDone | .subSendDone .. =>
    isTrue trivial

/-- A frame the forwarding queue transmits without queueing it is the announced beacon's, and one it
queues is no beacon's. -/
def RightWay (s : Egress) (e : EEvent) : Prop :=
  ∀ s', s.step e = some s' →
    (∀ msg frame len ret, .subSendBeacon msg frame len ret ∈ newCalls s.q s'.q →
      frame.origin = .beacon s.announced) ∧
    ∀ qe frame, .enqueue qe ∈ newCalls s.q s'.q → s.handed e = some frame → frame.origin = .data

/-! ## One step -/

theorem foldr_called {l : List Call} (h : ∀ c ∈ l, c.Quiet) (d : Dispatch) :
    l.foldr (fun c d => d.called c) d = d := by
  induction l with
  | nil => rfl
  | cons c l ih =>
    obtain ⟨hc, hl⟩ := List.forall_mem_cons.1 h
    rw [List.foldr_cons, ih hl]
    cases c with
    | sendDone => exact hc.elim
    | _ => rfl

/-- The handlers of the forwarding queue that hand on no frame of the layer above. -/
theorem after_spec (hv : s.Inv) {q' : Queueing} {e' : QEvent}
    (hm : QueueView.Move s.q.view e' q'.view)
    (hsend : ∀ i frame len r now, e' ≠ .send i frame len r now) (hflag : e' ≠ .sendingBeacon) :
    (s.after q').Inv ∧ (s.after q').d.waiting = s.d.waiting ∧
      q'.sendingBeacon = s.q.sendingBeacon ∧
      ∀ c ∈ newCalls s.q q', ∀ flag frame, c.HandsOn flag frame := by
  have hq := hv.q.move hm
  obtain ⟨hf, hother⟩ := hm.other_spec hv.q hsend hflag
  rcases hother with ⟨⟨l, hl, hquiet⟩, howes, hone⟩ | ⟨msg, error, hl, howes, hone⟩
  · have hnew : newCalls s.q q' = l := newCalls_eq hl
    have hd : (s.after q').d = s.d := by
      rw [after, hnew]
      exact foldr_called hquiet s.d
    refine ⟨⟨hq, ?_, ?_, hone hv.one, ?_⟩, by rw [hd], hf, ?_⟩
    · rw [hd]
      exact hv.d
    · rw [hd]
      exact howes.trans hv.owes
    · rw [hd]
      exact hv.handed
    · rw [hnew]
      exact fun c hc flag frame => (hquiet c hc).handsOn flag frame
  · have hnew : newCalls s.q q' = [.sendDone msg error] := newCalls_eq hl
    have hd : (s.after q').d = s.d.sendDone := by
      rw [after, hnew]
      rfl
    have hbusy := hv.owes.1 howes
    obtain ⟨h1, h2, h3⟩ := Dispatch.sendDone_spec hv.d hbusy (hv.handed hbusy)
    refine ⟨⟨hq, ?_, ?_, fun h => hone hv.one (.inl h.1), ?_⟩, by rw [hd, h2], hf, ?_⟩
    · rw [hd]
      exact h1
    · rw [hd, h3]
      exact iff_of_false (hone hv.one) Bool.false_ne_true
    · intro h
      rw [hd, h3] at h
      cases h
    · rw [hnew]
      exact List.forall_mem_singleton.2 fun _ _ => trivial

/-- `sendTask` hands the first of the frames that wait to `Send.send`. -/
theorem sendTask_spec (hv : s.Inv) {o : Nat} (ho : s.d.toSend = some o) {r : TinyError} {now : Nat}
    {q' : Queueing}
    (hm : QueueView.Move s.q.view (.send o (s.d.frag o) (s.d.frag o).length r now) q'.view)
    {d' : Dispatch} (hd' : d' = { s.d with sendTaskPosted := false }.sendTask (sendResult q')) :
    Inv { s with q := q', d := d' } ∧
      (∃ x rest, s.d.waiting = x :: rest ∧ x.2 = s.d.frag o ∧ ∀ y ∈ d'.waiting, y ∈ rest) ∧
      q'.sendingBeacon = false ∧
      ∀ c ∈ newCalls s.q q', c.HandsOn s.q.sendingBeacon (s.d.frag o) := by
  have hd : Dispatch.Inv { s.d with sendTaskPosted := false } [] := ⟨hv.d.custody, hv.d.refs⟩
  obtain ⟨hidle, h1, h2, h3, h4⟩ := Dispatch.sendTask_some hd ho (sendResult q')
  have hno : ¬ s.q.view.Owes := fun h => by
    have hbusy : s.d.radioBusy = false := hidle
    rw [hv.owes.1 h] at hbusy
    cases hbusy
  obtain ⟨msg, bypass, ret, l, hl, hhands, hf, howes, hone⟩ := hm.send_spec hv.q hno
  have hcalls : q'.calls = .send msg bypass ret :: l ++ s.q.calls := hl
  have hret : sendResult q' = ret := by rw [sendResult, hcalls, List.cons_append]
  rw [hret] at h3 h4
  rw [hret] at hd'
  subst hd'
  rw [hret] at h1 h2
  refine ⟨⟨hv.q.move hm, h1, ?_, hone, fun hb => h4 ?_⟩, h2, hf, ?_⟩
  · rw [h3, decide_eq_true_eq]
    exact howes
  · rw [h3] at hb
    exact of_decide_eq_true hb
  · rw [newCalls_eq hcalls]
    exact List.forall_mem_cons.2 ⟨trivial, hhands⟩

/-- Fragments of one more packet. -/
theorem adds_spec (hv : s.Inv) {d' : Dispatch} {new : List (Nat × Message)} (hd' : d'.Inv [])
    (hadds : Dispatch.Adds s.d d' new) : Inv { s with d := d' } where
  q := hv.q
  d := hd'
  owes := hv.owes.trans (by rw [show d'.radioBusy = s.d.radioBusy from hadds.busy])
  one := hv.one
  handed hb := by
    have hb' : d'.radioBusy = true := hb
    rw [hadds.busy] at hb'
    change d'.frames ≠ []
    rw [hadds.frames]
    exact List.append_ne_nil_of_left_ne_nil (hv.handed hb') new

/-- What a step does. -/
inductive Moves (s : Egress) : EEvent → Egress → Prop
  | send (broadcast : Bool) (frags : List (List UInt8)) :
      Moves s (.send broadcast frags) { s with d := (s.d.send .data broadcast frags).1 }
  | beacon (frags : Option (List (List UInt8))) :
      Moves s (.beaconTimerFired frags)
        { q := { s.q with sendingBeacon := true }
          d := match frags with
            | none => s.d
            | some frags => (s.d.send (.beacon (s.announced + 1)) true frags).1
          announced := s.announced + 1 }
  /-- `sendTask` has nothing to hand over. -/
  | rest (r : TinyError) (now : Nat) (hnone : s.d.toSend = none) :
      Moves s (.sendTask r now)
        { s with d := { s.d with sendTaskPosted := false }.sendTask .success }
  | hand (r : TinyError) (now o : Nat) (q' : Queueing) (hsend : s.d.toSend = some o)
      (hm : QueueView.Move s.q.view (.send o (s.d.frag o) (s.d.frag o).length r now) q'.view) :
      Moves s (.sendTask r now)
        { s with q := q', d := { s.d with sendTaskPosted := false }.sendTask (sendResult q') }
  /-- A handler of the forwarding queue. -/
  | below (e : EEvent) (e' : QEvent) (q' : Queueing) (hm : QueueView.Move s.q.view e' q'.view)
      (hsend : ∀ i frame len r now, e' ≠ .send i frame len r now) (hflag : e' ≠ .sendingBeacon) :
      Moves s e (s.after q')

theorem step_moves (hv : s.q.view.Inv) (h : s.step e = some s') : s.Moves e s' := by
  cases e with
  | send broadcast frags =>
    cases h
    exact .send broadcast frags
  | beaconTimerFired frags =>
    simp only [step, Option.map_eq_some_iff] at h
    obtain ⟨q', hq, rfl⟩ := h
    cases hq
    exact .beacon frags
  | sendTask r now =>
    simp only [step, Option.ite_none_right_eq_some] at h
    obtain ⟨_, h⟩ := h
    split at h
    · rename_i hnone
      cases h
      exact .rest r now hnone
    · rename_i o hsend
      simp only [Option.map_eq_some_iff] at h
      obtain ⟨q', hq, rfl⟩ := h
      exact .hand r now o q' hsend (Queueing.step_move hv hq)
  | sendDataTask nb r | txRetryTimerFired | signalDone | subSendDone msg error delivered now =>
    simp only [step, Option.map_eq_some_iff] at h
    obtain ⟨q', hq, rfl⟩ := h
    exact .below _ _ q' (Queueing.step_move hv hq) (fun _ _ _ _ _ => QEvent.noConfusion)
      QEvent.noConfusion

/-- Every step keeps the invariant. -/
theorem Moves.inv (hv : s.Inv) (hm : s.Moves e s') : s'.Inv := by
  cases hm with
  | send broadcast frags =>
    obtain ⟨hd', new, _, _, hadds⟩ := Dispatch.send_spec hv.d .data broadcast frags
    exact adds_spec hv hd' hadds
  | beacon frags =>
    have hflag : Inv { s with
        q := { s.q with sendingBeacon := true }, announced := s.announced + 1 } :=
      ⟨hv.q.move (.sendingBeacon _), hv.d, hv.owes, hv.one, hv.handed⟩
    cases frags with
    | none => exact hflag
    | some frags =>
      obtain ⟨hd', new, _, _, hadds⟩ :=
        Dispatch.send_spec hv.d (.beacon (s.announced + 1)) true frags
      exact adds_spec hflag hd' hadds
  | rest r now hnone =>
    have hd : Dispatch.Inv { s.d with sendTaskPosted := false } [] := ⟨hv.d.custody, hv.d.refs⟩
    obtain ⟨h1, _, h3, h4⟩ := Dispatch.sendTask_none hd hnone .success
    refine ⟨hv.q, h1, hv.owes.trans (by rw [h3]), hv.one, ?_⟩
    intro hb
    rw [h3] at hb
    rw [h4 hb]
    exact hv.handed hb
  | hand r now o q' hsend hm => exact (sendTask_spec hv hsend hm rfl).1
  | below e e' q' hm hsend hflag => exact (after_spec hv hm hsend hflag).1

/-- Every step in turn keeps the order. -/
theorem Moves.inOrder (hv : s.Inv) (ho : s.InOrder) (hc : s.InTurn e) (hm : s.Moves e s') :
    s'.InOrder := by
  cases hm with
  | send broadcast frags =>
    obtain ⟨_, new, _, horigins, hadds⟩ := Dispatch.send_spec hv.d .data broadcast frags
    have hw := hadds.waiting hv.handed
    have hnew : ∀ y ∈ new.filter fun x => !(s.d.send .data broadcast frags).1.failed x.1,
        y.2.origin = .data := fun y hy => horigins y (List.mem_of_mem_filter hy)
    constructor
    · intro hf x rest hx
      -- the beacon is still the first to wait
      obtain ⟨z, old, hold⟩ := List.exists_cons_of_ne_nil (hc hf)
      obtain ⟨hz, hrest⟩ := ho.flagged hf z old hold
      rw [hw, hold, List.cons_append] at hx
      obtain ⟨rfl, rfl⟩ := List.cons.inj hx
      exact ⟨hz, List.forall_mem_append.2 ⟨hrest, hnew⟩⟩
    · intro hf y hy
      rw [hw] at hy
      rcases List.mem_append.1 hy with hy | hy
      · exact ho.clear hf y hy
      · exact hnew y hy
  | beacon frags =>
    refine ⟨?_, fun hf => nomatch hf⟩
    intro _ x rest hx
    cases frags with
    | none =>
      have hempty : s.d.waiting = [] := hc
      have hx' : s.d.waiting = x :: rest := hx
      rw [hempty] at hx'
      cases hx'
    | some frags =>
      obtain ⟨hempty, hone⟩ := hc
      obtain ⟨_, new, hlen, horigins, hadds⟩ :=
        Dispatch.send_spec hv.d (.beacon (s.announced + 1)) true frags
      have hw := hadds.waiting hv.handed
      rw [hempty, List.nil_append] at hw
      have hx' := hw.symm.trans hx
      have hle := List.length_filter_le
        (fun x => !(s.d.send (.beacon (s.announced + 1)) true frags).1.failed x.1) new
      have hmem : x ∈ new := (List.mem_filter.1 (by rw [hx']; exact List.mem_cons_self)).1
      rw [hx', List.length_cons] at hle
      have hrest : rest = [] := List.length_eq_zero_iff.1 (by omega)
      exact ⟨horigins x hmem, by rw [hrest]; exact List.forall_mem_nil _⟩
  | rest r now hnone =>
    have hd : Dispatch.Inv { s.d with sendTaskPosted := false } [] := ⟨hv.d.custody, hv.d.refs⟩
    obtain ⟨_, h2, _, _⟩ := Dispatch.sendTask_none hd hnone .success
    have hw : (Dispatch.sendTask { s.d with sendTaskPosted := false } .success).waiting =
        s.d.waiting := h2
    exact ⟨fun hf => hw ▸ ho.flagged hf, fun hf => hw ▸ ho.clear hf⟩
  | hand r now o q' hsend hm =>
    obtain ⟨_, ⟨x, rest, hwait, _, hsub⟩, hf, _⟩ := sendTask_spec hv hsend hm rfl
    constructor
    · intro hf'
      rw [show q'.sendingBeacon = true from hf'] at hf
      cases hf
    · intro _ y hy
      -- whichever frame went, data frames remain
      have hy := hsub y hy
      cases hflag : s.q.sendingBeacon with
      | false => exact ho.clear hflag y (hwait ▸ .tail _ hy)
      | true => exact (ho.flagged hflag x rest hwait).2 y hy
  | below e e' q' hm hsend hflag =>
    obtain ⟨_, hw, hf, _⟩ := after_spec hv hm hsend hflag
    constructor
    · intro hf'
      rw [hw]
      exact ho.flagged (hf ▸ hf')
    · intro hf'
      rw [hw]
      exact ho.clear (hf ▸ hf')

/-- In order, every frame goes the right way. -/
theorem rightWay_of_inOrder (hv : s.Inv) (ho : s.InOrder) (e : EEvent) : s.RightWay e := by
  intro s' h
  have hsame {q' : Queueing} (hq : q'.calls = s.q.calls) : newCalls s.q q' = [] := newCalls_eq hq
  cases step_moves hv.q h with
  | send | beacon | rest =>
    constructor
    · intro msg frame len ret hc
      exact absurd (hsame rfl ▸ hc) List.not_mem_nil
    · intro qe frame hc
      exact absurd (hsame rfl ▸ hc) List.not_mem_nil
  | hand r now o q' hsend hm =>
    obtain ⟨_, ⟨x, rest, hwait, hx, _⟩, _, hhands⟩ := sendTask_spec hv hsend hm rfl
    constructor
    · intro msg frame len ret hc
      obtain ⟨hflag, rfl⟩ := hhands _ hc
      rw [← hx, (ho.flagged hflag x rest hwait).1]
    · intro qe frame hc hframe
      have hflag : s.q.sendingBeacon = false := hhands _ hc
      rw [handed, hsend, Option.map_some, Option.some.injEq] at hframe
      rw [← hframe, ← hx]
      exact ho.clear hflag x (hwait ▸ .head _)
  | below e e' q' hm hsend hflag =>
    obtain ⟨_, _, _, hhands⟩ := after_spec hv hm hsend hflag
    constructor
    · intro msg frame len ret hc
      exact absurd (hhands _ hc false frame).1 Bool.false_ne_true
    · intro qe frame hc
      exact absurd (hhands _ hc true frame) (Bool.false_ne_true ∘ Eq.symm)

/-! ## Every run -/

theorem inv_start : Inv ⟨Queueing.boot.start, Dispatch.boot, 0⟩ where
  q := QueueView.Inv.init
  d := Dispatch.inv_boot
  owes := iff_of_false (fun h => h.elim Bool.false_ne_true fun ⟨_, hi⟩ => nomatch hi)
    Bool.false_ne_true
  one h := Bool.false_ne_true h.1
  handed := Bool.false_ne_true.elim

theorem inOrder_start : InOrder ⟨Queueing.boot.start, Dispatch.boot, 0⟩ where
  flagged := Bool.false_ne_true.elim
  clear _ _ hy := nomatch hy

/-- **Only the beacon takes the beacon's way**, and no beacon is queued, as long as the beacons are
sent in turn. -/
theorem onlyBeacons {h : List (Egress × EEvent)} {s : Egress} (hr : machine.Run h s)
    (hturn : ∀ p ∈ h, p.1.InTurn p.2) : ∀ p ∈ h, p.1.RightWay p.2 := by
  have hstates := (Machine.Run.inv_of_steps (P := fun s => s.Inv ∧ s.InOrder) (C := InTurn)
    (fun s hs => (show s = _ from hs) ▸ ⟨inv_start, inOrder_start⟩)
    (fun s e s' hs hc h =>
      have hm := step_moves hs.1.q h
      ⟨hm.inv hs.1, hm.inOrder hs.1 hs.2 hc⟩) hr hturn).2
  exact fun p hp => rightWay_of_inOrder (hstates p hp).1 (hstates p hp).2 p.2

/-- A data frame is queued, and the beacon behind it passes by. -/
theorem onlyBeacons_sent : ∃ h s, machine.Run h s ∧
    (∃ qe, .enqueue qe ∈ s.q.calls) ∧
    (∃ msg frame len, .subSendBeacon msg frame len .success ∈ s.q.calls) ∧
    ∀ p ∈ h, p.1.RightWay p.2 := by
  obtain ⟨h, s, hr, hp⟩ := Machine.exists_run_of_exec (M := machine) rfl
    [.send false [[1]], .sendTask .success 0, .signalDone, .beaconTimerFired (some [[2]]),
      .sendTask .success 0]
    (fun h s => .enqueue (.entry 0) ∈ s.q.calls ∧
      .subSendBeacon (.frag 2) ⟨[2], 1, 0, 10, .beacon 1⟩ 1 .success ∈ s.q.calls ∧
      ∀ p ∈ h, p.1.InTurn p.2) (by decide)
  obtain ⟨hq, hb, hturn⟩ := of_decide_eq_true hp
  exact ⟨h, s, hr, ⟨_, hq⟩, ⟨_, _, _, hb⟩, onlyBeacons hr hturn⟩

/-- A data frame waits while `BeaconTimer` fires, and passes by in the beacon's place. -/
theorem onlyBeacons_false :
    ¬ ∀ h s, machine.Run h s → ∀ p ∈ h, p.1.RightWay p.2 := by
  intro hall
  obtain ⟨h, s, hr, hp⟩ := Machine.exists_run_of_exec (M := machine) rfl
    [.send false [[1]], .beaconTimerFired (some [[2]])]
    (fun _ s => (s.step (.sendTask .success 0)).any fun s' =>
      .subSendBeacon (.frag 0) ⟨[1], 1, 2, 10, .data⟩ 1 .success ∈ newCalls s.q s'.q)
    (by decide)
  obtain ⟨s', hs, hmem⟩ := (Option.any_eq_true ..).1 hp
  have hr' : machine.Run ((s, .sendTask .success 0) :: h) s' := .step hr hs
  have hright := hall _ _ hr' _ (.head _) s' hs
  cases hright.1 _ _ _ _ (of_decide_eq_true hmem)

end Egress

end BackIP
