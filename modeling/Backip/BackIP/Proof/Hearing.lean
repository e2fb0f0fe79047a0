import Backip.BackIP.Node
import Backip.BackIP.Proof.Charges

/-!
# What a node remembers of its beacons

`my_last_bp` is set when a frame takes the beacon's way to the link. It is what the neighbours heard
last as long as the backpressure then is what they hear last by it, and no beacon reaches the link
by the data's way with another value; and a change of the backpressure starts the beacon's timer
unless `sendDataTask` finds the radio busy (`Hearing.remembers_iff`).
-/

set_option autoImplicit false

namespace BackIP

namespace Queueing

variable {s s₁ s' : Queueing}

/-! ## What `sendDataTask` keeps -/

/-- A call hands no frame to the link, or the packet's in its entry. -/
def Hands (s : Queueing) : Call → Prop
  | .subSendData q _ frame _ _ => frame.origin = (s.mem (s.qe q).msg).origin
  | .subSendBeacon .. => False
  | _ => True

/-- What `sendDataTask` and its functions keep: what the node remembers, and the packets. -/
structure Keeps (s s' : Queueing) : Prop where
  myLastBp : s'.myLastBp = s.myLastBp
  origin : ∀ m, (s'.mem m).origin = (s.mem m).origin
  msg : ∀ q, (s'.qe q).msg = (s.qe q).msg
  calls : ∃ l, s'.calls = l ++ s.calls ∧ ∀ c ∈ l, s.Hands c

namespace Keeps

theorem refl (s : Queueing) : Keeps s s := ⟨rfl, fun _ => rfl, fun _ => rfl, [], rfl, List.forall_mem_nil _⟩

theorem trans (h : Keeps s s₁) (h' : Keeps s₁ s') : Keeps s s' where
  myLastBp := h'.myLastBp.trans h.myLastBp
  origin m := (h'.origin m).trans (h.origin m)
  msg q := (h'.msg q).trans (h.msg q)
  calls := by
    obtain ⟨l, hl, hc⟩ := h.calls
    obtain ⟨l', hl', hc'⟩ := h'.calls
    refine ⟨l' ++ l, by rw [hl', hl, List.append_assoc], fun c hmem => ?_⟩
    rcases List.mem_append.1 hmem with hmem | hmem
    · have hhands := hc' c hmem
      cases c with
      | subSendData q dst frame len ret =>
        have hframe : frame.origin = (s₁.mem (s₁.qe q).msg).origin := hhands
        rw [h.origin, h.msg] at hframe
        exact hframe
      | subSendBeacon msg frame len ret => exact hhands.elim
      | _ => exact trivial
    · exact hc c hmem

theorem discardOne (s : Queueing) : Keeps s s.discardOne :=
  ⟨rfl, fun _ => rfl, fun _ => rfl, [_, _, _], rfl, by simp [Hands]⟩

theorem discardLoop (n : Nat) (s : Queueing) : Keeps s (discardLoop n s) := by
  induction n generalizing s with
  | zero => exact refl s
  | succ n ih =>
    rw [Queueing.discardLoop]
    split
    · exact (discardOne s).trans (ih _)
    · exact refl s

theorem conditionalDiscard (s : Queueing) : Keeps s s.conditionalDiscard := discardLoop _ s

theorem checkBp (s : Queueing) : Keeps s s.checkBp := by
  unfold Queueing.checkBp
  split
  · exact ⟨rfl, fun _ => rfl, fun _ => rfl, [_], rfl, by simp [Hands]⟩
  · exact refl s

/-- The number of a packet's attempts has no part in it. -/
theorem msg_update (f : QePtr → QueueEntry) (q : QePtr) (n : Nat) (q' : QePtr) :
    (Function.update f q { f q with txCount := n } q').msg = (f q').msg := by
  by_cases hq : q' = q
  · subst hq
    rw [Function.update_self]
  · rw [Function.update_of_ne hq]

theorem origin_update (f : MsgPtr → Message) (m : MsgPtr) {x : Message}
    (hx : x.origin = (f m).origin) (m' : MsgPtr) :
    (Function.update f m x m').origin = (f m').origin := by
  by_cases hm : m' = m
  · subst hm
    rw [Function.update_self, hx]
  · rw [Function.update_of_ne hm]

theorem giveUp (s : Queueing) (q : QePtr) : Keeps s (s.giveUp q) := by
  let charged : Queueing := { s with
    sendStats := { s.sendStats with droppedFail := inc16 s.sendStats.droppedFail }
    sendingData := 0 }.record (.giveUp q s.currNbLlAddr (2 * maxRetxAttempts))
  have hcharged : Keeps s charged := ⟨rfl, fun _ => rfl, fun _ => rfl, [_], rfl, by simp [Hands]⟩
  have hdiscard := hcharged.trans (conditionalDiscard charged)
  have hpush : ∃ ret, (s.giveUp q).calls = .pushTop ret :: charged.conditionalDiscard.calls :=
    ⟨_, rfl⟩
  obtain ⟨l, hl, hc⟩ := hdiscard.calls
  obtain ⟨ret, hret⟩ := hpush
  refine ⟨hdiscard.myLastBp, hdiscard.origin, fun q' => ?_, .pushTop ret :: l, ?_, ?_⟩
  · exact (msg_update _ q 0 q').trans (hdiscard.msg q')
  · rw [hret, hl]
    rfl
  · exact List.forall_mem_cons.2 ⟨trivial, hc⟩

theorem handOff (s : Queueing) (q : QePtr) (len : Nat) (r : TinyError) :
    Keeps s (s.handOff q len r) := by
  have hmsg := msg_update s.qe q (inc16 (s.qe q).txCount)
  let rewritten : Queueing := { s with suppressSendDone := true }.rewriteDstLlAddr (s.qe q).msg
  have hrewritten : ∀ m, (rewritten.mem m).origin = (s.mem m).origin := fun m =>
    origin_update s.mem (s.qe q).msg
      (x := { s.mem (s.qe q).msg with
        data := splice (s.mem (s.qe q).msg).data 6 s.currNbLlAddr.bytes }) rfl m
  have horigin : ∀ m, ((s.handOff q len r).mem m).origin = (s.mem m).origin := fun m =>
    (origin_update rewritten.mem _ (x := { rewritten.mem _ with maxRetries := 2, retryDelay := 50 })
      rfl m).trans (hrewritten m)
  refine ⟨rfl, horigin, hmsg, [_], rfl, ?_⟩
  intro c hmem
  rw [List.mem_singleton.1 hmem]
  exact (horigin _).trans (congrArg (fun m => (s.mem m).origin) (hmsg q))

theorem transmit (s : Queueing) (q : QePtr) (len : Nat) (r : TinyError) :
    Keeps s (s.transmit q len r) := by
  unfold Queueing.transmit
  split
  · exact handOff s q len r
  · refine (handOff s q len r).trans ⟨rfl, fun _ => rfl, msg_update _ q _, [_], rfl, ?_⟩
    simp [Hands]

theorem sendData (s : Queueing) (r : TinyError) : Keeps s (s.sendData r) := by
  have hpop : ∀ s' : Queueing, Keeps { s with
      sendStack := s.sendStack.popTop.2, currentSendQe := s.sendStack.popTop.1 } s' → Keeps s s' :=
    fun _ h => ⟨h.myLastBp, h.origin, h.msg, h.calls⟩
  unfold Queueing.sendData
  dsimp only
  split
  · exact hpop _ (giveUp _ _)
  · exact hpop _ (transmit _ _ _ _)

theorem sendTo (s : Queueing) (a : LlAddr) (r : TinyError) : Keeps s (s.sendTo a r) := by
  have hchosen : ∀ s' : Queueing,
      Keeps { { s with currNbLlAddr := a }.conditionalDiscard with radioBusy := true } s' →
        Keeps s s' := fun s' h => by
    have hdiscard := conditionalDiscard { s with currNbLlAddr := a }
    have hs : Keeps s { { s with currNbLlAddr := a }.conditionalDiscard with radioBusy := true } :=
      ⟨hdiscard.myLastBp, hdiscard.origin, hdiscard.msg, hdiscard.calls⟩
    exact hs.trans h
  unfold Queueing.sendTo
  dsimp only
  split
  · exact hchosen _ (sendData _ _)
  · exact hchosen _ ⟨rfl, fun _ => rfl, fun _ => rfl, [_], rfl, by simp [Hands]⟩

/-- What follows `check_bp`. -/
theorem sendDataTask_free (s : Queueing) (hb : s.radioBusy = false) (nb : Option LlAddr)
    (r : TinyError) : Keeps s.checkBp (s.sendDataTask nb r) := by
  unfold Queueing.sendDataTask
  rw [hb]
  dsimp only
  rw [if_neg Bool.false_ne_true]
  split
  · exact refl _
  · cases nb with
    | none => exact ⟨rfl, fun _ => rfl, fun _ => rfl, [], rfl, List.forall_mem_nil _⟩
    | some a => exact sendTo _ a r

theorem sendDataTask (s : Queueing) (nb : Option LlAddr) (r : TinyError) :
    Keeps s (s.sendDataTask nb r) := by
  cases hb : s.radioBusy with
  | false => exact (checkBp s).trans (sendDataTask_free s hb nb r)
  | true =>
    unfold Queueing.sendDataTask
    rw [if_pos hb]
    exact ⟨rfl, fun _ => rfl, fun _ => rfl, [], rfl, List.forall_mem_nil _⟩

end Keeps

/-! ## What is remembered -/

theorem myLastBp_enqueue (s : Queueing) (msg : MsgPtr) (len now : Nat) :
    (s.enqueue msg len now).myLastBp = s.myLastBp := by
  have hdiscard := (Keeps.conditionalDiscard { s with
    sendStats := { s.sendStats with sentTotal := inc16 s.sendStats.sentTotal } }).myLastBp
  have hpush : ∀ (s' : Queueing) newMsg ins, (s'.push msg newMsg ins now).myLastBp = s'.myLastBp :=
    fun s' newMsg ins => by
      unfold push
      dsimp only
      split <;> rfl
  unfold enqueue
  dsimp only
  split
  · exact hdiscard
  · split
    · exact hdiscard
    · split
      · exact hdiscard
      · exact (hpush _ _ _).trans hdiscard

theorem myLastBp_subSendDone (s : Queueing) (msg : MsgPtr) (error : TinyError) (delivered : Bool)
    (now : Nat) : (s.subSendDone msg error delivered now).myLastBp = s.myLastBp := by
  have hpost : ∀ s' : Queueing, s'.postIfBacklog.myLastBp = s'.myLastBp := fun s' => by
    unfold postIfBacklog
    split <;> rfl
  unfold subSendDone
  split
  · split
    · rfl
    · exact hpost _
  · exact hpost _

/-- A `Send.send` that takes the beacon's way to the link. -/
def Bypasses (s : Queueing) : QEvent → Prop
  | .send .. => s.sendingBeacon = true ∧ s.radioBusy = false
  | _ => False

instance (s : Queueing) : (e : QEvent) → Decidable (s.Bypasses e)
  | .send .. => inferInstanceAs (Decidable (_ ∧ _))
  | .sendingBeacon | .sendDataTask .. | .txRetryTimerFired | .signalDone | .subSendDone .. =>
    .isFalse id

/-- Only a frame that takes the beacon's way changes what is remembered. -/
theorem myLastBp_step {e : QEvent} (h : s.step e = some s') :
    s'.myLastBp = if s.Bypasses e then (s.getBp : Int) else s.myLastBp := by
  cases e with
  | sendingBeacon =>
    obtain rfl := Option.some.inj h
    exact (if_neg id).symm
  | send i frame len r now =>
    obtain rfl := Option.some.inj h
    unfold send bypass
    dsimp only
    by_cases hflag : s.sendingBeacon = true
    · rw [if_pos hflag]
      by_cases hbusy : s.radioBusy = true
      · have hnot : ¬ s.Bypasses (.send i frame len r now) := fun hb => by
          cases hbusy.symm.trans hb.2
        rw [if_pos hbusy, if_neg hnot]
        rfl
      · have hby : s.Bypasses (.send i frame len r now) := ⟨hflag, Bool.not_eq_true _ ▸ hbusy⟩
        rw [if_neg hbusy, if_pos hby]
        rfl
    · have hnot : ¬ s.Bypasses (.send i frame len r now) := fun hb => hflag hb.1
      rw [if_neg hflag, if_neg hnot]
      exact myLastBp_enqueue _ _ _ _
  | sendDataTask nb r =>
    simp only [step] at h
    split at h
    · obtain rfl := Option.some.inj h
      exact (Keeps.sendDataTask _ nb r).myLastBp.trans (if_neg id).symm
    · cases h
  | txRetryTimerFired =>
    simp only [step] at h
    split at h
    · obtain rfl := Option.some.inj h
      exact (if_neg id).symm
    · cases h
  | signalDone =>
    simp only [step] at h
    split at h
    · obtain rfl := Option.some.inj h
      exact (if_neg id).symm
    · cases h
  | subSendDone msg error delivered now =>
    simp only [step] at h
    split at h
    · obtain rfl := Option.some.inj h
      exact (myLastBp_subSendDone _ _ _ _ _).trans (if_neg id).symm
    · cases h

/-- What `sendDataTask` hands to the link. -/
theorem hands_step {nb : Option LlAddr} {r : TinyError}
    (h : s.step (.sendDataTask nb r) = some s') : ∀ c ∈ newCalls s s', s.Hands c := by
  simp only [step, Option.ite_none_right_eq_some, Option.some.injEq] at h
  obtain ⟨-, rfl⟩ := h
  obtain ⟨l, hl, hc⟩ := (Keeps.sendDataTask { s with sendDataPosted := false } nb r).calls
  have hnew : newCalls s ({ s with sendDataPosted := false }.sendDataTask nb r) = l :=
    newCalls_eq hl
  rw [hnew]
  exact hc

end Queueing

namespace QueueView

variable {v v' : QueueView} {e : QEvent}

/-! ## What the neighbours hear -/

/-- No call hands a beacon's frame to the link that accepts it. -/
def Unheard (calls : List Call) : Prop := ∀ c ∈ calls, c.beacon = none

theorem unheard_nil : Unheard [] := List.forall_mem_nil _

theorem Unheard.cons {c : Call} {calls : List Call} (hc : c.beacon = none) (h : Unheard calls) :
    Unheard (c :: calls) :=
  List.forall_mem_cons.2 ⟨hc, h⟩

theorem calls_discard (v : QueueView) : ∃ l, v.discard.calls = l ++ v.calls ∧ Unheard l := by
  rcases v.discard_cases with ⟨hd, _⟩ | ⟨q, rest, _, _, hd⟩
  · exact ⟨[], by rw [hd]; rfl, unheard_nil⟩
  · exact ⟨[.qEntryPut .success, .messagePut .success, .discard q], by rw [hd]; rfl,
      .cons rfl (.cons rfl (.cons rfl unheard_nil))⟩

theorem calls_check (v : QueueView) (b : Bool) :
    ∃ l, (v.check b).calls = l ++ v.calls ∧ Unheard l := by
  cases b with
  | false => exact ⟨[], rfl, unheard_nil⟩
  | true => exact ⟨[.drasticBackpressureChange], rfl, .cons rfl unheard_nil⟩

theorem calls_chosen (v : QueueView) (b : Bool) (a : LlAddr) :
    ∃ l, (v.chosen b a).calls = l ++ v.calls ∧ Unheard l := by
  obtain ⟨l, hl, hu⟩ := calls_check { v with posted := false, nb := a } b
  obtain ⟨l', hl', hu'⟩ := calls_discard ({ v with posted := false, nb := a }.check b)
  refine ⟨l' ++ l, ?_, fun c hc => (List.mem_append.1 hc).elim (hu' c) (hu c)⟩
  rw [QueueView.chosen, hl', hl, List.append_assoc]

/-- A `sendDataTask` that hands the packet in `q` to the link, which accepts it. -/
def Transmits (v : QueueView) (nb : Option LlAddr) (r : TinyError) (q : QePtr) : Prop :=
  v.busy = false ∧ nb.isSome = true ∧ r = .success ∧ v.stack.getLast? = some q ∧
    (v.qe q).txCount < maxRetxAttempts

/-- The calls of a move, as far as beacons go. -/
def Hearable (v : QueueView) (calls : List Call) : QEvent → Prop
  | .send i frame len r _ =>
    v.flag = true ∧ v.busy = false ∧
        calls = [.send (.frag i) true r, .subSendBeacon (.frag i) frame len r] ∨
      ¬ (v.flag = true ∧ v.busy = false) ∧ Unheard calls
  | .sendDataTask nb r =>
    (∃ q a frame len l, v.Transmits nb r q ∧ calls = .subSendData q a frame len .success :: l ∧
        Unheard l) ∨
      (∀ q, ¬ v.Transmits nb r q) ∧ Unheard calls
  | _ => Unheard calls

theorem Move.hearable (hm : Move v e v') : ∃ l, v'.calls = l ++ v.calls ∧ v.Hearable l e := by
  cases hm with
  | sendingBeacon => exact ⟨[], rfl, unheard_nil⟩
  | bypassBusy i frame len r now hf hb =>
    refine ⟨[_], rfl, .inr ⟨fun h => ?_, .cons rfl unheard_nil⟩⟩
    cases hb.symm.trans h.2
  | bypass i frame len r now hf hb => exact ⟨[_, _], rfl, .inl ⟨hf, hb, rfl⟩⟩
  | refuse i frame len r now hf hfree =>
    obtain ⟨l, hl, hu⟩ := v.calls_discard
    refine ⟨_ :: l, congrArg (Call.send (.frag i) false .eretry :: ·) hl,
      .inr ⟨fun h => ?_, .cons rfl hu⟩⟩
    cases hf.symm.trans h.1
  | accept i frame len r now m free q freeQe hf hfree hfreeQe =>
    obtain ⟨l, hl, hu⟩ := v.calls_discard
    refine ⟨_ :: _ :: _ :: l, congrArg (Call.send (.frag i) false .success :: .enqueue q ::
      .pushTop .success :: ·) hl, .inr ⟨fun h => ?_, .cons rfl (.cons rfl (.cons rfl hu))⟩⟩
    cases hf.symm.trans h.1
  | taskBusy nb r hp hb =>
    refine ⟨[], rfl, .inr ⟨fun q h => ?_, unheard_nil⟩⟩
    cases hb.symm.trans h.1
  | taskIdle nb r b hp hb hs hvz =>
    obtain ⟨l, hl, hu⟩ := calls_check { v with posted := false } b
    refine ⟨l, hl, .inr ⟨fun q h => ?_, hu⟩⟩
    obtain ⟨-, -, -, hq, -⟩ := h
    rw [hs] at hq
    cases hq
  | taskNoNeighbour r b hp hb hs =>
    obtain ⟨l, hl, hu⟩ := calls_check { v with posted := false } b
    refine ⟨l, hl, .inr ⟨fun q h => ?_, hu⟩⟩
    cases h.2.1
  | giveUp a r b l q hp hb hs ht =>
    obtain ⟨l, hl, hu⟩ := v.calls_chosen b a
    refine ⟨_ :: _ :: l, congrArg
      (Call.pushTop .success :: .giveUp q a (2 * maxRetxAttempts) :: ·) hl,
      .inr ⟨fun q' h => ?_, .cons rfl (.cons rfl hu)⟩⟩
    obtain ⟨-, -, -, hq, hlt⟩ := h
    have hlast : v.stack.getLast? = some q := getLast?_of_discard hs
    obtain rfl := Option.some.inj (hlast.symm.trans hq)
    exact absurd ht (Nat.not_le.2 hlt)
  | transmit a b l q frame len hp hb hs ht =>
    obtain ⟨l, hl, hu⟩ := v.calls_chosen b a
    refine ⟨_ :: l, congrArg (Call.subSendData q a frame len .success :: ·) hl,
      .inl ⟨q, a, frame, len, l, ⟨hb, rfl, rfl, ?_, ht⟩, rfl, hu⟩⟩
    exact getLast?_of_discard hs
  | localSendFailed a r b l q frame len hr hp hb hs ht =>
    obtain ⟨l, hl, hu⟩ := v.calls_chosen b a
    refine ⟨_ :: _ :: l, congrArg (Call.pushTop .success :: .subSendData q a frame len r :: ·) hl,
      .inr ⟨fun q' h => hr h.2.2.1, .cons rfl (.cons ?_ hu)⟩⟩
    cases r <;> first | rfl | exact absurd rfl hr
  | sendNull a r b hp hb hs hvp =>
    obtain ⟨l, hl, hu⟩ := calls_check { v with posted := false, nb := a } b
    refine ⟨_ :: l, congrArg (Call.sendNull :: ·) hl, .inr ⟨fun q h => ?_, .cons rfl hu⟩⟩
    obtain ⟨-, -, -, hq, -⟩ := h
    rw [hs] at hq
    cases hq
  | txRetryTimerFired ht => exact ⟨[], rfl, unheard_nil⟩
  | signalDone hp => exact ⟨[_], rfl, .cons rfl unheard_nil⟩
  | retry m error now hm hs => exact ⟨[_], rfl, .cons rfl unheard_nil⟩
  | deliver m error now txTime hm hs =>
    exact ⟨[_, _, _], rfl, .cons rfl (.cons rfl (.cons rfl unheard_nil))⟩
  | beaconDone m error d now hm hs => exact ⟨[_], rfl, .cons rfl unheard_nil⟩

end QueueView

/-! ## What `sendDataTask` schedules -/

namespace Beaconing

variable {b : Beaconing}

theorem isRunning_drastic (b : Beaconing) : b.drasticBackpressureChange.isRunning = true := by
  unfold drasticBackpressureChange
  split
  · assumption
  · rfl

theorem isRunning_called (h : b.isRunning = true) (c : Call) : (b.called c).isRunning = true := by
  cases c with
  | drasticBackpressureChange => exact isRunning_drastic b
  | _ => exact h

theorem isRunning_foldr (h : b.isRunning = true) (l : List Call) :
    (l.foldr (fun c b => b.called c) b).isRunning = true := by
  induction l with
  | nil => exact h
  | cons c l ih => exact isRunning_called ih c

end Beaconing

/-- Where the backpressure is far from the remembered one, `sendDataTask` leaves `BeaconTimer`
running unless it finds the radio busy. -/
theorem Node.isRunning_sendDataTask {n n' : Node} {r null : TinyError}
    (h : n.step (.sendDataTask r null) = some n')
    (hfar : bpDiffThresh ≤ ((n.q.getBp : Int) - n.q.myLastBp).natAbs) :
    n'.b.isRunning = true ↔ n.q.radioBusy = false ∨ n.b.isRunning = true := by
  obtain ⟨q', hq', rfl⟩ := Option.map_eq_some_iff.1 h
  simp only [Queueing.step, Option.ite_none_right_eq_some, Option.some.injEq] at hq'
  obtain ⟨-, rfl⟩ := hq'
  generalize hq₀ : ({ n.q with sendDataPosted := false } : Queueing) = q₀
  have hbusy : q₀.radioBusy = n.q.radioBusy := by rw [← hq₀]
  have hcalls₀ : q₀.calls = n.q.calls := by rw [← hq₀]
  have hfar₀ : bpDiffThresh ≤ ((q₀.getBp : Int) - q₀.myLastBp).natAbs := by
    rw [← hq₀]
    exact hfar
  cases hb : n.q.radioBusy with
  | true =>
    have hcalls : (q₀.sendDataTask n.selected r).calls = [] ++ n.q.calls := by
      unfold Queueing.sendDataTask
      rw [if_pos (hbusy.trans hb)]
      exact hcalls₀
    have hnew : newCalls n.q (q₀.sendDataTask n.selected r) = [] := newCalls_eq hcalls
    have hsame : (n.after null (q₀.sendDataTask n.selected r)).b = n.b := by
      unfold Node.after
      rw [hnew]
      rfl
    rw [hsame]
    simp
  | false =>
    obtain ⟨l, hl, -⟩ := (Queueing.Keeps.sendDataTask_free q₀ (hbusy.trans hb) n.selected r).calls
    have hcheck : q₀.checkBp.calls = .drasticBackpressureChange :: n.q.calls := by
      have hif : q₀.checkBp = q₀.record .drasticBackpressureChange := if_pos hfar₀
      rw [hif, ← hcalls₀]
      rfl
    have hnew : newCalls n.q (q₀.sendDataTask n.selected r) = l ++ [.drasticBackpressureChange] :=
      newCalls_eq (by rw [hl, hcheck, List.append_assoc]; rfl)
    have hrun : (n.after null (q₀.sendDataTask n.selected r)).b.isRunning = true := by
      unfold Node.after
      rw [hnew, List.foldr_append]
      exact Beaconing.isRunning_foldr (Beaconing.isRunning_drastic n.b) l
    exact iff_of_true hrun (.inl rfl)

/-! ## What is remembered is what was heard -/

theorem hears_unheard {value : Nat → Nat} {calls : List Call} (h : QueueView.Unheard calls)
    (heard : Nat) : hears value calls heard = heard := by
  induction calls with
  | nil => rfl
  | cons c calls ih =>
    obtain ⟨hc, hcalls⟩ := List.forall_mem_cons.1 h
    rw [hears, List.foldr_cons, hc]
    exact ih hcalls

namespace Hearing

variable {s s' : Hearing} {e : NEvent}

/-- What the neighbours hear last, once the link answered `r` to `frame`. -/
def told (s : Hearing) (frame : Message) (r : TinyError) : Nat :=
  match r, frame.origin with
  | .success, .beacon n => s.value n
  | _, _ => s.heard

theorem told_congr {frame frame' : Message} (h : frame.origin = frame'.origin) (r : TinyError) :
    s.told frame r = s.told frame' r := by
  unfold told
  rw [h]

theorem told_failed {frame : Message} {r : TinyError} (hr : r ≠ .success) :
    s.told frame r = s.heard := by
  unfold told
  split
  · exact absurd rfl hr
  · rfl

theorem hears_beacon (s : Hearing) (msg : MsgPtr) (frame : Message) (len : Nat) (r : TinyError) :
    ((Call.subSendBeacon msg frame len r).beacon.map s.value).getD s.heard = s.told frame r := by
  cases r <;> first
    | rfl
    | (unfold Call.beacon told
       dsimp only
       cases frame.origin <;> rfl)

theorem hears_data (s : Hearing) (q : QePtr) (a : LlAddr) (frame : Message) (len : Nat) :
    ((Call.subSendData q a frame len .success).beacon.map s.value).getD s.heard =
      s.told frame .success := by
  unfold Call.beacon told
  dsimp only
  cases frame.origin <;> rfl

/-- A frame that takes the beacon's way leaves the neighbours with the backpressure there is; a
packet of the queue that is handed to the link is no beacon that says something new; and
`sendDataTask` does not find the radio busy when there is something new to say and no beacon
scheduled. -/
def Meets (s : Hearing) : NEvent → Prop
  | .send _ frame _ r _ | .sendNullPkt _ frame _ r _ =>
    s.n.q.sendingBeacon = true → s.n.q.radioBusy = false → s.n.q.getBp = s.told frame r
  | .sendDataTask r _ =>
    (s.n.q.radioBusy = false → s.n.selected.isSome = true →
      ∀ q ∈ s.n.q.sendStack.toList.getLast?, (s.n.q.qe q).txCount < maxRetxAttempts →
        s.told (s.n.q.mem (s.n.q.qe q).msg) r = s.heard) ∧
    (s.Differs → s.n.q.radioBusy = false ∨ s.n.b.isRunning = true)
  | _ => True

instance (s : Hearing) : (e : NEvent) → Decidable (s.Meets e)
  | .send _ frame _ r _ | .sendNullPkt _ frame _ r _ => inferInstanceAs (Decidable
      (s.n.q.sendingBeacon = true → s.n.q.radioBusy = false → s.n.q.getBp = s.told frame r))
  | .sendDataTask r _ => inferInstanceAs (Decidable
      ((s.n.q.radioBusy = false → s.n.selected.isSome = true →
        ∀ q ∈ s.n.q.sendStack.toList.getLast?, (s.n.q.qe q).txCount < maxRetxAttempts →
          s.told (s.n.q.mem (s.n.q.qe q).msg) r = s.heard) ∧
      (s.Differs → s.n.q.radioBusy = false ∨ s.n.b.isRunning = true)))
  | .beaconTimerFired | .recvfrom .. | .setRoot | .unsetRoot | .txRetryTimerFired
  | .signalDone | .subSendDone .. => .isTrue trivial

/-- The node remembers what was heard last, and every `sendDataTask` that found its backpressure far
from that left a beacon scheduled. -/
def Remembers (s : Hearing) : Prop := s.n.q.myLastBp = (s.heard : Int) ∧ s.heeded = true

instance (s : Hearing) : Decidable s.Remembers := inferInstanceAs (Decidable (_ ∧ _))

/-- What a step does, as far as the node's memory and its neighbours go. -/
theorem step_cases (h : s.step e = some s') : s.n.step e = some s'.n ∧
    s'.heard = hears s.value (newCalls s.n.q s'.n.q) s.heard ∧
    s'.heeded = (s.heeded && !(isSendDataTask e && s.Differs && !s'.n.b.isRunning)) := by
  unfold step at h
  split at h
  · obtain ⟨n', hn, rfl⟩ := Option.map_eq_some_iff.1 h
    exact ⟨hn, rfl, rfl⟩
  · cases h

theorem hearable_step (hv : s.n.q.view.Inv) {e' : QEvent}
    (hq : s.n.q.step e' = some s'.n.q) :
    s.n.q.view.Hearable (newCalls s.n.q s'.n.q) e' := by
  obtain ⟨l, hl, hh⟩ := (Queueing.step_move hv hq).hearable
  have hnew : newCalls s.n.q s'.n.q = l := newCalls_eq hl
  rw [hnew]
  exact hh

/-- Steps that neither reach the neighbours nor run `sendDataTask`. -/
theorem Remembers.quiet (hP : s.Remembers) (h : s.step e = some s')
    (he : isSendDataTask e = false) (hu : QueueView.Unheard (newCalls s.n.q s'.n.q))
    (hlast : s'.n.q.myLastBp = s.n.q.myLastBp) : s'.Remembers := by
  obtain ⟨-, hheard, hheeded⟩ := step_cases h
  refine ⟨?_, ?_⟩
  · rw [hlast, hheard, hears_unheard hu]
    exact hP.1
  · rw [hheeded, hP.2, he]
    rfl

theorem remembers_send (hv : s.n.q.view.Inv) (hP : s.Remembers) (h : s.step e = some s')
    (he : isSendDataTask e = false) {i : Nat} {frame : Message} {len : Nat} {r : TinyError}
    {now : Nat} (hq : s.n.q.step (.send i frame len r now) = some s'.n.q) :
    s'.Remembers ↔
      (s.n.q.sendingBeacon = true → s.n.q.radioBusy = false → s.n.q.getBp = s.told frame r) := by
  have hlast := Queueing.myLastBp_step hq
  rcases hearable_step hv hq with ⟨hf, hb, hcalls⟩ | ⟨hnot, hu⟩
  · obtain ⟨-, hheard, hheeded⟩ := step_cases h
    have hby : s.n.q.Bypasses (.send i frame len r now) := ⟨hf, hb⟩
    have htold : s'.heard = s.told frame r := by
      rw [hheard, hcalls]
      exact hears_beacon s _ frame len r
    have hheeded' : s'.heeded = true := by
      rw [hheeded, hP.2, he]
      rfl
    rw [if_pos hby] at hlast
    constructor
    · intro hP' _ _
      have hsame := hP'.1
      rw [hlast, htold] at hsame
      exact Int.ofNat.inj hsame
    · intro hmeets
      refine ⟨?_, hheeded'⟩
      rw [hlast, htold, hmeets hf hb]
  · have hby : ¬ s.n.q.Bypasses (.send i frame len r now) := hnot
    rw [if_neg hby] at hlast
    exact iff_of_true (hP.quiet h he hu hlast) fun hf hb => absurd ⟨hf, hb⟩ hnot

theorem remembers_sendDataTask (hv : s.n.q.view.Inv) (hP : s.Remembers) {r null : TinyError}
    (h : s.step (.sendDataTask r null) = some s') :
    s'.Remembers ↔ s.Meets (.sendDataTask r null) := by
  obtain ⟨hn, hheard, hheeded⟩ := step_cases h
  have hq : s.n.q.step (.sendDataTask s.n.selected r) = some s'.n.q :=
    Node.simulation.step s.n (.sendDataTask r null) s'.n hn
  have hlast : s'.n.q.myLastBp = s.n.q.myLastBp := (Queueing.myLastBp_step hq).trans (if_neg id)
  have hsays : s'.heard = s.heard ↔ (s.n.q.radioBusy = false → s.n.selected.isSome = true →
      ∀ q ∈ s.n.q.sendStack.toList.getLast?, (s.n.q.qe q).txCount < maxRetxAttempts →
        s.told (s.n.q.mem (s.n.q.qe q).msg) r = s.heard) := by
    rcases hearable_step hv hq with ⟨q, a, frame, len, l, htx, hcalls, hu⟩ | ⟨hnot, hu⟩
    · obtain ⟨hb, hnb, hr, hstack, ht⟩ := htx
      have horigin : frame.origin = (s.n.q.mem (s.n.q.qe q).msg).origin := by
        have hmem : Call.subSendData q a frame len .success ∈ newCalls s.n.q s'.n.q := by
          rw [hcalls]
          exact .head _
        exact Queueing.hands_step hq _ hmem
      have htold : s'.heard = s.told (s.n.q.mem (s.n.q.qe q).msg) r := by
        have hbefore : hears s.value l s.heard = s.heard := hears_unheard hu _
        rw [hheard, hcalls, hears, List.foldr_cons]
        rw [← hears, hbefore, hears_data, hr]
        exact told_congr horigin _
      rw [htold]
      constructor
      · intro hsame _ _ q' hq' _
        obtain rfl := Option.some.inj (hstack.symm.trans hq')
        exact hsame
      · intro hall
        exact hall hb hnb q hstack ht
    · rw [hheard, hears_unheard hu]
      refine iff_of_true rfl fun hb hnb q hstack ht => told_failed fun hr => ?_
      exact hnot q ⟨hb, hnb, hr, hstack, ht⟩
  have hheeds : s'.heeded = true ↔
      (s.Differs → s.n.q.radioBusy = false ∨ s.n.b.isRunning = true) := by
    rw [hheeded, hP.2]
    by_cases hdiff : s.Differs
    · have hfar : bpDiffThresh ≤ ((s.n.q.getBp : Int) - s.n.q.myLastBp).natAbs := by
        rw [hP.1]
        exact hdiff
      rw [← Node.isRunning_sendDataTask hn hfar]
      simp [isSendDataTask, hdiff]
    · simp [hdiff]
  unfold Remembers
  rw [hlast, hP.1, hheeds]
  refine Iff.trans ?_ (and_congr hsays Iff.rfl)
  constructor
  · rintro ⟨hsame, hbeacon⟩
    exact ⟨(Int.ofNat.inj hsame).symm, hbeacon⟩
  · rintro ⟨hsame, hbeacon⟩
    exact ⟨by rw [hsame], hbeacon⟩

theorem step_iff (hv : s.n.q.view.Inv) (hP : s.Remembers) (h : s.step e = some s') :
    s'.Remembers ↔ s.Meets e := by
  have hsim := Node.simulation.step _ _ _ (step_cases h).1
  cases e with
  | send i frame len r now => exact remembers_send hv hP h rfl hsim
  | sendNullPkt i frame len r now => exact remembers_send hv hP h rfl hsim
  | sendDataTask r null => exact remembers_sendDataTask hv hP h
  | recvfrom llAddr data | setRoot | unsetRoot =>
    have hsame : s'.n.q = s.n.q := hsim
    have hnew : newCalls s.n.q s'.n.q = [] := newCalls_eq (congrArg Queueing.calls hsame)
    refine iff_of_true (hP.quiet h rfl ?_ (congrArg Queueing.myLastBp hsame)) trivial
    rw [hnew]
    nofun
  | beaconTimerFired =>
    have hq : s.n.q.step .sendingBeacon = some s'.n.q := hsim
    have hlast := (Queueing.myLastBp_step hq).trans (if_neg id)
    exact iff_of_true (hP.quiet h rfl (hearable_step hv hq) hlast) trivial
  | txRetryTimerFired =>
    have hq : s.n.q.step .txRetryTimerFired = some s'.n.q := hsim
    have hlast := (Queueing.myLastBp_step hq).trans (if_neg id)
    exact iff_of_true (hP.quiet h rfl (hearable_step hv hq) hlast) trivial
  | signalDone =>
    have hq : s.n.q.step .signalDone = some s'.n.q := hsim
    have hlast := (Queueing.myLastBp_step hq).trans (if_neg id)
    exact iff_of_true (hP.quiet h rfl (hearable_step hv hq) hlast) trivial
  | subSendDone msg error delivered now =>
    have hq : s.n.q.step (.subSendDone msg error delivered now) = some s'.n.q := hsim
    have hlast := (Queueing.myLastBp_step hq).trans (if_neg id)
    exact iff_of_true (hP.quiet h rfl (hearable_step hv hq) hlast) trivial

/-- **What it told its neighbours.** In a run the node always remembers what its neighbours heard
last, and every `sendDataTask` that finds the backpressure far from it leaves a beacon scheduled,
exactly if every step meets `Meets`. -/
theorem remembers_iff {h : List (Hearing × NEvent)} (hr : machine.Run h s) :
    (s.Remembers ∧ ∀ p ∈ h, p.1.Remembers) ↔ ∀ p ∈ h, p.1.Meets p.2 := by
  have hinv : machine.Inductive fun s => s.n.q.view.Inv :=
    { init := fun s hs => by
        have hq : s.n.q = Queueing.boot.start := hs.1.1
        rw [hq]
        exact QueueView.Inv.init
      step := fun s e s' hv hs => by
        have hsim := Node.simulation.step _ _ _ (step_cases hs).1
        revert hsim
        cases s.n.toQEvent e with
        | none => intro hsame; rw [show s'.n.q = s.n.q from hsame]; exact hv
        | some e' => exact fun hq => Queueing.inductive_inv.step _ _ _ hv hq }
  refine hr.forall_iff hinv ?_ fun _ _ _ hv hP hs => step_iff hv hP hs
  rintro s ⟨hn, -, hheard, hheeded⟩
  refine ⟨?_, hheeded⟩
  rw [hheard, hn.1]
  rfl

/-- A node from its start on, that nobody heard of. -/
def boot : Hearing := ⟨⟨Queueing.boot.start, (Beaconing.boot.start .success .success true).2, 0⟩, 0,
  fun _ => 0, 0, true⟩

theorem init_boot : machine.init boot :=
  ⟨⟨rfl, ⟨Beaconing.boot, rfl⟩, rfl⟩, rfl, rfl, rfl⟩

/-- Two packets come, and a beacon says so. -/
theorem remembers_two : ∃ (h : List (Hearing × NEvent)) (s : Hearing), machine.Run h s ∧
    s.heard = 2 ∧ s.Remembers := by
  obtain ⟨h, s, hr, hp⟩ := Machine.exists_run_of_exec init_boot
    [.send 0 ⟨[], 0, 0, 0, .data⟩ 0 .success 0, .send 0 ⟨[], 0, 0, 0, .data⟩ 0 .success 0,
      .sendDataTask .success .success, .beaconTimerFired,
      .send 1 ⟨[], 0, 0, 0, .beacon 1⟩ 0 .success 0]
    (fun h s => s.heard = 2 ∧ ∀ p ∈ h, p.1.Meets p.2) (by decide)
  obtain ⟨hheard, hmeets⟩ := of_decide_eq_true hp
  exact ⟨h, s, hr, hheard, ((remembers_iff hr).2 hmeets).1⟩

/-- The link refuses the beacon, and the node remembers what it wanted to say. -/
theorem remembers_false : ¬ ∀ s, machine.Reachable s → s.Remembers := by
  intro hall
  obtain ⟨h, s, hr, hp⟩ := Machine.exists_run_of_exec init_boot
    [.send 0 ⟨[], 0, 0, 0, .data⟩ 0 .success 0, .beaconTimerFired,
      .send 1 ⟨[], 0, 0, 0, .beacon 1⟩ 0 .fail 0]
    (fun _ s => s.n.q.myLastBp = 1 ∧ s.heard = 0) (by decide)
  obtain ⟨hlast, hheard⟩ := of_decide_eq_true hp
  have hsame := (hall s ⟨h, hr⟩).1
  rw [hlast, hheard] at hsame
  cases hsame

end Hearing

end BackIP
