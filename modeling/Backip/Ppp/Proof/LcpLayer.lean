import Backip.Ppp.Proof.LcpProgress
import Mathlib

/-!
# Layer up and layer down

A transition out of `LAS_Opened` starts with the layer down, and the state it fails to is
`LAS_Opened`; and the cells for Configure-Ack, Configure-Nak and Configure-Reject in `LAS_Opened`
stay there. Where neither happens, and no frame of a transition that has ended is reported failed,
the signals alternate and tell the state (`LcpAutomatonP.paired_of_careful`).
-/

set_option autoImplicit false

namespace Ppp

/-- The last of the two signals was `thisLayerUp`. -/
def isUp : List LcpEntry → Bool
  | [] => false
  | .thisLayerUp :: _ => true
  | .thisLayerDown :: _ => false
  | _ :: log => isUp log

/-- Up and down alternate, up first, and where a transition completes the state is `LAS_Opened`
exactly if the last of the two was up. -/
def Paired : List LcpEntry → Prop
  | [] => True
  | .thisLayerUp :: log => isUp log = false ∧ Paired log
  | .thisLayerDown :: log => isUp log = true ∧ Paired log
  | .transitionCompleted state :: log => (state = .opened ↔ isUp log = true) ∧ Paired log
  | _ :: log => Paired log

/-- What an action makes of the layer. -/
def lifted (a : TransitionAction) (up : Bool) : Bool :=
  match a with
  | .tlu => true
  | .tld => false
  | _ => up

/-- The action is in turn. -/
def Fits (a : TransitionAction) (up : Bool) : Prop :=
  match a with
  | .tlu => up = false
  | .tld => up = true
  | _ => True

/-- The actions that send a frame. -/
def sends : TransitionAction → Bool
  | .scr | .staUns | .staRep | .sca | .scn => true
  | _ => false

/-- The actions `todo` end where the layer is up exactly in `LAS_Opened`, whether they all succeed
or one fails, unless that one fails to `LAS_Opened`. -/
def LeadsTo (success fail : LcpAutomatonState) : List TransitionAction → Bool → Prop
  | [], up => success = .opened ↔ up = true
  | a :: rest, up =>
    Fits a up ∧
    (sends a = true → fail ≠ .opened → up = false ∧ rest.head? ≠ some .tlu) ∧
    LeadsTo success fail rest (lifted a up)

instance (a : TransitionAction) (up : Bool) : Decidable (Fits a up) := by
  unfold Fits
  split <;> infer_instance

instance instDecidableLeadsTo (success fail : LcpAutomatonState) :
    (todo : List TransitionAction) → (up : Bool) → Decidable (LeadsTo success fail todo up)
  | [], up => inferInstanceAs (Decidable (success = .opened ↔ up = true))
  | a :: rest, up =>
    have := instDecidableLeadsTo success fail rest (lifted a up)
    inferInstanceAs (Decidable (Fits a up ∧
      (sends a = true → fail ≠ .opened → up = false ∧ rest.head? ≠ some .tlu) ∧
      LeadsTo success fail rest (lifted a up)))

/-- The cells of the table that stay in `LAS_Opened`. -/
def StaysOpened : LcpAutomatonEvent → Prop
  | .laeReceiveConfigureAck _ | .laeReceiveConfigureNakRej _ => True
  | _ => False

instance : (evt : LcpAutomatonEvent) → Decidable (StaysOpened evt)
  | .laeReceiveConfigureAck _ | .laeReceiveConfigureNakRej _ => .isTrue trivial
  | .laeUp | .laeDown | .laeOpen | .laeClose | .laeTimeout _ | .laeReceiveConfigureRequest _
  | .laeReceiveTerminateRequest _ | .laeReceiveTerminateAck | .laeReceiveUnknownCode
  | .laeReceiveCodeProtocolReject | .laeReceiveEchoDiscardRequestReply => .isFalse id

/-! ## The log -/

section

variable {a : TransitionAction} {l log log' : List LcpEntry}

theorem paired_quiet (h : ∀ e ∈ l, LcpEntry.Quiet e) :
    isUp (l ++ log) = isUp log ∧ (Paired log → Paired (l ++ log)) := by
  induction l with
  | nil => exact ⟨rfl, id⟩
  | cons e l ih =>
    obtain ⟨he, hl⟩ := List.forall_mem_cons.1 h
    obtain ⟨h1, h2⟩ := ih hl
    cases e <;> first | exact ⟨h1, h2⟩ | exact he.elim

theorem paired_logs (h : Logs a log log') (hfit : Fits a (isUp log)) (hp : Paired log) :
    Paired log' ∧ isUp log' = lifted a (isUp log) := by
  cases a with
  | tlu | tld =>
    rw [show log' = _ from h]
    exact ⟨⟨hfit, hp⟩, rfl⟩
  | _ =>
    obtain ⟨l, rfl, hl⟩ := h
    exact ⟨(paired_quiet hl).2 hp, (paired_quiet hl).1⟩

end

theorem sends_of_outcome {answer : LcpAnswer} {key : Nat} {a : TransitionAction}
    (h : outcome answer key a ≠ .done) : sends a = true := by
  cases a <;> first | rfl | exact absurd rfl h

theorem refused_of_outcome {answer : LcpAnswer} {key : Nat} {a : TransitionAction}
    (h : outcome answer key a = .failed) : (answer a).1 ≠ .success := by
  intro hr
  cases a <;> simp [outcome, hr] at h
  all_goals split at h <;> cases h

namespace LcpAutomatonP

variable {s s' : LcpAutomatonP} {answer : LcpAnswer} {rc : TinyError} {e : LcpHandler}

/-- **The table.** From a state that tells the layer, every event leads to one. -/
theorem leadsTo_pendingOf {cur : LcpAutomatonState} {up : Bool} (hcur : cur ≠ .transient)
    (hup : cur = .opened ↔ up = true) {evt : LcpAutomatonEvent}
    (hstay : cur = .opened → ¬ StaysOpened evt) :
    LeadsTo (eventActions cur evt).2 cur (pendingOf cur evt) up := by
  obtain rfl : up = decide (cur = .opened) := by
    rw [Bool.eq_iff_iff, decide_eq_true_iff]
    exact hup.symm
  -- the parameters have no part in the cells, but for `good`
  cases evt with
  | laeTimeout haveRetries =>
    cases haveRetries <;> cases cur <;> first | exact absurd rfl hcur | decide
  | laeReceiveConfigureRequest params =>
    obtain ⟨good, options, optionsEnd, key⟩ := params
    have hcell : LeadsTo (eventActions cur (.laeReceiveConfigureRequest ⟨good, 0, 0, 0⟩)).2 cur
        (pendingOf cur (.laeReceiveConfigureRequest ⟨good, 0, 0, 0⟩)) (decide (cur = .opened)) := by
      cases good <;> cases cur <;> first | exact absurd rfl hcur | decide
    exact hcell
  | laeReceiveConfigureAck params =>
    have hcell : LeadsTo (eventActions cur (.laeReceiveConfigureAck ⟨0, 0, 0⟩)).2 cur
        (pendingOf cur (.laeReceiveConfigureAck ⟨0, 0, 0⟩)) (decide (cur = .opened)) := by
      cases cur <;> first
        | exact absurd rfl hcur
        | exact absurd trivial (hstay rfl)
        | decide
    exact hcell
  | laeReceiveConfigureNakRej params =>
    have hcell : LeadsTo (eventActions cur (.laeReceiveConfigureNakRej ⟨0, 0, 0⟩)).2 cur
        (pendingOf cur (.laeReceiveConfigureNakRej ⟨0, 0, 0⟩)) (decide (cur = .opened)) := by
      cases cur <;> first
        | exact absurd rfl hcur
        | exact absurd trivial (hstay rfl)
        | decide
    exact hcell
  | laeReceiveTerminateRequest staKey =>
    have hcell : LeadsTo (eventActions cur (.laeReceiveTerminateRequest 0)).2 cur
        (pendingOf cur (.laeReceiveTerminateRequest 0)) (decide (cur = .opened)) := by
      cases cur <;> first | exact absurd rfl hcur | decide
    exact hcell
  | _ => cases cur <;> first | exact absurd rfl hcur | decide

/-! ## The loop -/

/-- The log is paired, and the pending actions lead to the states. -/
def OnTrack (success fail : LcpAutomatonState) (s : LcpAutomatonP) : Prop :=
  Paired s.log ∧ LeadsTo success fail s.pendingActions (isUp s.log)

/-- The layer is down and stays so in the next action. -/
def Down (s : LcpAutomatonP) : Prop :=
  isUp s.log = false ∧ s.pendingActions.head? ≠ some .tlu

/-- What a loop leaves. -/
structure Pairs (success fail : LcpAutomatonState) (r : TinyError × Bool × LcpAutomatonP) :
    Prop where
  onTrack : OnTrack success fail r.2.2
  ended : r.2.1 = false → r.1 = .success → (success = .opened ↔ isUp r.2.2.log = true)
  failed : r.2.1 = false → r.1 ≠ .success → fail ≠ .opened ∧ isUp r.2.2.log = false
  suspended : r.2.1 = true → fail ≠ .opened → r.2.2.Down

theorem executed_onTrack {success fail : LcpAutomatonState} {a : TransitionAction}
    {rest : List TransitionAction} {r : TinyError × Bool × LcpAutomatonP} (hp : Paired s.log)
    (hleads : LeadsTo success fail (a :: rest) (isUp s.log))
    (hexec : Executes answer a (s.begin a rest) rc r) :
    OnTrack success fail r.2.2 ∧ r.2.2.pendingActions = rest ∧
      isUp r.2.2.log = lifted a (isUp s.log) := by
  obtain ⟨n, hn⟩ := begin_eq s a rest
  have hsame := hexec.same
  rw [hn] at hsame
  obtain ⟨hfit, -, hrest⟩ := hleads
  have hpend : r.2.2.pendingActions = rest := hsame.pendingActions
  obtain ⟨hp', hup⟩ := paired_logs hsame.log hfit hp
  have hup' : isUp r.2.2.log = lifted a (isUp s.log) := hup
  refine ⟨⟨hp', ?_⟩, hpend, hup'⟩
  rw [hpend, hup']
  exact hrest

theorem pairs_loop {success fail : LcpAutomatonState} (todo : List TransitionAction)
    (s : LcpAutomatonP) (hp : Paired s.log) (hleads : LeadsTo success fail todo (isUp s.log))
    (hanswer : fail = .opened → ∀ a ∈ todo, sends a = true → (answer a).1 = .success) :
    Pairs success fail (loop answer todo .success s) := by
  induction todo generalizing s with
  | nil =>
    obtain ⟨n, hn⟩ := takeUp_eq s none []
    rw [loop, hn]
    exact ⟨⟨hp, hleads⟩, fun _ _ => hleads, fun _ hne => absurd rfl hne, by rintro ⟨⟩⟩
  | cons a rest ih =>
    obtain ⟨r, hexec, hloop⟩ := loop_cons s answer .success a rest
    obtain ⟨hon, hpend, hup⟩ := executed_onTrack hp hleads hexec
    have hsend := hleads.2.1
    rw [hloop]
    cases hexec with
    | after rc s' hrc hsame hkey => exact absurd rfl hrc
    | done s' hout hsame hsxx hkey =>
      rw [if_pos ⟨rfl, rfl⟩]
      refine ih s' hon.1 ?_ fun hf b hb => hanswer hf b (.tail _ hb)
      rw [← hpend]
      exact hon.2
    | failed r s' hr hout hsame hkey =>
      have hsends : sends a = true := sends_of_outcome (by rw [hout]; rintro ⟨⟩)
      have hfail : fail ≠ .opened := fun hf =>
        refused_of_outcome hout (hanswer hf a (.head _) hsends)
      rw [if_neg fun hgo => hr hgo.1]
      refine ⟨hon, fun _ hs => absurd hs hr, fun _ _ => ⟨hfail, ?_⟩, by rintro ⟨⟩⟩
      rw [hup, (hsend hsends hfail).1]
      cases a <;> first | rfl | cases hsends
    | suspended s' hout hsame =>
      have hsends : sends a = true := sends_of_outcome (by rw [hout]; rintro ⟨⟩)
      rw [if_neg (by rintro ⟨-, ⟨⟩⟩)]
      refine ⟨hon, by rintro ⟨⟩, by rintro ⟨⟩, fun _ hfail => ⟨?_, ?_⟩⟩
      · rw [hup, (hsend hsends hfail).1]
        cases a <;> first | rfl | cases hsends
      · rw [hpend]
        exact (hsend hsends hfail).2

/-- After a frame that was not transmitted. -/
theorem pairs_loop_after {success fail : LcpAutomatonState} (hrc : rc ≠ .success)
    (todo : List TransitionAction) (s : LcpAutomatonP) (hp : Paired s.log)
    (hleads : LeadsTo success fail todo (isUp s.log)) (hfail : fail ≠ .opened)
    (hup : isUp s.log = false) (hhead : todo.head? ≠ some .tlu) :
    Pairs success fail (loop answer todo rc s) := by
  cases todo with
  | nil =>
    obtain ⟨n, hn⟩ := takeUp_eq s none []
    rw [loop, hn]
    exact ⟨⟨hp, hleads⟩, fun _ _ => hleads, fun _ _ => ⟨hfail, hup⟩, by rintro ⟨⟩⟩
  | cons a rest =>
    obtain ⟨r, hexec, hloop⟩ := loop_cons s answer rc a rest
    obtain ⟨hon, hpend, hup'⟩ := executed_onTrack hp hleads hexec
    rw [hloop]
    cases hexec with
    | after rc s' _ hsame hkey =>
      rw [if_neg fun hgo => hrc hgo.1]
      refine ⟨hon, fun _ hs => absurd hs hrc, fun _ _ => ⟨hfail, ?_⟩, by rintro ⟨⟩⟩
      rw [hup', hup]
      cases a <;> first | rfl | exact absurd rfl hhead
    | done | failed | suspended => exact absurd rfl hrc

/-! ## The invariant -/

/-- What the log and the variables say of the layer. -/
structure Tells (s : LcpAutomatonP) : Prop where
  stable : s.Stable
  onTrack : OnTrack s.successState s.failState s
  settled : s.currentState ≠ .transient →
    (s.currentState = .opened ↔ isUp s.log = true) ∧ s.resumeResult = .success
  awaits : s.currentState = .transient → s.failState ≠ .opened → s.Down
  result : s.currentState = .transient → s.resumeResult ≠ .success → s.failState ≠ .opened

/-- No send out of `LAS_Opened` is refused. -/
def Accepts (fail : LcpAutomatonState) (answer : LcpAnswer) (todo : List TransitionAction) : Prop :=
  fail = .opened → ∀ a ∈ todo, sends a = true → (answer a).1 = .success

theorem tells_process (hT : s.Tells) (haccepts : Accepts s.failState answer s.pendingActions) :
    (s.processEventActions answer).2.Tells := by
  obtain ⟨r, hr, hend⟩ := process_cases s answer
  generalize hs₀ : ({ s with resumeResult := .success } : LcpAutomatonP) = s₀ at hr
  have hlog₀ : s₀.log = s.log := by rw [← hs₀]
  have hresult₀ : s₀.resumeResult = .success := by rw [← hs₀]
  have hsuccess₀ : s₀.successState = s.successState := by rw [← hs₀]
  have hfail₀ : s₀.failState = s.failState := by rw [← hs₀]
  obtain ⟨hp, hleads⟩ := hT.onTrack
  rw [← hlog₀] at hp hleads
  have hlooped : Looped s₀ r := hr ▸ looped _ _ _ _
  have hpairs : Pairs s.successState s.failState r := by
    rw [hr]
    by_cases hrc : s.resumeResult = .success
    · rw [hrc]
      exact pairs_loop _ s₀ hp hleads haccepts
    · have htrans : s.currentState = .transient :=
        Decidable.byContradiction fun hne => hrc (hT.settled hne).2
      have hfail := hT.result htrans hrc
      obtain ⟨hup, hhead⟩ := hT.awaits htrans hfail
      exact pairs_loop_after hrc _ s₀ hp hleads hfail (hlog₀ ▸ hup) hhead
  have hstable : r.2.2.Stable := hlooped.stable (by rw [← hs₀]; exact hT.stable)
  have hon : OnTrack r.2.2.successState r.2.2.failState r.2.2 := by
    rw [hlooped.successState, hlooped.failState, hsuccess₀, hfail₀]
    exact hpairs.onTrack
  have hresult : r.2.2.resumeResult = .success := hlooped.resumeResult.trans hresult₀
  have hfail : r.2.2.failState = s.failState := hlooped.failState.trans hfail₀
  rcases hend with ⟨hsusp, hs'⟩ | ⟨hsusp, hs'⟩
  · rw [hs']
    refine ⟨hstable, hon, fun hne => absurd rfl hne, fun _ hf => ?_, fun _ hne => ?_⟩
    · exact hpairs.suspended hsusp fun hopened => hf (hfail.trans hopened)
    · exact absurd hresult hne
  · obtain ⟨_, _, l, hl, hc⟩ := complete_eq r.2.2 r.1
    obtain ⟨hup, hpaired⟩ : isUp (l ++ r.2.2.log) = isUp r.2.2.log ∧
        (Paired r.2.2.log → Paired (l ++ r.2.2.log)) := paired_quiet hl
    have htells : r.2.2.endState r.1 = .opened ↔ isUp r.2.2.log = true := by
      unfold LcpAutomatonP.endState
      by_cases hrc : r.1 = .success
      · rw [if_pos hrc, hlooped.successState, hsuccess₀]
        exact hpairs.ended hsusp hrc
      · obtain ⟨hf, hdown⟩ := hpairs.failed hsusp hrc
        rw [if_neg hrc, hfail, hdown]
        exact ⟨fun h => absurd h hf, nofun⟩
    have hlog : Paired (.transitionCompleted (r.2.2.endState r.1) :: (l ++ r.2.2.log)) :=
      ⟨by rw [hup]; exact htells, hpaired hon.1⟩
    have hisUp : isUp (.transitionCompleted (r.2.2.endState r.1) :: (l ++ r.2.2.log)) =
        isUp r.2.2.log := hup
    have hcur := hstable.endState r.1
    rw [hs', hc]
    refine ⟨hstable, ⟨hlog, ?_⟩, fun _ => ⟨?_, hresult⟩, fun h => absurd h hcur,
      fun h => absurd h hcur⟩
    · dsimp only
      rw [hisUp]
      exact hon.2
    · dsimp only
      rw [hisUp]
      exact htells

/-! ## Every run -/

/-- No Configure-Ack, -Nak or -Reject is taken in `LAS_Opened`; no frame of a transition out of
`LAS_Opened` is refused or reported failed; and none is after its transition ended. -/
def Careful (s : LcpAutomatonP) : LcpHandler → Prop
  | .signalEvent evt answer => s.Free → s.currentState = .opened →
    ¬ StaysOpened evt ∧ ∀ a ∈ pendingOf s.currentState evt, sends a = true →
      (answer a).1 = .success
  | .resumeAutomatonTask answer => Accepts s.failState answer s.pendingActions
  | .outputFrameTransmitted key result => s.resumeKey = key → result ≠ .success →
    s.currentState = .transient ∧ s.failState ≠ .opened
  | _ => True

instance (s : LcpAutomatonP) : (e : LcpHandler) → Decidable (s.Careful e)
  | .signalEvent evt answer => inferInstanceAs (Decidable (s.Free → s.currentState = .opened →
    ¬ StaysOpened evt ∧ ∀ a ∈ pendingOf s.currentState evt, sends a = true →
      (answer a).1 = .success))
  | .resumeAutomatonTask answer => inferInstanceAs (Decidable (s.failState = .opened →
    ∀ a ∈ s.pendingActions, sends a = true → (answer a).1 = .success))
  | .outputFrameTransmitted key result => inferInstanceAs (Decidable (s.resumeKey = key →
    result ≠ .success → s.currentState = .transient ∧ s.failState ≠ .opened))
  | .restartTimerFired | .restartTimerFiredTask => .isTrue trivial

theorem tells_calculate (hT : s.Tells) (hfree : s.Free) {evt : LcpAutomatonEvent}
    (hstay : s.currentState = .opened → ¬ StaysOpened evt) :
    (s.calculateEventActions evt).2.Tells := by
  obtain ⟨_, _, _, _, hc⟩ := calculate_free hfree evt
  obtain ⟨hup, hresult⟩ := hT.settled hfree.2
  rw [hc]
  exact ⟨⟨eventActions_stable hfree.2 evt, hfree.2⟩,
    ⟨hT.onTrack.1, leadsTo_pendingOf hfree.2 hup hstay⟩, fun _ => ⟨hup, hresult⟩,
    fun h => absurd h hfree.2, fun h => absurd h hfree.2⟩

theorem tells_step (hT : s.Tells) (hcareful : s.Careful e) (h : s.step e = some s') : s'.Tells := by
  cases e with
  | signalEvent evt answer =>
    obtain rfl := Option.some.inj h
    unfold signalEvent
    by_cases hfree : s.Free
    · have hstay : s.currentState = .opened → ¬ StaysOpened evt := fun ho => (hcareful hfree ho).1
      have hcalc := tells_calculate hT hfree hstay
      obtain ⟨_, _, _, _, hc⟩ := calculate_free hfree evt
      rw [hc] at hcalc
      simp only [hc, reduceCtorEq, if_false]
      refine tells_process hcalc fun hopened => ?_
      exact (hcareful hfree hopened).2
    · rw [calculate_busy hfree evt]
      exact hT
  | restartTimerFired =>
    simp only [step, Option.ite_none_right_eq_some, Option.some.injEq] at h
    rw [← h.2]
    exact ⟨hT.stable, hT.onTrack, hT.settled, hT.awaits, hT.result⟩
  | restartTimerFiredTask =>
    simp only [step, Option.ite_none_right_eq_some, Option.some.injEq] at h
    rw [← h.2]
    have hT₀ : ({ s with restartTimerFiredPosted := false } : LcpAutomatonP).Tells :=
      ⟨hT.stable, hT.onTrack, hT.settled, hT.awaits, hT.result⟩
    unfold restartTimerFiredTask
    by_cases hfree : ({ s with restartTimerFiredPosted := false } : LcpAutomatonP).Free
    · have hstay : s.currentState = .opened → ¬ StaysOpened (.laeTimeout (0 < s.restartCounter)) :=
        fun _ => id
      have hcalc := tells_calculate hT₀ hfree hstay
      obtain ⟨_, _, _, _, hc⟩ := calculate_free hfree (.laeTimeout (0 < s.restartCounter))
      rw [hc] at hcalc
      simp only [hc, if_true]
      exact ⟨hcalc.stable, hcalc.onTrack, hcalc.settled, hcalc.awaits, hcalc.result⟩
    · simp only [calculate_busy hfree, reduceCtorEq, if_false]
      exact ⟨hT.stable, hT.onTrack, hT.settled, hT.awaits, hT.result⟩
  | resumeAutomatonTask answer =>
    simp only [step, Option.ite_none_right_eq_some, Option.some.injEq] at h
    rw [← h.2]
    have hT₀ : ({ s with resumeAutomatonPosted := false } : LcpAutomatonP).Tells :=
      ⟨hT.stable, hT.onTrack, hT.settled, hT.awaits, hT.result⟩
    exact tells_process hT₀ hcareful
  | outputFrameTransmitted key result =>
    simp only [step, Option.ite_none_right_eq_some, Option.some.injEq] at h
    rw [← h.2]
    have hreported : ∀ restartKey timer, ({ s with
        accepted := s.accepted.erase key, restartKey := restartKey, timer := timer } :
        LcpAutomatonP).Tells := fun _ _ =>
      ⟨hT.stable, hT.onTrack, hT.settled, hT.awaits, hT.result⟩
    have hresumed : s.resumeKey = key → ∀ restartKey timer, ({ s with
        accepted := s.accepted.erase key, restartKey := restartKey, timer := timer
        resumeResult := result, resumeKey := 0, resumeAutomatonPosted := true } :
        LcpAutomatonP).Tells := fun hkey _ _ => by
      refine ⟨hT.stable, hT.onTrack, fun hne => ⟨(hT.settled hne).1, ?_⟩, hT.awaits, fun _ hr => ?_⟩
      · exact Decidable.byContradiction fun hr => hne (hcareful hkey hr).1
      · exact (hcareful hkey hr).2
    unfold outputFrameTransmitted
    dsimp only
    split <;> split
    next hkey => exact hresumed hkey _ _
    next => exact hreported _ _
    next hkey => exact hresumed hkey _ _
    next => exact hreported _ _

/-- **Layer up and layer down.** In a run whose steps are careful the signals alternate, layer up
first, and at the end of every transition they tell the state. -/
theorem paired_of_careful {h : List (LcpAutomatonP × LcpHandler)} (hr : machine.Run h s)
    (hcareful : ∀ p ∈ h, p.1.Careful p.2) : Paired s.log ∧ ∀ p ∈ h, Paired p.1.log := by
  have htells := hr.inv_of_steps (P := Tells) (C := Careful) ?_
    (fun _ _ _ hT hC hs => tells_step hT hC hs) hcareful
  · exact ⟨htells.1.onTrack.1, fun p hp => (htells.2 p hp).onTrack.1⟩
  · rintro s rfl
    exact ⟨⟨nofun, nofun⟩, ⟨trivial, ⟨nofun, nofun⟩⟩, fun _ => ⟨⟨nofun, nofun⟩, rfl⟩, nofun, nofun⟩

/-- The peer opens the layer, the administrator closes it. -/
theorem paired_closed : ∃ (h : List (LcpAutomatonP × LcpHandler)) (s : LcpAutomatonP),
    machine.Run h s ∧ s.currentState = .closing ∧ isUp s.log = false ∧ Paired s.log := by
  obtain ⟨h, s, hr, hp⟩ := Machine.exists_run_of_exec (M := machine) (s := boot) rfl
    [.signalEvent .laeOpen fun _ => (.success, 5), .signalEvent .laeUp fun _ => (.success, 5),
      .outputFrameTransmitted 5 .success, .resumeAutomatonTask fun _ => (.success, 6),
      .signalEvent (.laeReceiveConfigureAck ⟨1, 2, 2⟩) fun _ => (.success, 6),
      .signalEvent (.laeReceiveConfigureRequest ⟨true, 1, 2, 7⟩) fun _ => (.success, 0),
      .outputFrameTransmitted 7 .success, .resumeAutomatonTask fun _ => (.success, 8),
      .signalEvent .laeClose fun _ => (.success, 8)]
    (fun h s => (s.currentState = .closing ∧ isUp s.log = false) ∧ ∀ p ∈ h, p.1.Careful p.2)
    (by decide)
  obtain ⟨⟨hstate, hup⟩, hcareful⟩ := of_decide_eq_true hp
  exact ⟨h, s, hr, hstate, hup, (paired_of_careful hr hcareful).1⟩

/-- The peer acknowledges once more what it acknowledged: the layer goes down, and the automaton
says that it is opened. -/
theorem paired_false : ¬ ∀ s, machine.Reachable s → Paired s.log := by
  intro hall
  obtain ⟨h, s, hr, hp⟩ := Machine.exists_run_of_exec (M := machine) (s := boot) rfl
    [.signalEvent .laeOpen fun _ => (.success, 5), .signalEvent .laeUp fun _ => (.success, 5),
      .outputFrameTransmitted 5 .success, .resumeAutomatonTask fun _ => (.success, 6),
      .signalEvent (.laeReceiveConfigureAck ⟨1, 2, 2⟩) fun _ => (.success, 6),
      .signalEvent (.laeReceiveConfigureRequest ⟨true, 1, 2, 7⟩) fun _ => (.success, 0),
      .outputFrameTransmitted 7 .success, .resumeAutomatonTask fun _ => (.success, 8),
      .signalEvent (.laeReceiveConfigureAck ⟨1, 2, 2⟩) fun _ => (.success, 8),
      .outputFrameTransmitted 8 .success, .resumeAutomatonTask fun _ => (.success, 9)]
    (fun _ s => s.log.head? = some (.transitionCompleted .opened) ∧ isUp s.log.tail = false)
    (by decide)
  obtain ⟨hhead, hup⟩ := of_decide_eq_true hp
  have hpaired := hall s ⟨h, hr⟩
  obtain ⟨log, hlog⟩ : ∃ log, s.log = .transitionCompleted .opened :: log :=
    List.head?_eq_some_iff.1 hhead
  rw [hlog] at hpaired hup
  cases hup.symm.trans (hpaired.1.1 rfl)

end LcpAutomatonP

end Ppp
