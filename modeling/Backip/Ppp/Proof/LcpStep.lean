import Backip.Ppp.LcpAutomatonP

/-!
# What an action of the automaton does

`Executes` says once what the execution of an action can do: nothing but its signals when an error
came before it, and otherwise what its outcome says. `Looped` is what every loop over the pending
actions keeps.
-/

set_option autoImplicit false

namespace Ppp

/-- No action, no layer up or down, no end of a transition. -/
def LcpEntry.Quiet : LcpEntry → Prop
  | .action _ | .thisLayerUp | .thisLayerDown | .transitionCompleted _ => False
  | _ => True

/-- What an action adds to the log. -/
def Logs (a : TransitionAction) (log log' : List LcpEntry) : Prop :=
  match a with
  | .tlu => log' = .thisLayerUp :: log
  | .tld => log' = .thisLayerDown :: log
  | _ => ∃ l, log' = l ++ log ∧ ∀ e ∈ l, e.Quiet

/-- What comes of an action that is executed without an error before it. -/
inductive LcpOutcome
  | done
  | failed
  | suspended (key : Nat)
deriving DecidableEq

/-- What comes of `a`, where the frame `key` is pending: a frame that was accepted suspends the
transition, a call that failed ends it. -/
def outcome (answer : LcpAnswer) (key : Nat) (a : TransitionAction) : LcpOutcome :=
  match a with
  | .scr | .staUns =>
    if (answer a).1 ≠ .success then .failed
    else if (answer a).2 = 0 then .done
    else .suspended (answer a).2
  | .staRep | .sca | .scn => if (answer a).1 ≠ .success then .failed else .suspended key
  | _ => .done

/-- The actions that were executed, the last one first. -/
def executed (log : List LcpEntry) : List TransitionAction :=
  log.filterMap fun
    | .action a => some a
    | _ => none

theorem executed_quiet {l log : List LcpEntry} (h : ∀ e ∈ l, e.Quiet) :
    executed (l ++ log) = executed log := by
  induction l with
  | nil => rfl
  | cons e l ih =>
    obtain ⟨he, hl⟩ := List.forall_mem_cons.1 h
    have hnone : executed (e :: (l ++ log)) = executed (l ++ log) := by
      cases e <;> first | rfl | exact he.elim
    exact hnone.trans (ih hl)

theorem executed_logs {a : TransitionAction} {log log' : List LcpEntry} (h : Logs a log log') :
    executed log' = executed log := by
  cases a with
  | tlu | tld =>
    rw [show log' = _ from h]
    rfl
  | _ =>
    obtain ⟨l, rfl, hl⟩ := h
    exact executed_quiet hl

namespace LcpAutomatonP

variable {s s₁ s' : LcpAutomatonP} {answer : LcpAnswer} {a : TransitionAction} {rc : TinyError}

/-- What an action leaves alone, and what it says. -/
structure Same (a : TransitionAction) (s s' : LcpAutomatonP) : Prop where
  pendingActions : s'.pendingActions = s.pendingActions
  successState : s'.successState = s.successState
  failState : s'.failState = s.failState
  posted : s'.resumeAutomatonPosted = s.resumeAutomatonPosted
  resumeResult : s'.resumeResult = s.resumeResult
  log : Logs a s.log s'.log

/-- What comes of the execution of `a` in `s`. -/
inductive Executes (answer : LcpAnswer) (a : TransitionAction) (s : LcpAutomatonP) :
    TinyError → TinyError × Bool × LcpAutomatonP → Prop
  | after (rc : TinyError) (s' : LcpAutomatonP) (hrc : rc ≠ .success) (hsame : Same a s s')
      (hkey : s.resumeKey = 0 → s'.resumeKey = 0) : Executes answer a s rc (rc, false, s')
  | done (s' : LcpAutomatonP) (hout : outcome answer s.pendingSxxKey a = .done)
      (hsame : Same a s s') (hsxx : s'.pendingSxxKey = s.pendingSxxKey)
      (hkey : s'.resumeKey = s.resumeKey) : Executes answer a s .success (.success, false, s')
  | failed (r : TinyError) (s' : LcpAutomatonP) (hr : r ≠ .success)
      (hout : outcome answer s.pendingSxxKey a = .failed) (hsame : Same a s s')
      (hkey : s.resumeKey = 0 → s'.resumeKey = 0) : Executes answer a s .success (r, false, s')
  | suspended (s' : LcpAutomatonP)
      (hout : outcome answer s.pendingSxxKey a = .suspended s'.resumeKey) (hsame : Same a s s') :
      Executes answer a s .success (.success, true, s')

theorem Executes.plain (hout : outcome answer s.pendingSxxKey a = .done) (hsame : Same a s s')
    (hsxx : s'.pendingSxxKey = s.pendingSxxKey) (hkey : s'.resumeKey = s.resumeKey) :
    Executes answer a s rc (rc, false, s') := by
  by_cases hrc : rc = .success
  · subst hrc
    exact .done s' hout hsame hsxx hkey
  · exact .after rc s' hrc hsame hkey.trans

theorem logs_quiet {log : List LcpEntry} (e : LcpEntry) (he : e.Quiet) :
    ∃ l, e :: log = l ++ log ∧ ∀ e ∈ l, e.Quiet :=
  ⟨[e], rfl, by simpa using he⟩

theorem logs_nil {log : List LcpEntry} : ∃ l, log = l ++ log ∧ ∀ e ∈ l, LcpEntry.Quiet e :=
  ⟨[], rfl, nofun⟩

theorem executes_scr (s : LcpAutomatonP) (answer : LcpAnswer) (rc : TinyError) :
    Executes answer .scr s rc (s.execute answer rc .scr) := by
  unfold execute
  by_cases hrc : rc = .success
  · subst hrc
    have hlog : Logs .scr s.log (.setLocalOptions configureAck 0 0 :: s.log) :=
      logs_quiet _ trivial
    simp only [if_true]
    by_cases hr : (answer .scr).1 = .success
    · by_cases hkey : (answer .scr).2 = 0
      · rw [if_neg (by simp [hkey]), hr]
        exact .done _ (by simp [outcome, hr, hkey]) ⟨rfl, rfl, rfl, rfl, rfl, hlog⟩ rfl rfl
      · rw [if_pos ⟨hr, hkey⟩, hr]
        exact .suspended _ (by simp [outcome, hr, hkey]) ⟨rfl, rfl, rfl, rfl, rfl, hlog⟩
    · rw [if_neg (by simp [hr])]
      exact .failed _ _ hr (by simp [outcome, hr]) ⟨rfl, rfl, rfl, rfl, rfl, hlog⟩ id
  · simp only [hrc, false_and, if_false]
    exact .after rc _ hrc ⟨rfl, rfl, rfl, rfl, rfl, logs_nil⟩ id

theorem executes_staUns (s : LcpAutomatonP) (answer : LcpAnswer) (rc : TinyError) :
    Executes answer .staUns s rc (s.execute answer rc .staUns) := by
  unfold execute
  by_cases hrc : rc = .success
  · subst hrc
    simp only [if_true]
    by_cases hr : (answer .staUns).1 = .success
    · by_cases hkey : (answer .staUns).2 = 0
      · rw [if_neg (by simp [hkey]), hr]
        exact .done _ (by simp [outcome, hr, hkey]) ⟨rfl, rfl, rfl, rfl, rfl, logs_nil⟩ rfl rfl
      · rw [if_pos ⟨hr, hkey⟩, hr]
        exact .suspended _ (by simp [outcome, hr, hkey]) ⟨rfl, rfl, rfl, rfl, rfl, logs_nil⟩
    · rw [if_neg (by simp [hr])]
      exact .failed _ _ hr (by simp [outcome, hr]) ⟨rfl, rfl, rfl, rfl, rfl, logs_nil⟩ id
  · simp only [hrc, false_and, if_false]
    exact .after rc _ hrc ⟨rfl, rfl, rfl, rfl, rfl, logs_nil⟩ id

theorem executes_sendPendingSxx (ha : a = .staRep ∨ a = .sca ∨ a = .scn) (s : LcpAutomatonP)
    (answer : LcpAnswer) (rc : TinyError) :
    Executes answer a s rc (s.sendPendingSxx rc (answer a).1) := by
  have hout : outcome answer s.pendingSxxKey a =
      if (answer a).1 ≠ .success then .failed else .suspended s.pendingSxxKey := by
    rcases ha with rfl | rfl | rfl <;> rfl
  have hlogs : ∀ log log', (∃ l, log' = l ++ log ∧ ∀ e ∈ l, LcpEntry.Quiet e) →
      Logs a log log' := by
    rcases ha with rfl | rfl | rfl <;> exact fun _ _ h => h
  have hreleased := hlogs s.log _ (logs_quiet (.releaseOutputFrame s.pendingSxxKey) trivial)
  unfold sendPendingSxx
  by_cases hrc : rc = .success
  · subst hrc
    simp only [if_true]
    by_cases hr : (answer a).1 = .success
    · rw [if_pos hr, hr]
      exact .suspended _ (by simp [hout, hr]) ⟨rfl, rfl, rfl, rfl, rfl, hlogs _ _ logs_nil⟩
    · rw [if_neg hr]
      exact .failed _ _ hr (by simp [hout, hr]) ⟨rfl, rfl, rfl, rfl, rfl, hreleased⟩ fun _ => rfl
  · simp only [if_neg hrc]
    exact .after rc _ hrc ⟨rfl, rfl, rfl, rfl, rfl, hreleased⟩ fun _ => rfl

/-- **What an action does.** -/
theorem executes (s : LcpAutomatonP) (answer : LcpAnswer) (rc : TinyError)
    (a : TransitionAction) : Executes answer a s rc (s.execute answer rc a) := by
  cases a with
  | scr => exact executes_scr s answer rc
  | staUns => exact executes_staUns s answer rc
  | staRep => exact executes_sendPendingSxx (.inl rfl) s answer rc
  | sca => exact executes_sendPendingSxx (.inr (.inl rfl)) s answer rc
  | scn => exact executes_sendPendingSxx (.inr (.inr rfl)) s answer rc
  | tlu | tld => exact .plain rfl ⟨rfl, rfl, rfl, rfl, rfl, rfl⟩ rfl rfl
  | zrc | ircScr | ircStr | str | scj | ser | resetLocalOptions =>
    exact .plain rfl ⟨rfl, rfl, rfl, rfl, rfl, logs_nil⟩ rfl rfl
  | tlf | tls | resetRemoteOptions | setLocalOptions | setRemoteOptions =>
    exact .plain rfl ⟨rfl, rfl, rfl, rfl, rfl, logs_quiet _ trivial⟩ rfl rfl

theorem Executes.same {r : TinyError × Bool × LcpAutomatonP} (h : Executes answer a s rc r) :
    Same a s r.2.2 := by
  cases h <;> assumption

/-! ## The loop -/

/-- An action that is about to be executed. -/
def begin (s : LcpAutomatonP) (a : TransitionAction) (rest : List TransitionAction) :
    LcpAutomatonP :=
  (s.takeUp (some a) rest).record (.action a)

theorem takeUp_eq (s : LcpAutomatonP) (a : Option TransitionAction)
    (rest : List TransitionAction) : ∃ n, s.takeUp a rest =
      { s with pendingActions := rest, lastAction := a, restartCounter := n } := by
  unfold takeUp
  dsimp only
  split
  · exact ⟨_, rfl⟩
  · exact ⟨_, rfl⟩

theorem begin_eq (s : LcpAutomatonP) (a : TransitionAction) (rest : List TransitionAction) :
    ∃ n, s.begin a rest = { s with
      pendingActions := rest, lastAction := some a, restartCounter := n
      log := .action a :: s.log } := by
  obtain ⟨n, hn⟩ := takeUp_eq s (some a) rest
  exact ⟨n, by rw [begin, hn]; rfl⟩

theorem loop_cons (s : LcpAutomatonP) (answer : LcpAnswer) (rc : TinyError) (a : TransitionAction)
    (rest : List TransitionAction) : ∃ r, Executes answer a (s.begin a rest) rc r ∧
      loop answer (a :: rest) rc s =
        if r.1 = .success ∧ r.2.1 = false then loop answer rest r.1 r.2.2 else r :=
  ⟨_, executes _ answer rc a, rfl⟩

/-- What a loop keeps: `r` is its result from `s` on. -/
structure Looped (s : LcpAutomatonP) (r : TinyError × Bool × LcpAutomatonP) : Prop where
  successState : r.2.2.successState = s.successState
  failState : r.2.2.failState = s.failState
  posted : r.2.2.resumeAutomatonPosted = s.resumeAutomatonPosted
  resumeResult : r.2.2.resumeResult = s.resumeResult
  executed : (executed s.log).length ≤ (executed r.2.2.log).length
  resumeKey : r.2.1 = false → s.resumeKey = 0 → r.2.2.resumeKey = 0
  success : r.2.1 = true → r.1 = .success

theorem Executes.looped {rest : List TransitionAction} {r : TinyError × Bool × LcpAutomatonP}
    (h : Executes answer a (s.begin a rest) rc r) : Looped s r ∧
      (Ppp.executed s.log).length < (Ppp.executed r.2.2.log).length := by
  obtain ⟨n, hn⟩ := begin_eq s a rest
  have hsame := h.same
  have hlog : (Ppp.executed r.2.2.log).length = (Ppp.executed s.log).length + 1 := by
    rw [executed_logs hsame.log, hn]
    rfl
  have hkey : r.2.1 = false → (s.begin a rest).resumeKey = 0 → r.2.2.resumeKey = 0 := by
    cases h with
    | after rc s' hrc hsame hkey => exact fun _ => hkey
    | done s' hout hsame hsxx hkey => exact fun _ => hkey.trans
    | failed r s' hr hout hsame hkey => exact fun _ => hkey
    | suspended s' hout hsame => exact nofun
  have hsuccess : r.2.1 = true → r.1 = .success := by
    cases h with
    | suspended s' hout hsame => exact fun _ => rfl
    | _ => exact nofun
  rw [hn] at hsame hkey
  exact ⟨⟨hsame.successState, hsame.failState, hsame.posted, hsame.resumeResult, by omega, hkey,
    hsuccess⟩, by omega⟩

theorem Looped.trans {r : TinyError × Bool × LcpAutomatonP} (h : Looped s (rc, false, s₁))
    (h' : Looped s₁ r) : Looped s r where
  successState := h'.successState.trans h.successState
  failState := h'.failState.trans h.failState
  posted := h'.posted.trans h.posted
  resumeResult := h'.resumeResult.trans h.resumeResult
  executed := Nat.le_trans h.executed h'.executed
  resumeKey hf hs := h'.resumeKey hf (h.resumeKey rfl hs)
  success := h'.success

theorem looped (todo : List TransitionAction) (answer : LcpAnswer) (rc : TinyError)
    (s : LcpAutomatonP) : Looped s (loop answer todo rc s) := by
  induction todo generalizing rc s with
  | nil =>
    obtain ⟨n, hn⟩ := takeUp_eq s none []
    rw [loop, hn]
    exact ⟨rfl, rfl, rfl, rfl, Nat.le_refl _, fun _ => id, nofun⟩
  | cons a rest ih =>
    obtain ⟨⟨rc', suspended, s₁⟩, hexec, hloop⟩ := loop_cons s answer rc a rest
    have hfirst := hexec.looped.1
    rw [hloop]
    by_cases hgo : rc' = .success ∧ suspended = false
    · rw [if_pos hgo]
      obtain ⟨rfl, rfl⟩ := hgo
      exact hfirst.trans (ih _ _)
    · rw [if_neg hgo]
      exact hfirst

/-- A loop with something to do executes something. -/
theorem executed_loop (a : TransitionAction) (rest : List TransitionAction) (answer : LcpAnswer)
    (rc : TinyError) (s : LcpAutomatonP) :
    (executed s.log).length < (executed (loop answer (a :: rest) rc s).2.2.log).length := by
  obtain ⟨⟨rc', suspended, s₁⟩, hexec, hloop⟩ := loop_cons s answer rc a rest
  have hfirst := hexec.looped.2
  rw [hloop]
  by_cases hgo : rc' = .success ∧ suspended = false
  · rw [if_pos hgo]
    exact Nat.lt_of_lt_of_le hfirst (looped rest answer rc' s₁).executed
  · rw [if_neg hgo]
    exact hfirst

/-! ## The end of a transition -/

/-- The state a transition ends in. -/
def endState (s : LcpAutomatonP) (rc : TinyError) : LcpAutomatonState :=
  if rc = .success then s.successState else s.failState

theorem complete_eq (s : LcpAutomatonP) (rc : TinyError) :
    ∃ restartKey timer l, (∀ e ∈ l, LcpEntry.Quiet e) ∧
      s.complete rc = { s with
        currentState := s.endState rc
        restartKey := restartKey, optionSet := 0, optionSetEnd := 0, pendingSxxKey := 0
        timer := timer, log := .transitionCompleted (s.endState rc) :: (l ++ s.log) } := by
  have hrelease : ∀ e ∈ [LcpEntry.releaseOutputFrame s.pendingSxxKey], e.Quiet := by
    simp [LcpEntry.Quiet]
  unfold complete
  rw [← endState]
  by_cases hsxx : s.pendingSxxKey = 0 <;> by_cases hrun : s.endState rc ∈ timerRunningStates
  · exact ⟨s.restartKey, s.timer, [], nofun, by simp [hsxx, hrun, record]⟩
  · exact ⟨0, none, [], nofun, by simp [hsxx, hrun, record]⟩
  · exact ⟨s.restartKey, s.timer, _, hrelease, by simp [hsxx, hrun, record]⟩
  · exact ⟨0, none, _, hrelease, by simp [hsxx, hrun, record]⟩

/-- What `processEventActions` makes of the result of the loop. -/
theorem process_cases (s : LcpAutomatonP) (answer : LcpAnswer) :
    ∃ r, r = loop answer s.pendingActions s.resumeResult { s with resumeResult := .success } ∧
      (r.2.1 = true ∧ (s.processEventActions answer).2 =
          { r.2.2 with currentState := .transient } ∨
        r.2.1 = false ∧ (s.processEventActions answer).2 = r.2.2.complete r.1) := by
  refine ⟨_, rfl, ?_⟩
  unfold processEventActions
  generalize loop answer s.pendingActions s.resumeResult { s with resumeResult := .success } = r
  obtain ⟨rc, suspended, s₁⟩ := r
  cases suspended with
  | true => exact .inl ⟨rfl, rfl⟩
  | false => exact .inr ⟨rfl, rfl⟩

/-! ## The actions of an event -/

/-- The actions that are pending once an event is accepted in the state `cur`. -/
def pendingOf (cur : LcpAutomatonState) (evt : LcpAutomatonEvent) : List TransitionAction :=
  let cell := raise [] (eventActions cur evt).1
  match evt with
  | .laeReceiveConfigureRequest _ =>
    let cell := raise cell [.resetRemoteOptions]
    if .sca ∈ cell then raise cell [.setRemoteOptions] else cell
  | .laeReceiveConfigureAck _ | .laeReceiveConfigureNakRej _ => raise cell [.setLocalOptions]
  | _ => cell

/-- The automaton takes an event. -/
def Free (s : LcpAutomatonP) : Prop := s.pendingActions = [] ∧ s.currentState ≠ .transient

instance (s : LcpAutomatonP) : Decidable s.Free := inferInstanceAs (Decidable (_ ∧ _))

theorem calculate_busy (h : ¬ s.Free) (evt : LcpAutomatonEvent) :
    s.calculateEventActions evt = (.eretry, s) := by
  unfold calculateEventActions
  rw [if_pos]
  by_cases hp : s.pendingActions = []
  · exact .inr (Decidable.not_not.1 fun hc => h ⟨hp, hc⟩)
  · exact .inl hp

theorem calculate_free (h : s.Free) (evt : LcpAutomatonEvent) : ∃ code options optionsEnd key,
    s.calculateEventActions evt = (.success, { s with
      failState := s.currentState
      successState := (eventActions s.currentState evt).2
      pendingActions := pendingOf s.currentState evt
      optionMessageCode := code, optionSet := options, optionSetEnd := optionsEnd
      pendingSxxKey := key }) := by
  unfold calculateEventActions
  rw [if_neg fun hb => hb.elim (fun hp => hp h.1) h.2]
  cases evt with
  | laeReceiveConfigureRequest params =>
    dsimp only [pendingOf]
    split <;> exact ⟨_, _, _, _, rfl⟩
  | laeReceiveTerminateRequest staKey =>
    dsimp only [pendingOf]
    split <;> exact ⟨_, _, _, _, rfl⟩
  | _ => exact ⟨_, _, _, _, rfl⟩

theorem eventActions_stable {cur : LcpAutomatonState} (h : cur ≠ .transient)
    (evt : LcpAutomatonEvent) : (eventActions cur evt).2 ≠ .transient := by
  cases evt with
  | laeTimeout haveRetries =>
    cases haveRetries <;> cases cur <;> first | exact absurd rfl h | nofun
  | laeReceiveConfigureRequest params =>
    obtain ⟨good, _, _, _⟩ := params
    cases good <;> cases cur <;> first | exact absurd rfl h | nofun
  | _ => cases cur <;> first | exact absurd rfl h | nofun

end LcpAutomatonP

end Ppp
