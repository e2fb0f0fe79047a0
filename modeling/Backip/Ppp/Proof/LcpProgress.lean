import Backip.Ppp.Proof.LcpStep
import Mathlib

/-!
# The automaton does not wedge

An error leaves the actions after it pending, and nothing takes them up again; and the task that
works off the actions of a timeout is posted in its own right, so that it can run while another
transition awaits a frame. Without these two the automaton is either at rest, or awaits a frame and
does nothing else, or its task is posted (`LcpWatch.progresses_iff`).
-/

set_option autoImplicit false

namespace Ppp

/-- The actions `todo` can be worked off without an error, or up to the last one, or up to one that
awaits a frame. -/
def Settles (answer : LcpAnswer) (key : Nat) : List TransitionAction → Prop
  | [] => True
  | a :: rest =>
    match outcome answer key a with
    | .done => Settles answer key rest
    | .failed => rest = []
    | .suspended k => k ≠ 0

/-- The same, where `rc` is the error code to start with: an error leaves all but the first action
undone. -/
def SettlesFrom (answer : LcpAnswer) (rc : TinyError) (key : Nat) (todo : List TransitionAction) :
    Prop :=
  if rc = .success then Settles answer key todo else todo.tail = []

section

variable {answer : LcpAnswer} {key : Nat} {a : TransitionAction} {rest : List TransitionAction}

theorem settles_done (h : outcome answer key a = .done) :
    Settles answer key (a :: rest) ↔ Settles answer key rest := by
  rw [Settles, h]

theorem settles_failed (h : outcome answer key a = .failed) :
    Settles answer key (a :: rest) ↔ rest = [] := by
  rw [Settles, h]

theorem settles_suspended {k : Nat} (h : outcome answer key a = .suspended k) :
    Settles answer key (a :: rest) ↔ k ≠ 0 := by
  rw [Settles, h]

end

instance instDecidableSettles (answer : LcpAnswer) (key : Nat) :
    (todo : List TransitionAction) → Decidable (Settles answer key todo)
  | [] => .isTrue trivial
  | a :: rest =>
    match h : outcome answer key a with
    | .done =>
      have := instDecidableSettles answer key rest
      decidable_of_iff _ (settles_done h).symm
    | .failed => decidable_of_iff _ (settles_failed h).symm
    | .suspended _ => decidable_of_iff _ (settles_suspended h).symm

instance (answer : LcpAnswer) (rc : TinyError) (key : Nat) (todo : List TransitionAction) :
    Decidable (SettlesFrom answer rc key todo) := inferInstanceAs (Decidable (ite _ _ _))

namespace LcpAutomatonP

variable {s s' : LcpAutomatonP} {answer : LcpAnswer} {rc : TinyError}

/-- Nothing is left, or a frame is awaited. -/
def Leaves (r : TinyError × Bool × LcpAutomatonP) : Prop :=
  (r.2.1 = false → r.2.2.pendingActions = []) ∧ (r.2.1 = true → r.2.2.resumeKey ≠ 0)

theorem leaves_loop (todo : List TransitionAction) (answer : LcpAnswer) (s : LcpAutomatonP) :
    Leaves (loop answer todo .success s) ↔ Settles answer s.pendingSxxKey todo := by
  induction todo generalizing s with
  | nil =>
    obtain ⟨n, hn⟩ := takeUp_eq s none []
    rw [loop, hn]
    exact iff_of_true ⟨fun _ => rfl, by rintro ⟨⟩⟩ trivial
  | cons a rest ih =>
    obtain ⟨r, hexec, hloop⟩ := loop_cons s answer .success a rest
    obtain ⟨n, hn⟩ := begin_eq s a rest
    have hsxx : (s.begin a rest).pendingSxxKey = s.pendingSxxKey := by rw [hn]
    have hpend : (s.begin a rest).pendingActions = rest := by rw [hn]
    rw [hloop]
    cases hexec with
    | after rc s' hrc hsame hkey => exact absurd rfl hrc
    | done s' hout hsame hsxx' hkey =>
      rw [hsxx] at hout hsxx'
      rw [if_pos ⟨rfl, rfl⟩, settles_done hout, ← hsxx']
      exact ih s'
    | failed r s' hr hout hsame hkey =>
      rw [hsxx] at hout
      rw [if_neg fun hgo => hr hgo.1, settles_failed hout, ← hpend, ← hsame.pendingActions]
      exact ⟨fun h => h.1 rfl, fun h => ⟨fun _ => h, by rintro ⟨⟩⟩⟩
    | suspended s' hout hsame =>
      rw [hsxx] at hout
      rw [if_neg (by rintro ⟨-, ⟨⟩⟩), settles_suspended hout]
      exact ⟨fun h => h.2 rfl, fun h => ⟨by rintro ⟨⟩, fun _ => h⟩⟩

theorem leaves_loop_after (hrc : rc ≠ .success) (todo : List TransitionAction)
    (answer : LcpAnswer) (s : LcpAutomatonP) :
    Leaves (loop answer todo rc s) ↔ todo.tail = [] := by
  cases todo with
  | nil =>
    obtain ⟨n, hn⟩ := takeUp_eq s none []
    rw [loop, hn]
    exact iff_of_true ⟨fun _ => rfl, by rintro ⟨⟩⟩ rfl
  | cons a rest =>
    obtain ⟨r, hexec, hloop⟩ := loop_cons s answer rc a rest
    obtain ⟨n, hn⟩ := begin_eq s a rest
    have hpend : (s.begin a rest).pendingActions = rest := by rw [hn]
    rw [hloop]
    cases hexec with
    | after rc s' _ hsame hkey =>
      rw [if_neg fun hgo => hrc hgo.1, List.tail_cons, ← hpend, ← hsame.pendingActions]
      exact ⟨fun h => h.1 rfl, fun h => ⟨fun _ => h, by rintro ⟨⟩⟩⟩
    | done | failed | suspended => exact absurd rfl hrc

/-- What the table and the loop leave of it. -/
theorem leaves_iff (answer : LcpAnswer) (rc : TinyError) (todo : List TransitionAction)
    (s : LcpAutomatonP) :
    Leaves (loop answer todo rc s) ↔ SettlesFrom answer rc s.pendingSxxKey todo := by
  unfold SettlesFrom
  by_cases hrc : rc = .success
  · rw [if_pos hrc, hrc]
    exact leaves_loop todo answer s
  · rw [if_neg hrc]
    exact leaves_loop_after hrc todo answer s

/-! ## The invariants -/

/-- No transition ends in `LAS_TRANSIENT`. -/
def Stable (s : LcpAutomatonP) : Prop :=
  s.successState ≠ .transient ∧ s.failState ≠ .transient

/-- Nothing is pending unless a frame is awaited. -/
def Rests (s : LcpAutomatonP) : Prop := s.resumeKey = 0 → s.Free

/-- In `LAS_TRANSIENT` while a frame is awaited. -/
def Waits (s : LcpAutomatonP) : Prop := s.resumeKey ≠ 0 → s.currentState = .transient

theorem Stable.endState (h : s.Stable) (rc : TinyError) : s.endState rc ≠ .transient := by
  unfold LcpAutomatonP.endState
  split
  · exact h.1
  · exact h.2

theorem Looped.stable {r : TinyError × Bool × LcpAutomatonP} (h : Looped s r) (hs : s.Stable) :
    r.2.2.Stable :=
  ⟨fun hc => hs.1 (h.successState.symm.trans hc), fun hc => hs.2 (h.failState.symm.trans hc)⟩

theorem process_stable (hs : s.Stable) (answer : LcpAnswer) :
    (s.processEventActions answer).2.Stable := by
  obtain ⟨r, hr, hend⟩ := process_cases s answer
  have hlooped : Looped { s with resumeResult := .success } r := hr ▸ looped _ _ _ _
  have hstable := hlooped.stable hs
  rcases hend with ⟨-, hs'⟩ | ⟨-, hs'⟩
  · rw [hs']
    exact hstable
  · obtain ⟨_, _, _, -, hc⟩ := complete_eq r.2.2 r.1
    rw [hs', hc]
    exact hstable

theorem process_posted (s : LcpAutomatonP) (answer : LcpAnswer) :
    (s.processEventActions answer).2.resumeAutomatonPosted = s.resumeAutomatonPosted := by
  obtain ⟨r, hr, hend⟩ := process_cases s answer
  have hlooped : Looped { s with resumeResult := .success } r := hr ▸ looped _ _ _ _
  rcases hend with ⟨-, hs'⟩ | ⟨-, hs'⟩
  · rw [hs']
    exact hlooped.posted
  · obtain ⟨_, _, _, -, hc⟩ := complete_eq r.2.2 r.1
    rw [hs', hc]
    exact hlooped.posted

/-- Work on the actions while no frame is awaited. -/
theorem process_rests (hs : s.Stable) (hkey : s.resumeKey = 0) (answer : LcpAnswer) :
    (s.processEventActions answer).2.Waits ∧
      ((s.processEventActions answer).2.Rests ↔
        SettlesFrom answer s.resumeResult s.pendingSxxKey s.pendingActions) := by
  obtain ⟨r, hr, hend⟩ := process_cases s answer
  have hlooped : Looped { s with resumeResult := .success } r := hr ▸ looped _ _ _ _
  have hleaves : Leaves r ↔ SettlesFrom answer s.resumeResult s.pendingSxxKey s.pendingActions :=
    hr ▸ leaves_iff answer s.resumeResult s.pendingActions { s with resumeResult := .success }
  rw [← hleaves]
  rcases hend with ⟨hsusp, hs'⟩ | ⟨hsusp, hs'⟩
  · rw [hs']
    refine ⟨fun _ => rfl, fun hrests => ⟨fun hf => ?_, fun _ hzero => ?_⟩, fun h hzero => ?_⟩
    · cases hsusp.symm.trans hf
    · exact (hrests hzero).2 rfl
    · exact absurd hzero (h.2 hsusp)
  · obtain ⟨_, _, _, -, hc⟩ := complete_eq r.2.2 r.1
    have hzero := hlooped.resumeKey hsusp hkey
    rw [hs', hc]
    refine ⟨fun hne => absurd hzero hne, fun hrests => ⟨fun _ => (hrests hzero).1, fun ht => ?_⟩,
      fun h _ => ⟨h.1 hsusp, (hlooped.stable hs).endState r.1⟩⟩
    cases hsusp.symm.trans ht

/-- Work on the actions while a frame is awaited: an action is executed, or the transition ends. -/
theorem process_hasty (hs : s.Stable) (hkey : s.resumeKey ≠ 0) (answer : LcpAnswer)
    (hquiet : executed (s.processEventActions answer).2.log = executed s.log) :
    ¬ (s.processEventActions answer).2.Waits := by
  obtain ⟨r, hr, hend⟩ := process_cases s answer
  have hlooped : Looped { s with resumeResult := .success } r := hr ▸ looped _ _ _ _
  have hlen : (executed r.2.2.log).length = (executed s.log).length := by
    rcases hend with ⟨-, hs'⟩ | ⟨-, hs'⟩
    · rw [hs'] at hquiet
      exact congrArg List.length hquiet
    · obtain ⟨_, _, l, hl, hc⟩ := complete_eq r.2.2 r.1
      rw [hs', hc] at hquiet
      have hsame : executed (l ++ r.2.2.log) = executed r.2.2.log := executed_quiet hl
      exact congrArg List.length (hsame.symm.trans hquiet)
  generalize hs₀ : ({ s with resumeResult := .success } : LcpAutomatonP) = s₀ at hr hlooped
  have hlog₀ : s₀.log = s.log := by rw [← hs₀]
  have hkey₀ : s₀.resumeKey = s.resumeKey := by rw [← hs₀]
  have hs₁ : s₀.Stable := by rw [← hs₀]; exact hs
  cases htodo : s.pendingActions with
  | cons a rest =>
    have hmore := executed_loop a rest answer s.resumeResult s₀
    rw [htodo] at hr
    rw [← hr, hlog₀] at hmore
    exact absurd hlen (Nat.ne_of_gt hmore)
  | nil =>
    obtain ⟨n, hn⟩ := takeUp_eq s₀ none []
    rw [htodo, loop, hn] at hr
    rcases hend with ⟨hsusp, -⟩ | ⟨-, hs'⟩
    · rw [hr] at hsusp
      cases hsusp
    · obtain ⟨_, _, _, -, hc⟩ := complete_eq r.2.2 r.1
      have hawaited : r.2.2.resumeKey ≠ 0 := by
        rw [hr]
        exact fun hzero => hkey (hkey₀.symm.trans hzero)
      intro hwaits
      rw [hs', hc] at hwaits
      exact (hlooped.stable hs₁).endState r.1 (hwaits hawaited)

/-- A handler runs to the end, or up to a frame, without leaving actions behind: an event does
unless `resumeAutomaton_task` is posted anyway, and the task itself, which runs while no frame is
awaited. -/
def Meets (s : LcpAutomatonP) : LcpHandler → Prop
  | .signalEvent evt answer => s.resumeAutomatonPosted = false → s.Free →
    SettlesFrom answer s.resumeResult (s.calculateEventActions evt).2.pendingSxxKey
      (s.calculateEventActions evt).2.pendingActions
  | .resumeAutomatonTask answer => s.resumeKey = 0 ∧
    SettlesFrom answer s.resumeResult s.pendingSxxKey s.pendingActions
  | _ => True

instance (s : LcpAutomatonP) : (e : LcpHandler) → Decidable (s.Meets e)
  | .signalEvent evt answer => inferInstanceAs (Decidable (s.resumeAutomatonPosted = false →
    s.Free → SettlesFrom answer s.resumeResult (s.calculateEventActions evt).2.pendingSxxKey
      (s.calculateEventActions evt).2.pendingActions))
  | .resumeAutomatonTask answer => inferInstanceAs (Decidable (s.resumeKey = 0 ∧
    SettlesFrom answer s.resumeResult s.pendingSxxKey s.pendingActions))
  | .restartTimerFired | .restartTimerFiredTask | .outputFrameTransmitted .. => .isTrue trivial

end LcpAutomatonP

/-- The automaton, and whether it ever executed an action while a frame was awaited. -/
structure LcpWatch where
  a : LcpAutomatonP
  hasty : Bool

namespace LcpWatch

variable {s s' : LcpWatch} {e : LcpHandler}

def step (s : LcpWatch) (e : LcpHandler) : Option LcpWatch :=
  (s.a.step e).map fun a =>
    { a := a
      hasty := s.hasty || decide (s.a.resumeKey ≠ 0 ∧ executed a.log ≠ executed s.a.log) }

def machine : Machine LcpWatch LcpHandler where
  init s := s.a = LcpAutomatonP.boot ∧ s.hasty = false
  step := step

/-- The automaton is at rest, or awaits a frame, or its task is posted; and while it awaited a frame
it did nothing else. -/
structure Progresses (s : LcpWatch) : Prop where
  rests : s.a.resumeKey = 0 → s.a.resumeAutomatonPosted = false →
    s.a.pendingActions = [] ∧ s.a.currentState ≠ .transient
  waits : s.a.resumeKey ≠ 0 → s.a.currentState = .transient
  patient : s.hasty = false

theorem step_cases (h : s.step e = some s') : s.a.step e = some s'.a ∧
    s'.hasty =
      (s.hasty || decide (s.a.resumeKey ≠ 0 ∧ executed s'.a.log ≠ executed s.a.log)) := by
  obtain ⟨a, ha, rfl⟩ := Option.map_eq_some_iff.1 h
  exact ⟨ha, rfl⟩

/-- Handlers that execute nothing. -/
theorem Progresses.quiet (hP : s.Progresses) (h : s.step e = some s')
    (hlog : s'.a.log = s.a.log)
    (hrests : s'.a.resumeKey = 0 → s'.a.resumeAutomatonPosted = false → s'.a.Free)
    (hwaits : s'.a.Waits) : s'.Progresses := by
  refine ⟨hrests, hwaits, ?_⟩
  rw [(step_cases h).2, hP.patient, hlog]
  simp

theorem stable_step (hs : s.a.Stable) (h : s.step e = some s') : s'.a.Stable := by
  have ha := (step_cases h).1
  have hcalc : ∀ (a : LcpAutomatonP) (evt : LcpAutomatonEvent), a.Stable →
      (a.calculateEventActions evt).2.Stable := fun a evt ha => by
    by_cases hfree : a.Free
    · obtain ⟨_, _, _, _, hc⟩ := LcpAutomatonP.calculate_free hfree evt
      rw [hc]
      exact ⟨LcpAutomatonP.eventActions_stable hfree.2 evt, hfree.2⟩
    · rw [LcpAutomatonP.calculate_busy hfree evt]
      exact ha
  cases e with
  | signalEvent evt answer =>
    obtain ha := Option.some.inj ha
    rw [← ha]
    unfold LcpAutomatonP.signalEvent
    have hstable := hcalc s.a evt hs
    by_cases hretry : (s.a.calculateEventActions evt).1 = .eretry
    · simp only [if_pos hretry]
      exact hstable
    · simp only [if_neg hretry]
      exact LcpAutomatonP.process_stable hstable answer
  | restartTimerFired =>
    simp only [LcpAutomatonP.step, Option.ite_none_right_eq_some, Option.some.injEq] at ha
    rw [← ha.2]
    exact hs
  | restartTimerFiredTask =>
    simp only [LcpAutomatonP.step, Option.ite_none_right_eq_some, Option.some.injEq] at ha
    rw [← ha.2]
    unfold LcpAutomatonP.restartTimerFiredTask
    have hstable := hcalc { s.a with restartTimerFiredPosted := false }
      (.laeTimeout (0 < s.a.restartCounter)) hs
    dsimp only
    split <;> exact hstable
  | resumeAutomatonTask answer =>
    simp only [LcpAutomatonP.step, Option.ite_none_right_eq_some, Option.some.injEq] at ha
    rw [← ha.2]
    have hs₀ : ({ s.a with resumeAutomatonPosted := false } : LcpAutomatonP).Stable := hs
    exact LcpAutomatonP.process_stable hs₀ answer
  | outputFrameTransmitted key result =>
    simp only [LcpAutomatonP.step, Option.ite_none_right_eq_some, Option.some.injEq] at ha
    rw [← ha.2]
    unfold LcpAutomatonP.outputFrameTransmitted
    dsimp only
    split <;> split <;> exact hs

theorem step_signalEvent (hP : s.Progresses) {evt : LcpAutomatonEvent}
    {answer : LcpAnswer} (h : s.step (.signalEvent evt answer) = some s') :
    s'.Progresses ↔ s.a.Meets (.signalEvent evt answer) := by
  have ha : (s.a.signalEvent evt answer).2 = s'.a := Option.some.inj (step_cases h).1
  unfold LcpAutomatonP.signalEvent at ha
  by_cases hfree : s.a.Free
  · have hzero : s.a.resumeKey = 0 := Decidable.byContradiction fun hne => hfree.2 (hP.waits hne)
    obtain ⟨code, options, optionsEnd, key, hc⟩ := LcpAutomatonP.calculate_free hfree evt
    generalize hs₀ : (s.a.calculateEventActions evt).2 = s₀
    rw [hc] at hs₀
    have hstable : s₀.Stable := by
      rw [← hs₀]
      exact ⟨LcpAutomatonP.eventActions_stable hfree.2 evt, hfree.2⟩
    have hkey₀ : s₀.resumeKey = 0 := by rw [← hs₀]; exact hzero
    have hposted₀ : s₀.resumeAutomatonPosted = s.a.resumeAutomatonPosted := by rw [← hs₀]
    have hresult₀ : s₀.resumeResult = s.a.resumeResult := by rw [← hs₀]
    have hprocess : s'.a = (s₀.processEventActions answer).2 := by
      rw [← ha, hc, ← hs₀]
      rfl
    obtain ⟨hwaits, hrests⟩ := LcpAutomatonP.process_rests hstable hkey₀ answer
    have hposted := LcpAutomatonP.process_posted s₀ answer
    rw [← hprocess] at hwaits hrests hposted
    rw [hposted₀] at hposted
    rw [hresult₀] at hrests
    have hmeets : s.a.Meets (.signalEvent evt answer) ↔
        (s.a.resumeAutomatonPosted = false → s'.a.Rests) := by
      rw [hrests]
      dsimp only [LcpAutomatonP.Meets]
      rw [hc, ← hs₀]
      exact ⟨fun hm hp => hm hp hfree, fun hm hp _ => hm hp⟩
    rw [hmeets]
    constructor
    · exact fun hP' hp hzero' => hP'.rests hzero' (hposted.trans hp)
    · intro hm
      refine ⟨fun hzero' hp => hm (hposted.symm.trans hp) hzero', hwaits, ?_⟩
      rw [(step_cases h).2, hP.patient]
      simp [hzero]
  · have hsame : s'.a = s.a := by
      rw [← ha, LcpAutomatonP.calculate_busy hfree evt]
      rfl
    have hmeets : s.a.Meets (.signalEvent evt answer) := fun _ hf => absurd hf hfree
    refine iff_of_true (hP.quiet h (by rw [hsame]) ?_ ?_) hmeets
    · rw [hsame]
      exact hP.rests
    · rw [hsame]
      exact hP.waits

theorem step_resumeAutomatonTask (hs : s.a.Stable) (hP : s.Progresses) {answer : LcpAnswer}
    (h : s.step (.resumeAutomatonTask answer) = some s') :
    s'.Progresses ↔ s.a.Meets (.resumeAutomatonTask answer) := by
  obtain ⟨ha, hhasty⟩ := step_cases h
  simp only [LcpAutomatonP.step, Option.ite_none_right_eq_some, Option.some.injEq] at ha
  obtain ⟨-, ha⟩ := ha
  generalize hs₀ : ({ s.a with resumeAutomatonPosted := false } : LcpAutomatonP) = s₀ at ha
  have hstable : s₀.Stable := by rw [← hs₀]; exact hs
  have hkey₀ : s₀.resumeKey = s.a.resumeKey := by rw [← hs₀]
  have hlog₀ : s₀.log = s.a.log := by rw [← hs₀]
  have hposted : s'.a.resumeAutomatonPosted = false := by
    rw [← ha, LcpAutomatonP.process_posted, ← hs₀]
  by_cases hzero : s.a.resumeKey = 0
  · obtain ⟨hwaits, hrests⟩ := LcpAutomatonP.process_rests hstable (hkey₀.trans hzero) answer
    rw [ha, ← hs₀] at hrests
    rw [ha] at hwaits
    have hmeets : s.a.Meets (.resumeAutomatonTask answer) ↔ s'.a.Rests :=
      ⟨fun hm => hrests.2 hm.2, fun hr => ⟨hzero, hrests.1 hr⟩⟩
    rw [hmeets]
    constructor
    · exact fun hP' hzero' => hP'.rests hzero' hposted
    · intro hr
      refine ⟨fun hzero' _ => hr hzero', hwaits, ?_⟩
      rw [hhasty, hP.patient]
      simp [hzero]
  · refine iff_of_false (fun hP' => ?_) fun hm => hzero hm.1
    have hquiet : executed s'.a.log = executed s₀.log := by
      have hpatient := hhasty.symm.trans hP'.patient
      rw [Bool.or_eq_false_iff, decide_eq_false_iff_not] at hpatient
      rw [hlog₀]
      exact Decidable.byContradiction fun hne => hpatient.2 ⟨hzero, hne⟩
    have hnot := LcpAutomatonP.process_hasty hstable (fun hz => hzero (hkey₀.symm.trans hz))
      answer (by rw [ha]; exact hquiet)
    rw [ha] at hnot
    exact hnot hP'.waits

theorem step_iff (hs : s.a.Stable) (hP : s.Progresses) (h : s.step e = some s') :
    s'.Progresses ↔ s.a.Meets e := by
  cases e with
  | signalEvent evt answer => exact step_signalEvent hP h
  | resumeAutomatonTask answer => exact step_resumeAutomatonTask hs hP h
  | restartTimerFired =>
    have ha := (step_cases h).1
    simp only [LcpAutomatonP.step, Option.ite_none_right_eq_some, Option.some.injEq] at ha
    obtain ⟨-, ha⟩ := ha
    refine iff_of_true (hP.quiet h (by rw [← ha]) ?_ ?_) trivial
    · rw [← ha]
      exact hP.rests
    · rw [← ha]
      exact hP.waits
  | restartTimerFiredTask =>
    have ha := (step_cases h).1
    simp only [LcpAutomatonP.step, Option.ite_none_right_eq_some, Option.some.injEq] at ha
    obtain ⟨-, ha⟩ := ha
    unfold LcpAutomatonP.restartTimerFiredTask at ha
    by_cases hfree : s.a.Free
    · have hzero : s.a.resumeKey = 0 :=
        Decidable.byContradiction fun hne => hfree.2 (hP.waits hne)
      have hfree₀ : ({ s.a with restartTimerFiredPosted := false } : LcpAutomatonP).Free := hfree
      obtain ⟨_, _, _, _, hc⟩ := LcpAutomatonP.calculate_free hfree₀
        (.laeTimeout (0 < s.a.restartCounter))
      simp only [hc, if_true] at ha
      refine iff_of_true (hP.quiet h (by rw [← ha]) ?_ ?_) trivial
      · rw [← ha]
        nofun
      · rw [← ha]
        exact fun hne => absurd hzero hne
    · have hfree₀ : ¬ ({ s.a with restartTimerFiredPosted := false } : LcpAutomatonP).Free := hfree
      simp only [LcpAutomatonP.calculate_busy hfree₀, reduceCtorEq, if_false] at ha
      refine iff_of_true (hP.quiet h (by rw [← ha]) ?_ ?_) trivial
      · rw [← ha]
        exact hP.rests
      · rw [← ha]
        exact hP.waits
  | outputFrameTransmitted key result =>
    have ha := (step_cases h).1
    simp only [LcpAutomatonP.step, Option.ite_none_right_eq_some, Option.some.injEq] at ha
    obtain ⟨-, ha⟩ := ha
    obtain ⟨restartKey, timer, hkept⟩ : ∃ restartKey timer,
        s'.a = { s.a with
          accepted := s.a.accepted.erase key, restartKey := restartKey, timer := timer } ∨
        s'.a = { s.a with
          accepted := s.a.accepted.erase key, restartKey := restartKey, timer := timer
          resumeResult := result, resumeKey := 0, resumeAutomatonPosted := true } := by
      rw [← ha]
      unfold LcpAutomatonP.outputFrameTransmitted
      dsimp only
      split <;> split
      · exact ⟨_, _, .inr rfl⟩
      · exact ⟨_, _, .inl rfl⟩
      · exact ⟨_, _, .inr rfl⟩
      · exact ⟨_, _, .inl rfl⟩
    refine iff_of_true ?_ trivial
    rcases hkept with hkept | hkept
    · refine hP.quiet h (by rw [hkept]) ?_ ?_
      · rw [hkept]
        exact hP.rests
      · rw [hkept]
        exact hP.waits
    · refine hP.quiet h (by rw [hkept]) ?_ ?_
      · rw [hkept]
        nofun
      · rw [hkept]
        exact fun hne => absurd rfl hne

/-- **The automaton neither wedges nor runs ahead** in a run exactly if every handler that works on
actions runs to the end or up to a frame, and `resumeAutomaton_task` only while no frame is
awaited. -/
theorem progresses_iff {h : List (LcpWatch × LcpHandler)} (hr : machine.Run h s) :
    (s.Progresses ∧ ∀ p ∈ h, p.1.Progresses) ↔ ∀ p ∈ h, p.1.a.Meets p.2 := by
  have hinv : machine.Inductive fun s => s.a.Stable :=
    { init := fun s hs => by
        rw [show s.a = LcpAutomatonP.boot from hs.1]
        exact ⟨nofun, nofun⟩
      step := fun _ _ _ hs h => stable_step hs h }
  refine hr.forall_iff hinv ?_ fun _ _ _ hs hP h => step_iff hs hP h
  rintro s ⟨ha, hhasty⟩
  refine ⟨?_, ?_, hhasty⟩
  · rw [ha]
    exact fun _ _ => ⟨rfl, nofun⟩
  · rw [ha]
    exact fun hne => absurd rfl hne

/-- An administrator opens the automaton, the lower layer comes up, and the peer acknowledges the
Configure-Request; every call succeeds. -/
theorem progresses_acknowledged : ∃ (h : List (LcpWatch × LcpHandler)) (s : LcpWatch),
    machine.Run h s ∧ s.a.currentState = .ackReceived ∧ s.Progresses := by
  obtain ⟨h, s, hr, hp⟩ := Machine.exists_run_of_exec (M := machine)
    (s := ⟨LcpAutomatonP.boot, false⟩) ⟨rfl, rfl⟩
    [.signalEvent .laeOpen fun _ => (.success, 5), .signalEvent .laeUp fun _ => (.success, 5),
      .outputFrameTransmitted 5 .success, .resumeAutomatonTask fun _ => (.success, 6),
      .signalEvent (.laeReceiveConfigureAck ⟨1, 2, 2⟩) fun _ => (.success, 6)]
    (fun h s => s.a.currentState = .ackReceived ∧ ∀ p ∈ h, p.1.a.Meets p.2) (by decide)
  obtain ⟨hstate, hmeets⟩ := of_decide_eq_true hp
  exact ⟨h, s, hr, hstate, ((progresses_iff hr).2 hmeets).1⟩

/-- `Ppp.sendOutputFrame` refuses a Configure-Ack: the options of the peer stay pending, and the
automaton refuses every event from then on. -/
theorem progresses_false : ¬ ∀ s, machine.Reachable s → s.Progresses := by
  intro hall
  obtain ⟨h, s, hr, hp⟩ := Machine.exists_run_of_exec (M := machine)
    (s := ⟨LcpAutomatonP.boot, false⟩) ⟨rfl, rfl⟩
    [.signalEvent .laeOpen fun _ => (.success, 5), .signalEvent .laeUp fun _ => (.success, 5),
      .outputFrameTransmitted 5 .success, .resumeAutomatonTask fun _ => (.success, 6),
      .signalEvent (.laeReceiveConfigureRequest ⟨true, 1, 2, 7⟩) fun _ => (.fail, 0)]
    (fun _ s => s.a.resumeKey = 0 ∧ s.a.resumeAutomatonPosted = false ∧
      s.a.pendingActions = [.setRemoteOptions]) (by decide)
  obtain ⟨hkey, hposted, hpend⟩ := of_decide_eq_true hp
  have hrests := ((hall s ⟨h, hr⟩).rests hkey hposted).1
  rw [hpend] at hrests
  cases hrests

end LcpWatch

end Ppp
