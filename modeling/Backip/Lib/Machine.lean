/-!
# Machines and their runs

`Machine σ ε` is a partial step function over states `σ` and events `ε` (`none`: the event cannot
occur in this state), with a set of initial states. `Run h s` is a run ending in `s`; its history
`h` lists the steps taken, the last one first, each as the state it was taken in and its event.

The rules:

* `Run.inv` (an invariant holds at the end of every run, and in every state its history meets),
* `Run.inv_of_steps` (the same where only the steps that meet a condition keep the property),
* `Run.forall_iff` (where a step keeps the property exactly if it meets a condition, a run keeps
  the property in every state exactly if all of its steps meet the condition),
* `Run.forall_iff_of_strong` (the same through a stronger invariant),
* `Run.forall_steps_iff` (the same for a property of steps),
* `Run.before`, `Run.after`, `Run.unique` (what holds before a step of a run, and from it on; a run
  with the same steps ends in the same state),
* `Run.restrict` (a run without certain events is one of the machine that cannot take them),
* `Run.map` (a projection that turns steps into steps turns runs into runs),
* `run_of_exec`, `exists_run_of_exec` (an executed list of events is a run),
* `Leads.here`, `Leads.step` (events of a kind lead from a state to one with a property).
-/

set_option autoImplicit false

structure Machine (σ ε : Type) where
  init : σ → Prop
  step : σ → ε → Option σ

namespace Machine

variable {σ ε : Type} {M : Machine σ ε}

/-- The runs of `M`: the steps taken, the last one first, and the state reached. -/
inductive Run (M : Machine σ ε) : List (σ × ε) → σ → Prop
  | init {s : σ} : M.init s → Run M [] s
  | step {h : List (σ × ε)} {s s' : σ} {e : ε} :
      Run M h s → M.step s e = some s' → Run M ((s, e) :: h) s'

/-- The states some run ends in. -/
def Reachable (M : Machine σ ε) (s : σ) : Prop := ∃ h, M.Run h s

theorem Reachable.init {s : σ} (h : M.init s) : M.Reachable s := ⟨[], .init h⟩

theorem Reachable.step {s s' : σ} {e : ε} (h : M.Reachable s) (hs : M.step s e = some s') :
    M.Reachable s' :=
  let ⟨_, hr⟩ := h
  ⟨_, .step hr hs⟩

/-! ## Invariants -/

/-- `P` holds initially and every step keeps it. -/
structure Inductive (M : Machine σ ε) (P : σ → Prop) : Prop where
  init : ∀ s, M.init s → P s
  step : ∀ s e s', P s → M.step s e = some s' → P s'

theorem Run.inv {P : σ → Prop} (hP : M.Inductive P) {h : List (σ × ε)} {s : σ}
    (hr : M.Run h s) : P s := by
  induction hr with
  | init hi => exact hP.init _ hi
  | step _ hs ih => exact hP.step _ _ _ ih hs

theorem Reachable.inv {P : σ → Prop} (hP : M.Inductive P) {s : σ} (h : M.Reachable s) : P s :=
  let ⟨_, hr⟩ := h
  hr.inv hP

/-- An invariant kept by the steps that meet `C` holds in every state of a run all of whose steps
meet `C`. -/
theorem Run.inv_of_steps {P : σ → Prop} {C : σ → ε → Prop} (hi : ∀ s, M.init s → P s)
    (hs : ∀ s e s', P s → C s e → M.step s e = some s' → P s') {h : List (σ × ε)} {s : σ}
    (hr : M.Run h s) (hC : ∀ p ∈ h, C p.1 p.2) : P s ∧ ∀ p ∈ h, P p.1 := by
  induction hr with
  | init h0 => exact ⟨hi _ h0, by simp⟩
  | step _ hst ih =>
    obtain ⟨hP, hh⟩ := ih fun p hp => hC p (.tail _ hp)
    refine ⟨hs _ _ _ hP (hC _ (.head _)) hst, ?_⟩
    intro p hp
    rcases List.mem_cons.1 hp with rfl | hp
    · exact hP
    · exact hh p hp

/-- **A property kept by exactly the steps that meet `C`.** `I` is an invariant of the machine. -/
theorem Run.forall_iff {I P : σ → Prop} {C : σ → ε → Prop} (hI : M.Inductive I)
    (hi : ∀ s, M.init s → P s)
    (hs : ∀ s e s', I s → P s → M.step s e = some s' → (P s' ↔ C s e))
    {h : List (σ × ε)} {s : σ} (hr : M.Run h s) :
    (P s ∧ ∀ p ∈ h, P p.1) ↔ ∀ p ∈ h, C p.1 p.2 := by
  induction hr with
  | init h0 => simp [hi _ h0]
  | step hr hst ih =>
    simp only [List.forall_mem_cons]
    constructor
    · rintro ⟨hP', hP, hh⟩
      exact ⟨(hs _ _ _ (hr.inv hI) hP hst).1 hP', ih.1 ⟨hP, hh⟩⟩
    · rintro ⟨hc, hh⟩
      obtain ⟨hP, hh'⟩ := ih.2 hh
      exact ⟨(hs _ _ _ (hr.inv hI) hP hst).2 hc, hP, hh'⟩

/-- A property `P` through a stronger one, `J`: the steps that meet `C` keep `J`, and a step after
which `P` holds met `C`. -/
theorem Run.forall_iff_of_strong {J P : σ → Prop} {C : σ → ε → Prop} (hi : ∀ s, M.init s → J s)
    (hP : ∀ s, J s → P s) (hs : ∀ s e s', J s → C s e → M.step s e = some s' → J s')
    (hC : ∀ s e s', J s → M.step s e = some s' → P s' → C s e)
    {h : List (σ × ε)} {s : σ} (hr : M.Run h s) :
    (P s ∧ ∀ p ∈ h, P p.1) ↔ ∀ p ∈ h, C p.1 p.2 := by
  constructor
  · intro hp
    suffices J s ∧ ∀ p ∈ h, C p.1 p.2 from this.2
    induction hr with
    | init h0 => exact ⟨hi _ h0, by simp⟩
    | step hr hst ih =>
      obtain ⟨hP', hh⟩ := hp
      obtain ⟨hJ, hc⟩ := ih (List.forall_mem_cons.1 hh)
      have hC' := hC _ _ _ hJ hst hP'
      exact ⟨hs _ _ _ hJ hC' hst, List.forall_mem_cons.2 ⟨hC', hc⟩⟩
  · intro hc
    obtain ⟨hJ, hh⟩ := hr.inv_of_steps hi hs hc
    exact ⟨hP _ hJ, fun p hp => hP _ (hh p hp)⟩

/-- **What steps do right.** `J` is kept by the steps that meet `C`, and while it holds these are the
steps of which `R` holds. -/
theorem Run.forall_steps_iff {J : σ → Prop} {R C : σ → ε → Prop} (hi : ∀ s, M.init s → J s)
    (hs : ∀ s e s', J s → C s e → M.step s e = some s' → J s')
    (hR : ∀ s e s', J s → M.step s e = some s' → (R s e ↔ C s e))
    {h : List (σ × ε)} {s : σ} (hr : M.Run h s) :
    (∀ p ∈ h, R p.1 p.2) ↔ ∀ p ∈ h, C p.1 p.2 := by
  induction hr with
  | init h0 => simp
  | step hr hst ih =>
    simp only [List.forall_mem_cons]
    constructor
    · rintro ⟨hlast, hh⟩
      have hC := ih.1 hh
      exact ⟨(hR _ _ _ (hr.inv_of_steps hi hs hC).1 hst).1 hlast, hC⟩
    · rintro ⟨hlast, hh⟩
      exact ⟨(hR _ _ _ (hr.inv_of_steps hi hs hh).1 hst).2 hlast, ih.2 hh⟩

/-! ## One step of a run -/

theorem Run.before {h h' : List (σ × ε)} {s s' : σ} {e : ε} (hr : M.Run (h' ++ (s, e) :: h) s') :
    M.Run h s := by
  induction h' generalizing s' with
  | nil =>
    cases hr with
    | step hr _ => exact hr
  | cons p h' ih =>
    cases hr with
    | step hr _ => exact ih hr

/-- The steps taken say which state was reached. -/
theorem Run.unique (hinit : ∀ s s', M.init s → M.init s' → s = s') {h : List (σ × ε)} {s s' : σ}
    (hr : M.Run h s) (hr' : M.Run h s') : s = s' := by
  cases hr with
  | init h0 =>
    cases hr' with
    | init h0' => exact hinit _ _ h0 h0'
  | step _ hs =>
    cases hr' with
    | step _ hs' => exact Option.some.inj (hs.symm.trans hs')

/-- A property of the state after a step, kept by the steps that meet `C`. -/
theorem Run.after {P : σ → Prop} {C : σ → ε → Prop}
    (hstep : ∀ s e s', P s → C s e → M.step s e = some s' → P s') {h h' : List (σ × ε)}
    {s s₁ s' : σ} {e : ε} (hr : M.Run (h' ++ (s, e) :: h) s') (hs : M.step s e = some s₁) (hP : P s₁)
    (hC : ∀ p ∈ h', C p.1 p.2) : P s' := by
  induction h' generalizing s' with
  | nil =>
    cases hr with
    | step _ hs' =>
      cases hs.symm.trans hs'
      exact hP
  | cons p h' ih =>
    cases hr with
    | step hr hs' => exact hstep _ _ _ (ih hr fun p hp => hC p (.tail _ hp)) (hC _ (.head _)) hs'

/-! ## Restricted machines -/

/-- The machine that cannot take the events outside `ok`. -/
def restrict (M : Machine σ ε) (ok : ε → Prop) [DecidablePred ok] : Machine σ ε where
  init := M.init
  step s e := if ok e then M.step s e else none

theorem restrict_step {ok : ε → Prop} [DecidablePred ok] {s s' : σ} {e : ε}
    (h : (M.restrict ok).step s e = some s') : ok e ∧ M.step s e = some s' := by
  by_cases he : ok e
  · exact ⟨he, (if_pos he).symm.trans h⟩
  · cases (if_neg he).symm.trans h

theorem Run.restrict {ok : ε → Prop} [DecidablePred ok] {h : List (σ × ε)} {s : σ}
    (hr : M.Run h s) (hok : ∀ p ∈ h, ok p.2) : (M.restrict ok).Run h s := by
  induction hr with
  | init h0 => exact .init h0
  | step _ hst ih =>
    obtain ⟨he, hh⟩ := List.forall_mem_cons.1 hok
    exact .step (ih hh) ((if_pos he).trans hst)

/-! ## Projections -/

/-- A projection of the states under which each step is a step of `N` or leaves the state as it
is. -/
structure Simulation {σ' ε' : Type} (M : Machine σ ε) (N : Machine σ' ε') (f : σ → σ')
    (g : σ → ε → Option ε') : Prop where
  init : ∀ s, M.init s → N.init (f s)
  step : ∀ s e s', M.step s e = some s' →
    match g s e with
    | some e' => N.step (f s) e' = some (f s')
    | none => f s' = f s

/-- The steps of `N` a history of `M` projects to. -/
def mapHist {σ' ε' : Type} (f : σ → σ') (g : σ → ε → Option ε') (h : List (σ × ε)) :
    List (σ' × ε') :=
  h.filterMap fun p => (g p.1 p.2).map fun e => (f p.1, e)

theorem forall_mapHist {σ' ε' : Type} {f : σ → σ'} {g : σ → ε → Option ε'} {C : σ' → ε' → Prop}
    {h : List (σ × ε)} (hC : ∀ p ∈ h, ∀ e, g p.1 p.2 = some e → C (f p.1) e) :
    ∀ p ∈ mapHist f g h, C p.1 p.2 := by
  intro p hp
  simp only [mapHist, List.mem_filterMap, Option.map_eq_some_iff] at hp
  obtain ⟨p₀, hp₀, e, he, rfl⟩ := hp
  exact hC p₀ hp₀ e he

theorem Run.map {σ' ε' : Type} {N : Machine σ' ε'} {f : σ → σ'} {g : σ → ε → Option ε'}
    (hsim : M.Simulation N f g) {h : List (σ × ε)} {s : σ} (hr : M.Run h s) :
    N.Run (mapHist f g h) (f s) := by
  induction hr with
  | init h0 => exact .init (hsim.init _ h0)
  | @step h s s' e hr hst ih =>
    have := hsim.step _ _ _ hst
    cases hg : g s e with
    | none =>
      rw [hg] at this
      simpa [mapHist, hg, this] using ih
    | some e' =>
      rw [hg] at this
      simpa [mapHist, hg] using Run.step ih this

/-! ## Executing a list of events -/

/-- The state after the events `es`, and the history extended by their steps. -/
def exec (M : Machine σ ε) : List ε → List (σ × ε) → σ → Option (List (σ × ε) × σ)
  | [], h, s => some (h, s)
  | e :: es, h, s => (M.step s e).bind (exec M es ((s, e) :: h))

theorem run_of_exec {es : List ε} {h h' : List (σ × ε)} {s s' : σ} (hr : M.Run h s)
    (he : M.exec es h s = some (h', s')) : M.Run h' s' := by
  induction es generalizing h s with
  | nil =>
    simp only [exec, Option.some.injEq, Prod.mk.injEq] at he
    obtain ⟨rfl, rfl⟩ := he
    exact hr
  | cons e es ih =>
    simp only [exec, Option.bind_eq_some_iff] at he
    obtain ⟨s₁, h1, h2⟩ := he
    exact ih (.step hr h1) h2

/-- Executing `es` finds a run whose history and end meet a condition that can be computed. -/
theorem exists_run_of_exec {s : σ} (hi : M.init s) (es : List ε)
    (p : List (σ × ε) → σ → Bool) (h : (M.exec es [] s).any (fun r => p r.1 r.2) = true) :
    ∃ h s', M.Run h s' ∧ p h s' = true := by
  cases he : M.exec es [] s with
  | none => rw [he] at h; cases h
  | some r =>
    rw [he] at h
    exact ⟨r.1, r.2, run_of_exec (.init hi) he, h⟩

/-! ## Progress -/

/-- From `s`, after any history, some events of the kind `ok` lead to a state with `Q`. -/
def Leads (M : Machine σ ε) (ok : ε → Prop) (Q : σ → Prop) (s : σ) : Prop :=
  ∀ h, ∃ es h' s', (∀ e ∈ es, ok e) ∧ M.exec es h s = some (h', s') ∧ Q s'

theorem Leads.here {ok : ε → Prop} {Q : σ → Prop} {s : σ} (h : Q s) : M.Leads ok Q s :=
  fun h₀ => ⟨[], h₀, s, nofun, rfl, h⟩

theorem Leads.step {ok : ε → Prop} {Q : σ → Prop} {s s' : σ} {e : ε} (he : ok e)
    (hs : M.step s e = some s') (h : M.Leads ok Q s') : M.Leads ok Q s := by
  intro h₀
  obtain ⟨es, h', s'', hes, hexec, hQ⟩ := h ((s, e) :: h₀)
  refine ⟨e :: es, h', s'', List.forall_mem_cons.2 ⟨he, hes⟩, ?_, hQ⟩
  rw [exec, hs]
  exact hexec

end Machine
