import Backip.BackIP.Beaconing

/-!
# A node keeps announcing itself

A root beacons for ever, and a node that has not heard a neighbour requests one for ever: in both
cases `BeaconTimer` runs. Every handler keeps that but `RootControl.unsetRoot`, which stops the
timer whether or not the node has a neighbour (`Beaconing.announcing_iff`).
-/

set_option autoImplicit false

namespace BackIP.Beaconing

variable {s s' : Beaconing}

/-- The timer runs while the node is root or has not heard a neighbour. -/
def Announcing (s : Beaconing) : Prop :=
  s.iAmRoot = true ∨ s.noNeighbours = true → s.isRunning = true

/-- A node without a neighbour stops being root. -/
def UnsetIsolated (s : Beaconing) : BEvent → Prop
  | .unsetRoot => s.noNeighbours = true
  | _ => False

theorem announcing_start {s₀ : Beaconing} (h : start s₀ .success .success true = (.success, s)) :
    s.Announcing := by
  intro _
  simp only [start, ne_eq, not_true_eq_false, if_false, Bool.not_true, Bool.false_eq_true,
    Prod.mk.injEq, true_and] at h
  subst h
  split
  · rfl
  · rename_i hr
    simpa using hr

theorem announcing_fired (s : Beaconing) : s.expire.fired.Announcing := by
  intro h
  unfold fired
  split
  · rfl
  · rename_i hroot
    split
    · rfl
    · rename_i hnb
      rw [fired, if_neg hroot, if_neg hnb] at h
      exact absurd h (not_or.2 ⟨hroot, hnb⟩)

theorem announcing_recvfrom (h : s.Announcing) (llAddr : Option LlAddr) (data : List UInt8) :
    (s.recvfrom llAddr data).Announcing := by
  cases llAddr with
  | none => exact h
  | some a =>
    intro hroot
    simp only [recvfrom] at hroot ⊢
    split
    · rfl
    · rename_i hreq
      rw [if_neg hreq] at hroot
      exact h (.inl (hroot.resolve_right Bool.false_ne_true))

theorem announcing_drastic (h : s.Announcing) : s.drasticBackpressureChange.Announcing := by
  unfold drasticBackpressureChange
  split
  · exact h
  · exact fun _ => rfl

/-- A node that stops being root announces itself if it has a neighbour, and only then. -/
theorem announcing_unsetRoot (s : Beaconing) :
    s.unsetRoot.Announcing ↔ ¬ s.noNeighbours = true := by
  have hstop : s.unsetRoot.isRunning = false := by
    simp only [unsetRoot]
    split
    · rfl
    · rename_i hr
      simpa using hr
  have hroot : s.unsetRoot.iAmRoot = false := by
    simp only [unsetRoot]
    split <;> rfl
  have hnb : s.unsetRoot.noNeighbours = s.noNeighbours := by
    simp only [unsetRoot]
    split <;> rfl
  rw [Announcing, hstop, hroot, hnb]
  simp

/-- The one step that a node may stop announcing itself at. -/
theorem announcing_step {e : BEvent} (h : s.Announcing) (hs : machine.step s e = some s') :
    s'.Announcing ↔ ¬ s.UnsetIsolated e := by
  cases e with
  | beaconTimerFired =>
    simp only [machine, step, Option.ite_none_right_eq_some, Option.some.injEq] at hs
    obtain ⟨_, rfl⟩ := hs
    exact iff_of_true s.announcing_fired id
  | recvfrom llAddr data =>
    cases hs
    exact iff_of_true (announcing_recvfrom h llAddr data) id
  | drasticBackpressureChange =>
    cases hs
    exact iff_of_true (announcing_drastic h) id
  | setRoot =>
    cases hs
    exact iff_of_true (fun _ => rfl) id
  | unsetRoot =>
    cases hs
    exact s.announcing_unsetRoot
  | updateEtx llAddr etx =>
    cases hs
    exact iff_of_true h id
  | updateLinkRate llAddr txTime =>
    cases hs
    exact iff_of_true h id

/-- **A node keeps announcing itself.** In a run after a successful start the timer runs in every
state in which the node is root or has not heard a neighbour, exactly if no `unsetRoot` of the run
finds the node without a neighbour. -/
theorem announcing_iff {h : List (Beaconing × BEvent)} (hr : machine.Run h s) :
    (s.Announcing ∧ ∀ p ∈ h, p.1.Announcing) ↔ ∀ p ∈ h, ¬ p.1.UnsetIsolated p.2 := by
  refine hr.forall_iff (I := fun _ => True) (P := Announcing) (C := fun s e => ¬ s.UnsetIsolated e)
    ⟨fun _ _ => trivial, fun _ _ _ _ _ => trivial⟩ ?_
    fun _ _ _ _ => announcing_step
  intro s0 h0
  obtain ⟨s₀, hstart⟩ := h0
  exact announcing_start hstart

instance (s : Beaconing) : (e : BEvent) → Decidable (s.UnsetIsolated e)
  | .unsetRoot => inferInstanceAs (Decidable (s.noNeighbours = true))
  | .beaconTimerFired | .recvfrom .. | .drasticBackpressureChange | .setRoot | .updateEtx ..
  | .updateLinkRate .. => instDecidableFalse

/-- A node that hears a neighbour before it stops being root. -/
theorem announcing_iff_heard : ∃ h s, machine.Run h s ∧ s.isRunning = false ∧ s.Announcing := by
  obtain ⟨h, s, hr, hp⟩ := Machine.exists_run_of_exec (M := machine) ⟨boot, rfl⟩
    [.setRoot, .recvfrom (some (.short 1)) (write4B 100 ++ write4B 0), .unsetRoot]
    (fun h s => s.isRunning = false ∧ ∀ p ∈ h, ¬ p.1.UnsetIsolated p.2) (by decide)
  obtain ⟨hrun, hno⟩ := of_decide_eq_true hp
  exact ⟨h, s, hr, hrun, ((announcing_iff hr).2 hno).1⟩

/-- A root that has heard nobody stops being root, and beacons no more. -/
theorem announcing_false : ¬ ∀ s, machine.Reachable s → s.Announcing := by
  intro hall
  obtain ⟨h, s, hr, hp⟩ := Machine.exists_run_of_exec (M := machine) ⟨boot, rfl⟩
    [.setRoot, .unsetRoot]
    (fun _ s => s.noNeighbours = true ∧ s.isRunning = false) (by decide)
  obtain ⟨hnb, hrun⟩ := of_decide_eq_true hp
  rw [hall s ⟨h, hr⟩ (.inr hnb)] at hrun
  cases hrun

end BackIP.Beaconing
