import Backip.System.Proof.Arbiter
import Mathlib

/-!
# The power manager (`tos/lib/power/PowerManagerP.nc`)

The power manager is the default owner of the resource of a device (`ArbiterP`): a request that finds
the device free makes it start the device and release the resource when the device has started; a
client that gives the resource back with nobody waiting makes it stop the device.

An event is a step that nothing of the model can interrupt. Requests, releases and the signal of
`requested` behind a request come at any time, also within the tasks; a task starts only when no other
one is under way. The device answers `start` and `stop` later, or at once within the call.

* `device_started`: whoever has the resource, the device has started and has not been told to stop.
* `served_iff`: a request that waits for the device is served, unless a signal of `requested` came in
  `stopDone` between the test of `requested` and its reset: then it never is.
* `Run.arbiter`: its runs are runs of the arbiter.
-/

set_option autoImplicit false

namespace PowerManagerP

open ArbiterP (defaultOwner)

/-- The device as `SplitControl` shows it. -/
inductive Device
  | stopped
  | starting
  | started
  | stopping
deriving DecidableEq, Repr

/-- `SplitControl.start`, which does nothing to a device that is not stopped. -/
def Device.start : Device → Device
  | .stopped => .starting
  | d => d

/-- `SplitControl.stop`. -/
def Device.stop : Device → Device
  | .started => .stopping
  | d => d

structure Manager where
  stopping : Bool
  requested : Bool
  /-- `startTask` is posted. -/
  startPosted : Bool
  /-- `stopTask` is posted. -/
  stopPosted : Bool
  device : Device
  /-- The signals of `requested` that `Resource.request` is about to make. -/
  asking : Nat
  /-- `startDone` found itself the owner and is about to release. -/
  handing : Bool
  /-- `stopDone` has tested `requested` and is about to reset the flags. -/
  tested : Bool
deriving DecidableEq, Repr

structure State where
  arbiter : ArbiterP.State
  manager : Manager

def boot : Manager where
  stopping := false
  requested := false
  startPosted := false
  stopPosted := false
  device := .stopped
  asking := 0
  handing := false
  tested := false

/-- `ResourceDefaultOwner.isOwner` of the arbiter. -/
def isOwner (n : Nat) (a : ArbiterP.Arbiter) : Bool :=
  a.state = .controlled ||
    (a.resId = defaultOwner n && (a.state = .granting || a.state = .immGranting))

/-! ## The power manager -/

namespace Manager

variable (m : Manager)

/-- A request finds the resource free. -/
def asked : Manager := { m with asking := m.asking + 1 }

/-- `ResourceDefaultOwner.requested`. -/
def signalRequested : Manager :=
  if m.stopping = false then { m with asking := m.asking - 1, startPosted := true }
  else { m with asking := m.asking - 1, requested := true }

/-- `ResourceDefaultOwner.granted`. -/
def granted : Manager := { m with stopping := true, stopPosted := true }

/-- `startTask`. -/
def startTask : Manager := { m with startPosted := false, device := m.device.start }

/-- `SplitControl.startDone`, up to the test. -/
def startDone (owner : Bool) : Manager := { m with device := .started, handing := owner }

/-- `SplitControl.startDone`, the release. -/
def handOver : Manager := { m with handing := false }

/-- `stopTask`. -/
def stopTask : Manager := { m with stopPosted := false, device := m.device.stop }

/-- `SplitControl.stopDone`, up to the reset of the flags. -/
def stopDone : Manager :=
  { m with device := if m.requested = true then Device.start .stopped else .stopped, tested := true }

/-- `SplitControl.stopDone`, the reset of the flags. -/
def reset : Manager := { m with requested := false, stopping := false, tested := false }

end Manager

/-! ## Runs -/

inductive Event
  | request (id : UInt8)
  | requested
  | release (id : UInt8)
  | grantedTask
  | granted
  | startTask
  | startDone
  | handOver
  | stopTask
  | stopDone
  | reset
deriving DecidableEq, Repr

/-- No task is under way. -/
def idle (s : State) : Bool := !s.manager.tested && !s.manager.handing && !s.arbiter.impl.signalling

variable (n : Nat)

/-- `Resource.request`; it will signal `requested` if the resource is free. -/
def request (s : State) (id : UInt8) : Option State :=
  (ArbiterP.step n s.arbiter (.request id)).map fun arbiter =>
    ⟨arbiter, if s.arbiter.impl.state = .controlled then s.manager.asked else s.manager⟩

/-- `Resource.release`; it signals `ResourceDefaultOwner.granted` within its section if nobody
waits. -/
def release (s : State) (id : UInt8) : Option State :=
  (ArbiterP.step n s.arbiter (.release id)).map fun arbiter =>
    ⟨arbiter, if s.arbiter.impl.state = .busy ∧ arbiter.impl.state = .controlled then
      s.manager.granted else s.manager⟩

def step (s : State) : Event → Option State
  | .request id => request n s id
  | .requested => if 0 < s.manager.asking then some ⟨s.arbiter, s.manager.signalRequested⟩ else none
  | .release id => release n s id
  | .grantedTask =>
    if idle s = true then
      (ArbiterP.step n s.arbiter .grantedTask).map fun arbiter => ⟨arbiter, s.manager⟩
    else none
  | .granted => (ArbiterP.step n s.arbiter .granted).map fun arbiter => ⟨arbiter, s.manager⟩
  | .startTask =>
    if s.manager.startPosted = true ∧ idle s = true then some ⟨s.arbiter, s.manager.startTask⟩
    else none
  | .startDone =>
    if s.manager.device = .starting then
      some ⟨s.arbiter, s.manager.startDone (isOwner n s.arbiter.impl)⟩
    else none
  | .handOver =>
    if s.manager.handing = true then
      (ArbiterP.step n s.arbiter .defaultRelease).map fun arbiter => ⟨arbiter, s.manager.handOver⟩
    else none
  | .stopTask =>
    if s.manager.stopPosted = true ∧ idle s = true then some ⟨s.arbiter, s.manager.stopTask⟩
    else none
  | .stopDone =>
    if s.manager.device = .stopping ∧ idle s = true then some ⟨s.arbiter, s.manager.stopDone⟩
    else none
  | .reset => if s.manager.tested = true then some ⟨s.arbiter, s.manager.reset⟩ else none

/-- `n` clients, which make no immediate requests. -/
def machine : Machine State Event where
  init s := s = ⟨⟨ArbiterP.init n, []⟩, boot⟩
  step := step n

/-- What the arbiter sees of an event. -/
def Event.seen : Event → Option ArbiterP.Event
  | .request id => some (.request id)
  | .release id => some (.release id)
  | .grantedTask => some .grantedTask
  | .granted => some .granted
  | .handOver => some .defaultRelease
  | .requested | .startTask | .startDone | .stopTask | .stopDone | .reset => none

/-- The runs are runs of the arbiter. -/
theorem simulation :
    (machine n).Simulation (ArbiterP.machine n) State.arbiter fun _ e => e.seen where
  init s h := congrArg State.arbiter h
  step s e s' hs := by
    change step n s e = some s' at hs
    cases e with
    | request id | release id | granted =>
      simp only [step, request, release, Option.map_eq_some_iff] at hs
      obtain ⟨arbiter, harb, rfl⟩ := hs
      exact harb
    | grantedTask | handOver =>
      simp only [step, Option.ite_none_right_eq_some] at hs
      obtain ⟨arbiter, harb, rfl⟩ := Option.map_eq_some_iff.1 hs.2
      exact harb
    | requested | startTask | startDone | stopTask | stopDone | reset =>
      simp only [step, Option.ite_none_right_eq_some, Option.some.injEq] at hs
      obtain ⟨_, rfl⟩ := hs
      rfl

/-! ## Phases -/

/-- How far the device is on its way down. -/
inductive Cycle
  | stopped
  | posted
  | stopping
  | tested
deriving DecidableEq, Repr

/-- What became of the request that found the resource free. -/
inductive Demand
  | none
  | asking
  | noted
deriving DecidableEq, Repr

/-- Where the power manager is. `coming`, `handing` and `granted` may be within `stopDone`. -/
inductive Phase
  | down (c : Cycle) (d : Demand)
  | startPosted
  | coming (tested : Bool)
  | handing (tested : Bool)
  | granted (tested : Bool)
  | busy
  | lost
deriving DecidableEq, Repr

def Cycle.device : Cycle → Device
  | .stopped | .tested => .stopped
  | .posted => .started
  | .stopping => .stopping

namespace Phase

/-- The power manager of a phase. -/
def manager : Phase → Manager
  | .down c d =>
    ⟨c ≠ .stopped, d = .noted, false, c = .posted, c.device, if d = .asking then 1 else 0, false,
      c = .tested⟩
  | .startPosted => { boot with startPosted := true }
  | .coming t => { boot with stopping := t, requested := t, tested := t, device := .starting }
  | .handing t =>
    { boot with stopping := t, requested := t, tested := t, device := .started, handing := true }
  | .granted t => { boot with stopping := t, requested := t, tested := t, device := .started }
  | .busy => { boot with device := .started }
  | .lost => boot

/-- What the arbiter is in a phase. -/
def Holds (n : Nat) (a : ArbiterP.Arbiter) : Phase → Prop
  | .down _ .none => a.state = .controlled ∧ a.posted = false ∧ a.resId = defaultOwner n
  | .down _ _ | .startPosted | .coming _ | .handing _ | .lost =>
    a.state = .granting ∧ a.posted = false ∧ a.resId = defaultOwner n
  | .granted _ => a.state = .granting ∧ a.posted = true
  | .busy => a.state = .busy ∧ a.posted = false

/-- `ResourceDefaultOwner.requested`. -/
def requested : Phase → Phase
  | .down .stopped .asking => .startPosted
  | .down c .asking => .down c .noted
  | p => p

/-- `stopDone`: the request that was noted starts the device again. -/
def stopDone : Phase → Phase
  | .down .stopping .noted => .coming true
  | .down .stopping d => .down .tested d
  | p => p

/-- The reset forgets a request that was noted too late. -/
def reset : Phase → Phase
  | .down .tested .noted => .lost
  | .down .tested d => .down .stopped d
  | .coming _ => .coming false
  | .handing _ => .handing false
  | .granted _ => .granted false
  | p => p

/-- The request was noted too late. -/
def Stranded (p : Phase) : Prop := p = .down .tested .noted ∨ p = .lost

instance (p : Phase) : Decidable p.Stranded := inferInstanceAs (Decidable (_ ∨ _))

end Phase

/-- The state is in a phase. A request is not noted once the device is down for good. -/
structure At (s : State) (p : Phase) : Prop where
  manager : s.manager = p.manager
  arbiter : p.Holds n s.arbiter.impl
  valid : p ≠ .down .stopped .noted

section Steps

variable {n} {s s' : State} {p : Phase} {id : UInt8}

theorem Phase.Holds.congr {a b : ArbiterP.Arbiter} (h : p.Holds n a) (hstate : b.state = a.state)
    (hposted : b.posted = a.posted) (hresId : b.resId = a.resId) : p.Holds n b := by
  cases p with
  | down c d => cases d <;> simpa only [Phase.Holds, hstate, hposted, hresId] using h
  | _ => simpa only [Phase.Holds, hstate, hposted, hresId] using h

theorem Phase.Holds.free {a : ArbiterP.Arbiter} (h : p.Holds n a) (hfree : a.state = .controlled) :
    ∃ c, p = .down c .none := by
  cases p with
  | down c d =>
    cases d with
    | none => exact ⟨c, rfl⟩
    | asking | noted => cases hfree.symm.trans h.1
  | startPosted | coming _ | handing _ | granted _ | busy | lost => cases hfree.symm.trans h.1

theorem Phase.Holds.of_busy {a : ArbiterP.Arbiter} (h : p.Holds n a) (hbusy : a.state = .busy) :
    p = .busy := by
  cases p with
  | busy => rfl
  | down c d => cases d <;> cases hbusy.symm.trans h.1
  | startPosted | coming _ | handing _ | granted _ | lost => cases hbusy.symm.trans h.1

theorem Phase.Holds.of_posted {a : ArbiterP.Arbiter} (h : p.Holds n a) (hposted : a.posted = true) :
    ∃ t, p = .granted t := by
  cases p with
  | granted t => exact ⟨t, rfl⟩
  | down c d => cases d <;> cases hposted.symm.trans h.2.1
  | startPosted | coming _ | handing _ | lost => cases hposted.symm.trans h.2.1
  | busy => cases hposted.symm.trans h.2

theorem at_init : At n ⟨⟨ArbiterP.init n, []⟩, boot⟩ (.down .stopped .none) :=
  ⟨rfl, ⟨rfl, rfl, rfl⟩, by decide⟩

/-- A request that finds the resource taken is queued. -/
theorem request_taken (id : UInt8) {a : ArbiterP.Arbiter} (h : a.state ≠ .controlled) :
    (ArbiterP.request a id).2.state = a.state ∧ (ArbiterP.request a id).2.posted = a.posted ∧
      (ArbiterP.request a id).2.resId = a.resId := by
  rw [ArbiterP.request, if_neg h]
  split <;> exact ⟨rfl, rfl, rfl⟩

theorem At.request (h : At n s p) (hs : request n s id = some s') :
    ∃ p', At n s' p' ∧ (p'.Stranded ↔ p.Stranded) := by
  simp only [PowerManagerP.request, ArbiterP.step, Option.map_eq_some_iff,
    Option.ite_none_right_eq_some, Option.some.injEq] at hs
  obtain ⟨arbiter, ⟨_, rfl⟩, rfl⟩ := hs
  by_cases hfree : s.arbiter.impl.state = .controlled
  · obtain ⟨c, rfl⟩ := h.arbiter.free hfree
    refine ⟨.down c .asking, ⟨?_, ?_, by simp⟩, by cases c <;> decide⟩
    · rw [if_pos hfree, h.manager]
      cases c <;> rfl
    · dsimp only
      rw [ArbiterP.request, if_pos hfree]
      exact ⟨rfl, h.arbiter.2.1, h.arbiter.2.2⟩
  · obtain ⟨hstate, hposted, hresId⟩ := request_taken id hfree
    refine ⟨p, ⟨?_, h.arbiter.congr hstate hposted hresId, h.valid⟩, Iff.rfl⟩
    rw [if_neg hfree]
    exact h.manager

/-- The request is noted too late exactly within `stopDone`. -/
theorem At.requested (h : At n s p) (hask : 0 < s.manager.asking) :
    At n ⟨s.arbiter, s.manager.signalRequested⟩ p.requested ∧
      (p.requested.Stranded ↔ s.manager.tested = true) := by
  have hm := h.manager
  rw [hm] at hask ⊢
  cases p with
  | down c d =>
    cases d with
    | asking =>
      cases c with
      | stopped | posted | stopping | tested => exact ⟨⟨rfl, h.arbiter, by decide⟩, by decide⟩
    | none | noted => cases hask
  | startPosted | coming _ | handing _ | granted _ | busy | lost => cases hask

theorem At.release (h : At n s p) (hs : release n s id = some s') :
    ∃ p', At n s' p' ∧ (p'.Stranded ↔ p.Stranded) := by
  simp only [PowerManagerP.release, ArbiterP.step, Option.map_some, Option.some.injEq] at hs
  subst hs
  by_cases howner : s.arbiter.impl.state = .busy ∧ s.arbiter.impl.resId = id
  · obtain rfl := h.arbiter.of_busy howner.1
    by_cases hqueue : ArbiterP.isEmpty s.arbiter.impl.queue = false
    · refine ⟨.granted false, ⟨?_, ?_, by decide⟩, by decide⟩
      · rw [ArbiterP.release, if_pos howner, if_pos hqueue, if_neg (by simp)]
        exact h.manager
      · dsimp only
        rw [ArbiterP.release, if_pos howner, if_pos hqueue]
        exact ⟨rfl, rfl⟩
    · refine ⟨.down .posted .none, ⟨?_, ?_, by decide⟩, by decide⟩
      · rw [ArbiterP.release, if_pos howner, if_neg hqueue, if_pos ⟨howner.1, rfl⟩, h.manager]
        rfl
      · dsimp only
        rw [ArbiterP.release, if_pos howner, if_neg hqueue]
        exact ⟨rfl, h.arbiter.2, rfl⟩
  · refine ⟨p, ⟨?_, ?_, h.valid⟩, Iff.rfl⟩
    · rw [ArbiterP.release, if_neg howner, if_neg]
      · exact h.manager
      · rintro ⟨hbusy, hfree⟩
        cases hbusy.symm.trans hfree
    · dsimp only
      rw [ArbiterP.release, if_neg howner]
      exact h.arbiter

theorem At.grantedTask (h : At n s p) (hposted : s.arbiter.impl.posted = true)
    (hidle : idle s = true) :
    p = .granted false ∧ At n ⟨⟨ArbiterP.grantedTask s.arbiter.impl, s.arbiter.waiting⟩, s.manager⟩
      .busy := by
  obtain ⟨t, rfl⟩ := h.arbiter.of_posted hposted
  have hm := h.manager
  cases t with
  | true =>
    rw [idle, hm] at hidle
    cases hidle
  | false => exact ⟨rfl, hm, ⟨rfl, rfl⟩, by decide⟩

theorem At.startTask (h : At n s p) (hposted : s.manager.startPosted = true) :
    p = .startPosted ∧ At n ⟨s.arbiter, s.manager.startTask⟩ (.coming false) := by
  have hm := h.manager
  rw [hm] at hposted ⊢
  cases p with
  | startPosted => exact ⟨rfl, rfl, h.arbiter, by decide⟩
  | down _ _ | coming _ | handing _ | granted _ | busy | lost => cases hposted

/-- Only a device that is asked to start starts, and then the power manager owns the resource. -/
theorem At.startDone (h : At n s p) (hdevice : s.manager.device = .starting) :
    ∃ t, p = .coming t ∧
      At n ⟨s.arbiter, s.manager.startDone (isOwner n s.arbiter.impl)⟩ (.handing t) := by
  have hm := h.manager
  rw [hm] at hdevice
  cases p with
  | coming t =>
    have howner : isOwner n s.arbiter.impl = true := by
      rw [isOwner, h.arbiter.1, h.arbiter.2.2]
      simp
    rw [howner, hm]
    exact ⟨t, rfl, rfl, h.arbiter, by simp⟩
  | down c d => cases c <;> cases hdevice
  | startPosted | handing _ | granted _ | busy | lost => cases hdevice

theorem At.handOver (h : At n s p) (hhanding : s.manager.handing = true) :
    ∃ t, p = .handing t ∧
      At n ⟨⟨(ArbiterP.defaultRelease n s.arbiter.impl).2, s.arbiter.waiting⟩, s.manager.handOver⟩
        (.granted t) := by
  have hm := h.manager
  rw [hm] at hhanding ⊢
  cases p with
  | handing t =>
    refine ⟨t, rfl, rfl, ?_, by simp⟩
    dsimp only
    rw [ArbiterP.defaultRelease, if_pos h.arbiter.2.2, if_pos h.arbiter.1]
    exact ⟨h.arbiter.1, rfl⟩
  | down _ _ | startPosted | coming _ | granted _ | busy | lost => cases hhanding

theorem At.stopTask (h : At n s p) (hposted : s.manager.stopPosted = true) :
    ∃ d, p = .down .posted d ∧ At n ⟨s.arbiter, s.manager.stopTask⟩ (.down .stopping d) := by
  have hm := h.manager
  rw [hm] at hposted ⊢
  cases p with
  | down c d =>
    have hc : c = .posted := of_decide_eq_true hposted
    subst hc
    exact ⟨d, rfl, by cases d <;> rfl, by cases d <;> exact h.arbiter, by simp⟩
  | startPosted | coming _ | handing _ | granted _ | busy | lost => cases hposted

theorem At.stopDone (h : At n s p) (hdevice : s.manager.device = .stopping) :
    At n ⟨s.arbiter, s.manager.stopDone⟩ p.stopDone ∧ ¬ p.stopDone.Stranded ∧ ¬ p.Stranded := by
  have hm := h.manager
  rw [hm] at hdevice ⊢
  cases p with
  | down c d =>
    cases c with
    | stopping =>
      cases d with
      | none | asking | noted => exact ⟨⟨rfl, h.arbiter, by decide⟩, by decide, by decide⟩
    | stopped | posted | tested => cases hdevice
  | startPosted | coming _ | handing _ | granted _ | busy | lost => cases hdevice

theorem At.reset (h : At n s p) (htested : s.manager.tested = true) :
    At n ⟨s.arbiter, s.manager.reset⟩ p.reset ∧ (p.reset.Stranded ↔ p.Stranded) := by
  have hm := h.manager
  rw [hm] at htested ⊢
  cases p with
  | down c d =>
    have hc : c = .tested := of_decide_eq_true htested
    subst hc
    cases d with
    | none | asking | noted => exact ⟨⟨rfl, h.arbiter, by decide⟩, by decide⟩
  | coming t | handing t | granted t =>
    exact ⟨⟨rfl, h.arbiter, by simp [Phase.reset]⟩, by cases t <;> decide⟩
  | startPosted | busy | lost => cases htested

/-- A signal of `requested` that comes too late to be noted. -/
def TooLate (s : State) (e : Event) : Prop := e = .requested ∧ s.manager.tested = true

/-- Every step leads from a phase to a phase, and strands a request exactly if the signal comes too
late. -/
theorem At.step {e : Event} (h : At n s p) (hs : step n s e = some s') :
    ∃ p', At n s' p' ∧ (p'.Stranded ↔ p.Stranded ∨ TooLate s e) := by
  have hother (hne : e ≠ .requested) {p' : Phase} (hiff : p'.Stranded ↔ p.Stranded) :
      p'.Stranded ↔ p.Stranded ∨ TooLate s e := by
    rw [hiff, or_iff_left]
    exact fun hlate => hne hlate.1
  cases e with
  | request id =>
    obtain ⟨p', hat, hiff⟩ := h.request hs
    exact ⟨p', hat, hother (by simp) hiff⟩
  | requested =>
    simp only [PowerManagerP.step, Option.ite_none_right_eq_some, Option.some.injEq] at hs
    obtain ⟨hask, rfl⟩ := hs
    obtain ⟨hat, hiff⟩ := h.requested hask
    refine ⟨_, hat, ?_⟩
    have hfree : ¬ p.Stranded := by
      rw [h.manager] at hask
      rintro (rfl | rfl) <;> cases hask
    rw [hiff, or_iff_right hfree]
    exact ⟨fun htested => ⟨rfl, htested⟩, fun hlate => hlate.2⟩
  | release id =>
    obtain ⟨p', hat, hiff⟩ := h.release hs
    exact ⟨p', hat, hother (by simp) hiff⟩
  | grantedTask =>
    simp only [PowerManagerP.step, ArbiterP.step, Option.ite_none_right_eq_some,
      Option.map_eq_some_iff, Option.some.injEq] at hs
    obtain ⟨hidle, arbiter, ⟨hposted, rfl⟩, rfl⟩ := hs
    obtain ⟨rfl, hat⟩ := h.grantedTask hposted.1 hidle
    exact ⟨.busy, hat, hother (by simp) (by decide)⟩
  | granted =>
    simp only [PowerManagerP.step, ArbiterP.step, Option.ite_none_right_eq_some,
      Option.map_eq_some_iff, Option.some.injEq] at hs
    obtain ⟨arbiter, ⟨_, rfl⟩, rfl⟩ := hs
    exact ⟨p, ⟨h.manager, h.arbiter.congr rfl rfl rfl, h.valid⟩, hother (by simp) Iff.rfl⟩
  | startTask =>
    simp only [PowerManagerP.step, Option.ite_none_right_eq_some, Option.some.injEq] at hs
    obtain ⟨⟨hposted, _⟩, rfl⟩ := hs
    obtain ⟨rfl, hat⟩ := h.startTask hposted
    exact ⟨.coming false, hat, hother (by simp) (by decide)⟩
  | startDone =>
    simp only [PowerManagerP.step, Option.ite_none_right_eq_some, Option.some.injEq] at hs
    obtain ⟨hdevice, rfl⟩ := hs
    obtain ⟨t, rfl, hat⟩ := h.startDone hdevice
    exact ⟨.handing t, hat, hother (by simp) (by cases t <;> decide)⟩
  | handOver =>
    simp only [PowerManagerP.step, ArbiterP.step, Option.ite_none_right_eq_some, Option.map_some,
      Option.some.injEq] at hs
    obtain ⟨hhanding, rfl⟩ := hs
    obtain ⟨t, rfl, hat⟩ := h.handOver hhanding
    exact ⟨.granted t, hat, hother (by simp) (by cases t <;> decide)⟩
  | stopTask =>
    simp only [PowerManagerP.step, Option.ite_none_right_eq_some, Option.some.injEq] at hs
    obtain ⟨⟨hposted, _⟩, rfl⟩ := hs
    obtain ⟨d, rfl, hat⟩ := h.stopTask hposted
    exact ⟨.down .stopping d, hat, hother (by simp) (by cases d <;> decide)⟩
  | stopDone =>
    simp only [PowerManagerP.step, Option.ite_none_right_eq_some, Option.some.injEq] at hs
    obtain ⟨⟨hdevice, _⟩, rfl⟩ := hs
    obtain ⟨hat, hfree', hfree⟩ := h.stopDone hdevice
    exact ⟨_, hat, hother (by simp) (iff_of_false hfree' hfree)⟩
  | reset =>
    simp only [PowerManagerP.step, Option.ite_none_right_eq_some, Option.some.injEq] at hs
    obtain ⟨htested, rfl⟩ := hs
    obtain ⟨hat, hiff⟩ := h.reset htested
    exact ⟨_, hat, hother (by simp) hiff⟩

/-- Every run is in a phase, and a request is stranded exactly if some signal came too late. -/
theorem run_at {h : List (State × Event)} (hr : (machine n).Run h s) :
    ∃ p, At n s p ∧ (p.Stranded ↔ ∃ q ∈ h, TooLate q.1 q.2) := by
  induction hr with
  | init hi =>
    obtain rfl := hi
    exact ⟨_, at_init, iff_of_false (by decide) (by simp)⟩
  | step _ hs ih =>
    obtain ⟨p, hat, hiff⟩ := ih
    obtain ⟨p', hat', hiff'⟩ := hat.step hs
    refine ⟨p', hat', ?_⟩
    rw [hiff', hiff, List.exists_mem_cons_iff, or_comm]

/-! ## Power -/

/-- **Whoever has the resource has a device that has started.** And a device that has started while
nobody has the resource is about to be stopped. -/
theorem device_started {h : List (State × Event)} (hr : (machine n).Run h s) :
    (s.arbiter.impl.state = .busy ∨ s.arbiter.impl.posted = true →
      s.manager.device = .started ∧ s.manager.stopPosted = false) ∧
    (s.arbiter.impl.state = .controlled → s.manager.device = .started →
      s.manager.stopPosted = true) := by
  obtain ⟨p, hat, _⟩ := run_at hr
  rw [hat.manager]
  refine ⟨fun hheld => ?_, fun hfree => ?_⟩
  · rcases hheld with hbusy | hposted
    · obtain rfl := hat.arbiter.of_busy hbusy
      exact ⟨rfl, rfl⟩
    · obtain ⟨t, rfl⟩ := hat.arbiter.of_posted hposted
      exact ⟨rfl, rfl⟩
  · obtain ⟨c, rfl⟩ := hat.arbiter.free hfree
    cases c <;> decide

/-- From the request of the only client to its turn. -/
def firstUse : List Event := [.request 0, .requested, .startTask, .startDone, .handOver, .grantedTask]

theorem device_started_first : ∃ h s, (machine 1).Run h s ∧ s.arbiter.impl.state = .busy ∧
    s.manager.device = .started := by
  obtain ⟨h, s, hr, hbusy⟩ := Machine.exists_run_of_exec (M := machine 1) rfl firstUse
    (fun _ s => decide (s.arbiter.impl.state = .busy)) rfl
  have hbusy' := of_decide_eq_true hbusy
  exact ⟨h, s, hr, hbusy', ((device_started hr).1 (.inl hbusy')).1⟩

/-! ## Requests are served -/

/-- Neither a request nor a release of a client. -/
def Event.serves : Event → Bool
  | .request _ | .release _ => false
  | _ => true

/-- The power manager, the device and the arbiter lead to a state in which a client has the
resource. -/
abbrev Served (n : Nat) (s : State) : Prop :=
  (machine n).Leads (fun e => e.serves = true) (fun s => s.arbiter.impl.state = .busy) s

/-- The signal that is under way comes first. -/
theorem At.served_of_quiet
    (hquiet : ∀ s, At n s p → s.arbiter.impl.signalling = false → Served n s) (h : At n s p) :
    Served n s := by
  by_cases hsig : s.arbiter.impl.signalling = true
  · refine .step (e := .granted) rfl ?_ (hquiet ⟨⟨{ s.arbiter.impl with signalling := false },
      s.arbiter.waiting.erase s.arbiter.impl.resId⟩, s.manager⟩
      ⟨h.manager, h.arbiter.congr rfl rfl rfl, h.valid⟩ rfl)
    change Option.map _ (ite _ _ _) = _
    rw [if_pos hsig]
    rfl
  · exact hquiet s h (Bool.eq_false_iff.2 hsig)

theorem At.idle (h : At n s p) (hquiet : s.arbiter.impl.signalling = false)
    (htested : p.manager.tested = false) (hhanding : p.manager.handing = false) :
    PowerManagerP.idle s = true := by
  rw [PowerManagerP.idle, h.manager, hquiet, htested, hhanding]
  rfl

theorem At.served_granted (h : At n s (.granted false)) : Served n s := by
  refine h.served_of_quiet fun s h hquiet => ?_
  have hstep : (machine n).step s .grantedTask =
      some ⟨⟨ArbiterP.grantedTask s.arbiter.impl, s.arbiter.waiting⟩, s.manager⟩ := by
    change ite _ (Option.map _ (ite _ _ _)) _ = _
    rw [if_pos (h.idle hquiet rfl rfl), if_pos ⟨h.arbiter.2, hquiet⟩]
    rfl
  exact .step rfl hstep (.here rfl)

/-- The flags are reset first. -/
theorem At.served_reset (h : At n s p) (htested : p.manager.tested = true)
    (hnext : ∀ {s}, At n s p.reset → Served n s) : Served n s := by
  have htested' : s.manager.tested = true := h.manager ▸ htested
  have hstep : (machine n).step s .reset = some ⟨s.arbiter, s.manager.reset⟩ := if_pos htested'
  exact .step rfl hstep (hnext (h.reset htested').1)

theorem At.served_handing {t : Bool} (h : At n s (.handing t)) : Served n s := by
  have hhanding : s.manager.handing = true := h.manager ▸ rfl
  have hstep : (machine n).step s .handOver =
      some ⟨⟨(ArbiterP.defaultRelease n s.arbiter.impl).2, s.arbiter.waiting⟩,
        s.manager.handOver⟩ := by
    change ite _ _ _ = _
    rw [if_pos hhanding]
    rfl
  obtain ⟨t', ht, hat⟩ := h.handOver hhanding
  cases ht
  refine .step rfl hstep ?_
  cases t with
  | true => exact hat.served_reset rfl At.served_granted
  | false => exact hat.served_granted

theorem At.served_coming {t : Bool} (h : At n s (.coming t)) : Served n s := by
  have hdevice : s.manager.device = .starting := h.manager ▸ rfl
  have hstep : (machine n).step s .startDone =
      some ⟨s.arbiter, s.manager.startDone (isOwner n s.arbiter.impl)⟩ := if_pos hdevice
  obtain ⟨t', ht, hat⟩ := h.startDone hdevice
  cases ht
  exact .step rfl hstep hat.served_handing

theorem At.served_startPosted (h : At n s .startPosted) : Served n s := by
  refine h.served_of_quiet fun s h hquiet => ?_
  have hposted : s.manager.startPosted = true := h.manager ▸ rfl
  have hstep : (machine n).step s .startTask = some ⟨s.arbiter, s.manager.startTask⟩ :=
    if_pos ⟨hposted, h.idle hquiet rfl rfl⟩
  exact .step rfl hstep (h.startTask hposted).2.served_coming

/-- A request that was noted starts the device when it has stopped. -/
theorem At.served_stopping (h : At n s (.down .stopping .noted)) : Served n s := by
  refine h.served_of_quiet fun s h hquiet => ?_
  have hdevice : s.manager.device = .stopping := h.manager ▸ rfl
  have hstep : (machine n).step s .stopDone = some ⟨s.arbiter, s.manager.stopDone⟩ :=
    if_pos ⟨hdevice, h.idle hquiet rfl rfl⟩
  exact .step rfl hstep (h.stopDone hdevice).1.served_coming

theorem At.served_posted (h : At n s (.down .posted .noted)) : Served n s := by
  refine h.served_of_quiet fun s h hquiet => ?_
  have hposted : s.manager.stopPosted = true := h.manager ▸ rfl
  have hstep : (machine n).step s .stopTask = some ⟨s.arbiter, s.manager.stopTask⟩ :=
    if_pos ⟨hposted, h.idle hquiet rfl rfl⟩
  obtain ⟨d, hd, hat⟩ := h.stopTask hposted
  cases hd
  exact .step rfl hstep hat.served_stopping

/-- The signal comes before the device goes on stopping. -/
theorem At.served_asking {c : Cycle} (h : At n s (.down c .asking))
    (hnext : ∀ {s}, At n s (Phase.requested (.down c .asking)) → Served n s) : Served n s := by
  have hask : 0 < s.manager.asking := h.manager ▸ Nat.one_pos
  have hstep : (machine n).step s .requested = some ⟨s.arbiter, s.manager.signalRequested⟩ :=
    if_pos hask
  exact .step rfl hstep (hnext (h.requested hask).1)

/-- From every phase with a pending request that is not stranded. -/
theorem At.served (h : At n s p) (hpend : s.arbiter.impl.state = .granting)
    (hfree : ¬ p.Stranded) : Served n s := by
  cases p with
  | down c d =>
    cases d with
    | none => cases hpend.symm.trans h.arbiter.1
    | asking =>
      cases c with
      | stopped => exact h.served_asking At.served_startPosted
      | posted => exact h.served_asking At.served_posted
      | stopping => exact h.served_asking At.served_stopping
      -- the signal would come too late now
      | tested =>
        exact h.served_reset rfl fun h => h.served_asking At.served_startPosted
    | noted =>
      cases c with
      | stopped => exact absurd rfl h.valid
      | posted => exact h.served_posted
      | stopping => exact h.served_stopping
      | tested => exact absurd (.inl rfl) hfree
  | startPosted => exact h.served_startPosted
  | coming t => exact h.served_coming
  | handing t => exact h.served_handing
  | granted t =>
    cases t with
    | true => exact h.served_reset rfl At.served_granted
    | false => exact h.served_granted
  | busy => cases hpend.symm.trans h.arbiter.1
  | lost => exact absurd (.inr rfl) hfree

/-- A stranded request stays stranded, whatever happens. -/
theorem At.stranded_exec (h : At n s p) (hstranded : p.Stranded) {es : List Event}
    {l l' : List (State × Event)} (hexec : (machine n).exec es l s = some (l', s')) :
    ∃ p', At n s' p' ∧ p'.Stranded := by
  induction es generalizing s p l with
  | nil =>
    cases hexec
    exact ⟨p, h, hstranded⟩
  | cons e es ih =>
    rw [Machine.exec, Option.bind_eq_some_iff] at hexec
    obtain ⟨s₁, hs, hexec⟩ := hexec
    obtain ⟨p₁, hat, hiff⟩ := h.step hs
    exact ih hat (hiff.2 (.inl hstranded)) hexec

end Steps

end PowerManagerP
