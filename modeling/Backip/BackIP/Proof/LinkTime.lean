import Backip.BackIP.Trace
import Backip.BackIP.Proof.QueueStep
import Mathlib.Data.List.Infix

/-!
# Link time and queueing time

`Clocked` is a forwarding queue with the time: every event has one, counted from when the clock was
zero, of which `PacketDelayTimer.getNow` gives the low 32 bits. The log has the calls of the queue
with their times, the last one first.

The time of a packet starts when it enters the queue. The sample that is taken when it is delivered
is the time the link took, if the packet was handed to the link at the tick it came, or if both times
are beyond the 16 bits of a sample (`Unwaited`), and otherwise not (`Clocked.linkTimed_iff`).
-/

set_option autoImplicit false

namespace BackIP

abbrev CallLog : Type := List (Nat × Call)

namespace CallLog

/-- When the packet in `q` came. -/
def enqueuedAt (q : QePtr) : CallLog → Option Nat
  | [] => none
  | (t, .enqueue q') :: log => if q' = q then some t else enqueuedAt q log
  | _ :: log => enqueuedAt q log

/-- When the packet in `q` was first handed to the link since it came, whatever the link answered. -/
def firstTry (q : QePtr) : CallLog → Option Nat
  | [] => none
  | (_, .enqueue q') :: log => if q' = q then none else firstTry q log
  | (t, .subSendData q' ..) :: log =>
    if q' = q then some ((firstTry q log).getD t) else firstTry q log
  | _ :: log => firstTry q log

/-- What a handler does at the time `t`. -/
def stamp (t : Nat) (calls : List Call) : CallLog := calls.map fun c => (t, c)

/-- Each sample of a link's time so far was the time since the packet was first handed to it, in 16
bits. -/
def LinkTimed (log : CallLog) : Prop :=
  ∀ t q n c txTime before, (t, .delivered q n c txTime) :: before <:+ log →
    ∃ first, firstTry q before = some first ∧ txTime = min 0xFFFF (t - first)

end CallLog

/-- The time an event is given is that of the clock. -/
def QEvent.At (t : Nat) : QEvent → Prop
  | .send _ _ _ _ now => now = t % 2 ^ 32
  | .subSendDone _ _ _ now => now = t % 2 ^ 32
  | _ => True

instance (t : Nat) : (e : QEvent) → Decidable (e.At t)
  | .send _ _ _ _ now => inferInstanceAs (Decidable (now = t % 2 ^ 32))
  | .subSendDone _ _ _ now => inferInstanceAs (Decidable (now = t % 2 ^ 32))
  | .sendingBeacon | .sendDataTask .. | .txRetryTimerFired | .signalDone => .isTrue trivial

structure Clocked where
  q : Queueing
  clock : Nat
  log : CallLog

namespace Clocked

/-- An event, not before the last one. -/
def step (s : Clocked) (e : Nat × QEvent) : Option Clocked :=
  if s.clock ≤ e.1 ∧ e.2.At e.1 then
    (s.q.step e.2).map fun q' => ⟨q', e.1, CallLog.stamp e.1 (newCalls s.q q') ++ s.log⟩
  else none

def machine : Machine Clocked (Nat × QEvent) where
  init s := s.q = Queueing.boot.start ∧ s.log = []
  step := step

end Clocked

/-! ## The samples -/

namespace CallLog

variable {q : QePtr} {t : Nat} {log : CallLog}

/-- The call says nothing about when a packet came or was handed to the link. -/
def Quiet : Call → Prop
  | .enqueue _ | .subSendData .. => False
  | _ => True

theorem enqueuedAt_quiet {c : Call} (hc : Quiet c) :
    enqueuedAt q ((t, c) :: log) = enqueuedAt q log := by
  cases c <;> first | rfl | exact hc.elim

theorem firstTry_quiet {c : Call} (hc : Quiet c) :
    firstTry q ((t, c) :: log) = firstTry q log := by
  cases c <;> first | rfl | exact hc.elim

theorem stamp_quiet {calls : List Call} (hc : ∀ c ∈ calls, Quiet c) :
    enqueuedAt q (stamp t calls ++ log) = enqueuedAt q log ∧
      firstTry q (stamp t calls ++ log) = firstTry q log := by
  induction calls with
  | nil => exact ⟨rfl, rfl⟩
  | cons c calls ih =>
    obtain ⟨hc, hcalls⟩ := List.forall_mem_cons.1 hc
    obtain ⟨h1, h2⟩ := ih hcalls
    exact ⟨(enqueuedAt_quiet hc).trans h1, (firstTry_quiet hc).trans h2⟩

theorem stamp_append (t : Nat) (l l' : List Call) : stamp t (l ++ l') = stamp t l ++ stamp t l' :=
  List.map_append

end CallLog

namespace QueueView

variable {v v' : QueueView} {e : QEvent} {log : CallLog} {clock t : Nat}

/-- The queue's packets carry the times they came, and the one at the link was handed to it since. -/
structure Dated (v : QueueView) (log : CallLog) (clock : Nat) : Prop where
  held : ∀ q ∈ v.stack ++ v.inFlight, ∃ came, CallLog.enqueuedAt q log = some came ∧ came ≤ clock ∧
    (v.qe q).firstTxTime = came % 2 ^ 32 ∧
    ∀ first, CallLog.firstTry q log = some first → came ≤ first ∧ first ≤ clock
  flying : ∀ q ∈ v.inFlight, (CallLog.firstTry q log).isSome = true

/-- Moves that leave the packets' times alone. -/
theorem Dated.frame {log' : CallLog} (h : v.Dated log clock) (ht : clock ≤ t)
    (hheld : ∀ q ∈ v'.stack ++ v'.inFlight, q ∈ v.stack ++ v.inFlight)
    (hfl : ∀ q ∈ v'.inFlight, q ∈ v.inFlight)
    (hqe : ∀ q, (v'.qe q).firstTxTime = (v.qe q).firstTxTime)
    (hlog : ∀ q, CallLog.enqueuedAt q log' = CallLog.enqueuedAt q log ∧
      CallLog.firstTry q log' = CallLog.firstTry q log) : v'.Dated log' t where
  held q hq := by
    obtain ⟨came, hcame, hle, htime, hfirst⟩ := h.held q (hheld q hq)
    refine ⟨came, (hlog q).1.trans hcame, Nat.le_trans hle ht, (hqe q).trans htime, ?_⟩
    intro first hf
    obtain ⟨h1, h2⟩ := hfirst first ((hlog q).2.symm.trans hf)
    exact ⟨h1, Nat.le_trans h2 ht⟩
  flying q hq := by
    rw [(hlog q).2]
    exact h.flying q (hfl q hq)

/-- A move after which `calls` were made. -/
def DatedBy (v v' : QueueView) (log : CallLog) (t : Nat) : Prop :=
  ∃ calls, v'.calls = calls ++ v.calls ∧ v'.Dated (CallLog.stamp t calls ++ log) t

/-- Moves whose calls are quiet. -/
theorem Dated.quiet (h : v.Dated log clock) (ht : clock ≤ t) (calls : List Call)
    (hcalls : v'.calls = calls ++ v.calls) (hc : ∀ c ∈ calls, CallLog.Quiet c)
    (hheld : ∀ q ∈ v'.stack ++ v'.inFlight, q ∈ v.stack ++ v.inFlight)
    (hfl : ∀ q ∈ v'.inFlight, q ∈ v.inFlight)
    (hqe : ∀ q, (v'.qe q).firstTxTime = (v.qe q).firstTxTime) : v.DatedBy v' log t :=
  ⟨calls, hcalls, h.frame ht hheld hfl hqe fun _ => CallLog.stamp_quiet hc⟩

/-- The same, where nothing is left at the link. -/
theorem Dated.idle (h : v.Dated log clock) (ht : clock ≤ t) (calls : List Call)
    (hcalls : v'.calls = calls ++ v.calls) (hc : ∀ c ∈ calls, CallLog.Quiet c)
    (hp : v'.pending = []) (hstack : ∀ q ∈ v'.stack, q ∈ v.stack ++ v.inFlight)
    (hqe : ∀ q, (v'.qe q).firstTxTime = (v.qe q).firstTxTime) : v.DatedBy v' log t := by
  have hfl : v'.inFlight = [] := inFlight_idle hp
  refine h.quiet ht calls hcalls hc ?_ ?_ hqe
  · intro q hq
    rw [hfl, List.append_nil] at hq
    exact hstack q hq
  · intro q hq
    rw [hfl] at hq
    cases hq

theorem DatedBy.trans {v₁ : QueueView} (h : v.DatedBy v₁ log t)
    (h' : ∀ log₁, v₁.Dated log₁ t → v₁.DatedBy v' log₁ t) : v.DatedBy v' log t := by
  obtain ⟨calls, hcalls, hd⟩ := h
  obtain ⟨calls', hcalls', hd'⟩ := h' _ hd
  refine ⟨calls' ++ calls, ?_, ?_⟩
  · rw [hcalls', hcalls, List.append_assoc]
  · rw [CallLog.stamp_append, List.append_assoc]
    exact hd'

theorem Dated.discard (h : v.Dated log clock) (ht : clock ≤ t) : v.DatedBy v.discard log t := by
  rcases v.discard_cases with ⟨hd, _⟩ | ⟨q, rest, hs, _, hd⟩
  · rw [hd]
    exact h.quiet ht [] rfl (by simp) (fun _ hq => hq) (fun _ hq => hq) fun _ => rfl
  · rw [hd]
    refine h.quiet ht [.qEntryPut .success, .messagePut .success, .discard q] rfl ?_ ?_
      (fun _ hq => hq) fun _ => rfl
    · simp [CallLog.Quiet]
    · intro q' hq'
      rw [hs]
      exact .tail _ hq'

theorem Dated.check (h : v.Dated log clock) (ht : clock ≤ t) (b : Bool) :
    v.DatedBy (v.check b) log t := by
  cases b with
  | false => exact h.quiet ht [] rfl (by simp) (fun _ hq => hq) (fun _ hq => hq) fun _ => rfl
  | true =>
    exact h.quiet ht [.drasticBackpressureChange] rfl (by simp [CallLog.Quiet]) (fun _ hq => hq)
      (fun _ hq => hq) fun _ => rfl

theorem Dated.chosen (h : v.Dated log clock) (ht : clock ≤ t) (b : Bool) (a : LlAddr) :
    v.DatedBy (v.chosen b a) log t := by
  have h1 : v.DatedBy { v with posted := false, nb := a } log t :=
    h.quiet ht [] rfl (by simp) (fun _ hq => hq) (fun _ hq => hq) fun _ => rfl
  exact (h1.trans fun _ h => h.check (Nat.le_refl _) b).trans fun _ h => h.discard (Nat.le_refl _)

/-- A packet that was handed to the link at `t`, if that was the first time. -/
theorem Dated.handed (h : v.Dated log clock) (ht : clock ≤ t) {q : QePtr}
    {a : LlAddr} {frame : Message} {len : Nat} {r : TinyError} (more : List Call)
    (hmore : ∀ c ∈ more, CallLog.Quiet c)
    (hcalls : v'.calls = (more ++ [.subSendData q a frame len r]) ++ v.calls)
    (hheld : ∀ q' ∈ v'.stack ++ v'.inFlight, q' ∈ v.stack ++ v.inFlight)
    (hfl : ∀ q' ∈ v'.inFlight, q' = q)
    (hqe : ∀ q', (v'.qe q').firstTxTime = (v.qe q').firstTxTime) : v.DatedBy v' log t := by
  refine ⟨_, hcalls, ?_⟩
  have hcame : ∀ q', CallLog.enqueuedAt q'
      (CallLog.stamp t (more ++ [.subSendData q a frame len r]) ++ log) =
        CallLog.enqueuedAt q' log := fun q' => by
    rw [CallLog.stamp_append, List.append_assoc, (CallLog.stamp_quiet hmore).1]
    rfl
  have hfirst : ∀ q', CallLog.firstTry q'
      (CallLog.stamp t (more ++ [.subSendData q a frame len r]) ++ log) =
        if q = q' then some ((CallLog.firstTry q' log).getD t) else CallLog.firstTry q' log :=
    fun q' => by
      rw [CallLog.stamp_append, List.append_assoc, (CallLog.stamp_quiet hmore).2]
      rfl
  constructor
  · intro q' hq'
    obtain ⟨came, hc, hle, htime, hold⟩ := h.held q' (hheld q' hq')
    refine ⟨came, (hcame q').trans hc, Nat.le_trans hle ht, (hqe q').trans htime, ?_⟩
    intro first hf
    rw [hfirst q'] at hf
    split at hf
    · obtain rfl := Option.some.inj hf
      cases hlast : CallLog.firstTry q' log with
      | none => exact ⟨Nat.le_trans hle ht, Nat.le_refl _⟩
      | some first =>
        obtain ⟨h1, h2⟩ := hold first hlast
        exact ⟨h1, Nat.le_trans h2 ht⟩
    · obtain ⟨h1, h2⟩ := hold first hf
      exact ⟨h1, Nat.le_trans h2 ht⟩
  · intro q' hq'
    rw [hfirst q', if_pos (hfl q' hq').symm]
    rfl

/-- Every move keeps the times right. -/
theorem Move.dated (hv : v.Inv) (h : v.Dated log clock) (ht : clock ≤ t) (hat : e.At t)
    (hm : Move v e v') : v.DatedBy v' log t := by
  have hv' := hv.move hm
  cases hm with
  | sendingBeacon =>
    exact h.quiet ht [] rfl (by simp) (fun _ hq => hq) (fun _ hq => hq) fun _ => rfl
  | bypassBusy i frame len r now hf hb =>
    exact h.quiet ht [.send (.frag i) true .eretry] rfl (by simp [CallLog.Quiet])
      (fun _ hq => hq) (fun _ hq => hq) fun _ => rfl
  | bypass i frame len r now hf hb =>
    obtain ⟨hp, _⟩ := hv.idle hb
    have hfl : ∀ v' : QueueView, v'.Inv →
        v'.pending = (if r = .success then .frag i :: v.pending else v.pending) →
        v'.inFlight = [] := fun v' hv' hpend => by
      by_cases hr : r = .success
      · exact hv'.inFlight_beacon (i := i) (by rw [hpend, if_pos hr, hp])
      · exact inFlight_idle (by rw [hpend, if_neg hr, hp])
    refine h.quiet ht [.send (.frag i) true r, .subSendBeacon (.frag i) frame len r] rfl
      (by simp [CallLog.Quiet]) ?_ ?_ fun _ => rfl
    · intro q hq
      rw [hfl _ hv' rfl, List.append_nil] at hq
      exact List.mem_append_left _ hq
    · intro q hq
      rw [hfl _ hv' rfl] at hq
      cases hq
  | refuse i frame len r now hf hfree =>
    refine (h.discard ht).trans fun _ h => ?_
    exact h.quiet (Nat.le_refl _) [.send (.frag i) false .eretry] rfl (by simp [CallLog.Quiet])
      (fun _ hq => hq) (fun _ hq => hq) fun _ => rfl
  | accept i frame len r now m free q freeQe hf hfree hfreeQe =>
    refine (h.discard ht).trans fun log₁ h => ?_
    have hvd := hv.discard
    have hq : q ∉ v.discard.stack ++ v.discard.inFlight := hvd.not_mem_held hfreeQe
    have hfl := hvd.inFlight_accept hfree hfreeQe now { v.discard with
      free := free
      freeQe := freeQe
      stack := v.discard.stack ++ [q]
      qe := Function.update v.qe q ⟨m, 0, now⟩
      mMsgp := .frag i
      posted := true
      donePosted := true
      calls := .send (.frag i) false .success :: .enqueue q :: .pushTop .success ::
        v.discard.calls } rfl rfl rfl
    refine ⟨[.send (.frag i) false .success, .enqueue q, .pushTop .success], rfl, ?_, ?_⟩
    · intro q' hq'
      rw [hfl] at hq'
      by_cases hqq : q' = q
      · subst hqq
        refine ⟨t, if_pos rfl, Nat.le_refl _, ?_, ?_⟩
        · dsimp only
          rw [Function.update_self]
          exact hat
        · intro first hfirst
          cases (if_pos rfl).symm.trans hfirst
      · have hold : q' ∈ v.discard.stack ++ v.discard.inFlight := by
          simp only [List.mem_append, List.mem_singleton] at hq' ⊢
          tauto
        obtain ⟨came, hc, hle, htime, hfirst⟩ := h.held q' hold
        have hne : ¬ q = q' := fun he => hqq he.symm
        refine ⟨came, (if_neg hne).trans hc, hle, ?_, fun first hf => ?_⟩
        · dsimp only
          rw [Function.update_of_ne hqq]
          exact htime
        · exact hfirst first ((if_neg hne).symm.trans hf)
    · intro q' hq'
      rw [hfl] at hq'
      have hne : ¬ q = q' := fun he => hq (he ▸ List.mem_append_right _ hq')
      have hlast : CallLog.firstTry q' (CallLog.stamp t
          [.send (.frag i) false .success, .enqueue q, .pushTop .success] ++ log₁) =
            CallLog.firstTry q' log₁ := if_neg hne
      rw [hlast]
      exact h.flying q' hq'
  | taskBusy nb r hp hb =>
    exact h.quiet ht [] rfl (by simp) (fun _ hq => hq) (fun _ hq => hq) fun _ => rfl
  | taskIdle nb r b hp hb hs hvz =>
    have h1 : v.DatedBy { v with posted := false } log t :=
      h.quiet ht [] rfl (by simp) (fun _ hq => hq) (fun _ hq => hq) fun _ => rfl
    exact h1.trans fun _ h => h.check (Nat.le_refl _) b
  | taskNoNeighbour r b hp hb hs =>
    have h1 : v.DatedBy { v with posted := false } log t :=
      h.quiet ht [] rfl (by simp) (fun _ hq => hq) (fun _ hq => hq) fun _ => rfl
    refine (h1.trans fun _ h => h.check (Nat.le_refl _) b).trans fun _ h => ?_
    exact h.quiet (Nat.le_refl _) [] rfl (by simp) (fun _ hq => hq) (fun _ hq => hq) fun _ => rfl
  | giveUp a r b l q hp hb hs ht' =>
    refine (h.chosen ht b a).trans fun _ h => ?_
    refine h.idle (Nat.le_refl _) [.pushTop .success, .giveUp q a (2 * maxRetxAttempts)] rfl
      (by simp [CallLog.Quiet]) (hv.idle hb).1 (fun _ hq => List.mem_append_left _ hq) ?_
    intro q'
    change (Function.update v.qe q { v.qe q with txCount := 0 } q').firstTxTime = _
    by_cases hqq : q' = q
    · subst hqq
      rw [Function.update_self]
      rfl
    · rw [Function.update_of_ne hqq]
      rfl
  | transmit a b l q frame len hp hb hs ht' =>
    refine (h.chosen ht b a).trans fun _ h => ?_
    have hpend : (v.chosen b a).pending = [] := (hv.idle hb).1
    have hfl' := inFlight_data (v := { v.chosen b a with
          stack := l
          current := q
          suppress := true
          sending := 1
          busy := true
          qe := Function.update v.qe q { v.qe q with txCount := (v.qe q).txCount + 1 }
          pending := v.msgOf q :: v.pending
          calls := .subSendData q a frame len .success :: (v.chosen b a).calls })
      (by simp [msgOf, show v.pending = [] from hpend])
    have hq : q ∈ (v.chosen b a).stack := by rw [hs]; simp
    refine h.handed (Nat.le_refl _) [] (by simp) rfl ?_ ?_ ?_
    · intro q' hq'
      rw [hfl', ← hs] at hq'
      exact List.mem_append_left _ hq'
    · intro q' hq'
      rw [hfl'] at hq'
      exact List.mem_singleton.1 hq'
    · intro q'
      dsimp only
      by_cases hqq : q' = q
      · subst hqq
        rw [Function.update_self]
        rfl
      · rw [Function.update_of_ne hqq]
        rfl
  | localSendFailed a r b l q frame len hr hp hb hs ht' =>
    refine (h.chosen ht b a).trans fun _ h => ?_
    have hq : q ∈ (v.chosen b a).stack := by rw [hs]; simp
    have hfl : ∀ (v' : QueueView) q', v'.pending = v.pending → q' ∉ v'.inFlight := by
      intro v' q' hpend
      rw [inFlight_idle (hpend.trans (hv.idle hb).1)]
      nofun
    refine h.handed (Nat.le_refl _) [.pushTop .success] (by simp [CallLog.Quiet]) rfl
      ?_ ?_ fun _ => rfl
    · intro q' hq'
      rcases List.mem_append.1 hq' with hq' | hq'
      · exact List.mem_append_left _ hq'
      · exact absurd hq' (hfl _ _ rfl)
    · exact fun q' hq' => absurd hq' (hfl _ _ rfl)
  | sendNull a r b hp hb hs hvp =>
    have h1 : v.DatedBy { v with posted := false, nb := a } log t :=
      h.quiet ht [] rfl (by simp) (fun _ hq => hq) (fun _ hq => hq) fun _ => rfl
    refine (h1.trans fun _ h => h.check (Nat.le_refl _) b).trans fun _ h => ?_
    exact h.quiet (Nat.le_refl _) [.sendNull] rfl (by simp [CallLog.Quiet]) (fun _ hq => hq)
      (fun _ hq => hq) fun _ => rfl
  | txRetryTimerFired ht' =>
    exact h.quiet ht [] rfl (by simp) (fun _ hq => hq) (fun _ hq => hq) fun _ => rfl
  | signalDone hp =>
    exact h.quiet ht [.sendDone v.mMsgp .success] rfl (by simp [CallLog.Quiet]) (fun _ hq => hq)
      (fun _ hq => hq) fun _ => rfl
  | retry m error now hm hs =>
    obtain ⟨rfl, hp, _, _⟩ := hv.data hm hs
    have hfl := inFlight_data hp
    refine h.idle ht [.pushTop .success] rfl (by simp [CallLog.Quiet]) (by simp [hp]) ?_ fun _ => rfl
    rw [hfl]
    exact fun _ hq => hq
  | deliver m error now txTime hm hs =>
    obtain ⟨rfl, hp, _, _⟩ := hv.data hm hs
    exact h.idle ht [.qEntryPut .success, .messagePut .success,
      .delivered v.current v.nb (v.qe v.current).txCount txTime] rfl (by simp [CallLog.Quiet])
      (by simp [hp]) (fun _ hq => List.mem_append_left _ hq) fun _ => rfl
  | beaconDone m error d now hm hs =>
    obtain ⟨i, rfl, hp, _, _⟩ := hv.beacon hm hs
    exact h.idle ht [.sendDone (.frag i) error] rfl (by simp [CallLog.Quiet]) (by simp [hp])
      (fun _ hq => List.mem_append_left _ hq) fun _ => rfl

theorem delivered_discard (v : QueueView) : delivered v.discard.calls = delivered v.calls := by
  rcases v.discard_cases with ⟨hd, _⟩ | ⟨q, rest, _, _, hd⟩
  · rw [hd]
  · rw [hd]
    simp

theorem delivered_chosen (v : QueueView) (b : Bool) (a : LlAddr) :
    delivered (v.chosen b a).calls = delivered v.calls := by
  rw [QueueView.chosen, delivered_discard]
  cases b <;> simp [QueueView.check]

theorem delivered_check (v : QueueView) (b : Bool) :
    delivered (v.check b).calls = delivered v.calls := by
  cases b <;> simp [QueueView.check]

/-- Only a link that is done with the current packet delivers one. -/
theorem Move.delivers (hm : Move v e v') : delivered v'.calls = delivered v.calls ∨
    ∃ m error now, e = .subSendDone m error true now ∧ m ∈ v.pending ∧ v.suppress = true := by
  cases hm with
  | refuse => exact .inl (by simp [delivered_discard])
  | accept => exact .inl (by simp [delivered_discard])
  | taskIdle nb r b => exact .inl (delivered_check _ b)
  | taskNoNeighbour r b => exact .inl (delivered_check { v with posted := false } b)
  | giveUp => exact .inl (by simp [delivered_chosen])
  | transmit => exact .inl (by simp [delivered_chosen])
  | localSendFailed => exact .inl (by simp [delivered_chosen])
  | sendNull a r b =>
    left
    have h := delivered_check { v with posted := false, nb := a } b
    simpa using h
  | deliver m error now txTime hm hs => exact .inr ⟨m, error, now, rfl, hm, hs⟩
  | _ => exact .inl (by simp)

end QueueView

namespace Queueing

/-- The sample of a delivery. -/
theorem calls_subSendDone (s : Queueing) (m : MsgPtr) (error : TinyError) (now : Nat)
    (hs : s.suppressSendDone = true) : ∃ n c ret ret',
    (s.subSendDone m error true now).calls = .qEntryPut ret :: .messagePut ret' ::
      .delivered s.currentSendQe n c (txTime now (s.qe s.currentSendQe).firstTxTime) :: s.calls := by
  have hpost : ∀ s : Queueing, s.postIfBacklog.calls = s.calls := fun s => by
    unfold postIfBacklog
    split <;> rfl
  rw [subSendDone, if_pos hs, if_neg (by simp), hpost]
  exact ⟨_, _, _, _, rfl⟩

end Queueing

/-- The link had the packet from the tick it came on, as far as samples of 16 bits and a clock of 32
tell: the packet came at `came`, was first handed to the link at `first` and is delivered at `t`. -/
def Unwaited (came first t : Nat) : Prop :=
  (first - came) % 2 ^ 32 = 0 ∧ t - first < 0xFFFF ∨
    0xFFFF ≤ (t - came) % 2 ^ 32 ∧ 0xFFFF ≤ t - first

instance (came first t : Nat) : Decidable (Unwaited came first t) :=
  inferInstanceAs (Decidable (_ ∨ _))

theorem txTime_iff {came first t : Nat} (h1 : came ≤ first) (h2 : first ≤ t) :
    Queueing.txTime (t % 2 ^ 32) (came % 2 ^ 32) = min 0xFFFF (t - first) ↔
      Unwaited came first t := by
  obtain ⟨w, rfl⟩ := Nat.exists_eq_add_of_le h1
  obtain ⟨d, rfl⟩ := Nat.exists_eq_add_of_le h2
  have hmod : ((came + w + d) % 2 ^ 32 + 2 ^ 32 - came % 2 ^ 32) % 2 ^ 32 = (w + d) % 2 ^ 32 := by
    omega
  have hw : came + w - came = w := by omega
  have hd : came + w + d - (came + w) = d := by omega
  have hwd : came + w + d - came = w + d := by omega
  unfold Queueing.txTime Unwaited
  dsimp only
  rw [hmod, hw, hd, hwd]
  constructor
  · intro h
    split at h <;> omega
  · intro h
    split <;> omega

namespace CallLog

variable {t : Nat} {log : CallLog}

theorem linkTimed_cons {c : Call} (hc : c.isDelivered = false) :
    LinkTimed ((t, c) :: log) ↔ LinkTimed log := by
  constructor
  · intro h t' q n c' txTime before hs
    exact h _ _ _ _ _ _ (hs.trans (List.suffix_cons _ _))
  · intro h t' q n c' txTime before hs
    rcases List.suffix_cons_iff.1 hs with he | hs
    · cases he
      cases hc
    · exact h _ _ _ _ _ _ hs

theorem linkTimed_stamp {calls : List Call} (hc : ∀ c ∈ calls, c.isDelivered = false) :
    LinkTimed (stamp t calls ++ log) ↔ LinkTimed log := by
  induction calls with
  | nil => exact Iff.rfl
  | cons c calls ih =>
    obtain ⟨hc, hcalls⟩ := List.forall_mem_cons.1 hc
    exact (linkTimed_cons hc).trans (ih hcalls)

theorem linkTimed_delivered {q : QePtr} {n : LlAddr} {c txTime first : Nat}
    (hfirst : firstTry q log = some first) :
    LinkTimed ((t, .delivered q n c txTime) :: log) ↔
      LinkTimed log ∧ txTime = min 0xFFFF (t - first) := by
  constructor
  · intro h
    obtain ⟨first', hf, htx⟩ := h t q n c txTime log List.suffix_rfl
    obtain rfl := Option.some.inj (hfirst.symm.trans hf)
    exact ⟨fun _ _ _ _ _ _ hs => h _ _ _ _ _ _ (hs.trans (List.suffix_cons _ _)), htx⟩
  · rintro ⟨h, htx⟩ t' q' n' c' txTime' before hs
    rcases List.suffix_cons_iff.1 hs with he | hs
    · cases he
      exact ⟨first, hfirst, htx⟩
    · exact h _ _ _ _ _ _ hs

end CallLog

namespace Clocked

variable {s s' : Clocked} {e : Nat × QEvent}

/-- What a step does. -/
theorem step_cases (h : s.step e = some s') : s.clock ≤ e.1 ∧ e.2.At e.1 ∧
    ∃ q', s.q.step e.2 = some q' ∧ s' = ⟨q', e.1, CallLog.stamp e.1 (newCalls s.q q') ++ s.log⟩ := by
  unfold step at h
  split at h
  next hat =>
    obtain ⟨q', hq', hs'⟩ := Option.map_eq_some_iff.1 h
    exact ⟨hat.1, hat.2, q', hq', hs'.symm⟩
  · cases h

/-- The queue's invariant, and the times of its packets. -/
def Inv (s : Clocked) : Prop := s.q.view.Inv ∧ s.q.view.Dated s.log s.clock

theorem step_log (hs : Inv s) (h : s.step e = some s') : ∃ calls,
    s'.q.calls = calls ++ s.q.calls ∧ s'.log = CallLog.stamp e.1 calls ++ s.log ∧ Inv s' := by
  obtain ⟨ht, hat, q', hq', rfl⟩ := step_cases h
  have hm := Queueing.step_move hs.1 hq'
  obtain ⟨calls, hcalls, hdated⟩ := hm.dated hs.1 hs.2 ht hat
  have hnew : newCalls s.q q' = calls := newCalls_eq hcalls
  refine ⟨calls, hcalls, by rw [hnew], hs.1.move hm, ?_⟩
  dsimp only
  rw [hnew]
  exact hdated

theorem inductive_inv : machine.Inductive Inv where
  init := by
    rintro s ⟨hq, hlog⟩
    unfold Inv
    rw [hq]
    exact ⟨QueueView.Inv.init, nofun, nofun⟩
  step := by
    intro s e s' hs hstep
    obtain ⟨calls, -, -, hinv⟩ := step_log hs hstep
    exact hinv

/-- A packet that is delivered was handed to the link at the tick it came, as far as its sample can
tell. -/
def Meets (s : Clocked) : Nat × QEvent → Prop
  | (t, .subSendDone _ _ true _) => s.q.suppressSendDone = true →
    ∀ came ∈ CallLog.enqueuedAt s.q.currentSendQe s.log,
      ∀ first ∈ CallLog.firstTry s.q.currentSendQe s.log, Unwaited came first t
  | _ => True

instance (s : Clocked) : (e : Nat × QEvent) → Decidable (s.Meets e)
  | (t, .subSendDone _ _ true _) => inferInstanceAs (Decidable (s.q.suppressSendDone = true →
    ∀ came ∈ CallLog.enqueuedAt s.q.currentSendQe s.log,
      ∀ first ∈ CallLog.firstTry s.q.currentSendQe s.log, Unwaited came first t))
  | (_, .subSendDone _ _ false _) | (_, .sendingBeacon) | (_, .send ..) | (_, .sendDataTask ..)
  | (_, .txRetryTimerFired) | (_, .signalDone) => .isTrue trivial

theorem step_iff (hs : Inv s) (hP : CallLog.LinkTimed s.log) (h : s.step e = some s') :
    CallLog.LinkTimed s'.log ↔ s.Meets e := by
  obtain ⟨calls, hcalls, hlog, -⟩ := step_log hs h
  obtain ⟨ht, hat, q', hq', rfl⟩ := step_cases h
  obtain ⟨t, e⟩ := e
  have hm := Queueing.step_move hs.1 hq'
  have hsuppress : s.q.view.suppress = s.q.suppressSendDone := rfl
  rw [hlog]
  by_cases hdone : ∃ m error now, e = .subSendDone m error true now ∧ s.q.suppressSendDone = true
  · obtain ⟨m, error, now, rfl, hsup⟩ := hdone
    have hpend : m ∈ s.q.pending := by
      by_contra hne
      cases (if_neg hne).symm.trans hq'
    obtain rfl := Option.some.inj ((if_pos hpend).symm.trans hq')
    obtain ⟨-, hp, -, -⟩ := hs.1.data hpend hsup
    have hcur : s.q.currentSendQe ∈ s.q.view.inFlight := by
      rw [QueueView.inFlight_data hp]
      exact .head _
    obtain ⟨came, hcame, hle, htime, hfirst⟩ := hs.2.held _ (List.mem_append_right _ hcur)
    obtain ⟨first, hf⟩ := Option.isSome_iff_exists.1 (hs.2.flying _ hcur)
    obtain ⟨h1, h2⟩ := hfirst first hf
    obtain ⟨n, c, ret, ret', hdel⟩ := Queueing.calls_subSendDone
      { s.q with pending := s.q.pending.erase m } m error now hsup
    have hl : calls = [.qEntryPut ret, .messagePut ret', .delivered s.q.currentSendQe n c
        (Queueing.txTime now (s.q.qe s.q.currentSendQe).firstTxTime)] :=
      List.append_cancel_right (hcalls.symm.trans hdel)
    have htime' : (s.q.qe s.q.currentSendQe).firstTxTime = came % 2 ^ 32 := htime
    have hnow : now = t % 2 ^ 32 := hat
    rw [hl, htime', hnow]
    refine ((CallLog.linkTimed_cons rfl).trans (CallLog.linkTimed_cons rfl)).trans ?_
    refine (CallLog.linkTimed_delivered hf).trans ?_
    rw [txTime_iff h1 (Nat.le_trans h2 ht)]
    constructor
    · rintro ⟨-, hun⟩ - came' hc' first' hf'
      obtain rfl := Option.some.inj (hcame.symm.trans hc')
      obtain rfl := Option.some.inj (hf.symm.trans hf')
      exact hun
    · intro hmeets
      exact ⟨hP, hmeets hsup came hcame first hf⟩
  · have hquiet : ∀ c ∈ calls, c.isDelivered = false := by
      rcases hm.delivers with hcount | ⟨m, error, now, rfl, -, hsup⟩
      · have hzero : delivered calls = 0 := by
          have hsum : delivered (calls ++ s.q.calls) = delivered calls + delivered s.q.calls :=
            List.countP_append
          have hview : delivered q'.calls = delivered s.q.calls := hcount
          rw [hcalls, hsum] at hview
          omega
        intro c hc
        exact Bool.eq_false_iff.2 (List.countP_eq_zero.1 hzero c hc)
      · exact absurd ⟨m, error, now, rfl, hsup⟩ hdone
    refine (CallLog.linkTimed_stamp hquiet).trans (iff_of_true hP ?_)
    cases e with
    | subSendDone m error d now =>
      cases d with
      | true => exact fun hsup => absurd ⟨m, error, now, rfl, hsup⟩ hdone
      | false => exact trivial
    | _ => exact trivial

/-- **Link time, not queueing time.** In a run the samples are all of the link's time exactly if every
packet that is delivered was handed to the link at the tick it came, as far as its sample tells. -/
theorem linkTimed_iff {h : List (Clocked × (Nat × QEvent))} (hr : machine.Run h s) :
    (CallLog.LinkTimed s.log ∧ ∀ p ∈ h, CallLog.LinkTimed p.1.log) ↔ ∀ p ∈ h, p.1.Meets p.2 := by
  refine hr.forall_iff inductive_inv ?_ fun _ _ _ hI hP hs => step_iff hI hP hs
  rintro s ⟨-, hlog⟩
  rw [hlog]
  intro t q n c txTime before hs
  cases List.suffix_nil.1 hs

/-- A packet that is tried at once and delivered seven ticks later. -/
theorem linkTimed_seven : ∃ (h : List (Clocked × (Nat × QEvent))) (s : Clocked),
    machine.Run h s ∧ delivered (s.log.map (·.2)) = 1 ∧ CallLog.LinkTimed s.log := by
  obtain ⟨h, s, hr, hp⟩ := Machine.exists_run_of_exec (M := machine)
    (s := ⟨Queueing.boot.start, 0, []⟩) ⟨rfl, rfl⟩
    [(5, .send 0 ⟨[], 0, 0, 0, .data⟩ 0 .success 5), (5, .sendDataTask (some (.short 1)) .success),
      (12, .subSendDone (.pool 0) .success true 12)]
    (fun h s => delivered (s.log.map (·.2)) = 1 ∧ ∀ p ∈ h, p.1.Meets p.2) (by decide)
  obtain ⟨hdel, hmeets⟩ := of_decide_eq_true hp
  exact ⟨h, s, hr, hdel, ((linkTimed_iff hr).2 hmeets).1⟩

/-- A packet that waits for a route for twenty ticks and is delivered two ticks after it was handed
to the link: the sample is twenty-two. -/
theorem linkTimed_false : ¬ ∀ s, machine.Reachable s → CallLog.LinkTimed s.log := by
  intro hall
  obtain ⟨h, s, hr, hp⟩ := Machine.exists_run_of_exec (M := machine)
    (s := ⟨Queueing.boot.start, 0, []⟩) ⟨rfl, rfl⟩
    [(0, .send 0 ⟨[], 0, 0, 0, .data⟩ 0 .success 0), (0, .sendDataTask none .success),
      (20, .txRetryTimerFired), (20, .sendDataTask (some (.short 1)) .success),
      (22, .subSendDone (.pool 0) .success true 22)]
    (fun _ s => s.log[2]? = some (22, .delivered (.entry 0) (.short 1) 1 22) ∧
      CallLog.firstTry (.entry 0) (s.log.drop 3) = some 20) (by decide)
  obtain ⟨hget, hfirst⟩ := of_decide_eq_true hp
  obtain ⟨hlt, hget⟩ := List.getElem?_eq_some_iff.1 hget
  have hsuffix : (22, .delivered (.entry 0) (.short 1) 1 22) :: s.log.drop 3 <:+ s.log := by
    rw [← hget, ← List.drop_eq_getElem_cons hlt]
    exact List.drop_suffix _ _
  obtain ⟨first, hf, htx⟩ := hall s ⟨h, hr⟩ _ _ _ _ _ _ hsuffix
  obtain rfl := Option.some.inj (hfirst.symm.trans hf)
  exact absurd htx (by decide)

end Clocked

end BackIP
