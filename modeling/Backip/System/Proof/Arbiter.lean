import Backip.System.ArbiterP

/-!
# No request is lost

* `kept`: in the runs of `ArbiterP` that avoid its defects (`Fits`), a request that returns `SUCCESS`
  leaves its client queued or as the pending grant, nobody who waits is lost, and the default owner
  has the resource only while the queue is empty.
-/

set_option autoImplicit false

namespace ArbiterP

variable {n : Nat} {s s' : State} {e : Event} {a : Arbiter} {id : UInt8} {l waiting : List UInt8}

theorem ne_noRes (hn : n ≤ 255) (hid : id.toNat < n) : id ≠ noRes := by
  rintro rfl
  have : noRes.toNat = 255 := rfl
  omega

/-! ## The invariant -/

/-- The clients ahead of the queue. -/
def owed (a : Arbiter) : List UInt8 :=
  (if a.signalling = true then [a.resId] else []) ++
  (if a.state = .granting then [a.reqResId] else [])

structure Good (n : Nat) (s : State) (l : List UInt8) : Prop where
  queue : s.impl.queue.Represents noRes l
  normal : ∀ id ∈ l, id.toNat < n
  waiting : s.waiting = owed s.impl ++ l
  nodup : s.waiting.Nodup
  controlled : s.impl.state = .controlled → l = [] ∧ s.impl.resId = defaultOwner n
  granting : s.impl.state = .granting →
    s.impl.reqResId.toNat < n ∧ (s.impl.posted = true ∨ s.impl.resId = defaultOwner n)
  immGranting : s.impl.state = .immGranting →
    s.impl.reqResId.toNat < n ∧ s.impl.resId = defaultOwner n
  busy : s.impl.state = .busy → s.impl.resId.toNat < n ∧ s.impl.reqResId = s.impl.resId
  posted : s.impl.posted = true → s.impl.state = .granting
  signalling : s.impl.signalling = true → s.impl.state = .busy

theorem good_init : Good n ⟨init n, []⟩ [] where
  queue := LinkedQueue.represents_empty noRes
  normal := nofun
  waiting := rfl
  nodup := .nil
  controlled _ := ⟨rfl, rfl⟩
  granting := nofun
  immGranting := nofun
  busy := nofun
  posted := nofun
  signalling := nofun

/-! ## The steps -/

/-- The step avoids the defects: neither the owner nor the client of a pending immediate request
asks again, an immediate request gives up only while it is pending itself and nobody is queued, and
the owner does not release the resource before `granted` is signalled. -/
def Fits (s : State) : Event → Prop
  | .request id => ¬ ((s.impl.state = .busy ∨ s.impl.state = .immGranting) ∧ s.impl.reqResId = id)
  | .giveUp _ => s.impl.state = .controlled ∨
    s.impl.state = .immGranting ∧ isEmpty s.impl.queue = true
  | .release id => ¬ (s.impl.signalling = true ∧ s.impl.resId = id)
  | _ => True

instance (s : State) : (e : Event) → Decidable (Fits s e)
  | .request _ => inferInstanceAs (Decidable (¬ _))
  | .giveUp _ => inferInstanceAs (Decidable (_ ∨ _))
  | .release _ => inferInstanceAs (Decidable (¬ _))
  | .immediateRequest _ | .check _ | .defaultRelease | .grantedTask | .granted =>
    inferInstanceAs (Decidable True)

theorem Good.not_signalling (h : Good n ⟨a, waiting⟩ l) (hst : a.state ≠ .busy) :
    a.signalling = false := by
  rw [Bool.eq_false_iff]
  exact fun hsig => hst (h.signalling hsig)

theorem Good.not_posted (h : Good n ⟨a, waiting⟩ l) (hst : a.state ≠ .granting) :
    a.posted = false := by
  rw [Bool.eq_false_iff]
  exact fun hpost => hst (h.posted hpost)

theorem Good.enqueued_iff (h : Good n ⟨a, waiting⟩ l) (hn : n ≤ 255) (hid : id.toNat < n) :
    isEnqueued a.queue id = true ↔ id ∈ l :=
  h.queue.waiting_iff (ne_noRes hn hid)

/-- The client whose request finds the resource taken goes to the end of the queue. -/
theorem Good.enqueue (hn : n ≤ 255) (h : Good n ⟨a, waiting⟩ l) (hid : id.toNat < n)
    (hctl : a.state ≠ .controlled) (hmem : id ∉ waiting) :
    Good n ⟨{ a with queue := a.queue.push noRes id }, waiting ++ [id]⟩ (l ++ [id]) := by
  have hw : waiting = owed a ++ l := h.waiting
  have hl : id ∉ l := fun hl => hmem (hw ▸ List.mem_append_right _ hl)
  refine ⟨h.queue.push (ne_noRes hn hid) hl, fun i hi => ?_, ?_, ?_, fun hc => absurd hc hctl,
    h.granting, h.immGranting, h.busy, h.posted, h.signalling⟩
  · rcases List.mem_append.1 hi with hi | hi
    · exact h.normal i hi
    · obtain rfl := List.mem_singleton.1 hi
      exact hid
  · change waiting ++ [id] = owed a ++ (l ++ [id])
    rw [hw, List.append_assoc]
  · refine List.nodup_append.2 ⟨h.nodup, by simp, fun i hi j hj hij => ?_⟩
    obtain rfl := List.mem_singleton.1 hj
    exact hmem (hij ▸ hi)

/-- Who is not queued and not about to ask in vain does not wait. -/
theorem Good.not_waiting (h : Good n ⟨a, waiting⟩ l) (hreq : a.reqResId ≠ id) (hl : id ∉ l) :
    id ∉ waiting := by
  have hw : waiting = owed a ++ l := h.waiting
  rw [hw]
  intro hmem
  rcases List.mem_append.1 hmem with hmem | hmem
  · rcases List.mem_append.1 hmem with hmem | hmem
    · split at hmem
      · rename_i hsig
        obtain rfl := List.mem_singleton.1 hmem
        exact hreq (h.busy (h.signalling hsig)).2
      · cases hmem
    · split at hmem
      · exact hreq (List.mem_singleton.1 hmem).symm
      · cases hmem
  · exact hl hmem

/-- A request: what it returns, and the state it leaves. -/
theorem Good.request (hn : n ≤ 255) (h : Good n ⟨a, waiting⟩ l) (hid : id.toNat < n)
    (hfit : Fits ⟨a, waiting⟩ (.request id)) :
    Accepts a (.request id) ∧ ∃ l', Good n ⟨(request a id).2,
      if (request a id).1 = .success ∧ id ∉ waiting then waiting ++ [id] else waiting⟩ l' := by
  by_cases hctl : a.state = .controlled
  · have hr : ArbiterP.request a id = (.success, { a with state := .granting, reqResId := id }) :=
      if_pos hctl
    obtain ⟨rfl, hres⟩ := h.controlled hctl
    have hsig : a.signalling = false := h.not_signalling (by rw [hctl]; nofun)
    have hw : waiting = [] := by
      have hw : waiting = owed a ++ [] := h.waiting
      rw [hw, owed, hsig, hctl]
      rfl
    subst hw
    rw [hr]
    constructor
    · rintro i ⟨⟩ -
      rw [hr]
      exact .inr ⟨rfl, rfl⟩
    · rw [if_pos ⟨rfl, nofun⟩]
      refine ⟨[], h.queue, nofun, ?_, by simp, nofun, fun _ => ⟨hid, .inr hres⟩, nofun, nofun,
        fun _ => rfl, fun hs => ?_⟩
      · simp [owed, hsig]
      · exact absurd (hsig.symm.trans hs) nofun
  · by_cases hreq : a.reqResId = id
    · have hr : ArbiterP.request a id = (.success, a) := by
        rw [ArbiterP.request, if_neg hctl, if_pos hreq]
      have hgr : a.state = .granting := by
        cases hst : a.state with
        | controlled => exact absurd hst hctl
        | granting => rfl
        | immGranting => exact absurd ⟨.inr hst, hreq⟩ hfit
        | busy => exact absurd ⟨.inl hst, hreq⟩ hfit
      have hmem : id ∈ waiting := by
        have hw : waiting = owed a ++ l := h.waiting
        rw [hw]
        refine List.mem_append_left _ (List.mem_append_right _ ?_)
        rw [if_pos hgr, hreq]
        exact .head _
      rw [hr]
      constructor
      · rintro i ⟨⟩ -
        rw [hr]
        exact .inr ⟨hgr, hreq⟩
      · rw [if_neg fun hc => hc.2 hmem]
        exact ⟨l, h⟩
    · by_cases hl : id ∈ l
      · have henq : isEnqueued a.queue id = true := (h.enqueued_iff hn hid).2 hl
        have hr : ArbiterP.request a id = (.ebusy, a) := by
          simp only [ArbiterP.request, if_neg hctl, if_neg hreq, ArbiterP.enqueue, henq]
          rfl
        rw [hr]
        constructor
        · rintro i ⟨⟩ hsucc
          rw [hr] at hsucc
          cases hsucc
        · rw [if_neg fun hc => nomatch hc.1]
          exact ⟨l, h⟩
      · have henq : isEnqueued a.queue id = false := by
          rw [Bool.eq_false_iff]
          exact fun hq => hl ((h.enqueued_iff hn hid).1 hq)
        have hr : ArbiterP.request a id =
            (.success, { a with queue := a.queue.push noRes id }) := by
          simp only [ArbiterP.request, if_neg hctl, if_neg hreq, ArbiterP.enqueue, henq]
          rfl
        have hmem := h.not_waiting hreq hl
        have hgood := h.enqueue hn hid hctl hmem
        rw [hr]
        constructor
        · rintro i ⟨⟩ -
          rw [hr]
          exact .inl ((hgood.enqueued_iff hn hid).2 (by simp))
        · rw [if_pos ⟨rfl, hmem⟩]
          exact ⟨_, hgood⟩

theorem Good.immediateRequest (h : Good n ⟨a, waiting⟩ l) (hid : id.toNat < n) :
    Good n ⟨immediateRequest a id, waiting⟩ l := by
  unfold ArbiterP.immediateRequest
  split
  · rename_i hctl
    have hw : waiting = owed a ++ l := h.waiting
    have hsig : a.signalling = false := h.not_signalling (by rw [hctl]; nofun)
    have hpost : a.posted = false := h.not_posted (by rw [hctl]; nofun)
    refine ⟨h.queue, h.normal, ?_, h.nodup, nofun, nofun, fun _ => ⟨hid, (h.controlled hctl).2⟩,
      nofun, fun hp => absurd (hpost.symm.trans hp) nofun, fun hs => absurd (hsig.symm.trans hs) nofun⟩
    rw [hw, owed, hctl]
    rfl
  · exact h

theorem Good.check (h : Good n ⟨a, waiting⟩ l) : Good n ⟨check a id, waiting⟩ l := by
  unfold ArbiterP.check
  split
  · exact ⟨h.queue, h.normal, h.waiting, h.nodup, h.controlled, h.granting, h.immGranting, h.busy,
      h.posted, h.signalling⟩
  · exact ⟨h.queue, h.normal, h.waiting, h.nodup, h.controlled, h.granting, h.immGranting, h.busy,
      h.posted, h.signalling⟩

theorem Good.giveUp (h : Good n ⟨a, waiting⟩ l) (hfit : Fits ⟨a, waiting⟩ (.giveUp id)) :
    Good n ⟨giveUp a id, waiting⟩ l := by
  have hfree : l = [] ∧ a.resId = defaultOwner n ∧ a.state ≠ .busy ∧ a.state ≠ .granting := by
    rcases hfit with hctl | ⟨himm, hempty⟩
    · have hctl : a.state = .controlled := hctl
      obtain ⟨hl, hres⟩ := h.controlled hctl
      exact ⟨hl, hres, by rw [hctl]; nofun, by rw [hctl]; nofun⟩
    · have himm : a.state = .immGranting := himm
      have hhead : a.queue.head = noRes := of_decide_eq_true hempty
      exact ⟨h.queue.head_eq_no.1 hhead, (h.immGranting himm).2, by rw [himm]; nofun,
        by rw [himm]; nofun⟩
  obtain ⟨hl, hres, hbusy, hgr⟩ := hfree
  have hw : waiting = owed a ++ l := h.waiting
  have hsig : a.signalling = false := h.not_signalling hbusy
  have hpost : a.posted = false := h.not_posted hgr
  refine ⟨h.queue, h.normal, ?_, h.nodup, fun _ => ⟨hl, hres⟩, nofun, nofun, nofun,
    fun hp => absurd (hpost.symm.trans hp) nofun, fun hs => absurd (hsig.symm.trans hs) nofun⟩
  rw [hw, owed, if_neg hgr]
  rfl

/-- The owner hands the resource on to the first in the queue, or back to the default owner. -/
theorem Good.release (h : Good n ⟨a, waiting⟩ l)
    (hfit : Fits ⟨a, waiting⟩ (.release id)) : ∃ l', Good n ⟨(release n a id).2, waiting⟩ l' := by
  unfold ArbiterP.release
  split
  · rename_i hown
    obtain ⟨hbusy, hres⟩ := hown
    have hw : waiting = owed a ++ l := h.waiting
    have hsig : a.signalling = false := by
      rw [Bool.eq_false_iff]
      exact fun hsig => hfit ⟨hsig, hres⟩
    rw [owed, hsig, hbusy] at hw
    have hw : waiting = l := hw
    have hpost : a.posted = false := h.not_posted (by rw [hbusy]; nofun)
    cases l with
    | nil =>
      have hempty : isEmpty a.queue = true := decide_eq_true (h.queue.head_eq_no.2 rfl)
      rw [if_neg (by rw [hempty]; nofun)]
      refine ⟨[], h.queue, nofun, ?_, h.nodup, fun _ => ⟨rfl, rfl⟩, nofun, nofun, nofun,
        fun hp => absurd (hpost.symm.trans hp) nofun, fun hs => absurd (hsig.symm.trans hs) nofun⟩
      rw [hw, owed, hsig]
      rfl
    | cons b l =>
      have hempty : isEmpty a.queue = false :=
        decide_eq_false fun hhead => nomatch h.queue.head_eq_no.1 hhead
      obtain ⟨hb, hl⟩ := h.queue.pop_cons
      rw [if_pos hempty]
      refine ⟨l, hl, fun i hi => h.normal i (.tail _ hi), ?_, h.nodup, nofun, fun _ => ⟨?_, .inl rfl⟩,
        nofun, nofun, fun _ => rfl, fun hs => absurd (hsig.symm.trans hs) nofun⟩
      · simp only [owed, hsig, dequeue, hb, hw]
        rfl
      · change (a.queue.pop noRes).1.toNat < n
        rw [hb]
        exact h.normal b (.head _)
  · exact ⟨l, h⟩

/-- The default owner lets the pending request or immediate request have the resource. -/
theorem Good.defaultRelease (h : Good n ⟨a, waiting⟩ l) :
    Good n ⟨(defaultRelease n a).2, waiting⟩ l := by
  have hw : waiting = owed a ++ l := h.waiting
  unfold ArbiterP.defaultRelease
  split
  · rename_i hres
    split
    · rename_i hgr
      exact ⟨h.queue, h.normal, h.waiting, h.nodup, h.controlled,
        fun _ => ⟨(h.granting hgr).1, .inl rfl⟩, h.immGranting, h.busy, fun _ => hgr, h.signalling⟩
    · split
      · rename_i himm
        have hsig : a.signalling = false := h.not_signalling (by rw [himm]; nofun)
        have hpost : a.posted = false := h.not_posted (by rw [himm]; nofun)
        refine ⟨h.queue, h.normal, ?_, h.nodup, nofun, nofun, nofun,
          fun _ => ⟨(h.immGranting himm).1, rfl⟩, fun hp => absurd (hpost.symm.trans hp) nofun,
          fun _ => rfl⟩
        rw [hw, owed, owed, hsig, himm]
        rfl
      · exact h
  · exact h

theorem Good.grantedTask (h : Good n ⟨a, waiting⟩ l) (hpost : a.posted = true) :
    Good n ⟨grantedTask a, waiting⟩ l := by
  have hgr : a.state = .granting := h.posted hpost
  have hw : waiting = owed a ++ l := h.waiting
  have hsig : a.signalling = false := h.not_signalling (by rw [hgr]; nofun)
  refine ⟨h.queue, h.normal, ?_, h.nodup, nofun, nofun, nofun, fun _ => ⟨(h.granting hgr).1, rfl⟩,
    nofun, fun _ => rfl⟩
  rw [hw, owed, hsig, hgr]
  rfl

/-- `granted` is signalled to the client who waits longest. -/
theorem Good.granted (h : Good n ⟨a, waiting⟩ l) (hsig : a.signalling = true) :
    waiting = a.resId :: l ∧ Good n ⟨{ a with signalling := false }, l⟩ l := by
  have hbusy : a.state = .busy := h.signalling hsig
  have hw : waiting = owed a ++ l := h.waiting
  rw [owed, hsig, hbusy] at hw
  have hw : waiting = a.resId :: l := hw
  have hnodup : waiting.Nodup := h.nodup
  rw [hw] at hnodup
  refine ⟨hw, h.queue, h.normal, ?_, (List.nodup_cons.1 hnodup).2, h.controlled, h.granting,
    h.immGranting, h.busy, h.posted, nofun⟩
  rw [owed, hbusy]
  rfl

theorem Good.step (hn : n ≤ 255) (h : Good n s l) (hfit : Fits s e)
    (hst : (machine n).step s e = some s') : Accepts s.impl e ∧ ∃ l', Good n s' l' := by
  obtain ⟨a, waiting⟩ := s
  cases e with
  | request id =>
    simp only [machine, ArbiterP.step] at hst
    split at hst
    · rename_i hid
      obtain rfl := Option.some.inj hst
      exact h.request hn hid hfit
    · cases hst
  | immediateRequest id =>
    simp only [machine, ArbiterP.step] at hst
    split at hst
    · rename_i hid
      obtain rfl := Option.some.inj hst
      exact ⟨nofun, l, h.immediateRequest hid⟩
    · cases hst
  | check id =>
    simp only [machine, ArbiterP.step] at hst
    split at hst
    · obtain rfl := Option.some.inj hst
      exact ⟨nofun, l, h.check⟩
    · cases hst
  | giveUp id =>
    simp only [machine, ArbiterP.step] at hst
    split at hst
    · obtain rfl := Option.some.inj hst
      exact ⟨nofun, l, h.giveUp hfit⟩
    · cases hst
  | release id =>
    obtain rfl := Option.some.inj hst
    exact ⟨nofun, h.release hfit⟩
  | defaultRelease =>
    obtain rfl := Option.some.inj hst
    exact ⟨nofun, l, h.defaultRelease⟩
  | grantedTask =>
    simp only [machine, ArbiterP.step] at hst
    split at hst
    · rename_i hpost
      obtain rfl := Option.some.inj hst
      exact ⟨nofun, l, h.grantedTask hpost.1⟩
    · cases hst
  | granted =>
    simp only [machine, ArbiterP.step] at hst
    split at hst
    · rename_i hsig
      obtain ⟨hw, hgood⟩ := h.granted hsig
      obtain rfl := Option.some.inj hst
      refine ⟨nofun, l, ?_⟩
      rw [hw, List.erase_cons_head]
      exact hgood
    · cases hst

/-! ## Everybody is served -/

/-- The releases of the owners and the task lead to a state in which nobody waits. -/
def Served (n : Nat) (s : State) : Prop :=
  (machine n).Leads (fun e => e.serves = true) (fun s => s.waiting = []) s

/-- Everybody is served from the states in which fewer than `k` clients wait. -/
def ServesBelow (n k : Nat) : Prop :=
  ∀ (s : State) (l : List UInt8), Good n s l → s.waiting.length < k → Served n s

theorem Good.served_signalling (ih : ServesBelow n waiting.length) (h : Good n ⟨a, waiting⟩ l)
    (hsig : a.signalling = true) : Served n ⟨a, waiting⟩ := by
  obtain ⟨rfl, hgood⟩ := h.granted hsig
  have hst : (machine n).step ⟨a, a.resId :: l⟩ .granted =
      some ⟨{ a with signalling := false }, l⟩ := by
    simp only [machine, ArbiterP.step, if_pos hsig, List.erase_cons_head]
  exact .step rfl hst (ih _ _ hgood (Nat.lt_succ_self _))

theorem Good.served_posted (ih : ServesBelow n waiting.length) (h : Good n ⟨a, waiting⟩ l)
    (hpost : a.posted = true) : Served n ⟨a, waiting⟩ := by
  have hgr : a.state = .granting := h.posted hpost
  have hsig : a.signalling = false := h.not_signalling (by rw [hgr]; nofun)
  have hst : (machine n).step ⟨a, waiting⟩ .grantedTask = some ⟨ArbiterP.grantedTask a, waiting⟩ :=
    if_pos ⟨hpost, hsig⟩
  exact .step rfl hst ((h.grantedTask hpost).served_signalling ih rfl)

theorem Good.served_granting (ih : ServesBelow n waiting.length)
    (h : Good n ⟨a, waiting⟩ l) (hgr : a.state = .granting) : Served n ⟨a, waiting⟩ := by
  rcases (h.granting hgr).2 with hpost | hres
  · exact h.served_posted ih hpost
  · have hrel : (ArbiterP.defaultRelease n a).2 = { a with posted := true } := by
      have hres : a.resId = defaultOwner n := hres
      simp only [ArbiterP.defaultRelease, if_pos hres, if_pos hgr]
    have hgood := h.defaultRelease
    rw [hrel] at hgood
    have hst : (machine n).step ⟨a, waiting⟩ .defaultRelease =
        some ⟨{ a with posted := true }, waiting⟩ := by
      rw [← hrel]
      rfl
    exact .step rfl hst (hgood.served_posted ih rfl)

theorem Good.served_busy (ih : ServesBelow n waiting.length) (h : Good n ⟨a, waiting⟩ l)
    (hbusy : a.state = .busy) : Served n ⟨a, waiting⟩ := by
  cases hsig : a.signalling with
  | true => exact h.served_signalling ih hsig
  | false =>
    have hw : waiting = owed a ++ l := h.waiting
    cases l with
    | nil =>
      rw [owed, hsig, hbusy] at hw
      exact .here hw
    | cons b l =>
      have hempty : isEmpty a.queue = false :=
        decide_eq_false fun hhead => nomatch h.queue.head_eq_no.1 hhead
      have hfit : Fits ⟨a, waiting⟩ (.release a.resId) := fun hc => by
        rw [hsig] at hc
        cases hc.1
      obtain ⟨l', hgood⟩ := h.release hfit
      refine .step (e := .release a.resId) rfl rfl (hgood.served_posted ih ?_)
      simp only [ArbiterP.release, hbusy, and_self, if_true, if_pos hempty]

theorem Good.served_immGranting (ih : ServesBelow n waiting.length)
    (h : Good n ⟨a, waiting⟩ l) (himm : a.state = .immGranting) : Served n ⟨a, waiting⟩ := by
  have hres : a.resId = defaultOwner n := (h.immGranting himm).2
  refine .step (e := .defaultRelease) rfl rfl ((h.defaultRelease).served_busy ih ?_)
  simp only [ArbiterP.defaultRelease, if_pos hres, himm, reduceCtorEq, if_false, if_true]

theorem Good.served (h : Good n s l) : Served n s := by
  suffices hall : ∀ k, ServesBelow n k from hall _ s l h (Nat.lt_succ_self _)
  intro k
  induction k with
  | zero => exact fun s l _ hk => absurd hk (Nat.not_lt_zero _)
  | succ k ih =>
    rintro ⟨a, waiting⟩ l h hk
    have ih : ServesBelow n waiting.length :=
      fun s l hs hlt => ih s l hs (Nat.lt_of_lt_of_le hlt (Nat.le_of_lt_succ hk))
    cases hst : a.state with
    | controlled =>
      have hw : waiting = owed a ++ l := h.waiting
      have hsig : a.signalling = false := h.not_signalling (by rw [hst]; nofun)
      rw [(h.controlled hst).1, owed, hsig, hst] at hw
      exact .here hw
    | granting => exact h.served_granting ih hst
    | immGranting => exact h.served_immGranting ih hst
    | busy => exact h.served_busy ih hst

theorem Good.to_kept (hn : n ≤ 255) (h : Good n s l) : Kept n s where
  waits id hid := by
    rw [h.waiting, owed] at hid
    rcases List.mem_append.1 hid with hid | hid
    · rcases List.mem_append.1 hid with hid | hid
      · split at hid
        · rename_i hsig
          exact .inr (.inr ⟨hsig, (List.mem_singleton.1 hid).symm⟩)
        · cases hid
      · split at hid
        · rename_i hgr
          exact .inr (.inl ⟨hgr, (List.mem_singleton.1 hid).symm⟩)
        · cases hid
    · exact .inl ((h.queue.waiting_iff (ne_noRes hn (h.normal id hid))).2 hid)
  controlled hctl := by
    obtain ⟨rfl, hres⟩ := h.controlled hctl
    exact ⟨decide_eq_true (h.queue.head_eq_no.2 rfl), hres⟩
  served := by
    obtain ⟨es, h', s', hes, hexec, hw⟩ := h.served []
    exact ⟨es, h', s', hes, hexec, hw⟩

/-- **No request is lost**, in the runs that avoid the defects. -/
theorem kept {h : List (State × Event)} (hn : n ≤ 255) (hr : (machine n).Run h s)
    (hfit : ∀ p ∈ h, Fits p.1 p.2) :
    Kept n s ∧ ∀ p ∈ h, Kept n p.1 ∧ Accepts p.1.impl p.2 := by
  suffices (∃ l, Good n s l) ∧ ∀ p ∈ h, Kept n p.1 ∧ Accepts p.1.impl p.2 by
    obtain ⟨⟨l, hgood⟩, hh⟩ := this
    exact ⟨hgood.to_kept hn, hh⟩
  induction hr with
  | init hs => exact ⟨⟨[], hs ▸ good_init⟩, nofun⟩
  | step hr hst ih =>
    obtain ⟨hfit, hrest⟩ := List.forall_mem_cons.1 hfit
    obtain ⟨⟨l, hgood⟩, hh⟩ := ih hrest
    obtain ⟨hacc, hgood'⟩ := hgood.step hn hfit hst
    exact ⟨hgood', List.forall_mem_cons.2 ⟨⟨hgood.to_kept hn, hacc⟩, hh⟩⟩

/-- The clients 1 and 2 wait for the client 0, who got the resource by an immediate request. -/
theorem kept_immediate : ∃ h s, (machine 3).Run h s ∧ s.waiting = [1, 2] ∧ Kept 3 s ∧
    ∀ p ∈ h, Kept 3 p.1 ∧ Accepts p.1.impl p.2 := by
  obtain ⟨h, s, hr, hp⟩ := Machine.exists_run_of_exec (M := machine 3) (s := ⟨init 3, []⟩) rfl
    [.immediateRequest 0, .defaultRelease, .request 1, .check 0, .request 2]
    (fun h s => s.waiting = [1, 2] && h.all fun p => Fits p.1 p.2) (by decide)
  simp only [Bool.and_eq_true, decide_eq_true_eq, List.all_eq_true] at hp
  exact ⟨h, s, hr, hp.1, kept (by decide) hr hp.2⟩

/-- The owner's second request returns `SUCCESS` and is lost. An immediate request that gives up
leaves the client 1, who asked in between, in the queue of a resource nobody owns. -/
theorem not_kept :
    (∃ h s, (machine 1).Run h s ∧ ¬ Accepts s.impl (.request 0)) ∧
    ∃ h s, (machine 2).Run h s ∧ ¬ Kept 2 s := by
  constructor
  · obtain ⟨h, s, hr, hp⟩ := Machine.exists_run_of_exec (M := machine 1) (s := ⟨init 1, []⟩) rfl
      [.request 0, .defaultRelease, .grantedTask, .granted]
      (fun _ s => (request s.impl 0).1 = .success &&
        (!isEnqueued (request s.impl 0).2.queue 0 && (request s.impl 0).2.state = .busy))
      (by decide)
    simp only [Bool.and_eq_true, Bool.not_eq_true', decide_eq_true_eq] at hp
    obtain ⟨hsucc, hqueue, hbusy⟩ := hp
    refine ⟨h, s, hr, fun hacc => ?_⟩
    rcases hacc 0 rfl hsucc with hq | hgr
    · exact absurd (hqueue.symm.trans hq) nofun
    · exact absurd (hbusy.symm.trans hgr.1) nofun
  · obtain ⟨h, s, hr, hp⟩ := Machine.exists_run_of_exec (M := machine 2) (s := ⟨init 2, []⟩) rfl
      [.immediateRequest 0, .request 1, .check 0, .giveUp 0]
      (fun _ s => s.impl.state = .controlled && !isEmpty s.impl.queue) (by decide)
    simp only [Bool.and_eq_true, Bool.not_eq_true', decide_eq_true_eq] at hp
    refine ⟨h, s, hr, fun hkept => ?_⟩
    exact absurd (hp.2.symm.trans (hkept.controlled hp.1).1) nofun

end ArbiterP
