import Backip.System.FcfsPriorityArbiterC

/-!
# Grants match requests

* `rightful`: in the runs of `FcfsPriorityArbiterC` that avoid its two defects (`Fits`), each client
  that is granted the resource has asked for it since its last grant, no one owns it then, and the
  normal clients are granted it in the order in which their requests were accepted.
-/

set_option autoImplicit false

namespace FcfsPriorityArbiterC

variable {n : Nat} {s s' : State} {e : Event} {a : Arbiter} {id : UInt8} {log : List Call}
  {l : List UInt8}

theorem toNat_low (hn : n ≤ 252) : (low n).toNat = n + 1 := by
  rw [low, UInt8.toNat_ofNat']
  omega

theorem toNat_high (hn : n ≤ 252) : (high n).toNat = n + 2 := by
  rw [high, UInt8.toNat_ofNat']
  omega

theorem toNat_noRes : noRes.toNat = 255 := rfl

/-! ## The invariant -/

/-- The normal client whose grant is pending. -/
def pending (n : Nat) (a : Arbiter) : List UInt8 :=
  if a.state = .granting ∧ a.reqResId.toNat < n then [a.reqResId] else []

/-- What ties the arbiter to the log. -/
structure Good (n : Nat) (s : State) (l : List UInt8) : Prop where
  queue : s.impl.queue.Represents noRes l
  normal : ∀ id ∈ l, id.toNat < n
  fifo : accepted n s.log = granted n s.log ++ pending n s.impl ++ l
  posted : s.impl.posted = true ↔ s.impl.state = .granting
  grants : s.impl.state = .granting → s.impl.reqResId.toNat < n ∨
    (s.impl.reqResId = low n ∨ s.impl.reqResId = high n) ∧
      asked s.impl.reqResId s.log = true
  owner : s.impl.state ≠ .busy → s.impl.resId = noRes
  hpreq : s.impl.hpreq = true →
    asked (high n) s.log = true ∨ s.impl.state = .busy ∧ s.impl.resId = high n
  irp : s.impl.irp = false
  waiting : ∀ id, .request id ∈ s.impl.frames → id.toNat < n

theorem Good.to_rightful (h : Good n s l) : Rightful n s := by
  refine ⟨?_, fun hp => ?_⟩
  · rw [h.fifo, List.append_assoc]
    exact List.prefix_append _ _
  · have hg := h.posted.1 hp
    refine ⟨by rw [hg]; nofun, (h.grants hg).imp_left fun hnum => ⟨hnum, ?_⟩⟩
    have hpend : pending n s.impl = [s.impl.reqResId] := if_pos ⟨hg, hnum⟩
    rw [h.fifo, hpend]
    exact List.prefix_append _ _

theorem good_init : Good n ⟨init, []⟩ [] where
  queue := LinkedQueue.represents_empty noRes
  normal := nofun
  fifo := rfl
  posted := by simp [init]
  grants := nofun
  owner _ := rfl
  hpreq := nofun
  irp := rfl
  waiting := nofun

/-! ## The steps -/

/-- The step avoids the two defects: no request finds the arbiter idle while others wait, and the
client of high priority has asked again when it releases the resource with `hpreq` set. -/
def Fits (n : Nat) (s : State) : Event → Prop
  | .request _ => s.impl.state = .idle → s.impl.queue.head = noRes
  | .release id => s.impl.state = .busy → s.impl.resId = id → id = high n → s.impl.hpreq = true →
    asked (high n) s.log = true
  | _ => True

instance (n : Nat) (s : State) : (e : Event) → Decidable (Fits n s e)
  | .request _ => inferInstanceAs (Decidable (_ → _))
  | .release _ => inferInstanceAs (Decidable (_ → _))
  | .lowRequest | .highRequest | .resume | .grantedTask => inferInstanceAs (Decidable True)

theorem not_low_lt (hn : n ≤ 252) : ¬ (low n).toNat < n := by
  rw [toNat_low hn]
  omega

theorem not_high_lt (hn : n ≤ 252) : ¬ (high n).toNat < n := by
  rw [toNat_high hn]
  omega

theorem ne_noRes (hn : n ≤ 252) (hid : id.toNat < n + 3) : id ≠ noRes := by
  rintro rfl
  rw [toNat_noRes] at hid
  omega

theorem asked_accepted {i : UInt8} (h : asked i log = true) :
    asked i (.accepted id :: log) = true := by
  rw [asked, h, Bool.or_true]

theorem asked_self : asked id (.accepted id :: log) = true := by
  rw [asked, decide_eq_true rfl, Bool.true_or]

theorem pending_of_ne (h : a.state ≠ .granting) : pending n a = [] :=
  if_neg fun hg => h hg.1

theorem pending_of_not_lt (h : ¬ a.reqResId.toNat < n) : pending n a = [] :=
  if_neg fun hg => h hg.2

/-- A normal client is granted the idle resource. -/
theorem Good.grant_normal (h : Good n ⟨a, log⟩ l) (hidle : a.state = .idle) (hid : id.toNat < n)
    (hempty : a.queue.head = noRes) : Good n ⟨grant a id, .accepted id :: log⟩ l := by
  obtain rfl : l = [] := h.queue.head_eq_no.1 hempty
  refine ⟨h.queue, h.normal, ?_, iff_of_true rfl rfl, fun _ => .inl hid, fun _ => ?_, fun hp => ?_,
    h.irp, h.waiting⟩
  · have hpend : pending n (grant a id) = [id] := if_pos ⟨rfl, hid⟩
    have hfifo := h.fifo
    rw [pending_of_ne (by rw [hidle]; nofun), List.append_nil, List.append_nil] at hfifo
    simp only [accepted, granted, if_pos hid, hpend, hfifo, List.append_nil]
  · exact h.owner (by rw [hidle]; nofun)
  · left
    exact asked_accepted ((h.hpreq hp).resolve_right fun hb => by rw [hidle] at hb; cases hb.1)

/-- The client of low or of high priority is granted the idle resource. -/
theorem Good.grant_prio (h : Good n ⟨a, log⟩ l) (hidle : a.state = .idle)
    (hid : ¬ id.toNat < n) (hprio : id = low n ∨ id = high n) {hpreq : Bool}
    (hhp : hpreq = true → a.hpreq = true ∨ id = high n) :
    Good n ⟨grant { a with hpreq := hpreq } id, .accepted id :: log⟩ l := by
  refine ⟨h.queue, h.normal, ?_, iff_of_true rfl rfl, fun _ => .inr ⟨hprio, ?_⟩, fun _ => ?_,
    fun hp => .inl ?_, h.irp, h.waiting⟩
  · have hfifo := h.fifo
    rw [pending_of_ne (by rw [hidle]; nofun)] at hfifo
    rw [pending_of_not_lt (show ¬ (grant { a with hpreq := hpreq } id).reqResId.toNat < n from hid)]
    simpa only [accepted, granted, if_neg hid] using hfifo
  · exact asked_self
  · exact h.owner (by rw [hidle]; nofun)
  · rcases hhp hp with hp | rfl
    · exact asked_accepted ((h.hpreq hp).resolve_right fun hb => by rw [hidle] at hb; cases hb.1)
    · exact asked_self

/-- The end of a request in the queue. -/
theorem Good.queueRequest (hn : n ≤ 252) (h : Good n ⟨a, log⟩ l) (hid : id.toNat < n) :
    ∃ l', Good n (.ends log id (queueRequest a id).1 (queueRequest a id).2) l' := by
  have hwait := h.queue.waiting_iff (ne_noRes hn (by omega) : id ≠ noRes)
  by_cases hmem : id ∈ l
  · have hreq : requested a id = true := hwait.2 hmem
    simp only [FcfsPriorityArbiterC.queueRequest, hreq, State.ends]
    exact ⟨l, h⟩
  · have hreq : requested a id = false := by
      rw [Bool.eq_false_iff]
      exact fun hr => hmem (hwait.1 hr)
    have hq : FcfsPriorityArbiterC.queueRequest a id =
        (.success, { a with queue := a.queue.push noRes id }) := by
      simp only [FcfsPriorityArbiterC.queueRequest, hreq, Bool.not_false, if_true]
    rw [hq]
    refine ⟨l ++ [id], h.queue.push (ne_noRes hn (by omega)) hmem, fun i hi => ?_, ?_, h.posted,
      fun hg => ?_, h.owner, fun hp => ?_, h.irp, h.waiting⟩
    · rcases List.mem_append.1 hi with hi | hi
      · exact h.normal i hi
      · obtain rfl := List.mem_singleton.1 hi
        exact hid
    · have hfifo := h.fifo
      simp only [State.ends, if_true, accepted, granted, if_pos hid]
      rw [hfifo, List.append_assoc]
      rfl
    · exact (h.grants hg).imp_right fun ⟨hprio, hasked⟩ => ⟨hprio, asked_accepted hasked⟩
    · exact (h.hpreq hp).imp_left asked_accepted

/-- The client that owns the resource gives it on. -/
theorem Good.grantNextRequest (hn : n ≤ 252) (h : Good n ⟨a, log⟩ l) (hbusy : a.state = .busy)
    (hfit : a.resId = high n → a.hpreq = true → asked (high n) log = true) :
    ∃ l', Good n ⟨grantNextRequest n a, log⟩ l' := by
  have hfifo := h.fifo
  rw [pending_of_ne (by rw [hbusy]; nofun), List.append_nil] at hfifo
  have hhigh : (noRes != high n) = true := by
    rw [bne_iff_ne]
    exact (ne_noRes hn (by rw [toNat_high hn]; omega)).symm
  cases hp : a.hpreq with
  | true =>
    have hnext : FcfsPriorityArbiterC.grantNextRequest n a =
        grant { a with resId := noRes, hpreq := false } (high n) := by
      simp only [FcfsPriorityArbiterC.grantNextRequest, hp, hhigh, Bool.and_self, if_true]
    have hasked : asked (high n) log = true :=
      (h.hpreq hp).elim id fun hb => hfit hb.2 hp
    rw [hnext]
    refine ⟨l, h.queue, h.normal, ?_, iff_of_true rfl rfl, fun _ => .inr ⟨.inr rfl, hasked⟩,
      fun _ => rfl, nofun, h.irp, h.waiting⟩
    rw [pending_of_not_lt (not_high_lt hn), List.append_nil]
    exact hfifo
  | false =>
    cases l with
    | nil =>
      have hhead : a.queue.head = noRes := h.queue.head_eq_no.2 rfl
      have hnext : FcfsPriorityArbiterC.grantNextRequest n a =
          { a with resId := noRes, state := .idle } := by
        simp [FcfsPriorityArbiterC.grantNextRequest, hp, hhead]
      rw [hnext]
      have hpend : pending n { a with resId := noRes, state := .idle } = [] := pending_of_ne nofun
      refine ⟨[], h.queue, h.normal, ?_, ?_, nofun, fun _ => rfl, fun hp' => ?_, h.irp, h.waiting⟩
      · rw [hpend, List.append_nil]
        exact hfifo
      · refine iff_of_false (fun hposted => ?_) nofun
        have hgranting := h.posted.1 hposted
        rw [hbusy] at hgranting
        cases hgranting
      · exact absurd (hp.symm.trans hp') nofun
    | cons id l =>
      have hhead : a.queue.head ≠ noRes := fun hh => nomatch h.queue.head_eq_no.1 hh
      obtain ⟨hid, hl⟩ := h.queue.pop_cons
      have hnext : FcfsPriorityArbiterC.grantNextRequest n a =
          grant { a with resId := noRes, queue := (a.queue.pop noRes).2 } id := by
        simp only [FcfsPriorityArbiterC.grantNextRequest, hp, Bool.false_and, Bool.false_eq_true,
          if_false, hhead, ne_eq, not_false_eq_true, if_true, hid]
      have hnum := h.normal id (.head _)
      rw [hnext]
      refine ⟨l, hl, fun i hi => h.normal i (.tail _ hi), ?_, iff_of_true rfl rfl,
        fun _ => .inl hnum, fun _ => rfl, fun hp' => absurd (hp.symm.trans hp') nofun, h.irp, h.waiting⟩
      have hpend : pending n (grant { a with resId := noRes, queue := (a.queue.pop noRes).2 } id) =
          [id] := if_pos ⟨rfl, hnum⟩
      rw [hpend, List.append_assoc]
      exact hfifo

theorem Good.release (hn : n ≤ 252) (h : Good n ⟨a, log⟩ l)
    (hfit : a.state = .busy → a.resId = id → id = high n → a.hpreq = true →
      asked (high n) log = true) : ∃ l', Good n ⟨release n a id, log⟩ l' := by
  unfold FcfsPriorityArbiterC.release
  split
  · rename_i hown
    rw [if_neg (by rw [h.irp]; nofun)]
    exact h.grantNextRequest hn hown.1 fun hhigh => hfit hown.1 hown.2 (hown.2 ▸ hhigh)
  · exact ⟨l, h⟩

theorem Good.highRequestTail (hn : n ≤ 252) (h : Good n ⟨a, log⟩ l) :
    Good n ⟨highRequestTail n a, .accepted (high n) :: log⟩ l := by
  unfold FcfsPriorityArbiterC.highRequestTail
  dsimp only
  split
  · rename_i hidle
    exact h.grant_prio hidle (not_high_lt hn) (.inr rfl) fun _ => .inr rfl
  · refine ⟨h.queue, h.normal, ?_, h.posted, fun hg => ?_, h.owner, fun _ => .inl asked_self, h.irp,
      h.waiting⟩
    · simp only [accepted, granted, if_neg (not_high_lt hn)]
      exact h.fifo
    · exact (h.grants hg).imp_right fun ⟨hprio, hasked⟩ => ⟨hprio, asked_accepted hasked⟩

/-- The pending grant. -/
theorem Good.grantedTask (h : Good n ⟨a, log⟩ l) (hposted : a.posted = true) :
    Good n ⟨(grantedTask a).2, .granted (grantedTask a).1 :: log⟩ l := by
  have hg : a.state = .granting := h.posted.1 hposted
  have hfifo := h.fifo
  refine ⟨h.queue, h.normal, ?_, ?_, nofun, fun hb => absurd rfl hb, fun hp => ?_, h.irp, h.waiting⟩
  · have hpend : pending n (FcfsPriorityArbiterC.grantedTask a).2 = [] := pending_of_ne nofun
    change accepted n log = (if a.reqResId.toNat < n then granted n log ++ [a.reqResId]
      else granted n log) ++ pending n (FcfsPriorityArbiterC.grantedTask a).2 ++ l
    rw [hpend, List.append_nil]
    by_cases hid : a.reqResId.toNat < n
    · have hpend : pending n a = [a.reqResId] := if_pos ⟨hg, hid⟩
      rw [hpend] at hfifo
      rw [if_pos hid]
      exact hfifo
    · rw [pending_of_not_lt hid, List.append_nil] at hfifo
      rw [if_neg hid]
      exact hfifo
  · exact iff_of_false nofun nofun
  · by_cases hhigh : a.reqResId = high n
    · exact .inr ⟨rfl, hhigh⟩
    · left
      have hasked : asked (high n) log = true :=
        (h.hpreq hp).resolve_right fun hb => by rw [hg] at hb; cases hb.1
      simp only [asked, FcfsPriorityArbiterC.grantedTask, hasked, Bool.and_true]
      exact decide_eq_true hhigh

theorem Good.frames {frames : List Frame} (h : Good n ⟨a, log⟩ l)
    (hframes : ∀ id, .request id ∈ frames → id.toNat < n) :
    Good n ⟨{ a with frames := frames }, log⟩ l :=
  ⟨h.queue, h.normal, h.fifo, h.posted, h.grants, h.owner, h.hpreq, h.irp, hframes⟩

theorem Good.step (hn : n ≤ 252) (h : Good n s l) (hfit : Fits n s e)
    (hst : (machine n).step s e = some s') : ∃ l', Good n s' l' := by
  obtain ⟨a, log⟩ := s
  cases e with
  | request id =>
    simp only [machine, FcfsPriorityArbiterC.step] at hst
    split at hst
    · rename_i hid
      obtain rfl := Option.some.inj hst
      unfold request
      split
      · rename_i hidle
        exact ⟨l, h.grant_normal hidle hid (hfit hidle)⟩
      · split
        · refine ⟨l, h.frames fun i hi => ?_⟩
          rcases List.mem_cons.1 hi with hi | hi
          · cases hi
            exact hid
          · exact h.waiting i hi
        · exact h.queueRequest hn hid
    · cases hst
  | lowRequest =>
    obtain rfl := Option.some.inj hst
    unfold FcfsPriorityArbiterC.lowRequest
    split
    · rename_i hidle
      exact ⟨l, h.grant_prio hidle.1 (not_low_lt hn) (.inl rfl) .inl⟩
    · exact ⟨l, h⟩
  | highRequest =>
    obtain rfl := Option.some.inj hst
    unfold FcfsPriorityArbiterC.highRequest
    split
    · refine ⟨l, h.frames fun i hi => ?_⟩
      exact h.waiting i ((List.mem_cons.1 hi).resolve_left nofun)
    · exact ⟨l, h.highRequestTail hn⟩
  | resume =>
    simp only [machine, FcfsPriorityArbiterC.step] at hst
    split at hst
    · cases hst
    · rename_i id frames hframes
      obtain rfl := Option.some.inj hst
      have hwaiting : ∀ i, .request i ∈ a.frames → i.toNat < n := h.waiting
      rw [hframes] at hwaiting
      have hrest := h.frames fun i hi => hwaiting i (.tail _ hi)
      exact hrest.queueRequest hn (hwaiting id (.head _))
    · rename_i frames hframes
      obtain rfl := Option.some.inj hst
      have hwaiting : ∀ i, .request i ∈ a.frames → i.toNat < n := h.waiting
      rw [hframes] at hwaiting
      have hrest := h.frames fun i hi => hwaiting i (.tail _ hi)
      exact ⟨l, hrest.highRequestTail hn⟩
  | release id =>
    obtain rfl := Option.some.inj hst
    exact h.release hn hfit
  | grantedTask =>
    simp only [machine, FcfsPriorityArbiterC.step] at hst
    split at hst
    · rename_i hposted
      obtain rfl := Option.some.inj hst
      exact ⟨l, h.grantedTask hposted.1⟩
    · cases hst

/-- **Grants match requests**, in the runs that avoid the two defects. -/
theorem rightful {h : List (State × Event)} (hn : n ≤ 252) (hr : (machine n).Run h s)
    (hfit : ∀ p ∈ h, Fits n p.1 p.2) : Rightful n s ∧ ∀ p ∈ h, Rightful n p.1 := by
  obtain ⟨⟨l, hgood⟩, hh⟩ := hr.inv_of_steps (P := fun s => ∃ l, Good n s l) (C := Fits n)
    (fun s (hs : s = ⟨init, []⟩) => ⟨[], hs ▸ good_init⟩) (fun s e s' ⟨l, hl⟩ hfit hst => hl.step hn hfit hst) hfit
  refine ⟨hgood.to_rightful, fun p hp => ?_⟩
  obtain ⟨l, hl⟩ := hh p hp
  exact hl.to_rightful

/-- The client 1 waits for the client 0; the one of high priority asks while 0 owns. -/
theorem rightful_release : ∃ h s, (machine 2).Run h s ∧ s.impl.posted = true ∧
    s.impl.reqResId = high 2 ∧ Rightful 2 s ∧ ∀ p ∈ h, Rightful 2 p.1 := by
  obtain ⟨h, s, hr, hp⟩ := Machine.exists_run_of_exec (M := machine 2) (s := ⟨init, []⟩) rfl
    [.request 0, .request 1, .grantedTask, .highRequest, .release 0]
    (fun h s => s.impl.posted && s.impl.reqResId = high 2 && h.all fun p => Fits 2 p.1 p.2)
    (by decide)
  simp only [Bool.and_eq_true, decide_eq_true_eq, List.all_eq_true] at hp
  exact ⟨h, s, hr, hp.1.1, hp.1.2, rightful (by decide) hr hp.2⟩

/-- The client of high priority is granted the idle resource, releases it, and is granted it again
without a request. When the owner of low priority releases it while `requested` is being handled,
the client 0 is queued, and the client 1, who asks next, is granted it before. -/
theorem not_rightful :
    (∃ h s, (machine 2).Run h s ∧ ¬ Rightful 2 s) ∧
    ∃ h s, (machine 2).Run h s ∧ accepted 2 s.log = [0, 1] ∧ granted 2 s.log = [1] := by
  constructor
  · obtain ⟨h, s, hr, hp⟩ := Machine.exists_run_of_exec (M := machine 2) (s := ⟨init, []⟩) rfl
      [.highRequest, .grantedTask, .release (high 2)]
      (fun _ s => s.impl.posted && !decide (s.impl.reqResId.toNat < 2) &&
        !asked s.impl.reqResId s.log) (by decide)
    simp only [Bool.and_eq_true, Bool.not_eq_true', decide_eq_false_iff_not] at hp
    obtain ⟨⟨hposted, hnormal⟩, hasked⟩ := hp
    refine ⟨h, s, hr, fun hright => ?_⟩
    rcases (hright.2 hposted).2 with hlt | hprio
    · exact hnormal hlt.1
    · rw [hasked] at hprio
      cases hprio.2
  · obtain ⟨h, s, hr, hp⟩ := Machine.exists_run_of_exec (M := machine 2) (s := ⟨init, []⟩) rfl
      [.lowRequest, .grantedTask, .request 0, .release (low 2), .resume, .request 1, .grantedTask]
      (fun _ s => accepted 2 s.log = [0, 1] && granted 2 s.log = [1]) (by decide)
    simp only [Bool.and_eq_true, decide_eq_true_eq] at hp
    exact ⟨h, s, hr, hp.1, hp.2⟩

end FcfsPriorityArbiterC
