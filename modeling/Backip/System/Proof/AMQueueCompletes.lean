import Backip.System.Proof.AMQueue

/-!
# Accepted packets are completed

The ends of handlers lead to an idle state (`served_of_idle`). From there `CancelTask` completes a
cancelled packet, and each completion by `AMSend` or `errorTask` brings the turn of another packet
nearer (`toward`).

* `completes`: what holds in every state of every run.
-/

set_option autoImplicit false

namespace AMQueueImplP

open PartialMap

variable {Msg : Type} [DecidableEq Msg] {n c : Nat} {s s' : State Msg} {x : Accepted Msg}

/-- The tasks and `AMSend` lead to the completion of the packet of `c`. -/
def Served (n c : Nat) (s : State Msg) : Prop :=
  (machine n).Leads (fun e => e.ofSource = true) (fun s => s.accepted c = none) s

/-- The state after a step. -/
def after (s : State Msg) (e : Event Msg) (r : Result Msg × Context) : State Msg :=
  ⟨r.1.next, r.2, account (accept s e r.1) r.1⟩

theorem served_of_react {e : Event Msg} {r : Result Msg × Context} (he : e.ofSource = true)
    (hr : react n s e = some r) (h : Served n c (after s e r)) : Served n c s :=
  .step he (show step n s e = some (after s e r) by rw [step, hr]; rfl) h

/-! ## `CancelTask` -/

/-- `CancelTask`, at the bit `next`, completes a cancelled packet behind. -/
theorem served_of_cancelLoop (h : Good n s) {next : Nat} {cancelPosted : Bool}
    (hposted : ∀ c y, s.accepted c = some y → y.cancelled = true → cancelPosted = true ∨ next ≤ c)
    (hx : s.accepted c = some x) (hyes : x.cancelled = true) (hle : next ≤ c) :
    Served n c ⟨(cancelLoop n { s.impl with cancelPosted } next).next,
      cancelContext (cancelLoop n { s.impl with cancelPosted } next),
      account s.accepted (cancelLoop n { s.impl with cancelPosted } next)⟩ := by
  induction hk : c + 1 - next using Nat.strongRecOn generalizing next s cancelPosted with
  | ind k ih =>
    have hgood := (h.cancelLoop next cancelPosted hposted).good
    rcases cancelLoop_spec n { s.impl with cancelPosted } next with
      ⟨last, hnext, hget, hfirst, heq⟩ | ⟨hnone, -⟩
    · rw [heq] at hgood ⊢
      have hlast : last ≤ c := hfirst c hle (h.get_of_cancelled hx hyes)
      rcases Nat.eq_or_lt_of_le hlast with rfl | hlt
      · exact .here (Function.update_self _ _ _)
      · refine served_of_react (e := .handled) rfl rfl ?_
        refine ih (c + 1 - (last + 1)) (by omega) hgood (fun d y hy hyes' => ?_) ?_ hlt rfl
        · refine (hgood.posted d y hy hyes').imp_right fun ⟨k, hk, hle'⟩ => ?_
          cases hk
          exact hle'
        · exact (Function.update_of_ne (Nat.ne_of_gt hlt) _ _).trans hx
    · have hfalse := hnone c (h.bound c x hx) hle
      cases (h.get_of_cancelled hx hyes).symm.trans hfalse

/-! ## Up to an idle state -/

/-- What the ends of handlers leave of a state: they may complete cancelled packets. -/
structure Settled (c : Nat) (s s' : State Msg) : Prop where
  idle : s'.context = .idle
  current : s'.impl.current = s.impl.current
  accepted : s'.accepted c = s.accepted c

theorem settle_loop (hn : n < 256) {k next : Nat} (h : Good n s)
    (hcontext : s.context = .cancelTask next) (hk : n - next = k)
    (hserved : ∀ s', Good n s' → Settled c s s' → Served n c s') : Served n c s := by
  induction k using Nat.strongRecOn generalizing next s with
  | ind k ih =>
    have hreact : react n s .handled =
        some (cancelLoop n s.impl next, cancelContext (cancelLoop n s.impl next)) := by
      simp only [react, hcontext]
    have hgood : Good n (after s .handled
        (cancelLoop n s.impl next, cancelContext (cancelLoop n s.impl next))) :=
      (h.react hn hreact).good
    refine served_of_react rfl hreact ?_
    rcases cancelLoop_spec n s.impl next with ⟨last, hnext, hget, -, heq⟩ | ⟨-, heq⟩
    · rw [heq] at hgood ⊢
      obtain ⟨y, hy, -⟩ := h.of_get hget
      have hlast := h.bound last y hy
      by_cases hc : c = last
      · subst hc
        exact .here (Function.update_self _ _ _)
      · refine ih (n - (last + 1)) (by omega) hgood rfl rfl
          fun s' hgood' hsettled => hserved s' hgood' ?_
        exact ⟨hsettled.idle, hsettled.current,
          hsettled.accepted.trans (Function.update_of_ne hc _ _)⟩
    · rw [heq] at hgood ⊢
      exact hserved _ hgood ⟨rfl, rfl, rfl⟩

/-- The handlers end. -/
theorem settle (hn : n < 256) (h : Good n s)
    (hserved : ∀ s', Good n s' → Settled c s s' → Served n c s') : Served n c s := by
  cases hcontext : s.context with
  | idle => exact hserved s h ⟨hcontext, rfl, rfl⟩
  | handler =>
    have hreact : react n s .handled = some (⟨.success, none, none, s.impl⟩, .idle) := by
      simp only [react, hcontext]
    exact served_of_react rfl hreact (hserved _ (h.react hn hreact).good ⟨rfl, rfl, rfl⟩)
  | cancelTask next => exact settle_loop hn h hcontext rfl hserved

/-! ## Any state -/

theorem served_of_cancelled (hn : n < 256) (h : Good n s) (hx : s.accepted c = some x)
    (hyes : x.cancelled = true) : Served n c s := by
  refine settle hn h fun s' hgood hsettled => ?_
  have hx' : s'.accepted c = some x := hsettled.accepted.trans hx
  have hposted := hgood.cancelPosted hsettled.idle c x hx' hyes
  refine served_of_react (e := .cancelTask) rfl (if_pos ⟨hsettled.idle, hposted⟩) ?_
  exact served_of_cancelLoop hgood (fun _ _ _ _ => .inr (Nat.zero_le _)) hx' hyes (Nat.zero_le c)

omit [DecidableEq Msg] in
/-- The client that is signalled is owed nothing more; the others are owed what they were. -/
theorem account_of_signal (accepted : Nat → Option (Accepted Msg)) {r : Result Msg} {d : Nat}
    {msg : Option Msg} {err : TinyError} (hsig : r.signal = some (d, msg, err)) :
    account accepted r d = none ∧ ∀ c x, c ≠ d → accepted c = some x →
      ∃ z, account accepted r c = some z ∧ z.cancelled = x.cancelled := by
  unfold account
  rw [hsig]
  refine ⟨Function.update_self _ _ _, fun c x hc hx => ?_⟩
  dsimp only
  rw [Function.update_of_ne hc]
  cases r.handed with
  | none => exact ⟨x, hx, rfl⟩
  | some handed =>
    dsimp only
    rw [hx]
    exact ⟨_, rfl, rfl⟩

/-- The current packet is completed, and the turn of the others is nearer. -/
theorem served_of_done (hn : n < 256) (h : Good n s) (hidle : s.context = .idle)
    (hcur : s.impl.current < n)
    (hserved : ∀ s' : State Msg, Good n s' → s'.accepted s.impl.current = none →
      (∀ d y, s.accepted d = some y → y.cancelled = false → d ≠ s.impl.current →
        toward n d s'.impl.current < toward n d s.impl.current ∧
        ∃ z, s'.accepted d = some z ∧ z.cancelled = false) → Served n c s') :
    Served n c s := by
  obtain ⟨x, hx, hcase⟩ := h.busy hcur
  have hdone : ∀ err, Done n s x err (sendDone n
      { s.impl with outstanding := [], errorPosted := false } s.impl.current (some x.msg) err
      .success) := fun err => h.sendDone hn hidle hcur hx err .success
  have hnext : ∀ err (e : Event Msg) (r : Result Msg), (∀ r, accept s e r = s.accepted) →
      e.ofSource = true → react n s e = some (r, doneContext r) → Done n s x err r →
      Served n c s := by
    intro err e r he hsource hreact hdone
    obtain ⟨hnone, hothers⟩ := account_of_signal s.accepted hdone.signal
    have hgood := (hdone.keeps hx he).good
    refine served_of_react hsource hreact (hserved _ hgood ?_ fun d y hy hno hd => ?_)
    · rw [← he r] at hnone
      exact hnone
    · obtain ⟨z, hz, hcancelled⟩ := hothers d y hd hy
      refine ⟨hdone.turn d y hy hno hd, z, ?_, hcancelled.trans hno⟩
      rw [← he r] at hz
      exact hz
  rcases hcase with ⟨hout, hno⟩ | ⟨hout, hyes⟩
  · refine hnext .success (.amSendDone x.msg .success .success) _ (fun _ => rfl) rfl ?_
      (hdone .success)
    rw [← h.amSendDone_eq hcur hx hout hno]
    exact if_pos ⟨hidle, by rw [hout]; exact List.mem_singleton.2 rfl⟩
  · refine hnext .fail (.errorTask .success) _ (fun _ => rfl) rfl ?_ (hdone .fail)
    rw [← h.errorTask_eq hx hout]
    exact if_pos ⟨hidle, hyes⟩

theorem served_of_good (hn : n < 256) (h : Good n s) : Served n c s := by
  cases hx : s.accepted c with
  | none => exact .here hx
  | some x =>
    by_cases hyes : x.cancelled = true
    · exact served_of_cancelled hn h hx hyes
    · have hno : x.cancelled = false := Bool.eq_false_iff.2 hyes
      induction hk : toward n c s.impl.current using Nat.strongRecOn generalizing s x with
      | ind k ih =>
        refine settle hn h fun s' hgood hsettled => ?_
        have hx' : s'.accepted c = some x := hsettled.accepted.trans hx
        have hcur : s'.impl.current < n := Nat.lt_of_le_of_ne hgood.current_le fun hfree =>
          hyes ((hgood.free hfree).2.2 c x hx')
        refine served_of_done hn hgood hsettled.idle hcur fun s'' hgood' hnone hothers => ?_
        by_cases hc : c = s'.impl.current
        · exact .here (hc ▸ hnone)
        · obtain ⟨hlt, z, hz, hzno⟩ := hothers c x hx' hno hc
          rw [hsettled.current] at hlt
          exact ih _ (hk ▸ hlt) hgood' z hz (by rw [hzno]; nofun) hzno rfl

/-! ## Runs -/

theorem good_of_run (hn : n < 256) {h : List (State Msg × Event Msg)}
    (hr : (machine n).Run h s) : Good n s := by
  refine hr.inv (P := Good n) ⟨?_, fun s e s' hgood hst => ?_⟩
  · intro s (hs : s = boot n)
    rw [hs]
    exact good_boot hn
  · obtain ⟨r, hreact, rfl⟩ := Option.map_eq_some_iff.1 hst
    exact (hgood.react hn hreact).good

theorem completes_of_good (hn : n < 256) (h : Good n s) : Completes n s where
  accepts client msg answer r hr herr := by
    obtain rfl := Option.some.inj hr
    exact (h.send hn client msg answer).2 herr
  signals _ _ hr := (h.react hn hr).signal
  hands _ _ hr := (h.react hn hr).handed
  single := by
    rcases Nat.lt_or_eq_of_le h.current_le with hlt | hfree
    · obtain ⟨x, -, ⟨hout, -⟩ | ⟨hout, -⟩⟩ := h.busy hlt
      · exact Nat.le_of_eq (congrArg List.length hout)
      · exact Nat.le_trans (Nat.le_of_eq (congrArg List.length hout)) (Nat.zero_le 1)
    · exact Nat.le_trans (Nat.le_of_eq (congrArg List.length (h.free hfree).1)) (Nat.zero_le 1)
  idle hout hno client hqueue := by
    have hfree : s.impl.current = n := Nat.le_antisymm h.current_le (Nat.le_of_not_lt fun hlt => by
      obtain ⟨x, -, ⟨hout', -⟩ | ⟨-, hyes⟩⟩ := h.busy hlt
      · rw [hout] at hout'
        cases hout'
      · rw [hno] at hyes
        cases hyes)
    rw [h.queue] at hqueue
    obtain ⟨x, hx⟩ := Option.ne_none_iff_exists'.1 fun hnone => hqueue (congrArg _ hnone)
    exact h.get_of_cancelled hx ((h.free hfree).2.2 client x hx)
  completed _ _ := served_of_good hn h []

/-- **The queue completes its packets**, once and in turn, in every state of every run. -/
theorem completes (hn : n < 256) {h : List (State Msg × Event Msg)} (hr : (machine n).Run h s) :
    Completes n s ∧ FairUncancelled n s := by
  have hgood := good_of_run hn hr
  exact ⟨completes_of_good hn hgood, fun c x hx hno e he hec => (hgood.fair c x hx hno e he hec).1⟩

/-- Three clients: a cancelled packet, a refused one, and a packet that waits behind both. -/
theorem completes_three : ∃ (h : List (State Nat × Event Nat)) (s : State Nat),
    (machine 3).Run h s ∧ (s.accepted 1).isSome = true ∧ Completes 3 s ∧ FairUncancelled 3 s := by
  obtain ⟨h, s, hr, hprop⟩ := Machine.exists_run_of_exec (M := machine 3) (s := boot 3) rfl
    [.send 0 10 .success, .send 1 11 .success, .cancel 1 11 .success, .send 2 12 .success,
      .amSendDone 10 .success .fail, .handled, .cancelTask, .send 1 13 .success, .handled,
      .errorTask .success, .handled]
    (fun _ s => (s.accepted 1).isSome) (by decide)
  exact ⟨h, s, hr, hprop, completes (by decide) hr⟩

/-- While a cancelled packet waits for `CancelTask`, another client is served again and again. With
256 clients, `current` does not say that no packet is with `AMSend`. -/
theorem not_fair : (¬∀ (h : List (State Nat × Event Nat)) (s : State Nat),
      (machine 2).Run h s → Completes 2 s ∧ Fair 2 s) ∧
    ¬∀ (h : List (State Nat × Event Nat)) (s : State Nat),
      (machine 256).Run h s → Completes 256 s ∧ Fair 256 s := by
  constructor
  · intro hall
    obtain ⟨h, s, hr, hprop⟩ := Machine.exists_run_of_exec (M := machine 2) (s := boot 2) rfl
      [.send 0 10 .success, .send 1 11 .success, .cancel 1 11 .success,
        .amSendDone 10 .success .success, .send 0 12 .success, .handled,
        .amSendDone 12 .success .success, .send 0 13 .success, .handled]
      (fun _ s => (s.accepted 1).any fun x => 2 < x.served 0) (by decide)
    obtain ⟨x, hx, hserved⟩ := (Option.any_eq_true _ _).1 hprop
    have hle := (hall h s hr).2 1 x hx 0 (by decide) (by decide)
    exact absurd (of_decide_eq_true hserved) (Nat.not_lt_of_le hle)
  · intro hall
    obtain ⟨h, s, hr, hprop⟩ := Machine.exists_run_of_exec (M := machine 256) (s := boot 256) rfl
      [.send 1 10 .success]
      (fun _ s => s.impl.outstanding.isEmpty && !s.impl.errorPosted &&
        (s.impl.queue 1).isSome && !s.impl.cancelMask.get 1) (by decide)
    simp only [Bool.and_eq_true, List.isEmpty_iff, Bool.not_eq_true'] at hprop
    obtain ⟨⟨⟨hout, hno⟩, hqueue⟩, hget⟩ := hprop
    have htrue := (hall h s hr).1.idle hout hno 1 (Option.isSome_iff_ne_none.1 hqueue)
    rw [hget] at htrue
    cases htrue

end AMQueueImplP
