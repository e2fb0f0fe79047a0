import Backip.Cc2420.PacketLinkP

/-!
# What `PacketLinkP` does with a message

`Answered`: the log consists of exchanges, each a `Send.send` that returned `SUCCESS`, between one and
`max 1 maxRetries` completed transmissions and one `Send.sendDone`, with `SUCCESS` exactly if a
transmission was acknowledged. In a run in which a message is not cancelled while it is being sent,
the log is that of answered exchanges and at most one that goes on (`sends_answered`), and only so much
is left to do until it is answered.

`Send.sendDone` finds the number of transmissions in the place of `maxRetries`, if that was not zero:
`IPDispatchP` counts them (`not_limit_kept`).
-/

set_option autoImplicit false

namespace PacketLinkP

variable {μ : Type}

/-! ## Exchanges -/

/-- Completed transmissions of a message, the last one first. -/
def flights (msg : μ) (len : UInt8) : List Bool → List (Signal μ)
  | [] => []
  | acked :: acks => .completed msg acked :: .handed msg len :: flights msg len acks

/-- The log of exchanges that are answered. -/
inductive Answered : List (Signal μ) → Prop
  | nil : Answered []
  | exchange {rest : List (Signal μ)} (msg : μ) (len : UInt8) (maxRetries : UInt16)
      (acks : List Bool) (error : TinyError) (retries : UInt16) : Answered rest →
      1 ≤ acks.length → acks.length ≤ max 1 maxRetries.toNat →
      (error = .success ↔ true ∈ acks) →
      retries.toNat = (if maxRetries = 0 then 0 else acks.length) →
      Answered (.sendDone msg error retries ::
        (flights msg len acks ++ .accepted msg len maxRetries :: rest))

namespace Link

variable {s t : Link μ} {msg : μ}

/-! ## The invariant -/

/-- What is pending while the component waits to retry: the task or the timer. -/
def Pending (s : Link μ) : Prop :=
  s.sendPosted = true ∧ s.delayTimer.isRunning = false ∨
    s.sendPosted = false ∧ ∃ dt, s.delayTimer = .oneShot dt

/-- An exchange goes on after `k` transmissions that were not acknowledged. -/
structure Ongoing (s : Link μ) (msg : μ) (k : Nat) (rest : List (Signal μ)) : Prop where
  state : s.sendState = .sending
  current : s.currentSendMsg = some msg
  total : s.totalRetries.toNat = k
  limit : k < max 1 (s.getRetries msg).toNat
  answered : Answered rest

/-- The log of an exchange that goes on, while the radio does not have the message. -/
def loggedTo (s : Link μ) (msg : μ) (k : Nat) (rest : List (Signal μ)) : List (Signal μ) :=
  flights msg s.currentSendLen (List.replicate k false) ++
    .accepted msg s.currentSendLen (s.getRetries msg) :: rest

/-- The exchanges before are answered, and if one goes on, then the radio has its message, or the
task or the timer will hand it over again. -/
inductive Served (s : Link μ) : Prop
  | idle : s.sendState = .idle → s.subSend = none → s.sendPosted = false →
      s.delayTimer.isRunning = false → Answered s.log → Served s
  | flying (msg : μ) (k : Nat) (rest : List (Signal μ)) : s.Ongoing msg k rest →
      s.subSend = some msg → s.sendPosted = false → s.delayTimer.isRunning = false →
      s.log = .handed msg s.currentSendLen :: s.loggedTo msg k rest → Served s
  | waiting (msg : μ) (k : Nat) (rest : List (Signal μ)) : s.Ongoing msg k rest →
      s.subSend = none → s.Pending → s.log = s.loggedTo msg k rest → Served s

theorem served_init : Served ({} : Link μ) := .idle rfl rfl rfl rfl .nil

/-- The metadata of other messages change. -/
theorem Served.metadata (h : s.Served) (metadata : μ → Metadata)
    (hkeep : ∀ msg, s.Sends msg → (metadata msg).maxRetries = s.getRetries msg) :
    Served { s with metadata } := by
  have hsame : ∀ {msg k rest}, s.Ongoing msg k rest →
      getRetries msg { s with metadata } = s.getRetries msg := fun ho =>
    hkeep _ ⟨ho.state, ho.current⟩
  have hon : ∀ {msg k rest}, s.Ongoing msg k rest → Ongoing { s with metadata } msg k rest :=
    fun ho => ⟨ho.state, ho.current, ho.total, by rw [hsame ho]; exact ho.limit, ho.answered⟩
  cases h with
  | idle h₁ h₂ h₃ h₄ h₅ => exact .idle h₁ h₂ h₃ h₄ h₅
  | flying msg k rest ho h₂ h₃ h₄ h₅ =>
    refine .flying msg k rest (hon ho) h₂ h₃ h₄ (h₅.trans ?_)
    rw [loggedTo, loggedTo, hsame ho]
  | waiting msg k rest ho h₂ h₃ h₄ =>
    refine .waiting msg k rest (hon ho) h₂ h₃ (h₄.trans ?_)
    rw [loggedTo, loggedTo, hsame ho]

/-! ## Metadata -/

variable [DecidableEq μ]

theorem getRetries_setMetadata (s : Link μ) (m msg : μ) (f : Metadata → Metadata) :
    (s.setMetadata m f).getRetries msg =
      if msg = m then (f (s.metadata m)).maxRetries else s.getRetries msg := by
  unfold getRetries setMetadata
  dsimp only
  split
  next h => rw [h]
  · rfl

theorem Served.setMetadata (h : s.Served) (m : μ) (f : Metadata → Metadata)
    (hkeep : s.Sends m → (f (s.metadata m)).maxRetries = s.getRetries m) :
    (s.setMetadata m f).Served := by
  refine h.metadata _ fun msg hs => ?_
  refine (s.getRetries_setMetadata m msg f).trans ?_
  split
  next he =>
    rw [he] at hs ⊢
    exact hkeep hs
  · rfl

/-- A message is prepared for the radio: only its header changes. -/
def prepared (msg : μ) (s : Link μ) : Link μ :=
  if s.getRetries msg > 0 then s.requestAck msg else s

theorem getRetries_prepared (s : Link μ) (m msg : μ) :
    (s.prepared m).getRetries msg = s.getRetries msg := by
  unfold prepared
  split
  · rw [requestAck, getRetries_setMetadata]
    split
    next h => rw [h]; rfl
    · rfl
  · rfl

theorem prepared_eq (msg : μ) (s : Link μ) :
    s.prepared msg = { s with metadata := (s.prepared msg).metadata } := by
  unfold prepared
  split <;> rfl

/-! ## Steps -/

theorem Served.send (h : s.Served) (msg : μ) (len : UInt8) (error : TinyError) :
    (s.send msg len error).2.Served := by
  by_cases hidle : s.sendState = .idle
  · cases h with
    | idle _ hsub hposted htimer hlog =>
      let s' : Link μ := { s with
        sendState := .sending
        currentSendMsg := some msg
        currentSendLen := len
        totalRetries := 0 }
      have hsend : s.send msg len error =
          if error = .success then (.success, hand msg len { s'.prepared msg with
            log := .accepted msg len ((s'.prepared msg).getRetries msg) :: (s'.prepared msg).log })
          else (error, { s'.prepared msg with sendState := .idle }) :=
        if_pos hidle
      rw [hsend, prepared_eq]
      split
      · refine .flying msg 0 s.log ⟨rfl, rfl, rfl, ?_, hlog⟩ rfl hposted htimer rfl
        exact Nat.lt_of_lt_of_le Nat.one_pos (Nat.le_max_left _ _)
      · exact .idle rfl hsub hposted htimer hlog
    | flying _ _ _ ho => cases hidle.symm.trans ho.state
    | waiting _ _ _ ho => cases hidle.symm.trans ho.state
  · rw [Link.send, if_neg hidle]
    exact h

/-- The exchange is answered. -/
theorem served_signalDone {k : Nat} {len : UInt8} {acked : Bool} {rest : List (Signal μ)}
    {error : TinyError} (hsub : s.subSend = none) (hposted : s.sendPosted = false)
    (hlog : s.log = flights msg len (acked :: List.replicate k false) ++
      .accepted msg len (s.getRetries msg) :: rest)
    (htotal : s.totalRetries.toNat = k + 1) (hlimit : k < max 1 (s.getRetries msg).toNat)
    (hrest : Answered rest) (herror : error = .success ↔ acked = true) :
    (s.signalDone msg error).Served := by
  let s' : Link μ := { s with delayTimer := .stopped, sendState := .idle }
  have hretries : ∃ retries, (s.signalDone msg error).log = .sendDone msg error retries :: s.log ∧
      retries.toNat = if s.getRetries msg = 0 then 0 else k + 1 := by
    by_cases hr : s.getRetries msg > 0
    · have hne : s.getRetries msg ≠ 0 := by
        intro h0
        rw [h0] at hr
        exact absurd hr (by decide)
      refine ⟨s.totalRetries, ?_, ?_⟩
      · unfold signalDone
        dsimp only
        rw [if_pos (show s'.getRetries msg > 0 from hr), setRetries, getRetries_setMetadata,
          if_pos rfl]
        rfl
      · rw [if_neg hne, htotal]
    · have h0 : s.getRetries msg = 0 := by
        rw [gt_iff_lt, UInt16.lt_iff_toNat_lt] at hr
        apply UInt16.toNat_inj.1
        exact Nat.eq_zero_of_not_pos hr
      refine ⟨0, ?_, ?_⟩
      · unfold signalDone
        dsimp only
        rw [if_neg (show ¬ s'.getRetries msg > 0 from hr)]
        exact congrArg (Signal.sendDone msg error · :: s.log) h0
      · rw [if_pos h0]
        rfl
  obtain ⟨retries, hlog', hval⟩ := hretries
  have hfields : (s.signalDone msg error).sendState = .idle ∧
      (s.signalDone msg error).subSend = s.subSend ∧
      (s.signalDone msg error).sendPosted = s.sendPosted ∧
      (s.signalDone msg error).delayTimer = .stopped := by
    unfold signalDone
    dsimp only
    split <;> exact ⟨rfl, rfl, rfl, rfl⟩
  obtain ⟨hstate, hsub', hposted', htimer⟩ := hfields
  refine .idle hstate (hsub'.trans hsub) (hposted'.trans hposted) (by rw [htimer]; rfl) ?_
  rw [hlog', hlog]
  refine .exchange msg len _ _ error retries hrest ?_ ?_ ?_ ?_
  · rw [List.length_cons]
    exact Nat.succ_le_succ (Nat.zero_le _)
  · rw [List.length_cons, List.length_replicate]
    exact hlimit
  · rw [herror, List.mem_cons, List.mem_replicate]
    simp [eq_comm]
  · rw [hval, List.length_cons, List.length_replicate]

/-- A transmission is completed and counted. -/
def counted (msg : μ) (acked : Bool) (s : Link μ) : Link μ :=
  { s with
    subSend := none
    log := .completed msg acked :: s.log
    totalRetries := s.totalRetries + 1 }

theorem subSendDone_eq {k : Nat} {rest : List (Signal μ)} (ho : s.Ongoing msg k rest)
    (acked : Bool) :
    subSendDone acked { s with subSend := none, log := .completed msg acked :: s.log } =
      if acked then (s.counted msg acked).signalDone msg .success
      else if (s.counted msg acked).totalRetries < s.getRetries msg then
        if s.getRetryDelay msg > 0 then
          { s.counted msg acked with delayTimer := .oneShot (s.getRetryDelay msg).toNat }
        else { s.counted msg acked with sendPosted := true }
      else (s.counted msg acked).signalDone msg .fail := by
  unfold subSendDone
  split
  next current _ hcur =>
    cases (Eq.symm hcur).trans ho.current
    rfl
  next hne => exact (hne msg ho.state ho.current).elim

omit [DecidableEq μ] in
/-- The count does not wrap: it stays below the limit. -/
theorem counted_total {k : Nat} {rest : List (Signal μ)} (ho : s.Ongoing msg k rest)
    (acked : Bool) : (s.counted msg acked).totalRetries.toNat = k + 1 := by
  have hr := (s.getRetries msg).toNat_lt
  have hk := ho.limit
  have ht : s.totalRetries.toNat = k := ho.total
  change (s.totalRetries + 1).toNat = k + 1
  rw [UInt16.toNat_add, ht]
  change (k + 1) % 65536 = k + 1
  omega

/-- A transmission is completed: the exchange is answered, or the task or the timer is started. -/
theorem served_subSendDone {k : Nat} {rest : List (Signal μ)} (ho : s.Ongoing msg k rest)
    (hposted : s.sendPosted = false) (htimer : s.delayTimer.isRunning = false)
    (hlog : s.log = .handed msg s.currentSendLen :: s.loggedTo msg k rest) (acked : Bool) :
    Served (subSendDone acked { s with subSend := none, log := .completed msg acked :: s.log }) := by
  have htotal := counted_total ho acked
  have hlog' : (s.counted msg acked).log =
      flights msg s.currentSendLen (acked :: List.replicate k false) ++
        .accepted msg s.currentSendLen (s.getRetries msg) :: rest :=
    congrArg (Signal.completed msg acked :: ·) hlog
  rw [subSendDone_eq ho]
  cases acked with
  | true =>
    exact served_signalDone rfl hposted hlog' htotal ho.limit ho.answered
      ⟨fun _ => rfl, fun _ => rfl⟩
  | false =>
    rw [if_neg Bool.false_ne_true]
    by_cases hretry : (s.counted msg false).totalRetries < s.getRetries msg
    · have hlimit : k + 1 < max 1 (s.getRetries msg).toNat := by
        rw [UInt16.lt_iff_toNat_lt, htotal] at hretry
        exact Nat.lt_of_lt_of_le hretry (Nat.le_max_right _ _)
      rw [if_pos hretry]
      split
      · exact .waiting msg (k + 1) rest ⟨ho.state, ho.current, htotal, hlimit, ho.answered⟩
          rfl (.inr ⟨hposted, _, rfl⟩) hlog'
      · exact .waiting msg (k + 1) rest ⟨ho.state, ho.current, htotal, hlimit, ho.answered⟩
          rfl (.inl ⟨rfl, htimer⟩) hlog'
    · rw [if_neg hretry]
      exact served_signalDone rfl hposted hlog' htotal ho.limit ho.answered ⟨nofun, nofun⟩

omit [DecidableEq μ] in
theorem Served.delayFired (h : s.Served) (hrun : s.delayTimer.isRunning = true) :
    Served (Link.delayFired { s with delayTimer := s.delayTimer.expire }) := by
  cases h with
  | idle _ _ _ ht => cases ht.symm.trans hrun
  | flying _ _ _ _ _ _ ht => cases ht.symm.trans hrun
  | waiting msg k rest ho hsub hpending hlog =>
    have hexpire : s.delayTimer.expire.isRunning = false := by
      rcases hpending with ⟨-, ht⟩ | ⟨-, dt, ht⟩
      · cases ht.symm.trans hrun
      · rw [ht]
        rfl
    rw [Link.delayFired, if_pos ho.state]
    exact .waiting msg k rest ⟨ho.state, ho.current, ho.total, ho.limit, ho.answered⟩ hsub
      (.inl ⟨rfl, hexpire⟩) hlog

theorem sendTask_eq (hcur : s.currentSendMsg = some msg) (error : TinyError) :
    Link.sendTask error s =
      if error = .success then (s.prepared msg).hand msg (s.prepared msg).currentSendLen
      else { s.prepared msg with sendPosted := true } := by
  unfold Link.sendTask
  split
  next current hsome =>
    cases (Eq.symm hcur).trans hsome
    rfl
  next hnone => cases (Eq.symm hcur).trans hnone

theorem Served.sendTask (h : s.Served) (hposted : s.sendPosted = true) (error : TinyError) :
    Served (Link.sendTask error { s with sendPosted := false }) := by
  cases h with
  | idle _ _ hp => cases hp.symm.trans hposted
  | flying _ _ _ _ _ hp => cases hp.symm.trans hposted
  | waiting msg k rest ho hsub hpending hlog =>
    have htimer : s.delayTimer.isRunning = false := by
      rcases hpending with ⟨-, ht⟩ | ⟨hp, -⟩
      · exact ht
      · cases hp.symm.trans hposted
    let s' : Link μ := { s with sendPosted := false }
    have hsame : (s'.prepared msg).getRetries msg = s.getRetries msg :=
      getRetries_prepared s' msg msg
    have hon : (s'.prepared msg).Ongoing msg k rest := by
      have hr := hsame
      rw [prepared_eq] at hr ⊢
      exact ⟨ho.state, ho.current, ho.total, by rw [hr]; exact ho.limit, ho.answered⟩
    have hlog' : (s'.prepared msg).log = (s'.prepared msg).loggedTo msg k rest := by
      have hr := hsame
      rw [prepared_eq] at hr ⊢
      rw [loggedTo, hr]
      exact hlog
    rw [sendTask_eq (s := s') ho.current]
    split
    · refine .flying msg k rest ⟨hon.state, hon.current, hon.total, hon.limit, hon.answered⟩ rfl
        ?_ ?_ (congrArg (Signal.handed msg _ :: ·) hlog')
      · rw [prepared_eq]
        rfl
      · rw [prepared_eq]
        exact htimer
    · refine .waiting msg k rest ⟨hon.state, hon.current, hon.total, hon.limit, hon.answered⟩ ?_
        (.inl ⟨rfl, ?_⟩) hlog'
      · rw [prepared_eq]
        exact hsub
      · rw [prepared_eq]
        exact htimer

/-! ## Runs -/

/-- A message is not cancelled while it is being sent. -/
def Meets (s : Link μ) : Event μ → Prop
  | .cancel msg _ => ¬s.Sends msg
  | _ => True

instance (s : Link μ) : (e : Event μ) → Decidable (s.Meets e)
  | .cancel msg _ => inferInstanceAs (Decidable ¬s.Sends msg)
  | .setRetries .. | .setRetryDelay .. | .send .. | .subSendDone _ | .delayFired | .sendTask _ =>
    .isTrue trivial

theorem Served.cancel (h : s.Served) {msg : μ} (hmeets : ¬s.Sends msg) (error : TinyError) :
    (s.cancel msg error).2.Served := by
  unfold Link.cancel
  split
  next hcur =>
    have hidle : s.sendState = .idle := by
      cases hs : s.sendState with
      | idle => rfl
      | sending => exact absurd ⟨hs, hcur⟩ hmeets
    cases h with
    | idle _ hsub hposted htimer hlog => exact .idle rfl hsub hposted htimer hlog
    | flying _ _ _ ho => cases hidle.symm.trans ho.state
    | waiting _ _ _ ho => cases hidle.symm.trans ho.state
  · exact h

theorem Served.step {e : Event μ} (h : s.Served) (hmeets : s.Meets e) (hs : step s e = some t) :
    t.Served := by
  cases e with
  | setRetries msg n =>
    obtain ⟨hfree, hs⟩ := Option.ite_none_left_eq_some.1 hs
    cases hs
    exact h.setMetadata msg _ fun hsends => absurd hsends hfree
  | setRetryDelay msg d =>
    obtain ⟨-, hs⟩ := Option.ite_none_left_eq_some.1 hs
    cases hs
    exact h.setMetadata msg _ fun _ => rfl
  | send msg len error =>
    obtain ⟨-, hs⟩ := Option.ite_none_right_eq_some.1 hs
    cases hs
    exact h.send msg len error
  | cancel msg error =>
    cases hs
    exact h.cancel hmeets error
  | subSendDone acked =>
    obtain ⟨msg, hsub, rfl⟩ := Option.map_eq_some_iff.1 hs
    cases h with
    | idle _ hnone => cases hnone.symm.trans hsub
    | flying m k rest ho hm hposted htimer hlog =>
      cases hm.symm.trans hsub
      exact served_subSendDone ho hposted htimer hlog acked
    | waiting _ _ _ _ hnone => cases hnone.symm.trans hsub
  | delayFired =>
    obtain ⟨hrun, hs⟩ := Option.ite_none_right_eq_some.1 hs
    cases hs
    exact h.delayFired hrun
  | sendTask error =>
    obtain ⟨hguard, hs⟩ := Option.ite_none_right_eq_some.1 hs
    cases hs
    exact h.sendTask hguard.1 error

/-! ## What is left to do -/

/-- How many `Send.sendDone` were signalled. -/
def answers (s : Link μ) : Nat :=
  s.log.countP fun
    | .sendDone .. => true
    | _ => false

/-- What is left to do until the exchange is answered: three steps for each transmission. -/
def work (s : Link μ) (msg : μ) : Nat :=
  3 * (max 1 (s.getRetries msg).toNat - s.totalRetries.toNat) + s.sendPosted.toNat +
    2 * s.delayTimer.isRunning.toNat

end Link

/-- The radio, the timer or the task goes on; a refused message does not count. -/
def Event.isService : Event μ → Bool
  | .subSendDone _ | .delayFired => true
  | .sendTask error => error = .success
  | _ => false

namespace Link

variable {s t : Link μ} {msg : μ}

section

variable [DecidableEq μ]

theorem answers_signalDone (s : Link μ) (msg : μ) (error : TinyError) :
    (s.signalDone msg error).answers = s.answers + 1 := by
  have hlog : ∃ retries, (s.signalDone msg error).log = .sendDone msg error retries :: s.log := by
    unfold signalDone
    dsimp only
    split <;> exact ⟨_, rfl⟩
  obtain ⟨retries, hlog⟩ := hlog
  rw [answers, hlog, List.countP_cons_of_pos rfl, answers]

end

/-- The exchange goes on, and if the step was one of the radio, the timer or the task, less is left
to do. -/
structure Closer (s t : Link μ) (msg : μ) (service : Bool) : Prop where
  answers : t.answers = s.answers
  sends : t.Sends msg
  work : t.work msg + service.toNat ≤ s.work msg

/-- A step that is not one of them leaves what is left to do as it is. -/
theorem Closer.metadata (hs : s.Sends msg) (metadata : μ → Metadata)
    (hkeep : (metadata msg).maxRetries = s.getRetries msg) :
    Closer s { s with metadata } msg false := by
  refine ⟨rfl, hs, Nat.le_of_eq ?_⟩
  have hsame : getRetries msg { s with metadata } = s.getRetries msg := hkeep
  unfold Link.work
  rw [hsame]
  rfl

variable [DecidableEq μ]

theorem Closer.setMetadata (hs : s.Sends msg) {m : μ} (hm : ¬s.Sends m)
    (f : Metadata → Metadata) : Closer s (s.setMetadata m f) msg false := by
  refine .metadata hs _ ?_
  refine (s.getRetries_setMetadata m msg f).trans (if_neg ?_)
  rintro rfl
  exact hm hs

theorem closer_subSendDone {k : Nat} {rest : List (Signal μ)} (ho : s.Ongoing msg k rest)
    (hposted : s.sendPosted = false) (htimer : s.delayTimer.isRunning = false) (acked : Bool) :
    let t := subSendDone acked { s with subSend := none, log := .completed msg acked :: s.log }
    t.answers = s.answers + 1 ∨ Closer s t msg true := by
  have hcounted : (s.counted msg acked).answers = s.answers := List.countP_cons_of_neg nofun
  have htotal := counted_total ho acked
  have hlimit := ho.limit
  have hbefore : s.work msg = 3 * (max 1 (s.getRetries msg).toNat - k) := by
    rw [Link.work, ho.total, hposted, htimer]
    rfl
  dsimp only
  rw [subSendDone_eq ho]
  split
  · exact .inl ((answers_signalDone _ _ _).trans (congrArg (· + 1) hcounted))
  · split
    · refine .inr ?_
      split
      · refine ⟨hcounted, ⟨ho.state, ho.current⟩, ?_⟩
        have hafter : work { s.counted msg acked with
            delayTimer := .oneShot (s.getRetryDelay msg).toNat } msg =
              3 * (max 1 (s.getRetries msg).toNat - (k + 1)) + 0 + 2 * 1 := by
          rw [← htotal, Link.work, show (s.counted msg acked).sendPosted = false from hposted]
          rfl
        rw [hafter, hbefore, Bool.toNat_true]
        omega
      · refine ⟨hcounted, ⟨ho.state, ho.current⟩, ?_⟩
        have hafter : work { s.counted msg acked with sendPosted := true } msg =
              3 * (max 1 (s.getRetries msg).toNat - (k + 1)) + 1 + 2 * 0 := by
          rw [← htotal, Link.work,
            show (s.counted msg acked).delayTimer.isRunning = false from htimer]
          rfl
        rw [hafter, hbefore, Bool.toNat_true]
        omega
    · exact .inl ((answers_signalDone _ _ _).trans (congrArg (· + 1) hcounted))

theorem closer_sendTask {k : Nat} {rest : List (Signal μ)} (ho : s.Ongoing msg k rest)
    (hposted : s.sendPosted = true) (error : TinyError) :
    Closer s (Link.sendTask error { s with sendPosted := false }) msg (error = .success) := by
  let s' : Link μ := { s with sendPosted := false }
  obtain ⟨metadata, hprepared, hretries⟩ : ∃ metadata : μ → Metadata,
      s'.prepared msg = { s' with metadata } ∧ (metadata msg).maxRetries = s.getRetries msg :=
    ⟨_, prepared_eq msg s', getRetries_prepared s' msg msg⟩
  have hbefore : s.work msg = 3 * (max 1 (s.getRetries msg).toNat - s.totalRetries.toNat) + 1 +
      2 * s.delayTimer.isRunning.toNat := by
    rw [Link.work, hposted]
    rfl
  rw [sendTask_eq (s := s') ho.current, hprepared]
  by_cases herror : error = .success
  · rw [if_pos herror, decide_eq_true herror]
    refine ⟨List.countP_cons_of_neg nofun, ⟨ho.state, ho.current⟩, ?_⟩
    have hafter : work (hand msg s'.currentSendLen { s' with metadata }) msg =
        3 * (max 1 (s.getRetries msg).toNat - s.totalRetries.toNat) + 0 +
          2 * s.delayTimer.isRunning.toNat := by
      rw [← hretries]
      rfl
    rw [hbefore]
    refine Nat.le_of_eq ((congrArg (· + 1) hafter).trans ?_)
    omega
  · rw [if_neg herror, decide_eq_false herror]
    refine ⟨rfl, ⟨ho.state, ho.current⟩, ?_⟩
    have hafter : work { { s' with metadata } with sendPosted := true } msg =
        3 * (max 1 (s.getRetries msg).toNat - s.totalRetries.toNat) + 1 +
          2 * s.delayTimer.isRunning.toNat := by
      rw [← hretries]
      rfl
    rw [hbefore]
    exact Nat.le_of_eq hafter

theorem Served.closer {e : Event μ} (h : s.Served) (hmeets : s.Meets e)
    (hs : PacketLinkP.step s e = some t) (hsends : s.Sends msg) : t.answers = s.answers + 1 ∨ Closer s t msg e.isService := by
  have hsame : Closer s s msg false := ⟨rfl, hsends, Nat.le_refl _⟩
  cases e with
  | setRetries m n =>
    obtain ⟨hfree, hs⟩ := Option.ite_none_left_eq_some.1 hs
    cases hs
    exact .inr (.setMetadata hsends hfree _)
  | setRetryDelay m d =>
    obtain ⟨hfree, hs⟩ := Option.ite_none_left_eq_some.1 hs
    cases hs
    exact .inr (.setMetadata hsends hfree _)
  | send m len error =>
    obtain ⟨-, hs⟩ := Option.ite_none_right_eq_some.1 hs
    cases hs
    rw [Link.send, if_neg (by rw [hsends.1]; nofun)]
    exact .inr hsame
  | cancel m error =>
    cases hs
    have hne : ¬s.currentSendMsg = some m := fun hcur => hmeets ⟨hsends.1, hcur⟩
    rw [Link.cancel, if_neg hne]
    exact .inr hsame
  | subSendDone acked =>
    obtain ⟨m, hsub, rfl⟩ := Option.map_eq_some_iff.1 hs
    cases h with
    | idle hidle => cases hidle.symm.trans hsends.1
    | flying m' k rest ho hm hposted htimer =>
      cases hm.symm.trans hsub
      cases ho.current.symm.trans hsends.2
      exact closer_subSendDone ho hposted htimer acked
    | waiting _ _ _ _ hnone => cases hnone.symm.trans hsub
  | delayFired =>
    obtain ⟨hrun, hs⟩ := Option.ite_none_right_eq_some.1 hs
    cases hs
    cases h with
    | idle hidle => cases hidle.symm.trans hsends.1
    | flying _ _ _ _ _ _ ht => cases ht.symm.trans hrun
    | waiting m k rest ho _ hpending =>
      rcases hpending with ⟨-, ht⟩ | ⟨hposted, dt, ht⟩
      · cases ht.symm.trans hrun
      · refine .inr ⟨?_, ?_, ?_⟩ <;> rw [Link.delayFired, if_pos hsends.1]
        · rfl
        · exact hsends
        · have hbefore : s.work msg =
              3 * (max 1 (s.getRetries msg).toNat - s.totalRetries.toNat) + 0 + 2 * 1 := by
            rw [Link.work, hposted, ht]
            rfl
          rw [hbefore, ht]
          exact Nat.le_of_eq rfl
  | sendTask error =>
    obtain ⟨hguard, hs⟩ := Option.ite_none_right_eq_some.1 hs
    cases hs
    cases h with
    | idle hidle => cases hidle.symm.trans hsends.1
    | flying _ _ _ _ _ hp => cases hp.symm.trans hguard.1
    | waiting m k rest ho =>
      cases ho.current.symm.trans hsends.2
      exact .inr (closer_sendTask ho hguard.1 error)

/-- What happened stays in the log. -/
theorem log_suffix {e : Event μ} (hs : PacketLinkP.step s e = some t) : s.log <:+ t.log := by
  have hdone : ∀ (s : Link μ) (m : μ) (error : TinyError), s.log <:+ (s.signalDone m error).log := by
    intro s m error
    unfold signalDone
    dsimp only
    split <;> exact List.suffix_cons _ _
  cases e with
  | setRetries m n =>
    obtain ⟨-, hs⟩ := Option.ite_none_left_eq_some.1 hs
    cases hs
    exact List.suffix_rfl
  | setRetryDelay m d =>
    obtain ⟨-, hs⟩ := Option.ite_none_left_eq_some.1 hs
    cases hs
    exact List.suffix_rfl
  | send m len error =>
    obtain ⟨-, hs⟩ := Option.ite_none_right_eq_some.1 hs
    cases hs
    unfold Link.send
    split
    · dsimp only
      split
      · -- the message is accepted and handed to the radio
        split <;> exact ⟨[_, _], rfl⟩
      · split <;> exact List.suffix_rfl
    · exact List.suffix_rfl
  | cancel m error =>
    cases hs
    unfold Link.cancel
    split <;> exact List.suffix_rfl
  | subSendDone acked =>
    obtain ⟨m, -, rfl⟩ := Option.map_eq_some_iff.1 hs
    refine (List.suffix_cons (Signal.completed m acked) s.log).trans ?_
    unfold Link.subSendDone
    split
    · dsimp only
      split
      · exact hdone (s.counted m acked) _ _
      · split
        · split <;> exact List.suffix_rfl
        · exact hdone (s.counted m acked) _ _
    · exact List.suffix_rfl
  | delayFired =>
    obtain ⟨-, hs⟩ := Option.ite_none_right_eq_some.1 hs
    cases hs
    unfold Link.delayFired
    split <;> exact List.suffix_rfl
  | sendTask error =>
    obtain ⟨-, hs⟩ := Option.ite_none_right_eq_some.1 hs
    cases hs
    unfold Link.sendTask
    split
    · dsimp only
      split
      · split <;> exact List.suffix_cons _ _
      · split <;> exact List.suffix_rfl
    · exact List.suffix_rfl

end Link

/-! ## Every send is answered -/

variable [DecidableEq μ]

/-- How often the radio, the timer and the task went on. -/
def services (h : List (Link μ × Event μ)) : Nat := h.countP fun p => p.2.isService

open Link

theorem run_served {h : List (Link μ × Event μ)} {s : Link μ} (hr : (machine μ).Run h s)
    (hmeets : ∀ p ∈ h, p.1.Meets p.2) : s.Served :=
  (hr.inv_of_steps (fun _ h0 => h0 ▸ served_init) (fun _ _ _ hg hm hs => hg.step hm hs) hmeets).1

/-- Until the message is answered, each service leaves less to do. -/
theorem until_answered {h h' : List (Link μ × Event μ)} {s t : Link μ} {msg : μ}
    (hr : (machine μ).Run h s) (hr' : (machine μ).Run (h' ++ h) t)
    (hmeets : ∀ p ∈ h' ++ h, p.1.Meets p.2) (hsends : s.Sends msg) :
    s.answers ≤ t.answers ∧ (t.answers = s.answers → t.Sends msg ∧
      t.work msg + services h' ≤ s.work msg) := by
  induction h' generalizing t with
  | nil =>
    obtain rfl := Machine.Run.unique (fun _ _ h₀ h₀' => Eq.trans h₀ (Eq.symm h₀')) hr' hr
    exact ⟨Nat.le_refl _, fun _ => ⟨hsends, Nat.le_refl _⟩⟩
  | cons p h' ih =>
    obtain ⟨hm, hmeets'⟩ := List.forall_mem_cons.1 hmeets
    cases hr' with
    | @step _ u _ e hr' hs =>
      obtain ⟨hle, hu⟩ := ih hr' hmeets'
      have hstep : u.answers ≤ t.answers := (log_suffix hs).sublist.countP_le
      refine ⟨Nat.le_trans hle hstep, fun heq => ?_⟩
      have hueq : u.answers = s.answers := Nat.le_antisymm (heq ▸ hstep) hle
      obtain ⟨husends, hwork⟩ := hu hueq
      rcases (run_served hr' hmeets').closer hm hs husends with hmore | hcloser
      · omega
      · have hcount : services ((u, e) :: h') = services h' + e.isService.toNat := by
          rw [services, List.countP_cons]
          cases e.isService <;> rfl
        have hless : t.work msg + e.isService.toNat ≤ u.work msg := hcloser.work
        exact ⟨hcloser.sends, by omega⟩

/-- **Sends are answered.** In the runs in which no message is cancelled while it is being sent: the
log is that of answered exchanges and at most one that goes on, for which the radio, the timer or the
task has something to do; and they only go on so often before `Send.sendDone` is signalled. -/
theorem sends_answered {h : List (Link μ × Event μ)} {s : Link μ} (hr : (machine μ).Run h s)
    (hmeets : ∀ p ∈ h, p.1.Meets p.2) :
    s.Served ∧ ∀ h' t msg, (machine μ).Run (h' ++ h) t → (∀ p ∈ h', p.1.Meets p.2) →
      s.Sends msg → t.answers = s.answers → services h' ≤ s.work msg := by
  refine ⟨run_served hr hmeets, fun h' t msg hr' hmeets' hsends hans => ?_⟩
  have hall := List.forall_mem_append.2 ⟨hmeets', hmeets⟩
  obtain ⟨-, hwork⟩ := (until_answered hr hr' hall hsends).2 hans
  exact Nat.le_trans (Nat.le_add_left _ _) hwork

theorem sends_answered_second : ∃ (h : List (Link Nat × Event Nat)) (s : Link Nat),
    (machine Nat).Run h s ∧ s.log = .sendDone 7 .success 2 ::
      (flights 7 20 [true, false] ++ [.accepted 7 20 3]) ∧ s.Served := by
  obtain ⟨h, s, hr, hp⟩ := Machine.exists_run_of_exec (M := machine Nat) (s := {}) rfl
    [.setRetries 7 3, .setRetryDelay 7 10, .send 7 20 .success, .subSendDone false, .delayFired,
      .sendTask .fail, .sendTask .success, .subSendDone true]
    (fun h s => s.log = .sendDone 7 .success 2 ::
      (flights 7 20 [true, false] ++ [.accepted 7 20 3]) ∧ ∀ p ∈ h, p.1.Meets p.2) (by decide)
  obtain ⟨hlog, hmeets⟩ := of_decide_eq_true hp
  exact ⟨h, s, hr, hlog, (sends_answered hr hmeets).1⟩

/-- A limit of three is one after a message that is acknowledged at once. -/
theorem not_limit_kept : ¬ ∀ (h : List (Link Nat × Event Nat)) (s : Link Nat) (msg : Nat)
    (len : UInt8) (maxRetries : UInt16) (acks : List Bool) (error : TinyError) (retries : UInt16),
    (machine Nat).Run h s → s.log = .sendDone msg error retries ::
      (flights msg len acks ++ [.accepted msg len maxRetries]) → retries = maxRetries := by
  intro hkept
  obtain ⟨h, s, hr, hp⟩ := Machine.exists_run_of_exec (M := machine Nat) (s := {}) rfl
    [.setRetries 7 3, .send 7 20 .success, .subSendDone true]
    (fun _ s => s.log = .sendDone 7 .success 1 :: (flights 7 20 [true] ++ [.accepted 7 20 3]))
    (by decide)
  exact absurd (hkept h s 7 20 3 [true] .success 1 hr (of_decide_eq_true hp)) (by decide)

end PacketLinkP
