import Backip.BCP.Proof.ForwarderStep

/-!
# Who owns a buffer

`Placed` is kept by every move that meets `View.Safe` (`Placed.move`): a move passes an entry or a
message from one place to another, and each way is a rule of `Custody`. The moves that are not safe
are the ones root changes make possible: `sendDataTask` at a root takes the packet the link is still
sending, or takes a virtual packet for one on the stack; and after `unsetRoot` it may give up on the
packet the link is still sending.
-/

set_option autoImplicit false

namespace BCP

namespace View

variable {cfg : Config} {v v' v₁ : View} {a : Answers}

/-! ## Single moves of buffers -/

namespace Placed

theorem idle (h : v.Placed cfg) (ho : v.occupied = false) : v.pending = none := by
  cases hp : v.pending with
  | none => rfl
  | some m =>
    obtain ⟨ho', -⟩ := h.pending m hp
    rw [ho] at ho'
    cases ho'

/-- Messages move between the pool, the snoop queue, the radio, the applications and the loopback
buffer. -/
theorem move_loose (h : v.Placed cfg) {free snoop radio app : List MsgPtr} {loop : MsgPtr}
    (hp : v.loose.Perm (free ++ snoop ++ radio ++ app ++ [loop]))
    (hc : free.length + snoop.length = v.free.length + v.snoop.length) :
    Placed cfg { v with
      free := free
      snoop := snoop
      radio := radio
      app := app
      loopback := loop } where
  custody := h.custody.perm_free hp
  count := by
    have hcount := h.count
    change free.length + v.held.length + snoop.length = _
    omega
  pending := h.pending
  faults := h.faults

theorem activity (h : v.Placed cfg) : v.activity.Placed cfg := by
  rcases v.activity_cases with he | ⟨-, he⟩ | ⟨-, -, he⟩
  · rw [he]
    exact h
  · rw [he]
    exact ⟨h.custody, h.count, h.pending, h.faults⟩
  · rw [he]
    exact ⟨h.custody, h.count, h.pending, h.faults⟩

/-- An entry in use goes back with its message. -/
theorem release (h : v.Placed cfg) {q : QePtr} {stack : List QePtr} {sendQe : QePtr}
    {occupied : Bool} {pending : Option MsgPtr}
    (hheld : v.held.Perm
      (q :: View.held { v with stack := stack, sendQe := sendQe, occupied := occupied }))
    (hlink : ∀ m, pending = some m → occupied = true ∧ v.msgOf sendQe = m) :
    Placed cfg { v.release q with
      stack := stack
      sendQe := sendQe
      occupied := occupied
      pending := pending } where
  custody := by
    refine (h.custody.perm hheld).release.perm_free (List.perm_iff_count.2 fun m => ?_)
    simp only [View.loose, View.release, List.count_append]
    omega
  count := by
    have hcount := h.count
    have hlen := hheld.length_eq
    rw [List.length_cons] at hlen
    change (v.free ++ [v.msgOf q]).length + _ + v.snoop.length = _
    rw [List.length_append, List.length_singleton]
    change _ + (View.held { v with
      stack := stack, sendQe := sendQe, occupied := occupied }).length + _ = _
    omega
  pending := hlink
  faults := h.faults

/-- Making room on the stack. -/
theorem discard (h : v.Placed cfg) : (v.discard cfg).Placed cfg := by
  rcases discard_cases cfg v with ⟨hd, -⟩ | ⟨q, rest, virtual, hs, -, hd⟩
  · rw [hd]
    exact h
  · rw [hd]
    have hheld : v.held.Perm (q :: View.held { v with stack := rest }) := by
      simp [held, current, hs]
    have hr := h.release hheld h.pending
    exact ⟨hr.custody, hr.count, hr.pending, hr.faults⟩

/-- A free entry and a message `msg` come into use; the message is free, or `msg` was lent by the
radio, which gets a free one. -/
theorem take (h : v.Placed cfg) {q : QePtr} {freeQe : List QePtr} {msg newMsg : MsgPtr}
    {free radio : List MsgPtr} {e : FeQueueEntry} {stack : List QePtr} {sendQe : QePtr}
    {occupied : Bool} (hq : v.freeQe = q :: freeQe)
    (hm : v.free = newMsg :: free) (hr : (newMsg :: v.radio).Perm (msg :: radio))
    (he : e.msg = msg)
    (hheld : (q :: v.held).Perm
      (View.held { v with stack := stack, sendQe := sendQe, occupied := occupied }))
    (hlink : v.pending ≠ none → occupied = v.occupied ∧ sendQe = v.sendQe) :
    Placed cfg { v with
      freeQe := freeQe
      free := free
      radio := radio
      qe := Function.update v.qe q e
      stack := stack
      sendQe := sendQe
      occupied := occupied } where
  custody := by
    have hc := h.custody
    rw [hq] at hc
    have hloose : v.loose.Perm (msg :: (free ++ v.snoop ++ radio ++ v.app ++ [v.loopback])) := by
      refine List.perm_iff_count.2 fun m => ?_
      have hcount := List.perm_iff_count.1 hr m
      simp only [View.loose, hm, List.count_append, List.count_cons] at hcount ⊢
      omega
    refine Custody.perm ?_ hheld
    refine (hc.perm_free hloose).take entries_nodup ?_ ?_
    · simp [View.msgOf, he]
    · intro y hy
      simp [View.msgOf, hy]
  count := by
    have hcount := h.count
    have hlen := hheld.length_eq
    rw [List.length_cons] at hlen
    rw [hm, List.length_cons] at hcount
    change free.length + (View.held { v with
      stack := stack, sendQe := sendQe, occupied := occupied }).length + v.snoop.length = _
    omega
  pending := by
    intro m hp
    change v.pending = some m at hp
    obtain ⟨ho, hmsg⟩ := h.pending m hp
    obtain ⟨rfl, rfl⟩ := hlink (by simp [hp])
    have hne : v.sendQe ≠ q := by
      intro he
      refine h.custody.not_mem_held entries_nodup (x := q) (by simp [hq]) ?_
      rw [held_sending ho, he]
      simp
    refine ⟨ho, ?_⟩
    simpa [View.msgOf, hne] using hmsg
  faults := h.faults

/-- An entry changes, but not its message. -/
theorem update (h : v.Placed cfg) (q : QePtr) {e : FeQueueEntry} (he : e.msg = v.msgOf q) :
    Placed cfg { v with qe := Function.update v.qe q e } := by
  have hmsg : View.msgOf { v with qe := Function.update v.qe q e } = v.msgOf := by
    funext y
    by_cases hy : y = q
    · simp [View.msgOf, hy] at he ⊢
      exact he
    · simp [View.msgOf, hy]
  refine ⟨?_, h.count, ?_, h.faults⟩
  · rw [hmsg]
    exact h.custody
  · rw [hmsg]
    exact h.pending

/-- The entries in use change places. -/
theorem held_perm (h : v.Placed cfg) {stack : List QePtr} {sendQe : QePtr} {occupied : Bool}
    (hheld : v.held.Perm
      (View.held { v with stack := stack, sendQe := sendQe, occupied := occupied }))
    (hlink : v.pending ≠ none → occupied = v.occupied ∧ sendQe = v.sendQe) :
    Placed cfg { v with stack := stack, sendQe := sendQe, occupied := occupied } where
  custody := h.custody.perm hheld
  count := by
    have hcount := h.count
    rw [hheld.length_eq] at hcount
    exact hcount
  pending := by
    intro m hp
    change v.pending = some m at hp
    obtain ⟨rfl, rfl⟩ := hlink (by simp [hp])
    exact h.pending m hp
  faults := h.faults

/-- A frame that is dropped leaves its buffer with the radio. -/
theorem rotate (h : v.Placed cfg) {msg : MsgPtr} (hm : msg ∈ v.radio) :
    Placed cfg { v with radio := msg :: v.radio.erase msg } := by
  refine h.move_loose (List.perm_iff_count.2 fun m => ?_) rfl
  have h2 := List.perm_iff_count.1 (List.perm_cons_erase hm) m
  simp only [loose, List.count_append] at h2 ⊢
  omega

/-- Swapping a message against one of the applications keeps them all. -/
theorem swap_perm (app : List MsgPtr) (msg back : MsgPtr) :
    (msg :: app).Perm ((swap app msg back).1 :: (swap app msg back).2) := by
  unfold swap
  split
  · next hb => exact ((List.perm_cons_erase hb).cons msg).trans (.swap ..)
  · exact .refl _

/-- The rest of serving a packet, once its entry and its message are back in their pools. -/
theorem serve {q : QePtr} {back : MsgPtr} (h : (v.release q).Placed cfg) :
    (v.serve q back).Placed cfg := by
  have hswap := swap_perm v.app v.loopback back
  have hp : (v.release q).Placed cfg := h
  refine Placed.activity (h.move_loose (List.perm_iff_count.2 fun m => ?_) rfl)
  have h1 := List.perm_iff_count.1 hswap m
  simp only [loose, View.release, List.count_append, List.count_cons, List.count_nil] at h1 ⊢
  omega

end Placed

theorem inserted_perm (cfg : Config) (stack : List QePtr) (q : QePtr) :
    (inserted cfg stack q).Perm (q :: stack) := by
  unfold inserted
  split
  · exact List.perm_append_singleton q stack
  · exact .refl _

/-- What is in use after an entry has come onto the stack. -/
theorem held_inserted (cfg : Config) (v : View) (q : QePtr) :
    (q :: v.held).Perm (View.held { v with stack := inserted cfg v.stack q }) :=
  (inserted_perm cfg v.stack q).symm.append_right v.current

/-- Coming to a packet to send keeps everything in its place. -/
theorem Ready.placed (hr : Ready v a v₁) (h : v.Placed cfg) : v₁.Placed cfg := by
  cases hr with
  | current ho => exact h
  | next l q ho hroute hs =>
    have hheld : v.held.Perm (View.held { v with stack := l, sendQe := q, occupied := true }) := by
      rw [held_idle ho, hs]
      exact .refl _
    have hp := h.held_perm hheld (absurd (h.idle ho))
    exact hp.update q rfl
  | null q freeQe m free ho hroute hs hv hq hm =>
    have hheld : (q :: v.held).Perm
        (View.held { v with stack := [], sendQe := q, occupied := true }) := by
      rw [held_idle ho, hs]
      exact .refl _
    have ht := h.take (e := { arrivalTime := a.now, source := 1, msg := m, firstTxTime := a.now })
      hq hm (.refl _) rfl hheld (absurd (h.idle ho))
    exact ⟨ht.custody, ht.count, ht.pending, ht.faults⟩

/-! ## Safe steps -/

/-- What `sendDataTask` must not find: at a root, a packet in `sendQe` that the link is still
sending, or, with no packet at all, virtual packets; elsewhere, a packet in `sendQe` that has been
tried too often and that the link is still sending. -/
def Safe (v : View) : Event → Prop
  | .sendDataTask _ =>
    if v.isRoot then
      if v.occupied then v.pending = none else v.stack = [] → v.virtual = 0
    else v.occupied = true → maxRetxAttempts ≤ (v.qe v.sendQe).txCount → v.pending = none
  | _ => True

instance (v : View) (e : Event) : Decidable (v.Safe e) :=
  match e with
  | .sendDataTask _ => inferInstanceAs (Decidable (ite _ _ _))
  | .start | .stop | .setRoot | .unsetRoot | .startDone _ | .stopDone _ | .send _ _ _
  | .receive _ _ _ | .snoop _ _ | .snoopHandlerTask _ | .sendBeaconTask _ | .txRetryTimerFired
  | .beaconTimerFired | .subSendDone _ _ _ | .beaconSendDone | .beaconReceive _ _ _ =>
    .isTrue trivial

/-- **A safe move keeps everything in its place.** -/
theorem Placed.move {e : Event} (h : v.Placed cfg) (hsafe : v.Safe e) (hmove : Move cfg v e v') :
    v'.Placed cfg := by
  cases hmove with
  | start | stop | setRoot | unsetRoot | stopDone | sendBeaconTask | txRetry | txRetryIdle |
    taskEmpty | noRoute | rootIdle =>
    exact ⟨h.custody, h.count, h.pending, h.faults⟩
  | startFailed | stopFailed | sendRefused | snoopIdle | beaconTimerFired | beaconSendDone |
    beaconReceive => exact h
  | startDone =>
    exact Placed.activity ⟨h.custody, h.count, h.pending, h.faults⟩
  | sendAccepted m len now q freeQe msg free hq hm =>
    have ht := h.discard.take hq hm (.refl _) (e := { source := 1, arrivalTime := now, msg := msg })
      rfl (held_inserted cfg _ q) fun _ => ⟨rfl, rfl⟩
    rw [discard_qe] at ht
    exact ht.activity
  | receiveDropped msg frame a hm => exact h.rotate hm
  | snoopDropped msg frame hm => exact h.rotate hm
  | receiveRoot msg frame a hm hr =>
    have hswap := swap_perm v.app msg a.back
    refine h.move_loose (List.perm_iff_count.2 fun m => ?_) rfl
    have h1 := List.perm_iff_count.1 hswap m
    have h2 := List.perm_iff_count.1 (List.perm_cons_erase hm) m
    simp only [loose, List.count_append, List.count_cons] at h1 h2 ⊢
    omega
  | receiveForward msg frame a delay q freeQe newMsg free hm hr hq hf =>
    have hradio : (newMsg :: (v.discard cfg).radio).Perm (msg :: newMsg :: v.radio.erase msg) := by
      obtain ⟨_, _, _, _, hd⟩ := discard_frame cfg v
      rw [hd]
      exact ((List.perm_cons_erase hm).cons newMsg).trans (.swap ..)
    have ht := h.discard.take
      (e := { source := 2, arrivalTime := a.now, bcpArrivalDelay := delay, msg := msg })
      hq hf hradio rfl (held_inserted cfg _ q) fun _ => ⟨rfl, rfl⟩
    rw [discard_qe] at ht
    exact ht.activity
  | snoopQueued msg frame newMsg free hm hroom hf =>
    refine h.move_loose (List.perm_iff_count.2 fun m => ?_) ?_
    · have h2 := List.perm_iff_count.1 (List.perm_cons_erase hm) m
      simp only [loose, hf, List.count_append, List.count_cons, List.count_nil] at h2 ⊢
      omega
    · simp only [hf, List.length_append, List.length_cons, List.length_nil]
      omega
  | snoopHandled notify msg rest hs =>
    refine h.move_loose (List.perm_iff_count.2 fun m => ?_) ?_
    · simp only [loose, hs, List.count_append, List.count_cons, List.count_nil]
      omega
    · simp only [hs, List.length_append, List.length_cons, List.length_nil]
      omega
  | serveCurrent a hp hr ho =>
    have hidle : v.pending = none := by simpa [Safe, hr, ho] using hsafe
    have hheld : v.held.Perm (v.sendQe :: View.held { v with occupied := false }) := by
      rw [held_sending ho, held_idle rfl]
      exact List.perm_append_singleton v.sendQe v.stack
    have hlink : ∀ m, v.pending = some m → false = true ∧ v.msgOf v.sendQe = m := by
      simp [hidle]
    have hrel := h.release hheld hlink
    exact Placed.serve ⟨hrel.custody, hrel.count, hrel.pending, hrel.faults⟩
  | serveStack a l q hp hr ho hs =>
    have hheld : v.held.Perm (q :: View.held { v with stack := l, sendQe := q }) := by
      simp [held, current, ho, hs]
    have hlink : ∀ m, v.pending = some m → v.occupied = true ∧ v.msgOf q = m := by
      simp [h.idle ho]
    have hrel := h.release hheld hlink
    exact Placed.serve ⟨hrel.custody, hrel.count, hrel.pending, hrel.faults⟩
  | servePhantom a v' q hp hr ho hs hv hf =>
    have hvirtual : v.virtual = 0 := by simpa [Safe, hr, ho, hs] using hsafe
    exact absurd hvirtual hv
  | giveUp v₁ a hp hr hv ht =>
    have hidle : v₁.pending = none := by
      cases hv with
      | current ho =>
        simp only [Safe, hr] at hsafe
        exact hsafe ho ht
      | next l q ho => exact h.idle ho
      | null q freeQe m free ho => exact h.idle ho
    have h₁ : v₁.Placed cfg := hv.placed ⟨h.custody, h.count, h.pending, h.faults⟩
    have h₂ := h₁.discard
    obtain ⟨free, freeQe, stack, virtual, hd⟩ := discard_frame cfg v₁
    rw [hd] at h₂ ⊢
    have hheld : (View.held { v₁ with stack := stack }).Perm
        (View.held { v₁ with stack := stack ++ [v₁.sendQe], occupied := false }) := by
      simp [held, current, hv.occupied]
    have h₃ := (h₂.held_perm hheld (absurd hidle)).update v₁.sendQe
      (e := { v₁.qe v₁.sendQe with txCount := 0 }) rfl
    exact ⟨h₃.custody, h₃.count, h₃.pending, h₃.faults⟩
  | transmit v₁ a hp hr hv ht =>
    have h₁ : v₁.Placed cfg := hv.placed ⟨h.custody, h.count, h.pending, h.faults⟩
    have h₂ := h₁.update v₁.sendQe
      (e := { v₁.qe v₁.sendQe with txCount := (v₁.qe v₁.sendQe).txCount + 1 }) rfl
    refine ⟨h₂.custody, h₂.count, ?_, h₂.faults⟩
    intro m hm
    refine ⟨hv.occupied, ?_⟩
    have hmsg : v₁.msgOf v₁.sendQe = m := by
      by_cases hans : v₁.answer a.subSend = .success
      · simpa [hans] using hm
      · exact (h₁.pending m (by simpa [hans] using hm)).2
    simpa [msgOf] using hmsg
  | sendFailed m error acked now hp =>
    exact ⟨h.custody, h.count, fun m hm => absurd hm (by simp), h.faults⟩
  | finish m now hp =>
    obtain ⟨ho, -⟩ := h.pending m hp
    have hheld : v.held.Perm (v.sendQe :: View.held { v with occupied := false }) := by
      rw [held_sending ho, held_idle rfl]
      exact List.perm_append_singleton v.sendQe v.stack
    have hlink : ∀ m, none = some m → false = true ∧ v.msgOf v.sendQe = m := by simp
    have hrel := h.release hheld hlink
    exact Placed.activity ⟨hrel.custody, hrel.count, hrel.pending, hrel.faults⟩

/-- Only after a safe move are the link's message in use and all buffers returned. -/
theorem Safe.of_move {e : Event} (hmove : Move cfg v e v')
    (hlink : ∀ m, v'.pending = some m → v'.occupied = true)
    (hputs : ∀ q, Call.qEntryPut q .fail ∉ v'.faults) : v.Safe e := by
  cases hmove with
  | serveCurrent a hp hr ho =>
    simp only [Safe, hr, ho, if_true]
    rw [Option.eq_none_iff_forall_ne_some]
    intro m hm
    have ho' := hlink m (by simpa [serve, release] using hm)
    simp [serve, release] at ho'
  | serveStack a l q hp hr ho hs => simp [Safe, hr, ho, hs]
  | rootIdle a hp hr ho hs hv => simp [Safe, hr, ho, hv]
  | servePhantom a v' q hp hr ho hs hv hf => exact absurd hf (hputs q)
  | taskEmpty a hp hr ho hs hv => simp [Safe, hr, ho]
  | noRoute a hp hr ho hs hn => simp [Safe, hr, ho]
  | giveUp v₁ a hp hr hv ht =>
    simp only [Safe, hr, Bool.false_eq_true, if_false]
    intro ho _
    rw [Option.eq_none_iff_forall_ne_some]
    intro m hm
    cases hv with
    | current =>
      obtain ⟨_, _, _, _, hd⟩ := discard_frame cfg { v with posted := false }
      rw [hd] at hlink
      cases hlink m hm
    | next l q ho' => exact absurd ho (Bool.eq_false_iff.1 ho')
    | null q freeQe m free ho' => exact absurd ho (Bool.eq_false_iff.1 ho')
  | transmit v₁ a hp hr hv ht =>
    simp only [Safe, hr, Bool.false_eq_true, if_false]
    intro ho ht'
    cases hv with
    | current => exact absurd ht (UInt8.not_lt.2 ht')
    | next l q ho' => exact absurd ho (Bool.eq_false_iff.1 ho')
    | null q freeQe m free ho' => exact absurd ho (Bool.eq_false_iff.1 ho')
  | _ => exact trivial

end View

namespace Forwarder

variable {cfg : Config} {s s' : Forwarder}

/-! ## Runs -/

/-- Each queue entry is in its pool, on the stack or in `sendQe`; each message is in its pool, in
the snoop queue, with the radio, an application or the loopback pointer, or in a queue entry that is
in use; the message the link is sending is the one in `sendQe`; and no buffer was returned to a full
pool. -/
structure InPlace (cfg : Config) (s : Forwarder) : Prop where
  custody : Custody entries (messages cfg) s.view.msgOf s.view.freeQe s.view.loose s.view.held
  link : ∀ m, s.pending = some m → s.sendQeOccupied = true ∧ (s.qe s.sendQe).msg = m
  messagePut : ∀ m ret, Call.messagePut m ret ∈ s.calls → ret = .success
  qEntryPut : ∀ q ret, Call.qEntryPut q ret ∈ s.calls → ret = .success

theorem owned_boot (cfg : Config) : (boot cfg).view.Owned cfg where
  custody := by
    have hfree : (boot cfg).view.free =
        (List.range (forwardingQueueSize + snoopQueueSize)).map .pool := PoolP.toList_init ..
    have hfreeQe : (boot cfg).view.freeQe = entries := PoolP.toList_init ..
    have hsnoop : (boot cfg).view.snoop = [] := rfl
    constructor
    · rw [hfreeQe]
      exact .of_eq (List.append_nil _)
    · unfold View.loose
      rw [hfree, hsnoop, List.append_nil]
      exact .of_eq (List.append_nil _)
  count := by
    have hfree : (boot cfg).view.free =
        (List.range (forwardingQueueSize + snoopQueueSize)).map .pool := PoolP.toList_init ..
    rw [hfree, List.length_map, List.length_range]
    rfl
  pending := nofun
  faults := rfl
  stack_le := StackC.length_le _
  snoop_le := QueueC.length_le _

/-- **A safe step keeps everything in its place.** -/
theorem owned_step {e : Event} (h : s.view.Owned cfg) (hsafe : s.view.Safe e)
    (hstep : s.step cfg e = some s') : s'.view.Owned cfg :=
  { h.toPlaced.move hsafe (s.step_move h hstep) with
    stack_le := StackC.length_le _
    snoop_le := QueueC.length_le _ }

/-- No call so far is a fault. -/
theorem not_fault_of_owned (h : s.view.Owned cfg) {c : Call} (hc : c ∈ s.calls) :
    c.isFault = false := by
  rw [Bool.eq_false_iff]
  intro hf
  have hmem : c ∈ s.view.faults := List.mem_filter.2 ⟨hc, hf⟩
  rw [h.faults] at hmem
  cases hmem

theorem InPlace.of_owned (h : s.view.Owned cfg) : s.InPlace cfg where
  custody := h.custody
  link := h.pending
  messagePut := fun m ret hc => by simpa [Call.isFault] using not_fault_of_owned h hc
  qEntryPut := fun q ret hc => by simpa [Call.isFault] using not_fault_of_owned h hc

theorem safe_of_inPlace {e : Event} (h : s.view.Owned cfg) (hstep : s.step cfg e = some s')
    (hs' : s'.InPlace cfg) : s.view.Safe e := by
  refine .of_move (s.step_move h hstep) (fun m hm => (hs'.link m hm).1) ?_
  intro q hq
  cases hs'.qEntryPut q .fail (List.mem_of_mem_filter hq)

/-- **Buffer ownership across root changes.** In a run from `Init.init` every queue entry and every
message is in exactly one place in every state, and no buffer is returned twice or while the link is
sending it, exactly if every `sendDataTask` is safe (`View.Safe`): the packet in `sendQe` is not
with the link when a root serves it or another node gives up on it, and a root that has no packet
has no virtual packet either. -/
theorem inPlace_iff {h : List (Forwarder × Event)} (hr : (machine cfg).Run h s) :
    (s.InPlace cfg ∧ ∀ p ∈ h, p.1.InPlace cfg) ↔ ∀ p ∈ h, p.1.view.Safe p.2 := by
  refine hr.forall_iff_of_strong (J := fun s => s.view.Owned cfg)
    (C := fun s e => s.view.Safe e) ?_ ?_ ?_ ?_
  · rintro s rfl
    exact owned_boot cfg
  · intro s
    exact .of_owned
  · intro s e s'
    exact owned_step
  · intro s e s'
    exact safe_of_inPlace

/-- While a packet is at the link everything is in its place. -/
theorem inPlace_sending : ∃ h s, (machine exampleConfig).Run h s ∧ s.pending.isSome = true ∧
    s.InPlace exampleConfig := by
  obtain ⟨h, s, hr, hp⟩ := Machine.exists_run_of_exec (M := machine exampleConfig) rfl
    [.start, .startDone .success, .send {} 20 0, .sendDataTask { route := some (2, 0) }]
    (fun h s => s.pending.isSome && decide (∀ p ∈ h, p.1.view.Safe p.2)) (by decide)
  rw [Bool.and_eq_true] at hp
  exact ⟨h, s, hr, hp.1, ((inPlace_iff hr).2 (of_decide_eq_true hp.2)).1⟩

/-- A node that becomes a root while the link is sending returns the message to its pool. -/
theorem inPlace_false : ¬ ∀ (cfg : Config) (h : List (Forwarder × Event)) (s : Forwarder),
    (machine cfg).Run h s → s.InPlace cfg := by
  intro hall
  obtain ⟨h, s, hr, hp⟩ := Machine.exists_run_of_exec (M := machine exampleConfig) rfl
    [.start, .startDone .success, .send {} 20 0, .sendDataTask { route := some (2, 0) }, .setRoot,
      .send {} 20 0, .sendDataTask {}]
    (fun _ s => s.pending.any (fun m => m ∈ s.messagePool.toList) && !s.sendQeOccupied)
    (by decide)
  rw [Bool.and_eq_true, Bool.not_eq_true'] at hp
  obtain ⟨m, hm, -⟩ := (Option.any_eq_true ..).1 hp.1
  have ho := ((hall _ h s hr).link m hm).1
  rw [hp.2] at ho
  cases ho

end Forwarder

end BCP
