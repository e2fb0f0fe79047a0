import Backip.BCP.Forwarding

/-!
# Snooped packets

`SubSnoop.receive` posts `snoopHandlerTask`, which takes one packet from the snoop queue and does not
post itself again; a post while it is posted is absorbed. All other handlers leave the queue and the
post alone (`Forwarder.snooping`). So packets are left with nobody to take them exactly if the task
runs with more than one in the queue (`Forwarder.attended_iff`).
-/

set_option autoImplicit false

namespace BCP.Forwarder

/-- The snoop queue, and whether its task is posted. -/
def snooping (s : Forwarder) : QueueC MsgPtr snoopQueueSize × Bool :=
  (s.snoopQueue, s.snoopHandlerPosted)

/-! ## What leaves the snoop queue alone -/

section
variable (cfg : Config) (s : Forwarder) (q : QePtr) (msg : MsgPtr) (code : UInt8)

@[simp] theorem snooping_record (c : Call) : (s.record c).snooping = s.snooping := rfl

@[simp] theorem snooping_reportError : (s.reportError code).snooping = s.snooping := rfl

@[simp] theorem snooping_setMsg (m : Message) : (s.setMsg msg m).snooping = s.snooping := rfl

@[simp] theorem snooping_setQe (e : FeQueueEntry) : (s.setQe q e).snooping = s.snooping := rfl

@[simp] theorem snooping_check (ret : TinyError) : (s.check ret code).snooping = s.snooping := by
  unfold check
  split <;> rfl

@[simp] theorem snooping_stopSending : s.stopSending.snooping = s.snooping := rfl

@[simp] theorem snooping_retryLater : s.retryLater.snooping = s.snooping := rfl

@[simp] theorem snooping_setSendQe : (s.setSendQe q).snooping = s.snooping := rfl

@[simp] theorem snooping_setLoopback : (s.setLoopback msg).snooping = s.snooping := rfl

@[simp] theorem snooping_clearSendQe : s.clearSendQe.snooping = s.snooping := rfl

@[simp] theorem snooping_getMessage : s.getMessage.2.snooping = s.snooping := rfl

@[simp] theorem snooping_getQEntry : s.getQEntry.2.snooping = s.snooping := rfl

@[simp] theorem snooping_putMessage : (s.putMessage msg code).snooping = s.snooping := by
  apply snooping_check

@[simp] theorem snooping_putQEntry : (s.putQEntry q code).snooping = s.snooping := by
  apply snooping_check

@[simp] theorem snooping_popTop : s.popTop.2.snooping = s.snooping := rfl

@[simp] theorem snooping_popBottom : s.popBottom.2.snooping = s.snooping := rfl

@[simp] theorem snooping_pushTop : (s.pushTop q).2.snooping = s.snooping := rfl

@[simp] theorem snooping_insert : (s.insert cfg q).2.snooping = s.snooping := by
  unfold insert
  split <;> rfl

@[simp] theorem snooping_signalReceive (back : MsgPtr) :
    (s.signalReceive msg back).2.snooping = s.snooping := by
  unfold signalReceive
  dsimp only
  split <;> rfl

@[simp] theorem snooping_subSend (dst : UInt16) (len : UInt8) (r : TinyError) :
    (s.subSend q dst len r).2.snooping = s.snooping := rfl

@[simp] theorem snooping_forwarderActivity : s.forwarderActivity.snooping = s.snooping := by
  unfold forwarderActivity
  repeat' split
  all_goals rfl

attribute [local irreducible] record reportError setMsg setQe check stopSending retryLater setSendQe
  setLoopback clearSendQe getMessage getQEntry putMessage putQEntry popTop popBottom pushTop insert
  signalReceive subSend forwarderActivity

@[simp] theorem snooping_conditionalFQDiscard :
    (s.conditionalFQDiscard cfg).snooping = s.snooping := by
  unfold conditionalFQDiscard
  split
  · dsimp only
    split
    · change (putQEntry _ _ _).snooping = _
      simp
    · simp
  · rfl

@[simp] theorem snooping_latestForwardedTableUpdate (src origin : UInt16)
    (originSeqNo hopCount : UInt8) :
    (s.latestForwardedTableUpdate src origin originSeqNo hopCount).snooping = s.snooping := by
  unfold latestForwardedTableUpdate
  split
  · split
    · simp
    · rfl
  · rfl

@[simp] theorem snooping_serveRoot (back : MsgPtr) :
    (s.serveRoot q back).snooping = s.snooping := by
  simp [serveRoot]

attribute [local irreducible] conditionalFQDiscard latestForwardedTableUpdate serveRoot

@[simp] theorem snooping_sendDataRoot (back : MsgPtr) :
    (s.sendDataRoot back).snooping = s.snooping := by
  unfold sendDataRoot
  dsimp only
  split
  · simp
  · split <;> simp

@[simp] theorem snooping_fillNull (now : UInt32) :
    (s.fillNull cfg q msg now).snooping = s.snooping := by
  unfold fillNull
  dsimp only
  rw [snooping_setQe]
  change (s.setMsg msg _).snooping = _
  simp

@[simp] theorem snooping_pushNull (now : UInt32) :
    (s.pushNull cfg now).2.snooping = s.snooping := by
  unfold pushNull
  dsimp only
  split
  · simp
  · split
    · simp
    · change (check _ _ _).snooping = _
      simp

@[simp] theorem snooping_takeNext (now : UInt32) : (s.takeNext now).snooping = s.snooping := by
  unfold takeNext
  change (setSendQe _ _).snooping = _
  simp

@[simp] theorem snooping_giveUp : (s.giveUp cfg).snooping = s.snooping := by
  simp [giveUp]

@[simp] theorem snooping_sendResult (r : TinyError) :
    (s.sendResult cfg msg r).snooping = s.snooping := by
  unfold sendResult
  cases r <;> simp <;> rfl

attribute [local irreducible] sendDataRoot fillNull pushNull takeNext giveUp sendResult

@[simp] theorem snooping_transmit (a : Answers) : (s.transmit cfg a).snooping = s.snooping := by
  unfold transmit
  dsimp only
  rw [snooping_sendResult, snooping_subSend]
  change (setMsg _ _ _).snooping = _
  rw [snooping_setMsg]
  change (setQe _ _ _).snooping = _
  simp

attribute [local irreducible] transmit

@[simp] theorem snooping_attempt (a : Answers) : (s.attempt cfg a).snooping = s.snooping := by
  unfold attempt
  split <;> simp

@[simp] theorem snooping_setNextHopAddress (hop : UInt16 × UInt16) :
    (s.setNextHopAddress hop).snooping = s.snooping := rfl

attribute [local irreducible] attempt setNextHopAddress

@[simp] theorem snooping_sendNext (a : Answers) : (s.sendNext cfg a).snooping = s.snooping := by
  unfold sendNext
  dsimp only
  split
  · split <;> simp
  · simp

attribute [local irreducible] sendNext

@[simp] theorem snooping_sendDataTask (a : Answers) :
    (s.sendDataTask cfg a).snooping = s.snooping := by
  unfold sendDataTask
  split
  · simp
  · split
    · simp
    · split
      · simp
      · dsimp only
        split <;> simp

@[simp] theorem snooping_enqueue (m : Message) (now : UInt32) :
    (s.enqueue cfg m now).2.snooping = s.snooping := by
  unfold enqueue
  dsimp only
  repeat' split
  all_goals simp

attribute [local irreducible] sendDataTask enqueue

@[simp] theorem snooping_send (m : Message) (len : UInt8) (now : UInt32) :
    (s.send cfg m len now).2.snooping = s.snooping := by
  unfold send
  split
  · rfl
  · split
    · rfl
    · rw [snooping_enqueue]
      rfl

@[simp] theorem snooping_forward (now : UInt32) :
    (s.forward cfg msg now).2.snooping = s.snooping := by
  unfold forward
  dsimp only
  repeat' split
  all_goals simp

@[simp] theorem snooping_accept : (s.accept msg).snooping = s.snooping := by
  unfold accept
  dsimp only
  rw [snooping_setMsg, snooping_record, snooping_record, snooping_latestForwardedTableUpdate]
  rfl

attribute [local irreducible] send forward accept

@[simp] theorem snooping_subReceive (a : Answers) :
    (s.subReceive cfg msg a).2.snooping = s.snooping := by
  unfold subReceive
  split
  · simp
  · rfl
  · simp only [snooping_record]
    rfl
  · dsimp only
    split <;> simp

@[simp] theorem snooping_finish (now : UInt32) : (s.finish now).snooping = s.snooping := by
  simp [finish]

attribute [local irreducible] subReceive finish

@[simp] theorem snooping_subSendDone (error : TinyError) (acked : Bool) (now : UInt32) :
    (s.subSendDone msg error acked now).snooping = s.snooping := by
  unfold subSendDone
  repeat' split
  · simp
  · rfl
  · change (record _ _).snooping = _
    simp
  · simp

@[simp] theorem snooping_sendBeaconTask (r : TinyError) :
    (s.sendBeaconTask r).snooping = s.snooping := by
  unfold sendBeaconTask
  dsimp only
  split <;> exact snooping_record ..

@[simp] theorem snooping_beaconReceive (src bcpBackpressure : UInt16) (len : UInt8) :
    (s.beaconReceive src bcpBackpressure len).snooping = s.snooping := by
  unfold beaconReceive
  dsimp only
  split <;> simp

@[simp] theorem snooping_beaconFired : s.beaconFired.snooping = s.snooping := by
  unfold beaconFired
  dsimp only
  split <;> rfl

@[simp] theorem snooping_txRetryFired : s.txRetryFired.snooping = s.snooping := by
  unfold txRetryFired
  split <;> rfl

@[simp] theorem snooping_startDone (error : TinyError) :
    (s.startDone error).snooping = s.snooping := by
  unfold startDone
  split
  · rw [snooping_forwarderActivity]
    rfl
  · rfl

@[simp] theorem snooping_stopDone (error : TinyError) :
    (s.stopDone error).snooping = s.snooping := by
  unfold stopDone
  split <;> rfl

end

variable {cfg : Config} {s s' : Forwarder}

/-! ## What does not -/

/-- `MessagePool.put` keeps the calls, and what it returns is recorded. -/
theorem putMessage_spec (s : Forwarder) (msg : MsgPtr) (code : UInt8) :
    (s.putMessage msg code).messagePool = (s.messagePool.put msg).2 ∧
      ∀ c ∈ s.calls, c ∈ (s.putMessage msg code).calls := by
  unfold putMessage check
  dsimp only
  split
  · exact ⟨rfl, fun c hc => .tail _ (.tail _ hc)⟩
  · exact ⟨rfl, fun c hc => .tail _ hc⟩

attribute [local irreducible] getMessage reportError putMessage

/-- `SubSnoop.receive` queues the packet and posts the task, or drops the packet. -/
theorem snooping_subSnoop (cfg : Config) (s : Forwarder) (msg : MsgPtr) :
    (s.subSnoop cfg msg).2.snooping = s.snooping ∨
      (s.subSnoop cfg msg).2.snoopQueue.toList = s.snoopQueue.toList ++ [msg] ∧
        (s.subSnoop cfg msg).2.snoopHandlerPosted = true := by
  unfold subSnoop
  split
  · exact .inl (snooping_reportError ..)
  · split
    · exact .inl rfl
    · rename_i hroom
      split
      · exact .inl rfl
      · dsimp only
        split
        · left
          rw [snooping_reportError, snooping_getMessage]
        · have hqueue : s.getMessage.2.snoopQueue = s.snoopQueue :=
            congrArg Prod.fst (snooping_getMessage s)
          have hlt : s.snoopQueue.toList.length < snoopQueueSize := by
            rw [QueueC.length_toList]
            have := s.snoopQueue.size_le
            change s.snoopQueue.size ≠ snoopQueueSize at hroom
            omega
          obtain ⟨hret, hlist⟩ := QueueC.enqueue_ok msg hlt
          rw [hqueue, if_neg (not_not_intro hret)]
          exact .inr ⟨hlist, rfl⟩

/-- What the routing engine is told of the snooped packet `m`. -/
def snooped (s : Forwarder) (m : Message) : Call :=
  .router (.updateNeighborSnoop s.getBackpressure m.hdr.bcpBackpressure m.hdr.nhBackpressure
    m.hdr.nodeTxCount m.src m.hdr.burstNotifyAddr)

/-- `snoopHandlerTask` takes the packet at the head, if there is one. -/
theorem snoopHandlerTask_cons {msg : MsgPtr} {rest : List MsgPtr}
    (hq : s.snoopQueue.toList = msg :: rest) (notify : Bool) :
    (s.snoopHandlerTask notify).snoopQueue.toList = rest ∧
      (s.snoopHandlerTask notify).snoopHandlerPosted = s.snoopHandlerPosted ∧
      (s.snoopHandlerTask notify).messagePool = (s.messagePool.put msg).2 ∧
      s.snooped (s.mem msg) ∈ (s.snoopHandlerTask notify).calls := by
  have hempty : ¬s.snoopQueue.empty = true := by
    rw [QueueC.empty_iff, hq]
    exact List.cons_ne_nil _ _
  obtain ⟨hfirst, hrest⟩ := QueueC.dequeue_cons hq
  obtain ⟨t, hrun, hqueue, hposted, hpool, hcall⟩ : ∃ t : Forwarder,
      s.snoopHandlerTask notify = t.putMessage msg 0x59 ∧ t.snoopQueue = s.snoopQueue.dequeue.2 ∧
        t.snoopHandlerPosted = s.snoopHandlerPosted ∧ t.messagePool = s.messagePool ∧
        s.snooped (s.mem msg) ∈ t.calls := by
    unfold snoopHandlerTask
    rw [if_neg hempty, hfirst]
    exact ⟨_, rfl, rfl, rfl, rfl, .head _⟩
  obtain ⟨hput, hcalls⟩ := putMessage_spec t msg 0x59
  have hsnooping := snooping_putMessage t msg 0x59
  rw [hrun]
  refine ⟨?_, (congrArg Prod.snd hsnooping).trans hposted, hput.trans (by rw [hpool]),
    hcalls _ hcall⟩
  rw [show (t.putMessage msg 0x59).snoopQueue = t.snoopQueue from congrArg Prod.fst hsnooping,
    hqueue, hrest]

/-- An event other than `snoopHandlerTask` leaves the queue and the post alone, or it queues a packet
and posts the task. -/
theorem step_snooping {e : Event} (he : ∀ notify, e ≠ .snoopHandlerTask notify)
    (hstep : s.step cfg e = some s') : s'.snooping = s.snooping ∨
      (∃ msg, s'.snoopQueue.toList = s.snoopQueue.toList ++ [msg]) ∧
        s'.snoopHandlerPosted = true := by
  cases e with
  | snoopHandlerTask notify => exact absurd rfl (he notify)
  | start | stop | setRoot | unsetRoot =>
    cases hstep
    exact .inl rfl
  | startDone error =>
    cases hstep
    exact .inl (snooping_startDone ..)
  | stopDone error =>
    cases hstep
    exact .inl (snooping_stopDone ..)
  | send m len now =>
    cases hstep
    exact .inl (snooping_send ..)
  | receive msg frame a =>
    simp only [step, arrive] at hstep
    split at hstep
    · cases hstep
      exact .inl (snooping_subReceive ..)
    · cases hstep
  | snoop msg frame =>
    simp only [step, arrive] at hstep
    split at hstep
    · cases hstep
      rcases snooping_subSnoop cfg
        ({ s with radio := s.radio.erase msg }.setMsg msg frame) msg with hsame | ⟨hlist, hposted⟩
      · exact .inl hsame
      · exact .inr ⟨⟨msg, hlist⟩, hposted⟩
    · cases hstep
  | sendDataTask a =>
    obtain ⟨-, hs'⟩ := Option.ite_none_right_eq_some.1 hstep
    cases hs'
    exact .inl (snooping_sendDataTask ..)
  | sendBeaconTask r =>
    obtain ⟨-, hs'⟩ := Option.ite_none_right_eq_some.1 hstep
    cases hs'
    exact .inl (snooping_sendBeaconTask ..)
  | txRetryTimerFired =>
    obtain ⟨-, hs'⟩ := Option.ite_none_right_eq_some.1 hstep
    cases hs'
    exact .inl (snooping_txRetryFired ..)
  | beaconTimerFired =>
    obtain ⟨-, hs'⟩ := Option.ite_none_right_eq_some.1 hstep
    cases hs'
    exact .inl (snooping_beaconFired ..)
  | subSendDone error acked now =>
    simp only [step] at hstep
    split at hstep
    · cases hstep
      exact .inl (snooping_subSendDone ..)
    · cases hstep
  | beaconSendDone =>
    obtain ⟨-, hs'⟩ := Option.ite_none_right_eq_some.1 hstep
    cases hs'
    exact .inl rfl
  | beaconReceive src bcpBackpressure len =>
    cases hstep
    exact .inl (snooping_beaconReceive ..)

/-! ## Nobody to take a packet -/

/-- A snooped packet that waits will be taken. -/
def Attended (s : Forwarder) : Prop :=
  s.snoopQueue.toList ≠ [] → s.snoopHandlerPosted = true

/-- When the packet at the head leaves the queue, the routing engine has been told of it, and its
buffer is back in the pool. -/
def Serves (cfg : Config) (s : Forwarder) (e : Event) : Prop :=
  ∀ s', s.step cfg e = some s' → ∀ msg, s.snoopQueue.toList = msg :: s'.snoopQueue.toList →
    s'.messagePool.toList = s.messagePool.toList ++ [msg] ∧ s.snooped (s.mem msg) ∈ s'.calls

/-- `snoopHandlerTask` finds at most one packet, and room for its buffer. -/
def Handles (s : Forwarder) : Event → Prop
  | .snoopHandlerTask _ => s.snoopQueue.size ≤ 1 ∧
    (s.snoopQueue.size = 1 → s.messagePool.free < forwardingQueueSize + snoopQueueSize)
  | _ => True

instance (s : Forwarder) (e : Event) : Decidable (s.Handles e) := by
  unfold Handles
  split <;> infer_instance

/-- `snoopHandlerTask` finds at most one packet. -/
def Alone (s : Forwarder) : Event → Prop
  | .snoopHandlerTask _ => s.snoopQueue.size ≤ 1
  | _ => True

/-- A step leaves nobody waiting in vain exactly if it leaves nobody behind. -/
theorem attended_step_iff {e : Event} (hs : s.Attended) (hstep : s.step cfg e = some s') :
    s'.Attended ↔ s.Alone e := by
  by_cases he : ∀ notify, e ≠ .snoopHandlerTask notify
  · have halone : s.Alone e := by
      cases e with
      | snoopHandlerTask notify => exact absurd rfl (he notify)
      | _ => trivial
    refine iff_of_true ?_ halone
    rcases step_snooping he hstep with hsame | ⟨-, hposted⟩
    · obtain ⟨hqueue, hposted⟩ := Prod.mk.inj hsame
      rw [Attended, hqueue, hposted]
      exact hs
    · exact fun _ => hposted
  · push Not at he
    obtain ⟨notify, rfl⟩ := he
    obtain ⟨-, hs'⟩ := Option.ite_none_right_eq_some.1 hstep
    cases hs'
    rw [Alone, ← QueueC.length_toList]
    cases hq : s.snoopQueue.toList with
    | nil =>
      refine iff_of_true ?_ (by simp)
      have hempty : s.snoopQueue.empty = true := (QueueC.empty_iff _).2 hq
      rw [Attended, snoopHandlerTask, if_pos hempty]
      exact fun hne => absurd hq hne
    | cons msg rest =>
      obtain ⟨hqueue, hposted, -⟩ :=
        snoopHandlerTask_cons (s := { s with snoopHandlerPosted := false }) hq notify
      rw [Attended, hqueue, hposted]
      cases rest <;> simp

/-- A step returns the buffer it takes from the queue exactly if the pool has room. -/
theorem serves_iff {e : Event} (hstep : s.step cfg e = some s') :
    s.Alone e ∧ s.Serves cfg e ↔ s.Handles e := by
  by_cases he : ∀ notify, e ≠ .snoopHandlerTask notify
  · have halone : s.Alone e ∧ s.Handles e := by
      cases e with
      | snoopHandlerTask notify => exact absurd rfl (he notify)
      | _ => exact ⟨trivial, trivial⟩
    refine iff_of_true ⟨halone.1, ?_⟩ halone.2
    intro t ht msg hmsg
    have hlen := congrArg List.length hmsg
    rcases step_snooping he ht with hsame | ⟨⟨msg', hlist⟩, -⟩
    · rw [show t.snoopQueue = s.snoopQueue from congrArg Prod.fst hsame] at hlen
      simp at hlen
    · rw [hlist] at hlen
      simp at hlen
      omega
  · push Not at he
    obtain ⟨notify, rfl⟩ := he
    rw [Alone, Handles]
    refine and_congr_right fun hone => ?_
    constructor
    · intro hserves hsize
      obtain ⟨msg, hq⟩ := List.length_eq_one_iff.1 ((QueueC.length_toList _).trans hsize)
      obtain ⟨-, hs'⟩ := Option.ite_none_right_eq_some.1 hstep
      cases hs'
      obtain ⟨hqueue, -, hpool, -⟩ :=
        snoopHandlerTask_cons (s := { s with snoopHandlerPosted := false }) hq notify
      have hput := (hserves _ hstep msg (by rw [hqueue]; exact hq)).1
      rw [hpool] at hput
      by_contra hfull
      have hlen : s.messagePool.toList.length = forwardingQueueSize + snoopQueueSize := by
        have := s.messagePool.length_le
        rw [PoolP.length_toList] at this ⊢
        omega
      rw [PoolP.put_full msg hlen] at hput
      exact absurd (congrArg List.length hput) (by simp)
    · intro hroom t ht msg hmsg
      obtain ⟨-, hs'⟩ := Option.ite_none_right_eq_some.1 ht
      cases hs'
      have hlen := congrArg List.length hmsg
      rw [QueueC.length_toList, List.length_cons] at hlen
      have hlt : s.messagePool.toList.length < forwardingQueueSize + snoopQueueSize := by
        rw [PoolP.length_toList]
        exact hroom (by omega)
      obtain ⟨-, -, hpool, hcall⟩ :=
        snoopHandlerTask_cons (s := { s with snoopHandlerPosted := false }) hmsg notify
      refine ⟨?_, hcall⟩
      rw [hpool]
      exact (PoolP.put_ok msg hlt).2

/-- **No snooped packet is left behind, and each buffer is returned, exactly if** `snoopHandlerTask`
always finds one packet at most, and room for its buffer. -/
theorem attended_iff {h : List (Forwarder × Event)} (hr : (machine cfg).Run h s) :
    (s.Attended ∧ ∀ p ∈ h, p.1.Attended ∧ p.1.Serves cfg p.2) ↔ ∀ p ∈ h, p.1.Handles p.2 := by
  have hattended := hr.forall_iff (I := fun _ => True) (P := Attended) (C := Alone)
    ⟨fun _ _ => trivial, fun _ _ _ _ _ => trivial⟩
    (by rintro _ rfl; exact fun hne => absurd rfl hne)
    (fun s e s' _ hs hstep => attended_step_iff hs hstep)
  have hserves := hr.forall_steps_iff (J := fun _ => True)
    (R := fun s e => s.Alone e ∧ s.Serves cfg e) (C := Handles) (fun _ _ => trivial)
    (fun _ _ _ _ _ _ => trivial) (fun s e s' _ hstep => serves_iff hstep)
  rw [← hserves]
  constructor
  · rintro ⟨hs, hh⟩ p hp
    exact ⟨hattended.1 ⟨hs, fun p hp => (hh p hp).1⟩ p hp, (hh p hp).2⟩
  · intro hall
    obtain ⟨hs, hh⟩ := hattended.2 fun p hp => (hall p hp).1
    exact ⟨hs, fun p hp => ⟨hh p hp, (hall p hp).2⟩⟩

/-- Two packets, each handled before the next. -/
theorem attended_two : ∃ h s, (machine exampleConfig).Run h s ∧ s.calls.length = 4 ∧ s.Attended := by
  obtain ⟨h, s, hr, hp⟩ := Machine.exists_run_of_exec (M := machine exampleConfig) rfl
    [.snoop (.other 0) {}, .snoopHandlerTask false, .snoop (.pool 0) {}, .snoopHandlerTask false]
    (fun h s => s.calls.length = 4 && decide (∀ p ∈ h, p.1.Handles p.2)) (by decide +kernel)
  rw [Bool.and_eq_true, decide_eq_true_iff] at hp
  exact ⟨h, s, hr, hp.1, ((attended_iff hr).2 (of_decide_eq_true hp.2)).1⟩

/-- Two packets come before the task runs: it takes one, and the other is left with no task. -/
theorem attended_false : ¬∀ (cfg : Config) (h : List (Forwarder × Event)) (s : Forwarder),
    (machine cfg).Run h s → s.Attended := by
  intro hall
  obtain ⟨h, s, hr, hp⟩ := Machine.exists_run_of_exec (M := machine exampleConfig) rfl
    [.snoop (.other 0) {}, .snoop (.pool 0) {}, .snoopHandlerTask false]
    (fun _ s => s.snoopQueue.size = 1 && !s.snoopHandlerPosted) (by decide +kernel)
  rw [Bool.and_eq_true, decide_eq_true_iff, Bool.not_eq_true'] at hp
  have hposted := hall _ h s hr fun hnil => by
    have := congrArg List.length hnil
    rw [QueueC.length_toList, hp.1] at this
    cases this
  rw [hp.2] at hposted
  cases hposted

end BCP.Forwarder
