import Backip.BCP.Forwarding
import Backip.Lib.Custody

/-!
# The forwarding engine as lists

`View` is the state of a forwarder as far as its buffers and its flow of control go: the pools, the
stack and the snoop queue as the lists of what is in them, the packet being sent, the flags, and
what the link and the others hold. `Move cfg v e v'` says what an event `e` can do to it, one
constructor for each way through a handler, as long as each buffer is in one place.

That the code's handlers make only these moves is `Forwarder.step_move`
(`Proof/ForwarderStep.lean`).
-/

set_option autoImplicit false

namespace BCP

/-- The codes `BcpDebugIF.reportError` is called with where a pool, the stack or the snoop queue
has failed. -/
def failureCodes : List UInt8 :=
  [0x37, 0x39, 0x41, 0x47, 0x48, 0x49, 0x4b, 0x57, 0x59, 0x5b, 0x5c, 0x5d, 0x5f, 0x6b, 0x6c, 0x6d,
    0x70, 0x71, 0x72, 0x73, 0x74, 0x75, 0x76, 0xbb, 0xbc, 0xdb]

/-- A pool, the stack or the snoop queue has failed. -/
def Call.isFault : Call → Bool
  | .reportError code => failureCodes.contains code
  | .messagePut _ ret | .qEntryPut _ ret => ret != .success
  | _ => false

structure View where
  free : List MsgPtr
  freeQe : List QePtr
  stack : List QePtr
  snoop : List MsgPtr
  qe : QePtr → FeQueueEntry
  sendQe : QePtr
  occupied : Bool
  virtual : UInt16
  posted : Bool
  sending : Bool
  running : Bool
  radioOn : Bool
  isRoot : Bool
  retry : Bool
  pending : Option MsgPtr
  radio : List MsgPtr
  app : List MsgPtr
  loopback : MsgPtr
  faults : List Call

def Forwarder.view (s : Forwarder) : View where
  free := s.messagePool.toList
  freeQe := s.qEntryPool.toList
  stack := s.sendStack.toList
  snoop := s.snoopQueue.toList
  qe := s.qe
  sendQe := s.sendQe
  occupied := s.sendQeOccupied
  virtual := s.virtualQueueSize
  posted := s.sendDataPosted
  sending := s.sending
  running := s.running
  radioOn := s.radioOn
  isRoot := s.isRoot
  retry := s.txRetryTimer.isRunning
  pending := s.pending
  radio := s.radio
  app := s.app
  loopback := s.loopbackMsgPtr
  faults := s.calls.filter Call.isFault

namespace View

/-- The message of an entry. -/
def msgOf (v : View) (q : QePtr) : MsgPtr := (v.qe q).msg

/-- The entry being sent. -/
def current (v : View) : List QePtr := if v.occupied then [v.sendQe] else []

/-- The entries in use. -/
def held (v : View) : List QePtr := v.stack ++ v.current

/-- The messages that are in no entry. -/
def loose (v : View) : List MsgPtr := v.free ++ v.snoop ++ v.radio ++ v.app ++ [v.loopback]

/-- `conditionalFQDiscard`: a full stack loses its oldest packet. -/
def discard (cfg : Config) (v : View) : View :=
  match v.stack with
  | [] => v
  | q :: rest =>
    if rest.length + 1 = forwardingQueueSize - 1 then
      { v with
        stack := rest
        free := v.free ++ [v.msgOf q]
        freeQe := v.freeQe ++ [q]
        virtual := if cfg.virtq then v.virtual + 1 else v.virtual }
    else v

/-- There is something to send. -/
def backlog (v : View) : Bool := !v.stack.isEmpty || v.virtual > 0 || v.occupied

/-- `forwarderActivity`. -/
def activity (v : View) : View :=
  if !v.running then v
  else if v.isRoot then { v with virtual := 0, posted := v.posted || !v.stack.isEmpty }
  else if v.sending then v
  else if v.backlog then { v with sending := true, posted := true }
  else v

/-- A new entry goes on top or, unless the build is LIFO, to the bottom. -/
def inserted (cfg : Config) (stack : List QePtr) (q : QePtr) : List QePtr :=
  if cfg.lifo then stack ++ [q] else q :: stack

/-- The application keeps a message it is signalled, and returns one of its own, or returns it. -/
def swap (app : List MsgPtr) (msg back : MsgPtr) : MsgPtr × List MsgPtr :=
  if back ∈ app then (back, msg :: app.erase back) else (msg, app)

/-- The entry `q` and its message go back to their pools. -/
def release (v : View) (q : QePtr) : View :=
  { v with free := v.free ++ [v.msgOf q], freeQe := v.freeQe ++ [q] }

/-- A root serves entry `q` itself. -/
def serve (v : View) (q : QePtr) (back : MsgPtr) : View :=
  let r := swap v.app v.loopback back
  ({ v.release q with loopback := r.1, app := r.2 }).activity

/-- The ways `sendDataTask` comes to a packet to send. -/
inductive Ready : View → Answers → View → Prop
  | current (v : View) (a : Answers) (ho : v.occupied = true) : Ready v a v
  | next (v : View) (a : Answers) (l : List QePtr) (q : QePtr) (ho : v.occupied = false)
      (hr : a.route ≠ none) (hs : v.stack = l ++ [q]) :
      Ready v a
        { v with
          stack := l
          sendQe := q
          occupied := true
          qe := Function.update v.qe q { v.qe q with firstTxTime := a.now } }
  | null (v : View) (a : Answers) (q : QePtr) (freeQe : List QePtr) (m : MsgPtr)
      (free : List MsgPtr) (ho : v.occupied = false) (hr : a.route ≠ none) (hs : v.stack = [])
      (hv : v.virtual ≠ 0) (hq : v.freeQe = q :: freeQe) (hm : v.free = m :: free) :
      Ready v a
        { v with
          freeQe := freeQe
          free := free
          stack := []
          virtual := v.virtual - 1
          sendQe := q
          occupied := true
          qe := Function.update v.qe q
            { arrivalTime := a.now, source := 1, msg := m, firstTxTime := a.now } }

/-- `SubSend.send`: while a message is outstanding the link is busy. -/
def answer (v : View) (r : TinyError) : TinyError := if v.pending.isSome then .ebusy else r

inductive Move (cfg : Config) : View → Event → View → Prop
  | start (v : View) : Move cfg v .start { v with running := true }
  | stop (v : View) : Move cfg v .stop { v with running := false }
  | setRoot (v : View) : Move cfg v .setRoot { v with isRoot := true }
  | unsetRoot (v : View) : Move cfg v .unsetRoot { v with isRoot := false }
  | startDone (v : View) : Move cfg v (.startDone .success) ({ v with radioOn := true }).activity
  | startFailed (v : View) (error : TinyError) (h : error ≠ .success) :
      Move cfg v (.startDone error) v
  | stopDone (v : View) : Move cfg v (.stopDone .success) { v with radioOn := false }
  | stopFailed (v : View) (error : TinyError) (h : error ≠ .success) :
      Move cfg v (.stopDone error) v
  /-- A `Send.send` that is refused: the engine does not run, or the payload is too long. -/
  | sendRefused (v : View) (m : Message) (len : UInt8) (now : UInt32)
      (h : v.running = false ∨ Forwarder.maxPayloadLength cfg < len) :
      Move cfg v (.send m len now) v
  /-- A `Send.send` whose packet enters the queue. -/
  | sendAccepted (v : View) (m : Message) (len : UInt8) (now : UInt32) (q : QePtr)
      (freeQe : List QePtr) (msg : MsgPtr) (free : List MsgPtr)
      (hq : (v.discard cfg).freeQe = q :: freeQe) (hm : (v.discard cfg).free = msg :: free) :
      Move cfg v (.send m len now)
        ({ v.discard cfg with
          freeQe := freeQe
          free := free
          qe := Function.update v.qe q { source := 1, arrivalTime := now, msg := msg }
          stack := inserted cfg (v.discard cfg).stack q }).activity
  /-- An arrival that is discarded. -/
  | receiveDropped (v : View) (msg : MsgPtr) (frame : Message) (a : Answers)
      (hm : msg ∈ v.radio) :
      Move cfg v (.receive msg frame a) { v with radio := msg :: v.radio.erase msg }
  /-- An arrival at a root. -/
  | receiveRoot (v : View) (msg : MsgPtr) (frame : Message) (a : Answers) (hm : msg ∈ v.radio)
      (hr : v.isRoot = true) :
      Move cfg v (.receive msg frame a)
        { v with
          app := (swap v.app msg a.back).2
          radio := (swap v.app msg a.back).1 :: v.radio.erase msg }
  /-- An arrival that is forwarded: the radio gets a buffer of the pool for it. -/
  | receiveForward (v : View) (msg : MsgPtr) (frame : Message) (a : Answers) (delay : UInt32)
      (q : QePtr) (freeQe : List QePtr) (newMsg : MsgPtr) (free : List MsgPtr)
      (hm : msg ∈ v.radio) (hr : v.isRoot = false) (hq : (v.discard cfg).freeQe = q :: freeQe)
      (hf : (v.discard cfg).free = newMsg :: free) :
      Move cfg v (.receive msg frame a)
        ({ v.discard cfg with
          freeQe := freeQe
          free := free
          qe := Function.update v.qe q
            { source := 2, arrivalTime := a.now, bcpArrivalDelay := delay, msg := msg }
          radio := newMsg :: v.radio.erase msg
          stack := inserted cfg (v.discard cfg).stack q }).activity
  | snoopDropped (v : View) (msg : MsgPtr) (frame : Message) (hm : msg ∈ v.radio) :
      Move cfg v (.snoop msg frame) { v with radio := msg :: v.radio.erase msg }
  | snoopQueued (v : View) (msg : MsgPtr) (frame : Message) (newMsg : MsgPtr)
      (free : List MsgPtr) (hm : msg ∈ v.radio) (hroom : v.snoop.length < snoopQueueSize)
      (hf : v.free = newMsg :: free) :
      Move cfg v (.snoop msg frame)
        { v with
          free := free
          snoop := v.snoop ++ [msg]
          radio := newMsg :: v.radio.erase msg }
  | snoopIdle (v : View) (notify : Bool) (hs : v.snoop = []) :
      Move cfg v (.snoopHandlerTask notify) v
  | snoopHandled (v : View) (notify : Bool) (msg : MsgPtr) (rest : List MsgPtr)
      (hs : v.snoop = msg :: rest) :
      Move cfg v (.snoopHandlerTask notify) { v with snoop := rest, free := v.free ++ [msg] }
  /-- `sendDataTask` at a root that was sending a packet. -/
  | serveCurrent (v : View) (a : Answers) (hp : v.posted = true) (hr : v.isRoot = true)
      (ho : v.occupied = true) :
      Move cfg v (.sendDataTask a)
        (({ v with posted := false, sending := false, occupied := false }).serve v.sendQe a.back)
  /-- `sendDataTask` at a root that has packets on the stack. -/
  | serveStack (v : View) (a : Answers) (l : List QePtr) (q : QePtr) (hp : v.posted = true)
      (hr : v.isRoot = true) (ho : v.occupied = false) (hs : v.stack = l ++ [q]) :
      Move cfg v (.sendDataTask a)
        (({ v with posted := false, sending := false, sendQe := q, stack := l }).serve q a.back)
  /-- `sendDataTask` at a root that has none. -/
  | rootIdle (v : View) (a : Answers) (hp : v.posted = true) (hr : v.isRoot = true)
      (ho : v.occupied = false) (hs : v.stack = []) (hv : v.virtual = 0) :
      Move cfg v (.sendDataTask a) { v with posted := false, sending := false }
  /-- `sendDataTask` at a root that takes a virtual packet for one on the stack: the entry it finds
  does not fit the pool. -/
  | servePhantom (v : View) (a : Answers) (v' : View) (q : QePtr) (hp : v.posted = true)
      (hr : v.isRoot = true) (ho : v.occupied = false) (hs : v.stack = []) (hv : v.virtual ≠ 0)
      (hf : Call.qEntryPut q .fail ∈ v'.faults) :
      Move cfg v (.sendDataTask a) v'
  | taskEmpty (v : View) (a : Answers) (hp : v.posted = true) (hr : v.isRoot = false)
      (ho : v.occupied = false) (hs : v.stack = []) (hv : v.virtual = 0) :
      Move cfg v (.sendDataTask a) { v with posted := false }
  | noRoute (v : View) (a : Answers) (hp : v.posted = true) (hr : v.isRoot = false)
      (ho : v.occupied = false) (hs : v.stack ≠ [] ∨ v.virtual ≠ 0) (hn : a.route = none) :
      Move cfg v (.sendDataTask a) { v with posted := false, sending := false, retry := true }
  /-- `sendDataTask` gives up on a link. -/
  | giveUp (v v₁ : View) (a : Answers) (hp : v.posted = true) (hr : v.isRoot = false)
      (hv : Ready { v with posted := false } a v₁)
      (ht : maxRetxAttempts ≤ (v₁.qe v₁.sendQe).txCount) :
      Move cfg v (.sendDataTask a)
        { v₁.discard cfg with
          stack := (v₁.discard cfg).stack ++ [v₁.sendQe]
          qe := Function.update v₁.qe v₁.sendQe { v₁.qe v₁.sendQe with txCount := 0 }
          occupied := false
          sending := false
          retry := true }
  /-- `sendDataTask` gives the link a packet. -/
  | transmit (v v₁ : View) (a : Answers) (hp : v.posted = true) (hr : v.isRoot = false)
      (hv : Ready { v with posted := false } a v₁)
      (ht : (v₁.qe v₁.sendQe).txCount < maxRetxAttempts) :
      Move cfg v (.sendDataTask a)
        { v₁ with
          qe := Function.update v₁.qe v₁.sendQe
            { v₁.qe v₁.sendQe with txCount := (v₁.qe v₁.sendQe).txCount + 1 }
          pending :=
            if v₁.answer a.subSend = .success then some (v₁.msgOf v₁.sendQe) else v₁.pending
          posted := v₁.answer a.subSend == .ebusy
          radioOn := v₁.radioOn && v₁.answer a.subSend != .eoff }
  | txRetry (v : View) (again : Bool) (ht : v.retry = true) (hs : v.sending = false) :
      Move cfg v .txRetryTimerFired { v with retry := again, sending := true, posted := true }
  | txRetryIdle (v : View) (again : Bool) (ht : v.retry = true) (hs : v.sending = true) :
      Move cfg v .txRetryTimerFired { v with retry := again }
  /-- The packet at the link was not sent, or not acknowledged. -/
  | sendFailed (v : View) (m : MsgPtr) (error : TinyError) (acked : Bool) (now : UInt32)
      (hp : v.pending = some m) :
      Move cfg v (.subSendDone error acked now) { v with pending := none, posted := true }
  /-- The packet at the link was acknowledged. -/
  | finish (v : View) (m : MsgPtr) (now : UInt32) (hp : v.pending = some m) :
      Move cfg v (.subSendDone .success true now)
        ({ (v.release v.sendQe) with pending := none, occupied := false, sending := false }).activity
  | sendBeaconTask (v : View) (r : TinyError) (off : Bool) :
      Move cfg v (.sendBeaconTask r) { v with radioOn := v.radioOn && !off }
  | beaconTimerFired (v : View) : Move cfg v .beaconTimerFired v
  | beaconSendDone (v : View) : Move cfg v .beaconSendDone v
  | beaconReceive (v : View) (src bcpBackpressure : UInt16) (len : UInt8) :
      Move cfg v (.beaconReceive src bcpBackpressure len) v

/-! ## Activity and discarding -/

/-- `forwarderActivity` changes the flags and the virtual queue at most. -/
theorem activity_cases (v : View) :
    v.activity = v ∨
    (v.isRoot = true ∧ v.activity = { v with virtual := 0, posted := v.posted || !v.stack.isEmpty }) ∨
    (v.isRoot = false ∧ v.sending = false ∧ v.activity = { v with sending := true, posted := true }) := by
  unfold activity
  split
  · exact .inl rfl
  · split
    · next h => exact .inr (.inl ⟨h, rfl⟩)
    · next h =>
      split
      · exact .inl rfl
      · next hs =>
        split
        · exact .inr (.inr ⟨Bool.eq_false_iff.2 h, Bool.eq_false_iff.2 hs, rfl⟩)
        · exact .inl rfl

/-- What `forwarderActivity` may change. -/
theorem activity_frame (v : View) : ∃ virtual posted sending,
    v.activity = { v with virtual := virtual, posted := posted, sending := sending } := by
  rcases v.activity_cases with h | ⟨-, h⟩ | ⟨-, -, h⟩
  · exact ⟨_, _, _, h⟩
  · exact ⟨_, _, _, h⟩
  · exact ⟨_, _, _, h⟩

@[simp] theorem faults_activity (v : View) : v.activity.faults = v.faults := by
  obtain ⟨_, _, _, h⟩ := v.activity_frame
  rw [h]

@[simp] theorem occupied_activity (v : View) : v.activity.occupied = v.occupied := by
  obtain ⟨_, _, _, h⟩ := v.activity_frame
  rw [h]

@[simp] theorem pending_activity (v : View) : v.activity.pending = v.pending := by
  obtain ⟨_, _, _, h⟩ := v.activity_frame
  rw [h]

theorem discard_of_room (cfg : Config) {v : View}
    (h : v.stack.length ≠ forwardingQueueSize - 1) : v.discard cfg = v := by
  unfold discard
  cases hs : v.stack with
  | nil => rfl
  | cons q rest =>
    rw [hs, List.length_cons] at h
    exact if_neg h

theorem discard_of_full (cfg : Config) {v : View} {q : QePtr} {rest : List QePtr}
    (hs : v.stack = q :: rest) (h : v.stack.length = forwardingQueueSize - 1) :
    v.discard cfg = { v.release q with
      stack := rest
      virtual := if cfg.virtq then v.virtual + 1 else v.virtual } := by
  rw [hs, List.length_cons] at h
  unfold discard
  simp only [hs]
  exact if_pos h

/-- Discarding does nothing, or takes the oldest packet of a full stack. -/
theorem discard_cases (cfg : Config) (v : View) :
    v.discard cfg = v ∧ v.stack.length ≠ forwardingQueueSize - 1 ∨
    ∃ q rest virtual, v.stack = q :: rest ∧ v.stack.length = forwardingQueueSize - 1 ∧
      v.discard cfg = { v.release q with stack := rest, virtual := virtual } := by
  by_cases h : v.stack.length = forwardingQueueSize - 1
  · cases hs : v.stack with
    | nil => rw [hs] at h; cases h
    | cons q rest => exact .inr ⟨q, rest, _, rfl, hs ▸ h, discard_of_full cfg hs h⟩
  · exact .inl ⟨discard_of_room cfg h, h⟩

/-- Changing entries without changing their messages does not matter to `discard`. -/
theorem discard_setQe (cfg : Config) (v : View) {qe : QePtr → FeQueueEntry}
    (h : ∀ q, (qe q).msg = (v.qe q).msg) :
    View.discard cfg { v with qe := qe } = { v.discard cfg with qe := qe } := by
  by_cases hl : v.stack.length = forwardingQueueSize - 1
  · obtain ⟨q, rest, hs⟩ := List.exists_cons_of_length_pos (l := v.stack) (by rw [hl]; decide)
    rw [discard_of_full cfg hs hl, discard_of_full cfg (v := { v with qe := qe }) hs hl]
    unfold release msgOf
    simp only [h]
  · rw [discard_of_room cfg hl]
    exact discard_of_room cfg hl

/-- What discarding may change. -/
theorem discard_frame (cfg : Config) (v : View) : ∃ free freeQe stack virtual,
    v.discard cfg =
      { v with
        free := free
        freeQe := freeQe
        stack := stack
        virtual := virtual } := by
  rcases discard_cases cfg v with ⟨hd, -⟩ | ⟨_, _, _, -, -, hd⟩
  · exact ⟨_, _, _, _, hd⟩
  · exact ⟨_, _, _, _, hd⟩

@[simp] theorem discard_qe (cfg : Config) (v : View) : (v.discard cfg).qe = v.qe := by
  obtain ⟨_, _, _, _, h⟩ := discard_frame cfg v
  rw [h]

/-- What `forwarderActivity` does has nothing to do with the buffers of the radio. -/
theorem activity_radio (v : View) (radio : List MsgPtr) :
    { v.activity with radio := radio } = ({ v with radio := radio }).activity := by
  have hb : View.backlog { v with radio := radio } = v.backlog := rfl
  unfold activity
  rw [hb]
  dsimp only
  split_ifs <;> rfl

theorem discard_radio (cfg : Config) (v : View) (radio : List MsgPtr) :
    View.discard cfg { v with radio := radio } = { v.discard cfg with radio := radio } := by
  by_cases hl : v.stack.length = forwardingQueueSize - 1
  · obtain ⟨q, rest, hs⟩ := List.exists_cons_of_length_pos (l := v.stack) (by rw [hl]; decide)
    rw [discard_of_full cfg hs hl]
    exact discard_of_full cfg (v := { v with radio := radio }) hs hl
  · rw [discard_of_room cfg hl]
    exact discard_of_room cfg hl

/-- A stack that may have lost its oldest packet has room. -/
theorem length_discard_lt (cfg : Config) {v : View}
    (h : v.stack.length ≤ forwardingQueueSize - 1) :
    (v.discard cfg).stack.length < forwardingQueueSize - 1 := by
  rcases discard_cases cfg v with ⟨hd, hne⟩ | ⟨q, rest, virtual, hs, hl, hd⟩
  · rw [hd]
    omega
  · rw [hd]
    rw [hs, List.length_cons] at hl
    exact Nat.lt_of_succ_le (Nat.le_of_eq hl)

end View

end BCP
