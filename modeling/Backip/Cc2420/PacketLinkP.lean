import Backip.Lib.Machine
import Backip.System.Types

/-!
# CC2420: sending until it is acknowledged (`tos/chips/cc2420/link/PacketLinkP.nc`)

`Send.send` hands a message to the radio below, `SubSend`, and hands it over again as long as it is
not acknowledged and the message's `maxRetries` allows. The retries are posted as a task, after a
delay if the message asks for one. Messages are of any type `μ`; what happens to them is logged, the
last first.

`SubSend` holds one message at a time: it refuses one while it does, and may refuse at any time.
-/

set_option autoImplicit false

namespace PacketLinkP

/-- What the component uses of a message's metadata and header. -/
structure Metadata where
  maxRetries : UInt16 := 0
  retryDelay : UInt16 := 0
  ackRequested : Bool := false
deriving DecidableEq, Repr

/-- The states of `SendState`. -/
inductive SendState
  | idle
  | sending
deriving DecidableEq, Repr

inductive Signal (μ : Type)
  /-- `Send.send` returned `SUCCESS`, for a message with this `maxRetries`. -/
  | accepted (msg : μ) (len : UInt8) (maxRetries : UInt16)
  /-- `SubSend.send` returned `SUCCESS`. -/
  | handed (msg : μ) (len : UInt8)
  /-- `SubSend.sendDone` -/
  | completed (msg : μ) (acked : Bool)
  /-- `Send.sendDone`, where `getRetries` gives `retries`. -/
  | sendDone (msg : μ) (error : TinyError) (retries : UInt16)
deriving DecidableEq, Repr

/-- The variables; `subSend` is the message that `SubSend` holds. -/
structure Link (μ : Type) where
  currentSendMsg : Option μ := none
  currentSendLen : UInt8 := 0
  totalRetries : UInt16 := 0
  sendState : SendState := .idle
  delayTimer : TimerMilli := .stopped
  sendPosted : Bool := false
  metadata : μ → Metadata := fun _ => {}
  subSend : Option μ := none
  log : List (Signal μ) := []

namespace Link

variable {μ : Type} [DecidableEq μ]

/-! ## Metadata -/

def setMetadata (msg : μ) (f : Metadata → Metadata) (s : Link μ) : Link μ :=
  { s with metadata := fun m => if m = msg then f (s.metadata m) else s.metadata m }

/-- `PacketLink.setRetries` -/
def setRetries (msg : μ) (maxRetries : UInt16) (s : Link μ) : Link μ :=
  s.setMetadata msg fun m => { m with maxRetries }

/-- `PacketLink.setRetryDelay` -/
def setRetryDelay (msg : μ) (retryDelay : UInt16) (s : Link μ) : Link μ :=
  s.setMetadata msg fun m => { m with retryDelay }

/-- `PacketLink.getRetries` -/
def getRetries (msg : μ) (s : Link μ) : UInt16 := (s.metadata msg).maxRetries

/-- `PacketLink.getRetryDelay` -/
def getRetryDelay (msg : μ) (s : Link μ) : UInt16 := (s.metadata msg).retryDelay

/-- `PacketAcknowledgements.requestAck` -/
def requestAck (msg : μ) (s : Link μ) : Link μ :=
  s.setMetadata msg fun m => { m with ackRequested := true }

/-! ## Sending -/

/-- `SubSend.send` returns `SUCCESS`. -/
def hand (msg : μ) (len : UInt8) (s : Link μ) : Link μ :=
  { s with subSend := some msg, log := .handed msg len :: s.log }

/-- `Send.send`; `error` is the result of `SubSend.send`, if it is called. -/
def send (msg : μ) (len : UInt8) (error : TinyError) (s : Link μ) : TinyError × Link μ :=
  if s.sendState = .idle then
    let s := { s with
      sendState := .sending
      currentSendMsg := some msg
      currentSendLen := len
      totalRetries := 0 }
    let s := if s.getRetries msg > 0 then s.requestAck msg else s
    if error = .success then
      (.success, hand msg len { s with log := .accepted msg len (s.getRetries msg) :: s.log })
    else (error, { s with sendState := .idle })
  else (.ebusy, s)

/-- `Send.cancel`; `error` is the result of `SubSend.cancel`, if it is called. -/
def cancel (msg : μ) (error : TinyError) (s : Link μ) : TinyError × Link μ :=
  if s.currentSendMsg = some msg then (error, { s with sendState := .idle })
  else (.fail, s)

/-- `signalDone`, for the message that is current -/
def signalDone (current : μ) (error : TinyError) (s : Link μ) : Link μ :=
  let s := { s with delayTimer := .stopped, sendState := .idle }
  let s := if s.getRetries current > 0 then s.setRetries current s.totalRetries else s
  { s with log := .sendDone current error (s.getRetries current) :: s.log }

/-- `SubSend.sendDone`; `acked` is the result of `PacketAcknowledgements.wasAcked`. -/
def subSendDone (acked : Bool) (s : Link μ) : Link μ :=
  match s.sendState, s.currentSendMsg with
  | .sending, some current =>
    let s : Link μ := { s with totalRetries := s.totalRetries + 1 }
    if acked then s.signalDone current .success
    else if s.totalRetries < s.getRetries current then
      if s.getRetryDelay current > 0 then
        { s with delayTimer := .oneShot (s.getRetryDelay current).toNat }
      else { s with sendPosted := true }
    else s.signalDone current .fail
  | _, _ => s

/-- `DelayTimer.fired` -/
def delayFired (s : Link μ) : Link μ :=
  if s.sendState = .sending then { s with sendPosted := true } else s

/-- The task `send`; `error` is the result of `SubSend.send`. -/
def sendTask (error : TinyError) (s : Link μ) : Link μ :=
  match s.currentSendMsg with
  | some current =>
    let s := if s.getRetries current > 0 then s.requestAck current else s
    if error = .success then s.hand current s.currentSendLen else { s with sendPosted := true }
  -- it is posted only after a `Send.send`
  | none => s

end Link

/-! ## Runs -/

inductive Event (μ : Type)
  | setRetries (msg : μ) (maxRetries : UInt16)
  | setRetryDelay (msg : μ) (retryDelay : UInt16)
  | send (msg : μ) (len : UInt8) (error : TinyError)
  | cancel (msg : μ) (error : TinyError)
  | subSendDone (acked : Bool)
  | delayFired
  | sendTask (error : TinyError)
deriving DecidableEq, Repr

variable {μ : Type} [DecidableEq μ]

/-- The message is being sent: it belongs to the component. -/
def Link.Sends (s : Link μ) (msg : μ) : Prop :=
  s.sendState = .sending ∧ s.currentSendMsg = some msg

instance (s : Link μ) (msg : μ) : Decidable (s.Sends msg) := inferInstanceAs (Decidable (_ ∧ _))

/-- What `SubSend.send` may return. -/
def Link.SubSendMay (s : Link μ) (error : TinyError) : Prop := error = .success → s.subSend = none

instance (s : Link μ) (error : TinyError) : Decidable (s.SubSendMay error) :=
  inferInstanceAs (Decidable (_ → _))

/-- `SubSend` signals for the message it holds, the timer fires while it runs and a task runs once it
is posted. The user changes a message's metadata only while it is not being sent. -/
def step (s : Link μ) : Event μ → Option (Link μ)
  | .setRetries msg n => if s.Sends msg then none else some (s.setRetries msg n)
  | .setRetryDelay msg d => if s.Sends msg then none else some (s.setRetryDelay msg d)
  | .send msg len error => if s.SubSendMay error then some (s.send msg len error).2 else none
  | .cancel msg error => some (s.cancel msg error).2
  | .subSendDone acked =>
    s.subSend.map fun msg =>
      Link.subSendDone acked { s with subSend := none, log := .completed msg acked :: s.log }
  | .delayFired =>
    if s.delayTimer.isRunning then
      some (Link.delayFired { s with delayTimer := s.delayTimer.expire })
    else none
  | .sendTask error =>
    if s.sendPosted ∧ s.SubSendMay error then
      some (Link.sendTask error { s with sendPosted := false })
    else none

def machine (μ : Type) [DecidableEq μ] : Machine (Link μ) (Event μ) where
  init s := s = {}
  step := step

end PacketLinkP
