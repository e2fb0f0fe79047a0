import Backip.Lib.ByteMask
import Backip.Lib.Machine
import Backip.System.Types

/-!
# The queue of outgoing packets (`tos/system/AMQueueImplP.nc`)

One slot for each of `n` clients, and the index of the one whose packet is with `AMSend`. A call of
`Send.sendDone` lasts until the event `handled`; commands of its handler come in between, also in the
middle of the loop of `CancelTask`. A refused `AMSend.send` answers with an error; an accepted one is
followed by an `amSendDone` with the same packet.

`Accepted` is what the queue owes a client: the packet of a `Send.send` that has returned `SUCCESS`,
until its `Send.sendDone`. Indices are numbers, but for the value of `numClients` in the eight bits
of `current`.
-/

set_option autoImplicit false

namespace AMQueueImplP

structure Queue (Msg : Type) where
  current : Nat
  queue : Nat → Option Msg
  cancelMask : ByteMask
  /-- `CancelTask` is posted. -/
  cancelPosted : Bool
  /-- `errorTask` is posted. -/
  errorPosted : Bool
  /-- The packets that `AMSend` has accepted, and has not been done with. -/
  outstanding : List Msg

/-- What a call, an event or a task returns, and does outside: the client and the packet of an
`AMSend.send`, and the `Send.sendDone` that is signalled. -/
structure Result (Msg : Type) where
  error : TinyError
  handed : Option (Nat × Option Msg)
  signal : Option (Nat × Option Msg × TinyError)
  next : Queue Msg

variable {Msg : Type} [DecidableEq Msg] (n : Nat) (s : Queue Msg)

/-- `numClients` as a value of `current`. -/
def nobody : Nat := n % 256

/-- The test of `nextPacket`. -/
def waiting (client : Nat) : Bool := (s.queue client).isSome && !s.cancelMask.get client

/-- The loop of `nextPacket`, with the rounds that are left: where it breaks. -/
def seek : Nat → Nat → Option Nat
  | 0, _ => none
  | rounds + 1, current =>
    if waiting s current then some current else seek rounds ((current + 1) % n)

/-- `nextPacket`. -/
def nextPacket : Queue Msg :=
  { s with current := (seek n s n ((s.current + 1) % n)).getD (nobody n) }

/-- `AMSend.send` gives its answer. -/
def amSend (msg : Option Msg) (answer : TinyError) : Queue Msg :=
  if answer = .success then { s with outstanding := s.outstanding ++ msg.toList } else s

/-- `Send.send`. -/
def send (client : Nat) (msg : Msg) (answer : TinyError) : Result Msg :=
  if n ≤ client then ⟨.fail, none, none, s⟩
  else if (s.queue client).isSome then ⟨.ebusy, none, none, s⟩
  else
    let s := { s with queue := Function.update s.queue client (some msg) }
    if n ≤ s.current then
      let s := amSend { s with current := client } (some msg) answer
      let handed := some (client, some msg)
      if answer ≠ .success then
        ⟨answer, handed, none,
          { s with current := nobody n, queue := Function.update s.queue client none }⟩
      else ⟨answer, handed, none, s⟩
    else ⟨.success, none, none, s⟩

/-- `Send.cancel`, with the answer of `AMSend.cancel`. -/
def cancel (client : Nat) (msg : Msg) (answer : TinyError) : Result Msg :=
  if n ≤ client ∨ s.queue client = none ∨ s.queue client ≠ some msg then ⟨.fail, none, none, s⟩
  else if s.current = client then ⟨answer, none, none, s⟩
  else
    ⟨.success, none, none,
      { s with cancelMask := s.cancelMask.set client, cancelPosted := true }⟩

/-- `tryToSend`. -/
def tryToSend (answer : TinyError) : Result Msg :=
  let s := nextPacket n s
  if s.current < n then
    let msg := s.queue s.current
    let s := amSend s msg answer
    ⟨.success, some (s.current, msg), none,
      if answer ≠ .success then { s with errorPosted := true } else s⟩
  else ⟨.success, none, none, s⟩

/-- `sendDone`. -/
def sendDone (last : Nat) (msg : Option Msg) (err answer : TinyError) : Result Msg :=
  let r := tryToSend n { s with queue := Function.update s.queue last none } answer
  { r with signal := some (last, msg, err) }

/-- `errorTask`. -/
def errorTask (answer : TinyError) : Result Msg :=
  let s := { s with errorPosted := false }
  sendDone n s s.current (s.queue s.current) .fail answer

/-- `AMSend.sendDone`. -/
def amSendDone (msg : Msg) (err answer : TinyError) : Result Msg :=
  let s := { s with outstanding := s.outstanding.erase msg }
  if n ≤ s.current then ⟨.success, none, none, s⟩
  else if s.queue s.current = some msg then sendDone n s s.current (some msg) err answer
  else ⟨.success, none, none, s⟩

/-- The loops of `CancelTask`, from the bit `next` on up to a `Send.sendDone`. The test of a whole
byte only skips its bits. -/
def cancelLoop (next : Nat) : Result Msg :=
  match (List.range (8 * (n / 8 + 1))).find? fun last => next ≤ last && s.cancelMask.get last with
  | some last =>
    ⟨.success, none, some (last, s.queue last, .ecancel),
      { s with
        queue := Function.update s.queue last none, cancelMask := s.cancelMask.clear last }⟩
  | none => ⟨.success, none, none, s⟩

/-! ## Runs -/

/-- What is executing: nothing, a handler at the end of an event or task, or one in `CancelTask`,
which goes on with the bit `next`. -/
inductive Context
  | idle
  | handler
  | cancelTask (next : Nat)
deriving DecidableEq, Repr

inductive Event (Msg : Type)
  | send (client : Nat) (msg : Msg) (answer : TinyError)
  | cancel (client : Nat) (msg : Msg) (answer : TinyError)
  | cancelTask
  | errorTask (answer : TinyError)
  | amSendDone (msg : Msg) (err answer : TinyError)
  | handled
deriving DecidableEq, Repr

/-- `served` counts the packets of the other clients that were with `AMSend` in the meantime. -/
structure Accepted (Msg : Type) where
  msg : Msg
  /-- A `Send.cancel` has returned `SUCCESS` while it was queued. -/
  cancelled : Bool
  served : Nat → Nat

structure State (Msg : Type) where
  impl : Queue Msg
  context : Context
  accepted : Nat → Option (Accepted Msg)

/-- Where it is after a part of `CancelTask`. -/
def cancelContext (r : Result Msg) : Context :=
  match r.signal with
  | some (last, _) => .cancelTask (last + 1)
  | none => .idle

/-- Where it is after the end of an event or task. -/
def doneContext (r : Result Msg) : Context := if r.signal.isSome then .handler else .idle

def react (s : State Msg) : Event Msg → Option (Result Msg × Context)
  | .send client msg answer => some (send n s.impl client msg answer, s.context)
  | .cancel client msg answer => some (cancel n s.impl client msg answer, s.context)
  | .cancelTask =>
    if s.context = .idle ∧ s.impl.cancelPosted = true then
      let r := cancelLoop n { s.impl with cancelPosted := false } 0
      some (r, cancelContext r)
    else none
  | .errorTask answer =>
    if s.context = .idle ∧ s.impl.errorPosted = true then
      let r := errorTask n s.impl answer
      some (r, doneContext r)
    else none
  | .amSendDone msg err answer =>
    if s.context = .idle ∧ msg ∈ s.impl.outstanding then
      let r := amSendDone n s.impl msg err answer
      some (r, doneContext r)
    else none
  | .handled =>
    match s.context with
    | .idle => none
    | .handler => some (⟨.success, none, none, s.impl⟩, .idle)
    | .cancelTask next =>
      let r := cancelLoop n s.impl next
      some (r, cancelContext r)

/-- What the returned error makes of what the queue owes. -/
def accept (s : State Msg) (e : Event Msg) (r : Result Msg) : Nat → Option (Accepted Msg) :=
  match e with
  | .send client msg _ =>
    if r.error = .success then
      Function.update s.accepted client
        (some ⟨msg, false, fun other => if other = s.impl.current then 1 else 0⟩)
    else s.accepted
  | .cancel client _ _ =>
    if r.error = .success ∧ s.impl.current ≠ client then
      Function.update s.accepted client
        ((s.accepted client).map fun x => { x with cancelled := true })
    else s.accepted
  | _ => s.accepted

/-- A packet of `client` is with `AMSend`. -/
def Accepted.serve (x : Accepted Msg) (client : Nat) : Accepted Msg :=
  { x with served := Function.update x.served client (x.served client + 1) }

def account (accepted : Nat → Option (Accepted Msg)) (r : Result Msg) :
    Nat → Option (Accepted Msg) :=
  let accepted := match r.handed with
    | some (client, _) => fun other => (accepted other).map (·.serve client)
    | none => accepted
  match r.signal with
  | some (client, _) => Function.update accepted client none
  | none => accepted

def step (s : State Msg) (e : Event Msg) : Option (State Msg) :=
  (react n s e).map fun r => ⟨r.1.next, r.2, account (accept s e r.1) r.1⟩

def boot : State Msg where
  impl :=
    { current := nobody n
      queue := fun _ => none
      cancelMask := fun _ => 0#8
      cancelPosted := false
      errorPosted := false
      outstanding := [] }
  context := .idle
  accepted _ := none

def machine : Machine (State Msg) (Event Msg) where
  init s := s = boot n
  step := step n

/-- The events of `AMSend`, the tasks and the ends of handlers. -/
def Event.ofSource : Event Msg → Bool
  | .cancelTask | .errorTask _ | .amSendDone .. | .handled => true
  | .send .. | .cancel .. => false

/-- The queue completes what it has accepted, once and in turn. -/
structure Completes (s : State Msg) : Prop where
  /-- A client has one packet at a time. -/
  accepts : ∀ client msg answer r, react n s (.send client msg answer) = some r →
    r.1.error = .success → s.accepted client = none
  /-- `Send.sendDone` is signalled for a packet that is owed. -/
  signals : ∀ e r, react n s e = some r → ∀ client msg err, r.1.signal = some (client, msg, err) →
    ∃ x ∈ s.accepted client, msg = some x.msg
  /-- A cancelled packet is not handed to `AMSend`. -/
  hands : ∀ e r, react n s e = some r → ∀ client msg, r.1.handed = some (client, msg) →
    ∀ x ∈ s.accepted client, x.cancelled = false
  single : s.impl.outstanding.length ≤ 1
  /-- Nothing waits for an `AMSend` that is idle. -/
  idle : s.impl.outstanding = [] → s.impl.errorPosted = false →
    ∀ client, s.impl.queue client ≠ none → s.impl.cancelMask.get client = true
  /-- The tasks and `AMSend` lead to the completion of a packet. -/
  completed : ∀ client, s.accepted client ≠ none → ∃ es h s',
    (∀ e ∈ es, e.ofSource = true) ∧ (machine n).exec es [] s = some (h, s') ∧
    s'.accepted client = none

/-- Every other client is served at most twice while a packet is waiting. -/
def Fair (s : State Msg) : Prop :=
  ∀ client, ∀ x ∈ s.accepted client, ∀ other < n, other ≠ client → x.served other ≤ 2

/-- Every other client is served at most once while a packet is waiting that is not cancelled. -/
def FairUncancelled (s : State Msg) : Prop :=
  ∀ client, ∀ x ∈ s.accepted client, x.cancelled = false →
    ∀ other < n, other ≠ client → x.served other ≤ 1

end AMQueueImplP
