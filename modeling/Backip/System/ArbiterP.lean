import Backip.Lib.LinkedQueue
import Backip.Lib.Machine
import Backip.System.Types

/-!
# The arbiter with a default owner (`tos/system/ArbiterP.nc`, `tos/system/FcfsResourceQueueC.nc`)

`n` clients, and the default owner with the identifier behind theirs. An event is one atomic
section: `immediateRequest` has two of them, with a reading of `resId` in between, and the task
signals `granted` behind its own; other sections come in between them in any order.

`waiting` is what the arbiter owes: the clients whose requests were accepted and who were not
signalled `granted` since, in the order of their requests.
-/

set_option autoImplicit false

namespace ArbiterP

inductive ResState
  | controlled
  | granting
  | immGranting
  | busy
deriving DecidableEq, Repr

/-- `NO_RES` and `NO_ENTRY`. -/
abbrev noRes : UInt8 := 0xFF

/-- `default_owner_id`. -/
def defaultOwner (n : Nat) : UInt8 := .ofNat n

structure Arbiter where
  state : ResState
  resId : UInt8
  reqResId : UInt8
  /-- `qHead`, `qTail` and `resQ`. -/
  queue : LinkedQueue UInt8
  /-- `grantedTask` is posted. -/
  posted : Bool
  /-- `grantedTask` is about to signal `granted`. -/
  signalling : Bool
  /-- The immediate requests that are about to read `resId`. -/
  checking : List UInt8
  /-- The immediate requests that are about to give up. -/
  failing : List UInt8

def init (n : Nat) : Arbiter where
  state := .controlled
  resId := defaultOwner n
  reqResId := 0
  queue := .empty noRes
  posted := false
  signalling := false
  checking := []
  failing := []

/-! ## The queue -/

/-- `FcfsQueue.isEmpty`. -/
def isEmpty (q : LinkedQueue UInt8) : Bool := q.head = noRes

/-- `FcfsQueue.isEnqueued`. -/
def isEnqueued (q : LinkedQueue UInt8) (id : UInt8) : Bool := q.waiting noRes id

/-- `FcfsQueue.dequeue`. -/
def dequeue (q : LinkedQueue UInt8) : UInt8 × LinkedQueue UInt8 := q.pop noRes

/-- `FcfsQueue.enqueue`. -/
def enqueue (q : LinkedQueue UInt8) (id : UInt8) : TinyError × LinkedQueue UInt8 :=
  if !isEnqueued q id then (.success, q.push noRes id) else (.ebusy, q)

/-! ## The atomic sections -/

variable (n : Nat) (s : Arbiter) (id : UInt8)

/-- `Resource.request`. -/
def request : TinyError × Arbiter :=
  if s.state = .controlled then (.success, { s with state := .granting, reqResId := id })
  else if s.reqResId = id then (.success, s)
  else
    let r := enqueue s.queue id
    (r.1, { s with queue := r.2 })

/-- `Resource.immediateRequest`, the first section. -/
def immediateRequest : Arbiter :=
  if s.state = .controlled then
    { s with state := .immGranting, reqResId := id, checking := id :: s.checking }
  else s

/-- `Resource.immediateRequest`, the reading of `resId`. -/
def check : Arbiter :=
  if s.resId = id then { s with checking := s.checking.erase id }
  else { s with checking := s.checking.erase id, failing := id :: s.failing }

/-- `Resource.immediateRequest`, the last section. -/
def giveUp : Arbiter := { s with state := .controlled, failing := s.failing.erase id }

/-- `Resource.release`. -/
def release : TinyError × Arbiter :=
  if s.state = .busy ∧ s.resId = id then
    if isEmpty s.queue = false then
      let r := dequeue s.queue
      (.success,
        { s with reqResId := r.1, queue := r.2, resId := noRes, state := .granting, posted := true })
    else (.success, { s with resId := defaultOwner n, state := .controlled })
  else (.fail, s)

/-- `ResourceDefaultOwner.release`. -/
def defaultRelease : TinyError × Arbiter :=
  if s.resId = defaultOwner n then
    if s.state = .granting then (.success, { s with posted := true })
    else if s.state = .immGranting then (.success, { s with resId := s.reqResId, state := .busy })
    else (.fail, s)
  else (.fail, s)

/-- `grantedTask`, its section. -/
def grantedTask : Arbiter :=
  { s with resId := s.reqResId, state := .busy, posted := false, signalling := true }

/-! ## Runs -/

inductive Event
  | request (id : UInt8)
  | immediateRequest (id : UInt8)
  | check (id : UInt8)
  | giveUp (id : UInt8)
  | release (id : UInt8)
  | defaultRelease
  | grantedTask
  /-- The signal of `granted`, at the end of `grantedTask`. -/
  | granted
deriving DecidableEq, Repr

structure State where
  impl : Arbiter
  waiting : List UInt8

def step (s : State) : Event → Option State
  | .request id =>
    if id.toNat < n then
      let r := ArbiterP.request s.impl id
      some ⟨r.2, if r.1 = .success ∧ id ∉ s.waiting then s.waiting ++ [id] else s.waiting⟩
    else none
  | .immediateRequest id =>
    if id.toNat < n then some ⟨ArbiterP.immediateRequest s.impl id, s.waiting⟩ else none
  | .check id =>
    if id ∈ s.impl.checking then some ⟨ArbiterP.check s.impl id, s.waiting⟩ else none
  | .giveUp id =>
    if id ∈ s.impl.failing then some ⟨ArbiterP.giveUp s.impl id, s.waiting⟩ else none
  | .release id => some ⟨(ArbiterP.release n s.impl id).2, s.waiting⟩
  | .defaultRelease => some ⟨(ArbiterP.defaultRelease n s.impl).2, s.waiting⟩
  | .grantedTask =>
    if s.impl.posted = true ∧ s.impl.signalling = false then
      some ⟨ArbiterP.grantedTask s.impl, s.waiting⟩
    else none
  | .granted =>
    if s.impl.signalling = true then
      some ⟨{ s.impl with signalling := false }, s.waiting.erase s.impl.resId⟩
    else none

/-- `n` clients. -/
def machine : Machine State Event where
  init s := s = ⟨init n, []⟩
  step := step n

/-! ## What is owed -/

/-- A release of an owner, or a section of the task. -/
def Event.serves : Event → Bool
  | .release _ | .defaultRelease | .grantedTask | .granted => true
  | .request _ | .immediateRequest _ | .check _ | .giveUp _ => false

/-- A request that returns `SUCCESS` leaves its client in the queue or as the pending grant. -/
def Accepts (s : Arbiter) (e : Event) : Prop :=
  ∀ id, e = .request id → (request s id).1 = .success →
    isEnqueued (request s id).2.queue id = true ∨
    (request s id).2.state = .granting ∧ (request s id).2.reqResId = id

/-- Who waits is queued, or the pending grant, or about to be signalled; the default owner has the
resource only while nobody is queued; and the releases of the owners serve everybody. -/
structure Kept (n : Nat) (s : State) : Prop where
  waits : ∀ id ∈ s.waiting, isEnqueued s.impl.queue id = true ∨
    (s.impl.state = .granting ∧ s.impl.reqResId = id) ∨
    (s.impl.signalling = true ∧ s.impl.resId = id)
  controlled : s.impl.state = .controlled →
    isEmpty s.impl.queue = true ∧ s.impl.resId = defaultOwner n
  served : ∃ es h s', (∀ e ∈ es, Event.serves e = true) ∧
    (machine n).exec es [] s = some (h, s') ∧ s'.waiting = []

end ArbiterP
