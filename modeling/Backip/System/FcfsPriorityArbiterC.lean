import Backip.Lib.LinkedQueue
import Backip.Lib.Machine
import Backip.System.Types

/-!
# The arbiter with priorities (`tos/system/FcfsPriorityArbiterC.nc`)

One resource, `n` normal clients that are served in order, a client of low and one of high priority.
`requested` is signalled to the owner in the middle of a request: a request whose signal is being
handled is a `Frame`, the last one first, and goes on with the event `resume`; the handler's own
commands come in between, tasks do not. Clients do not use `immediateRequest`.
-/

set_option autoImplicit false

namespace FcfsPriorityArbiterC

inductive ResState
  | idle
  | granting
  | busy
deriving DecidableEq, Repr

abbrev noRes : UInt8 := 0xFF

/-- `LOW_PRIORITY_CLIENT_ID`. -/
def low (n : Nat) : UInt8 := .ofNat (n + 1)

/-- `HIGH_PRIORITY_CLIENT_ID`. -/
def high (n : Nat) : UInt8 := .ofNat (n + 2)

/-- A request that has signalled `requested`. -/
inductive Frame
  | request (id : UInt8)
  | highRequest
deriving DecidableEq, Repr

structure Arbiter where
  state : ResState
  resId : UInt8
  reqResId : UInt8
  /-- `qHead`, `qTail` and `resQ`. -/
  queue : LinkedQueue UInt8
  hpreq : Bool
  irp : Bool
  /-- `grantedTask` is posted. -/
  posted : Bool
  frames : List Frame

/-- `Init.init`. -/
def init : Arbiter where
  state := .idle
  resId := noRes
  reqResId := noRes
  queue := .empty noRes
  hpreq := false
  irp := false
  posted := false
  frames := []

variable (n : Nat) (s : Arbiter) (id : UInt8)

/-- `requested`. -/
def requested : Bool := s.queue.waiting noRes id

/-- `queueRequest`. -/
def queueRequest : TinyError × Arbiter :=
  if !requested s id then (.success, { s with queue := s.queue.push noRes id }) else (.ebusy, s)

/-- The request of `id` is granted once the task runs. -/
def grant : Arbiter := { s with state := .granting, reqResId := id, posted := true }

/-- `grantNextRequest`. -/
def grantNextRequest : Arbiter :=
  let s := { s with resId := noRes }
  if s.hpreq && s.resId != high n then grant { s with hpreq := false } (high n)
  else if s.queue.head ≠ noRes then
    let r := s.queue.pop noRes
    grant { s with queue := r.2 } r.1
  else { s with state := .idle }

/-- `Resource.release`. -/
def release : Arbiter :=
  if s.state = .busy ∧ s.resId = id then
    if s.irp then { s with resId := s.reqResId } else grantNextRequest n s
  else s

/-- `Resource.request`, up to the signal if there is one. -/
def request : Option TinyError × Arbiter :=
  if s.state = .idle then (some .success, grant s id)
  else if s.resId = low n ∨ s.resId = high n then
    (none, { s with frames := .request id :: s.frames })
  else
    let r := queueRequest s id
    (some r.1, r.2)

/-- `LowPriorityClient.request`. -/
def lowRequest : TinyError × Arbiter :=
  if s.state = .idle ∧ s.hpreq = false then (.success, grant s (low n)) else (.ebusy, s)

/-- `HighPriorityClient.request` from the assignment on. -/
def highRequestTail : Arbiter :=
  let s := { s with hpreq := true }
  if s.state = .idle then grant s (high n) else s

/-- `HighPriorityClient.request`, up to the signal if there is one. -/
def highRequest : Option TinyError × Arbiter :=
  if s.resId = low n then (none, { s with frames := .highRequest :: s.frames })
  else (some .success, highRequestTail n s)

/-- `grantedTask`: the client that is granted the resource. -/
def grantedTask : UInt8 × Arbiter :=
  (s.reqResId, { s with resId := s.reqResId, state := .busy, posted := false })

/-! ## Runs -/

/-- What the clients see: a request that returned `SUCCESS`, and `granted`. -/
inductive Call
  | accepted (id : UInt8)
  | granted (id : UInt8)
deriving DecidableEq, Repr

/-- The arbiter, and what the clients have seen, the last call first. -/
structure State where
  impl : Arbiter
  log : List Call

inductive Event
  | request (id : UInt8)
  | lowRequest
  | highRequest
  | resume
  | release (id : UInt8)
  | grantedTask
deriving DecidableEq, Repr

/-- The end of a request, with its result. -/
def State.ends (log : List Call) (id : UInt8) (r : Option TinyError) (impl : Arbiter) : State :=
  ⟨impl, if r = some .success then .accepted id :: log else log⟩

def step (s : State) : Event → Option State
  | .request id =>
    if id.toNat < n then
      let r := request n s.impl id
      some (.ends s.log id r.1 r.2)
    else none
  | .lowRequest =>
    let r := FcfsPriorityArbiterC.lowRequest n s.impl
    some (.ends s.log (low n) r.1 r.2)
  | .highRequest =>
    let r := FcfsPriorityArbiterC.highRequest n s.impl
    some (.ends s.log (high n) r.1 r.2)
  | .resume =>
    match s.impl.frames with
    | [] => none
    | .request id :: frames =>
      let r := queueRequest { s.impl with frames := frames } id
      some (.ends s.log id r.1 r.2)
    | .highRequest :: frames =>
      some (.ends s.log (high n) TinyError.success
        (highRequestTail n { s.impl with frames := frames }))
  | .release id => some ⟨FcfsPriorityArbiterC.release n s.impl id, s.log⟩
  | .grantedTask =>
    if s.impl.posted ∧ s.impl.frames = [] then
      let r := FcfsPriorityArbiterC.grantedTask s.impl
      some ⟨r.2, .granted r.1 :: s.log⟩
    else none

/-- `n` normal clients. -/
def machine : Machine State Event where
  init s := s = ⟨init, []⟩
  step := step n

/-! ## Reading the log -/

/-- The normal clients whose requests were accepted, the first one first. -/
def accepted : List Call → List UInt8
  | [] => []
  | .accepted id :: log => if id.toNat < n then accepted log ++ [id] else accepted log
  | .granted _ :: log => accepted log

/-- The normal clients that were granted the resource, the first one first. -/
def granted : List Call → List UInt8
  | [] => []
  | .accepted _ :: log => granted log
  | .granted id :: log => if id.toNat < n then granted log ++ [id] else granted log

/-- A request of `id` was accepted since it was granted the resource last. -/
def asked (id : UInt8) : List Call → Bool
  | [] => false
  | .accepted i :: log => i = id || asked id log
  | .granted i :: log => i ≠ id && asked id log

/-- The client that `grantedTask` is about to grant the resource to has asked for it, and nobody
owns it. -/
def Rightful (s : State) : Prop :=
  granted n s.log <+: accepted n s.log ∧
  (s.impl.posted = true → s.impl.state ≠ .busy ∧
    ((s.impl.reqResId.toNat < n ∧ granted n s.log ++ [s.impl.reqResId] <+: accepted n s.log) ∨
    ((s.impl.reqResId = low n ∨ s.impl.reqResId = high n) ∧
      asked s.impl.reqResId s.log = true)))

end FcfsPriorityArbiterC
