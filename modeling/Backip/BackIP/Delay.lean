import Backip.BackIP.Queueing
import Backip.System.NwByte

/-!
# The queue that measures delays (`tos/lib/net/backip/BackIPQueueingP.nc`, the `DELAY` build)

A frame to be measured has 40 bytes and ends in its sequence number and its delay trailer, a word
each. When it is received, its number and the time are entered in `delaytable`; before a data frame
is handed to `SubSend.send`, `sendDataTask` looks its number up and writes the trailer.

`Delaying` is a `Queueing` with that table. The functions of `sendDataTask` stand here again, with
the stamp where the build has it; all others are those of `Queueing`. The times are what
`LocalTime.get` answers. A frame is longer than the eight bytes that are read (its header has ten).

Three fields are not in the code: `given` has the frame `Send.send` put into an entry, and when that
frame came to this node; `handedAt` is the time at which the last data frame was handed over; and
`log` lists the frames handed over and those delivered, the last one first.
-/

set_option autoImplicit false

namespace BackIP

/-- `DELAY_TABLE_SIZE`. -/
abbrev delayTableSize : Nat := forwardingQueueSize + 2
/-- `PER_HOP_DELAY`, in milliseconds. -/
abbrev perHopDelay : UInt32 := 10

/-- An entry of `delaytable`. -/
structure DelaySlot where
  seq : UInt32
  timeIn : UInt32
  occupied : Bool
deriving DecidableEq, Repr

def DelaySlot.zero : DelaySlot := ⟨0, 0, false⟩

/-- The word at `i`. -/
def wordAt (payload : List UInt8) (i : Nat) : UInt32 :=
  word32 (payload.getD i 0) (payload.getD (i + 1) 0) (payload.getD (i + 2) 0)
    (payload.getD (i + 3) 0)

def Message.seq (m : Message) : UInt32 := wordAt m.data (m.length - 8)
def Message.trailer (m : Message) : UInt32 := wordAt m.data (m.length - 4)

/-- A frame as `Send.send` queued it, and when it came to this node: the time of its reception, or
of the `Send.send` of a frame that starts here. -/
structure Given where
  frame : Message
  arrived : UInt32
deriving DecidableEq, Repr

/-- What became of a frame. -/
inductive Passed
  /-- `frame` was handed to `SubSend.send`. -/
  | handed (given : Given) (frame : Message)
  /-- `frame`, handed over at the time `handedAt`, was delivered. -/
  | delivered (given : Given) (handedAt : UInt32) (frame : Message)
deriving DecidableEq, Repr

structure Delaying where
  queueing : Queueing
  delaytable : List DelaySlot
  given : QePtr → Given
  handedAt : UInt32
  log : List Passed

namespace Delaying

/-- `StdControl.start`. -/
def start : Delaying where
  queueing := Queueing.boot.start
  delaytable := List.replicate delayTableSize .zero
  given _ := ⟨⟨[], 0, 0, 0, .data⟩, 0⟩
  handedAt := 0
  log := []

/-! ## The stamp -/

/-- The first occupied slot with the number `seq`. -/
def slotOf (table : List DelaySlot) (seq : UInt32) : Option Nat :=
  table.findIdx? fun d => d.occupied && d.seq == seq

/-- `time_spent`, as it is written. -/
def timeSpent (table : List DelaySlot) (m : Message) (now : UInt32) : UInt32 :=
  match slotOf table m.seq with
  | some i => m.trailer + (now - (table.getD i .zero).timeIn) + perHopDelay
  | none => perHopDelay

/-- The slot found is free again. -/
def release (table : List DelaySlot) (seq : UInt32) : List DelaySlot :=
  match slotOf table seq with
  | some i => table.modify i fun d => { d with occupied := false }
  | none => table

/-- Write the trailer of the frame in `msg`, whatever its length. -/
def stamp (s : Delaying) (msg : MsgPtr) (now : UInt32) : Delaying :=
  let m := s.queueing.mem msg
  let data := splice m.data (m.length - 4) (timeSpent s.delaytable m now).netBytes
  { s with
    queueing := { s.queueing with
      mem := Function.update s.queueing.mem msg { m with data := data } }
    delaytable := release s.delaytable m.seq }

/-! ## `sendDataTask` -/

/-- Hand the packet of entry `q`, stamped, to the link, which answers `r`. -/
def handOff (s : Delaying) (q : QePtr) (len : Nat) (r : TinyError) (now : UInt32) : Delaying :=
  let t := { s.queueing with suppressSendDone := true }
  let t := t.rewriteDstLlAddr (t.qe q).msg
  let t := { t with
    qe := Function.update t.qe q { t.qe q with txCount := inc16 (t.qe q).txCount }
    sendingData := 1 }
  let t := t.setLinkRetries (t.qe q).msg
  let s := { s with queueing := t }.stamp (t.qe q).msg now
  let t := s.queueing
  let frame := t.mem (t.qe q).msg
  let t := t.record (.subSendData q t.currNbLlAddr frame len r)
  { s with
    queueing := t.linkAccept (t.qe q).msg r
    handedAt := now
    log := .handed (s.given q) frame :: s.log }

def transmit (s : Delaying) (q : QePtr) (len : Nat) (r : TinyError) (now : UInt32) : Delaying :=
  let s := s.handOff q len r now
  if r = .success then s else { s with queueing := s.queueing.localSendFailed q }

def sendData (s : Delaying) (r : TinyError) (now : UInt32) : Delaying :=
  let t := s.queueing
  let q := t.sendStack.popTop.1
  let t := { t with sendStack := t.sendStack.popTop.2, currentSendQe := q }
  let len := (t.mem (t.qe q).msg).length
  if maxRetxAttempts ≤ (t.qe q).txCount then { s with queueing := t.giveUp q }
  else { s with queueing := t }.transmit q len r now

def sendTo (s : Delaying) (a : LlAddr) (r : TinyError) (now : UInt32) : Delaying :=
  let t := { s.queueing with currNbLlAddr := a }
  let t := t.conditionalDiscard
  let t := { t with radioBusy := true }
  if !t.sendStack.empty then { s with queueing := t }.sendData r now
  else { s with queueing := t.sendNull }

def sendDataTask (s : Delaying) (nb : Option LlAddr) (r : TinyError) (now : UInt32) : Delaying :=
  let t := s.queueing
  if t.radioBusy then { s with queueing := { t with txRetryTimer := some retryInterval } }
  else
    let t := t.checkBp
    if t.sendStack.empty && t.virtualQueueSize ≤ 0 then { s with queueing := t }
    else
      match nb with
      | none => { s with queueing := { t with txRetryTimer := some rerouteInterval } }
      | some a => { s with queueing := t }.sendTo a r now

/-! ## `SubReceive.receive` -/

/-- A frame of 40 bytes is entered in the first free slot, if there is one. -/
def receive (s : Delaying) (payload : List UInt8) (xlen : Nat) (now : UInt32) : Delaying :=
  if xlen = 40 then
    match s.delaytable.findIdx? fun d => !d.occupied with
    | some i => { s with delaytable := s.delaytable.set i ⟨wordAt payload (xlen - 8), now, true⟩ }
    | none => s
  else s

/-! ## Runs -/

/-- The entry an accepted `Send.send` put its frame into. -/
def queuedIn : List Call → Option QePtr
  | .send _ _ .success :: .enqueue q :: _ => some q
  | _ => none

/-- The queue is `t` after the event `e`. -/
def note (s : Delaying) (e : QEvent) (arrived : UInt32) (t : Queueing) : Delaying :=
  match e with
  | .send _ frame len _ _ =>
    match queuedIn t.calls with
    | some q =>
      { s with
        queueing := t
        given := Function.update s.given q ⟨{ frame with length := len }, arrived⟩ }
    | none => { s with queueing := t }
  | .subSendDone msg _ true _ =>
    if s.queueing.suppressSendDone then
      { s with
        queueing := t
        log := .delivered (s.given s.queueing.currentSendQe) s.handedAt (s.queueing.mem msg) ::
          s.log }
    else { s with queueing := t }
  | _ => { s with queueing := t }

end Delaying

/-- What can happen to such a queue. -/
inductive DelayEvent
  /-- `SubReceive.receive` of a frame of `xlen` bytes. -/
  | receive (payload : List UInt8) (xlen : Nat) (now : UInt32)
  /-- An event of the queue. `arrived`: when the frame came to this node, if it is a `Send.send`. -/
  | queue (e : QEvent) (now arrived : UInt32)
deriving DecidableEq, Repr

namespace Delaying

def step (s : Delaying) : DelayEvent → Option Delaying
  | .receive payload xlen now => some (s.receive payload xlen now)
  | .queue (.sendDataTask nb r) now _ =>
    if s.queueing.sendDataPosted then
      some ({ s with queueing := { s.queueing with sendDataPosted := false } }.sendDataTask nb r
        now)
    else none
  | .queue e _ arrived => (s.queueing.step e).map (s.note e arrived)

def machine : Machine Delaying DelayEvent where
  init s := s = start
  step := step

end Delaying

end BackIP
