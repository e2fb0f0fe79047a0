import Backip.BackIP.Queueing

/-!
# The queue as lists

`QueueView` is the state of a queue as its users see it: the pools and the stack as the lists of
what is in them, the packet in flight, the virtual packets, what is posted and what the link holds.
`Move v e v'` says what an event `e` can do to it, one constructor for each way through a handler.

This is the abstract model of `BackIPQueueingP`: a last-in first-out queue of bounded size that
turns its oldest packet into a virtual one when it is full, and of which at most one packet is at
the link. That the code's handlers make only these moves is `Queueing.step_move`
(`Proof/QueueStep.lean`); results about runs follow from the moves alone.
-/

set_option autoImplicit false

namespace BackIP

structure QueueView where
  free : List MsgPtr
  freeQe : List QePtr
  stack : List QePtr
  qe : QePtr → QueueEntry
  current : QePtr
  nb : LlAddr
  flag : Bool
  sending : Nat
  busy : Bool
  suppress : Bool
  virtual : Nat
  mMsgp : MsgPtr
  posted : Bool
  donePosted : Bool
  timer : Bool
  pending : List MsgPtr
  calls : List Call

def Queueing.view (s : Queueing) : QueueView where
  free := s.messagePool.toList
  freeQe := s.qEntryPool.toList
  stack := s.sendStack.toList
  qe := s.qe
  current := s.currentSendQe
  nb := s.currNbLlAddr
  flag := s.sendingBeacon
  sending := s.sendingData
  busy := s.radioBusy
  suppress := s.suppressSendDone
  virtual := s.virtualQueueSize
  mMsgp := s.mMsgp
  posted := s.sendDataPosted
  donePosted := s.signalDonePosted
  timer := s.txRetryTimer.isSome
  pending := s.pending
  calls := s.calls

namespace QueueView

/-- The message of an entry. -/
def msgOf (v : QueueView) (q : QePtr) : MsgPtr := (v.qe q).msg

/-- The oldest packet, if the queue is full. -/
def oldest (v : QueueView) : List QePtr :=
  if v.stack.length = forwardingQueueSize then v.stack.take 1 else []

/-- A full queue turns its oldest packet into a virtual one. -/
def discard (v : QueueView) : QueueView :=
  { v with
    stack := v.stack.drop v.oldest.length
    free := v.free ++ v.oldest.map v.msgOf
    freeQe := v.freeQe ++ v.oldest
    virtual := if v.oldest = [] then v.virtual else inc16 v.virtual
    calls := v.oldest.flatMap (fun q => [.qEntryPut .success, .messagePut .success, .discard q]) ++
      v.calls }

/-- `check_bp` may ask for a beacon. -/
def check (v : QueueView) (beacon : Bool) : QueueView :=
  { v with calls := if beacon then .drasticBackpressureChange :: v.calls else v.calls }

/-- The state in which `sendDataTask` has found the neighbour `a`. -/
def chosen (v : QueueView) (beacon : Bool) (a : LlAddr) : QueueView :=
  ({ v with posted := false, nb := a }.check beacon).discard

theorem discard_of_room {v : QueueView} (h : v.stack.length ≠ forwardingQueueSize) :
    v.discard = v := by
  simp [discard, oldest, h]

theorem discard_of_full {v : QueueView} {q : QePtr} {rest : List QePtr} (hs : v.stack = q :: rest)
    (h : v.stack.length = forwardingQueueSize) :
    v.discard = { v with
      stack := rest
      free := v.free ++ [v.msgOf q]
      freeQe := v.freeQe ++ [q]
      virtual := inc16 v.virtual
      calls := .qEntryPut .success :: .messagePut .success :: .discard q :: v.calls } := by
  have ho : v.oldest = [q] := by rw [oldest, if_pos h, hs]; rfl
  simp [discard, ho, hs]

/-- Discarding does nothing, or turns the oldest packet of a full queue into a virtual one. -/
theorem discard_cases (v : QueueView) : v.discard = v ∧ v.stack.length ≠ forwardingQueueSize ∨
    ∃ q rest, v.stack = q :: rest ∧ v.stack.length = forwardingQueueSize ∧
      v.discard = { v with
        stack := rest
        free := v.free ++ [v.msgOf q]
        freeQe := v.freeQe ++ [q]
        virtual := inc16 v.virtual
        calls := .qEntryPut .success :: .messagePut .success :: .discard q :: v.calls } := by
  by_cases h : v.stack.length = forwardingQueueSize
  · cases hs : v.stack with
    | nil => rw [hs] at h; cases h
    | cons q rest => exact .inr ⟨q, rest, rfl, hs ▸ h, discard_of_full hs h⟩
  · exact .inl ⟨discard_of_room h, h⟩

/-- A full queue has packets left when its oldest is gone. -/
theorem discard_eq_of_stack_eq_nil {v : QueueView} (h : v.discard.stack = []) :
    v.discard = v ∧ v.stack = [] := by
  rcases v.discard_cases with ⟨hd, _⟩ | ⟨q, rest, hs, hlen, hd⟩
  · exact ⟨hd, hd ▸ h⟩
  · rw [hd] at h
    have hrest : rest = [] := h
    rw [hs, hrest] at hlen
    cases hlen

inductive Move : QueueView → QEvent → QueueView → Prop
  | sendingBeacon (v : QueueView) : Move v .sendingBeacon { v with flag := true }
  /-- A `Send.send` with the beacon's flag set while the radio is busy. -/
  | bypassBusy (v : QueueView) (i : Nat) (frame : Message) (len : Nat) (r : TinyError)
      (now : Nat) (hf : v.flag = true) (hb : v.busy = true) :
      Move v (.send i frame len r now)
        { v with flag := false, calls := .send (.frag i) true .eretry :: v.calls }
  /-- A `Send.send` with the beacon's flag set: the link answers `r`. -/
  | bypass (v : QueueView) (i : Nat) (frame : Message) (len : Nat) (r : TinyError) (now : Nat)
      (hf : v.flag = true) (hb : v.busy = false) :
      Move v (.send i frame len r now)
        { v with
          flag := false
          busy := true
          suppress := false
          pending := if r = .success then .frag i :: v.pending else v.pending
          calls := .send (.frag i) true r :: .subSendBeacon (.frag i) frame len r :: v.calls }
  /-- A `Send.send` that finds the pools empty. -/
  | refuse (v : QueueView) (i : Nat) (frame : Message) (len : Nat) (r : TinyError) (now : Nat)
      (hf : v.flag = false) (hfree : v.discard.free = []) :
      Move v (.send i frame len r now)
        { v.discard with calls := .send (.frag i) false .eretry :: v.discard.calls }
  /-- A `Send.send` whose packet enters the queue. -/
  | accept (v : QueueView) (i : Nat) (frame : Message) (len : Nat) (r : TinyError) (now : Nat)
      (m : MsgPtr) (free : List MsgPtr) (q : QePtr) (freeQe : List QePtr)
      (hf : v.flag = false) (hfree : v.discard.free = m :: free)
      (hfreeQe : v.discard.freeQe = q :: freeQe) :
      Move v (.send i frame len r now)
        { v.discard with
          free := free
          freeQe := freeQe
          stack := v.discard.stack ++ [q]
          qe := Function.update v.qe q ⟨m, 0, now⟩
          mMsgp := .frag i
          posted := true
          donePosted := true
          calls := .send (.frag i) false .success :: .enqueue q :: .pushTop .success ::
            v.discard.calls }
  /-- `sendDataTask` while the radio is busy. -/
  | taskBusy (v : QueueView) (nb : Option LlAddr) (r : TinyError) (hp : v.posted = true)
      (hb : v.busy = true) :
      Move v (.sendDataTask nb r) { v with posted := false, timer := true }
  /-- `sendDataTask` with nothing to send. -/
  | taskIdle (v : QueueView) (nb : Option LlAddr) (r : TinyError) (beacon : Bool)
      (hp : v.posted = true) (hb : v.busy = false) (hs : v.stack = []) (hv : v.virtual = 0) :
      Move v (.sendDataTask nb r) ({ v with posted := false }.check beacon)
  /-- `sendDataTask` without a good neighbour. -/
  | taskNoNeighbour (v : QueueView) (r : TinyError) (beacon : Bool) (hp : v.posted = true)
      (hb : v.busy = false) (hs : v.stack ≠ [] ∨ 0 < v.virtual) :
      Move v (.sendDataTask none r)
        { ({ v with posted := false }.check beacon) with timer := true }
  /-- `sendDataTask` gives up on the packet on top. -/
  | giveUp (v : QueueView) (a : LlAddr) (r : TinyError) (beacon : Bool) (l : List QePtr)
      (q : QePtr) (hp : v.posted = true) (hb : v.busy = false)
      (hs : (v.chosen beacon a).stack = l ++ [q])
      (ht : maxRetxAttempts ≤ (v.qe q).txCount) :
      Move v (.sendDataTask (some a) r)
        { v.chosen beacon a with
          current := q
          sending := 0
          busy := false
          qe := Function.update v.qe q { v.qe q with txCount := 0 }
          timer := true
          calls := .pushTop .success :: .giveUp q a (2 * maxRetxAttempts) ::
            (v.chosen beacon a).calls }
  /-- `sendDataTask` hands the packet on top to the link. -/
  | transmit (v : QueueView) (a : LlAddr) (beacon : Bool) (l : List QePtr) (q : QePtr)
      (frame : Message) (len : Nat) (hp : v.posted = true) (hb : v.busy = false)
      (hs : (v.chosen beacon a).stack = l ++ [q]) (ht : (v.qe q).txCount < maxRetxAttempts) :
      Move v (.sendDataTask (some a) .success)
        { v.chosen beacon a with
          stack := l
          current := q
          suppress := true
          sending := 1
          busy := true
          qe := Function.update v.qe q { v.qe q with txCount := (v.qe q).txCount + 1 }
          pending := v.msgOf q :: v.pending
          calls := .subSendData q a frame len .success :: (v.chosen beacon a).calls }
  /-- `sendDataTask`: the link refuses the packet on top. -/
  | localSendFailed (v : QueueView) (a : LlAddr) (r : TinyError) (beacon : Bool)
      (l : List QePtr) (q : QePtr) (frame : Message) (len : Nat) (hr : r ≠ .success)
      (hp : v.posted = true) (hb : v.busy = false)
      (hs : (v.chosen beacon a).stack = l ++ [q]) (ht : (v.qe q).txCount < maxRetxAttempts) :
      Move v (.sendDataTask (some a) r)
        { v.chosen beacon a with
          current := q
          suppress := true
          sending := 0
          busy := false
          timer := true
          calls := .pushTop .success :: .subSendData q a frame len r ::
            (v.chosen beacon a).calls }
  /-- `sendDataTask` generates a null packet. -/
  | sendNull (v : QueueView) (a : LlAddr) (r : TinyError) (beacon : Bool)
      (hp : v.posted = true) (hb : v.busy = false) (hs : v.stack = []) (hv : 0 < v.virtual) :
      Move v (.sendDataTask (some a) r)
        { ({ v with posted := false, nb := a }.check beacon) with
          virtual := dec16 v.virtual
          busy := false
          calls := .sendNull :: ({ v with posted := false, nb := a }.check beacon).calls }
  | txRetryTimerFired (v : QueueView) (ht : v.timer = true) :
      Move v .txRetryTimerFired { v with timer := false, posted := true }
  | signalDone (v : QueueView) (hp : v.donePosted = true) :
      Move v .signalDone
        { v with donePosted := false, calls := .sendDone v.mMsgp .success :: v.calls }
  /-- The packet at the link was not acknowledged. -/
  | retry (v : QueueView) (m : MsgPtr) (error : TinyError) (now : Nat) (hm : m ∈ v.pending)
      (hs : v.suppress = true) :
      Move v (.subSendDone m error false now)
        { v with
          pending := v.pending.erase m
          sending := 0
          stack := v.stack ++ [v.current]
          busy := false
          posted := true
          calls := .pushTop .success :: v.calls }
  /-- The packet at the link was delivered. -/
  | deliver (v : QueueView) (m : MsgPtr) (error : TinyError) (now txTime : Nat)
      (hm : m ∈ v.pending) (hs : v.suppress = true) :
      Move v (.subSendDone m error true now)
        { v with
          pending := v.pending.erase m
          sending := 0
          free := v.free ++ [v.msgOf v.current]
          freeQe := v.freeQe ++ [v.current]
          suppress := false
          busy := false
          posted := v.posted || (v.stack ≠ [] ∨ 0 < v.virtual)
          calls := .qEntryPut .success :: .messagePut .success ::
            .delivered v.current v.nb (v.qe v.current).txCount txTime :: v.calls }
  /-- The link is done with a message that took the beacon's way. -/
  | beaconDone (v : QueueView) (m : MsgPtr) (error : TinyError) (delivered : Bool) (now : Nat)
      (hm : m ∈ v.pending) (hs : v.suppress = false) :
      Move v (.subSendDone m error delivered now)
        { v with
          pending := v.pending.erase m
          busy := false
          posted := v.posted || (v.stack ≠ [] ∨ 0 < v.virtual)
          calls := .sendDone m error :: v.calls }

end QueueView

end BackIP
