import Backip.Lib.Machine
import Backip.System.Types
import Mathlib.Logic.Function.Basic

/-!
# The receive path of the dispatcher (`tos/lib/serial/SerialDispatcherP.nc`)

Two buffers take turns: one is filled from the interrupts, the other one is with `receiveTask` or
free. `memory` is the contents of all message buffers, and `receiveTask` is split at its atomic
sections. What `SerialP` signals follows `ReceiveBytePacket.nc`, with any number of `startPacket`
and of failing `endPacket`.
-/

set_option autoImplicit false

/-- `TOS_SERIAL_UNKNOWN_ID`. -/
abbrev SerialDispatcherP.unknownId : UInt8 := 255

/-- The platform's `message_t` and `PacketInfo`. The buffer's size fits in `recvIndex`, and no packet
format has the identifier `TOS_SERIAL_UNKNOWN_ID`, whose offset is the default one. -/
structure SerialPlatform where
  /-- `sizeof(message_t)`. -/
  messageSize : Nat
  messageSize_le : messageSize ≤ 255
  /-- `PacketInfo.offset`. -/
  offset : UInt8 → UInt8
  offset_unknownId : offset SerialDispatcherP.unknownId = 0
  /-- `PacketInfo.upperLength`, which does not look at the message. -/
  upperLength : UInt8 → UInt8 → UInt8

namespace SerialDispatcherP

inductive RecvPhase
  | idle
  | begin
  | data
deriving DecidableEq, Repr

/-- `recv_state_t`; `which` is the bit of the current buffer. -/
structure RecvState where
  which : Bool
  bufZeroLocked : Bool
  bufOneLocked : Bool
  state : RecvPhase
deriving DecidableEq, Repr

/-- Where `receiveTask` stands. -/
inductive Task
  | idle
  | posted
  /-- The first atomic section is over. -/
  | copied (myType : UInt8) (myBuf : Nat) (mySize : UInt8) (myWhich : Bool)
  /-- `Receive.receive` was signalled and has not returned. -/
  | signalled (myType : UInt8) (myBuf : Nat) (mySize : UInt8) (myWhich : Bool)
deriving DecidableEq, Repr

/-- What was passed to `Receive.receive`: the packet's type, the contents of the buffer from the
type's offset on, and the length. -/
structure Passed where
  type : UInt8
  contents : List UInt8
  len : UInt8
deriving DecidableEq, Repr

structure Dispatcher where
  receiveState : RecvState
  recvType : UInt8
  recvIndex : UInt8
  /-- `messagePtrs`, by the bit of the buffer. -/
  messagePtrs : Bool → Nat
  receiveBuffer : Nat
  receiveTaskPending : Bool
  receiveTaskType : UInt8
  receiveTaskWhich : Bool
  receiveTaskBuf : Nat
  receiveTaskSize : UInt8
  task : Task
  memory : Nat → Nat → UInt8
  /-- The bytes signalled of the packet that `startPacket` accepted, until `endPacket`. -/
  packet : Option (List UInt8)
  /-- The packets whose `endPacket(SUCCESS)` was signalled. -/
  complete : List (List UInt8)
  /-- The packet that `receiveTask` was last posted for. -/
  taskPacket : List UInt8
  passed : List Passed

/-- The component before its first packet; buffers 0 and 1 are `messages`. -/
def Dispatcher.boot : Dispatcher where
  receiveState := ⟨false, false, false, .idle⟩
  recvType := unknownId
  recvIndex := 0
  messagePtrs which := which.toNat
  receiveBuffer := 0
  receiveTaskPending := false
  receiveTaskType := 0
  receiveTaskWhich := false
  receiveTaskBuf := 0
  receiveTaskSize := 0
  task := .idle
  memory _ _ := 0
  packet := none
  complete := []
  taskPacket := []
  passed := []

namespace Dispatcher

variable (cfg : SerialPlatform) (d : Dispatcher)

/-! ## The locks -/

def isLocked (which : Bool) : Bool :=
  if which then d.receiveState.bufOneLocked else d.receiveState.bufZeroLocked

/-- `isCurrentBufferLocked`. -/
def isCurrentBufferLocked : Bool := d.isLocked d.receiveState.which

/-- The lock of one buffer is set or cleared. -/
def setLock (which locked : Bool) : Dispatcher :=
  if which then { d with receiveState := { d.receiveState with bufOneLocked := locked } }
  else { d with receiveState := { d.receiveState with bufZeroLocked := locked } }

/-- `lockCurrentBuffer`. -/
def lockCurrentBuffer : Dispatcher := d.setLock d.receiveState.which true

/-- `unlockBuffer`. -/
def unlockBuffer (which : Bool) : Dispatcher := d.setLock which false

/-- `receiveBufferSwap`. -/
def receiveBufferSwap : Dispatcher :=
  { d with
    receiveState := { d.receiveState with which := !d.receiveState.which }
    receiveBuffer := d.messagePtrs (!d.receiveState.which) }

/-! ## The interrupts -/

/-- `ReceiveBytePacket.startPacket`: its answer and what it does. -/
def startPacket : TinyError × Dispatcher :=
  if !d.isCurrentBufferLocked then
    let d := d.lockCurrentBuffer
    (.success, { d with
      receiveState := { d.receiveState with state := .begin }
      recvIndex := 0
      recvType := unknownId
      packet := some [] })
  else (.ebusy, d)

/-- `ReceiveBytePacket.byteReceived`. -/
def byteReceived (b : UInt8) : Dispatcher :=
  let d := { d with packet := d.packet.map (· ++ [b]) }
  match d.receiveState.state with
  | .begin =>
    { d with
      receiveState := { d.receiveState with state := .data }
      recvIndex := cfg.offset b
      recvType := b }
  | .data =>
    if d.recvIndex.toNat < cfg.messageSize then
      { d with
        memory := Function.update d.memory d.receiveBuffer
          (Function.update (d.memory d.receiveBuffer) d.recvIndex.toNat b)
        recvIndex := d.recvIndex + 1 }
    else d
  | .idle => d

/-- `ReceiveBytePacket.endPacket`. -/
def endPacket (result : TinyError) : Dispatcher :=
  let bytes := d.packet.getD []
  let d :=
    if result = .success then { d with packet := none, complete := d.complete ++ [bytes] }
    else { d with packet := none }
  if !d.receiveTaskPending ∧ result = .success then
    let d := { d with
      receiveTaskPending := true
      receiveTaskType := d.recvType
      receiveTaskWhich := d.receiveState.which
      receiveTaskBuf := d.receiveBuffer
      receiveTaskSize := d.recvIndex }
    let d := d.receiveBufferSwap
    { d with
      receiveState := { d.receiveState with state := .idle }
      task := .posted
      taskPacket := bytes }
  else d.unlockBuffer d.receiveState.which

/-! ## The task -/

/-- What a buffer holds from `offset` on, `n` bytes. -/
def read (buf offset n : Nat) : List UInt8 :=
  (List.range n).map fun k => d.memory buf (offset + k)

/-- `receiveTask`, its first atomic section. -/
def receiveTaskCopy : Dispatcher :=
  { d with
    task := .copied d.receiveTaskType d.receiveTaskBuf d.receiveTaskSize d.receiveTaskWhich }

/-- `receiveTask`, the signal of `Receive.receive`. -/
def receiveTaskSignal (myType : UInt8) (myBuf : Nat) (mySize : UInt8) (myWhich : Bool) :
    Dispatcher :=
  let mySize := mySize - cfg.offset myType
  let contents := d.read myBuf (cfg.offset myType).toNat mySize.toNat
  let mySize := cfg.upperLength myType mySize
  { d with
    task := .signalled myType myBuf mySize myWhich
    passed := d.passed ++ [⟨myType, contents, mySize⟩] }

/-- `receiveTask`, its last atomic section: `Receive.receive` returned `myBuf`. -/
def receiveTaskReturn (myBuf : Nat) (myWhich : Bool) : Dispatcher :=
  let d := { d with messagePtrs := Function.update d.messagePtrs myWhich myBuf }
  let d := d.unlockBuffer myWhich
  { d with receiveTaskPending := false, task := .idle }

/-! ## Runs -/

inductive Event
  | startPacket
  | byteReceived (b : UInt8)
  | endPacket (result : TinyError)
  | taskCopy
  | taskSignal
  | taskReturn (myBuf : Nat)
deriving DecidableEq, Repr

/-- Bytes and a successful end are signalled of an accepted packet only. The upper layer returns the
buffer it was passed, or another one that it has: any but the one in the other place. -/
def step : Event → Option Dispatcher
  | .startPacket => some d.startPacket.2
  | .byteReceived b => if d.packet.isSome then some (d.byteReceived cfg b) else none
  | .endPacket result =>
    if result = .success → d.packet.isSome then some (d.endPacket result) else none
  | .taskCopy => if d.task = .posted then some d.receiveTaskCopy else none
  | .taskSignal =>
    match d.task with
    | .copied myType myBuf mySize myWhich =>
      some (d.receiveTaskSignal cfg myType myBuf mySize myWhich)
    | _ => none
  | .taskReturn myBuf =>
    match d.task with
    | .signalled _ _ _ myWhich =>
      if myBuf ≠ d.messagePtrs (!myWhich) then some (d.receiveTaskReturn myBuf myWhich) else none
    | _ => none

def machine : Machine Dispatcher Event where
  init d := d = boot
  step := step cfg

end Dispatcher

end SerialDispatcherP
