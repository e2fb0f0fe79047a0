import Backip.Lib.Machine
import Backip.System.Types
import Mathlib.Logic.Function.Basic

/-!
# HDLC framing (`tos/lib/ppp/HdlcFramingP.nc`, `HdlcFraming_.h`, `HdlcFraming.h`)

The two halves of the module, which share nothing but the options: `Transmitter` (`sendFrame` and
`uartStreamSendDone`) and `Receiver` (`receivedByte`, the frames, and `inputEngine_task`). Addresses
are numbers, and 0 is the null pointer. What `HdlcUart.send` and `InputFramePool.request` return is an
argument.

`wire` and `queued` are not in the code: the bytes of the frame that `HdlcUart.send` has accepted, and
the contents of the frames put in the ready queue.
-/

set_option autoImplicit false

namespace Ppp

/-- `HDLC_AllStationsAddress`. -/
abbrev allStationsAddress : UInt8 := 0xff

/-- `HDLC_ControlFieldValue`. -/
abbrev controlFieldValue : UInt8 := 0x03

/-- `HDLC_FlagSequence`. -/
abbrev flagSequence : UInt8 := 0x7e

/-- `HDLC_ControlEscape`. -/
abbrev controlEscape : UInt8 := 0x7d

/-- `HDLC_ControlModifier`. -/
abbrev controlModifier : UInt8 := 0x20

/-- `FCS_LENGTH`. -/
abbrev fcsLength : Nat := 2

/-- `FCS16_Initial`. -/
abbrev fcs16Initial : UInt16 := 0xffff

/-- `FCS16_Good`. -/
abbrev fcs16Good : UInt16 := 0xf0b8

inductive RxState
  | unsynchronized
  | atAddress
  | atControlField
  | receive
  | escaped
deriving DecidableEq, Repr

inductive TxState
  | idle
  | active
  | sendCrc
deriving DecidableEq, Repr

inductive ReceiveFrameState
  | unused
  | receiving
  | received
  | processing
  | releasable
deriving DecidableEq, Repr

/-- `HdlcError_e`. -/
inductive HdlcError
  | invalidControlField
  | shortFrame
  | badCrc
  | noBufferAvailable
  | bufferOverflow
deriving DecidableEq, Repr

structure HdlcFramingOptions where
  txSuppressAddressControl : Bool := false
  rxSuppressAddressControl : Bool := false
  txAsyncControlCharacterMap : UInt32 := 0xffffffff
  rxAsyncControlCharacterMap : UInt32 := 0xffffffff
deriving DecidableEq, Repr

/-- `HdlcRxFrame_t`. -/
structure HdlcRxFrame where
  start : Nat := 0
  fin : Nat := 0
  frameState : ReceiveFrameState := .unused
deriving DecidableEq, Repr, Inhabited

/-- `fcs16_update`. -/
def fcs16Update (crc : UInt16) (data : UInt8) : UInt16 :=
  let data := data ^^^ (crc &&& 0xff).toUInt8
  let data := data ^^^ (data <<< 4)
  ((data.toUInt16 <<< 8) ||| ((crc >>> 8) &&& (0xff : UInt16))) ^^^ (data >>> 4).toUInt16 ^^^
    (data.toUInt16 <<< 3)

/-- `c` is one of the control characters of the map. -/
def inMap (accm : UInt32) (c : UInt8) : Bool := c < 0x20 && accm &&& (1 <<< c.toUInt32) ≠ 0

/-- `mustEscape`. -/
def mustEscape (c : UInt8) (accm : UInt32) : Bool :=
  c = flagSequence || c = controlEscape || inMap accm c

/-- `HdlcFramingOptions.set`: a null pointer stands for the defaults. -/
def setOptions (o : Option HdlcFramingOptions) : HdlcFramingOptions := o.getD {}

/-! ## The transmitter -/

structure Transmitter where
  options : HdlcFramingOptions
  txState : TxState
  txCrc : UInt16
  /-- The bytes from `txStart_` to `txEnd_`, and where `txPtr_` is in them. -/
  txData : List UInt8
  txPtr : Nat
  sendDoneError : TinyError
  taskPosted : Bool
  wire : List UInt8
  /-- The signals of `HdlcFraming.sendDone`. -/
  signals : List (List UInt8 × TinyError)

namespace Transmitter

/-- After `Init.init`. -/
def boot : Transmitter where
  options := {}
  txState := .idle
  txCrc := 0
  txData := []
  txPtr := 0
  sendDoneError := .success
  taskPosted := false
  wire := []
  signals := []

variable (t : Transmitter)

/-- A byte, escaped if it must be. -/
def escape (accm : UInt32) (c : UInt8) : List UInt8 :=
  if mustEscape c accm then [controlEscape, c ^^^ controlModifier] else [c]

/-- `HdlcUart.send`, which returns `ret`. -/
def uartSend (bytes : List UInt8) (ret : TinyError) : Transmitter :=
  if ret = .success then { t with wire := t.wire ++ bytes } else t

/-- `HdlcFraming.sendFrame`. -/
def sendFrame (data : List UInt8) (inhibitAccomp : Bool) (ret : TinyError) :
    TinyError × Transmitter :=
  if t.txState ≠ .idle then (.ebusy, t)
  else
    let t := { t with
      txState := .active, txCrc := fcs16Initial, txData := data, txPtr := 0, wire := [] }
    let r :=
      if inhibitAccomp || !t.options.txSuppressAddressControl then
        ({ t with
            txCrc := fcs16Update (fcs16Update t.txCrc allStationsAddress) controlFieldValue },
          flagSequence :: allStationsAddress ::
            escape t.options.txAsyncControlCharacterMap controlFieldValue)
      else (t, [flagSequence])
    let t := r.1.uartSend r.2 ret
    (ret, if ret ≠ .success then { t with txState := .idle } else t)

/-- The last part of `uartStreamSendDone`: nothing was sent if `error` is not `SUCCESS`. -/
def update (sendDone : Bool) (nextState : TxState) (error : TinyError) : Transmitter :=
  if sendDone || error ≠ .success then
    { t with txState := .idle, signals := t.signals ++ [(t.txData, error)] }
  else { t with txState := nextState }

/-- `uartStreamSendDone`, where `HdlcUart.send` returns `ret`. -/
def uartStreamSendDone (ret : TinyError) : Transmitter :=
  let t := { t with taskPosted := false }
  let accm := t.options.txAsyncControlCharacterMap
  if t.sendDoneError ≠ .success then t.update false t.txState t.sendDoneError
  else if t.txState = .sendCrc then t.update true .sendCrc .success
  else
    let rest := t.txData.drop t.txPtr
    let plain := rest.takeWhile fun c => !mustEscape c accm
    match rest, plain with
    | c :: _, [] =>
      let t := { t with txCrc := fcs16Update t.txCrc c, txPtr := t.txPtr + 1 }
      (t.uartSend [controlEscape, controlModifier ^^^ c] ret).update false t.txState ret
    | _ :: _, plain =>
      let t := { t with txCrc := plain.foldl fcs16Update t.txCrc, txPtr := t.txPtr + plain.length }
      (t.uartSend plain ret).update false t.txState ret
    | [], _ =>
      let t := { t with txCrc := t.txCrc ^^^ fcs16Initial }
      let crc := [t.txCrc.toUInt8, (t.txCrc >>> 8).toUInt8]
      (t.uartSend (crc.flatMap (escape accm) ++ [flagSequence]) ret).update false .sendCrc ret

/-- `HdlcUart.sendDone`. -/
def uartSendDone (error : TinyError) : Transmitter :=
  { t with sendDoneError := error, taskPosted := true }

/-- The UART sends what it was given, and the task runs until the frame is sent: `none` if that takes
more than so many times. -/
def finish : Nat → Transmitter → Option Transmitter
  | 0, _ => none
  | k + 1, t =>
    let t := (t.uartSendDone .success).uartStreamSendDone .success
    if t.txState = .idle then some t else finish k t

end Transmitter

/-! ## The receiver -/

/-- What `InputFramePool.request` answers: the start and the end of a fragment. Where the pool does not
signal `available`, the answer is not asked for, which comes to the same as an error. -/
abbrev PoolAnswer := Except TinyError (Nat × Nat)

inductive Signal
  | receptionError (code : HdlcError)
  | receivedDelimiter
  | receivedFrame (start length : Nat)
deriving DecidableEq, Repr

structure Receiver where
  options : HdlcFramingOptions
  rxState : RxState
  rxEscapedState : RxState
  rxBuffer : Nat
  rxBufferLength : Int
  rxIndex : Nat
  rxCrc : UInt16
  rxFrames : List HdlcRxFrame
  /-- The index of the frame that `rxActiveFrame__` points to. -/
  rxActiveFrame : Option Nat
  /-- The indices of the frames that `readyFrame__` points to. -/
  readyFrame : List Nat
  taskPosted : Bool
  mem : Nat → UInt8
  signals : List Signal
  queued : List (List UInt8)

namespace Receiver

/-- After `Init.init`, with `RX_FRAME_LIMIT` frames. -/
def boot (rxFrameLimit : UInt8) : Receiver where
  options := {}
  rxState := .unsynchronized
  rxEscapedState := .unsynchronized
  rxBuffer := 0
  rxBufferLength := 0
  rxIndex := 0
  rxCrc := 0
  rxFrames := List.replicate rxFrameLimit.toNat {}
  rxActiveFrame := none
  readyFrame := []
  taskPosted := false
  mem _ := 0
  signals := []
  queued := []

variable (s : Receiver)

def signal (c : Signal) : Receiver := { s with signals := s.signals ++ [c] }

/-- `post inputEngine_task ()`. -/
def postInputEngine : Receiver := { s with taskPosted := true }

/-- The bytes from `start` to `fin`. -/
def contents (start fin : Nat) : List UInt8 := (List.range (fin - start)).map fun k => s.mem (start + k)

/-- `startNewFrame_async__`. -/
def startNewFrame (pool : PoolAnswer) : TinyError × Receiver :=
  let i := s.rxFrames.findIdx (·.frameState = .unused)
  if i = s.rxFrames.length then (.enomem, s)
  else
    match pool with
    | .error rc => (rc, s)
    | .ok (start, fin) =>
      (.success, { s with
        rxBuffer := start
        rxBufferLength := fin - start
        rxActiveFrame := some i
        rxFrames := s.rxFrames.set i ⟨start, fin, .receiving⟩ })

/-- `InputFramePool.available`. -/
def available (pool : PoolAnswer) : Receiver :=
  if s.rxActiveFrame = none then (s.startNewFrame pool).2 else s

/-- `completeFrame_async__`: freezing the payload makes the pool signal `available`. Without an active
frame (which would be a null pointer) it is not called. -/
def completeFrame (pool : PoolAnswer) : Receiver :=
  match s.rxActiveFrame with
  | none => s
  | some i =>
    let fp := s.rxFrames.getD i default
    let fp := { fp with frameState := .received, fin := fp.start + s.rxIndex - fcsLength }
    let s := { s.postInputEngine with
      rxFrames := s.rxFrames.set i fp
      readyFrame := s.readyFrame ++ [i]
      rxActiveFrame := none
      rxBuffer := 0
      queued := s.queued ++ [s.contents fp.start fp.fin] }
    s.available pool

/-- `HdlcFraming.releaseReceivedFrame`. -/
def releaseReceivedFrame (buffer : Nat) : TinyError × Receiver :=
  let i := s.rxFrames.findIdx (·.start = buffer)
  if i = s.rxFrames.length then (.einval, s)
  else
    let fp := s.rxFrames.getD i default
    let s := { s with rxFrames := s.rxFrames.set i { fp with frameState := .releasable } }
    (.success, s.postInputEngine)

/-- `inputEngine_task`. -/
def inputEngineTask (pool : PoolAnswer) : Receiver :=
  let s := { s with taskPosted := false }
  match s.readyFrame with
  | i :: rest =>
    let fp := s.rxFrames.getD i default
    let s := { s with
      readyFrame := rest, rxFrames := s.rxFrames.set i { fp with frameState := .processing } }
    if fp.start ≠ 0 then (s.signal (.receivedFrame fp.start (fp.fin - fp.start))).postInputEngine
    else s
  | [] =>
    let i := s.rxFrames.findIdx (·.frameState = .releasable)
    if i = s.rxFrames.length then s
    else
      let fp := s.rxFrames.getD i default
      let s := { s with rxFrames := s.rxFrames.set i {} }
      if fp.start ≠ 0 then (s.available pool).postInputEngine else s

/-! ### `HdlcUart.receivedByte` -/

/-- What one byte does: the state, the error, and whether a delimiter was received. -/
abbrev Result := Receiver × Option HdlcError × Bool

/-- The label `reprocess_unsynchronized`. -/
def reprocessUnsynchronized (error : Option HdlcError) (inByte : UInt8) : Result :=
  let s := { s with rxIndex := 0, rxCrc := fcs16Initial }
  if inByte = flagSequence then ({ s with rxState := .atAddress }, error, true)
  else ({ s with rxState := .unsynchronized }, error, false)

/-- The label `receive`. -/
def receive (inByte byte : UInt8) (pool : PoolAnswer) : Result :=
  if inByte = flagSequence then
    if fcsLength ≤ s.rxIndex then
      if s.rxCrc = fcs16Good then (s.completeFrame pool).reprocessUnsynchronized none inByte
      else s.reprocessUnsynchronized (some .badCrc) inByte
    else s.reprocessUnsynchronized (some .shortFrame) inByte
  else if s.rxBuffer ≠ 0 then
    if s.rxIndex < s.rxBufferLength then
      ({ s with
          rxCrc := fcs16Update s.rxCrc byte
          mem := Function.update s.mem (s.rxBuffer + s.rxIndex) byte
          rxIndex := s.rxIndex + 1 }, none, false)
    else ({ s with rxState := .unsynchronized }, some .bufferOverflow, false)
  else ({ s with rxState := .unsynchronized }, some .noBufferAvailable, false)

/-- The `switch` on the state, for the unconverted and the converted byte. -/
def process (inByte byte : UInt8) (pool : PoolAnswer) : Result :=
  match s.rxState with
  | .unsynchronized => s.reprocessUnsynchronized none inByte
  | .atAddress =>
    if inByte = flagSequence then s.reprocessUnsynchronized none inByte
    else if byte ≠ allStationsAddress then { s with rxState := .receive }.receive inByte byte pool
    else ({ s with rxCrc := fcs16Update s.rxCrc byte, rxState := .atControlField }, none, false)
  | .atControlField =>
    if byte ≠ controlFieldValue then
      s.reprocessUnsynchronized (if inByte ≠ flagSequence then some .invalidControlField else none)
        inByte
    else ({ s with rxCrc := fcs16Update s.rxCrc byte, rxState := .receive }, none, false)
  | .receive => s.receive inByte byte pool
  | .escaped => (s, none, false)

/-- The byte that is processed, and the state to process it in. -/
def unescape (byte : UInt8) : Receiver × UInt8 :=
  if s.rxState = .escaped then
    if byte = flagSequence ∨ byte = controlEscape then ({ s with rxState := .unsynchronized }, byte)
    else ({ s with rxState := s.rxEscapedState }, byte ^^^ controlModifier)
  else (s, byte)

/-- The signals for what one byte did: errors first. -/
def notify (r : Result) : Receiver :=
  let s := match r.2.1 with
    | some code => r.1.signal (.receptionError code)
    | none => r.1
  if r.2.2 then s.signal .receivedDelimiter else s

/-- `HdlcUart.receivedByte`. -/
def receivedByte (byte : UInt8) (pool : PoolAnswer) : Receiver :=
  if inMap s.options.rxAsyncControlCharacterMap byte then s
  else
    let r := s.unescape byte
    let s := r.1
    if s.rxState ≠ .unsynchronized ∧ byte = controlEscape then
      { s with rxEscapedState := s.rxState, rxState := .escaped }
    else notify (s.process byte r.2 pool)

/-! ### Runs -/

inductive Event
  /-- `StdControl.start`. -/
  | start (pool : PoolAnswer)
  | setOptions (o : Option HdlcFramingOptions)
  | receivedByte (byte : UInt8) (pool : PoolAnswer)
  | available (pool : PoolAnswer)
  | inputEngineTask (pool : PoolAnswer)
  | releaseReceivedFrame (buffer : Nat)

def step : Event → Receiver
  | .start pool => (s.startNewFrame pool).2
  | .setOptions o => { s with options := Ppp.setOptions o }
  | .receivedByte byte pool => s.receivedByte byte pool
  | .available pool => s.available pool
  | .inputEngineTask pool => if s.taskPosted then s.inputEngineTask pool else s
  | .releaseReceivedFrame buffer => (s.releaseReceivedFrame buffer).2

/-- The receiver from `Init.init` on. -/
def machine (rxFrameLimit : UInt8) : Machine Receiver Event where
  init s := s = boot rxFrameLimit
  step s e := some (s.step e)

end Receiver

end Ppp
