import Backip.Serial.SerialDispatcherP
import Backip.Serial.Transmit

/-!
# The serial stack of the mote (`tos/lib/serial/SerialDispatcherC.nc`)

`SerialP` under `SerialDispatcherP`: what the receiver signals goes to the dispatcher, whose answer to
`startPacket` depends on its locks, and the tokens of the frames to the ack queue of the sender.
-/

set_option autoImplicit false

namespace SerialDispatcherC

open Serial SerialDispatcherP

structure Stack where
  receiver : Receiver
  dispatcher : Dispatcher
  sender : Sender
  /-- The frames `ack_queue_push` was called for, each with its token and its packet. -/
  frames : List (UInt8 × List UInt8)

namespace Stack

/-- `Init.init`, and `startDoneTask`. -/
def start : Stack where
  receiver := .start
  dispatcher := .boot
  sender := .start
  frames := []

variable (cfg : SerialPlatform) (s : Stack)

/-- One signal of the receiver. -/
def signal (c : Signal) : Stack :=
  match c with
  | .startPacket => { s with dispatcher := s.dispatcher.startPacket.2 }
  | .byteReceived b => { s with dispatcher := s.dispatcher.byteReceived cfg b }
  | .endPacket result => { s with dispatcher := s.dispatcher.endPacket result }
  | .ackQueuePush token =>
    { s with
      sender := s.sender.ackQueuePush token
      frames := s.frames ++ [(token, s.dispatcher.complete.getLastD [])] }

/-- `UartStream.receivedByte`. -/
def receivedByte (data : UInt8) : Stack :=
  let receiver := s.receiver.receivedByte (fun _ => s.dispatcher.startPacket.1 = .success) data
  (receiver.signals.drop s.receiver.signals.length).foldl (signal cfg) { s with receiver }

inductive Event
  | receivedByte (data : UInt8)
  | dispatcher (e : Dispatcher.Event)
  | sender (e : Sender.Event)
deriving DecidableEq, Repr

/-- The sections of `receiveTask`. -/
def IsTask : Dispatcher.Event → Prop
  | .taskCopy | .taskSignal | .taskReturn _ => True
  | .startPacket | .byteReceived _ | .endPacket _ => False

instance (e : Dispatcher.Event) : Decidable (IsTask e) :=
  match e with
  | .taskCopy | .taskSignal | .taskReturn _ => inferInstanceAs (Decidable True)
  | .startPacket | .byteReceived _ | .endPacket _ => inferInstanceAs (Decidable False)

/-- The acks come from the frames that were received. -/
def IsSend : Sender.Event → Prop
  | .startSend _ _ | .runTx | .sendDone => True
  | .ackQueuePush _ => False

instance (e : Sender.Event) : Decidable (IsSend e) :=
  match e with
  | .startSend _ _ | .runTx | .sendDone => inferInstanceAs (Decidable True)
  | .ackQueuePush _ => inferInstanceAs (Decidable False)

def step : Event → Option Stack
  | .receivedByte data => some (s.receivedByte cfg data)
  | .dispatcher e =>
    if IsTask e then (s.dispatcher.step cfg e).map fun dispatcher => { s with dispatcher } else none
  | .sender e => if IsSend e then (s.sender.step e).map fun sender => { s with sender } else none

def machine : Machine Stack Event where
  init s := s = start
  step := step cfg

end Stack

end SerialDispatcherC
