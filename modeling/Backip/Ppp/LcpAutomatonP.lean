import Backip.Lib.Machine
import Backip.System.Types

/-!
# The automaton of the control protocols (`tos/lib/ppp/LcpAutomatonP.nc`)

`LcpAutomatonP` is the state of `LcpAutomatonP` with its tasks, `RestartTimer` and the frames that
`Ppp` accepted and has not reported yet. Handlers run to completion one at a time. A transition is a
set of actions (`calculateEventActions`) that `processEventActions` works off from the low bit up;
where an action sends a frame, what the call answers is an argument: its result and, for `invoke`,
the key it stores (0 if none).

`log` is not in the code. It records, the last one first, the actions that are executed and the
signals and calls to other components.
-/

set_option autoImplicit false

namespace Ppp

/-- `LAS_*`. -/
inductive LcpAutomatonState
  | initial | starting | closed | stopped | closing | stopping | requestSent | ackReceived | ackSent
  | opened | transient
deriving DecidableEq, Repr

/-- `TransitionAction_b`, the low bit first. -/
inductive TransitionAction
  | tlf | tld | zrc | ircScr | ircStr | resetLocalOptions | resetRemoteOptions | scr | sca | scn
  | str | staUns | staRep | scj | ser | setLocalOptions | setRemoteOptions | tlu | tls
deriving DecidableEq, Repr

/-- All actions, the low bit first. -/
def TransitionAction.all : List TransitionAction :=
  [.tlf, .tld, .zrc, .ircScr, .ircStr, .resetLocalOptions, .resetRemoteOptions, .scr, .sca, .scn,
    .str, .staUns, .staRep, .scj, .ser, .setLocalOptions, .setRemoteOptions, .tlu, .tls]

/-- `pendingActions_ |= more`, the low bit first again. -/
def raise (pending more : List TransitionAction) : List TransitionAction :=
  TransitionAction.all.filter fun a => a ∈ pending ∨ a ∈ more

/-- `LcpAutomatonOptions_t`, with the values of `options_`; nothing changes them. -/
structure LcpAutomatonOptions where
  restartTimerBms : Nat := 3 * 1024
  maxTerminate : Int := 2
  maxConfigure : Int := 10
  maxFailure : Int := 5
  restartOption : Bool := false

def lcpOptions : LcpAutomatonOptions := {}

/-- `PppControlProtocolCode_ConfigureAck`. -/
def configureAck : Nat := 2

/-- `LcpEventParams_rcr_t`. -/
structure RcrParams where
  good : Bool
  options : Nat
  optionsEnd : Nat
  scxKey : Nat
deriving DecidableEq, Repr

/-- `LcpEventParams_opts_t`. -/
structure OptsParams where
  options : Nat
  optionsEnd : Nat
  code : Nat
deriving DecidableEq, Repr

/-- `LAE_*`, with the parameters. -/
inductive LcpAutomatonEvent
  | laeUp | laeDown | laeOpen | laeClose
  | laeTimeout (haveRetries : Bool)
  | laeReceiveConfigureRequest (params : RcrParams)
  | laeReceiveConfigureAck (params : OptsParams)
  | laeReceiveConfigureNakRej (params : OptsParams)
  | laeReceiveTerminateRequest (staKey : Nat)
  | laeReceiveTerminateAck
  | laeReceiveUnknownCode | laeReceiveCodeProtocolReject | laeReceiveEchoDiscardRequestReply
deriving DecidableEq, Repr

/-- What the automaton does. -/
inductive LcpEntry
  | action (a : TransitionAction)
  | thisLayerUp | thisLayerDown | thisLayerStarted | thisLayerFinished
  | transitionCompleted (state : LcpAutomatonState)
  | setLocalOptions (code options optionsEnd : Nat)
  | setRemoteOptions (options optionsEnd : Nat)
  | releaseOutputFrame (key : Nat)
deriving DecidableEq, Repr

structure LcpAutomatonP where
  -- the module's variables
  pendingActions : List TransitionAction
  lastAction : Option TransitionAction
  successState : LcpAutomatonState
  failState : LcpAutomatonState
  currentState : LcpAutomatonState
  optionMessageCode : Nat
  optionSet : Nat
  optionSetEnd : Nat
  pendingSxxKey : Nat
  restartCounter : Int
  restartCounterAction : Option TransitionAction
  restartKey : Nat
  resumeKey : Nat
  resumeResult : TinyError
  -- the timer's interval while it runs, the tasks, and the frames `Ppp` accepted
  timer : Option Nat
  restartTimerFiredPosted : Bool
  resumeAutomatonPosted : Bool
  accepted : List Nat
  -- the record of what happened
  log : List LcpEntry

/-- What the call that an action makes returns, and the key it stores. -/
abbrev LcpAnswer := TransitionAction → TinyError × Nat

namespace LcpAutomatonP

/-- Booted: variables zero. -/
def boot : LcpAutomatonP where
  pendingActions := []
  lastAction := none
  successState := .initial
  failState := .initial
  currentState := .initial
  optionMessageCode := 0
  optionSet := 0
  optionSetEnd := 0
  pendingSxxKey := 0
  restartCounter := 0
  restartCounterAction := none
  restartKey := 0
  resumeKey := 0
  resumeResult := .success
  timer := none
  restartTimerFiredPosted := false
  resumeAutomatonPosted := false
  accepted := []
  log := []

def record (s : LcpAutomatonP) (e : LcpEntry) : LcpAutomatonP := { s with log := e :: s.log }

/-- `initializeRestartCounter`. -/
def initializeRestartCounter (s : LcpAutomatonP) (action : TransitionAction) : LcpAutomatonP :=
  let s := match action with
    | .scr => { s with
        restartCounterAction := some action, restartCounter := lcpOptions.maxConfigure }
    | .str => { s with
        restartCounterAction := some action, restartCounter := lcpOptions.maxTerminate }
    | .staRep => { s with restartCounterAction := some action, restartCounter := 0 }
    | _ => { s with restartCounterAction := none }
  { s with timer := none }

/-- `restartTimer_`. -/
def restartTimer (s : LcpAutomatonP) : LcpAutomatonP :=
  { s with timer := some lcpOptions.restartTimerBms }

/-! ## `calculateEventActions_` -/

/-- The cell of the table: the actions of an event in the state `cur`, and the state after them. -/
def eventActions (cur : LcpAutomatonState) :
    LcpAutomatonEvent → List TransitionAction × LcpAutomatonState
  | .laeUp =>
    match cur with
    | .initial => ([], .closed)
    | .starting => ([.ircScr, .scr], .requestSent)
    | _ => ([], cur)
  | .laeDown =>
    match cur with
    | .closed | .closing => ([], .initial)
    | .initial | .starting => ([], cur)
    | .stopped => ([.tls], .starting)
    | .opened => ([.tld], .starting)
    | _ => ([], .starting)
  | .laeOpen =>
    match cur with
    | .initial => ([.tls], .starting)
    | .closed => ([.ircScr, .scr], .requestSent)
    | .closing => ([], if lcpOptions.restartOption then cur else .stopping)
    | _ => ([], cur)
  | .laeClose =>
    match cur with
    | .initial | .closed | .closing => ([], cur)
    | .starting => ([.tlf], .initial)
    | .stopped => ([], .closed)
    | .opened => ([.tld, .ircStr, .str], .closing)
    | .requestSent | .ackReceived | .ackSent => ([.ircStr, .str], .closing)
    | _ => ([], .closing)
  | .laeTimeout haveRetries =>
    match cur with
    | .closing => if haveRetries then ([.str], cur) else ([.tlf], .closed)
    | .stopping => if haveRetries then ([.str], cur) else ([.tlf], .stopped)
    | .requestSent | .ackSent => if haveRetries then ([.scr], cur) else ([.tlf], .stopped)
    | .ackReceived => if haveRetries then ([.scr], .requestSent) else ([.tlf], .stopped)
    | _ => ([], cur)
  | .laeReceiveConfigureRequest params =>
    match cur with
    | .closed => ([.staUns], cur)
    | .stopped =>
      if params.good then ([.ircScr, .scr, .sca], .ackSent)
      else ([.ircScr, .scr, .scn], .requestSent)
    | .requestSent | .ackSent => if params.good then ([.sca], .ackSent) else ([.scn], .requestSent)
    | .ackReceived => if params.good then ([.sca, .tlu], .opened) else ([.scn], .ackReceived)
    | .opened =>
      if params.good then ([.tld, .scr, .sca], .ackSent) else ([.tld, .scr, .scn], .requestSent)
    | _ => ([], cur)
  | .laeReceiveConfigureAck _ =>
    match cur with
    | .closed | .stopped => ([.staUns], cur)
    | .requestSent => ([.ircScr], .ackReceived)
    | .ackReceived => ([.scr], .requestSent)
    | .ackSent => ([.ircScr, .tlu], .opened)
    -- the state stays `LAS_Opened`
    | .opened => ([.tld, .scr], cur)
    | _ => ([], cur)
  | .laeReceiveConfigureNakRej _ =>
    match cur with
    | .closed | .stopped => ([.staUns], cur)
    | .requestSent | .ackSent => ([.ircScr, .scr], cur)
    | .ackReceived => ([.scr], .requestSent)
    | .opened => ([.tld, .scr], cur)
    | _ => ([], cur)
  | .laeReceiveTerminateRequest _ =>
    match cur with
    | .initial | .starting => ([], cur)
    | .opened => ([.tld, .zrc, .staRep], .stopping)
    | .ackReceived | .ackSent => ([.staRep], .requestSent)
    | _ => ([.staRep], cur)
  | .laeReceiveTerminateAck | .laeReceiveUnknownCode | .laeReceiveCodeProtocolReject
  | .laeReceiveEchoDiscardRequestReply => ([], cur)

/-- `calculateEventActions_`. -/
def calculateEventActions (s : LcpAutomatonP) (evt : LcpAutomatonEvent) :
    TinyError × LcpAutomatonP :=
  if s.pendingActions ≠ [] ∨ s.currentState = .transient then (.eretry, s)
  else
    let (actions, success) := eventActions s.currentState evt
    let s := { s with
      failState := s.currentState, successState := success, pendingActions := raise [] actions }
    match evt with
    | .laeReceiveConfigureRequest params =>
      let s := { s with pendingActions := raise s.pendingActions [.resetRemoteOptions] }
      let s := if .sca ∈ s.pendingActions then
          { s with
            pendingActions := raise s.pendingActions [.setRemoteOptions]
            optionMessageCode := configureAck
            optionSet := params.options
            optionSetEnd := params.optionsEnd }
        else s
      (.success, { s with pendingSxxKey := params.scxKey })
    | .laeReceiveConfigureAck params | .laeReceiveConfigureNakRej params =>
      (.success, { s with
        pendingActions := raise s.pendingActions [.setLocalOptions]
        optionMessageCode := params.code
        optionSet := params.options
        optionSetEnd := params.optionsEnd })
    | .laeReceiveTerminateRequest staKey =>
      (.success, if .staRep ∈ s.pendingActions then { s with pendingSxxKey := staKey } else s)
    | _ => (.success, s)

/-! ## `processEventActions_` -/

/-- Take up an action (`none`: `TA_noop`): the low bit of `pendingActions_`, with the others left in
`rest`. -/
def takeUp (s : LcpAutomatonP) (action : Option TransitionAction) (rest : List TransitionAction) :
    LcpAutomatonP :=
  let s := { s with pendingActions := rest, lastAction := action }
  if s.restartCounterAction = action then
    { s with restartCounter := (s.restartCounter - 1).bmod 65536 }
  else s

/-- `TA_sta_rep`, `TA_sca` and `TA_scn`, where `Ppp.sendOutputFrame` answers `r`. -/
def sendPendingSxx (s : LcpAutomatonP) (rc r : TinyError) : TinyError × Bool × LcpAutomatonP :=
  let rc := if rc = .success then r else rc
  if rc = .success then
    (rc, true, { s with
      resumeKey := s.pendingSxxKey
      accepted := s.pendingSxxKey :: s.accepted
      pendingSxxKey := 0 })
  else
    let s := { s with resumeKey := 0, restartKey := 0 }.record (.releaseOutputFrame s.pendingSxxKey)
    (rc, false, { s with pendingSxxKey := 0 })

/-- The `switch` on the action: the error code, whether the transition is suspended, the state. -/
def execute (s : LcpAutomatonP) (answer : LcpAnswer) (rc : TinyError) :
    TransitionAction → TinyError × Bool × LcpAutomatonP
  | .tlf => (rc, false, s.record .thisLayerFinished)
  | .tld => (rc, false, s.record .thisLayerDown)
  | .zrc => (rc, false, { s.initializeRestartCounter .staRep with restartKey := s.pendingSxxKey })
  | .ircScr => (rc, false, s.initializeRestartCounter .scr)
  | .ircStr => (rc, false, s.initializeRestartCounter .str)
  | .resetRemoteOptions => (rc, false, s.record (.setRemoteOptions 0 0))
  | .scr =>
    let s := if rc = .success then s.record (.setLocalOptions configureAck 0 0) else s
    let (rc, key) : TinyError × Nat := if rc = .success then answer .scr else (rc, 0)
    if rc = TinyError.success ∧ key ≠ 0 then
      (rc, true, { s with restartKey := key, resumeKey := key, accepted := key :: s.accepted })
    else (rc, false, s.restartTimer)
  | .staUns =>
    let (rc, key) : TinyError × Nat := if rc = .success then answer .staUns else (rc, 0)
    if rc = .success ∧ key ≠ 0 then
      (rc, true, { s with resumeKey := key, accepted := key :: s.accepted })
    else (rc, false, s)
  | .staRep => s.sendPendingSxx rc (answer .staRep).1
  | .sca => s.sendPendingSxx rc (answer .sca).1
  | .scn => s.sendPendingSxx rc (answer .scn).1
  | .str | .scj | .ser | .resetLocalOptions => (rc, false, s)
  | .setLocalOptions =>
    (rc, false, s.record (.setLocalOptions s.optionMessageCode s.optionSet s.optionSetEnd))
  | .setRemoteOptions => (rc, false, s.record (.setRemoteOptions s.optionSet s.optionSetEnd))
  | .tlu => (rc, false, s.record .thisLayerUp)
  | .tls => (rc, false, s.record .thisLayerStarted)

/-- The `do` loop, where `todo` are the pending actions: an error or a suspension ends it, but not
before the first action. -/
def loop (answer : LcpAnswer) :
    List TransitionAction → TinyError → LcpAutomatonP → TinyError × Bool × LcpAutomatonP
  | [], rc, s => (rc, false, s.takeUp none [])
  | a :: rest, rc, s =>
    let (rc, suspended, s) := ((s.takeUp (some a) rest).record (.action a)).execute answer rc a
    if rc = .success ∧ suspended = false then loop answer rest rc s else (rc, suspended, s)

/-- The states of `ASB_TimerRunningStates`. -/
def timerRunningStates : List LcpAutomatonState :=
  [.closing, .stopping, .requestSent, .ackReceived, .ackSent]

/-- A transition that is not suspended ends. -/
def complete (s : LcpAutomatonP) (rc : TinyError) : LcpAutomatonP :=
  let s := { s with currentState := if rc = TinyError.success then s.successState else s.failState }
  let disableRestartTimer := s.currentState ∉ timerRunningStates
  let s := if disableRestartTimer then { s with restartKey := 0 } else s
  let s := { s with optionSet := 0, optionSetEnd := 0 }
  let s := if s.pendingSxxKey ≠ 0 then s.record (.releaseOutputFrame s.pendingSxxKey) else s
  let s := { s with pendingSxxKey := 0 }.record (.transitionCompleted s.currentState)
  if disableRestartTimer then { s with timer := none } else s

/-- `processEventActions_`. -/
def processEventActions (s : LcpAutomatonP) (answer : LcpAnswer) : TinyError × LcpAutomatonP :=
  let (rc, suspended, s) :=
    loop answer s.pendingActions s.resumeResult { s with resumeResult := .success }
  (rc, if suspended then { s with currentState := .transient } else s.complete rc)

/-! ## The handlers -/

/-- `LcpAutomaton.signalEvent`, and `up`, `down`, `open` and `close` (`processEvent_`). -/
def signalEvent (s : LcpAutomatonP) (evt : LcpAutomatonEvent) (answer : LcpAnswer) :
    TinyError × LcpAutomatonP :=
  let (rc, s) := s.calculateEventActions evt
  if rc = .eretry then (rc, s) else s.processEventActions answer

/-- `restartTimerFired_task`. -/
def restartTimerFiredTask (s : LcpAutomatonP) : LcpAutomatonP :=
  let (rc, s) := s.calculateEventActions (.laeTimeout (0 < s.restartCounter))
  if rc = .success then { s with resumeAutomatonPosted := true } else { s with timer := some 1 }

/-- `Ppp.outputFrameTransmitted`. -/
def outputFrameTransmitted (s : LcpAutomatonP) (key : Nat) (result : TinyError) : LcpAutomatonP :=
  let s := if s.restartKey = key then { s with restartKey := 0 }.restartTimer else s
  if s.resumeKey = key then
    { s with resumeResult := result, resumeKey := 0, resumeAutomatonPosted := true }
  else s

end LcpAutomatonP

/-! ## The open system -/

inductive LcpHandler
  | signalEvent (evt : LcpAutomatonEvent) (answer : LcpAnswer)
  | restartTimerFired
  | restartTimerFiredTask
  | resumeAutomatonTask (answer : LcpAnswer)
  | outputFrameTransmitted (key : Nat) (result : TinyError)

namespace LcpAutomatonP

/-- One handler: `none` if it cannot run (a task that is not posted, a timer that does not run, a
frame that was not accepted or was reported already). -/
def step (s : LcpAutomatonP) : LcpHandler → Option LcpAutomatonP
  | .signalEvent evt answer => some (s.signalEvent evt answer).2
  | .restartTimerFired =>
    if s.timer.isSome then some { s with timer := none, restartTimerFiredPosted := true } else none
  | .restartTimerFiredTask =>
    if s.restartTimerFiredPosted then
      some { s with restartTimerFiredPosted := false }.restartTimerFiredTask
    else none
  | .resumeAutomatonTask answer =>
    if s.resumeAutomatonPosted then
      some ({ s with resumeAutomatonPosted := false }.processEventActions answer).2
    else none
  | .outputFrameTransmitted key result =>
    if key ∈ s.accepted then
      some ({ s with accepted := s.accepted.erase key }.outputFrameTransmitted key result)
    else none

def machine : Machine LcpAutomatonP LcpHandler where
  init s := s = boot
  step := step

end LcpAutomatonP

end Ppp
