import Backip.System.NwByte
import Backip.Lib.Machine
import Backip.Tcp.Circ

/-!
# TCP (`libtcp/tcplib.c`)

`process` is `tcplib_process` on the socket that `conn_lookup` finds. What it sends and signals is
its output. A message that is to be sent needs memory: the oracle `mem` says whether `ip_malloc` has
some, given what the call has put out so far. `none` stands for behaviour that the source leaves
undefined, or a loop that does not end.
-/

set_option autoImplicit false

namespace Tcp

/-! ## Segments -/

abbrev tcpFlagFin : UInt8 := 0x1
abbrev tcpFlagSyn : UInt8 := 0x2
abbrev tcpFlagRst : UInt8 := 0x4
abbrev tcpFlagAck : UInt8 := 0x10

/-- `struct tcp_hdr`, its numbers in host order. -/
structure TcpHdr where
  srcport : UInt16
  dstport : UInt16
  seqno : UInt32
  ackno : UInt32
  offset : UInt8
  flags : UInt8
  window : UInt16
  chksum : UInt16
  urgent : UInt16
deriving DecidableEq, Repr

/-- The header in memory. -/
def TcpHdr.bytes (h : TcpHdr) : List UInt8 :=
  h.srcport.netBytes ++ h.dstport.netBytes ++ h.seqno.netBytes ++ h.ackno.netBytes ++
    [h.offset, h.flags] ++ h.window.netBytes ++ h.chksum.netBytes ++ h.urgent.netBytes

/-- A segment: a header and what follows it in the packet. -/
structure Segment where
  hdr : TcpHdr
  rest : List UInt8
deriving DecidableEq, Repr

namespace Segment

def bytes (seg : Segment) : List UInt8 := seg.hdr.bytes ++ seg.rest

/-- The length of the header, in bytes. -/
def hdrLen (seg : Segment) : Nat := seg.hdr.offset.toNat / 4

/-- `payload_len`. -/
def payloadLen (seg : Segment) : Int := (seg.bytes.length : Int) - seg.hdrLen

/-- The bytes from `ptr` on. -/
def payload (seg : Segment) : List UInt8 := seg.bytes.drop seg.hdrLen

/-- Whether a flag is set. -/
def has (seg : Segment) (flag : UInt8) : Bool := seg.hdr.flags &&& flag != 0

end Segment

/-! ## Sockets -/

/-- `tcplib_sock_state_t`. -/
inductive TcpState
  | closed
  | listen
  | synRcvd
  | synSent
  | established
  | closeWait
  | lastAck
  | finWait1
  | finWait2
  | closing
  | timeWait
deriving DecidableEq, Repr

abbrev tcpAckPending : UInt8 := 0x3
abbrev tcpDupAcks : UInt8 := 0x3c
abbrev tcpDupAcksOff : UInt8 := 2
abbrev tcpConnectDone : UInt8 := 0x40
abbrev tcpAckSent : UInt8 := 0x80
abbrev tcplibTimewaitLen : Int := 1
abbrev tcplib2msl : Int := 4

/-- `struct tcplib_sock` without its endpoints. `txBuf` is the `circ_buf` in `tx_buf` (`none`: there
is none, and using it is undefined). -/
structure Sock where
  flags : UInt8
  state : TcpState
  txBuf : Option CircBuf
  txBufLen : Nat
  mss : UInt16
  myWind : UInt16
  rWind : UInt16
  cwnd : UInt16
  ssthresh : UInt16
  seqno : UInt32
  ackno : UInt32
  retx : Int

/-- What a call sends and signals. -/
inductive Output
  | segment (flags : UInt8) (seqno ackno : UInt32) (data : List UInt8)
  | rst (seqno ackno : UInt32)
  | recv (data : List UInt8)
  | acked
  | connectDone
  | closed
  | closeDone
deriving DecidableEq, Repr

/-- The state within a call. -/
structure Proc where
  sock : Sock
  outs : List Output
  rc : Int

namespace Proc

def put (p : Proc) (o : Output) : Proc := { p with outs := p.outs ++ [o] }

def setFlags (p : Proc) (flags : UInt8) : Proc := { p with sock := { p.sock with flags := flags } }

def setState (p : Proc) (state : TcpState) : Proc :=
  { p with sock := { p.sock with state := state } }

def setRetx (p : Proc) (retx : Int) : Proc := { p with sock := { p.sock with retx := retx } }

variable (mem : List Output → Bool)

/-- `__tcplib_send`. -/
def send (p : Proc) (o : Output) : Proc :=
  (p.setFlags (p.sock.flags &&& ~~~tcpAckPending)).put o

/-- `tcplib_send_ack`. -/
def sendAck (p : Proc) (finSeqno : Bool) (flags : UInt8) : Proc :=
  if mem p.outs then
    p.send (.segment flags p.sock.seqno (p.sock.ackno + if finSeqno then 1 else 0) [])
  else p

/-- `tcplib_send_rst`. -/
def sendRst (p : Proc) (seg : Segment) : Proc :=
  if mem p.outs then p.put (.rst seg.hdr.ackno (seg.hdr.seqno + 1)) else p

/-- The loop of `tcplib_output`, where the next segment has at most `limit` bytes. `none`: a read
leaves the buffer. -/
def outputLoop (buf : CircBuf) (seqno : UInt32) (mss : Nat) (p : Proc) (sseqno : UInt32)
    (limit : Nat) : Option Proc :=
  let segSize := min (seqno - sseqno).toNat limit
  if h : 0 < segSize ∧ sseqno < seqno then
    if mem p.outs then
      match buf.read sseqno segSize with
      | .error _ => none
      | .ok data =>
        outputLoop buf seqno mss (p.send (.segment tcpFlagAck sseqno p.sock.ackno data))
          (sseqno + .ofNat segSize) mss
    else some p
  else some p
termination_by (seqno - sseqno).toNat
decreasing_by
  have hpos : 0 < min (seqno - sseqno).toNat limit := h.1
  have hlt : sseqno.toNat < seqno.toNat := UInt32.lt_iff_toNat_lt.1 h.2
  have hle : min (seqno - sseqno).toNat limit ≤ (seqno - sseqno).toNat := Nat.min_le_left _ _
  have hnat := UInt32.toNat_ofNat_of_lt' (Nat.lt_of_le_of_lt hle (UInt32.toNat_lt_size _))
  have hseqno := seqno.toNat_lt
  have hsseqno := sseqno.toNat_lt
  rw [UInt32.toNat_sub, UInt32.toNat_add, hnat]
  generalize min (seqno - sseqno).toNat limit = n at *
  rw [UInt32.toNat_sub] at hle ⊢
  omega

/-- `tcplib_output`. -/
def output (buf : CircBuf) (p : Proc) (sseqno : UInt32) : Option Proc :=
  outputLoop mem buf p.sock.seqno p.sock.mss.toNat p sseqno
    (min p.sock.rWind.toNat p.sock.cwnd.toNat)

/-- `receive_data`. -/
def receiveData (p : Proc) (seg : Segment) : Proc :=
  let p := { p with sock := { p.sock with ackno := seg.hdr.seqno + .ofInt seg.payloadLen } }
  if 0 < seg.payloadLen then p.put (.recv seg.payload) else p

/-- `reset_ssthresh`. -/
def resetSsthresh (p : Proc) : Proc :=
  let new := min p.sock.cwnd p.sock.rWind / 2
  let new := if new.toNat < 2 * p.sock.mss.toNat then .ofNat (2 * p.sock.mss.toNat) else new
  { p with sock := { p.sock with ssthresh := new } }

/-- The growth of the congestion window. -/
def growCwnd (p : Proc) : Proc :=
  let s := p.sock
  let cwnd := if s.cwnd ≤ s.ssthresh then s.cwnd + s.mss
    else s.cwnd + .ofNat (s.mss.toNat * s.mss.toNat / s.cwnd.toNat)
  { p with sock := { s with cwnd := cwnd } }

/-- An acknowledgement of new data. -/
def newAck (p : Proc) (buf : CircBuf) (seg : Segment) : Option Proc :=
  match buf.shortenHead seg.hdr.ackno with
  | none => none
  | some buf =>
    let p := p.growCwnd
    let p := p.setFlags (p.sock.flags &&& ~~~tcpDupAcks)
    let p := { p with sock := { p.sock with txBuf := some buf } }
    some (if p.sock.seqno = seg.hdr.ackno then p.put .acked else p)

/-- A duplicate acknowledgement; the third starts a retransmission. -/
def dupAck (p : Proc) (buf : CircBuf) : Option Proc :=
  let p := p.setFlags (p.sock.flags + 1 <<< tcpDupAcksOff)
  if (p.sock.flags &&& tcpDupAcks) >>> tcpDupAcksOff = 2 then
    let p := (p.setFlags (p.sock.flags &&& ~~~tcpDupAcks)).resetSsthresh
    (p.output mem buf buf.headSeqno).map (·.setRetx 6)
  else some p

/-- The send side of a segment. -/
def ackPart (p : Proc) (seg : Segment) : Option Proc :=
  match p.sock.txBuf with
  | none => none
  | some buf =>
    if buf.headSeqno < seg.hdr.ackno then p.newAck buf seg
    else if buf.headSeqno < p.sock.seqno then p.dupAck mem buf
    else some p

/-- The receive side of a segment. -/
def dataPart (p : Proc) (seg : Segment) : Proc :=
  let s := p.sock
  if seg.hdr.seqno ≠ s.ackno then
    if s.ackno + s.myWind.toUInt32 < seg.hdr.seqno ∨
        seg.hdr.seqno < s.ackno - s.myWind.toUInt32 then p.sendRst mem seg
    else
      let p := p.sendAck mem false tcpFlagAck
      p.setFlags (p.sock.flags ||| tcpAckSent)
  else
    let p := p.receiveData seg
    if 0 < seg.payloadLen ∧ p.sock.flags &&& tcpAckSent ≠ 0 then
      (p.setFlags (p.sock.flags &&& ~~~tcpAckSent)).sendAck mem false tcpFlagAck
    else p

/-- `case TCP_TIME_WAIT`. -/
def timeWaitPart (p : Proc) (seg : Segment) : Proc :=
  if 0 < seg.payloadLen ∧ 1 ≤ p.sock.flags &&& tcpAckPending ∨ seg.has tcpFlagFin then
    let p := p.sendAck mem (seg.payloadLen == 0 && seg.has tcpFlagFin) tcpFlagAck
    if p.sock.state = .established ∧ seg.has tcpFlagFin ∧ seg.hdr.seqno = p.sock.ackno then
      (p.setState .closeWait).put .closed
    else p
  else p

/-- The data of a segment, in the states that take it. -/
def transfer (p : Proc) (seg : Segment) : Option Proc :=
  if p.sock.state = .established ∨ p.sock.state = .finWait1 then
    let p := if 0 < seg.payloadLen then p.setFlags (p.sock.flags + 1) else p
    (p.ackPart mem seg).map fun p =>
      let p := p.dataPart mem seg
      if p.sock.retx = 0 then p.setRetx 6 else p
  else some p

/-- From the label `ESTABLISHED` on. -/
def establishedPart (p : Proc) (seg : Segment) (connectDone : Bool) : Option Proc :=
  (p.transfer mem seg).map fun p =>
    let p := if connectDone ∧ p.sock.flags &&& tcpConnectDone = 0 then
        (p.setFlags (p.sock.flags ||| tcpConnectDone)).put .connectDone
      else p
    p.timeWaitPart mem seg

/-- `case TCP_FIN_WAIT_1`. -/
def finWait1Part (p : Proc) (seg : Segment) : Option Proc :=
  let p := if seg.has tcpFlagAck ∧ seg.hdr.ackno = p.sock.seqno + 1 then
      if seg.has tcpFlagFin then
        let p := { p with sock := { p.sock with seqno := p.sock.seqno + 1 } }
        (p.setState .timeWait).setRetx tcplibTimewaitLen
      else (p.setState .finWait2).setRetx tcplib2msl
    else p
  p.establishedPart mem seg false

/-- `case TCP_FIN_WAIT_2`. -/
def finWait2Part (p : Proc) (seg : Segment) : Proc :=
  if seg.has tcpFlagFin then
    let p := { p with sock := { p.sock with seqno := p.sock.seqno + 1 } }
    ((p.setState .timeWait).setRetx tcplibTimewaitLen).sendAck mem false tcpFlagAck
  else p

/-- The initial sequence number. -/
abbrev iss : UInt32 := 0xcafebabe

/-- A connection is answered. -/
def synReceived (p : Proc) : Proc :=
  let p := { p with sock := { p.sock with seqno := iss + 1 } }
  let p := (p.setState .synRcvd).sendAck mem false (tcpFlagAck ||| tcpFlagSyn)
  { p with sock := { p.sock with seqno := p.sock.seqno + 1 } }

/-- `case TCP_SYN_RCVD` and `case TCP_LISTEN`. `accept` is the buffer that `tcplib_accept` gives the
socket (`none`: it refuses); the socket it returns is the one that listens. A `struct circ_buf`
takes `hdrSize` bytes of the buffer. -/
def listenPart (hdrSize : Nat) (accept : Option (List UInt8)) (p : Proc) (seg : Segment) :
    Option Proc :=
  let rest (p : Proc) : Option Proc :=
    let p := if seg.has tcpFlagAck then p.setState .established else p
    p.establishedPart mem seg false
  if seg.has tcpFlagSyn then
    if p.sock.state = .listen then
      match accept with
      | none => some (p.sendRst mem seg)
      | some buf =>
        let sock := { p.sock with
          txBufLen := buf.length
          ackno := seg.hdr.seqno + 1
          txBuf := CircBuf.init hdrSize buf (iss + 1) }
        rest (synReceived mem { p with sock := sock })
    else rest (synReceived mem p)
  else if p.sock.state = .listen then some (p.sendRst mem seg)
  else rest p

end Proc

open Proc in
/-- `tcplib_process`. -/
def process (mem : List Output → Bool) (hdrSize : Nat) (accept : Option (List UInt8)) (s : Sock)
    (seg : Segment) : Option Proc :=
  let p : Proc := ⟨{ s with rWind := seg.hdr.window }, [], 0⟩
  if seg.has tcpFlagRst then some ⟨s, [.closeDone], 0⟩
  else
    match s.state with
    | .lastAck =>
      if seg.has tcpFlagAck ∧ seg.hdr.ackno = s.seqno + 1 then
        some ((p.setState .closed).put .closeDone)
      else p.finWait1Part mem seg
    | .finWait1 => p.finWait1Part mem seg
    | .finWait2 => some (p.finWait2Part mem seg)
    | .synSent =>
      if seg.has (tcpFlagSyn ||| tcpFlagAck) then
        let sock := { p.sock with state := .established, ackno := seg.hdr.seqno + 1 }
        establishedPart mem { p with sock := sock } seg true
      else some (p.sendRst mem seg)
    | .synRcvd | .listen => listenPart mem hdrSize accept p seg
    | .closeWait | .established => p.establishedPart mem seg false
    | .timeWait => some (p.timeWaitPart mem seg)
    | .closed | .closing => some { p with rc := -1 }

/-- `tcplib_send`: what it returns and the socket. -/
def tcplibSend (s : Sock) (data : List UInt8) : Option (Int × Sock) :=
  if s.state ≠ .established then some (-1, s)
  else
    match s.txBuf with
    | none => none
    | some buf =>
      if .ofNat s.txBufLen < s.seqno - buf.headSeqno + .ofNat data.length then some (-1, s)
      else
        match buf.write s.seqno data with
        | .error .rejected => some (-1, s)
        | .error .outOfBounds => none
        | .ok buf =>
          some (0, { s with
            txBuf := some buf
            seqno := s.seqno + .ofNat data.length
            retx := 1 })

/-! ## Sessions -/

/-- The data that a call hands to the application. -/
def recvdOf (outs : List Output) : List UInt8 :=
  outs.flatMap fun
    | .recv data => data
    | _ => []

/-- A socket, what it has received and what it has accepted to send so far, and how many bytes of
that are acknowledged. -/
structure Session where
  sock : Sock
  recvd : List UInt8
  sent : List UInt8
  acked : Nat

/-- A segment arrives, or data is sent. -/
inductive Event
  | segment (mem : List Output → Bool) (accept : Option (List UInt8)) (seg : Segment)
  | send (data : List UInt8)

namespace Session

/-- The sequence number of the first byte sent. -/
def isn (s : Session) : UInt32 := s.sock.seqno - .ofNat s.sent.length

/-- An acknowledgement of bytes that were sent. -/
def ackedBy (s : Session) (ackno : UInt32) : Nat :=
  let k := (ackno - (s.isn + .ofNat s.acked)).toNat
  if k ≤ s.sent.length - s.acked then s.acked + k else s.acked

def step (hdrSize : Nat) (s : Session) : Event → Option Session
  | .segment mem accept seg =>
    (process mem hdrSize accept s.sock seg).map fun p =>
      { s with
        sock := p.sock
        recvd := s.recvd ++ recvdOf p.outs
        acked := s.ackedBy seg.hdr.ackno }
  | .send data =>
    (tcplibSend s.sock data).map fun (rc, sock) =>
      { s with
        sock := sock
        sent := if rc = 0 then s.sent ++ data else s.sent }

end Session

end Tcp

/-! ## Opening, closing and the timer

The calls of the application and `tcplib_timer_process` on one socket. Its retransmission counter
stands beside it: `tcplib_process` does not use it. -/

namespace Tcp

/-- `TCPLIB_GIVEUP`. -/
abbrev tcplibGiveup : UInt16 := 6

/-- `tcplib_connect`, where `txMem` is the memory at `tx_buf` (`none`: there is none). -/
def tcplibConnect (mem : List Output → Bool) (hdrSize : Nat) (txMem : Option (List UInt8))
    (s : Sock) : Proc :=
  match txMem with
  | none => ⟨s, [], -1⟩
  | some txMem =>
    if s.state = .closed ∨ s.state = .listen then
      let sock := { s with
        txBufLen := txMem.length
        txBuf := CircBuf.init hdrSize txMem (Proc.iss + 1)
        ackno := 0
        seqno := Proc.iss }
      let p := (Proc.sendAck mem ⟨sock, [], 0⟩ false tcpFlagSyn).setState .synSent
      { p with sock := { p.sock with seqno := p.sock.seqno + 1, retx := 6 } }
    else ⟨s, [], -1⟩

/-- `tcplib_close`. -/
def tcplibClose (mem : List Output → Bool) (s : Sock) : Proc :=
  let p : Proc := ⟨s, [], 0⟩
  match s.state with
  | .closeWait =>
    ((p.sendAck mem true (tcpFlagAck ||| tcpFlagFin)).setRetx 6).setState .lastAck
  | .established =>
    ((p.sendAck mem false (tcpFlagAck ||| tcpFlagFin)).setRetx tcplib2msl).setState .finWait1
  | .synSent => p.setState .closed
  | _ => { p with rc := -1 }

/-- `tcplib_abort`. -/
def tcplibAbort (mem : List Output → Bool) (s : Sock) : Proc :=
  let p : Proc := ⟨s, [], 0⟩
  if s.state = .closed ∨ s.state = .listen then p
  else (p.sendAck mem false tcpFlagRst).setState .closed

namespace Proc

variable (mem : List Output → Bool)

/-- The switch of `tcplib_retx_expire`, with the counter. -/
def retxSwitch (p : Proc) (retxcnt : UInt16) : Option (Proc × UInt16) :=
  match p.sock.state with
  | .established =>
    match p.sock.txBuf with
    | none => none
    | some buf =>
      if buf.headSeqno ≠ p.sock.seqno then
        let p := p.resetSsthresh
        let p := { p with sock := { p.sock with cwnd := p.sock.mss } }
        (p.output mem buf buf.headSeqno).map fun p => (p.setRetx 6, retxcnt)
      else some (p, retxcnt - 1)
  | .synSent => some ((p.sendAck mem false tcpFlagSyn).setRetx 6, retxcnt)
  | .lastAck | .finWait1 =>
    some ((p.sendAck mem true (tcpFlagAck ||| tcpFlagFin)).setRetx tcplib2msl, retxcnt)
  | .finWait2 | .timeWait => some ((p.setState .closed).put .closeDone, retxcnt)
  | _ => some (p, retxcnt)

/-- `tcplib_retx_expire`. -/
def retxExpire (p : Proc) (retxcnt : UInt16) : Option (Proc × UInt16) :=
  (p.retxSwitch mem (retxcnt + 1)).map fun (p, retxcnt) =>
    if tcplibGiveup < retxcnt then ((p.setState .timeWait).setRetx tcplibTimewaitLen, retxcnt)
    else (p, retxcnt)

/-- `tcplib_timer_process` for one socket. -/
def timerProcess (p : Proc) (retxcnt : UInt16) : Option (Proc × UInt16) :=
  let expired :=
    if 0 < p.sock.retx then
      let p := p.setRetx (p.sock.retx - 1)
      if p.sock.retx = 0 then p.retxExpire mem retxcnt else some (p, retxcnt)
    else some (p, retxcnt)
  expired.map fun (p, retxcnt) =>
    if 2 ≤ p.sock.flags &&& tcpAckPending then (p.sendAck mem false tcpFlagAck, retxcnt)
    else (p, retxcnt)

end Proc

end Tcp
