import Backip.Lib.Machine
import Backip.Lowpan.Frag
import Backip.Lowpan.IpMalloc
import Mathlib

/-!
# The receive side of `IPDispatchP` (`tos/lib/net/blip/IPDispatchP.nc`)

A frame with a fragmentation header belongs to one of `nReconstructions` entries, another one is
unpacked at once. The buffers are blocks of `ip_malloc`, in the memory that its heap lies in; an
entry has a pointer to its block (`none`: `NULL`). `lowpan_recon_start` and `lowpan_recon_add` are
here what they do to that memory.

An access outside a frame or a buffer, or a loop that does not end, is `outOfBounds`: what C does
then is not defined, and `fault` says that it happened.
-/

set_option autoImplicit false

namespace Blip

open IpMalloc (Mem ipMalloc ipFree ipMallocInit)
open Lowpan (Contexts FrameAddr Ieee154Addr Ip6Metadata Timeout)

abbrev nReconstructions : Nat := 3

/-- `struct lowpan_reconstruct`. -/
structure Recon where
  tag : UInt16
  sourceKey : UInt16
  size : UInt16
  buf : Option Nat
  bytesRcvd : UInt16
  timeout : Timeout
  metadata : Ip6Metadata
deriving DecidableEq, Repr

/-- Calls, each with the memory it is made in: `ip_free` of the buffer of an entry while the others
have the buffers `others`, `lowpan_recon_add` and `deliver` of an entry with the buffer `buf`. -/
inductive Call
  | free (mem : Mem) (p : Nat) (others : List Nat)
  | add (mem : Mem) (buf : Option Nat)
  | deliver (mem : Mem) (buf : Option Nat)

/-- `delivered` are the packets that `IPLower.recv` was signalled for, the last one first. -/
structure Reassembly where
  mem : Mem
  reconData : Fin nReconstructions → Recon
  calls : List Call
  delivered : List (List UInt8)
  fault : Bool

/-! ## Memory -/

def readBytes (m : Mem) (p n : Nat) : List UInt8 := (List.range n).map fun i => m (p + i)

def writeBytes (m : Mem) (p : Nat) (xs : List UInt8) : Mem := fun i =>
  if p ≤ i ∧ i < p + xs.length then xs.getD (i - p) 0 else m i

/-- The result of a loop over the heap. -/
def ended {α : Type} : Option α → Except Stop α
  | some a => .ok a
  | none => .error .outOfBounds

/-! ## `lib6lowpan_frag.c` -/

/-- What `lowpan_recon_start` does after `ip_malloc` found the block at `p`. `others` are the buffers
of the other entries. -/
def reconUnpackAt (c : Contexts) (mem : Mem) (p : Nat) (others : List Nat) (frame : FrameAddr)
    (recon : Recon) (headers : Lowpan.Headers) (pkt : List UInt8) :
    Except Stop (Int × Mem × Recon × List Call) :=
  match Lowpan.reconUnpack c frame (List.replicate recon.size.toNat 0) (pkt.drop headers.len) with
  | .error .outOfBounds => .error .outOfBounds
  | .error .rejected => do
    -- the entry keeps its pointer to the block
    let mem' ← ended (ipFree mem p)
    .ok (-3, mem', recon, [.free mem p others])
  | .ok u => do
    let size := if headers.frag1 then recon.size else .ofNat u.stop
    let rbuf ← Lowpan.reconFill size u
    .ok (0, writeBytes mem p rbuf, { recon with size := size, bytesRcvd := .ofNat u.stop }, [])

/-- `lowpan_recon_start`: its result, the memory, `recon` and the calls it makes. -/
def lowpanReconStart (c : Contexts) (mem : Mem) (others : List Nat) (frame : FrameAddr)
    (recon : Recon) (pkt : List UInt8) : Except Stop (Int × Mem × Recon × List Call) :=
  match Lowpan.getHeaderBitmap pkt with
  | none => .ok (-1, mem, recon, [])
  | some headers => do
    let recon ← if headers.frag1 then do
        let tag ← Lowpan.getFragDgramTag pkt
        let size ← Lowpan.getFragDgramSize pkt
        Except.ok { recon with tag := tag, size := size }
      else
        Except.ok { recon with size := .ofNat (Lowpan.lib6lowpanMaxLen + Lowpan.lowpanLinkMtu) }
    let (mem, buf) ← ended (ipMalloc mem recon.size)
    let recon := { recon with buf := buf }
    match buf with
    | none => .ok (-2, mem, recon, [])
    | some p => reconUnpackAt c mem p others frame recon headers pkt

/-- `lowpan_recon_add`: its result, the memory and `recon`. The copy to `NULL` is in bounds where it
is empty. -/
def lowpanReconAdd (mem : Mem) (recon : Recon) (pkt : List UInt8) :
    Except Stop (Int × Mem × Recon) :=
  match Lowpan.getHeaderBitmap pkt with
  | none => .ok (-1, mem, recon)
  | some headers =>
    if !headers.fragN then .ok (-2, mem, recon)
    else
      let len := Lowpan.sizeSub pkt.length headers.len
      if recon.size.toNat < (recon.bytesRcvd.toNat + len) % 2 ^ 16 then .ok (-3, mem, recon)
      else do
        let (payload, _) ← Buffer.take len (pkt.drop headers.len)
        let recon' := { recon with bytesRcvd := recon.bytesRcvd + .ofNat len }
        match recon.buf with
        | some p =>
          let rbuf ← Buffer.write (readBytes mem p recon.size.toNat) recon.bytesRcvd.toNat payload
          .ok (0, writeBytes mem p rbuf, recon')
        | none => if payload = [] then .ok (0, mem, recon') else .error .outOfBounds

/-! ## `IPDispatchP` -/

namespace Reassembly

/-- `ieee154_hashaddr`. -/
def hashAddr (a : Ieee154Addr) : UInt16 :=
  let word (i : Fin 8) (j : Fin 8) : UInt16 := ntohs (a.data.get j) (a.data.get i)
  match a.mode with
  | .short => word 0 1
  | .ext => word 0 1 + word 2 3 + word 4 5 + word 6 7
  | _ => 0

/-- `reconstruct_clear`. -/
def clear (recon : Recon) : Recon :=
  { recon with metadata := ⟨⟨.none, Vector.replicate 8 0⟩, 0, 0⟩, timeout := .unused, buf := none }

/-- The buffers of the entries other than `i` (`none`: the entry is none of `recon_data`). -/
def others (s : Reassembly) (i : Option (Fin nReconstructions)) : List Nat :=
  ((List.finRange nReconstructions).filter fun j => some j ≠ i).filterMap fun j =>
    (s.reconData j).buf

/-- Entry `i` is `recon` from here on. -/
def set (s : Reassembly) (i : Fin nReconstructions) (recon : Recon) : Reassembly :=
  { s with reconData := fun j => if j = i then recon else s.reconData j }

/-- `deliver`: the packet, the memory, `recon` and the calls it makes. The payload length field is
put back; what it is written to is the buffer of a reassembly, which has one. -/
def deliver (mem : Mem) (others : List Nat) (recon : Recon) :
    Except Stop (List UInt8 × Mem × Recon × List Call) :=
  match recon.buf with
  | none => .error .outOfBounds
  | some p => do
    let plen := (recon.bytesRcvd - .ofNat Lowpan.ip6HdrSize).netBytes
    let mem := writeBytes mem (p + 4) plen
    let packet := readBytes mem p recon.bytesRcvd.toNat
    let mem' ← ended (ipFree mem p)
    .ok (packet, mem', { recon with timeout := .unused, buf := none }, [.free mem p others])

/-- `reconstruct_age` of entry `i`. -/
def reconstructAge (s : Reassembly) (i : Fin nReconstructions) : Except Stop Reassembly :=
  let recon := s.reconData i
  match recon.timeout with
  | .active => .ok (s.set i { recon with timeout := .zombie })
  | .failed1 => .ok (s.set i { recon with timeout := .failed2 })
  | .unused => .ok s
  | .zombie | .failed2 =>
    let recon' := { recon with timeout := .unused, buf := none }
    match recon.buf with
    | none => .ok (s.set i recon')
    | some p => do
      let mem' ← ended (ipFree s.mem p)
      .ok { s.set i recon' with
        mem := mem'
        calls := .free s.mem p (s.others (some i)) :: s.calls }

/-- `ExpireTimer.fired`. -/
def expire (s : Reassembly) : Except Stop Reassembly :=
  (List.finRange nReconstructions).foldlM reconstructAge s

/-- The loop of `get_reconstruct` over the entries `is`; `ret` is the unused one found last. -/
def getLoop (data : Fin nReconstructions → Recon) (key tag : UInt16) :
    List (Fin nReconstructions) → Option (Fin nReconstructions) →
      Option (Fin nReconstructions)
  | [], ret => ret
  | i :: is, ret =>
    let recon := data i
    if recon.tag = tag ∧ recon.sourceKey = key ∧ (recon.timeout = .active ∨
        recon.timeout = .zombie) then some i
    else if recon.tag = tag ∧ recon.sourceKey = key ∧ (recon.timeout = .failed1 ∨
        recon.timeout = .failed2) then none
    else getLoop data key tag is (if recon.timeout = .unused then some i else ret)

/-- `get_reconstruct`: the entry. One that is in use is marked active. -/
def getReconstruct (s : Reassembly) (key tag : UInt16) :
    Option (Fin nReconstructions) × Reassembly :=
  match getLoop s.reconData key tag (List.finRange nReconstructions) none with
  | none => (none, s)
  | some i =>
    let recon := s.reconData i
    (some i, if recon.timeout = .unused then s else s.set i { recon with timeout := .active })

/-- Entry `i` is `recon`: it is delivered if it is complete. -/
def complete (s : Reassembly) (i : Fin nReconstructions) (recon : Recon) :
    Except Stop Reassembly :=
  if recon.size = recon.bytesRcvd then do
    let (packet, mem, recon', calls) ← deliver s.mem (s.others (some i)) recon
    .ok { s.set i recon' with
      mem := mem
      calls := calls ++ .deliver s.mem recon.buf :: s.calls
      delivered := packet :: s.delivered }
  else .ok (s.set i recon)

/-- The fragment of entry `i` in `Ieee154Receive.receive`, from the metadata on. -/
def receiveFragment (c : Contexts) (s : Reassembly) (i : Fin nReconstructions) (frame : FrameAddr)
    (headers : Lowpan.Headers) (key tag : UInt16) (buf : List UInt8) (lqi rssi : UInt8) :
    Except Stop Reassembly :=
  let recon := { s.reconData i with metadata := ⟨frame.src, lqi, rssi⟩ }
  if headers.frag1 && recon.buf.isSome then .ok (s.set i recon)
  else do
    let (rv, mem, recon, calls) ←
      if headers.frag1 then lowpanReconStart c s.mem (s.others (some i)) frame recon buf
      else do
        let (rv, mem, recon') ← lowpanReconAdd s.mem recon buf
        .ok (rv, mem, recon', [Call.add s.mem recon.buf])
    let s := { s with mem := mem, calls := calls ++ s.calls }
    if rv < 0 then .ok (s.set i { recon with timeout := .failed1 })
    else s.complete i { recon with timeout := .active, sourceKey := key, tag := tag }

/-- The frame without a fragmentation header in `Ieee154Receive.receive`: `recon` is a variable of
the function. -/
def receiveWhole (c : Contexts) (s : Reassembly) (frame : FrameAddr) (recon : Recon)
    (buf : List UInt8) (lqi rssi : UInt8) : Except Stop Reassembly := do
  let recon := { recon with metadata := ⟨frame.src, lqi, rssi⟩ }
  let others := s.others none
  let (rv, mem, recon, calls) ← lowpanReconStart c s.mem others frame recon buf
  let s := { s with mem := mem, calls := calls ++ s.calls }
  if rv < 0 then .ok s
  else if recon.size = recon.bytesRcvd then do
    let (packet, mem', _, calls) ← deliver mem others recon
    .ok { s with
      mem := mem'
      calls := calls ++ .deliver mem recon.buf :: s.calls
      delivered := packet :: s.delivered }
  else
    match recon.buf with
    | none => .ok s
    | some p => do
      let mem' ← ended (ipFree mem p)
      .ok { s with mem := mem', calls := .free mem p others :: s.calls }

/-- `Ieee154Receive.receive` of the frame `payload`. The variables `frame_address` and `recon` of
the function have some contents before (`frame0`, `recon0`). -/
def receive (c : Contexts) (s : Reassembly) (payload : List UInt8) (lqi rssi : UInt8)
    (frame0 : FrameAddr) (recon0 : Recon) : Except Stop Reassembly := do
  let (frame, buf) ← Lowpan.unpackIeee154Hdr payload frame0
  match Lowpan.getHeaderBitmap buf with
  | none => .ok s
  | some headers =>
    if headers.frag1 || headers.fragN then do
      let key := hashAddr frame.src
      let tag ← Lowpan.getFragDgramTag buf
      match s.getReconstruct key tag with
      | (none, s) => .ok s
      | (some i, s) => receiveFragment c s i frame headers key tag buf lqi rssi
    else
      receiveWhole c s frame recon0 (buf.drop headers.len) lqi rssi

/-! ## Runs -/

inductive Event
  | receive (payload : List UInt8) (lqi rssi : UInt8) (frame0 : FrameAddr) (recon0 : Recon)
  | expire

/-- After a fault nothing more is said. The length of a frame is kept in 8 bits. -/
def step (c : Contexts) (s : Reassembly) (e : Event) : Option Reassembly :=
  if s.fault then none
  else
    let result? : Option (Except Stop Reassembly) :=
      match e with
      | .receive payload lqi rssi frame0 recon0 =>
        if payload.length < 2 ^ 8 then some (s.receive c payload lqi rssi frame0 recon0) else none
      | .expire => some s.expire
    result?.map fun
      | .ok s' => s'
      | .error _ => { s with fault := true }

/-- `Init.init` and `Boot.booted`, whatever the memory and the entries hold. -/
def boot (mem : Mem) (data : Fin nReconstructions → Recon) : Reassembly where
  mem := ipMallocInit mem
  reconData i := clear (data i)
  calls := []
  delivered := []
  fault := false

/-- A variable of zeros. -/
def zeroed : Recon := ⟨0, 0, 0, none, 0, .unused, ⟨⟨.none, Vector.replicate 8 0⟩, 0, 0⟩⟩

def machine (c : Contexts) : Machine Reassembly Event where
  init s := ∃ mem data, s = boot mem data
  step := step c

end Reassembly

end Blip
