import Backip.Lib.Machine
import Backip.System.Types

/-!
# Logs on a flash chip (`tos/chips/stm25p/Stm25pLogP.nc`)

Each client of type `ι` has a volume of the chip for its log: records in blocks of 4096 bytes. A
block starts with its address in the log, a record with its length. The component keeps a request
and the ends of the log for each client, and works on one client at a time, the one that holds
`ClientResource`; the rest of its variables (`Vars`) are there once.

A chip (`Chip`) is any device on which the operations of `Stm25pSector` give their results; the
bytes of a write are the ones there are when it is issued.
-/

set_option autoImplicit false

namespace Stm25pLogP

/-- `STM25P_INVALID_ADDRESS` -/
def invalidAddress : UInt32 := 0xffffffff

/-- `STM25P_SECTOR_SIZE_LOG2` -/
def sectorSizeLog2 : UInt32 := 16

/-- `STM25P_SECTOR_SIZE` -/
def sectorSize : UInt32 := 65536

/-- `STM25P_SECTOR_MASK` -/
def sectorMask : UInt32 := 0xffff

/-- `BLOCK_SIZE` -/
def blockSize : UInt32 := 4096

/-- `BLOCK_SIZE_LOG2` -/
def blockSizeLog2 : UInt32 := 12

/-- `BLOCK_MASK` -/
def blockMask : UInt32 := 4095

/-- `BLOCKS_PER_SECTOR` -/
def blocksPerSector : Nat := 16

/-- `MAX_RECORD_SIZE` -/
def maxRecordSize : UInt32 := 254

/-- `INVALID_HEADER` -/
def invalidHeader : UInt8 := 0xff

/-- `sizeof(m_addr)` -/
def addrSize : UInt8 := 4

/-- `sizeof(m_header)` -/
def headerSize : UInt8 := 1

/-- `stm25p_log_req_t` -/
inductive Req
  | idle
  | read
  | seek
  | erase
  | append
  | sync
deriving DecidableEq, Repr

/-- `stm25p_log_rw_state_t` -/
inductive RwState
  | searchBlocks
  | searchRecords
  | searchSeek
  | header
  | data
deriving DecidableEq, Repr

/-- `stm25p_log_state_t`; `buf` are the bytes in the buffer of an append. -/
structure LogState where
  cookie : UInt32 := 0
  buf : List UInt8 := []
  len : UInt8 := 0
  req : Req := .idle
deriving DecidableEq, Repr

/-- `stm25p_log_info_t`, as `Init.init` leaves it -/
structure LogInfo where
  readAddr : UInt32 := invalidAddress
  remaining : UInt32 := 0
  writeAddr : UInt32 := 0
deriving DecidableEq, Repr

/-- Where the bytes of a read go: `m_addr`, `m_header` or the client's buffer. -/
inductive Target
  | addr
  | header
  | buf (offset : Int)
deriving DecidableEq, Repr

/-- An operation of `Sector` that is not done. -/
inductive Op
  | read (addr : UInt32) (target : Target) (len : UInt8)
  | write (addr : UInt32) (bytes : List UInt8) (len : UInt8)
  | erase (sector numSectors : UInt8)
deriving DecidableEq, Repr

/-- What a client is told. -/
inductive Done
  | readDone (got : List (Int × List UInt8)) (len : UInt32) (error : TinyError)
  | seekDone (error : TinyError)
  | eraseDone (error : TinyError)
  | appendDone (buf : List UInt8) (len : UInt8) (recordsLost : Bool) (error : TinyError)
  | syncDone (error : TinyError)
deriving DecidableEq, Repr

/-- The commands of `LogRead` and `LogWrite`. -/
inductive Request
  | read (len : UInt32)
  | seek (cookie : UInt32)
  | erase
  | append (buf : List UInt8) (len : UInt32)
  | sync
deriving DecidableEq, Repr

/-- A client's part of `ClientResource`. -/
inductive Resource
  | idle
  | requested
  | granted
deriving DecidableEq, Repr

/-- A client's volume: its sectors, whether its log is circular, and what the operations do to the
volume's state and return. -/
structure Chip (φ : Type) where
  numSectors : UInt8
  circular : Bool
  read : φ → UInt32 → UInt8 → φ × List UInt8 × TinyError
  write : φ → UInt32 → List UInt8 → φ × TinyError
  erase : φ → UInt8 → UInt8 → φ × TinyError

/-- The variables that are there for each client. `got` is what was read into the client's buffer,
with its place in it. `seen` is what the client was told, the last first, with its read and write
offsets then, `issued` the requests that were accepted, and `lastHeader` the last header that was read
for the client. -/
structure Client (φ : Type) where
  state : LogState := {}
  info : LogInfo := {}
  resource : Resource := .idle
  op : Option Op := none
  flash : φ
  got : List (Int × List UInt8) := []
  seen : List (Done × UInt32 × UInt32) := []
  issued : List Request := []
  lastHeader : UInt8 := 0
deriving DecidableEq, Repr

/-- The variables that are there once. -/
structure Vars where
  req : LogState := {}
  addr : UInt32 := 0
  recordsLost : Bool := false
  header : UInt8 := 0
  len : UInt8 := 0
  rwState : RwState := .searchBlocks
deriving DecidableEq, Repr

/-- What a function of the component works on, for a client. -/
structure Log (φ : Type) where
  vars : Vars := {}
  client : Client φ
deriving DecidableEq, Repr

namespace Log

variable {φ : Type} (chip : Chip φ)

/-! ## Requests -/

/-- `newRequest` -/
def newRequest (l : Log φ) : TinyError × Log φ :=
  if l.client.state.req ≠ .idle then (.fail, l)
  else
    (.success, { l with client := { l.client with
      resource := .requested
      state := l.vars.req
      got := [] } })

/-- The space that is left in the block: `bytes_left` of `Write.append` -/
def bytesLeft (l : Log φ) : UInt32 := blockSize - (l.client.info.writeAddr &&& blockMask)

/-- An append that does not fit into the block goes to the next one. -/
def moveOn (l : Log φ) (len : UInt32) : Log φ :=
  if headerSize.toUInt32 + len > l.bytesLeft then
    { l with client := { l.client with
      info := { l.client.info with writeAddr := l.client.info.writeAddr + l.bytesLeft } } }
  else l

/-- The log is not circular and its volume is full. -/
def isFull (l : Log φ) : Bool :=
  !chip.circular && (l.client.info.writeAddr >>> sectorSizeLog2).toUInt8 ≥ chip.numSectors

/-- The commands. -/
def request (r : Request) (l : Log φ) : TinyError × Log φ :=
  match r with
  | .read len =>
    newRequest { l with vars := { l.vars with
      req := { l.vars.req with req := .read, buf := [], len := len.toUInt8 }
      len := len.toUInt8 } }
  | .seek cookie =>
    if cookie > l.client.info.writeAddr then (.fail, l)
    else newRequest { l with vars := { l.vars with req := { l.vars.req with req := .seek, cookie } } }
  | .erase =>
    newRequest { l with vars := { l.vars with req := { l.vars.req with req := .erase } } }
  | .append buf len =>
    -- don't allow appends larger than maximum record size
    if len > maxRecordSize then (.einval, l)
    else
      let l := l.moveOn len
      -- if log is not circular, make sure it doesn't grow too large
      if l.isFull chip then (.esize, l)
      else
        newRequest { l with vars := { l.vars with
          recordsLost := false
          req := { l.vars.req with req := .append, buf, len := len.toUInt8 } } }
  | .sync =>
    newRequest { l with vars := { l.vars with req := { l.vars.req with req := .sync } } }

/-- `calcSector` -/
def calcSector (addr : UInt32) : UInt8 :=
  ((addr >>> sectorSizeLog2) % chip.numSectors.toUInt32).toUInt8

/-- `calcAddr` -/
def calcAddr (addr : UInt32) : UInt32 :=
  (calcSector chip addr).toUInt32 <<< sectorSizeLog2 ||| addr &&& sectorMask

/-! ## Serving a request -/

def issue (op : Op) (l : Log φ) : Log φ := { l with client := { l.client with op := some op } }

def setInfo (info : LogInfo) (l : Log φ) : Log φ := { l with client := { l.client with info } }

def setRwState (rwState : RwState) (l : Log φ) : Log φ :=
  { l with vars := { l.vars with rwState } }

/-- `signalDone` -/
def signalDone (error : TinyError) (l : Log φ) : Log φ :=
  let c := l.client
  let c' := { c with resource := .idle, state := { c.state with req := .idle } }
  let tell (d : Done) : Log φ :=
    { l with client := { c' with seen := (d, c.info.readAddr, c.info.writeAddr) :: c.seen } }
  match c.state.req with
  | .idle => { l with client := c' }
  | .read => tell (.readDone c.got (c.state.len.toUInt32 - l.vars.len.toUInt32) error)
  | .seek => tell (.seekDone error)
  | .erase => tell (.eraseDone error)
  | .append => tell (.appendDone c.state.buf c.state.len l.vars.recordsLost error)
  | .sync => tell (.syncDone error)

/-- The block after an address. -/
def nextBlock (addr : UInt32) : UInt32 := (addr + blockSize) &&& ~~~blockMask

/-- The read of `continueReadOp` at an address, after the block's own address at its start. -/
def readAt (addr : UInt32) (target : Target) (len : UInt8) (l : Log φ) : Log φ :=
  let addr := if addr &&& blockMask = 0 then addr + addrSize.toUInt32 else addr
  (l.setInfo { l.client.info with readAddr := addr }).issue
    (.read (calcAddr chip addr) target len)

/-- `continueReadOp` -/
def continueReadOp (l : Log φ) : Log φ :=
  let info := l.client.info
  -- check if all done
  if l.vars.len = 0 ∨ info.readAddr ≥ info.writeAddr then l.signalDone .success
  else if l.vars.rwState = .data then
    -- if header is invalid, move to next block
    if l.vars.header = invalidHeader then
      (l.setRwState .header).readAt chip (nextBlock info.readAddr) .header headerSize
    else
      l.readAt chip info.readAddr (.buf (l.client.state.len.toNat - l.vars.len.toNat))
        -- truncate if record is shorter than requested length
        (if info.remaining < l.vars.len.toUInt32 then info.remaining.toUInt8 else l.vars.len)
  else l.readAt chip info.readAddr .header headerSize

/-- `continueAppendOp` -/
def continueAppendOp (l : Log φ) : Log φ :=
  let c := l.client
  if c.info.writeAddr &&& sectorMask = 0 then
    { l with vars := { l.vars with recordsLost := true } }.issue
      (.erase (calcSector chip c.info.writeAddr) 1)
  else if c.info.writeAddr &&& blockMask = 0 then
    l.issue (.write (calcAddr chip c.info.writeAddr) (addrBytes c.info.writeAddr) addrSize)
  else if l.vars.rwState = .header then
    l.issue (.write (calcAddr chip c.info.writeAddr) [c.state.len] headerSize)
  else
    l.issue (.write (calcAddr chip c.info.writeAddr) (c.state.buf.take c.state.len.toNat) c.state.len)
where
  /-- An address in memory, the low byte first. -/
  addrBytes (a : UInt32) : List UInt8 :=
    [a.toUInt8, (a >>> 8).toUInt8, (a >>> 16).toUInt8, (a >>> 24).toUInt8]

/-- The read of a header at an address. -/
def readHeader (addr : UInt32) (l : Log φ) : Log φ :=
  l.issue (.read (calcAddr chip addr) .header headerSize)

/-- The seek of `ClientResource.granted` -/
def seek (l : Log φ) : Log φ :=
  let c := l.client
  -- make sure the cookie is still within the range of valid data
  let readSector := (c.state.cookie >>> sectorSizeLog2).toUInt8
  let writeSector := ((c.info.writeAddr - 1) >>> sectorSizeLog2 + 1).toUInt8
  -- if cookie is overwritten, advance to beginning of log
  let cookie :=
    if (writeSector.toNat : Int) - readSector.toNat > chip.numSectors.toNat then
      (writeSector - chip.numSectors).toUInt32 <<< sectorSizeLog2
    else c.state.cookie
  let readAddr := cookie &&& ~~~blockMask
  let l := { l with
    vars := { l.vars with rwState := .searchSeek }
    client := { c with
      state := { c.state with cookie }
      info := { c.info with readAddr, remaining := 0 } } }
  if readAddr ≠ cookie then
    (l.setInfo { l.client.info with readAddr := readAddr + addrSize.toUInt32 }).readHeader chip
      (readAddr + addrSize.toUInt32)
  else l.signalDone .success

/-- `ClientResource.granted` -/
def granted (l : Log φ) : Log φ :=
  let c := l.client
  -- log never used, need to find start and end of log
  if c.info.readAddr = invalidAddress ∧ c.state.req ≠ .erase then
    (l.setRwState .searchBlocks).issue (.read 0 .addr addrSize)
  -- start and end of log known, do the requested operation
  else
    match c.state.req with
    | .read =>
      (l.setRwState (if c.info.remaining ≠ 0 then .data else .header)).continueReadOp chip
    | .seek => l.seek chip
    | .erase => l.issue (.erase 0 chip.numSectors)
    | .append => (l.setRwState .header).continueAppendOp chip
    | .sync => l.signalDone .success
    | .idle => l

/-- `Sector.readDone` while the blocks are searched -/
def searchedBlock (addr : UInt32) (l : Log φ) : Log φ :=
  let info := l.client.info
  let found := l.vars.addr
  -- record potential starting and ending addresses
  let info :=
    if found ≠ invalidAddress then
      { info with
        readAddr := if found < info.readAddr then found else info.readAddr
        writeAddr := if found > info.writeAddr then found else info.writeAddr }
    else info
  let block := (addr >>> blockSizeLog2).toUInt16 + 1
  -- move on to next log block
  if block.toNat < chip.numSectors.toNat * blocksPerSector then
    (l.setInfo info).issue (.read (addr + blockSize) .addr addrSize)
  -- if log is empty, continue operation
  else if info.readAddr = invalidAddress then
    (l.setInfo { info with readAddr := 0, writeAddr := 0 }).granted chip
  -- search for last record
  else
    let info := { info with writeAddr := info.writeAddr + addrSize.toUInt32 }
    ((l.setInfo info).setRwState .searchRecords).readHeader chip info.writeAddr

/-- `Sector.readDone` while the records of the last block are searched -/
def searchedRecord (l : Log φ) : Log φ :=
  let info := l.client.info
  let next := info.writeAddr + headerSize.toUInt32 + l.vars.header.toUInt32
  let curBlock := (info.writeAddr >>> blockSizeLog2).toUInt16
  let newBlock := (next >>> blockSizeLog2).toUInt16
  -- if header is valid and is on same block, move to next record
  if l.vars.header ≠ invalidHeader ∧ curBlock = newBlock then
    (l.setInfo { info with writeAddr := next }).readHeader chip next
  -- found last record
  else l.granted chip

/-- `Sector.readDone` while the record of a cookie is searched -/
def searchedSeek (error : TinyError) (l : Log φ) : Log φ :=
  let c := l.client
  let readAddr := c.info.readAddr + headerSize.toUInt32 + l.vars.header.toUInt32
  -- if not yet at cookie, keep searching
  if readAddr < c.state.cookie then
    (l.setInfo { c.info with readAddr }).readHeader chip readAddr
  -- at or passed cookie, stop
  else
    (l.setInfo { c.info with
      readAddr := c.state.cookie, remaining := readAddr - c.state.cookie }).signalDone error

/-- `Sector.readDone` of a record's header -/
def readRecord (l : Log φ) : Log φ :=
  let info := l.client.info
  -- if header is invalid, move to next block
  if l.vars.header = invalidHeader then
    (l.setInfo { info with readAddr := nextBlock info.readAddr }).continueReadOp chip
  else
    ((l.setInfo { info with
      readAddr := info.readAddr + headerSize.toUInt32
      remaining := l.vars.header.toUInt32 }).setRwState .data).continueReadOp chip

/-- `Sector.readDone` of a record's bytes -/
def readBytes (len : UInt8) (l : Log φ) : Log φ :=
  let info := { l.client.info with
    readAddr := l.client.info.readAddr + len.toUInt32
    remaining := l.client.info.remaining - len.toUInt32 }
  continueReadOp chip
    { l.setInfo info with vars := { l.vars with len := l.vars.len - len, rwState := .header } }

/-- `Sector.readDone` -/
def readDone (addr : UInt32) (len : UInt8) (error : TinyError) (l : Log φ) : Log φ :=
  match l.vars.rwState with
  | .searchBlocks => l.searchedBlock chip addr
  | .searchRecords => l.searchedRecord chip
  | .searchSeek => l.searchedSeek chip error
  | .header => l.readRecord chip
  | .data => l.readBytes chip len

/-- `Sector.eraseDone` -/
def eraseDone (error : TinyError) (l : Log φ) : Log φ :=
  let info := l.client.info
  if l.client.state.req = .erase then
    (l.setInfo { info with readAddr := 0, writeAddr := 0 }).signalDone error
  else
    -- advance read pointer if write pointer has gone too far ahead
    -- (the log could have cycled around)
    let volumeSize := sectorSize * (chip.numSectors.toUInt32 - 1)
    let readAddr :=
      if info.writeAddr > volumeSize ∧ info.readAddr < info.writeAddr - volumeSize then
        info.writeAddr - volumeSize
      else info.readAddr
    ({ l.setInfo { info with readAddr } with vars := { l.vars with addr := info.writeAddr } }).issue
      (.write (calcAddr chip info.writeAddr) (continueAppendOp.addrBytes info.writeAddr) addrSize)

/-- `Sector.writeDone` -/
def writeDone (len : UInt8) (error : TinyError) (l : Log φ) : Log φ :=
  let info := l.client.info
  let l := l.setInfo { info with writeAddr := info.writeAddr + len.toUInt32 }
  if l.vars.rwState = .header then
    (if len = headerSize then l.setRwState .data else l).continueAppendOp chip
  else l.signalDone error

/-- The bytes of a read are there. -/
def store (target : Target) (bytes : List UInt8) (l : Log φ) : Log φ :=
  match target with
  | .addr => { l with vars := { l.vars with addr := (bytes.take 4).foldr pushByte 0 } }
  | .header =>
    let header := bytes.headD 0
    { l with vars := { l.vars with header }, client := { l.client with lastHeader := header } }
  | .buf offset =>
    { l with client := { l.client with got := (offset, bytes) :: l.client.got } }
where
  /-- The bytes of an address, the low one first. -/
  pushByte (b : UInt8) (a : UInt32) : UInt32 := a <<< 8 ||| b.toUInt32

/-- An operation of `Sector` is done. -/
def complete (op : Op) (l : Log φ) : Log φ :=
  match op with
  | .read addr target len =>
    let (flash, bytes, error) := chip.read l.client.flash addr len
    Log.readDone chip addr len error
      (store target bytes { l with client := { l.client with flash, op := none } })
  | .write addr bytes len =>
    let (flash, error) := chip.write l.client.flash addr bytes
    Log.writeDone chip len error { l with client := { l.client with flash, op := none } }
  | .erase sector numSectors =>
    let (flash, error) := chip.erase l.client.flash sector numSectors
    Log.eraseDone chip error { l with client := { l.client with flash, op := none } }

end Log

/-! ## All clients -/

/-- The variables, and the client that holds the resource. -/
structure State (ι φ : Type) where
  vars : Vars := {}
  clients : ι → Client φ
  holder : Option ι := none

variable {ι φ : Type} [DecidableEq ι]

namespace State

/-- What a function works on, for a client. -/
def log (s : State ι φ) (id : ι) : Log φ := ⟨s.vars, s.clients id⟩

/-- What a function leaves. -/
def setLog (s : State ι φ) (id : ι) (l : Log φ) : State ι φ :=
  { s with
    vars := l.vars
    clients := fun i => if i = id then l.client else s.clients i }

/-- A command; a request that is accepted is noted. -/
def request (chip : ι → Chip φ) (id : ι) (r : Request) (s : State ι φ) : TinyError × State ι φ :=
  let (error, l) := (s.log id).request (chip id) r
  let issued := if error = .success then r :: l.client.issued else l.client.issued
  (error, s.setLog id { l with client := { l.client with issued } })

/-- What an event of the client leaves; the resource is free again if the client released it. -/
def serve (s : State ι φ) (id : ι) (l : Log φ) : State ι φ :=
  { s.setLog id l with holder := if l.client.resource = .idle then none else some id }

end State

/-! ## Runs -/

inductive Event (ι : Type)
  | request (id : ι) (r : Request)
  | granted (id : ι)
  | sectorDone (id : ι)
deriving DecidableEq, Repr

/-- Commands are called at any time. The resource is granted to any client that requested it, while
no client holds it, and `Sector` does what it was asked to. -/
def step (chip : ι → Chip φ) (s : State ι φ) : Event ι → Option (State ι φ)
  | .request id r => some (s.request chip id r).2
  | .granted id =>
    let l := s.log id
    if l.client.resource = .requested ∧ s.holder = none then
      some (s.serve id
        (Log.granted (chip id) { l with client := { l.client with resource := .granted } }))
    else none
  | .sectorDone id =>
    (s.clients id).op.map fun op => s.serve id ((s.log id).complete (chip id) op)

/-- The component from `Init.init` on, on volumes with any contents. -/
def machine (chip : ι → Chip φ) (flash : ι → φ) : Machine (State ι φ) (Event ι) where
  init s := s = { clients := fun id => { flash := flash id } }
  step := step chip

end Stm25pLogP
