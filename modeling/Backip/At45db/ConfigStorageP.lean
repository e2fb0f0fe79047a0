import Backip.Lib.Machine
import Backip.Serial.Crc
import Backip.System.Types
import Mathlib.Logic.Function.Basic
import Mathlib.Algebra.Group.Nat.Defs

/-!
# Configuration storage on the AT45DB (`tos/chips/at45db/ConfigStorageP.nc`, `BlockStorageP.nc`)

`ConfigStorageP` is what `ConfigStorageP` and the `BlockStorageP` under it keep for one
configuration volume, with the operation `At45db` is at for it. Other volumes share nothing with it
but the resource, so that its grant comes at any time. `flash` is what `At45db` reads: the bytes of
each page, counted from the start of the volume; the second half starts at page `npages`.

Handlers run to completion one at a time. An operation of `At45db` is done with an answer; one that
fails leaves the page it writes to in any state.

`log` is not in the code. It records the events signalled to the client, the last one first.
-/

set_option autoImplicit false

namespace At45db

/-- A volume: half its pages, and `AT45_PAGE_SIZE_LOG2`. Its size is a `storage_len_t`. -/
structure Volume where
  npages : Nat
  pageSizeLog2 : Nat
  large : 3 ≤ pageSizeLog2
  small : npages * 2 ^ pageSizeLog2 < 2 ^ 32

def Volume.pageSize (v : Volume) : Nat := 2 ^ v.pageSizeLog2

/-- `ConfigStorage.nc`'s states, in their order. -/
inductive ConfigState
  | stopped | mount | commit | clean | dirty | invalid
deriving DecidableEq, Repr

/-- `s[id].state >= S_CLEAN`. -/
def ConfigState.mounted : ConfigState → Bool
  | .clean | .dirty | .invalid => true
  | _ => false

/-- The structure at the start of each half. -/
structure ConfigHeader where
  crc : UInt16
  version : UInt32
deriving DecidableEq, Repr

namespace ConfigHeader

/-- The bytes of `version`. -/
def versionBytes (h : ConfigHeader) : List UInt8 :=
  [(h.version >>> 24).toUInt8, (h.version >>> 16).toUInt8, (h.version >>> 8).toUInt8,
    h.version.toUInt8]

def bytes (h : ConfigHeader) : List UInt8 :=
  [(h.crc >>> 8).toUInt8, h.crc.toUInt8] ++ h.versionBytes

/-- The header that bytes read from the flash make. -/
def ofBytes (b : List UInt8) : ConfigHeader where
  crc := ((b.getD 0 0).toUInt16 <<< 8) ||| (b.getD 1 0).toUInt16
  version := ((b.getD 2 0).toUInt32 <<< 24) ||| ((b.getD 3 0).toUInt32 <<< 16) |||
    ((b.getD 4 0).toUInt32 <<< 8) ||| (b.getD 5 0).toUInt32

end ConfigHeader

/-- `sizeof low[0]`. -/
def headerSize : Nat := 6

/-- `R_*`; a configuration volume is never erased. -/
inductive Request
  | idle | write | sync | read | crc
deriving DecidableEq, Repr

/-- What `buf` stands for: a client's data or buffer, the two headers, the CRC to start with. -/
inductive Buffer
  | null
  | data (bytes : List UInt8)
  | user
  | low
  | high
  | baseCrc (crc : UInt16)
deriving DecidableEq, Repr

/-- An operation of `At45db`. -/
inductive Operation
  | copyPage (source target : Nat)
  | write (page offset : Nat) (data : List UInt8)
  | read (page offset n : Nat)
  | computeCrc (page offset n : Nat) (crc : UInt16)
  | syncAll
deriving DecidableEq, Repr

/-- A page of the flash. -/
abbrev Page := Nat → UInt8

/-- What is signalled to the client. -/
inductive ConfigSignal
  | mountDone (result : TinyError)
  | readDone (addr : Nat) (data : List UInt8) (result : TinyError)
  | writeDone (addr len : Nat) (result : TinyError)
  | commitDone (result : TinyError)
deriving DecidableEq, Repr

structure ConfigStorageP where
  -- `ConfigStorageP`
  state : ConfigState
  committing : Bool
  low : ConfigHeader
  high : ConfigHeader
  flip : Bool
  /-- `client` is this volume: its pages are copied. -/
  copying : Bool
  nextPage : Nat
  -- `BlockStorageP`
  request : Request
  buf : Buffer
  addr : Nat
  len : Nat
  /-- `client` is this volume. -/
  active : Bool
  currentOffset : Nat
  -- the resource, the operation under way, the pages
  requested : Bool
  granted : Bool
  op : Option Operation
  flash : Nat → Page
  -- what was read into the client's buffer, and the record of signals
  got : List UInt8
  log : List ConfigSignal

namespace ConfigStorageP

/-- Booted, with the pages as they are. -/
def boot (flash : Nat → Page) : ConfigStorageP where
  state := .stopped
  committing := false
  low := ⟨0, 0⟩
  high := ⟨0, 0⟩
  flip := false
  copying := false
  nextPage := 0
  request := .idle
  buf := .null
  addr := 0
  len := 0
  active := false
  currentOffset := 0
  requested := false
  granted := false
  op := none
  flash := flash
  got := []
  log := []

variable (v : Volume)

def signal (s : ConfigStorageP) (c : ConfigSignal) : ConfigStorageP := { s with log := c :: s.log }

/-- `BlockRead.getSize`, of one half. -/
def volumeSize : Nat := v.npages * v.pageSize

/-- `BConfig.remap`, from the start of the volume on. -/
def remap (s : ConfigStorageP) (page : Nat) : Nat := if s.flip then page + v.npages else page

/-- `flip`. -/
def flipHalf (s : ConfigStorageP) : ConfigStorageP := { s with flip := !s.flip }

/-! ## `BlockStorageP` -/

/-- `newRequest`. -/
def newRequest (s : ConfigStorageP) (newState : Request) (addr : Nat) (buf : Buffer) (len : Nat) :
    TinyError × ConfigStorageP :=
  if s.request ≠ .idle then (.ebusy, s)
  else if volumeSize v < addr ∨ volumeSize v - addr < len then (.einval, s)
  else
    (.success, { s with
      request := newState, addr := addr, buf := buf, len := len, requested := true, got := [] })

/-- The bytes `BlockWrite.write` was given. -/
def bufBytes (s : ConfigStorageP) : List UInt8 :=
  match s.buf with
  | .data bytes => bytes
  | .low => s.low.bytes
  | .high => s.high.bytes
  | .null | .user | .baseCrc _ => []

/-- The operation for the rest of a request, up to the end of the page, and its length. -/
def nextOperation (s : ConfigStorageP) (crc : UInt16) : Option Operation × Nat :=
  let remaining := s.len - s.currentOffset
  let addr := s.addr + s.currentOffset
  let page := s.remap v (addr / v.pageSize)
  let pageOffset := addr % v.pageSize
  let count := min remaining (v.pageSize - pageOffset)
  match s.request with
  | .write =>
    (some (.write page pageOffset ((s.bufBytes.drop s.currentOffset).take count)), count)
  | .read => (some (.read page pageOffset count), count)
  | .crc => (some (.computeCrc page pageOffset count crc), count)
  | .idle | .sync => (none, count)

/-! ## `ConfigStorageP` on top of it

`BlockStorageP` signals the end of a request to `ConfigStorageP`, which may make the next one. -/

/-- `volumeSize(id) - n`, in 32 bits. -/
def sizeWithout (n : Nat) : Nat := (volumeSize v + 2 ^ 32 - n) % 2 ^ 32

/-- `addr - sizeof low[0]`, in 32 bits. -/
def clientAddr (s : ConfigStorageP) : Nat := (s.addr + 2 ^ 32 - headerSize) % 2 ^ 32

/-- `computeCrc`. -/
def computeCrc (s : ConfigStorageP) : ConfigStorageP :=
  (s.newRequest v .crc 2 (.baseCrc 0) (sizeWithout v 2)).2

/-- `mountReadDone`. -/
def mountReadDone (s : ConfigStorageP) (error : TinyError) : ConfigStorageP :=
  if error ≠ .success then { s with state := .stopped }.signal (.mountDone .fail)
  else if !s.flip then ({ s with flip := true }.newRequest v .read 0 .high headerSize).2
  else { s with flip := s.low.version < s.high.version }.computeCrc v

/-- `mountCrcDone`. -/
def mountCrcDone (s : ConfigStorageP) (crc : UInt16) (error : TinyError) : ConfigStorageP :=
  if error = .success ∧ crc = (if s.flip then s.high.crc else s.low.crc) then
    let s := if s.flip then { s with low := { s.low with version := s.high.version } } else s
    { s with state := .clean }.signal (.mountDone .success)
  else if decide (s.low.version < s.high.version) = s.flip then s.flipHalf.computeCrc v
  else
    { s with state := .invalid, low := { s.low with version := 0 } }.signal (.mountDone .success)

/-- `writeWriteDone`. -/
def writeWriteDone (s : ConfigStorageP) (error : TinyError) : ConfigStorageP :=
  s.flipHalf.signal (.writeDone s.clientAddr s.currentOffset error)

/-- `commitSyncDone`. -/
def commitSyncDone (s : ConfigStorageP) (error : TinyError) : ConfigStorageP :=
  let s := { s with committing := false }
  let s := if error = .success then { s with state := .clean } else s.flipHalf
  s.signal (.commitDone error)

/-- `commitCrcDone`. -/
def commitCrcDone (s : ConfigStorageP) (crc : UInt16) (error : TinyError) : ConfigStorageP :=
  if s.state = .clean then s.signal (.commitDone error)
  else if error ≠ .success then s.commitSyncDone error
  else ({ s with low := { s.low with crc := crc } }.newRequest v .write 0 .low headerSize).2

/-- `commitWriteDone`. -/
def commitWriteDone (s : ConfigStorageP) (error : TinyError) : ConfigStorageP :=
  if error ≠ .success then s.commitSyncDone error else (s.newRequest v .sync 0 .null 0).2

/-- The end of a request, for the client that made it. -/
def requestDone (s : ConfigStorageP) (request : Request) (result : TinyError) (crc : UInt16) :
    ConfigStorageP :=
  match request with
  | .idle => s
  | .read =>
    if s.state = .mount then s.mountReadDone v result
    else s.signal (.readDone s.clientAddr s.got result)
  | .write => if s.committing then s.commitWriteDone v result else s.writeWriteDone result
  | .crc => if s.state = .mount then s.mountCrcDone v crc result else s.commitCrcDone v crc result
  | .sync => s.commitSyncDone result

/-- `endRequest`. -/
def endRequest (s : ConfigStorageP) (result : TinyError) (crc : UInt16) : ConfigStorageP :=
  { s with active := false, request := .idle, granted := false }.requestDone v s.request result crc

/-- `multipageContinue`. -/
def multipageContinue (s : ConfigStorageP) (crc : UInt16) : ConfigStorageP :=
  if s.len - s.currentOffset = 0 then s.endRequest v .success crc
  else
    let (op, count) := s.nextOperation v crc
    { s with op := op, currentOffset := s.currentOffset + count }

/-- `startRequest`. -/
def startRequest (s : ConfigStorageP) : ConfigStorageP :=
  match s.request with
  | .sync => { s with op := some .syncAll }
  | _ =>
    let crc := match s.buf with
      | .baseCrc crc => crc
      | _ => 0
    { s with currentOffset := 0 }.multipageContinue v crc

/-- `writeContinue`, and `BConfig.writeContinue`. -/
def writeContinue (s : ConfigStorageP) (error : TinyError) : ConfigStorageP :=
  let s := { s with copying := false, active := true }
  if error = .success then s.startRequest v else s.endRequest v error 0

/-- `copyCopyPageDone`. -/
def copyCopyPageDone (s : ConfigStorageP) (error : TinyError) : ConfigStorageP :=
  if error ≠ .success then s.writeContinue v error
  else if s.nextPage = 0 then { s with state := .dirty }.writeContinue v .success
  else
    let s := { s with nextPage := s.nextPage - 1 }
    let target := s.remap v s.nextPage
    let source := if s.flip then target - v.npages else target + v.npages
    { s with op := some (.copyPage source target) }

/-- `Resource.granted`, with `BConfig.writeHook`. -/
def resourceGranted (s : ConfigStorageP) : ConfigStorageP :=
  let s := { s with active := true }
  if s.request = .write ∧ s.committing = false then
    let s := s.flipHalf
    if s.state ≠ .clean then s.startRequest v
    else
      let s := { s with copying := true, nextPage := v.npages }.copyCopyPageDone v .success
      { s with active := false }
  else s.startRequest v

/-! ## What `At45db` does -/

/-- The page after `data` was written to it from `offset` on. -/
def splicePage (page : Page) (offset : Nat) (data : List UInt8) : Page := fun i =>
  if offset ≤ i ∧ i < offset + data.length then data.getD (i - offset) 0 else page i

def crcBytes (crc : UInt16) (bytes : List UInt8) : UInt16 := bytes.foldl Serial.crcByte crc

/-- The bytes of a page from `offset` on. -/
def pageBytes (page : Page) (offset n : Nat) : List UInt8 :=
  (List.range n).map fun i => page (offset + i)

/-- The pages after an operation; one that fails leaves `left` in the page it writes to. -/
def apply (s : ConfigStorageP) (op : Operation) (result : TinyError) (left : Page) :
    ConfigStorageP :=
  match op with
  | .copyPage source target =>
    { s with flash := Function.update s.flash target <|
        if result = .success then s.flash source else left }
  | .write page offset data =>
    { s with flash := Function.update s.flash page <|
        if result = .success then splicePage (s.flash page) offset data else left }
  | .read .. | .computeCrc .. | .syncAll => s

/-- What was read goes to the buffer. -/
def store (s : ConfigStorageP) (bytes : List UInt8) : ConfigStorageP :=
  match s.buf with
  | .low => { s with low := .ofBytes bytes }
  | .high => { s with high := .ofBytes bytes }
  | _ => { s with got := s.got ++ bytes }

/-- `multipageOpDone`. -/
def multipageOpDone (s : ConfigStorageP) (result : TinyError) (crc : UInt16) : ConfigStorageP :=
  if result ≠ .success then s.endRequest v result 0 else s.multipageContinue v crc

/-- The event that says that `op` is done. -/
def operationDone (s : ConfigStorageP) (op : Operation) (result : TinyError) : ConfigStorageP :=
  match op with
  | .copyPage .. => if s.copying then s.copyCopyPageDone v result else s
  | .write .. => if s.active then s.multipageOpDone v result 0 else s
  | .read page offset n =>
    let s := if result = .success then s.store (pageBytes (s.flash page) offset n) else s
    if s.active then s.multipageOpDone v result 0 else s
  | .computeCrc page offset n crc =>
    if s.active then
      s.multipageOpDone v result (crcBytes crc (pageBytes (s.flash page) offset n))
    else s
  | .syncAll => if s.active then s.endRequest v result 0 else s

/-! ## The client's commands -/

/-- `addr + sizeof low[0]`, in 32 bits. -/
def blockAddr (addr : Nat) : Nat := (addr + headerSize) % 2 ^ 32

/-- `Mount.mount`. -/
def mount (s : ConfigStorageP) : TinyError × ConfigStorageP :=
  if s.state ≠ .stopped then (.fail, s)
  else
    (.success, ({ s with state := .mount, flip := false }.newRequest v .read 0 .low headerSize).2)

/-- `ConfigStorage.read`. -/
def read (s : ConfigStorageP) (addr len : Nat) : TinyError × ConfigStorageP :=
  if s.state.mounted = false then (.eoff, s)
  else if s.state = .invalid then (.fail, s)
  else s.newRequest v .read (blockAddr addr) .user len

/-- `ConfigStorage.write`. -/
def write (s : ConfigStorageP) (addr : Nat) (data : List UInt8) : TinyError × ConfigStorageP :=
  if s.state.mounted = false then (.eoff, s)
  else s.newRequest v .write (blockAddr addr) (.data data) data.length

/-- `ConfigStorage.commit`. -/
def commit (s : ConfigStorageP) : TinyError × ConfigStorageP :=
  if s.state.mounted = false then (.eoff, s)
  else if s.state = .clean then s.newRequest v .crc 0 (.baseCrc 0) 1
  else
    let s := s.flipHalf
    let s := { s with low := { s.low with version := s.low.version + 1 } }
    let crc := crcBytes 0 s.low.versionBytes
    let (ok, s) := s.newRequest v .crc headerSize (.baseCrc crc) (sizeWithout v headerSize)
    (ok, if ok = .success then { s with committing := true } else s)

end ConfigStorageP

/-! ## The open system -/

inductive ConfigEvent
  | mount
  | read (addr len : Nat)
  | write (addr : Nat) (data : List UInt8)
  | commit
  | granted
  /-- The operation under way is done; where it failed, its page is `left`. -/
  | done (result : TinyError) (left : Page)

namespace ConfigStorageP

variable (v : Volume)

/-- One event: `none` if it cannot occur (a resource that was not requested, no operation under
way). -/
def step (s : ConfigStorageP) : ConfigEvent → Option ConfigStorageP
  | .mount => some (s.mount v).2
  | .read addr len => some (s.read v addr len).2
  | .write addr data => some (s.write v addr data).2
  | .commit => some (s.commit v).2
  | .granted =>
    if s.requested then some ({ s with requested := false, granted := true }.resourceGranted v)
    else none
  | .done result left =>
    s.op.map fun op => ({ s with op := none }.apply op result left).operationDone v op result

/-- The volume from its boot on, with any contents. -/
def machine : Machine ConfigStorageP ConfigEvent where
  init s := ∃ flash, s = boot flash
  step := step v

end ConfigStorageP

end At45db

/-! ## The committed half

`ConfigWatch` is a volume with what was committed: `base` is the half that was current when the
volume became clean (a mount that found it valid, a commit that succeeded) and its pages then, and
`intact` says whether every commit so far that was refused left the half, the state and the request
of the client alone. -/

namespace At45db

/-- The page `p` of a half. -/
def halfPage (v : Volume) (half : Bool) (p : Nat) : Nat := if half then p + v.npages else p

/-- The `n` bytes of a half with the pages `image`, from `addr` on. -/
def imageBytes (v : Volume) (image : Nat → Page) (addr n : Nat) : List UInt8 :=
  (List.range n).map fun i => image ((addr + i) / v.pageSize) ((addr + i) % v.pageSize)

structure ConfigWatch where
  c : ConfigStorageP
  base : Option (Bool × (Nat → Page))
  intact : Bool

/-- What is committed after a step from the state `old` to `s`. -/
def nextBase (v : Volume) (old : ConfigState) (base : Option (Bool × (Nat → Page)))
    (s : ConfigStorageP) : Option (Bool × (Nat → Page)) :=
  if s.state = .clean ∧ old ≠ .clean then some (s.flip, fun p => s.flash (halfPage v s.flip p))
  else if s.state = .clean ∨ s.state = .dirty then base
  else none

/-- The commit is refused, and changes the half, the state or the request. -/
def Disturbs (v : Volume) (s : ConfigStorageP) : Prop :=
  (s.commit v).1 ≠ .success ∧
    ¬ ((s.commit v).2.flip = s.flip ∧ (s.commit v).2.state = s.state ∧
      (s.commit v).2.request = s.request ∧ (s.commit v).2.addr = s.addr ∧
      (s.commit v).2.len = s.len ∧ (s.commit v).2.buf = s.buf)

instance (v : Volume) (s : ConfigStorageP) : Decidable (Disturbs v s) :=
  inferInstanceAs (Decidable (_ ∧ ¬ _))

namespace ConfigWatch

def isCommit : ConfigEvent → Bool
  | .commit => true
  | _ => false

def step (v : Volume) (w : ConfigWatch) (e : ConfigEvent) : Option ConfigWatch :=
  (w.c.step v e).map fun c =>
    { c := c
      base := nextBase v w.c.state w.base c
      intact := w.intact && !(isCommit e && Disturbs v w.c) }

def machine (v : Volume) : Machine ConfigWatch ConfigEvent where
  init w := (∃ flash, w.c = .boot flash) ∧ w.base = none ∧ w.intact = true
  step := step v

/-- The operation under way writes to no page of the half. -/
def Spares (v : Volume) (half : Bool) : Option Operation → Prop
  | some (.copyPage _ target) => ∀ p < v.npages, target ≠ halfPage v half p
  | some (.write page _ _) => ∀ p < v.npages, page ≠ halfPage v half p
  | _ => True

/-- What is committed stays: every refused commit changed nothing, the pages of the committed half
are what they were, it is the current one at rest and while the client reads, what the client has
read is from it, and what is written goes to the other one. -/
structure Keeps (v : Volume) (w : ConfigWatch) : Prop where
  intact : w.intact = true
  image : ∀ half image, w.base = some (half, image) →
    ∀ p < v.npages, w.c.flash (halfPage v half p) = image p
  current : ∀ half image, w.base = some (half, image) →
    w.c.request = .idle ∨ w.c.request = .read → w.c.flip = half
  reads : ∀ half image, w.base = some (half, image) →
    w.c.got = imageBytes v image w.c.addr w.c.got.length
  /-- A read that is done hands over what was read, all of it where it succeeded. -/
  told : w.c.request = .idle → ∀ addr data result rest,
    w.c.log = .readDone addr data result :: rest →
      addr = w.c.clientAddr ∧ data = w.c.got ∧ (result = .success → data.length = w.c.len)
  spares : ∀ half image, w.base = some (half, image) → Spares v half w.c.op

end ConfigWatch

end At45db
