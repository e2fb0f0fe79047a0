import Backip.Lib.Blocks
import Backip.Lib.Machine

/-!
# The heap of the IP stack (`ip_malloc.c`)

The memory is read and written by offsets from `heap`; a pointer into the heap is such an offset.
The two bytes at a block's start are its tag: the length of the block with its tag, and whether it
is in use. The loops run on fuel: `none` is a loop that does not end.
-/

set_option autoImplicit false

namespace IpMalloc

abbrev ipMallocAlign : UInt16 := 2
abbrev ipMallocLen : UInt16 := 0x0fff
abbrev ipMallocInuse : UInt16 := 0x8000
abbrev ipMallocHeapSize : Nat := 1500

/-- `sizeof(bndrt_t)`. -/
abbrev bndrtSize : Nat := 2

/-- The memory from `heap` on; the heap is its first `ipMallocHeapSize` bytes. -/
abbrev Mem := Nat → UInt8

/-- `*cur`, in the byte order of the target (the low byte first). -/
def tag (m : Mem) (cur : Nat) : UInt16 := (m cur).toUInt16 + 256 * (m (cur + 1)).toUInt16

/-- `*cur = v`. -/
def setTag (m : Mem) (cur : Nat) (v : UInt16) : Mem := fun i =>
  if i = cur then v.toUInt8 else if i = cur + 1 then (v >>> 8).toUInt8 else m i

/-- `*cur & IP_MALLOC_LEN`. -/
def tagLen (t : UInt16) : UInt16 := t &&& ipMallocLen

/-- `(*cur & IP_MALLOC_INUSE) != 0`. -/
def tagInuse (t : UInt16) : Bool := t &&& ipMallocInuse != 0

def ipMallocInit (m : Mem) : Mem := setTag m 0 (UInt16.ofNat ipMallocHeapSize &&& ipMallocLen)

/-- `while (!stop && cur - heap < IP_MALLOC_HEAP_SIZE) { prev = cur; cur += *cur & IP_MALLOC_LEN; }`,
the loop of `ip_free` and, without `prev`, that of `ip_malloc`. -/
def seek (m : Mem) (stop : Nat → Bool) : Nat → Option Nat → Nat → Option (Option Nat × Nat)
  | 0, _, _ => none
  | fuel + 1, prev, cur =>
    if !stop cur && cur < ipMallocHeapSize then
      seek m stop fuel (some cur) (cur + (tagLen (tag m cur)).toNat)
    else
      some (prev, cur)

/-- A loop that moves at every step has left the heap by then. -/
abbrev loopFuel : Nat := ipMallocHeapSize + 1

/-- The size of the block asked for, with both tags, rounded up. -/
def request (sz : UInt16) : UInt16 :=
  let sz := sz + UInt16.ofNat (bndrtSize * 2)
  sz + sz % ipMallocAlign

def ipMalloc (m : Mem) (sz : UInt16) : Option (Mem × Option Nat) := do
  let sz := request sz
  -- the tag is read before the bound is tested, also behind the heap
  let (_, cur) ← seek m (fun cur => !(tagLen (tag m cur) < sz || tagInuse (tag m cur)))
    loopFuel none 0
  if cur < ipMallocHeapSize then
    let oldsize := tagLen (tag m cur)
    let sz := sz - UInt16.ofNat bndrtSize
    let next := cur + sz.toNat
    let m := setTag m cur (sz &&& ipMallocLen ||| ipMallocInuse)
    let m := setTag m next ((oldsize - sz) &&& ipMallocLen)
    some (m, some (cur + bndrtSize))
  else
    some (m, none)

/-- `*cur &= ~IP_MALLOC_INUSE`, and the block behind is joined to it if that is free. -/
def freeNext (m : Mem) (cur : Nat) : Mem :=
  let next := (tagLen (tag m cur)).toNat + cur
  let m := setTag m cur (tag m cur &&& ~~~ipMallocInuse)
  if next < ipMallocHeapSize && !tagInuse (tag m next) then
    setTag m cur (tagLen (tag m cur) + tagLen (tag m next))
  else m

/-- The block before is joined if it is free. -/
def freePrev (m : Mem) (prev : Option Nat) (cur : Nat) : Mem :=
  match prev with
  | some prev =>
    if !tagInuse (tag m prev) then
      setTag m prev (tagLen (tag m prev) + tagLen (tag m cur))
    else m
  | none => m

def ipFree (m : Mem) (ptr : Nat) : Option Mem := do
  let (prev, cur) ← seek m (fun cur => cur + bndrtSize == ptr) loopFuel none 0
  if cur + bndrtSize = ptr then
    some (freePrev (freeNext m cur) prev cur)
  else
    some m

def freespaceLoop (m : Mem) : Nat → UInt16 → Nat → Option UInt16
  | 0, _, _ => none
  | fuel + 1, ret, cur =>
    if cur < ipMallocHeapSize then
      freespaceLoop m fuel (if !tagInuse (tag m cur) then ret + tagLen (tag m cur) else ret)
        (cur + (tagLen (tag m cur)).toNat)
    else
      some ret

def ipMallocFreespace (m : Mem) : Option UInt16 := freespaceLoop m loopFuel 0 0

/-! ## The users of the heap -/

/-- A pointer that was returned and not freed since, with the size that was asked for. -/
structure Live where
  ptr : Nat
  size : UInt16
deriving DecidableEq, Repr

structure State where
  mem : Mem
  live : List Live

inductive Event
  | malloc (sz : UInt16)
  | free (l : Live)
  | write (l : Live) (i : Nat) (b : UInt8)
deriving DecidableEq, Repr

/-- Blocks of at most 2047 bytes are asked for, only live pointers are freed, and a block is
written only within its requested size. -/
def step (s : State) : Event → Option State
  | .malloc sz =>
    if sz ≤ 2047 then do
      let (m, p) ← ipMalloc s.mem sz
      match p with
      | some p => some ⟨m, ⟨p, sz⟩ :: s.live⟩
      | none => some ⟨m, s.live⟩
    else none
  | .free l =>
    if l ∈ s.live then do
      let m ← ipFree s.mem l.ptr
      some ⟨m, s.live.erase l⟩
    else none
  | .write l i b =>
    if l ∈ s.live ∧ i < l.size.toNat then
      some { s with mem := fun j => if j = l.ptr + i then b else s.mem j }
    else none

/-- The stack starts with `ip_malloc_init`, whatever the memory holds. -/
def machine : Machine State Event where
  init s := ∃ m, s = ⟨ipMallocInit m, []⟩
  step := step

end IpMalloc
