import Backip.Lib.Machine

/-!
# CC2420: filtering duplicates

`UniqueReceiveP` keeps the sequence number (DSN) it last received from each of the last
`RECEIVE_HISTORY_SIZE` sources. A source is known by a key of 16 bits that `getSourceKey` adds up
from the bytes of its address. A frame whose key and DSN are in the history goes to
`DuplicateReceive`, any other one is written into the history and goes to `Receive`.
-/

set_option autoImplicit false

namespace UniqueReceiveP

/-! ## Frames -/

/-- `IEEE154_ADDR_SHORT` -/
def addrShort : UInt16 := 2

/-- `IEEE154_ADDR_EXT` -/
def addrExt : UInt16 := 3

/-- `IEEE154_FCF_SRC_ADDR_MODE` -/
def fcfSrcAddrMode : UInt16 := 14

/-- `IEEE154_FCF_DEST_ADDR_MODE` -/
def fcfDestAddrMode : UInt16 := 10

def sMode (fcf : UInt16) : UInt16 := (fcf >>> fcfSrcAddrMode) &&& 3

def dMode (fcf : UInt16) : UInt16 := (fcf >>> fcfDestAddrMode) &&& 3

/-- The bytes of an address. -/
def addrLen (mode : UInt16) : Nat := if mode = addrExt then 8 else 2

/-- What the component reads of a frame: a short or an extended destination address, and a source
address after it. -/
structure Frame where
  fcf : UInt16
  dsn : UInt8
  /-- The bytes of the frame from `dest` on. -/
  dest : List UInt8
  modes : (sMode fcf = addrShort ∨ sMode fcf = addrExt) ∧
    (dMode fcf = addrShort ∨ dMode fcf = addrExt)
  addressed : addrLen (dMode fcf) + addrLen (sMode fcf) ≤ dest.length

namespace Frame

/-- The source address. -/
def source (f : Frame) : List UInt8 :=
  (f.dest.drop (addrLen (dMode f.fcf))).take (addrLen (sMode f.fcf))

/-- `getSourceKey` -/
def getSourceKey (f : Frame) : UInt16 :=
  let sLen := if sMode f.fcf = addrExt then 8 else 2
  let sOffset := if dMode f.fcf = addrExt then 8 else 2
  ((f.dest.drop sOffset).take sLen).foldl (fun key b => key + b.toUInt16) 0

end Frame

/-! ## The history -/

/-- An element of `receivedMessages`. -/
structure Entry where
  source : UInt16
  dsn : UInt8
  /-- The frame it was written for, which the component does not keep. -/
  writer : Option Frame

structure State where
  receivedMessages : List Entry
  writeIndex : UInt8
  recycleSourceElement : UInt8

/-- `INVALID_ELEMENT` -/
def invalidElement : UInt8 := 0xFF

/-- The key no source has. -/
def noSource : UInt16 := 0xFFFF

namespace State

/-- `Init.init`, with `RECEIVE_HISTORY_SIZE` elements -/
def init (size : Nat) : State := ⟨List.replicate size ⟨noSource, 0, none⟩, 0, 0⟩

/-- The loop of `hasSeen` over the elements from `i` on, and `recycleSourceElement` after it. -/
def hasSeenFrom (msgSource : UInt16) (msgDsn : UInt8) :
    List Entry → Nat → UInt8 → Bool × UInt8
  | [], _, recycle => (false, recycle)
  | e :: es, i, recycle =>
    if e.source = msgSource then
      if e.dsn = msgDsn then (true, recycle)
      else hasSeenFrom msgSource msgDsn es (i + 1) (UInt8.ofNat i)
    else hasSeenFrom msgSource msgDsn es (i + 1) recycle

/-- `hasSeen` -/
def hasSeen (s : State) (msgSource : UInt16) (msgDsn : UInt8) : Bool × State :=
  let (seen, recycle) := hasSeenFrom msgSource msgDsn s.receivedMessages 0 invalidElement
  (seen, { s with recycleSourceElement := recycle })

/-- The element `insert` writes. -/
def element (s : State) : UInt8 :=
  if s.recycleSourceElement = invalidElement ∨ s.writeIndex = s.recycleSourceElement then
    s.writeIndex
  else s.recycleSourceElement

/-- `insert` of the key and the DSN of `f` -/
def insert (size : Nat) (s : State) (f : Frame) : State :=
  let increment := s.recycleSourceElement = invalidElement ∨ s.writeIndex = s.recycleSourceElement
  { s with
    receivedMessages :=
      s.receivedMessages.set s.element.toNat ⟨f.getSourceKey, f.dsn, some f⟩
    writeIndex :=
      if increment then UInt8.ofNat ((s.writeIndex + 1).toNat % size) else s.writeIndex }

/-- `SubReceive.receive` sends the frame to `DuplicateReceive`. -/
def Seen (s : State) (f : Frame) : Prop := (s.hasSeen f.getSourceKey f.dsn).1 = true

instance (s : State) (f : Frame) : Decidable (s.Seen f) := inferInstanceAs (Decidable (_ = true))

/-- `SubReceive.receive` -/
def receive (size : Nat) (s : State) (f : Frame) : State :=
  let (seen, s) := s.hasSeen f.getSourceKey f.dsn
  if seen then s else s.insert size f

/-- Frames arrive. -/
def machine (size : Nat) : Machine State Frame where
  init s := s = init size
  step s f := some (s.receive size f)

/-! ## Properties of a run -/

/-- A frame goes to `DuplicateReceive` only if an earlier one with its source and DSN went to
`Receive`. -/
def OnlyRepeats (h : List (State × Frame)) : Prop :=
  ∀ h₁ p h₂, h = h₂ ++ p :: h₁ → p.1.Seen p.2 →
    ∃ q ∈ h₁, ¬q.1.Seen q.2 ∧ q.2.source = p.2.source ∧ q.2.dsn = p.2.dsn

/-- A frame with the source and the DSN of the one before it does not go to `Receive`. -/
def DropsRepeats (h : List (State × Frame)) : Prop :=
  ∀ h₁ p q h₂, h = h₂ ++ p :: q :: h₁ → p.2.source = q.2.source → p.2.dsn = q.2.dsn → p.1.Seen p.2

/-- At most one element is found for each source. -/
def OneEntry (s : State) : Prop :=
  ∀ (f : Frame) (i j : Nat) (e e' : Entry),
    s.receivedMessages[i]? = some e → s.receivedMessages[j]? = some e' →
    e.source = f.getSourceKey → e'.source = f.getSourceKey → i = j

/-- Every element with the key and the DSN of the frame was written for a frame from its source. -/
def OwnMatch (s : State) (f : Frame) : Prop :=
  ∀ e ∈ s.receivedMessages, e.source = f.getSourceKey → e.dsn = f.dsn →
    ∀ w ∈ e.writer, w.source = f.source

/-- The source's element is not the one with the number of `INVALID_ELEMENT`, unless the frame is a
duplicate or that element is the next to be written anyway. -/
def Locatable (s : State) (f : Frame) : Prop :=
  ∀ e ∈ s.receivedMessages[invalidElement.toNat]?, e.source = f.getSourceKey →
    e.dsn = f.dsn ∨ s.writeIndex = invalidElement

instance (s : State) (f : Frame) : Decidable (s.OwnMatch f) := by
  unfold OwnMatch
  infer_instance

instance (s : State) (f : Frame) : Decidable (s.Locatable f) := by
  unfold Locatable
  infer_instance

end State

end UniqueReceiveP
