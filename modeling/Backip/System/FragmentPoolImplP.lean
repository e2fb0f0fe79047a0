import Backip.Lib.Machine
import Backip.System.Types
import Mathlib

/-!
# A pool of fragments (`tos/lib/fragpool/FragmentPoolImplP.nc`)

One pool: its region starts at `base`, and an array of slots records the fragments it is divided into.
Addresses and lengths are integers.
-/

set_option autoImplicit false

namespace FragmentPoolImplP

/-- `FragmentPoolSlot_t`: the fragment is in use where the length is negative, and the slot is not in
use where it is zero. -/
structure Slot where
  start : Int
  length : Int
deriving DecidableEq, Repr, Inhabited

/-- The result of a command, the length it signals with `FragmentPool.available`, and the slots. -/
structure Outcome where
  result : TinyError
  available : Option Int
  slots : List Slot
deriving DecidableEq, Repr

/-- `initialize__`. -/
def initializePool (base : Int) (poolSize slotCount : Nat) : List Slot :=
  (List.replicate slotCount ⟨0, 0⟩).set 0 ⟨base, poolSize⟩

/-! ## request -/

/-- The loop of `FragmentPool.request` over the slots from index `sp` on. -/
def longest : List Slot → Nat → Option Nat → Int → Option Nat
  | [], _, bsp, _ => bsp
  | s :: slots, sp, bsp, bspLength =>
    if 0 < s.length ∧ bspLength ≤ s.length then longest slots (sp + 1) (some sp) s.length
    else longest slots (sp + 1) bsp bspLength

/-- `FragmentPool.request`: the fragment's start and end, and the slots. -/
def request (slots : List Slot) (minimumSize : Nat) : Except TinyError (Int × Int) × List Slot :=
  match longest slots 0 none minimumSize with
  | none => (.error .enomem, slots)
  | some bsp =>
    let s := slots.getD bsp default
    (.ok (s.start, s.start + s.length), slots.set bsp { s with length := -s.length })

/-! ## release -/

/-- The slots from `asp` on move down by `freed` places, up to the first one that is not in use. Also
the `asp` where this stops. -/
def moveDown (freed : Nat) : Nat → Nat → List Slot → Nat × List Slot
  | 0, asp, slots => (asp, slots)
  | n + 1, asp, slots =>
    let s := slots.getD asp default
    let slots := slots.set (asp - freed) s
    if s.length = 0 then (asp, slots) else moveDown freed n (asp + 1) slots

/-- The lengths of the slots from `bsp` to `asp`. -/
def clear : Nat → Nat → List Slot → List Slot
  | 0, _, slots => slots
  | n + 1, bsp, slots => clear n (bsp + 1) (slots.modify bsp fun s => { s with length := 0 })

/-- The slots from `bsp` to `asp` become one. -/
def merge (slots : List Slot) (bsp asp : Nat) : List Slot :=
  if bsp < asp then
    let freed := asp - bsp
    let merged := (((slots.drop (bsp + 1)).take freed).map Slot.length).sum
    let slots := slots.modify bsp fun s => { s with length := s.length + merged }
    let r := moveDown freed (slots.length - (bsp + freed + 1)) (bsp + freed + 1) slots
    clear freed (r.1 - freed) r.2
  else slots

/-- `FragmentPool.release`. -/
def release (slots : List Slot) (start : Int) : Outcome :=
  let sp := slots.findIdx fun s => s.start = start
  if sp = slots.length then ⟨.einval, none, slots⟩
  else
    let s := slots.getD sp default
    if 0 ≤ s.length then ⟨.ealready, none, slots⟩
    else
      let slots := slots.set sp { s with length := -s.length }
      let bsp := if 0 < sp ∧ 0 < (slots.getD (sp - 1) default).length then sp - 1 else sp
      let asp := if sp + 1 < slots.length ∧ 0 < (slots.getD (sp + 1) default).length then sp + 1
        else sp
      let slots := merge slots bsp asp
      ⟨.success, some (slots.getD bsp default).length, slots⟩

/-! ## freeze -/

/-- `spe` moved down to the first unused slot, but not below `lo`. -/
def firstUnused (slots : List Slot) (lo : Nat) : Nat → Nat
  | 0 => 0
  | spe + 1 =>
    if lo < spe + 1 ∧ (slots.getD spe default).length = 0 then firstUnused slots lo spe else spe + 1

/-- The slots from `lo` to `hi` move up by one place. -/
def moveUp (slots : List Slot) (lo hi : Nat) : List Slot :=
  slots.take (lo + 1) ++ (slots.drop lo).take (hi - lo) ++ slots.drop (hi + 1)

/-- The end of the fragment of slot `sp` becomes a fragment of the slot behind it. -/
def carve (slots : List Slot) (sp : Nat) (freeLength : Int) : List Slot :=
  let s := slots.getD sp default
  let length := s.length + freeLength
  (slots.set sp { s with length }).set (sp + 1) ⟨s.start - length, freeLength⟩

/-- `FragmentPool.freeze`. -/
def freeze (slots : List Slot) (start fin : Int) : Outcome :=
  let sp := slots.findIdx fun s => s.start = start
  if sp = slots.length then ⟨.einval, none, slots⟩
  else
    let s := slots.getD sp default
    let fep := s.start - s.length
    if fin < s.start ∨ fep < fin then ⟨.einval, none, slots⟩
    else
      let freeLength := fep - fin
      let freeLength := if freeLength % 2 = 1 then freeLength - 1 else freeLength
      if s.start = fin then release slots start
      else if freeLength = 0 ∨ sp + 1 = slots.length then ⟨.success, none, slots⟩
      else
        let next := slots.getD (sp + 1) default
        if 0 < next.length then
          let next : Slot := ⟨next.start - freeLength, next.length + freeLength⟩
          let slots := slots.set sp { s with length := s.length + freeLength }
          ⟨.success, some next.length, slots.set (sp + 1) next⟩
        else if next.length < 0 then
          if (slots.getD (slots.length - 1) default).length ≠ 0 then ⟨.success, none, slots⟩
          else
            let spe := firstUnused slots (sp + 2) slots.length
            ⟨.success, some freeLength, carve (moveUp slots (sp + 1) spe) sp freeLength⟩
        else ⟨.success, some freeLength, carve slots sp freeLength⟩

/-! ## Runs -/

/-- What a client holds: the start of a fragment, and the end it was given or has frozen. -/
structure Held where
  start : Int
  fin : Int
deriving DecidableEq, Repr

structure Pool where
  slots : List Slot
  held : List Held
deriving DecidableEq, Repr

inductive Event
  | request (minimumSize : Nat)
  | freeze (start fin : Int)
  | release (start : Int)
deriving DecidableEq, Repr

namespace Pool

variable (p : Pool)

/-- `fin` lies inside the fragment in use that starts at `start`. -/
def Inside (start fin : Int) : Prop :=
  ∃ s ∈ p.slots, s.start = start ∧ s.length < 0 ∧ start ≤ fin ∧ fin ≤ start - s.length

instance (start fin : Int) : Decidable (p.Inside start fin) :=
  inferInstanceAs (Decidable (∃ s ∈ p.slots, _))

/-- The client's fragments other than the one that starts at `start`. -/
def others (start : Int) : List Held := p.held.filter fun f => f.start ≠ start

/-- A client freezes and releases fragments that it holds. Freezing a fragment at its start releases
it. -/
def step : Event → Option Pool
  | .request minimumSize =>
    let r := FragmentPoolImplP.request p.slots minimumSize
    match r.1 with
    | .ok (start, fin) => some { slots := r.2, held := ⟨start, fin⟩ :: p.held }
    | .error _ => some { p with slots := r.2 }
  | .freeze start fin =>
    if start ∈ p.held.map Held.start ∧ p.Inside start fin then
      some {
        slots := (FragmentPoolImplP.freeze p.slots start fin).slots
        held := if start = fin then p.others start else ⟨start, fin⟩ :: p.others start }
    else none
  | .release start =>
    if start ∈ p.held.map Held.start then
      some {
        slots := (FragmentPoolImplP.release p.slots start).slots
        held := p.others start }
    else none

/-- A pool of `poolSize` bytes at `base` with `slotCount` slots. -/
def machine (base : Nat) (poolSize slotCount : Nat) : Machine Pool Event where
  init p := p = { slots := initializePool base poolSize slotCount, held := [] }
  step := step

end Pool

end FragmentPoolImplP
