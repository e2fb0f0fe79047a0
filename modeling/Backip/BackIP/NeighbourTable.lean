import Backip.BackIP.Header
import Backip.Lib.Argmax
import Backip.System.Types
import Mathlib.Algebra.Group.Int.Defs
import Mathlib.Algebra.Group.Nat.Defs
import Mathlib.Data.Int.Order.Basic
import Mathlib

/-!
# The neighbour table (`neighbour_table_t` of `BackIPBeaconingP.nc`)

A `NeighbourTable` is the table with its `num_curr_neighbours` entries in use, in the order they
were made. An entry's transmission time is never zero, which is what `updateNeighbour` divides by;
the entry carries the proof.

`update` is what the three `nt_update_neighbour_…` functions share: find the entry of an address, or
make one if there is room, and change it.
-/

set_option autoImplicit false

namespace BackIP

/-- `neighbour_table_entry_t`. -/
structure NeighbourTableEntry where
  llAddr : LlAddr
  backpressure : UInt32
  etx : UInt16
  txTime : UInt16
  txTime_pos : 0 < txTime.toNat
deriving DecidableEq, Repr

structure NeighbourTable where
  entry : List NeighbourTableEntry
  length_le : entry.length ≤ maxNeighbours
deriving DecidableEq, Repr

/-- `_cmp_ll_addr`: addresses of the same mode, short or extended, with the same bytes. -/
def cmpLlAddr : LlAddr → LlAddr → Bool
  | .short a₁, .short a₂ => a₁ == a₂
  | .ext a₁, .ext a₂ => a₁ == a₂
  | _, _ => false

namespace NeighbourTableEntry

/-- What `_get_neighbour_index` initialises an entry to. -/
def new (llAddr : LlAddr) : NeighbourTableEntry where
  llAddr := llAddr
  etx := 100
  backpressure := 255
  txTime := 1
  txTime_pos := by decide

/-- The moving average of `nt_update_neighbour_ETX`, cut to 16 bits when it is stored. -/
def updateEtx (e : NeighbourTableEntry) (etx : UInt16) : NeighbourTableEntry :=
  let newEtx := (e.etx.toNat * linkEtxAlpha + etx.toNat * 100 * (100 - linkEtxAlpha)) / 100
  { e with etx := UInt16.ofNat newEtx }

/-- The average of two positive times of 16 bits is one. -/
theorem average_pos {old new : Nat} (h1 : 0 < old) (h2 : old < 2 ^ 16) (h3 : 0 < new)
    (h4 : new < 2 ^ 16) :
    0 < (UInt16.ofNat ((linkTxTimeAlpha * old + (10 - linkTxTimeAlpha) * new) / 10)).toNat := by
  simp only [linkTxTimeAlpha]
  have hlt : (9 * old + (10 - 9) * new) / 10 < 2 ^ 16 := by omega
  rw [UInt16.toNat_ofNat', Nat.mod_eq_of_lt hlt]
  omega

/-- The moving average of `nt_update_neighbour_tx_time`; a time of zero counts as one. -/
def updateTxTime (e : NeighbourTableEntry) (txTime : UInt16) : NeighbourTableEntry :=
  let newTxTime := if txTime.toNat = 0 then 1 else txTime.toNat
  { e with
    txTime := UInt16.ofNat
      ((linkTxTimeAlpha * e.txTime.toNat + (10 - linkTxTimeAlpha) * newTxTime) / 10)
    txTime_pos := by
      have h := txTime.toNat_lt
      exact average_pos e.txTime_pos e.txTime.toNat_lt (by dsimp only [newTxTime]; split <;> omega)
        (by dsimp only [newTxTime]; split <;> omega) }

/-- `curr_weight` in the scan of `updateNeighbour`: computed in 32 unsigned bits, read as a signed
number. -/
def currWeight (myBP : Nat) (e : NeighbourTableEntry) : Int :=
  let etx := linkEtxV * e.etx.toNat / 100
  let rate := 10000 / e.txTime.toNat
  (((myBP : Int) - e.backpressure.toNat - etx) * rate).bmod (2 ^ 32)

end NeighbourTableEntry

namespace NeighbourTable

def empty : NeighbourTable := ⟨[], by decide⟩

theorem length_snoc_le (t : NeighbourTable) (h : t.entry.length ≠ maxNeighbours)
    (e : NeighbourTableEntry) : (t.entry ++ [e]).length ≤ maxNeighbours := by
  have := t.length_le
  rw [List.length_append, List.length_singleton]
  omega

/-- `_get_neighbour_index`: the index of the entry of `llAddr` and the table, with a new entry if
there was none and there is room. -/
def getNeighbourIndex (t : NeighbourTable) (llAddr : LlAddr) : Option (Nat × NeighbourTable) :=
  match t.entry.findIdx? fun e => cmpLlAddr llAddr e.llAddr with
  | some idx => some (idx, t)
  | none =>
    if h : t.entry.length = maxNeighbours then none
    else
      some (t.entry.length,
        ⟨t.entry ++ [.new llAddr], t.length_snoc_le h _⟩)

/-- Change the entry of `llAddr`. -/
def update (t : NeighbourTable) (llAddr : LlAddr)
    (f : NeighbourTableEntry → NeighbourTableEntry) : NeighbourTable :=
  match t.getNeighbourIndex llAddr with
  | some (idx, t) => ⟨t.entry.modify idx f, by rw [List.length_modify]; exact t.length_le⟩
  | none => t

/-- `nt_update_neighbour_ETX`. -/
def updateNeighbourEtx (t : NeighbourTable) (llAddr : LlAddr) (etx : UInt16) : NeighbourTable :=
  t.update llAddr (·.updateEtx etx)

/-- `nt_update_neighbour_backpressure`. -/
def updateNeighbourBackpressure (t : NeighbourTable) (llAddr : LlAddr) (backpressure : UInt32) :
    NeighbourTable :=
  t.update llAddr fun e => { e with backpressure }

/-- `nt_update_neighbour_tx_time`. -/
def updateNeighbourTxTime (t : NeighbourTable) (llAddr : LlAddr) (txTime : UInt16) :
    NeighbourTable :=
  t.update llAddr (·.updateTxTime txTime)

/-- The scan of `updateNeighbour`: `best_idx`, if some weight is above -1, and `max_weight`. -/
def best (t : NeighbourTable) (myBP : Nat) : Option Nat × Int :=
  Argmax.scan (NeighbourTableEntry.currWeight myBP) t.entry 0 (none, -1)

/-- `BackIPLinkResultInterface.updateNeighbour` with the local backpressure `myBP`: the entry whose
address it installs, or `none` where it returns -1. -/
def updateNeighbour (t : NeighbourTable) (myBP : Nat) : Option NeighbourTableEntry :=
  if t.entry.length = 0 then none
  else if (t.best myBP).2 = -1 then none
  else (t.best myBP).1.bind fun bestIdx => t.entry[bestIdx]?

end NeighbourTable

end BackIP

/-! ## In the platform's words

What the table computes with integers above, `BackIPBeaconingP` computes in the words of its
platform, whose `int` has 16 or 32 bits: the weights of `updateNeighbour` in `uint32_t`, read as
signed numbers, and the average of `nt_update_neighbour_ETX` in the promoted type of two `uint16_t`.
The functions here also return what the source returns, and `selectNeighbour` sets the current
neighbour. -/

namespace BackIP

namespace NeighbourTableEntry

/-- `curr_weight` of `updateNeighbour` -/
def weightWord (w : IntWidth) (myBP : UInt32) (e : NeighbourTableEntry) : Int :=
  let etx : UInt32 := .ofNat (w.wrap (linkEtxV * e.etx.toNat) / 100)
  let rate : UInt32 := .ofNat (10000 / e.txTime.toNat)
  ((myBP - e.backpressure - etx) * rate).toBitVec.toInt

/-- The new average of `nt_update_neighbour_ETX`. The products and their sum have the promoted type;
`newETX`, which is divided, has 32 bits, and is stored in 16. -/
def averageEtx (w : IntWidth) (oldEtx etx : UInt16) : UInt16 :=
  let newEtx := w.wrap (w.wrap (oldEtx.toNat * linkEtxAlpha) +
    w.wrap (w.wrap (etx.toNat * 100) * (100 - linkEtxAlpha)))
  .ofNat (newEtx / 100)

/-- `nt_update_neighbour_ETX`, at its entry -/
def updateEtxWord (w : IntWidth) (e : NeighbourTableEntry) (etx : UInt16) : NeighbourTableEntry :=
  { e with etx := averageEtx w e.etx etx }

end NeighbourTableEntry

namespace NeighbourTable

/-- `BackIPLinkResultInterface.updateNeighbour`, with `curr_nb_ll_addr` that `setNeighbour` sets -/
def selectNeighbour (w : IntWidth) (t : NeighbourTable) (myBP : UInt32) (currNbLlAddr : LlAddr) :
    Int × LlAddr :=
  if t.entry.length = 0 then (-1, currNbLlAddr)
  else
    let best := Argmax.scan (NeighbourTableEntry.weightWord w myBP) t.entry 0 (none, -1)
    if best.2 = -1 then (-1, currNbLlAddr)
    else
      match best.1.bind fun bestIdx => t.entry[bestIdx]? with
      | some e => (0, e.llAddr)
      | none => (0, currNbLlAddr)

/-- What the `nt_update_neighbour_…` functions share: -1 if there is no room for a new entry. -/
def ntUpdate (t : NeighbourTable) (llAddr : LlAddr) (f : NeighbourTableEntry → NeighbourTableEntry) :
    Int × NeighbourTable :=
  match t.getNeighbourIndex llAddr with
  | some (idx, t) => (0, ⟨t.entry.modify idx f, by rw [List.length_modify]; exact t.length_le⟩)
  | none => (-1, t)

/-- `nt_update_neighbour_ETX` -/
def ntUpdateNeighbourEtx (w : IntWidth) (t : NeighbourTable) (llAddr : LlAddr) (etx : UInt16) :
    Int × NeighbourTable :=
  t.ntUpdate llAddr (·.updateEtxWord w etx)

/-- `nt_update_neighbour_backpressure` -/
def ntUpdateNeighbourBackpressure (t : NeighbourTable) (llAddr : LlAddr) (backpressure : UInt32) :
    Int × NeighbourTable :=
  t.ntUpdate llAddr fun e => { e with backpressure }

/-- `nt_update_neighbour_tx_time` -/
def ntUpdateNeighbourTxTime (t : NeighbourTable) (llAddr : LlAddr) (txTime : UInt16) :
    Int × NeighbourTable :=
  t.ntUpdate llAddr (·.updateTxTime txTime)

end NeighbourTable

end BackIP
