import Backip.Lib.Machine
import Backip.Lib.Splice

/-!
# The routing table (`tos/lib/net/blip/IPForwardingEngineP.nc`)

The table is an array of `ROUTE_TABLE_SZ` entries, here `size`, that is searched from the top.
`addRoute` overwrites the entry of a route that is there already, or moves the entries with shorter
prefixes down and fills the gap; `delRoute` moves the entries below up.

An `int` is an integer: a run that adds fewer than 2^15 routes does not come to the end of its range
(`last_key_le` in `Backip.Blip.Proof.Routes`).
-/

set_option autoImplicit false

namespace Blip

abbrev In6Addr : Type := Vector UInt8 16

/-- `struct route_entry`. -/
structure RouteEntry where
  valid : Bool
  key : Int
  pfx : In6Addr
  prefixlen : Nat
  nextHop : In6Addr
  ifindex : UInt8
deriving DecidableEq, Repr

/-- `ROUTE_INVAL_KEY`. -/
abbrev routeInvalKey : Int := -1

/-- An entry that is all zeros. -/
def RouteEntry.zero : RouteEntry where
  valid := false
  key := 0
  pfx := Vector.replicate 16 0
  prefixlen := 0
  nextHop := Vector.replicate 16 0
  ifindex := 0

/-- `memcmp` finds the first `n` bytes equal. -/
def samePrefix (n : Nat) (a b : In6Addr) : Bool := a.toList.take n == b.toList.take n

/-- `memcpy` of the first `n` bytes. -/
def copyPrefix (n : Nat) (dst src : In6Addr) : In6Addr :=
  .ofFn fun i => if i.val < n then src[i] else dst[i]

/-- Whether `lookupRoute` takes an entry. -/
def RouteEntry.isMatch (dst : In6Addr) (bits : Nat) (e : RouteEntry) : Bool :=
  e.valid && (e.prefixlen == 0 ||
    samePrefix (min bits e.prefixlen / 8) dst e.pfx && bits != 0)

/-- What `addRoute` writes into its entry. A `NULL` next hop leaves the old one. -/
def RouteEntry.fill (e : RouteEntry) (pfx : In6Addr) (bits : Nat) (nextHop : Option In6Addr)
    (ifindex : UInt8) : RouteEntry :=
  { e with
    prefixlen := bits
    ifindex := ifindex
    pfx := copyPrefix (bits / 8) e.pfx pfx
    nextHop := nextHop.getD e.nextHop }

/-- `routing_table` and `last_key`. -/
structure RoutingTable (size : Nat) where
  table : List RouteEntry
  lastKey : Int
  length_table : table.length = size

namespace RoutingTable

variable {size : Nat}

/-- `Init.init`. -/
def init (size : Nat) : RoutingTable size where
  table := List.replicate size .zero
  lastKey := 1
  length_table := List.length_replicate

/-- Whether `alloc_key` tries again. -/
def keyInUse (table : List RouteEntry) (key : Int) : Bool :=
  table.any fun e => e.valid && e.key == key

theorem countP_lt_of_keyInUse {table : List RouteEntry} {key : Int}
    (h : keyInUse table key = true) :
    table.countP (fun e => e.valid && key + 1 ≤ e.key) <
      table.countP (fun e => e.valid && key ≤ e.key) := by
  induction table with
  | nil => cases h
  | cons e table ih =>
    have hmono : table.countP (fun e => e.valid && key + 1 ≤ e.key) ≤
        table.countP (fun e => e.valid && key ≤ e.key) := by
      refine List.countP_mono_left fun e _ he => ?_
      simp only [Bool.and_eq_true, decide_eq_true_eq] at he ⊢
      exact ⟨he.1, by omega⟩
    rw [keyInUse, List.any_cons, Bool.or_eq_true] at h
    simp only [List.countP_cons]
    by_cases hhead : e.valid = true ∧ e.key = key
    · obtain ⟨hvalid, rfl⟩ := hhead
      have hin : e.key ≤ e.key := by omega
      have hout : ¬e.key + 1 ≤ e.key := by omega
      simp only [hvalid, hin, hout, Bool.true_and, decide_true, decide_false, Bool.false_eq_true,
        if_true, if_false]
      omega
    · have hrest := ih (h.resolve_left (by simpa using hhead))
      have hone : (if (e.valid && decide (key + 1 ≤ e.key)) = true then 1 else 0) ≤
          if (e.valid && decide (key ≤ e.key)) = true then 1 else 0 := by
        cases e.valid with
        | false => simp
        | true =>
          simp only [Bool.true_and, decide_eq_true_eq]
          split <;> split <;> omega
      omega

/-- `alloc_key`: the key; `last_key` is one more. -/
def allocKey (table : List RouteEntry) (key : Int) : Int :=
  if h : keyInUse table key = true then allocKey table (key + 1) else key
termination_by table.countP (fun e => e.valid && key ≤ e.key)
decreasing_by exact countP_lt_of_keyInUse h

/-- The slot that `alloc_entry` takes. -/
def slot (table : List RouteEntry) (pfxlen : Nat) : Option Nat :=
  table.findIdx? fun e => !e.valid || decide (e.prefixlen < pfxlen)

/-- The table with the slot made free: from a valid entry on, the entries are moved down. -/
def shiftDown (table : List RouteEntry) (i : Nat) : List RouteEntry :=
  if (table.getD i .zero).valid then
    splice table (i + 1) ((table.drop i).take (table.length - i - 1))
  else table

theorem length_shiftDown (table : List RouteEntry) (i : Nat) :
    (shiftDown table i).length = table.length := by
  unfold shiftDown
  split
  · rename_i hvalid
    by_cases hi : i < table.length
    · refine length_splice ?_
      rw [List.length_take, List.length_drop]
      omega
    · rw [List.getD_eq_getElem?_getD, List.getElem?_eq_none (by omega)] at hvalid
      cases hvalid
  · rfl

/-- `alloc_entry`: the index of the entry (`none`: `NULL`). -/
def allocEntry (t : RoutingTable size) (pfxlen : Nat) : Option Nat × RoutingTable size :=
  if (t.table.getD (size - 1) .zero).valid then (none, t)
  else
    match slot t.table pfxlen with
    | none => (none, t)
    | some i =>
      let entry := { (shiftDown t.table i).getD i .zero with valid := true }
      let table := (shiftDown t.table i).set i entry
      let key := allocKey table t.lastKey
      (some i,
        { table := table.set i { entry with key := key }
          lastKey := key + 1
          length_table := by
            rw [List.length_set, List.length_set, length_shiftDown, t.length_table] })

/-- `ForwardingTable.lookupRoute`: the index of the entry (`none`: `NULL`). -/
def lookupRoute (t : RoutingTable size) (dst : In6Addr) (bits : Nat) : Option Nat :=
  t.table.findIdx? (RouteEntry.isMatch dst bits)

/-- The entry of `addRoute`, and whether it posts `defaultRouteAddedTask`. -/
def entryFor (t : RoutingTable size) (pfx : In6Addr) (bits : Nat) :
    (Option Nat × RoutingTable size) × Bool :=
  match t.lookupRoute pfx bits with
  | some i =>
    if (t.table.getD i .zero).prefixlen ≠ bits then (t.allocEntry bits, bits == 0)
    else ((some i, t), false)
  | none => (t.allocEntry bits, bits == 0)

/-- The table with entry `i` filled in. -/
def fillAt (t : RoutingTable size) (i : Nat) (pfx : In6Addr) (bits : Nat)
    (nextHop : Option In6Addr) (ifindex : UInt8) : RoutingTable size :=
  { t with
    table := t.table.set i ((t.table.getD i .zero).fill pfx bits nextHop ifindex)
    length_table := by rw [List.length_set, t.length_table] }

@[simp] theorem fillAt_table (t : RoutingTable size) (i : Nat) (pfx : In6Addr) (bits : Nat)
    (nextHop : Option In6Addr) (ifindex : UInt8) :
    (t.fillAt i pfx bits nextHop ifindex).table =
      t.table.set i ((t.table.getD i .zero).fill pfx bits nextHop ifindex) := rfl

/-- `ForwardingTable.addRoute`: the key, and whether it posts `defaultRouteAddedTask`. -/
def addRoute (t : RoutingTable size) (pfx : In6Addr) (bits : Nat) (nextHop : Option In6Addr)
    (ifindex : UInt8) : (Int × Bool) × RoutingTable size :=
  if bits % 8 ≠ 0 ∨ 128 < bits then ((routeInvalKey, false), t)
  else
    match t.entryFor pfx bits with
    | ((none, t), added) => ((routeInvalKey, added), t)
    | ((some i, t), added) =>
      (((t.table.getD i .zero).key, added), t.fillAt i pfx bits nextHop ifindex)

/-- The entries below `i`, moved up. -/
def shiftUp (table : List RouteEntry) (i : Nat) : List RouteEntry :=
  splice table i (table.drop (i + 1))

theorem length_shiftUp {table : List RouteEntry} {i : Nat} (hi : i < table.length) :
    (shiftUp table i).length = table.length := by
  refine length_splice ?_
  rw [List.length_drop]
  omega

/-- The table without the entry `i`: the entries below move up, and the last is made free. -/
def removeAt (t : RoutingTable size) (i : Nat) (hi : i < t.table.length) : RoutingTable size :=
  { t with
    table := (shiftUp t.table i).set (size - 1)
      { (shiftUp t.table i).getD (size - 1) .zero with valid := false }
    length_table := by rw [List.length_set, length_shiftUp hi, t.length_table] }

@[simp] theorem removeAt_table (t : RoutingTable size) (i : Nat) (hi : i < t.table.length) :
    (t.removeAt i hi).table = (shiftUp t.table i).set (size - 1)
      { (shiftUp t.table i).getD (size - 1) .zero with valid := false } := rfl

/-- `ForwardingTable.delRoute`: whether it returns `SUCCESS`, and whether it signals
`defaultRouteRemoved`. -/
def delRoute (t : RoutingTable size) (key : Int) : (Bool × Bool) × RoutingTable size :=
  match h : t.table.findIdx? (fun e => e.key == key) with
  | none => ((false, false), t)
  | some i =>
    ((true, (t.table.getD i .zero).prefixlen == 0),
      t.removeAt i (List.findIdx?_eq_some_iff_getElem.1 h).1)

/-! ## Runs -/

/-- The calls that change the table. -/
inductive Event
  | addRoute (pfx : In6Addr) (bits : Nat) (nextHop : Option In6Addr) (ifindex : UInt8)
  | delRoute (key : Int)

def step (t : RoutingTable size) : Event → RoutingTable size
  | .addRoute pfx bits nextHop ifindex => (t.addRoute pfx bits nextHop ifindex).2
  | .delRoute key => (t.delRoute key).2

def machine (size : Nat) : Machine (RoutingTable size) Event where
  init t := t = init size
  step t e := some (t.step e)

end RoutingTable

end Blip
