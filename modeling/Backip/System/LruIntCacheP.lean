import Backip.Lib.Machine
import Backip.Lib.Recency
import Mathlib.Data.Nat.ModEq

/-!
# The cache of recent keys (`tos/system/LruIntCacheP.nc`)

`LruIntCacheP α size` is the state of one `LruIntCacheP` instance: the array `cache`, used as a ring,
whose `count` keys stand in the cells from `first` on. `toList` is the abstraction, the keys from the
first on: `toList_remove` and `toList_push` are what `remove` and the end of `Cache.insert` do to it.

`Cache.insert` looks for the key only if the cache is full. So the cache holds the most recent keys
exactly as long as no key that it has is inserted before it is full (`holds_recent_iff`).
-/

set_option autoImplicit false

structure LruIntCacheP (α : Type) (size : Nat) where
  cache : Nat → α
  first : Nat
  count : Nat
  first_lt : first < size
  count_le : count ≤ size

namespace LruIntCacheP

variable {α : Type} {size : Nat}

/-- `Init.init`, with `cache` the array's contents. -/
def init (cache : Nat → α) (hsize : 0 < size) : LruIntCacheP α size where
  cache := cache
  first := 0
  count := 0
  first_lt := hsize
  count_le := Nat.zero_le _

/-- The cell of the key with index `i`, relative to `first`. -/
def cell (c : LruIntCacheP α size) (i : Nat) : Nat := (i + c.first) % size

/-- The keys, from the first on. -/
def toList (c : LruIntCacheP α size) : List α := (List.range c.count).map fun i => c.cache (c.cell i)

/-- The loop of `remove`: the `m` keys behind the one with index `i` are shifted down. -/
def shift (c : LruIntCacheP α size) (i m : Nat) : Nat → α :=
  (List.range' i m).foldl (fun cache j =>
    Function.update cache (c.cell j) (cache ((j + c.first + 1) % size))) c.cache

/-- `remove`: the key with index `i`, relative to `first`. -/
def remove (c : LruIntCacheP α size) (i : Nat) : LruIntCacheP α size :=
  if i ≥ c.count then c
  else
    { cache := if i = 0 then c.cache else c.shift i (c.count - i)
      first := if i = 0 then (c.first + 1) % size else c.first
      count := c.count - 1
      first_lt := by
        split
        · exact Nat.mod_lt _ (Nat.zero_lt_of_lt c.first_lt)
        · exact c.first_lt
      count_le := Nat.le_trans (Nat.sub_le _ _) c.count_le }

/-- The end of `Cache.insert`. -/
def push (c : LruIntCacheP α size) (key : α) (h : c.count < size) : LruIntCacheP α size where
  cache := Function.update c.cache ((c.first + c.count) % size) key
  first := c.first
  count := c.count + 1
  first_lt := c.first_lt
  count_le := h

theorem count_remove_lt {c : LruIntCacheP α size} {i : Nat} (h : i < c.count) :
    (c.remove i).count < size := by
  have hle := c.count_le
  rw [remove, if_neg (Nat.not_le.2 h)]
  dsimp only
  omega

theorem count_pos {c : LruIntCacheP α size} (h : c.count = size) : 0 < c.count := by
  have hlt := c.first_lt
  omega

section
variable [DecidableEq α]

/-- `lookup`: the index of a key, relative to `first`, or `count`. -/
def find (c : LruIntCacheP α size) (key : α) : Nat :=
  (List.range c.count).findIdx fun i => c.cache (c.cell i) = key

/-- `Cache.lookup`. -/
def lookup (c : LruIntCacheP α size) (key : α) : Bool := c.find key < c.count

/-- `Cache.insert`. -/
def insert (c : LruIntCacheP α size) (key : α) : LruIntCacheP α size :=
  if h : c.count = size then
    (c.remove (c.find key % c.count)).push key
      (count_remove_lt (Nat.mod_lt _ (count_pos h)))
  else c.push key (Nat.lt_of_le_of_ne c.count_le h)

/-- `Cache.flush`. -/
def flush (c : LruIntCacheP α size) : LruIntCacheP α size :=
  .init c.cache (Nat.zero_lt_of_lt c.first_lt)

end

/-! ## The operations on the list of keys -/

variable {c : LruIntCacheP α size} {i j : Nat}

@[simp] theorem length_toList (c : LruIntCacheP α size) : c.toList.length = c.count := by
  rw [toList, List.length_map, List.length_range]

theorem cell_inj (hi : i < size) (hj : j < size) (h : c.cell i = c.cell j) : i = j := by
  have hmod : i ≡ j [MOD size] := Nat.ModEq.add_right_cancel' c.first h
  rwa [Nat.ModEq, Nat.mod_eq_of_lt hi, Nat.mod_eq_of_lt hj] at hmod

/-- What is behind the last key that is shifted is not written before it is read. -/
theorem shift_cell {m : Nat} (hi : 0 < i) (hm : i + m ≤ size) (hj : j < size) :
    c.shift i m (c.cell j) =
      c.cache (if i ≤ j ∧ j < i + m then (j + c.first + 1) % size else c.cell j) := by
  induction m generalizing j with
  | zero =>
    rw [if_neg (by omega)]
    rfl
  | succ m ih =>
    have hread : c.shift i m ((i + m + c.first + 1) % size) = c.cache ((i + m + c.first + 1) % size) := by
      by_cases hend : i + m + 1 = size
      · -- the cell behind the last one is the first one
        have hzero : (i + m + c.first + 1) % size = c.cell 0 := by
          rw [cell, show i + m + c.first + 1 = 0 + c.first + size by omega, Nat.add_mod_right]
        rw [hzero, ih (by omega) (by omega), if_neg (by omega)]
      · have hcell : (i + m + c.first + 1) % size = c.cell (i + m + 1) := by
          rw [cell]
          congr 1
          omega
        rw [hcell, ih (by omega) (by omega), if_neg (by omega)]
    rw [shift, List.range'_1_concat, List.foldl_append, List.foldl_cons, List.foldl_nil]
    change Function.update (c.shift i m) (c.cell (i + m)) (c.shift i m ((i + m + c.first + 1) % size))
      (c.cell j) = _
    rw [hread]
    by_cases hj' : j = i + m
    · rw [hj', Function.update_self, if_pos (by omega)]
    · rw [Function.update_of_ne fun h => hj' (cell_inj hj (by omega) h), ih (by omega) hj]
      have hiff : i ≤ j ∧ j < i + m ↔ i ≤ j ∧ j < i + (m + 1) := by omega
      rw [if_congr hiff rfl rfl]

/-- `remove` takes one key out. -/
theorem toList_remove (h : i < c.count) : (c.remove i).toList = c.toList.eraseIdx i := by
  have hle := c.count_le
  rw [remove, if_neg (Nat.not_le.2 h)]
  refine List.ext_getElem ?_ fun j hj hj' => ?_
  · rw [length_toList, List.length_eraseIdx, length_toList, if_pos h]
  · simp only [toList, List.length_map, List.length_range] at hj
    simp only [toList, List.getElem_map, List.getElem_range, List.getElem_eraseIdx]
    by_cases hzero : i = 0
    · simp only [hzero, if_pos, cell, Nat.not_lt_zero, dif_neg, not_false_eq_true]
      rw [Nat.add_mod_mod]
      congr 2
      omega
    · have hshift := shift_cell (c := c) (m := c.count - i) (Nat.pos_of_ne_zero hzero) (by omega)
        (show j < size by omega)
      simp only [if_neg hzero]
      refine hshift.trans ?_
      split
      · rw [dif_neg (by omega), cell]
        congr 2
        omega
      · rw [dif_pos (by omega)]

/-- A key goes behind the others. -/
theorem toList_push (key : α) (h : c.count < size) : (c.push key h).toList = c.toList ++ [key] := by
  have hkeep : ∀ i ∈ List.range c.count,
      Function.update c.cache (c.cell c.count) key (c.cell i) = c.cache (c.cell i) := by
    intro i hi
    have hlt := List.mem_range.1 hi
    refine Function.update_of_ne (fun heq => ?_) _ _
    have := cell_inj (by omega) h heq
    omega
  rw [toList, push, List.range_succ, List.map_append, List.map_singleton]
  dsimp only
  rw [show (c.first + c.count) % size = c.cell c.count by rw [cell, Nat.add_comm]]
  refine congr (congrArg _ (List.map_congr_left hkeep)) (congrArg (fun x => [x]) ?_)
  exact Function.update_self _ _ _

variable [DecidableEq α] {key : α}

theorem find_eq (c : LruIntCacheP α size) (key : α) : c.find key = c.toList.idxOf key := by
  rw [find, toList, List.idxOf, List.findIdx_map]
  rfl

theorem lookup_iff : c.lookup key = true ↔ key ∈ c.toList := by
  rw [lookup, decide_eq_true_iff, find_eq, ← length_toList, List.idxOf_lt_length_iff]

/-- **`Cache.insert`** on the list of keys. -/
theorem toList_insert (c : LruIntCacheP α size) (key : α) :
    (c.insert key).toList =
      (if c.count = size then if key ∈ c.toList then c.toList.erase key else c.toList.tail
        else c.toList) ++ [key] := by
  rw [insert]
  by_cases hfull : c.count = size
  · rw [dif_pos hfull, toList_push, toList_remove (Nat.mod_lt _ (count_pos hfull)), if_pos hfull,
      find_eq]
    by_cases hmem : key ∈ c.toList
    · have hlt := List.idxOf_lt_length_of_mem hmem
      rw [length_toList] at hlt
      rw [if_pos hmem, Nat.mod_eq_of_lt hlt, List.erase_eq_eraseIdx_of_idxOf rfl]
    · rw [if_neg hmem, List.idxOf_eq_length hmem, length_toList, Nat.mod_self, List.eraseIdx_zero]
  · rw [dif_neg hfull, toList_push, if_neg hfull]

/-! ## Runs -/

open Recency (recent)

/-- A cache, and the keys inserted since the last flush. -/
structure Used (α : Type) (size : Nat) where
  cache : LruIntCacheP α size
  keys : List α

inductive Event (α : Type)
  | insert (key : α)
  | lookup (key : α)
  | flush
deriving DecidableEq, Repr

namespace Used

def step (s : Used α size) : Event α → Option (Used α size)
  | .insert key => some ⟨s.cache.insert key, s.keys ++ [key]⟩
  | .lookup _ => some s
  | .flush => some ⟨s.cache.flush, []⟩

/-- From `Init.init` on. -/
def machine (α : Type) [DecidableEq α] (size : Nat) : Machine (Used α size) (Event α) where
  init s := ∃ cache hsize, s = ⟨.init cache hsize, []⟩
  step := step

/-- The cache holds the most recent keys. -/
structure HoldsRecent (s : Used α size) : Prop where
  toList : s.cache.toList = recent size s.keys
  lookup : ∀ key, s.cache.lookup key = true ↔ key ∈ recent size s.keys

/-- A key that the cache has is only inserted into a full one. -/
def Refreshes (s : Used α size) : Event α → Prop
  | .insert key => s.cache.lookup key = true → s.cache.count = size
  | _ => True

instance (s : Used α size) : DecidablePred s.Refreshes
  | .insert _ => inferInstanceAs (Decidable (_ → _))
  | .lookup _ | .flush => .isTrue trivial

variable {s s' : Used α size}

theorem holdsRecent_iff : s.HoldsRecent ↔ s.cache.toList = recent size s.keys :=
  ⟨fun h => h.toList, fun h => ⟨h, fun _ => h ▸ lookup_iff⟩⟩

theorem insert_iff (h : s.cache.toList = recent size s.keys) (key : α) :
    (s.cache.insert key).toList = recent size (s.keys ++ [key]) ↔ s.Refreshes (.insert key) := by
  have hpos : 0 < size := Nat.zero_lt_of_lt s.cache.first_lt
  have hle := s.cache.count_le
  have hlen := s.cache.length_toList
  rw [toList_insert, Recency.recent_concat hpos, ← h, List.append_cancel_right_eq, Refreshes, lookup_iff,
    hlen]
  by_cases hfull : s.cache.count = size
  · rw [if_pos hfull, if_neg (show ¬s.cache.count < size by omega)]
    exact iff_of_true rfl fun _ => hfull
  · rw [if_neg hfull, if_pos (show s.cache.count < size by omega)]
    by_cases hmem : key ∈ s.cache.toList
    · rw [if_pos hmem]
      refine iff_of_false (fun heq => ?_) fun hc => hfull (hc hmem)
      have herase := List.length_erase_of_mem hmem
      rw [← heq] at herase
      have hmempos := List.length_pos_of_mem hmem
      omega
    · rw [if_neg hmem]
      exact iff_of_true rfl fun hc => absurd hc hmem

theorem step_iff {e : Event α} (h : s.HoldsRecent) (hs : s.step e = some s') :
    s'.HoldsRecent ↔ s.Refreshes e := by
  cases e with
  | insert key =>
    cases hs
    exact holdsRecent_iff.trans (insert_iff h.toList key)
  | lookup key =>
    cases hs
    exact iff_of_true h trivial
  | flush =>
    cases hs
    exact iff_of_true (holdsRecent_iff.2 (Recency.recent_nil size).symm) trivial

end Used

open Used

/-- **The cache holds the most recent keys**, exactly as long as no key that it has is inserted before it
is full. -/
theorem holds_recent_iff {h : List (Used α size × Event α)} {s : Used α size}
    (hr : (machine α size).Run h s) :
    (s.HoldsRecent ∧ ∀ p ∈ h, p.1.HoldsRecent) ↔ ∀ p ∈ h, p.1.Refreshes p.2 := by
  refine hr.forall_iff (I := fun _ => True) ⟨fun _ _ => trivial, fun _ _ _ _ _ => trivial⟩ ?_
    fun _ _ _ _ h hs => step_iff h hs
  rintro s ⟨cache, hsize, rfl⟩
  exact holdsRecent_iff.2 (Recency.recent_nil size).symm

/-- A key is refreshed in a full cache of two. -/
theorem holds_recent_two : ∃ h s, (machine Nat 2).Run h s ∧
    (s.HoldsRecent ∧ ∀ p ∈ h, p.1.HoldsRecent) ∧ s.cache.toList = [6, 5] := by
  obtain ⟨h, s, hr, hs⟩ := Machine.exists_run_of_exec (M := machine Nat 2)
    (s := ⟨.init (fun _ => 0) (by decide), []⟩) ⟨_, _, rfl⟩ [.insert 5, .insert 6, .insert 5]
    (fun h s => s.cache.toList = [6, 5] && h.all fun p => p.1.Refreshes p.2) (by decide)
  simp only [Bool.and_eq_true, List.all_eq_true, decide_eq_true_eq] at hs
  exact ⟨h, s, hr, (holds_recent_iff hr).2 hs.2, hs.1⟩

/-- A key is inserted twice into a cache of two that has room. -/
theorem holds_twice : ∃ h s, (machine Nat 2).Run h s ∧ s.keys = [5, 5] ∧
    s.cache.toList = [5, 5] ∧ recent 2 s.keys = [5] ∧ ¬s.HoldsRecent := by
  obtain ⟨h, s, hr, hs⟩ := Machine.exists_run_of_exec (M := machine Nat 2)
    (s := ⟨.init (fun _ => 0) (by decide), []⟩) ⟨_, _, rfl⟩ [.insert 5, .insert 5]
    (fun _ s => s.keys = [5, 5] && s.cache.toList = [5, 5] && recent 2 s.keys = [5]) (by decide)
  simp only [Bool.and_eq_true, decide_eq_true_eq] at hs
  obtain ⟨⟨hkeys, hlist⟩, hrecent⟩ := hs
  refine ⟨h, s, hr, hkeys, hlist, hrecent, fun hh => ?_⟩
  have heq := hlist.symm.trans (hh.toList.trans hrecent)
  cases heq

end LruIntCacheP
