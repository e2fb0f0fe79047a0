import Backip.BackIP.Beaconing
import Backip.BackIP.NeighbourTable
import Mathlib.Data.List.Nodup

/-!
# Calls that update the neighbour table

* `ntUpdate_cases`: a call changes the entry of its address, makes one, or does nothing and returns
  -1; `tableIntegrity`: in every run of calls the entries have different addresses.
* `estimate_iff`: on the mote, with its `int` of 16 bits, the link estimate is the average that it
  should be exactly as long as the sum that is divided fits into 16 bits.
-/

set_option autoImplicit false

namespace BackIP

namespace NeighbourTableEntry

variable {e : NeighbourTableEntry}

/-! ## The link estimate -/

/-- The estimate of an entry that nodes can have. -/
def InRange (e : NeighbourTableEntry) : Prop := 100 ≤ e.etx.toNat ∧ e.etx.toNat ≤ 1000

/-- The update to `e'` at the sample `etx` is right: the new estimate is the average, in the range,
and is not lowered by a sample that is not below it. -/
structure Averages (e : NeighbourTableEntry) (etx : UInt16) (e' : NeighbourTableEntry) : Prop where
  average : e'.etx.toNat = (90 * e.etx.toNat + 1000 * etx.toNat) / 100
  range : e'.InRange
  kept : e.etx.toNat ≤ 100 * etx.toNat → e.etx.toNat ≤ e'.etx.toNat

/-- A sample that `BackIPQueueingP` passes. -/
def Passed (etx : UInt16) : Prop := 1 ≤ etx.toNat ∧ etx.toNat ≤ 2 * maxRetxAttempts

/-- The sum that is divided fits into 16 bits. -/
def Fits16 (e : NeighbourTableEntry) (etx : UInt16) : Prop :=
  90 * e.etx.toNat + 1000 * etx.toNat < 2 ^ 16

/-- What the mote stores. -/
theorem toNat_averageEtx_bits16 (oldEtx etx : UInt16) :
    (averageEtx .bits16 oldEtx etx).toNat =
      (90 * oldEtx.toNat + 1000 * etx.toNat) % 2 ^ 16 / 100 := by
  have hsum : IntWidth.bits16.wrap (IntWidth.bits16.wrap (oldEtx.toNat * linkEtxAlpha) +
      IntWidth.bits16.wrap (IntWidth.bits16.wrap (etx.toNat * 100) * (100 - linkEtxAlpha))) =
      (90 * oldEtx.toNat + 1000 * etx.toNat) % 2 ^ 16 := by
    simp only [IntWidth.wrap, IntWidth.modulus, linkEtxAlpha]
    omega
  unfold averageEtx
  dsimp only
  rw [hsum, UInt16.toNat_ofNat']
  exact Nat.mod_eq_of_lt (by omega)

/-- One sample: the mote's update is right exactly if the sum fits. -/
theorem averages_iff {etx : UInt16} (he : e.InRange) (hs : Passed etx) :
    Averages e etx (e.updateEtxWord .bits16 etx) ↔ e.Fits16 etx := by
  have hnew : (e.updateEtxWord .bits16 etx).etx.toNat =
      (90 * e.etx.toNat + 1000 * etx.toNat) % 2 ^ 16 / 100 := toNat_averageEtx_bits16 _ _
  obtain ⟨hlo, hhi⟩ := he
  obtain ⟨hs1, hs2⟩ := hs
  simp only [maxRetxAttempts] at hs2
  unfold Fits16
  constructor
  · intro h
    have haverage := h.average
    rw [hnew] at haverage
    by_contra hnot
    -- the sum is below `2 ^ 17`, so that it wraps once
    have hwrapped : (90 * e.etx.toNat + 1000 * etx.toNat) % 2 ^ 16 =
        90 * e.etx.toNat + 1000 * etx.toNat - 2 ^ 16 := by omega
    rw [hwrapped] at haverage
    omega
  · intro hfits
    rw [Nat.mod_eq_of_lt hfits] at hnew
    refine ⟨hnew, ⟨?_, ?_⟩, fun _ => ?_⟩ <;> rw [hnew] <;> omega

/-- `P` holds at each of the updates of `e` with the samples, the first one first. -/
def AtEach (P : NeighbourTableEntry → UInt16 → Prop) :
    NeighbourTableEntry → List UInt16 → Prop
  | _, [] => True
  | e, etx :: samples => P e etx ∧ AtEach P (e.updateEtxWord .bits16 etx) samples

instance (P : NeighbourTableEntry → UInt16 → Prop) [∀ e etx, Decidable (P e etx)]
    (e : NeighbourTableEntry) (samples : List UInt16) : Decidable (AtEach P e samples) := by
  induction samples generalizing e with
  | nil => exact .isTrue trivial
  | cons etx samples ih =>
    have := ih (e.updateEtxWord .bits16 etx)
    exact inferInstanceAs (Decidable (_ ∧ _))

theorem atEach_averages_iff (samples : List UInt16) (he : e.InRange)
    (hs : ∀ etx ∈ samples, Passed etx) :
    AtEach (fun e etx => Averages e etx (e.updateEtxWord .bits16 etx)) e samples ↔
      AtEach Fits16 e samples := by
  induction samples generalizing e with
  | nil => exact Iff.rfl
  | cons etx samples ih =>
    obtain ⟨hetx, hs⟩ := List.forall_mem_cons.1 hs
    have hiff := averages_iff he hetx
    constructor
    · rintro ⟨h, hrest⟩
      exact ⟨hiff.1 h, (ih h.range hs).1 hrest⟩
    · rintro ⟨h, hrest⟩
      have h' := hiff.2 h
      exact ⟨h', (ih h'.range hs).2 hrest⟩

/-- **The estimate on the mote.** For every sequence of samples that are passed, every update of a
fresh entry is right, exactly if the sum fits into 16 bits at every update. -/
theorem estimate_iff (llAddr : LlAddr) (samples : List UInt16) (hs : ∀ etx ∈ samples, Passed etx) :
    AtEach (fun e etx => Averages e etx (e.updateEtxWord .bits16 etx)) (new llAddr) samples ↔
      AtEach Fits16 (new llAddr) samples :=
  have hnew : (new llAddr).etx.toNat = 100 := rfl
  atEach_averages_iff samples ⟨by omega, by omega⟩ hs

/-- Nine failures in a row are averaged as they should be. -/
theorem estimate_nine :
    AtEach (fun e etx => Averages e etx (e.updateEtxWord .bits16 etx)) (new (.short 1))
      (List.replicate 9 10) :=
  (estimate_iff (.short 1) (List.replicate 9 10) fun _ h => by
    rw [List.eq_of_mem_replicate h]
    exact ⟨by decide, by decide⟩).2 (by unfold Fits16; decide)

/-- The tenth one makes a bad link the best one of all. -/
theorem estimate_false : ¬ ∀ (llAddr : LlAddr) (samples : List UInt16),
    (∀ etx ∈ samples, Passed etx) →
      AtEach (fun e etx => Averages e etx (e.updateEtxWord .bits16 etx)) (new llAddr) samples := by
  intro hall
  have h := hall (.short 1) (List.replicate 10 10) fun _ h => by
    rw [List.eq_of_mem_replicate h]
    exact ⟨by decide, by decide⟩
  obtain ⟨-, -, -, -, -, -, -, -, -, h, -⟩ := h
  exact absurd h.range.1 (by decide)

end NeighbourTableEntry

namespace NeighbourTable

/-! ## The table -/

/-- An address that can be looked up. -/
def Usable (llAddr : LlAddr) : Prop := llAddr ≠ .none

theorem cmpLlAddr_iff {a : LlAddr} (ha : Usable a) (b : LlAddr) : cmpLlAddr a b = true ↔ a = b := by
  cases a with
  | none => exact absurd rfl ha
  | short a =>
    cases b with
    | none => simp [cmpLlAddr]
    | short b => simp [cmpLlAddr]
    | ext b => simp [cmpLlAddr]
  | ext a =>
    cases b with
    | none => simp [cmpLlAddr]
    | short b => simp [cmpLlAddr]
    | ext b => simp [cmpLlAddr]

/-- The three ways of a call with `f`. -/
inductive Calls (t : NeighbourTable) (llAddr : LlAddr)
    (f : NeighbourTableEntry → NeighbourTableEntry) : Int × NeighbourTable → Prop
  /-- The entry of the address changes. -/
  | known (idx : Nat) (e : NeighbourTableEntry) (t' : NeighbourTable) :
      t.entry[idx]? = some e → e.llAddr = llAddr → t'.entry = t.entry.set idx (f e) →
      Calls t llAddr f (0, t')
  /-- The address is unknown and gets an entry. -/
  | fresh (t' : NeighbourTable) : (∀ e ∈ t.entry, e.llAddr ≠ llAddr) →
      t'.entry = t.entry ++ [f (.new llAddr)] → Calls t llAddr f (0, t')
  /-- The address is unknown and the table is full. -/
  | full : (∀ e ∈ t.entry, e.llAddr ≠ llAddr) → t.entry.length = maxNeighbours →
      Calls t llAddr f (-1, t)

theorem ntUpdate_cases (t : NeighbourTable) {llAddr : LlAddr} (ha : Usable llAddr)
    (f : NeighbourTableEntry → NeighbourTableEntry) : t.Calls llAddr f (t.ntUpdate llAddr f) := by
  unfold ntUpdate getNeighbourIndex
  cases hfind : t.entry.findIdx? fun e => cmpLlAddr llAddr e.llAddr with
  | some idx =>
    obtain ⟨hlt, hcmp, -⟩ := List.findIdx?_eq_some_iff_getElem.1 hfind
    have he := List.getElem?_eq_getElem hlt
    refine .known idx t.entry[idx] _ he ((cmpLlAddr_iff ha _).1 hcmp).symm ?_
    dsimp only
    rw [List.modify_eq_set_getElem?, he]
    rfl
  | none =>
    have hunknown : ∀ e ∈ t.entry, e.llAddr ≠ llAddr := fun e he heq =>
      absurd (List.findIdx?_eq_none_iff.1 hfind e he) (by
        rw [(cmpLlAddr_iff ha e.llAddr).2 heq.symm]
        nofun)
    dsimp only
    by_cases hfull : t.entry.length = maxNeighbours
    · rw [dif_pos hfull]
      exact .full hunknown hfull
    · rw [dif_neg hfull]
      refine .fresh _ hunknown ?_
      dsimp only
      rw [List.modify_eq_set_getElem?]
      simp

end NeighbourTable

/-- The calls; `w` is the width of the platform's `int`. -/
inductive TableCall
  | backpressure (backpressure : UInt32)
  | etx (etx : UInt16)
  | txTime (txTime : UInt16)
deriving DecidableEq, Repr

namespace TableCall

/-- What a call does to the entry of its address. -/
def apply (w : IntWidth) : TableCall → NeighbourTableEntry → NeighbourTableEntry
  | backpressure bp => fun e => { e with backpressure := bp }
  | etx x => (·.updateEtxWord w x)
  | txTime x => (·.updateTxTime x)

/-- The call. -/
def call (w : IntWidth) (t : NeighbourTable) (llAddr : LlAddr) : TableCall → Int × NeighbourTable
  | backpressure bp => t.ntUpdateNeighbourBackpressure llAddr bp
  | etx x => t.ntUpdateNeighbourEtx w llAddr x
  | txTime x => t.ntUpdateNeighbourTxTime llAddr x

/-- Every field of `e'` that the call is not about is that of `e`. -/
def Only (c : TableCall) (e e' : NeighbourTableEntry) : Prop :=
  e'.llAddr = e.llAddr ∧
    match c with
    | backpressure bp => e'.backpressure = bp ∧ e'.etx = e.etx ∧ e'.txTime = e.txTime
    | etx _ => e'.backpressure = e.backpressure ∧ e'.txTime = e.txTime
    | txTime _ => e'.backpressure = e.backpressure ∧ e'.etx = e.etx

theorem only_apply (w : IntWidth) (c : TableCall) (e : NeighbourTableEntry) :
    c.Only e (c.apply w e) := by
  cases c with
  | backpressure bp => exact ⟨rfl, rfl, rfl, rfl⟩
  | etx x => exact ⟨rfl, rfl, rfl⟩
  | txTime x => exact ⟨rfl, rfl, rfl⟩

theorem call_cases (w : IntWidth) (t : NeighbourTable) {llAddr : LlAddr}
    (ha : NeighbourTable.Usable llAddr) (c : TableCall) :
    t.Calls llAddr (c.apply w) (c.call w t llAddr) := by
  cases c with
  | backpressure bp => exact t.ntUpdate_cases ha _
  | etx x => exact t.ntUpdate_cases ha _
  | txTime x => exact t.ntUpdate_cases ha _

end TableCall

namespace NeighbourTable

/-- Calls in any order, from an empty table on. -/
def machine (w : IntWidth) : Machine NeighbourTable (LlAddr × TableCall) where
  init t := t = empty
  step t e := if e.1 = .none then none else some (e.2.call w t e.1).2

/-- The entries have different addresses. -/
def Distinct (t : NeighbourTable) : Prop := (t.entry.map (·.llAddr)).Nodup

theorem Calls.distinct {t : NeighbourTable} {llAddr : LlAddr} {w : IntWidth} {c : TableCall}
    {r : Int × NeighbourTable} (h : t.Distinct) (hc : t.Calls llAddr (c.apply w) r) :
    r.2.Distinct := by
  have haddr : ∀ e, (c.apply w e).llAddr = e.llAddr := fun e => (c.only_apply w e).1
  cases hc with
  | known idx e t' he ha ht' =>
    have hset : (t.entry.set idx (c.apply w e)).map (·.llAddr) = t.entry.map (·.llAddr) := by
      rw [List.map_set, haddr]
      obtain ⟨hlt, rfl⟩ := List.getElem?_eq_some_iff.1 he
      have hlt' : idx < (t.entry.map (·.llAddr)).length := by rwa [List.length_map]
      have hget : (t.entry.map (·.llAddr))[idx] = t.entry[idx].llAddr := List.getElem_map _
      rw [← hget, List.set_getElem_self]
    unfold Distinct
    rw [ht', hset]
    exact h
  | fresh t' hnew ht' =>
    unfold Distinct
    rw [ht', List.map_append, List.nodup_append]
    refine ⟨h, List.nodup_singleton _, ?_⟩
    intro a ha b hb hab
    obtain ⟨e, he, rfl⟩ := List.mem_map.1 ha
    rw [List.map_singleton, List.mem_singleton, haddr] at hb
    exact hnew e he (hab.trans hb)
  | full => exact h

theorem distinct (w : IntWidth) : (machine w).Inductive Distinct where
  init := by
    rintro t rfl
    exact List.nodup_nil
  step := by
    intro t e t' h hs
    dsimp only [machine] at hs
    split at hs
    · cases hs
    next ha =>
      obtain rfl := Option.some.inj hs
      exact (e.2.call_cases w t ha).distinct h

/-- **The table's integrity.** On either platform, in every table that calls can lead to, there are
at most `MAX_NEIGHBOURS` entries, with different addresses and positive times; and a further call
returns 0 and changes its field in the entry of its address, an old one or one that it makes, or
finds a full table without its address, returns -1 and changes nothing. -/
theorem tableIntegrity (w : IntWidth) {t : NeighbourTable} (ht : (machine w).Reachable t) :
    t.entry.length ≤ maxNeighbours ∧ (t.entry.map (·.llAddr)).Nodup ∧
      (∀ e ∈ t.entry, 1 ≤ e.txTime.toNat) ∧
      ∀ (llAddr : LlAddr) (c : TableCall), llAddr ≠ .none →
        t.entry.length ≤ (c.call w t llAddr).2.entry.length ∧
        ((∃ idx e e', t.entry[idx]? = some e ∧ e.llAddr = llAddr ∧ c.Only e e' ∧
            (c.call w t llAddr).1 = 0 ∧ (c.call w t llAddr).2.entry = t.entry.set idx e') ∨
          ((∀ e ∈ t.entry, e.llAddr ≠ llAddr) ∧ t.entry.length < maxNeighbours ∧
            ∃ e', c.Only (.new llAddr) e' ∧ (c.call w t llAddr).1 = 0 ∧
              (c.call w t llAddr).2.entry = t.entry ++ [e']) ∨
          ((∀ e ∈ t.entry, e.llAddr ≠ llAddr) ∧ t.entry.length = maxNeighbours ∧
            c.call w t llAddr = (-1, t))) := by
  refine ⟨t.length_le, ht.inv (distinct w), fun e _ => e.txTime_pos, fun llAddr c ha => ?_⟩
  have hcases := c.call_cases w t ha
  generalize c.call w t llAddr = r at hcases
  cases hcases with
  | known idx e t' he haddr ht' =>
    refine ⟨?_, .inl ⟨idx, e, _, he, haddr, c.only_apply w e, rfl, ht'⟩⟩
    rw [ht', List.length_set]
  | fresh t' hnew ht' =>
    have hlen : t'.entry.length = t.entry.length + 1 := by
      rw [ht', List.length_append, List.length_singleton]
    have hle := t'.length_le
    refine ⟨?_, .inr (.inl ⟨hnew, by omega, _, c.only_apply w _, rfl, ht'⟩)⟩
    dsimp only
    omega
  | full hnew hfull => exact ⟨Nat.le_refl _, .inr (.inr ⟨hnew, hfull, rfl⟩)⟩

/-- A table with a short and an extended address. -/
theorem tableIntegrity_two : ∃ t, (machine .bits16).Reachable t ∧ t.entry.length = 2 ∧
    (t.entry.map (·.llAddr)).Nodup := by
  obtain ⟨h, t, hr, hp⟩ := Machine.exists_run_of_exec (M := machine .bits16) (s := empty) rfl
    [(.short 1, .etx 3), (.ext #v[1, 0, 0, 0, 0, 0, 0, 0], .txTime 0), (.short 1, .backpressure 7)]
    (fun _ t => t.entry.length = 2) (by decide)
  exact ⟨t, ⟨h, hr⟩, of_decide_eq_true hp, (tableIntegrity .bits16 ⟨h, hr⟩).2.1⟩

end NeighbourTable

end BackIP
