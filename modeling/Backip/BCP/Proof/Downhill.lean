import Backip.BCP.Routing
import Mathlib.Algebra.Group.Int.Defs
import Mathlib.Algebra.Group.Nat.Defs
import Mathlib.Data.List.Nodup
import Mathlib.Data.List.Perm.Subperm
import Mathlib.Tactic.NormNum

/-!
# The routing engine sends downhill

Every table the engine reaches is well formed (`WellFormed`: the entries in use fit the array and
no transmit time is zero), so that `updateRouting` has a result. What the scan has done after `n`
turns is `Scanned`; what is chosen from it is `Downhill`, the main result `updateRouting_downhill`.

The engine gets stuck only where it leaves the array, which it does not as long as it has heard of
at most `ROUTING_TABLE_SIZE` neighbors (`exec_of_neighbors`).
-/

set_option autoImplicit false

namespace BCP.RoutingTable

variable {t : RoutingTable}

/-! ## Cells -/

@[simp] theorem set_active (t : RoutingTable) (idx : Nat) (e : RoutingTableEntry) :
    (t.set idx e).routingTableActive = t.routingTableActive := rfl

@[simp] theorem set_self (t : RoutingTable) (idx : Nat) (e : RoutingTableEntry) :
    (t.set idx e).routingTable idx = e := Function.update_self ..

theorem set_ne (t : RoutingTable) {idx i : Nat} (e : RoutingTableEntry) (h : i ≠ idx) :
    (t.set idx e).routingTable i = t.routingTable i := Function.update_of_ne h ..

/-- A neighbor is found in an entry of its own, or nowhere. -/
theorem find_cases (t : RoutingTable) (n : UInt16) :
    t.routingTableFind n < t.routingTableActive ∧
        (t.routingTable (t.routingTableFind n)).neighbor = n ∨
      t.routingTableFind n = t.routingTableActive := by
  unfold routingTableFind
  split
  · exact .inr rfl
  · cases hf : (List.range t.routingTableActive).find? fun i =>
        (t.routingTable i).neighbor == n with
    | none => exact .inr rfl
    | some i =>
      refine .inl ⟨List.mem_range.1 (List.mem_of_find?_eq_some hf), ?_⟩
      have hn := List.find?_some hf
      exact beq_iff_eq.1 hn

theorem find_le (t : RoutingTable) (n : UInt16) :
    t.routingTableFind n ≤ t.routingTableActive := by
  rcases t.find_cases n with ⟨h, -⟩ | h
  · exact Nat.le_of_lt h
  · exact Nat.le_of_eq h

/-- A neighbor that has an entry is found. -/
theorem find_lt {n : UInt16} {i : Nat} (hn : n ≠ tosBcastAddr) (hi : i < t.routingTableActive)
    (he : (t.routingTable i).neighbor = n) : t.routingTableFind n < t.routingTableActive := by
  unfold routingTableFind
  rw [if_neg hn]
  cases hf : (List.range t.routingTableActive).find? fun i =>
      (t.routingTable i).neighbor == n with
  | none =>
    have := List.find?_eq_none.1 hf i (List.mem_range.2 hi)
    exact absurd (beq_iff_eq.2 he) this
  | some j => exact List.mem_range.1 (List.mem_of_find?_eq_some hf)

/-! ## Well-formed tables -/

structure WellFormed (t : RoutingTable) : Prop where
  active_le : t.routingTableActive ≤ routingTableSize
  txTime : ∀ i < t.routingTableActive, (t.routingTable i).linkPacketTxTime ≠ 0

namespace WellFormed

/-- Writing a cell of nonzero transmit time. -/
theorem set (h : t.WellFormed) {idx : Nat} {e : RoutingTableEntry}
    (he : idx < t.routingTableActive → e.linkPacketTxTime ≠ 0) : (t.set idx e).WellFormed := by
  refine ⟨h.active_le, ?_⟩
  intro i hi
  by_cases hidx : i = idx
  · subst hidx
    rw [set_self]
    exact he hi
  · rw [set_ne _ _ hidx]
    exact h.txTime i hi

theorem init : RoutingTable.init.WellFormed :=
  ⟨Nat.zero_le _, fun _ hi => absurd hi (Nat.not_lt_zero _)⟩

theorem updateEntry (h : t.WellFormed) (n bp : UInt16) :
    (t.routingTableUpdateEntry n bp).2.WellFormed := by
  unfold routingTableUpdateEntry
  dsimp only
  split
  · exact h
  · next hfull =>
    split
    · next hnew =>
      rw [hnew] at hfull
      refine ⟨?_, ?_⟩
      · exact Nat.lt_of_le_of_ne h.active_le hfull
      · intro i hi
        by_cases hidx : i = t.routingTableFind n
        · subst hidx
          rw [set_self]
          exact (by decide : (1 : UInt16) ≠ 0)
        · rw [set_ne _ _ hidx]
          refine h.txTime i ?_
          simp only at hi
          omega
    · exact h.set (h.txTime _)

/-- The moving average of positive times of 16 bits is positive. -/
theorem average_ne_zero {old : UInt16} {new : Nat} (h1 : old ≠ 0) (h2 : 0 < new)
    (h3 : new < 2 ^ 16) :
    UInt16.ofNat ((linkEstAlpha * old.toNat + (10 - linkEstAlpha) * new) / 10) ≠ 0 := by
  have hold : 0 < old.toNat := Nat.pos_of_ne_zero fun h => h1 (UInt16.toNat_inj.1 h)
  have hlt := old.toNat_lt
  intro h
  have h' := congrArg UInt16.toNat h
  simp only [linkEstAlpha] at h'
  rw [UInt16.toNat_ofNat', Nat.mod_eq_of_lt (by omega), UInt16.toNat_zero] at h'
  omega

theorem updateLinkRate (h : t.WellFormed) (n time : UInt16) :
    (t.updateLinkRate n time).WellFormed := by
  unfold RoutingTable.updateLinkRate
  dsimp only
  split
  · exact h
  · apply h.set
    intro hi
    apply average_ne_zero (h.txTime _ hi)
    · split
      · decide
      · next hne => exact Nat.pos_of_ne_zero fun h0 => hne (UInt16.toNat_inj.1 h0)
    · have := time.toNat_lt
      split <;> omega

theorem updateLinkSuccess (h : t.WellFormed) (n : UInt16) (tx : UInt8) :
    (t.updateLinkSuccess n tx).WellFormed := by
  unfold RoutingTable.updateLinkSuccess
  dsimp only
  split
  · exact h
  · exact h.set (h.txTime _)

theorem txNoAck (h : t.WellFormed) (n : UInt16) : (t.txNoAck n).WellFormed := by
  unfold RoutingTable.txNoAck
  dsimp only
  split
  · exact h
  · split
    · exact h.set (h.txTime _)
    · exact h

theorem streak_txTime (e : RoutingTableEntry) (bp nh : UInt16) (tx : UInt8) :
    (streak e bp nh tx).1.linkPacketTxTime = e.linkPacketTxTime := by
  unfold streak
  split <;> rfl

theorem updateNeighborSnoop (h : t.WellFormed) {self bp snoop nh n notify : UInt16} {tx : UInt8}
    {r : List UInt16 × RoutingTable}
    (hr : t.updateNeighborSnoop self bp snoop nh tx n notify = some r) : r.2.WellFormed := by
  unfold RoutingTable.updateNeighborSnoop at hr
  dsimp only at hr
  split at hr
  · cases hr
    apply (h.updateEntry n snoop).set
    intro hi
    rw [streak_txTime]
    exact (h.updateEntry n snoop).txTime _ hi
  · cases hr

end WellFormed

/-! ## The scan -/

/-- The weight does not wrap. -/
theorem compareWeight_eq (bp : UInt16) {e : RoutingTableEntry} (he : e.linkPacketTxTime ≠ 0) :
    compareWeight bp e = some (((bp.toNat : Int) - e.backpressure.toNat -
      (linkLossV * e.linkETX.toNat / 100 : Nat)) * (10000 / e.linkPacketTxTime.toNat : Nat)) := by
  have h1 := bp.toNat_lt
  have h2 := e.backpressure.toNat_lt
  have h3 := e.linkETX.toNat_lt
  unfold compareWeight
  dsimp only [linkLossV]
  rw [if_neg he]
  have hrate : 10000 / e.linkPacketTxTime.toNat ≤ 10000 := Nat.div_le_self ..
  generalize 10000 / e.linkPacketTxTime.toNat = rate at hrate ⊢
  generalize hd : (bp.toNat : Int) - e.backpressure.toNat - (2 * e.linkETX.toNat / 100 : Nat) = d
  have hlo : -66846 ≤ d := by omega
  have hhi : d ≤ 65535 := by omega
  have hmin : -66846 * 10000 ≤ d * rate := calc
    (-66846 * 10000 : Int) ≤ -66846 * rate := by omega
    _ ≤ d * rate := Int.mul_le_mul_of_nonneg_right hlo (Int.natCast_nonneg _)
  have hmax : d * rate ≤ 65535 * 10000 := calc
    d * rate ≤ 65535 * (rate : Int) := Int.mul_le_mul_of_nonneg_right hhi (Int.natCast_nonneg _)
    _ ≤ 65535 * 10000 := by omega
  rw [Int.bmod_eq_of_le (by norm_num; omega) (by norm_num; omega)]

/-- An entry of positive weight is downhill. -/
theorem lt_of_weight_pos {bp : UInt16} {e : RoutingTableEntry} {w : Int}
    (hw : compareWeight bp e = some w) (hpos : 0 < w) : e.backpressure < bp := by
  have he : e.linkPacketTxTime ≠ 0 := by
    intro he
    simp [compareWeight, he] at hw
  rw [compareWeight_eq bp he, Option.some.injEq] at hw
  rw [UInt16.lt_iff_toNat_lt]
  by_contra hup
  have hd : (bp.toNat : Int) - e.backpressure.toNat - (linkLossV * e.linkETX.toNat / 100 : Nat)
      ≤ 0 := by omega
  have hle := Int.mul_le_mul_of_nonneg_right hd
    (Int.natCast_nonneg (10000 / e.linkPacketTxTime.toNat))
  rw [hw, Int.zero_mul] at hle
  omega

/-- What the scan of `t` has done after `n` turns: it has cleared the flags it met, and holds the
weight of a link it met, and the backpressure of a bursty one. -/
structure Scanned (t : RoutingTable) (bp : UInt16) (n : Nat) (v : Scan) : Prop where
  active : v.table.routingTableActive = t.routingTableActive
  cell : ∀ i, v.table.routingTable i =
    { t.routingTable i with isBurstyNow := (t.routingTable i).isBurstyNow && decide (n ≤ i) }
  best : v.maxWeight = -1 ∨ v.maxWeightIdx < n ∧
    compareWeight bp (t.routingTable v.maxWeightIdx) = some v.maxWeight
  burst : v.burstNeighborFound = true → v.bestBurstNeighborIdx < n ∧
    (t.routingTable v.bestBurstNeighborIdx).isBurstyNow = true ∧
    v.bestBurstNeighborBackpressure = (t.routingTable v.bestBurstNeighborIdx).backpressure

theorem scanned_turn {bp : UInt16} {n : Nat} {v : Scan} (hv : Scanned t bp n v)
    (he : (t.routingTable n).linkPacketTxTime ≠ 0) :
    ∃ v', v.turn bp n = some v' ∧ Scanned t bp (n + 1) v' := by
  obtain ⟨hact, hcell, hbest, hburst⟩ := hv
  have hn : v.table.routingTable n = t.routingTable n := by
    rw [hcell n]
    simp
  have hbest' : v.maxWeight = -1 ∨ v.maxWeightIdx < n + 1 ∧
      compareWeight bp (t.routingTable v.maxWeightIdx) = some v.maxWeight :=
    hbest.imp_right fun h => ⟨Nat.lt_succ_of_lt h.1, h.2⟩
  have hburst' : v.burstNeighborFound = true → v.bestBurstNeighborIdx < n + 1 ∧
      (t.routingTable v.bestBurstNeighborIdx).isBurstyNow = true ∧
      v.bestBurstNeighborBackpressure = (t.routingTable v.bestBurstNeighborIdx).backpressure :=
    fun h => (hburst h).imp_left Nat.lt_succ_of_lt
  -- the flags below `n` are cleared, and that of `n` with them
  have hclear : ∀ (w : RoutingTable), w.routingTable = (fun i =>
      if i = n then { t.routingTable n with isBurstyNow := false } else v.table.routingTable i) →
      ∀ i, w.routingTable i = { t.routingTable i with
        isBurstyNow := (t.routingTable i).isBurstyNow && decide (n + 1 ≤ i) } := by
    intro w hw i
    rw [hw]
    by_cases hi : i = n
    · subst hi
      simp
    · simp only [if_neg hi]
      rw [hcell i]
      have : (n ≤ i) = (n + 1 ≤ i) := by
        apply propext
        omega
      simp only [this]
  unfold Scan.turn
  simp only [hn]
  split
  · next hflag =>
    have hset : ∀ i, (v.table.set n { t.routingTable n with isBurstyNow := false }).routingTable i
        = { t.routingTable i with
          isBurstyNow := (t.routingTable i).isBurstyNow && decide (n + 1 ≤ i) } :=
      hclear _ (funext fun i => Function.update_apply ..)
    split
    · refine ⟨_, rfl, hact, hset, hbest', ?_⟩
      intro _
      exact ⟨Nat.lt_succ_self n, hflag, rfl⟩
    · exact ⟨_, rfl, hact, hset, hbest', hburst'⟩
  · next hflag =>
    have hsame : ∀ i, v.table.routingTable i = { t.routingTable i with
        isBurstyNow := (t.routingTable i).isBurstyNow && decide (n + 1 ≤ i) } := by
      apply hclear
      funext i
      split
      · next hi =>
        subst hi
        rw [hn]
        simp only [Bool.not_eq_true] at hflag
        cases he : t.routingTable i
        simp_all
      · rfl
    rw [compareWeight_eq bp he, Option.map_some]
    refine ⟨_, rfl, ?_⟩
    split
    · exact ⟨hact, hsame, .inr ⟨Nat.lt_succ_self n, compareWeight_eq bp he⟩, hburst'⟩
    · exact ⟨hact, hsame, hbest', hburst'⟩

theorem scanned_scan (h : t.WellFormed) (bp : UInt16) {n : Nat}
    (hn : n ≤ t.routingTableActive) : ∃ v, t.scan bp n = some v ∧ Scanned t bp n v := by
  induction n with
  | zero => exact ⟨_, rfl, rfl, fun i => by simp, .inl rfl, nofun⟩
  | succ n ih =>
    obtain ⟨v, hv, hs⟩ := ih (Nat.le_of_lt hn)
    obtain ⟨v', hv', hs'⟩ := scanned_turn hs (h.txTime n hn)
    refine ⟨v', ?_, hs'⟩
    unfold scan
    rw [hv]
    exact hv'

/-! ## The choice -/

/-- What `updateRouting` may do with the table `t` at the local backpressure `bp`: install the
neighbor of an entry of less backpressure, or nothing. The only flag left set is that of the
bursty neighbor it has chosen. -/
structure Downhill (t : RoutingTable) (bp : UInt16) (r : Routed) : Prop where
  result : r.ret = .success ∨ r.ret = .fail
  fail : r.ret = .fail → r.signals = []
  success : r.ret = .success → ∃ k < t.routingTableActive,
    r.signals = [((t.routingTable k).neighbor, (t.routingTable k).backpressure)] ∧
    (t.routingTable k).backpressure < bp ∧
    ∀ i < t.routingTableActive, (r.table.routingTable i).isBurstyNow = true →
      i = k ∧ (t.routingTable k).isBurstyNow = true
  cleared : r.ret = .fail → ∀ i < t.routingTableActive,
    (r.table.routingTable i).isBurstyNow = false

theorem Scanned.cleared {bp : UInt16} {v : Scan} (hv : Scanned t bp t.routingTableActive v) :
    ∀ i < t.routingTableActive, (v.table.routingTable i).isBurstyNow = false := by
  intro i hi
  rw [hv.cell i]
  simp only [Bool.and_eq_false_imp, decide_eq_false_iff_not, Nat.not_le]
  exact fun _ => hi

theorem choose_downhill {bp : UInt16} {v : Scan} (hv : Scanned t bp t.routingTableActive v) :
    Downhill t bp (v.choose bp) := by
  have hclear := hv.cleared
  unfold Scan.choose
  cases hb : v.burstNeighborFound && decide ((v.table.routingTable v.maxWeightIdx).backpressure ≥
      v.bestBurstNeighborBackpressure) with
  | true =>
    obtain ⟨hk, hflag, hbp⟩ := hv.burst (Bool.and_eq_true_iff.1 hb).1
    simp only [if_true, Bool.true_and]
    generalize v.bestBurstNeighborIdx = k at hk hflag hbp
    split
    · next hle =>
      rw [if_neg (by rw [decide_eq_true_iff]; omega)]
      exact ⟨.inr rfl, fun _ => rfl, nofun, fun _ => hclear⟩
    · next hpos =>
      rw [if_pos (by rw [decide_eq_true_iff]; omega)]
      refine ⟨.inl rfl, nofun, fun _ => ⟨k, hk, ?_, ?_, ?_⟩, nofun⟩
      · rw [set_self, hv.cell k]
      · rw [UInt16.lt_iff_toNat_lt, ← hbp]
        omega
      · intro i hi hset
        by_cases hik : i = k
        · exact ⟨hik, hflag⟩
        · rw [set_ne _ _ hik, hclear i hi] at hset
          cases hset
  | false =>
    simp only [Bool.false_and, Bool.false_eq_true, if_false]
    split
    · exact ⟨.inr rfl, fun _ => rfl, nofun, fun _ => hclear⟩
    · next hpos =>
      rcases hv.best with hinit | ⟨hk, hw⟩
      · omega
      · refine ⟨.inl rfl, nofun, fun _ => ⟨v.maxWeightIdx, hk, ?_, ?_, ?_⟩, nofun⟩
        · rw [hv.cell]
        · exact lt_of_weight_pos hw (by omega)
        · intro i hi hset
          rw [hclear i hi] at hset
          cases hset

/-- Choosing changes a flag at most. -/
theorem choose_table (bp : UInt16) (v : Scan) : (v.choose bp).table = v.table ∨
    ∃ k, (v.choose bp).table =
      v.table.set k { v.table.routingTable k with isBurstyNow := true } := by
  unfold Scan.choose
  generalize (v.burstNeighborFound && decide
    ((v.table.routingTable v.maxWeightIdx).backpressure ≥ v.bestBurstNeighborBackpressure)) = burst
  dsimp only
  generalize (if burst = true then
    (bp.toNat : Int) - v.bestBurstNeighborBackpressure.toNat - linkLossV else v.maxWeight) = weight
  by_cases hset : (burst && decide (weight > 0)) = true
  · right
    refine ⟨v.bestBurstNeighborIdx, ?_⟩
    rw [if_pos hset]
    split <;> rfl
  · left
    rw [if_neg hset]
    split <;> rfl

/-- A well-formed table divides by no zero and installs only a neighbor downhill. -/
theorem WellFormed.updateRouting (h : t.WellFormed) (bp : UInt16) :
    ∃ r, t.updateRouting bp = some r ∧ Downhill t bp r := by
  unfold RoutingTable.updateRouting
  split
  · next h0 =>
    refine ⟨_, rfl, .inr rfl, fun _ => rfl, nofun, ?_⟩
    intro _ i hi
    omega
  · obtain ⟨v, hv, hs⟩ := scanned_scan h bp (Nat.le_refl _)
    rw [hv]
    exact ⟨_, rfl, choose_downhill hs⟩

/-! ## Every table the engine reaches -/

/-- `updateRouting` changes flags only. -/
theorem WellFormed.routed (h : t.WellFormed) {bp : UInt16} {r : Routed}
    (hr : t.updateRouting bp = some r) : r.table.routingTableActive = t.routingTableActive ∧
      ∀ i, ∃ b, r.table.routingTable i = { t.routingTable i with isBurstyNow := b } := by
  unfold RoutingTable.updateRouting at hr
  split at hr
  · cases hr
    exact ⟨rfl, fun i => ⟨_, rfl⟩⟩
  · obtain ⟨v, hv, hs⟩ := scanned_scan h bp (Nat.le_refl _)
    rw [hv] at hr
    cases hr
    rcases choose_table bp v with hc | ⟨k, hc⟩
    · rw [hc]
      exact ⟨hs.active, fun i => ⟨_, hs.cell i⟩⟩
    · rw [hc]
      refine ⟨hs.active, ?_⟩
      intro i
      by_cases hik : i = k
      · subst hik
        rw [set_self, hs.cell i]
        exact ⟨_, rfl⟩
      · rw [set_ne _ _ hik, hs.cell i]
        exact ⟨_, rfl⟩

theorem wellFormed_step {self : UInt16} {t' : RoutingTable} {c : Command} (h : t.WellFormed)
    (hs : t.step self c = some t') : t'.WellFormed := by
  cases c with
  | updateNeighborBackpressure n bp =>
    cases hs
    exact h.updateEntry n bp
  | updateNeighborSnoop bp snoop nh tx n notify =>
    obtain ⟨r, hr, rfl⟩ := Option.map_eq_some_iff.1 hs
    exact h.updateNeighborSnoop hr
  | updateLinkSuccess n tx =>
    cases hs
    exact h.updateLinkSuccess n tx
  | updateLinkRate n time =>
    cases hs
    exact h.updateLinkRate n time
  | txNoAck n =>
    cases hs
    exact h.txNoAck n
  | updateRouting bp =>
    obtain ⟨r, hr, rfl⟩ := Option.map_eq_some_iff.1 hs
    obtain ⟨hact, hcell⟩ := h.routed hr
    refine ⟨hact ▸ h.active_le, ?_⟩
    intro i hi
    obtain ⟨b, hb⟩ := hcell i
    rw [hb]
    exact h.txTime i (hact ▸ hi)

theorem wellFormed (self : UInt16) : (machine self).Inductive WellFormed where
  init t ht := by
    cases ht
    exact .init
  step _ _ _ h hs := wellFormed_step h hs

/-! ## Few enough neighbors -/

/-- The neighbors that have an entry. -/
def known (t : RoutingTable) : List UInt16 :=
  (List.range t.routingTableActive).map fun i => (t.routingTable i).neighbor

@[simp] theorem length_known (t : RoutingTable) : t.known.length = t.routingTableActive := by
  rw [known, List.length_map, List.length_range]

theorem find_lt_of_known {n : UInt16} (hn : n ≠ tosBcastAddr) (hk : n ∈ t.known) :
    t.routingTableFind n < t.routingTableActive := by
  obtain ⟨i, hi, he⟩ := List.mem_map.1 hk
  exact find_lt hn (List.mem_range.1 hi) he

theorem mem_known_of_find_ne {n : UInt16} (h : t.routingTableFind n ≠ t.routingTableActive) :
    n ∈ t.known := by
  rcases t.find_cases n with ⟨hlt, he⟩ | he
  · exact List.mem_map.2 ⟨_, List.mem_range.2 hlt, he⟩
  · exact absurd he h

/-- Tables with the same neighbors in use. -/
theorem known_congr {t' : RoutingTable} (ha : t'.routingTableActive = t.routingTableActive)
    (hc : ∀ i, (t'.routingTable i).neighbor = (t.routingTable i).neighbor) :
    t'.known = t.known := by
  unfold known
  rw [ha]
  exact List.map_congr_left fun i _ => hc i

theorem known_set {idx : Nat} {e : RoutingTableEntry}
    (he : e.neighbor = (t.routingTable idx).neighbor) : (t.set idx e).known = t.known := by
  have hc : ∀ i, ((t.set idx e).routingTable i).neighbor = (t.routingTable i).neighbor := by
    intro i
    by_cases hi : i = idx
    · subst hi
      rw [set_self, he]
    · rw [set_ne _ _ hi]
  exact known_congr rfl hc

theorem find_bcast (t : RoutingTable) : t.routingTableFind tosBcastAddr = t.routingTableActive :=
  if_pos rfl

theorem find_of_not_known {n : UInt16} (hk : n ∉ t.known) :
    t.routingTableFind n = t.routingTableActive := by
  by_contra hne
  exact hk (mem_known_of_find_ne hne)

/-- A neighbor that has an entry keeps it. -/
theorem updateEntry_known (h : t.WellFormed) {n : UInt16} (hn : n ≠ tosBcastAddr) (hk : n ∈ t.known)
    (bp : UInt16) : (t.routingTableUpdateEntry n bp).2.known = t.known := by
  have hlt := find_lt_of_known hn hk
  have hle := h.active_le
  unfold routingTableUpdateEntry
  dsimp only
  rw [if_neg (by omega), if_neg (by omega)]
  exact known_set rfl

/-- One that is not found gets the next entry. -/
theorem updateEntry_new {n : UInt16} (hfind : t.routingTableFind n = t.routingTableActive)
    (hroom : t.routingTableActive ≠ routingTableSize) (bp : UInt16) :
    (t.routingTableUpdateEntry n bp).2.known = t.known ++ [n] := by
  unfold routingTableUpdateEntry
  dsimp only
  rw [hfind, if_neg hroom, if_pos rfl]
  unfold known
  rw [List.range_succ, List.map_append, List.map_singleton, set_self]
  congr 1
  apply List.map_congr_left
  intro i hi
  rw [set_ne _ _ (Nat.ne_of_lt (List.mem_range.1 hi))]

/-- A full table has no entry for it. -/
theorem updateEntry_full {n : UInt16} (hfind : t.routingTableFind n = t.routingTableActive)
    (hfull : t.routingTableActive = routingTableSize) (bp : UInt16) :
    (t.routingTableUpdateEntry n bp).2 = t := by
  unfold routingTableUpdateEntry
  dsimp only
  rw [if_pos (hfind.trans hfull)]

theorem known_iff_find (t : RoutingTable) (n : UInt16) :
    n ≠ tosBcastAddr ∧ n ∈ t.known ↔ t.routingTableFind n < t.routingTableActive := by
  constructor
  · rintro ⟨hn, hk⟩
    exact find_lt_of_known hn hk
  · intro hlt
    refine ⟨?_, mem_known_of_find_ne (Nat.ne_of_lt hlt)⟩
    rintro rfl
    rw [find_bcast] at hlt
    exact Nat.lt_irrefl _ hlt

/-- The neighbor an entry was asked for is found if it had one, or there was room. -/
theorem WellFormed.snoop_iff (h : t.WellFormed) (n bp : UInt16) :
    (t.routingTableUpdateEntry n bp).2.routingTableFind n <
        (t.routingTableUpdateEntry n bp).2.routingTableActive ↔
      n ≠ tosBcastAddr ∧ (n ∈ t.known ∨ t.routingTableActive < routingTableSize) := by
  rw [← known_iff_find]
  refine and_congr_right fun hn => ?_
  by_cases hk : n ∈ t.known
  · rw [updateEntry_known h hn hk]
    exact iff_of_true hk (.inl hk)
  have hfind := find_of_not_known hk
  by_cases hroom : t.routingTableActive < routingTableSize
  · rw [updateEntry_new hfind (Nat.ne_of_lt hroom)]
    simp [hroom]
  · rw [updateEntry_full hfind (by have := h.active_le; omega)]
    simp [hroom, hk]

theorem streak_neighbor (e : RoutingTableEntry) (bp nh : UInt16) (tx : UInt8) :
    (streak e bp nh tx).1.neighbor = e.neighbor := by
  unfold streak
  split <;> rfl

/-- The neighbors that have an entry after a command. -/
theorem known_step (h : t.WellFormed) {self : UInt16} {t' : RoutingTable} {c : Command}
    (hs : t.step self c = some t') :
    t'.known = match c with
      | .updateNeighborBackpressure n bp | .updateNeighborSnoop _ bp _ _ n _ =>
        (t.routingTableUpdateEntry n bp).2.known
      | _ => t.known := by
  cases c with
  | updateNeighborBackpressure n bp =>
    cases hs
    rfl
  | updateNeighborSnoop bp snoop nh tx n notify =>
    obtain ⟨r, hr, rfl⟩ := Option.map_eq_some_iff.1 hs
    unfold RoutingTable.updateNeighborSnoop at hr
    dsimp only at hr
    split at hr
    · cases hr
      exact known_set (streak_neighbor ..)
    · cases hr
  | updateLinkSuccess n tx =>
    cases hs
    unfold RoutingTable.updateLinkSuccess
    dsimp only
    split
    · rfl
    · exact known_set rfl
  | updateLinkRate n time =>
    cases hs
    unfold RoutingTable.updateLinkRate
    dsimp only
    split
    · rfl
    · exact known_set rfl
  | txNoAck n =>
    cases hs
    unfold RoutingTable.txNoAck
    dsimp only
    split
    · rfl
    · split
      · exact known_set rfl
      · rfl
  | updateRouting bp =>
    obtain ⟨r, hr, rfl⟩ := Option.map_eq_some_iff.1 hs
    obtain ⟨hact, hcell⟩ := h.routed hr
    refine known_congr hact fun i => ?_
    obtain ⟨b, hcell⟩ := hcell i
    rw [hcell]

/-- The entries in use are of different neighbors, all of them in `S`. -/
structure Knows (S : List UInt16) (t : RoutingTable) : Prop where
  wellFormed : t.WellFormed
  subset : t.known ⊆ S
  nodup : t.known.Nodup

theorem Knows.of_known {S : List UInt16} {t' : RoutingTable} (h : Knows S t)
    (hwf : t'.WellFormed) (hk : t'.known = t.known) : Knows S t' :=
  ⟨hwf, hk ▸ h.subset, hk ▸ h.nodup⟩

section
variable {S : List UInt16} (hS : S.length ≤ routingTableSize) {n : UInt16} (hn : n ∈ S)
  (hb : n ≠ tosBcastAddr)
include hS hn

/-- A neighbor in `S` that has no entry finds room for one. -/
theorem Knows.room (h : Knows S t) (hk : n ∉ t.known) :
    t.routingTableActive < routingTableSize := by
  have hsub : n :: t.known ⊆ S := List.cons_subset.2 ⟨hn, h.subset⟩
  have hlen := (List.subperm_of_subset (List.nodup_cons.2 ⟨hk, h.nodup⟩) hsub).length_le
  rw [List.length_cons, length_known] at hlen
  omega

include hb

/-- Updating the entry of a neighbor in `S` leaves it with an entry. -/
theorem Knows.updateEntry (h : Knows S t) (bp : UInt16) :
    Knows S (t.routingTableUpdateEntry n bp).2 ∧
      n ∈ (t.routingTableUpdateEntry n bp).2.known := by
  have hwf := h.wellFormed.updateEntry n bp
  by_cases hk : n ∈ t.known
  · have hsame := updateEntry_known h.wellFormed hb hk bp
    exact ⟨h.of_known hwf hsame, hsame ▸ hk⟩
  · have hsnoc := updateEntry_new (find_of_not_known hk) (Nat.ne_of_lt (h.room hS hn hk)) bp
    refine ⟨⟨hwf, ?_, ?_⟩, ?_⟩
    · rw [hsnoc]
      exact List.append_subset.2 ⟨h.subset, List.cons_subset.2 ⟨hn, List.nil_subset _⟩⟩
    · rw [hsnoc, List.nodup_append]
      refine ⟨h.nodup, List.nodup_singleton n, ?_⟩
      rintro a ha b hb rfl
      exact hk (List.mem_singleton.1 hb ▸ ha)
    · rw [hsnoc]
      exact List.mem_append_right _ (List.mem_singleton_self n)

end

/-- A command about a neighbor in `S` is not stuck. -/
theorem Knows.step {S : List UInt16} (hS : S.length ≤ routingTableSize) (hb : tosBcastAddr ∉ S)
    (h : Knows S t) (self : UInt16) {c : Command} (hc : ∀ n, c.neighbor = some n → n ∈ S) :
    ∃ t', t.step self c = some t' ∧ Knows S t' := by
  have hne : ∀ n, c.neighbor = some n → n ≠ tosBcastAddr := by
    rintro n hn rfl
    exact hb (hc _ hn)
  suffices ∃ t', t.step self c = some t' ∧ (t'.known ⊆ S ∧ t'.known.Nodup) by
    obtain ⟨t', hs, hsub, hnodup⟩ := this
    exact ⟨t', hs, wellFormed_step h.wellFormed hs, hsub, hnodup⟩
  have hsame : ∀ {t' : RoutingTable}, t'.known = t.known → t'.known ⊆ S ∧ t'.known.Nodup :=
    fun hk => ⟨hk ▸ h.subset, hk ▸ h.nodup⟩
  cases c with
  | updateNeighborBackpressure n bp =>
    have hk := (h.updateEntry hS (hc n rfl) (hne n rfl) bp).1
    exact ⟨_, rfl, hk.subset, hk.nodup⟩
  | updateNeighborSnoop bp snoop nh tx n notify =>
    obtain ⟨hk, hmem⟩ := h.updateEntry hS (hc n rfl) (hne n rfl) snoop
    have hlt := find_lt_of_known (hne n rfl) hmem
    have hle := hk.wellFormed.active_le
    obtain ⟨t', hs⟩ :
        ∃ t', t.step self (.updateNeighborSnoop bp snoop nh tx n notify) = some t' := by
      unfold RoutingTable.step RoutingTable.updateNeighborSnoop
      dsimp only
      rw [if_pos (by omega)]
      exact ⟨_, rfl⟩
    refine ⟨t', hs, ?_⟩
    rw [known_step h.wellFormed hs]
    exact ⟨hk.subset, hk.nodup⟩
  | updateLinkSuccess n tx =>
    have hs : t.step self (.updateLinkSuccess n tx) = some _ := rfl
    exact ⟨_, hs, hsame (known_step h.wellFormed hs)⟩
  | updateLinkRate n time =>
    have hs : t.step self (.updateLinkRate n time) = some _ := rfl
    exact ⟨_, hs, hsame (known_step h.wellFormed hs)⟩
  | txNoAck n =>
    have hs : t.step self (.txNoAck n) = some _ := rfl
    exact ⟨_, hs, hsame (known_step h.wellFormed hs)⟩
  | updateRouting bp =>
    obtain ⟨r, hr, -⟩ := h.wellFormed.updateRouting bp
    have hs : t.step self (.updateRouting bp) = some r.table :=
      Option.map_eq_some_iff.2 ⟨r, hr, rfl⟩
    exact ⟨_, hs, hsame (known_step h.wellFormed hs)⟩

/-- The engine runs through every sequence of commands about at most `ROUTING_TABLE_SIZE`
neighbors. -/
theorem exec_of_neighbors {S : List UInt16} (hS : S.length ≤ routingTableSize)
    (hb : tosBcastAddr ∉ S) (self : UInt16) {cs : List Command}
    (hc : ∀ c ∈ cs, ∀ n, c.neighbor = some n → n ∈ S) :
    ∃ r, (machine self).exec cs [] init = some r := by
  have hrun : ∀ h t, Knows S t → ∃ r, (machine self).exec cs h t = some r := by
    induction cs with
    | nil => exact fun h t _ => ⟨_, rfl⟩
    | cons c cs ih =>
      intro h t ht
      obtain ⟨t', hs, ht'⟩ := ht.step hS hb self (hc c (.head _))
      obtain ⟨r, hr⟩ := ih (fun c hcs => hc c (.tail _ hcs)) ((t, c) :: h) t' ht'
      refine ⟨r, ?_⟩
      unfold Machine.exec
      rw [show (machine self).step t c = some t' from hs]
      exact hr
  exact hrun [] init ⟨.init, List.nil_subset _, List.nodup_nil⟩

/-- **BCP routes strictly downhill.** In every table the engine reaches and at every local
backpressure `updateRouting` has a result, and it is downhill; every sequence of commands about at
most `ROUTING_TABLE_SIZE` neighbors reaches a table. -/
theorem updateRouting_downhill (self : UInt16) :
    (∀ t, (machine self).Reachable t → ∀ bp, ∃ r, t.updateRouting bp = some r ∧ Downhill t bp r) ∧
    ∀ S : List UInt16, S.length ≤ routingTableSize → tosBcastAddr ∉ S →
      ∀ cs : List Command, (∀ c ∈ cs, ∀ n, c.neighbor = some n → n ∈ S) →
        ∃ r, (machine self).exec cs [] init = some r := by
  constructor
  · intro t ht bp
    exact (ht.inv (wellFormed self)).updateRouting bp
  · intro S hS hb cs hc
    exact exec_of_neighbors hS hb self hc

/-- The neighbor 2, with less backpressure than the neighbor 3 and bursty, is chosen at the node 1;
at most two neighbors are heard of. -/
theorem updateRouting_downhill_bursty : ∃ t r, (machine 1).Reachable t ∧
    t.updateRouting 10 = some r ∧ Downhill t 10 r ∧ r.signals = [(2, 3)] ∧
    ∃ q, (machine 1).exec [.updateNeighborBackpressure 3 5,
      .updateNeighborSnoop 10 3 4 1 2 1] [] init = some q := by
  obtain ⟨h, t, hr, hp⟩ := Machine.exists_run_of_exec (M := machine 1) (s := init) rfl
    [.updateNeighborBackpressure 3 5, .updateNeighborSnoop 10 3 4 1 2 1]
    (fun _ t => (t.updateRouting 10).any fun r => r.signals = [(2, 3)]) (by decide)
  obtain ⟨hreach, hcs⟩ := updateRouting_downhill 1
  obtain ⟨r, hr', hd⟩ := hreach t ⟨h, hr⟩ 10
  rw [hr'] at hp
  exact ⟨t, r, ⟨h, hr⟩, hr', hd, of_decide_eq_true hp,
    hcs [2, 3] (by decide) (by decide) _ (by simp [Command.neighbor])⟩

end BCP.RoutingTable
