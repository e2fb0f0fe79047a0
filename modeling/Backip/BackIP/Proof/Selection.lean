import Backip.BackIP.Beaconing
import Backip.BackIP.NeighbourTable
import Mathlib.Algebra.Group.Int.Defs
import Mathlib.Algebra.Group.Nat.Defs
import Mathlib.Tactic.Linarith

/-!
# Which neighbours are installed, and which is selected

A neighbour is uphill if its backpressure and the cost of its link exceed the local backpressure
(`gradient`). `updateNeighbour` ranks neighbours by the gradient times the rate in 32 bits (`rank`).
For an uphill neighbour that is not negative where the rate is cut to zero, or where the product
wraps; such a neighbour is taken for acceptable and is installed, unless one that is not uphill
comes before it (`NeighbourTable.downhill_iff`).

In the range of what nodes report, the weights of `updateNeighbour` are the integers they stand for
(`weightWord_eq_weight`), on every platform, and the current neighbour becomes the first of the
heaviest, unless its weight is negative (`selectNeighbour_best`).
-/

set_option autoImplicit false

namespace BackIP

namespace NeighbourTableEntry

variable (myBP : Nat) (e : NeighbourTableEntry)

/-- The gradient to a neighbour, over the integers. -/
def gradient : Int := (myBP : Int) - e.backpressure.toNat - (linkEtxV * e.etx.toNat / 100 : Nat)

/-- The gradient times the rate, as a signed number of 32 bits. -/
def rank : Int := (e.gradient myBP * (10000 / e.txTime.toNat : Nat)).bmod (2 ^ 32)

theorem currWeight_eq : e.currWeight myBP = e.rank myBP := rfl

end NeighbourTableEntry

namespace NeighbourTable

variable (t : NeighbourTable) (myBP : Nat)

/-- The entry at `i` comes before the entry at `j`: its rank is higher, or the same and the entry
is older. -/
def Outranks (i j : Nat) : Prop :=
  Argmax.Outranks (NeighbourTableEntry.rank myBP) t.entry i j

/-- What `updateNeighbour` installs is the entry above -1 that outranks all others. -/
theorem updateNeighbour_cases :
    t.updateNeighbour myBP = none ∧ (∀ e ∈ t.entry, e.rank myBP ≤ -1) ∨
      ∃ i e, t.entry[i]? = some e ∧ t.updateNeighbour myBP = some e ∧ -1 < e.rank myBP ∧
        ∀ j, j ≠ i → j < t.entry.length → t.Outranks myBP i j := by
  unfold updateNeighbour best
  rw [show NeighbourTableEntry.currWeight myBP = NeighbourTableEntry.rank myBP from
    funext (NeighbourTableEntry.currWeight_eq myBP)]
  rcases Argmax.scan_cases (w := NeighbourTableEntry.rank myBP) t.entry (-1) with
    ⟨hs, hle⟩ | ⟨i, e, he, hs, hlt, hall⟩
  · refine .inl ⟨?_, hle⟩
    rw [hs]
    split
    · rfl
    · exact if_pos rfl
  · refine .inr ⟨i, e, he, ?_, hlt, hall⟩
    have hne : t.entry.length ≠ 0 := by
      have := (List.getElem?_eq_some_iff.1 he).1
      omega
    rw [hs, if_neg hne, if_neg (by simp only; omega)]
    exact he

/-- **Only down the gradient.** The neighbour `updateNeighbour` installs, if any, is not uphill
exactly if before each uphill entry whose rank is not negative there comes an entry that is not
uphill. -/
theorem downhill_iff :
    (∀ e, t.updateNeighbour myBP = some e → 0 ≤ e.gradient myBP) ↔
      ∀ i e, t.entry[i]? = some e → e.gradient myBP < 0 → 0 ≤ e.rank myBP →
        ∃ j e', t.entry[j]? = some e' ∧ 0 ≤ e'.gradient myBP ∧ t.Outranks myBP j i := by
  rcases t.updateNeighbour_cases myBP with ⟨hn, hle⟩ | ⟨k, b, hb, hs, hlt, hall⟩
  · rw [hn]
    apply iff_of_true (fun e he => nomatch he)
    intro i e hi _ hw
    have := hle e (List.mem_of_getElem? hi)
    omega
  · rw [hs]
    constructor
    · intro hdown i e hi hup _
      have hdb := hdown b rfl
      have hik : i ≠ k := by
        rintro rfl
        cases hb.symm.trans hi
        omega
      exact ⟨k, b, hb, hdb, hall i hik (List.getElem?_eq_some_iff.1 hi).1⟩
    · intro hcond e he
      cases he
      by_contra hup
      obtain ⟨j, e', hj, hdown, hrank⟩ := hcond k b hb (by omega) (by omega)
      have hjk : j ≠ k := by
        rintro rfl
        cases hb.symm.trans hj
        exact hup hdown
      exact (hall j hjk (List.getElem?_eq_some_iff.1 hj).1).asymm hrank

end NeighbourTable

namespace Beaconing

/-- Two slow packets cut the rate of a neighbour to zero: it is installed with a backpressure of
100, at a local backpressure of 0. -/
theorem downhill_false : ¬ ∀ s, machine.Reachable s → ∀ myBP e,
    s.table.updateNeighbour myBP = some e → 0 ≤ e.gradient myBP := by
  intro hall
  obtain ⟨h, s, hr, hp⟩ := Machine.exists_run_of_exec (M := machine) ⟨boot, rfl⟩
    [.recvfrom (some (.short 1)) (write4B 100 ++ write4B 100), .updateLinkRate (.short 1) 65535,
      .updateLinkRate (.short 1) 65535]
    (fun _ s => (s.table.updateNeighbour 0).any fun e => e.gradient 0 < 0) (by decide)
  obtain ⟨e, he, hup⟩ := (Option.any_eq_true _ _).1 hp
  have hdown := hall s ⟨h, hr⟩ 0 e he
  have hneg := of_decide_eq_true hup
  omega

end Beaconing

end BackIP

/-! ## The neighbour that is selected -/

namespace BackIP

namespace NeighbourTableEntry

variable (w : IntWidth) (e : NeighbourTableEntry)

/-- The weight of a neighbour: the gradient times the rate. -/
def weight (myBP : Nat) : Int := e.gradient myBP * (10000 / e.txTime.toNat : Nat)

theorem wrap_lt (n : Nat) : w.wrap n < 2 ^ 32 := by
  cases w with
  | bits16 => exact Nat.lt_trans (Nat.mod_lt _ (by decide)) (by decide)
  | bits32 => exact Nat.mod_lt _ (by decide)

/-- The words compute the weight up to a multiple of `2 ^ 32`. -/
theorem weightWord_eq (myBP : UInt32) :
    e.weightWord w myBP = (((myBP.toNat : Int) - e.backpressure.toNat -
      (w.wrap (linkEtxV * e.etx.toNat) / 100 : Nat)) * (10000 / e.txTime.toNat : Nat)).bmod
        (2 ^ 32) := by
  have hetx : w.wrap (linkEtxV * e.etx.toNat) / 100 < 2 ^ 32 :=
    Nat.lt_of_le_of_lt (Nat.div_le_self _ _) (wrap_lt w _)
  have hrate : 10000 / e.txTime.toNat < 2 ^ 32 :=
    Nat.lt_of_le_of_lt (Nat.div_le_self _ _) (by decide)
  unfold weightWord
  dsimp only
  rw [UInt32.toBitVec_mul, UInt32.toBitVec_sub, UInt32.toBitVec_sub, BitVec.toInt_mul,
    BitVec.toInt_sub, BitVec.toInt_sub]
  simp only [BitVec.toInt_eq_toNat_bmod, Int.bmod_mul_bmod, Int.bmod_sub_bmod, Int.sub_bmod_bmod,
    Int.mul_bmod_bmod, UInt32.toNat_toBitVec, UInt32.toNat_ofNat', Nat.mod_eq_of_lt hetx,
    Nat.mod_eq_of_lt hrate]

/-- What nodes report: backpressures of at most the ten packets of the queue, all virtual ones and
the one that is sent, and an estimate of at most ten transmissions. -/
structure Reported : Prop where
  backpressure : e.backpressure.toNat ≤ 65546
  etx_ge : 100 ≤ e.etx.toNat
  etx_le : e.etx.toNat ≤ 1000

variable {e}

theorem weight_bounds {myBP : Nat} (he : e.Reported) (hBP : myBP ≤ 65546) :
    -655660000 ≤ e.weight myBP ∧ e.weight myBP ≤ 655660000 := by
  have hb := he.backpressure
  have hetx := he.etx_le
  have hrate : 10000 / e.txTime.toNat ≤ 10000 := Nat.div_le_self _ _
  have hg : -65566 ≤ e.gradient myBP ∧ e.gradient myBP ≤ 65566 := by
    unfold gradient
    simp only [linkEtxV]
    omega
  have hr0 : (0 : Int) ≤ (10000 / e.txTime.toNat : Nat) := Int.natCast_nonneg _
  have hr1 : ((10000 / e.txTime.toNat : Nat) : Int) ≤ 10000 := Int.ofNat_le.2 hrate
  unfold weight
  generalize ((10000 / e.txTime.toNat : Nat) : Int) = r at hr0 hr1 ⊢
  constructor
  · nlinarith only [hg.1, hr0, hr1]
  · nlinarith only [hg.2, hr0, hr1]

theorem weightWord_eq_weight {myBP : UInt32} (he : e.Reported) (hBP : myBP.toNat ≤ 65546) :
    e.weightWord w myBP = e.weight myBP.toNat := by
  have hwrap : w.wrap (linkEtxV * e.etx.toNat) = linkEtxV * e.etx.toNat := by
    have := he.etx_le
    cases w <;> exact Nat.mod_eq_of_lt (by simp only [linkEtxV, IntWidth.modulus]; omega)
  obtain ⟨hlo, hhi⟩ := weight_bounds he hBP
  rw [weightWord_eq, hwrap]
  exact Int.bmod_eq_of_le (by change -2147483648 ≤ e.weight _; omega)
    (by change e.weight _ < 2147483648; omega)

end NeighbourTableEntry

namespace NeighbourTable

/-- The entry at `i` has the greatest weight, and no entry before it has the same. -/
def FirstBest (t : NeighbourTable) (myBP i : Nat) (e : NeighbourTableEntry) : Prop :=
  t.entry[i]? = some e ∧ ∀ j e', t.entry[j]? = some e' →
    e'.weight myBP ≤ e.weight myBP ∧ (e'.weight myBP = e.weight myBP → i ≤ j)

/-- **The best neighbour is selected.** In the range of what nodes report, the words of the scan hold
the weights; the first of the heaviest neighbours becomes the current one if its weight is not
negative, and the current one stays if there is no such neighbour. -/
theorem selectNeighbour_best (w : IntWidth) (t : NeighbourTable) (myBP : UInt32)
    (currNbLlAddr : LlAddr) (hBP : myBP.toNat ≤ 65546) (ht : ∀ e ∈ t.entry, e.Reported) :
    (∀ e ∈ t.entry, e.weightWord w myBP = e.weight myBP.toNat) ∧
      ((∃ i e, t.FirstBest myBP.toNat i e ∧ 0 ≤ e.weight myBP.toNat ∧
          t.selectNeighbour w myBP currNbLlAddr = (0, e.llAddr)) ∨
        ((∀ e ∈ t.entry, e.weight myBP.toNat < 0) ∧
          t.selectNeighbour w myBP currNbLlAddr = (-1, currNbLlAddr))) := by
  have hword : ∀ e ∈ t.entry, e.weightWord w myBP = e.weight myBP.toNat := fun e he =>
    NeighbourTableEntry.weightWord_eq_weight w (ht e he) hBP
  refine ⟨hword, ?_⟩
  unfold selectNeighbour
  dsimp only
  rcases Argmax.scan_cases (w := NeighbourTableEntry.weightWord w myBP) t.entry (-1) with
    ⟨hs, hle⟩ | ⟨i, e, he, hs, hlt, hall⟩
  · refine .inr ⟨fun e he => ?_, ?_⟩
    · have := hle e he
      rw [hword e he] at this
      omega
    · rw [hs]
      split
      · rfl
      · exact if_pos rfl
  · have hmem : e ∈ t.entry := List.mem_of_getElem? he
    have hpos : 0 ≤ e.weight myBP.toNat := by
      rw [hword e hmem] at hlt
      omega
    have hne : t.entry.length ≠ 0 := by
      have := (List.getElem?_eq_some_iff.1 he).1
      omega
    refine .inl ⟨i, e, ⟨he, fun j e' hj => ?_⟩, hpos, ?_⟩
    · by_cases hji : j = i
      · subst hji
        cases he.symm.trans hj
        exact ⟨Int.le_refl _, fun _ => Nat.le_refl _⟩
      · obtain ⟨x, y, hx, hy, hw⟩ := hall j hji (List.getElem?_eq_some_iff.1 hj).1
        cases he.symm.trans hx
        cases hj.symm.trans hy
        rw [hword e hmem, hword e' (List.mem_of_getElem? hj)] at hw
        exact ⟨by omega, fun heq => by omega⟩
    · rw [hs, if_neg hne, if_neg (by simp only; omega)]
      simp only [Option.bind_some, he]

/-- Two neighbours of the same weight: the older one is selected. -/
theorem selectNeighbour_best_two : ∃ t : NeighbourTable, t.entry.length = 3 ∧
    (∃ i e, t.FirstBest 40 i e ∧ 0 ≤ e.weight 40 ∧
      t.selectNeighbour .bits16 40 .none = (0, e.llAddr)) := by
  let t : NeighbourTable := ⟨[⟨.short 1, 36, 100, 1, by decide⟩, ⟨.short 2, 20, 250, 2, by decide⟩,
    ⟨.short 3, 20, 299, 2, by decide⟩], by decide⟩
  have ht : ∀ e ∈ t.entry, e.Reported := by
    intro e he
    rcases List.mem_cons.1 he with rfl | he
    · exact ⟨by decide, by decide, by decide⟩
    · rcases List.mem_cons.1 he with rfl | he
      · exact ⟨by decide, by decide, by decide⟩
      · rw [List.mem_singleton.1 he]
        exact ⟨by decide, by decide, by decide⟩
  refine ⟨t, rfl, ?_⟩
  rcases (selectNeighbour_best .bits16 t 40 .none (by decide) ht).2 with h | ⟨hneg, -⟩
  · exact h
  · exact absurd (hneg _ (.head _)) (by decide)

end NeighbourTable

end BackIP
