import Backip.Ctp.LinkEstimatorP
import Mathlib.Data.List.Basic

/-!
# The neighbor table as a map

`entry t n` is the entry of a neighbor in a table without two valid entries for one neighbor. Every
operation changes the entry of one neighbor, puts a new neighbor into an empty slot, or replaces a
neighbor that is mature and not pinned (`Becomes`):

* `hears` for `processReceivedMessage`, `inserts` for `insertNeighbor`, `onEntry_cases` for the
  commands on an entry.
-/

set_option autoImplicit false

namespace LinkEstimatorP

namespace NeighborTable

variable {t t' t'' : NeighborTable} {n m : UInt16} {x y z : NeighborTableEntry} {i : Nat}

/-- The entry of a neighbor. -/
def entry (t : NeighborTable) (n : UInt16) : Option NeighborTableEntry := (t.find n).bind (t[·]?)

/-- No two valid entries are for one neighbor. -/
def Distinct (t : NeighborTable) : Prop :=
  ∀ (i j : Nat) (a b : NeighborTableEntry), t[i]? = some a → t[j]? = some b → a.valid = true →
    b.valid = true → a.llAddr = b.llAddr → i = j

theorem find_eq_some (h : t.find n = some i) :
    ∃ x, t[i]? = some x ∧ x.valid = true ∧ x.llAddr = n := by
  obtain ⟨hlt, hp, -⟩ := List.findIdx?_eq_some_iff_getElem.1 h
  simp only [Bool.and_eq_true, decide_eq_true_eq] at hp
  exact ⟨t[i], List.getElem?_eq_getElem hlt, hp⟩

theorem entry_eq_none_iff :
    t.entry n = none ↔ ∀ x ∈ t, x.valid = true → x.llAddr ≠ n := by
  constructor
  · intro h x hx hv hn
    cases hf : t.find n with
    | none =>
      have := List.findIdx?_eq_none_iff.1 hf x hx
      simp [hv, hn] at this
    | some i =>
      obtain ⟨y, hy, -⟩ := find_eq_some hf
      rw [entry, hf, Option.bind_some, hy] at h
      cases h
  · intro h
    have hf : t.find n = none := by
      refine List.findIdx?_eq_none_iff.2 fun x hx => ?_
      have := h x hx
      simp only [Bool.and_eq_false_iff, decide_eq_false_iff_not]
      cases hv : x.valid
      · exact .inl rfl
      · exact .inr (this hv)
    rw [entry, hf]
    rfl

theorem find_eq_none_iff : t.find n = none ↔ t.entry n = none := by
  constructor
  · intro h
    rw [entry, h]
    rfl
  · intro h
    cases hf : t.find n with
    | none => rfl
    | some i =>
      obtain ⟨x, hx, hv, hn⟩ := find_eq_some hf
      exact absurd hn (entry_eq_none_iff.1 h x (List.mem_of_getElem? hx) hv)

theorem Distinct.entry_eq_some_iff (hd : t.Distinct) :
    t.entry n = some x ↔ ∃ i : Nat, t[i]? = some x ∧ x.valid = true ∧ x.llAddr = n := by
  constructor
  · intro h
    obtain ⟨i, hi, hx⟩ := Option.bind_eq_some_iff.1 h
    obtain ⟨y, hy, hv, hn⟩ := find_eq_some hi
    cases hx.symm.trans hy
    exact ⟨i, hy, hv, hn⟩
  · rintro ⟨i, hx, hv, hn⟩
    cases hf : t.find n with
    | none =>
      have hnone := entry_eq_none_iff.1 (find_eq_none_iff.1 hf)
      exact absurd hn (hnone x (List.mem_of_getElem? hx) hv)
    | some j =>
      obtain ⟨y, hy, hvy, hny⟩ := find_eq_some hf
      have hij := hd i j x y hx hy hv hvy (hn.trans hny.symm)
      subst hij
      rw [entry, hf]
      exact hx

theorem Distinct.entry_valid (hd : t.Distinct) (h : t.entry n = some x) :
    x.valid = true ∧ x.llAddr = n := by
  obtain ⟨-, -, hv⟩ := hd.entry_eq_some_iff.1 h
  exact hv

/-- `t'` has the entry `y` for `n`, and of the others what `t` has, except that `v` is gone. -/
structure Becomes (t : NeighborTable) (n : UInt16) (y : NeighborTableEntry) (v : Option UInt16)
    (t' : NeighborTable) : Prop where
  distinct : t'.Distinct
  new : t'.entry n = some y
  others : ∀ m, m ≠ n → t'.entry m = if v = some m then none else t.entry m

/-- One slot gets a valid entry for a neighbor that no other slot has. -/
theorem Distinct.set (hd : t.Distinct) (hx : t[i]? = some x) (hy : y.valid = true)
    (hother : ∀ (j : Nat) (b : NeighborTableEntry), j ≠ i → t[j]? = some b → b.valid = true →
      b.llAddr ≠ y.llAddr) :
    Becomes t y.llAddr y (if x.valid then some x.llAddr else none) (List.set t i y) := by
  have hlt : i < t.length := (List.getElem?_eq_some_iff.1 hx).1
  have hself : (List.set t i y)[i]? = some y := List.getElem?_set_self hlt
  have hne : ∀ j, j ≠ i → (List.set t i y)[j]? = t[j]? := fun j hj =>
    List.getElem?_set_ne (Ne.symm hj)
  have hd' : Distinct (List.set t i y) := by
    intro j k a b ha hb hva hvb hab
    by_cases hj : j = i <;> by_cases hk : k = i
    · rw [hj, hk]
    · subst hj
      cases hself.symm.trans ha
      exact absurd hab.symm (hother k b hk ((hne k hk).symm.trans hb) hvb)
    · subst hk
      cases hself.symm.trans hb
      exact absurd hab (hother j a hj ((hne j hj).symm.trans ha) hva)
    · exact hd j k a b ((hne j hj).symm.trans ha) ((hne k hk).symm.trans hb) hva hvb hab
  refine ⟨hd', hd'.entry_eq_some_iff.2 ⟨i, hself, hy, rfl⟩, ?_⟩
  intro m hm
  apply Option.ext
  intro z
  rw [hd'.entry_eq_some_iff]
  constructor
  · rintro ⟨j, hj, hv, hn⟩
    by_cases hji : j = i
    · subst hji
      cases hself.symm.trans hj
      exact absurd hn.symm hm
    · have hz := (hne j hji).symm.trans hj
      have hgone : ¬(if x.valid = true then some x.llAddr else none) = some m := by
        intro hg
        obtain ⟨hvx, hxm⟩ := Option.ite_none_right_eq_some.1 hg
        exact hji (hd j i z x hz hx hv hvx (hn.trans (Option.some.inj hxm).symm))
      rw [if_neg hgone]
      exact hd.entry_eq_some_iff.2 ⟨j, hz, hv, hn⟩
  · intro h
    obtain ⟨hgone, h⟩ := Option.ite_none_left_eq_some.1 h
    obtain ⟨j, hj, hv, hn⟩ := hd.entry_eq_some_iff.1 h
    have hji : j ≠ i := by
      rintro rfl
      cases hx.symm.trans hj
      rw [if_pos hv, hn] at hgone
      exact hgone rfl
    exact ⟨j, (hne j hji).trans hj, hv, hn⟩

/-- The entry of a neighbor changes. -/
theorem Distinct.modify (hd : t.Distinct) {f : NeighborTableEntry → NeighborTableEntry}
    (hx : t[i]? = some x) (hv : x.valid = true) (hn : x.llAddr = n) (hfv : (f x).valid = true)
    (hfn : (f x).llAddr = n) : Becomes t n (f x) none (List.set t i (f x)) := by
  have hother : ∀ (j : Nat) (b : NeighborTableEntry), j ≠ i → t[j]? = some b → b.valid = true →
      b.llAddr ≠ (f x).llAddr := by
    intro j b hj hb hvb he
    exact hj (hd j i b x hb hx hvb hv (he.trans (hfn.trans hn.symm)))
  have h := hd.set hx hfv hother
  rw [hfn] at h
  refine ⟨h.distinct, h.new, fun m hm => ?_⟩
  rw [h.others m hm, if_pos hv, hn, if_neg (fun he => hm (Option.some.inj he).symm)]
  rfl

theorem set_eq_modify {f : NeighborTableEntry → NeighborTableEntry} (hx : t[i]? = some x) :
    List.modify t i f = List.set t i (f x) := by
  apply List.ext_getElem?
  intro j
  rw [List.getElem?_modify, List.getElem?_set]
  by_cases hij : i = j
  · subst hij
    have hlt := (List.getElem?_eq_some_iff.1 hx).1
    have hget := (List.getElem?_eq_some_iff.1 hx).2
    simp [hlt, hget]
  · simp [hij]

variable {v : Option UInt16}

theorem Becomes.trans (h : Becomes t n x v t') (h' : Becomes t' n y none t'') :
    Becomes t n y v t'' where
  distinct := h'.distinct
  new := h'.new
  others k hk := by
    rw [h'.others k hk, if_neg nofun, h.others k hk]

/-- A change of the entry of a neighbor that is found. -/
theorem Distinct.modify_found (hd : t.Distinct) (hx : t.entry n = some x)
    {f : NeighborTableEntry → NeighborTableEntry} (hfv : (f x).valid = x.valid)
    (hfn : (f x).llAddr = x.llAddr) :
    ∃ i, t.find n = some i ∧ t[i]? = some x ∧ Becomes t n (f x) none (List.modify t i f) := by
  obtain ⟨hv, hn⟩ := hd.entry_valid hx
  obtain ⟨i, hi, hxi⟩ := Option.bind_eq_some_iff.1 hx
  refine ⟨i, hi, hxi, ?_⟩
  rw [set_eq_modify hxi]
  exact hd.modify hxi hv hn (hfv.trans hv) (hfn.trans hn)

/-! ## Beacons -/

end NeighborTable

namespace NeighborTableEntry

variable {w : IntWidth} {seq : UInt8} {x : NeighborTableEntry}

/-- The entry of a neighbor after its beacon `seq` is counted. -/
def heard (w : IntWidth) (seq : UInt8) (x : NeighborTableEntry) : NeighborTableEntry :=
  let x := x.hear seq
  if x.rcvcnt ≥ blqPktWindow then x.updateEst w else x

/-- The entry of a neighbor after an entry of its beacon for this node. -/
def footer (x : NeighborTableEntry) (outquality : UInt8) : NeighborTableEntry :=
  { x with outquality, outage := maxAge }

/-- The entry of a neighbor after the entries of its beacon for this node. -/
def footers (x : NeighborTableEntry) (qualities : List UInt8) : NeighborTableEntry :=
  qualities.foldl footer x

theorem hear_fixed (x : NeighborTableEntry) (seq : UInt8) :
    (x.hear seq).valid = x.valid ∧ (x.hear seq).llAddr = x.llAddr ∧
    (x.hear seq).pinned = x.pinned ∧ (x.hear seq).inage = maxAge := by
  unfold hear
  dsimp only
  repeat' split
  all_goals exact ⟨rfl, rfl, rfl, rfl⟩

theorem updateEst_fixed (h : x.inage = maxAge) : (x.updateEst w).valid = x.valid ∧
    (x.updateEst w).llAddr = x.llAddr ∧ (x.updateEst w).pinned = x.pinned := by
  have hage : ¬((if x.inage > 0 then x.inage - 1 else x.inage) = 0) := by
    rw [h]
    decide
  unfold updateEst
  dsimp only [updateEETX]
  rw [if_neg fun hc => hage hc.1]
  exact ⟨rfl, rfl, rfl⟩

/-- An entry that is heard from stays valid: its age starts anew. -/
theorem heard_fixed (x : NeighborTableEntry) (seq : UInt8) :
    (x.heard w seq).valid = x.valid ∧ (x.heard w seq).llAddr = x.llAddr ∧
      (x.heard w seq).pinned = x.pinned := by
  obtain ⟨hv, hn, hp, ha⟩ := x.hear_fixed seq
  unfold heard
  dsimp only
  split
  · obtain ⟨hv', hn', hp'⟩ := updateEst_fixed (w := w) ha
    exact ⟨hv'.trans hv, hn'.trans hn, hp'.trans hp⟩
  · exact ⟨hv, hn, hp⟩

theorem footers_fixed (qualities : List UInt8) : (x.footers qualities).valid = x.valid ∧
    (x.footers qualities).llAddr = x.llAddr ∧ (x.footers qualities).pinned = x.pinned := by
  induction qualities generalizing x with
  | nil => exact ⟨rfl, rfl, rfl⟩
  | cons q qs ih => exact ih (x := x.footer q)

theorem updateDEETX_fixed : (x.updateDEETX w).valid = x.valid ∧
    (x.updateDEETX w).llAddr = x.llAddr ∧ (x.updateDEETX w).pinned = x.pinned := by
  unfold updateDEETX
  split <;> exact ⟨rfl, rfl, rfl⟩

theorem tx_fixed {ack : Bool} : (x.tx w ack).valid = x.valid ∧ (x.tx w ack).llAddr = x.llAddr ∧
    (x.tx w ack).pinned = x.pinned := by
  unfold tx
  dsimp only
  by_cases h : x.dataTotal + 1 ≥ dlqPktWindow
  · rw [if_pos h]
    exact updateDEETX_fixed
  · rw [if_neg h]
    exact ⟨rfl, rfl, rfl⟩

end NeighborTableEntry

namespace NeighborTable

variable {t t' : NeighborTable} {n : UInt16} {x : NeighborTableEntry} {i : Nat} {w : IntWidth}
  {v : Option UInt16}

/-- `updateNeighborTableEst` changes one entry. -/
theorem Distinct.updateEst_eq (hd : t.Distinct) (hx : t[i]? = some x) (hv : x.valid = true) :
    t.updateEst w x.llAddr = List.set t i (x.updateEst w) := by
  apply List.ext_getElem?
  intro j
  rw [updateEst, List.getElem?_map, List.getElem?_set]
  by_cases hij : i = j
  · subst hij
    have hlt := (List.getElem?_eq_some_iff.1 hx).1
    have hget := (List.getElem?_eq_some_iff.1 hx).2
    simp [hget, hv, hlt]
  · rw [if_neg hij]
    cases hj : t[j]? with
    | none => rfl
    | some b =>
      have hne : ¬(b.llAddr = x.llAddr ∧ b.valid = true) := fun hc =>
        hij (hd i j x b hx hj hv hc.2 hc.1.symm)
      rw [Option.map_some, if_neg hne]

theorem Distinct.updateEntry_eq (hd : t.Distinct) (hx : t[i]? = some x) (hv : x.valid = true)
    (seq : UInt8) : t.updateEntry w i seq = List.set t i (x.heard w seq) := by
  obtain ⟨hv', hn', -, -⟩ := x.hear_fixed seq
  have hmod := hd.modify (f := (·.hear seq)) hx hv rfl (hv'.trans hv) hn'
  have hlt := (List.getElem?_eq_some_iff.1 hx).1
  have hself : (List.set t i (x.hear seq))[i]? = some (x.hear seq) := List.getElem?_set_self hlt
  unfold updateEntry
  rw [set_eq_modify hx]
  simp only [hself]
  unfold NeighborTableEntry.heard
  dsimp only
  split
  · rw [hmod.distinct.updateEst_eq hself (hv'.trans hv), List.set_set]
  · rfl

theorem Distinct.updateEntry (hd : t.Distinct) (hx : t[i]? = some x) (hv : x.valid = true)
    (hn : x.llAddr = n) (seq : UInt8) :
    Becomes t n (x.heard w seq) none (t.updateEntry w i seq) := by
  obtain ⟨hv', hn', -⟩ := x.heard_fixed (w := w) seq
  rw [hd.updateEntry_eq hx hv]
  exact hd.modify hx hv hn (hv'.trans hv) (hn'.trans hn)

/-- The entries of a beacon for this node go to the entry of the sender. -/
theorem Becomes.footers (h : Becomes t n x v t') (qualities : List UInt8) :
    Becomes t n (x.footers qualities) v
      (qualities.foldl (fun t q => t.updateReverseQuality n q) t') := by
  induction qualities generalizing x t' with
  | nil => exact h
  | cons q qs ih =>
    obtain ⟨i, hi, hx, hmod⟩ := h.distinct.modify_found h.new (f := (·.footer q)) rfl rfl
    have hrev : t'.updateReverseQuality n q = List.modify t' i (·.footer q) := by
      rw [updateReverseQuality, hi]
      rfl
    rw [List.foldl_cons, hrev]
    exact ih (h.trans hmod)

/-! ## Slots for a new neighbor -/

theorem findEmpty_some (h : t.findEmpty = some i) : ∃ o, t[i]? = some o ∧ o.valid = false := by
  obtain ⟨hlt, hp, -⟩ := List.findIdx?_eq_some_iff_getElem.1 h
  exact ⟨t[i], List.getElem?_eq_getElem hlt, by simpa using hp⟩

/-- The loop of `findWorstNeighborIdx` only takes entries that may be evicted. -/
theorem foldl_worst (l : List (NeighborTableEntry × Nat)) (u : Worst)
    (hl : ∀ p ∈ l, t[p.2]? = some p.1)
    (hu : ∀ i, u.idx = some i → ∃ o, t[i]? = some o ∧ o.valid = true ∧ o.mature = true ∧
      o.pinned = false) {i : Nat} (h : (l.foldl Worst.turn u).idx = some i) :
    ∃ o, t[i]? = some o ∧ o.valid = true ∧ o.mature = true ∧ o.pinned = false := by
  induction l generalizing u with
  | nil => exact hu i h
  | cons p l ih =>
    refine ih (u.turn p) (fun q hq => hl q (.tail _ hq)) ?_ h
    intro j hj
    unfold Worst.turn at hj
    split at hj
    · exact hu j hj
    next hc =>
      split at hj
      · cases hj
        simp only [Bool.or_eq_true, Bool.not_eq_true', not_or, Bool.not_eq_false,
          Bool.not_eq_true] at hc
        exact ⟨p.1, hl p (.head _), hc.1.1, hc.1.2, hc.2⟩
      · exact hu j hj

/-- A neighbor that is evicted is mature and not pinned. -/
theorem findWorst_some {threshold : UInt16} (h : t.findWorst threshold = some i) :
    ∃ o, t[i]? = some o ∧ o.valid = true ∧ o.mature = true ∧ o.pinned = false := by
  obtain ⟨-, h⟩ := Option.ite_none_right_eq_some.1 h
  refine foldl_worst t.zipIdx {} ?_ nofun h
  intro p hp
  exact (List.mem_zipIdx_iff_getElem?.1 hp)

/-- A slot that is empty or whose neighbor is evicted gets a new neighbor. -/
theorem Distinct.initNeighborIdx (hd : t.Distinct) (hn : t.entry n = none) {o : NeighborTableEntry}
    (ho : t[i]? = some o) :
    Becomes t n (o.initNeighbor n) (if o.valid then some o.llAddr else none)
      (t.initNeighborIdx i n) := by
  rw [NeighborTable.initNeighborIdx, set_eq_modify ho]
  refine hd.set (y := o.initNeighbor n) ho rfl ?_
  intro j b _ hb hv
  exact entry_eq_none_iff.1 hn b (List.mem_of_getElem? hb) hv

theorem victim_eq {o : NeighborTableEntry} (ho : t[i]? = some o) : t.victim i = some o.llAddr := by
  rw [victim, ho]
  rfl

/-- What `insertNeighbor` does to the table, and the neighbor it evicts. -/
inductive Inserts (t : NeighborTable) (n : UInt16) : NeighborTable → Option UInt16 → Prop
  | known : t.entry n ≠ none → Inserts t n t none
  | full : t.entry n = none → t.findEmpty = none → Inserts t n t none
  | fresh {t' : NeighborTable} (i : Nat) (o : NeighborTableEntry) : t.entry n = none →
      t.findEmpty = some i → t[i]? = some o → Becomes t n (o.initNeighbor n) none t' →
      Inserts t n t' none
  | replaced {t' : NeighborTable} (i : Nat) (o : NeighborTableEntry) : t.entry n = none →
      t.findEmpty = none → t.findWorst bestEetx = some i → t[i]? = some o → o.valid = true →
      o.pinned = false → Becomes t n (o.initNeighbor n) (some o.llAddr) t' →
      Inserts t n t' (some o.llAddr)

theorem Distinct.inserts (hd : t.Distinct) (n : UInt16) :
    Inserts t n (t.insertNeighbor n).2.1 (t.insertNeighbor n).2.2 := by
  unfold insertNeighbor
  split
  next hf =>
    refine .known fun h => ?_
    rw [find_eq_none_iff.2 h] at hf
    cases hf
  next hf =>
    have hn := find_eq_none_iff.1 hf
    split
    next i hi =>
      obtain ⟨o, ho, hv⟩ := findEmpty_some hi
      have hb := hd.initNeighborIdx hn ho
      rw [if_neg (by rw [hv]; exact Bool.false_ne_true)] at hb
      exact .fresh i o hn hi ho hb
    next hi =>
      split
      next j hj =>
        obtain ⟨o, ho, hv, -, hp⟩ := findWorst_some hj
        have hb := hd.initNeighborIdx hn ho
        rw [if_pos hv] at hb
        dsimp only
        rw [victim_eq ho]
        exact .replaced j o hn hi hj ho hv hp hb
      · exact .full hn hi

/-! ## What a received message does -/

/-- The qualities that a message's entries give this node. -/
def qualities (myLlAddr : UInt16) (f : Frame) : List UInt8 :=
  ((LinkEstimatorP.footers f.len (f.mem 0 &&& numEntriesFlag).toNat).filter
    fun a => (readAddr a).val f.mem = myLlAddr).map fun a => f.mem (a + 2)

theorem val_foldlM_readEntry (myLlAddr n : UInt16) (mem : Int → UInt8) (l : List Int)
    (t : NeighborTable) : (l.foldlM (readEntry myLlAddr n) t).val mem =
      ((l.filter fun a => (readAddr a).val mem = myLlAddr).map fun a => mem (a + 2)).foldl
        (fun t q => t.updateReverseQuality n q) t := by
  induction l generalizing t with
  | nil => rfl
  | cons a l ih =>
    rw [List.foldlM_cons, Probe.val_bind, ih]
    have hread : (readEntry myLlAddr n t a).val mem =
        if (readAddr a).val mem = myLlAddr then t.updateReverseQuality n (mem (a + 2)) else t := by
      unfold readEntry
      rw [Probe.val_bind]
      split <;> rfl
    rw [hread]
    by_cases h : (readAddr a).val mem = myLlAddr
    · rw [if_pos h, List.filter_cons_of_pos (by simpa using h), List.map_cons, List.foldl_cons]
    · rw [if_neg h, List.filter_cons_of_neg (by simpa using h)]

/-- What `processReceivedMessage` does to the table, and the neighbor it evicts. -/
inductive Hears (w : IntWidth) (myLlAddr : UInt16) (t : NeighborTable) (f : Frame) :
    NeighborTable → Option UInt16 → Prop
  | unicast : f.destination ≠ amBroadcastAddr → Hears w myLlAddr t f t none
  | full : f.destination = amBroadcastAddr → t.entry f.source = none →
      t.findEmpty = none → Hears w myLlAddr t f t none
  | known {t' : NeighborTable} (x : NeighborTableEntry) : f.destination = amBroadcastAddr →
      t.entry f.source = some x →
      Becomes t f.source ((x.heard w (f.mem 1)).footers (qualities myLlAddr f)) none t' →
      Hears w myLlAddr t f t' none
  | fresh {t' : NeighborTable} (i : Nat) (o : NeighborTableEntry) :
      f.destination = amBroadcastAddr → t.entry f.source = none →
      t.findEmpty = some i → t[i]? = some o →
      Becomes t f.source
        (((o.initNeighbor f.source).heard w (f.mem 1)).footers (qualities myLlAddr f)) none t' →
      Hears w myLlAddr t f t' none
  | replaced {t' : NeighborTable} (i : Nat) (o : NeighborTableEntry) :
      f.destination = amBroadcastAddr → t.entry f.source = none → t.findEmpty = none →
      t.findWorst evictEetxThreshold = some i → t[i]? = some o → o.valid = true →
      o.pinned = false →
      Becomes t f.source ((o.initNeighbor f.source).footers (qualities myLlAddr f))
        (some o.llAddr) t' →
      Hears w myLlAddr t f t' (some o.llAddr)

/-- The entries are read if the sender is in the table. -/
theorem process_val {w : IntWidth} {myLlAddr : UInt16} {f : Frame} {evicted : Option UInt16}
    {found : Bool} (hdest : f.destination = amBroadcastAddr)
    (h : (hearSender w t f.source).val f.mem = (t', found, evicted)) :
    (processReceivedMessage w myLlAddr t f).val f.mem =
      (if found then
        (qualities myLlAddr f).foldl (fun t q => t.updateReverseQuality f.source q) t'
      else t', evicted) := by
  unfold processReceivedMessage
  rw [if_pos hdest, Probe.val_bind, Probe.val_bind, h]
  dsimp only
  cases found with
  | false => rfl
  | true =>
    rw [Bool.true_and, if_pos rfl]
    split
    · rw [Probe.val_bind, val_foldlM_readEntry]
      rfl
    next h0 =>
      have hn : (f.mem 0 &&& numEntriesFlag).toNat = 0 := by simpa using h0
      have hq : qualities myLlAddr f = [] := by
        unfold qualities
        rw [hn]
        rfl
      rw [hq]
      rfl

theorem Distinct.hears (hd : t.Distinct) (w : IntWidth) (myLlAddr : UInt16) (f : Frame) :
    Hears w myLlAddr t f ((processReceivedMessage w myLlAddr t f).val f.mem).1
      ((processReceivedMessage w myLlAddr t f).val f.mem).2 := by
  by_cases hdest : f.destination = amBroadcastAddr
  · cases hf : t.find f.source with
    | some i =>
      obtain ⟨x, hx, hv, hn⟩ := find_eq_some hf
      have hsender : (hearSender w t f.source).val f.mem =
          (t.updateEntry w i (f.mem 1), true, none) := by
        unfold hearSender
        rw [hf]
        rfl
      rw [process_val hdest hsender]
      exact .known x hdest (hd.entry_eq_some_iff.2 ⟨i, hx, hv, hn⟩)
        ((hd.updateEntry hx hv hn _).footers _)
    | none =>
      have hnone := find_eq_none_iff.1 hf
      cases he : t.findEmpty with
      | some i =>
        have hsender : (hearSender w t f.source).val f.mem =
            ((t.initNeighborIdx i f.source).updateEntry w i (f.mem 1), true, none) := by
          unfold hearSender
          rw [hf, he]
          rfl
        obtain ⟨o, ho, hv⟩ := findEmpty_some he
        have hb := hd.initNeighborIdx hnone ho
        rw [if_neg (by rw [hv]; exact Bool.false_ne_true)] at hb
        have hi : (t.initNeighborIdx i f.source)[i]? = some (o.initNeighbor f.source) := by
          rw [NeighborTable.initNeighborIdx, set_eq_modify ho]
          exact List.getElem?_set_self (List.getElem?_eq_some_iff.1 ho).1
        rw [process_val hdest hsender]
        exact .fresh i o hdest hnone he ho
          ((hb.trans (hb.distinct.updateEntry hi rfl rfl _)).footers _)
      | none =>
        cases hw : t.findWorst evictEetxThreshold with
        | some i =>
          have hsender : (hearSender w t f.source).val f.mem =
              (t.initNeighborIdx i f.source, true, t.victim i) := by
            unfold hearSender
            rw [hf, he, hw]
            rfl
          obtain ⟨o, ho, hv, -, hp⟩ := findWorst_some hw
          have hb := hd.initNeighborIdx hnone ho
          rw [if_pos hv] at hb
          rw [process_val hdest hsender, victim_eq ho]
          exact .replaced i o hdest hnone he hw ho hv hp (hb.footers _)
        | none =>
          have hsender : (hearSender w t f.source).val f.mem = (t, false, none) := by
            unfold hearSender
            rw [hf, he, hw]
            rfl
          rw [process_val hdest hsender]
          exact .full hdest hnone he
  · have hval : (processReceivedMessage w myLlAddr t f).val f.mem = (t, none) := by
      unfold processReceivedMessage
      rw [if_neg hdest]
      rfl
    rw [hval]
    exact .unicast hdest

/-! ## Commands -/

/-- What a command on an entry does to the table. -/
theorem Distinct.onEntry_cases (hd : t.Distinct) (n : UInt16)
    {g : NeighborTableEntry → NeighborTableEntry} (hg : ∀ x, (g x).valid = x.valid ∧
      (g x).llAddr = x.llAddr) :
    t.entry n = none ∧ (t.onEntry n g).2 = t ∨
    ∃ x, t.entry n = some x ∧ Becomes t n (g x) none (t.onEntry n g).2 := by
  unfold onEntry
  cases hx : t.entry n with
  | none =>
    rw [find_eq_none_iff.2 hx]
    exact .inl ⟨rfl, rfl⟩
  | some x =>
    obtain ⟨i, hi, -, hb⟩ := hd.modify_found hx (hg x).1 (hg x).2
    rw [hi]
    exact .inr ⟨x, rfl, hb⟩

theorem distinct_init : Distinct init := by
  intro i j a b ha _ hv _ _
  rw [List.eq_of_mem_replicate (List.mem_of_getElem? ha)] at hv
  cases hv

theorem getLinkQuality_eq (t : NeighborTable) (n : UInt16) : t.getLinkQuality n =
    match t.entry n with
    | some ne => if ne.mature then ne.eetx else veryLargeEetxValue
    | none => veryLargeEetxValue :=
  rfl

end NeighborTable

end LinkEstimatorP
