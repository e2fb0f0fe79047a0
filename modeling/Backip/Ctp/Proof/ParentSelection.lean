import Backip.Ctp.CtpRoutingEngineP
import Mathlib.Data.List.MinMax
import Mathlib.Data.List.Pairwise

/-!
# CTP: the parent that `updateRouteTask` leaves

`Sound link e e'`: the parent after the task is a neighbor that advertises a parent of its own, and a
new parent has the least cost, computed over the integers. `updateRouteTask_sound_iff`: the task is
sound exactly if its inputs meet `Fits`. It keeps a parent that has come to advertise this node, if
there is no candidate to replace it (`Fits.kept`), and it compares costs that have lost their
seventeenth bit (`Fits.least`, `Fits.better`).

The loop finds the first of the candidates with the least `pathEtx` (`scan_eq`).
-/

set_option autoImplicit false

namespace CtpRoutingEngineP

variable {c : Config} (link : UInt16 → UInt16)

/-! ## Neighbors and their costs -/

namespace RoutingTableEntry

/-- The neighbor advertises a parent, which is not this node. -/
def Valid (myLlAddr : UInt16) (entry : RoutingTableEntry) : Prop :=
  ¬(entry.info.parent = invalidAddr ∨ entry.info.parent = myLlAddr)

instance (myLlAddr : UInt16) : DecidablePred (Valid myLlAddr) :=
  fun entry => inferInstanceAs (Decidable ¬(_ ∨ _))

/-- A valid neighbor that is not congested and has a good link. -/
def Eligible (myLlAddr : UInt16) (entry : RoutingTableEntry) : Prop :=
  entry.Valid myLlAddr ∧ entry.info.congested = false ∧
    passLinkEtxThreshold (link entry.neighbor) = true

instance (myLlAddr : UInt16) : DecidablePred (Eligible link myLlAddr) :=
  fun entry => inferInstanceAs (Decidable (_ ∧ _ ∧ _))

/-- The link cost plus the advertised cost. -/
def cost (entry : RoutingTableEntry) : Nat :=
  (link entry.neighbor).toNat + entry.info.etx.toNat

/-- The cost in 16 bits. -/
def pathEtx (entry : RoutingTableEntry) : UInt16 := link entry.neighbor + entry.info.etx

theorem pathEtx_toNat (entry : RoutingTableEntry) :
    (entry.pathEtx link).toNat = entry.cost link % 65536 :=
  UInt16.toNat_add _ _

variable {link} in
/-- A good link adds little to the advertised cost. -/
theorem Eligible.cost_lt {myLlAddr : UInt16} {entry : RoutingTableEntry}
    (h : entry.Eligible link myLlAddr) : entry.cost link < 65585 := by
  have h₁ : (link entry.neighbor).toNat < 50 := by
    simpa [passLinkEtxThreshold, UInt16.lt_iff_toNat_lt, etxThreshold] using h.2.2
  have h₂ := entry.info.etx.toNat_lt
  simp only [cost]
  omega

end RoutingTableEntry

open RoutingTableEntry

/-- Two entries for one neighbor are the same. -/
theorem RoutingTable.eq_of_neighbor {t : RoutingTable c} {x y : RoutingTableEntry}
    (hx : x ∈ t.entries) (hy : y ∈ t.entries) (hn : x.neighbor = y.neighbor)
    (hne : y.neighbor ≠ invalidAddr) : x = y := by
  by_contra hxy
  let R (x y : RoutingTableEntry) := x.neighbor = y.neighbor → x.neighbor = invalidAddr
  have : Std.Symm R := ⟨fun _ _ h heq => heq.trans (h heq.symm)⟩
  have hpair : t.entries.Pairwise R := List.pairwise_map.1 t.unique
  exact hne (hn.symm.trans (hpair.forall hx hy hxy hn))

/-! ## What the loop finds -/

section Loop

variable (myLlAddr parent : UInt16)

/-- The neighbors that can replace the parent. -/
def candidates (l : List RoutingTableEntry) : List RoutingTableEntry :=
  l.filter fun entry => entry.Eligible link myLlAddr ∧ entry.neighbor ≠ parent

/-- The first candidate with the least cost in 16 bits. -/
def least (l : List RoutingTableEntry) : Option RoutingTableEntry :=
  (candidates link myLlAddr parent l).argmin fun entry => (entry.pathEtx link).toNat

/-- The last valid entry for the parent. -/
def via (l : List RoutingTableEntry) : Option RoutingTableEntry :=
  (l.filter fun entry => entry.Valid myLlAddr ∧ entry.neighbor = parent).getLast?

/-- The cost through the parent in 16 bits, and what is known of the parent. -/
def current (r : RouteInfo) (l : List RoutingTableEntry) : UInt16 × RouteInfo :=
  match via myLlAddr r.parent l with
  | none => (maxMetric, r)
  | some o => (o.pathEtx link, { r with etx := o.info.etx, congested := o.info.congested })

/-- The loop's variables for a choice of the best candidate. -/
def found (r : RouteInfo) (l : List RoutingTableEntry) (best : Option RoutingTableEntry) : Scan where
  best := best
  minEtx := best.elim maxMetric (pathEtx link)
  currentEtx := (current link myLlAddr r l).1
  routeInfo := (current link myLlAddr r l).2

/-- The least candidate, unless its cost is `MAX_METRIC`. -/
def winner (l : List RoutingTableEntry) : Option RoutingTableEntry :=
  (least link myLlAddr parent l).filter fun best => best.pathEtx link ≠ maxMetric

variable {link myLlAddr parent}

theorem mem_candidates {l : List RoutingTableEntry} {entry : RoutingTableEntry} :
    entry ∈ candidates link myLlAddr parent l ↔
      entry ∈ l ∧ entry.Eligible link myLlAddr ∧ entry.neighbor ≠ parent := by
  simp [candidates]

theorem winner_eq_some {l : List RoutingTableEntry} {best : RoutingTableEntry} :
    winner link myLlAddr parent l = some best ↔
      least link myLlAddr parent l = some best ∧ best.pathEtx link ≠ maxMetric := by
  simp [winner]

theorem candidates_snoc {l : List RoutingTableEntry} {x : RoutingTableEntry} :
    candidates link myLlAddr parent (l ++ [x]) =
      if x.Eligible link myLlAddr ∧ x.neighbor ≠ parent then
        candidates link myLlAddr parent l ++ [x]
      else candidates link myLlAddr parent l := by
  rw [candidates, List.filter_append, ← candidates]
  by_cases h : x.Eligible link myLlAddr ∧ x.neighbor ≠ parent
  · rw [if_pos h, List.filter_cons_of_pos (by simpa using h), List.filter_nil]
  · rw [if_neg h, List.filter_cons_of_neg (by simpa using h), List.filter_nil, List.append_nil]

theorem least_snoc_of_not {l : List RoutingTableEntry} {x : RoutingTableEntry}
    (h : ¬(x.Eligible link myLlAddr ∧ x.neighbor ≠ parent)) :
    least link myLlAddr parent (l ++ [x]) = least link myLlAddr parent l := by
  rw [least, candidates_snoc, if_neg h, least]

theorem current_snoc_of_not {r : RouteInfo} {l : List RoutingTableEntry} {x : RoutingTableEntry}
    (h : ¬(x.Valid myLlAddr ∧ x.neighbor = r.parent)) :
    current link myLlAddr r (l ++ [x]) = current link myLlAddr r l := by
  have : via myLlAddr r.parent (l ++ [x]) = via myLlAddr r.parent l := by
    simp [via, List.filter_append, h]
  rw [current, this, current]

theorem current_snoc {r : RouteInfo} {l : List RoutingTableEntry} {x : RoutingTableEntry}
    (h : x.Valid myLlAddr ∧ x.neighbor = r.parent) :
    current link myLlAddr r (l ++ [x]) =
      (x.pathEtx link, { r with etx := x.info.etx, congested := x.info.congested }) := by
  have : via myLlAddr r.parent (l ++ [x]) = some x := by
    simp [via, List.filter_append, h]
  rw [current, this]

theorem current_parent {r : RouteInfo} {l : List RoutingTableEntry} :
    (current link myLlAddr r l).2.parent = r.parent := by
  rw [current]
  split <;> rfl

theorem found_parent {r : RouteInfo} {l : List RoutingTableEntry}
    {best : Option RoutingTableEntry} :
    (found link myLlAddr r l best).routeInfo.parent = r.parent :=
  current_parent

theorem lt_maxMetric_iff {x : UInt16} : x < maxMetric ↔ x ≠ maxMetric := by
  rw [UInt16.lt_iff_toNat_lt, ne_eq, ← UInt16.toNat_inj]
  have := x.toNat_lt
  have : maxMetric.toNat = 65535 := rfl
  omega

/-- A further candidate wins if it is strictly cheaper. -/
theorem winner_snoc {l : List RoutingTableEntry} {x : RoutingTableEntry}
    (h : x.Eligible link myLlAddr ∧ x.neighbor ≠ parent) :
    winner link myLlAddr parent (l ++ [x]) =
      if x.pathEtx link < (winner link myLlAddr parent l).elim maxMetric (pathEtx link) then some x
      else winner link myLlAddr parent l := by
  have hsnoc : winner link myLlAddr parent (l ++ [x]) =
      ((candidates link myLlAddr parent l ++ [x]).argmin fun entry =>
        (entry.pathEtx link).toNat).filter fun best => best.pathEtx link ≠ maxMetric := by
    rw [winner, least, candidates_snoc, if_pos h]
  rw [hsnoc, List.argmin_concat]
  cases hl : (candidates link myLlAddr parent l).argmin fun entry => (entry.pathEtx link).toNat with
  | none =>
    have hw : winner link myLlAddr parent l = none := by rw [winner, least, hl]; rfl
    simp [hw, Option.filter, lt_maxMetric_iff]
  | some b =>
    simp only [← UInt16.lt_iff_toNat_lt]
    by_cases hb : b.pathEtx link = maxMetric
    · -- nothing was found below `MAX_METRIC` before
      have hw : winner link myLlAddr parent l = none := by rw [winner, least, hl]; simp [hb]
      by_cases hx : x.pathEtx link = maxMetric <;> simp [hw, hx, hb, lt_maxMetric_iff]
    · have hw : winner link myLlAddr parent l = some b := winner_eq_some.2 ⟨hl, hb⟩
      rw [hw, Option.elim_some]
      by_cases hx : x.pathEtx link < b.pathEtx link
      · have hx' : x.pathEtx link ≠ maxMetric :=
          lt_maxMetric_iff.1 (UInt16.lt_trans hx (lt_maxMetric_iff.2 hb))
        simp [hx, hx']
      · simp [hx, hb]

/-- The loop finds the winner and the current cost. -/
theorem foldl_turn (r : RouteInfo) (l : List RoutingTableEntry) :
    l.foldl (Scan.turn myLlAddr link) { routeInfo := r } =
      found link myLlAddr r l (winner link myLlAddr r.parent l) := by
  induction l using List.reverseRecOn with
  | nil => rfl
  | append_singleton l x ih =>
    rw [List.foldl_append, ih, List.foldl_cons, List.foldl_nil, Scan.turn]
    have hkeep (h : ¬(x.Eligible link myLlAddr ∧ x.neighbor ≠ r.parent)) :
        winner link myLlAddr r.parent (l ++ [x]) = winner link myLlAddr r.parent l := by
      rw [winner, least_snoc_of_not h, winner]
    by_cases hv : x.Valid myLlAddr
    · rw [if_neg hv]
      by_cases hp : x.neighbor = r.parent
      · rw [if_pos (hp.trans found_parent.symm), hkeep fun h => h.2 hp]
        simp only [found, current_snoc ⟨hv, hp⟩, pathEtx]
        rw [current]
        split <;> rfl
      · have hcur : current link myLlAddr r (l ++ [x]) = current link myLlAddr r l :=
          current_snoc_of_not fun h => hp h.2
        rw [if_neg fun h => hp (h.trans found_parent)]
        by_cases hc : x.info.congested = true
        · rw [if_pos hc, hkeep fun h => by simp [h.1.2.1] at hc]
          simp only [found, hcur]
        · rw [if_neg hc]
          by_cases hl : passLinkEtxThreshold (link x.neighbor) = true
          · have he : x.Eligible link myLlAddr := ⟨hv, Bool.eq_false_of_not_eq_true hc, hl⟩
            rw [winner_snoc ⟨he, hp⟩, if_neg (by simp [hl])]
            by_cases hlt : x.pathEtx link < (winner link myLlAddr r.parent l).elim maxMetric
                (pathEtx link)
            · rw [if_pos hlt]
              refine (if_pos hlt).trans ?_
              simp only [found, hcur]
              rfl
            · rw [if_neg hlt]
              refine (if_neg hlt).trans ?_
              simp only [found, hcur]
          · rw [if_pos (by simpa using hl), hkeep fun h => hl h.1.2.2]
            simp only [found, hcur]
    · have hi : x.info.parent = invalidAddr ∨ x.info.parent = myLlAddr := not_not.1 hv
      rw [if_pos hi, hkeep fun h => hv h.1.1]
      simp only [found, current_snoc_of_not fun h => hv h.1]

end Loop

/-! ## The task -/

namespace Engine

@[simp] theorem resetInterval_routeInfo (r : UInt32) (e : Engine c) :
    (e.resetInterval r).routeInfo = e.routeInfo := rfl

@[simp] theorem resetInterval_routingTable (r : UInt32) (e : Engine c) :
    (e.resetInterval r).routingTable = e.routingTable := rfl

@[simp] theorem tell_routeInfo (v : Scan) (e : Engine c) : (e.tell v).routeInfo = e.routeInfo := by
  simp only [tell]
  split
  · rfl
  · split <;> rfl

@[simp] theorem tell_routingTable (v : Scan) (e : Engine c) :
    (e.tell v).routingTable = e.routingTable := by
  simp only [tell]
  split
  · rfl
  · split <;> rfl

@[simp] theorem changeParent_parent (v : Scan) (best : RoutingTableEntry) (r : UInt32)
    (e : Engine c) : (e.changeParent v best r).routeInfo.parent = best.neighbor := by
  simp only [changeParent]
  split <;> rfl

@[simp] theorem changeParent_routingTable (v : Scan) (best : RoutingTableEntry) (r : UInt32)
    (e : Engine c) : (e.changeParent v best r).routingTable = e.routingTable := by
  simp only [changeParent]
  split <;> rfl

/-- The winner, if there is one. -/
def winner (e : Engine c) : Option RoutingTableEntry :=
  CtpRoutingEngineP.winner link e.myLlAddr e.routeInfo.parent e.routingTable.entries

/-- Whether the task gives up the parent for `best`. -/
def Switches (e : Engine c) (best : RoutingTableEntry) : Prop :=
  (found link e.myLlAddr e.routeInfo e.routingTable.entries (some best)).switches = true

instance (e : Engine c) (best : RoutingTableEntry) : Decidable (e.Switches link best) :=
  inferInstanceAs (Decidable (_ = true))

variable {link}

theorem scan_eq (e : Engine c) :
    e.scan link = found link e.myLlAddr e.routeInfo e.routingTable.entries (e.winner link) :=
  foldl_turn _ _

theorem updateRouteTask_routingTable (r : UInt32) (e : Engine c) :
    (e.updateRouteTask link r).routingTable = e.routingTable := by
  rw [updateRouteTask]
  split
  · rfl
  · dsimp only
    split
    · split <;> simp
    · simp

/-- The task changes the parent to a winner it switches to. -/
theorem updateRouteTask_parent_of_switches {e : Engine c} (hroot : e.stateIsRoot = false)
    {best : RoutingTableEntry} (hw : e.winner link = some best) (hs : e.Switches link best)
    (r : UInt32) : (e.updateRouteTask link r).routeInfo.parent = best.neighbor := by
  rw [updateRouteTask, hroot, if_neg Bool.false_ne_true, scan_eq, hw]
  have hs' : (found link e.myLlAddr e.routeInfo e.routingTable.entries (some best)).switches = true :=
    hs
  simp only [hs', if_true]
  simp [found]

/-- Otherwise it keeps the parent. -/
theorem updateRouteTask_parent_of_not_switches {e : Engine c}
    (h : ∀ best, e.winner link = some best → ¬e.Switches link best) (r : UInt32) :
    (e.updateRouteTask link r).routeInfo.parent = e.routeInfo.parent := by
  rw [updateRouteTask]
  split
  · rfl
  · dsimp only
    rw [scan_eq]
    cases hw : e.winner link with
    | none => simp [found, current_parent]
    | some best =>
      have hs : ¬(found link e.myLlAddr e.routeInfo e.routingTable.entries
          (some best)).switches = true := h best hw
      simp only [hs]
      simp [found, current_parent]

/-! ## Soundness -/

variable (link)

/-- What the task is for: `e'` is the engine after it. -/
structure Sound (e e' : Engine c) : Prop where
  parent : e'.routeInfo.parent = invalidAddr ∨
    ∃ entry ∈ e'.routingTable.entries,
      entry.neighbor = e'.routeInfo.parent ∧ entry.Valid e.myLlAddr
  changed : e'.routeInfo.parent ≠ e.routeInfo.parent → e'.routeInfo.parent ≠ invalidAddr →
    ∃ best ∈ e.routingTable.entries, best.neighbor = e'.routeInfo.parent ∧
      passLinkEtxThreshold (link best.neighbor) = true ∧
      (∀ entry ∈ e.routingTable.entries, entry.Eligible link e.myLlAddr →
        entry.neighbor ≠ e.routeInfo.parent → best.cost link ≤ entry.cost link) ∧
      ∀ old ∈ e.routingTable.entries, old.neighbor = e.routeInfo.parent →
        e.routeInfo.parent ≠ invalidAddr → old.Eligible link e.myLlAddr →
        best.cost link + parentSwitchThreshold.toNat < old.cost link

/-- The inputs on which the task is sound. -/
structure Fits (e : Engine c) : Prop where
  /-- The parent is valid, or there is a candidate for its place. -/
  kept : e.routeInfo.parent = invalidAddr ∨
    (∃ entry ∈ e.routingTable.entries,
      entry.neighbor = e.routeInfo.parent ∧ entry.Valid e.myLlAddr) ∨
    ∃ entry ∈ candidates link e.myLlAddr e.routeInfo.parent e.routingTable.entries,
      entry.pathEtx link ≠ maxMetric
  /-- If the task switches, the cost of the least candidate fits in 16 bits, or that of no candidate
  does. -/
  leastFits : ∀ best ∈ least link e.myLlAddr e.routeInfo.parent e.routingTable.entries,
    best.neighbor ≠ invalidAddr → e.Switches link best → best.cost link < 65536 ∨
      ∀ entry ∈ candidates link e.myLlAddr e.routeInfo.parent e.routingTable.entries,
        65536 ≤ entry.cost link
  /-- If the task gives up an eligible parent with a cost that fits, the new cost is far enough from
  `MAX_METRIC`. -/
  better : ∀ best ∈ least link e.myLlAddr e.routeInfo.parent e.routingTable.entries,
    best.neighbor ≠ invalidAddr → e.Switches link best → ∀ old ∈ e.routingTable.entries, old.neighbor = e.routeInfo.parent →
      e.routeInfo.parent ≠ invalidAddr → old.Eligible link e.myLlAddr → old.cost link < 65536 →
      best.cost link + parentSwitchThreshold.toNat < maxMetric.toNat

variable {link}

/-- What is known of an old parent that has a valid entry. -/
theorem current_of_valid {e : Engine c} {old : RoutingTableEntry}
    (hold : old ∈ e.routingTable.entries) (hp : old.neighbor = e.routeInfo.parent)
    (hne : e.routeInfo.parent ≠ invalidAddr) (hv : old.Valid e.myLlAddr) :
    current link e.myLlAddr e.routeInfo e.routingTable.entries = (old.pathEtx link,
      { e.routeInfo with etx := old.info.etx, congested := old.info.congested }) := by
  have hmem : old ∈ e.routingTable.entries.filter fun entry =>
      entry.Valid e.myLlAddr ∧ entry.neighbor = e.routeInfo.parent := by
    simp [hold, hp, hv]
  obtain ⟨o, ho⟩ : ∃ o, via e.myLlAddr e.routeInfo.parent e.routingTable.entries = some o :=
    Option.ne_none_iff_exists'.1 fun h => List.ne_nil_of_mem hmem (List.getLast?_eq_none_iff.1 h)
  have ho' := List.mem_filter.1 (List.mem_of_getLast? ho)
  simp only [decide_eq_true_eq] at ho'
  have : o = old := RoutingTable.eq_of_neighbor ho'.1 hold (ho'.2.2.trans hp.symm) (hp ▸ hne)
  rw [current, ho, this]

/-- An engine that switches sees that the least candidate is cheaper, in 16 bits. -/
theorem Switches.lt {e : Engine c} {best old : RoutingTableEntry} (hs : e.Switches link best)
    (hold : old ∈ e.routingTable.entries) (hp : old.neighbor = e.routeInfo.parent)
    (hne : e.routeInfo.parent ≠ invalidAddr) (he : old.Eligible link e.myLlAddr) :
    best.pathEtx link ≠ maxMetric ∧ (old.pathEtx link = maxMetric ∨
      best.pathEtx link + parentSwitchThreshold < old.pathEtx link) := by
  have hcur : current link e.myLlAddr e.routeInfo e.routingTable.entries = _ :=
    current_of_valid hold hp hne he.1
  simpa [Switches, Scan.switches, found, hcur, he.2.1] using hs

/-- A parent that the task keeps although a candidate is there has a valid entry. -/
theorem valid_of_not_switches {e : Engine c} {best : RoutingTableEntry}
    (hbest : best.pathEtx link ≠ maxMetric) (hs : ¬e.Switches link best) :
    ∃ entry ∈ e.routingTable.entries,
      entry.neighbor = e.routeInfo.parent ∧ entry.Valid e.myLlAddr := by
  cases hv : via e.myLlAddr e.routeInfo.parent e.routingTable.entries with
  | none =>
    have hcur : (current link e.myLlAddr e.routeInfo e.routingTable.entries).1 = maxMetric := by
      rw [current, hv]
    exact absurd (by simp [Switches, Scan.switches, found, hcur, hbest]) hs
  | some o =>
    have ho := List.mem_filter.1 (List.mem_of_getLast? hv)
    simp only [decide_eq_true_eq] at ho
    exact ⟨o, ho.1, ho.2.2, ho.2.1⟩

/-- A task that does not switch is sound if the parent it keeps is. -/
theorem sound_iff_of_not_switches {e : Engine c}
    (h : ∀ best, e.winner link = some best → ¬e.Switches link best) (r : UInt32) :
    Sound link e (e.updateRouteTask link r) ↔ Fits link e := by
  have hpar := updateRouteTask_parent_of_not_switches h r
  have htab : (e.updateRouteTask link r).routingTable = e.routingTable :=
    updateRouteTask_routingTable r e
  have hno : ∀ best ∈ least link e.myLlAddr e.routeInfo.parent e.routingTable.entries,
      ¬e.Switches link best := by
    intro best hbest hs
    have : best.pathEtx link ≠ maxMetric := by
      intro hmax
      simp [Switches, Scan.switches, found, hmax] at hs
    exact h best (winner_eq_some.2 ⟨hbest, this⟩) hs
  constructor
  · intro hsound
    have hp := hsound.parent
    rw [hpar, htab] at hp
    exact ⟨hp.imp_right .inl, fun best hb _ hs => absurd hs (hno best hb),
      fun best hb _ hs => absurd hs (hno best hb)⟩
  · intro hfits
    refine ⟨?_, fun hne => absurd hpar hne⟩
    rw [hpar, htab]
    rcases hfits.kept with hp | hv | ⟨entry, hmem, hentry⟩
    · exact .inl hp
    · exact .inr hv
    · -- with a candidate below `MAX_METRIC` there is a winner
      obtain ⟨best, hbest⟩ : ∃ best,
          least link e.myLlAddr e.routeInfo.parent e.routingTable.entries = some best :=
        Option.ne_none_iff_exists'.1 fun hn =>
          List.ne_nil_of_mem hmem (List.argmin_eq_none.1 hn)
      have hle := List.le_of_mem_argmin hmem hbest
      have hmax : best.pathEtx link ≠ maxMetric := by
        intro hmax
        have := (entry.pathEtx link).toNat_lt
        have h' := mt UInt16.toNat_inj.1 hentry
        rw [hmax] at hle
        have : maxMetric.toNat = 65535 := rfl
        omega
      exact .inr (valid_of_not_switches hmax (hno best hbest))

/-- A task that switches is sound if no cost misleads it. -/
theorem sound_iff_of_switches {e : Engine c} (hroot : e.stateIsRoot = false)
    {best : RoutingTableEntry} (hw : e.winner link = some best) (hs : e.Switches link best)
    (r : UInt32) : Sound link e (e.updateRouteTask link r) ↔ Fits link e := by
  have hpar := updateRouteTask_parent_of_switches hroot hw hs r
  have htab : (e.updateRouteTask link r).routingTable = e.routingTable :=
    updateRouteTask_routingTable r e
  obtain ⟨hleast, hmax⟩ := winner_eq_some.1 hw
  have hmem := List.argmin_mem hleast
  obtain ⟨hbest, helig, hne⟩ := mem_candidates.1 hmem
  constructor
  · intro hsound
    refine ⟨.inr (.inr ⟨best, hmem, hmax⟩), ?_, ?_⟩
    · intro best' hb' hinv _
      cases hleast.symm.trans hb'
      obtain ⟨b, hb, hbn, -, hmin, -⟩ := hsound.changed (hpar ▸ hne) (hpar ▸ hinv)
      rw [hpar] at hbn
      cases RoutingTable.eq_of_neighbor hb hbest hbn hinv
      by_cases hfit : best.cost link < 65536
      · exact .inl hfit
      · right
        intro entry hentry
        obtain ⟨h₁, h₂, h₃⟩ := mem_candidates.1 hentry
        have := hmin entry h₁ h₂ h₃
        omega
    · intro best' hb' hinv _ old hold hp hpi he hfit
      cases hleast.symm.trans hb'
      obtain ⟨b, hb, hbn, -, -, hlt⟩ := hsound.changed (hpar ▸ hne) (hpar ▸ hinv)
      rw [hpar] at hbn
      cases RoutingTable.eq_of_neighbor hb hbest hbn hinv
      have := hlt old hold hp hpi he
      have : maxMetric.toNat = 65535 := rfl
      omega
  · intro hfits
    refine ⟨.inr ⟨best, htab ▸ hbest, hpar.symm, helig.1⟩, ?_⟩
    intro _ hinv
    rw [hpar] at hinv
    have hbl := helig.cost_lt
    have hbp := best.pathEtx_toNat link
    refine ⟨best, hbest, hpar.symm, helig.2.2, ?_, ?_⟩
    · intro entry h₁ h₂ h₃
      have hentry := mem_candidates.2 ⟨h₁, h₂, h₃⟩
      have hle := List.le_of_mem_argmin hentry hleast
      have hel := h₂.cost_lt
      rw [hbp, entry.pathEtx_toNat link] at hle
      rcases hfits.leastFits best hleast hinv hs with hfit | hall
      · omega
      · have := hall entry hentry
        omega
    · intro old hold hp hpi he
      have hol := he.cost_lt
      have hop := old.pathEtx_toNat link
      have hbetter := hfits.better best hleast hinv hs old hold hp hpi he
      have hthr : parentSwitchThreshold.toNat = 15 := rfl
      have hmaxN : maxMetric.toNat = 65535 := rfl
      rcases (hs.lt hold hp hpi he).2 with hold | hlt
      · rw [hold] at hop
        omega
      · rw [UInt16.lt_iff_toNat_lt, UInt16.toNat_add, hbp, hop, hthr] at hlt
        omega

/-- **The parent that the task leaves.** -/
theorem updateRouteTask_sound_iff (e : Engine c) (r : UInt32) (hroot : e.stateIsRoot = false) :
    Sound link e (e.updateRouteTask link r) ↔ Fits link e := by
  by_cases h : ∃ best, e.winner link = some best ∧ e.Switches link best
  · obtain ⟨best, hw, hs⟩ := h
    exact sound_iff_of_switches hroot hw hs r
  · exact sound_iff_of_not_switches (fun best hw hs => h ⟨best, hw, hs⟩) r

/-- A node whose parent has turned to it. -/
def turned : Engine ctpP :=
  { radioOn := true
    running := true
    myLlAddr := 1
    routeInfo := { parent := 5, etx := 20, haveHeard := true }
    routingTable := ⟨[⟨5, { parent := 1, etx := 40, haveHeard := true }⟩], by decide, by decide⟩ }

/-- A node with two neighbors. -/
def between (etx₁ etx₂ : UInt16) : Engine ctpP :=
  { radioOn := true
    running := true
    myLlAddr := 1
    routingTable := ⟨[⟨6, { parent := 2, etx := etx₁, haveHeard := true }⟩,
      ⟨7, { parent := 3, etx := etx₂, haveHeard := true }⟩],
      show 2 ≤ ctpP.routingTableSize.toNat by decide,
      show [(6 : UInt16), 7].Pairwise fun n n' => n = n' → n = invalidAddr by decide⟩ }

/-- The parent that has turned is kept, and a cost that overflows is taken for the least. -/
theorem not_sound :
    ¬Sound (fun _ => 10) turned (turned.updateRouteTask (fun _ => 10) 0) ∧
      ¬Sound (fun _ => 10) (between 65528 20) ((between 65528 20).updateRouteTask (fun _ => 10) 0) := by
  constructor
  · intro h
    rcases h.parent with hp | ⟨entry, hmem, -, hv⟩
    · revert hp
      decide
    · rw [updateRouteTask_routingTable] at hmem
      cases List.mem_singleton.1 hmem
      exact hv (.inr rfl)
  · intro h
    have hp : ((between 65528 20).updateRouteTask (fun _ => 10) 0).routeInfo.parent = 6 := by decide
    obtain ⟨best, hmem, hb, -, hmin, -⟩ := h.changed (by rw [hp]; decide) (by rw [hp]; decide)
    rw [hp] at hb
    rcases List.mem_pair.1 hmem with rfl | rfl
    · have := hmin ⟨7, { parent := 3, etx := 20, haveHeard := true }⟩ (by decide) (by decide)
        (by decide)
      revert this
      decide
    · revert hb
      decide

theorem updateRouteTask_sound_between :
    Sound (fun _ => 10) (between 30 20) ((between 30 20).updateRouteTask (fun _ => 10) 0) := by
  have hleast : least (fun _ => 10) (between 30 20).myLlAddr (between 30 20).routeInfo.parent
      (between 30 20).routingTable.entries =
        some ⟨7, { parent := 3, etx := 20, haveHeard := true }⟩ := by decide
  refine (updateRouteTask_sound_iff (between 30 20) 0 rfl).2 ⟨.inl rfl, ?_, ?_⟩
  · intro best hb _ _
    cases hleast.symm.trans hb
    exact .inl (by decide)
  · intro best _ _ _ old _ _ hne
    exact absurd rfl hne

end Engine

end CtpRoutingEngineP
