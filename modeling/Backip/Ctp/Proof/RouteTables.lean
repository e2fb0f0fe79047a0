import Backip.Ctp.CtpP
import Backip.Ctp.Proof.NeighborTable
import Backip.Ctp.Proof.ParentSelection

/-!
# The routing table follows the neighbor table

`Router.Follows`: the neighbors in the routing table are in the estimator's table, each once, and the
parent is one of them and pinned. It holds in every state of a run in which no message comes from
`INVALID_ADDR` (`tables_agree`): `routingTableFind` does not look for that neighbor, so its entries are
never updated or removed (`not_tables_agree`).

The operations of the estimator's table are `Moves`: they keep every neighbor but the one that is
evicted, which is not pinned. `Agree` is the invariant.
-/

set_option autoImplicit false

namespace LinkEstimatorP.NeighborTable

variable {t t' : NeighborTable} {n m : UInt16} {x y : NeighborTableEntry} {v : Option UInt16}
  {w : IntWidth} {myLlAddr : UInt16}

/-- The neighbor is in the table and pinned. -/
def Pinned (t : NeighborTable) (n : UInt16) : Prop := ∃ x, t.entry n = some x ∧ x.pinned = true

/-- The neighbors stay, and the pinned ones stay pinned; only `v`, which is not pinned, is evicted. -/
structure Moves (t t' : NeighborTable) (v : Option UInt16) : Prop where
  distinct : t'.Distinct
  keeps : ∀ n x, t.entry n = some x → v ≠ some n →
    ∃ y, t'.entry n = some y ∧ (x.pinned = true → y.pinned = true)
  evicts : ∀ n x, v = some n → t.entry n = some x → x.pinned = false

theorem Moves.refl (hd : t.Distinct) : Moves t t none := ⟨hd, fun _ x hx _ => ⟨x, hx, id⟩, nofun⟩

theorem Moves.stays (h : Moves t t' v) (hn : t.entry n ≠ none) (hv : v ≠ some n) :
    t'.entry n ≠ none := by
  obtain ⟨x, hx⟩ := Option.ne_none_iff_exists'.1 hn
  obtain ⟨y, hy, -⟩ := h.keeps n x hx hv
  rw [hy]
  exact Option.some_ne_none y

/-- A pinned neighbor is not evicted. -/
theorem Moves.pinned (h : Moves t t' v) (hn : t.Pinned n) : t'.Pinned n ∧ v ≠ some n := by
  obtain ⟨x, hx, hp⟩ := hn
  have hv : v ≠ some n := by
    intro hv
    rw [h.evicts n x hv hx] at hp
    cases hp
  obtain ⟨y, hy, hxy⟩ := h.keeps n x hx hv
  exact ⟨⟨y, hy, hxy hp⟩, hv⟩

theorem Moves.trans {t'' : NeighborTable} (h : Moves t t' v) (h' : Moves t' t'' none) :
    Moves t t'' v := by
  refine ⟨h'.distinct, ?_, h.evicts⟩
  intro n x hx hv
  obtain ⟨y, hy, hxy⟩ := h.keeps n x hx hv
  obtain ⟨z, hz, hyz⟩ := h'.keeps n y hy nofun
  exact ⟨z, hz, hyz ∘ hxy⟩

theorem Becomes.moves_change (h : Becomes t n y none t') (hx : t.entry n = some x)
    (hp : x.pinned = true → y.pinned = true) : Moves t t' none := by
  refine ⟨h.distinct, ?_, nofun⟩
  intro m z hz _
  by_cases hm : m = n
  · subst hm
    cases hx.symm.trans hz
    exact ⟨y, h.new, hp⟩
  · rw [h.others m hm, if_neg nofun]
    exact ⟨z, hz, id⟩

theorem Becomes.moves_new (h : Becomes t n y v t') (hn : t.entry n = none)
    (hev : ∀ n x, v = some n → t.entry n = some x → x.pinned = false) : Moves t t' v := by
  refine ⟨h.distinct, ?_, hev⟩
  intro m z hz hv
  have hm : m ≠ n := by
    rintro rfl
    cases hn.symm.trans hz
  rw [h.others m hm, if_neg hv]
  exact ⟨z, hz, id⟩

/-- The neighbor of a slot that is evicted is the one with that entry. -/
theorem Distinct.evicts (hd : t.Distinct) {i : Nat} (hx : t[i]? = some x) (hv : x.valid = true)
    (hp : x.pinned = false) : ∀ n y, some x.llAddr = some n → t.entry n = some y →
      y.pinned = false := by
  intro n y hn hy
  obtain ⟨j, hj, hvy, hny⟩ := hd.entry_eq_some_iff.1 hy
  have hij := hd i j x y hx hj hv hvy ((Option.some.inj hn).trans hny.symm)
  subst hij
  cases hx.symm.trans hj
  exact hp

theorem Hears.moves {f : Frame} (hd : t.Distinct) (h : Hears w myLlAddr t f t' v) :
    Moves t t' v := by
  cases h with
  | unicast => exact .refl hd
  | full => exact .refl hd
  | known x _ hx hb =>
    refine hb.moves_change hx fun hp => ?_
    rw [(NeighborTableEntry.footers_fixed _).2.2, (NeighborTableEntry.heard_fixed _ _).2.2]
    exact hp
  | fresh _ _ _ hnone _ _ hb => exact hb.moves_new hnone nofun
  | replaced _ _ _ hnone _ _ hx hv hp hb => exact hb.moves_new hnone (hd.evicts hx hv hp)

theorem Inserts.moves (hd : t.Distinct) (h : Inserts t m t' v) : Moves t t' v := by
  cases h with
  | known => exact .refl hd
  | full => exact .refl hd
  | fresh _ _ hnone _ _ hb => exact hb.moves_new hnone nofun
  | replaced _ _ hnone _ _ hx hv hp hb => exact hb.moves_new hnone (hd.evicts hx hv hp)

/-- A command that does not unpin. -/
theorem Distinct.onEntry_moves (hd : t.Distinct) (m : UInt16)
    {g : NeighborTableEntry → NeighborTableEntry}
    (hg : ∀ x, (g x).valid = x.valid ∧ (g x).llAddr = x.llAddr)
    (hp : ∀ x, x.pinned = true → (g x).pinned = true) : Moves t (t.onEntry m g).2 none := by
  rcases hd.onEntry_cases m hg with ⟨-, hsame⟩ | ⟨x, hx, hb⟩
  · rw [hsame]
    exact .refl hd
  · exact hb.moves_change hx (hp x)

theorem Distinct.pin_moves (hd : t.Distinct) (m : UInt16) :
    Moves t (t.pinNeighbor m).2 none :=
  hd.onEntry_moves m (fun _ => ⟨rfl, rfl⟩) fun _ _ => rfl

theorem Distinct.clear_moves (hd : t.Distinct) (m : UInt16) :
    Moves t (t.clearDLQ m).2 none :=
  hd.onEntry_moves m (fun _ => ⟨rfl, rfl⟩) fun _ h => h

theorem Distinct.tx_moves (hd : t.Distinct) (m : UInt16) (ack : Bool) :
    Moves t (t.onEntry m (·.tx w ack)).2 none :=
  hd.onEntry_moves m (fun x => ⟨x.tx_fixed.1, x.tx_fixed.2.1⟩) fun x h => x.tx_fixed.2.2.trans h

/-- A command on an entry leaves the neighbors of the table in it. -/
theorem Distinct.onEntry_stays (hd : t.Distinct) (m : UInt16)
    {g : NeighborTableEntry → NeighborTableEntry}
    (hg : ∀ x, (g x).valid = x.valid ∧ (g x).llAddr = x.llAddr) :
    (t.onEntry m g).2.Distinct ∧ ∀ n, t.entry n ≠ none → (t.onEntry m g).2.entry n ≠ none := by
  rcases hd.onEntry_cases m hg with ⟨-, hsame⟩ | ⟨x, hx, hb⟩
  · rw [hsame]
    exact ⟨hd, fun _ => id⟩
  · refine ⟨hb.distinct, fun n hn => ?_⟩
    by_cases hnm : n = m
    · rw [hnm, hb.new]
      exact Option.some_ne_none _
    · rw [hb.others n hnm, if_neg nofun]
      exact hn

theorem Distinct.pinNeighbor (hd : t.Distinct) (h : t.entry n ≠ none) :
    (t.pinNeighbor n).2.Pinned n := by
  rcases hd.onEntry_cases n (g := fun ne => { ne with pinned := true }) fun _ => ⟨rfl, rfl⟩ with
    ⟨hnone, -⟩ | ⟨x, hx, hb⟩
  · exact absurd hnone h
  · exact ⟨_, hb.new, rfl⟩

end LinkEstimatorP.NeighborTable

namespace CtpP

open CtpRoutingEngineP LinkEstimatorP

variable {c : Config} {rt : RoutingTable c} {parent n : UInt16} {t t' : NeighborTable}
  {v : Option UInt16} {w : IntWidth} {address : UInt16}

/-- The neighbors in the routing table. -/
def neighbors (rt : RoutingTable c) : List UInt16 := rt.entries.map RoutingTableEntry.neighbor

/-- The invariant: what a routing table and a parent have to do with the neighbor table. -/
structure Agree (rt : RoutingTable c) (parent : UInt16) (t : NeighborTable) : Prop where
  distinct : t.Distinct
  known : ∀ n ∈ neighbors rt, n ≠ invalidAddr ∧ t.entry n ≠ none
  parent : parent = invalidAddr ∨ parent ∈ neighbors rt ∧ t.Pinned parent

/-! ## Evictions -/

theorem find_lt (h : rt.find n ≠ rt.entries.length) : rt.find n < rt.entries.length := by
  refine Nat.lt_of_le_of_ne ?_ h
  unfold RoutingTable.find
  split
  · exact Nat.le_refl _
  · exact List.findIdx_le_length

/-- The neighbors that are left are the others. -/
theorem mem_evict (hn : invalidAddr ∉ neighbors rt) {m : UInt16} :
    m ∈ neighbors (rt.evict n).2 ↔ m ∈ neighbors rt ∧ m ≠ n := by
  have hne : ∀ entry ∈ rt.entries, entry.neighbor ≠ invalidAddr := fun entry he heq =>
    hn (heq ▸ List.mem_map_of_mem he)
  unfold RoutingTable.evict
  dsimp only
  by_cases hlen : rt.find n = rt.entries.length
  · rw [if_pos hlen]
    refine ⟨fun hm => ⟨hm, ?_⟩, And.left⟩
    obtain ⟨entry, he, rfl⟩ := List.mem_map.1 hm
    intro heq
    exact rt.find_ne hlen (heq ▸ hne entry he) he heq
  · rw [if_neg hlen]
    have hlt : rt.find n < rt.entries.length := find_lt hlen
    have hfound : rt.entries[rt.find n].neighbor = n := rt.find_neighbor hlt
    unfold neighbors
    dsimp only
    simp only [List.mem_map, List.mem_eraseIdx_iff_getElem]
    constructor
    · rintro ⟨_, ⟨j, hj, hij, rfl⟩, rfl⟩
      refine ⟨⟨_, List.getElem_mem hj, rfl⟩, fun heq => ?_⟩
      have hpair := List.pairwise_iff_getElem.1 (List.pairwise_map.1 rt.unique)
      rcases Nat.lt_or_gt_of_ne hij with hlt' | hlt'
      · exact hne _ (List.getElem_mem hj) (hpair j _ hj hlt hlt' (heq.trans hfound.symm))
      · exact hne _ (List.getElem_mem hlt) (hpair _ j hlt hj hlt' (hfound.trans heq.symm))
    · rintro ⟨⟨entry, he, rfl⟩, hm⟩
      obtain ⟨j, hj, rfl⟩ := List.mem_iff_getElem.1 he
      refine ⟨_, ⟨j, hj, ?_, rfl⟩, rfl⟩
      rintro rfl
      exact hm hfound

theorem evicted_routingTable (n : UInt16) (e : Engine c) :
    (e.evicted n).routingTable = (e.routingTable.evict n).2 := by
  unfold Engine.evicted
  dsimp only
  split <;> rfl

theorem evicted_parent (n : UInt16) (e : Engine c) : (e.evicted n).routeInfo.parent =
    if e.routeInfo.parent = n then invalidAddr else e.routeInfo.parent := by
  unfold Engine.evicted
  dsimp only
  split <;> rfl

theorem Agree.unnamed (h : Agree rt parent t) : invalidAddr ∉ neighbors rt := fun hm =>
  (h.known _ hm).1 rfl

/-- The engine follows the estimator. -/
theorem Agree.moves {e : Engine c} (h : Agree e.routingTable e.routeInfo.parent t)
    (hm : t.Moves t' v) :
    Agree (tellEvicted v e).routingTable (tellEvicted v e).routeInfo.parent t' := by
  cases v with
  | none =>
    exact ⟨hm.distinct, fun n hn => (h.known n hn).imp_right fun hk => hm.stays hk nofun,
      h.parent.imp_right fun hp => ⟨hp.1, (hm.pinned hp.2).1⟩⟩
  | some n =>
    change Agree (e.evicted n).routingTable (e.evicted n).routeInfo.parent t'
    rw [evicted_routingTable, evicted_parent]
    refine ⟨hm.distinct, ?_, ?_⟩
    · intro m hmem
      obtain ⟨hmem, hne⟩ := (mem_evict h.unnamed).1 hmem
      refine (h.known m hmem).imp_right fun hk => hm.stays hk ?_
      exact fun hv => hne (Option.some.inj hv).symm
    · by_cases hpn : e.routeInfo.parent = n
      · exact .inl (if_pos hpn)
      · rw [if_neg hpn]
        refine h.parent.imp_right fun hp => ⟨?_, (hm.pinned hp.2).1⟩
        exact (mem_evict h.unnamed).2 ⟨hp.1, hpn⟩

/-! ## Beacons -/

/-- A neighbor gets an entry if its link is good: then it is in the neighbor table. -/
theorem entry_of_pass (h : passLinkEtxThreshold (t.getLinkQuality n) = true) :
    t.entry n ≠ none := by
  intro hnone
  rw [NeighborTable.getLinkQuality_eq, hnone] at h
  exact absurd h (by decide)

/-- What a beacon does to the neighbors of the routing table. -/
theorem updateEntry_neighbors (rt : RoutingTable c) (link : UInt16 → UInt16) (src par etx : UInt16) :
    neighbors (rt.updateEntry link src par etx).2 = neighbors rt ∨
    passLinkEtxThreshold (link src) = true ∧
      neighbors (rt.updateEntry link src par etx).2 = neighbors rt ++ [src] := by
  unfold RoutingTable.updateEntry
  dsimp only
  split
  · exact .inl rfl
  · split
    · split
      next hpass => exact .inr ⟨hpass, List.map_append⟩
      · exact .inl rfl
    next hlen =>
      refine .inl (List.ext_getElem (by simp [neighbors]) fun i h₁ h₂ => ?_)
      simp only [neighbors, List.getElem_map, List.getElem_modify]
      by_cases hi : rt.find src = i
      · subst hi
        simpa using (rt.find_neighbor (find_lt hlen)).symm
      · rw [if_neg hi]

theorem Agree.updateEntry (h : Agree rt parent t) {src : UInt16} (hsrc : src ≠ invalidAddr)
    (par etx : UInt16) : Agree (rt.updateEntry t.getLinkQuality src par etx).2 parent t := by
  rcases updateEntry_neighbors rt t.getLinkQuality src par etx with hn | ⟨hpass, hn⟩
  · refine ⟨h.distinct, ?_, ?_⟩ <;> rw [hn]
    · exact h.known
    · exact h.parent
  · refine ⟨h.distinct, ?_, ?_⟩ <;> rw [hn]
    · intro n hmem
      rcases List.mem_append.1 hmem with hmem | hmem
      · exact h.known n hmem
      · rw [List.mem_singleton.1 hmem]
        exact ⟨hsrc, entry_of_pass hpass⟩
    · exact h.parent.imp_right fun hp => ⟨List.mem_append_left _ hp.1, hp.2⟩

theorem setNeighborCongested_eq (n : UInt16) (congested : Bool) (e : Engine c) :
    e.setNeighborCongested n congested = e :=
  if_pos rfl

/-- What the engine makes of a beacon, but for its log and its timer: the eviction that made room
for a root, and the entry of the sender. -/
theorem receive_tables {lengthOk : Bool} {b : CtpRoutingHeader} {e : Engine c}
    (hv : ¬(lengthOk = true ∧ b.parent ≠ invalidAddr ∧ b.etx = 0) → v = none) (src : UInt16)
    (link : UInt16 → UInt16) (rand32 : UInt32) :
    let e' := e.receive lengthOk src b v link rand32
    e'.routeInfo.parent = (tellEvicted v e).routeInfo.parent ∧
    (e'.routingTable = (tellEvicted v e).routingTable ∨
      e'.routingTable = ((tellEvicted v e).routingTable.updateEntry link src b.parent b.etx).2) := by
  unfold Engine.receive
  simp only [setNeighborCongested_eq]
  cases lengthOk with
  | false =>
    rw [hv fun h => by cases h.1]
    exact ⟨rfl, .inl rfl⟩
  | true =>
    by_cases hpar : b.parent = invalidAddr
    · rw [hv fun h => h.2.1 hpar]
      simp only [hpar, ne_eq, not_true_eq_false, if_false, Bool.not_true, Bool.false_eq_true]
      split <;> exact ⟨rfl, .inl rfl⟩
    · by_cases hroot : b.etx = 0
      · cases v with
        | none =>
          simp only [ne_eq, hpar, hroot, not_false_eq_true, if_true, Bool.not_true,
            Bool.false_eq_true, if_false]
          split <;> exact ⟨rfl, .inr rfl⟩
        | some n =>
          simp only [ne_eq, hpar, hroot, not_false_eq_true, if_true, Bool.not_true,
            Bool.false_eq_true, if_false, Option.elim_some, tellEvicted, evicted_parent,
            evicted_routingTable]
          split
          · simp only [Engine.resetInterval_routeInfo, Engine.resetInterval_routingTable,
              evicted_parent, true_and, or_true]
          · simp only [evicted_parent, true_and, or_true]
      · rw [hv fun h => hroot h.2.2]
        simp only [ne_eq, hpar, hroot, not_false_eq_true, if_true, Bool.not_true,
          Bool.false_eq_true, if_false]
        split <;> exact ⟨rfl, .inr rfl⟩

theorem insertRoot_moves (hd : t.Distinct) (root : UInt16) :
    t.Moves (Router.insertRoot t root).1 (Router.insertRoot t root).2 :=
  have h := (hd.inserts root).moves hd
  h.trans (h.distinct.pin_moves root)

theorem Agree.receive_engine {e : Engine c} (h : Agree e.routingTable e.routeInfo.parent t)
    (hm : t.Moves t' v) {lengthOk : Bool} {b : CtpRoutingHeader} {src : UInt16}
    (hsrc : src ≠ invalidAddr)
    (hv : ¬(lengthOk = true ∧ b.parent ≠ invalidAddr ∧ b.etx = 0) → v = none) (rand32 : UInt32) :
    let e' := e.receive lengthOk src b v t'.getLinkQuality rand32
    Agree e'.routingTable e'.routeInfo.parent t' := by
  obtain ⟨hpar, hrt⟩ := receive_tables hv (e := e) src t'.getLinkQuality rand32
  dsimp only
  rw [hpar]
  rcases hrt with hrt | hrt <;> rw [hrt]
  · exact h.moves hm
  · exact (h.moves hm).updateEntry hsrc _ _

theorem Agree.beaconReceive {s : Router c}
    (h : Agree s.engine.routingTable s.engine.routeInfo.parent s.neighborTable) {f : Frame}
    (hsrc : f.source ≠ invalidAddr) (rand32 : UInt32) :
    let s' := s.beaconReceive f rand32
    Agree s'.engine.routingTable s'.engine.routeInfo.parent s'.neighborTable := by
  unfold Router.beaconReceive
  dsimp only
  split
  next hc =>
    refine h.receive_engine (insertRoot_moves h.distinct f.source) hsrc (fun hn => ?_) rand32
    exact absurd ⟨decide_eq_true hc.1, hc.2⟩ hn
  next hc => exact h.receive_engine (.refl h.distinct) hsrc (fun _ => rfl) rand32

theorem beaconReceive_pinned {s : Router c} (hd : s.neighborTable.Distinct) (f : Frame)
    (rand32 : UInt32) : (s.beaconReceive f rand32).neighborTable.Distinct ∧
      ∀ n, s.neighborTable.Pinned n → (s.beaconReceive f rand32).neighborTable.Pinned n := by
  unfold Router.beaconReceive
  dsimp only
  split
  · have hm := insertRoot_moves hd f.source
    exact ⟨hm.distinct, fun n hn => (hm.pinned hn).1⟩
  · exact ⟨hd, fun _ => id⟩

/-! ## The choice of a parent -/

theorem changeParent_stays (hd : t.Distinct) (old new : UInt16) :
    (Router.changeParent t old new).Distinct ∧
    (∀ n, t.entry n ≠ none → (Router.changeParent t old new).entry n ≠ none) ∧
    (t.entry new ≠ none → (Router.changeParent t old new).Pinned new) := by
  obtain ⟨hd₁, h₁⟩ := hd.onEntry_stays old (g := fun ne => { ne with pinned := false })
    fun _ => ⟨rfl, rfl⟩
  have hm := (hd₁.pin_moves new)
  have hm' := hm.distinct.clear_moves new
  refine ⟨hm'.distinct, fun n hn => hm'.stays (hm.stays (h₁ n hn) nofun) nofun, fun hn => ?_⟩
  exact (hm'.pinned (hd₁.pinNeighbor (h₁ new hn))).1

/-- The best neighbor is one of the routing table, and not the parent. -/
theorem winner_mem {link : UInt16 → UInt16} {e : Engine c} {best : RoutingTableEntry}
    (h : e.winner link = some best) :
    best ∈ e.routingTable.entries ∧ best.neighbor ≠ e.routeInfo.parent := by
  have hmem := List.argmin_mem (winner_eq_some.1 h).1
  obtain ⟨hmem, -, hne⟩ := mem_candidates.1 hmem
  exact ⟨hmem, hne⟩

/-- The task keeps the parent and the table, or it changes the parent in both. -/
theorem updateRouteTask_cases (rand32 : UInt32) (s : Router c) :
    (s.updateRouteTask rand32).neighborTable = s.neighborTable ∧
      (s.updateRouteTask rand32).engine.routeInfo.parent = s.engine.routeInfo.parent ∨
    ∃ best ∈ neighbors s.engine.routingTable,
      (s.updateRouteTask rand32).neighborTable =
        Router.changeParent s.neighborTable s.engine.routeInfo.parent best ∧
      (s.updateRouteTask rand32).engine.routeInfo.parent = best := by
  unfold Router.updateRouteTask
  dsimp only
  cases hroot : s.engine.stateIsRoot with
  | true =>
    refine .inl ⟨?_, ?_⟩
    · split <;> rfl
    · rw [Engine.updateRouteTask, hroot, if_pos rfl]
  | false =>
    rw [Engine.scan_eq]
    cases hw : s.engine.winner s.neighborTable.getLinkQuality with
    | none =>
      exact .inl ⟨rfl, Engine.updateRouteTask_parent_of_not_switches
        (fun best hb => by rw [hw] at hb; cases hb) rand32⟩
    | some best =>
      by_cases hs : s.engine.Switches s.neighborTable.getLinkQuality best
      · refine .inr ⟨best.neighbor, List.mem_map_of_mem (winner_mem hw).1, ?_,
          Engine.updateRouteTask_parent_of_switches hroot hw hs rand32⟩
        exact (if_pos hs).trans (congrArg (Router.changeParent _ · _) found_parent)
      · refine .inl ⟨if_neg hs, Engine.updateRouteTask_parent_of_not_switches ?_ rand32⟩
        intro b hb
        cases hw.symm.trans hb
        exact hs

theorem Agree.updateRouteTask {s : Router c}
    (h : Agree s.engine.routingTable s.engine.routeInfo.parent s.neighborTable)
    (rand32 : UInt32) :
    let s' := s.updateRouteTask rand32
    Agree s'.engine.routingTable s'.engine.routeInfo.parent s'.neighborTable := by
  have hrt : (s.updateRouteTask rand32).engine.routingTable = s.engine.routingTable :=
    Engine.updateRouteTask_routingTable _ _
  dsimp only
  rw [hrt]
  rcases updateRouteTask_cases rand32 s with ⟨ht, hp⟩ | ⟨best, hmem, ht, hp⟩ <;> rw [ht, hp]
  · exact h
  · obtain ⟨hd, hstay, hpin⟩ := changeParent_stays h.distinct s.engine.routeInfo.parent best
    exact ⟨hd, fun n hn => (h.known n hn).imp_right (hstay n),
      .inr ⟨hmem, hpin (h.known best hmem).2⟩⟩

theorem updateRouteTask_stays {s : Router c} (hd : s.neighborTable.Distinct) (rand32 : UInt32) :
    (s.updateRouteTask rand32).neighborTable.Distinct ∧ ∀ n, s.neighborTable.entry n ≠ none →
      (s.updateRouteTask rand32).neighborTable.entry n ≠ none := by
  rcases updateRouteTask_cases rand32 s with ⟨ht, -⟩ | ⟨best, -, ht, -⟩ <;> rw [ht]
  · exact ⟨hd, fun _ => id⟩
  · obtain ⟨hd, hstay, -⟩ := changeParent_stays hd s.engine.routeInfo.parent best
    exact ⟨hd, hstay⟩

/-! ## The other events of the engine -/

theorem own_tables {e e' : Engine c} {ev : CtpRoutingEngineP.Event} (hown : isOwn ev = true)
    (h : CtpRoutingEngineP.step e ev = some e') : e'.routingTable = e.routingTable ∧
      (e'.routeInfo.parent = e.routeInfo.parent ∨ e'.routeInfo.parent = invalidAddr) := by
  cases ev with
  | receive => cases hown
  | updateRouteTask => cases hown
  | evicted => cases hown
  | setRoot => cases hown
  | unsetRoot =>
    cases h
    exact ⟨rfl, .inr rfl⟩
  | setNeighborCongested n congested =>
    cases h
    rw [setNeighborCongested_eq]
    exact ⟨rfl, .inl rfl⟩
  | start address rand32 =>
    cases h
    unfold Engine.start
    dsimp only
    split <;> exact ⟨rfl, .inl rfl⟩
  | sendDone ours =>
    cases h
    unfold Engine.sendDone
    split <;> exact ⟨rfl, .inl rfl⟩
  | beaconTimerFired rand32 =>
    obtain ⟨-, h⟩ := Option.ite_none_right_eq_some.1 h
    cases h
    unfold Engine.beaconTimerFired
    split
    · split <;> exact ⟨rfl, .inl rfl⟩
    · exact ⟨rfl, .inl rfl⟩
  | routeTimerFired =>
    obtain ⟨-, h⟩ := Option.ite_none_right_eq_some.1 h
    cases h
    unfold Engine.routeTimerFired
    split <;> exact ⟨rfl, .inl rfl⟩
  | sendBeaconTask isCongested link eval =>
    obtain ⟨-, h⟩ := Option.ite_none_right_eq_some.1 h
    cases h
    unfold Engine.sendBeaconTask
    split
    · exact ⟨rfl, .inl rfl⟩
    · dsimp only
      split <;> exact ⟨rfl, .inl rfl⟩
  | _ =>
    cases h
    exact ⟨rfl, .inl rfl⟩

/-! ## Steps and runs -/

/-- The message does not come from the address that stands for no neighbor. -/
def Event.Sourced : Event → Prop
  | .receive f _ => f.source ≠ invalidAddr
  | _ => True

instance : DecidablePred Event.Sourced
  | .receive f _ => inferInstanceAs (Decidable (f.source ≠ invalidAddr))
  | .updateRouteTask _ | .engine _ | .insertNeighbor _ | .pinNeighbor _ | .txAck _ | .txNoAck _
  | .clearDLQ _ => .isTrue trivial

def Router.Agrees (s : Router c) : Prop :=
  Agree s.engine.routingTable s.engine.routeInfo.parent s.neighborTable

theorem Router.Agrees.step {s s' : Router c} {e : Event} (h : s.Agrees) (he : e.Sourced)
    (hs : step w address s e = some s') : s'.Agrees := by
  have hd := h.distinct
  have hquiet : ∀ {t'}, s.neighborTable.Moves t' none →
      Router.Agrees { s with neighborTable := t' } := fun hm => Agree.moves h hm
  cases e with
  | receive f rand32 =>
    cases hs
    exact Agree.beaconReceive (Agree.moves h ((hd.hears w address f).moves hd)) he rand32
  | updateRouteTask rand32 =>
    obtain ⟨-, hs⟩ := Option.ite_none_right_eq_some.1 hs
    cases hs
    exact Agree.updateRouteTask
      (s := { s with engine := { s.engine with updateRoutePosted := false } }) h rand32
  | engine ev =>
    obtain ⟨hown, hs⟩ := Option.ite_none_right_eq_some.1 hs
    obtain ⟨e', he', rfl⟩ := Option.map_eq_some_iff.1 hs
    obtain ⟨hrt, hp⟩ := own_tables hown he'
    refine ⟨hd, ?_, ?_⟩ <;> dsimp only <;> rw [hrt]
    · exact h.known
    · rcases hp with hp | hp <;> rw [hp]
      · exact h.parent
      · exact .inl rfl
  | insertNeighbor n =>
    cases hs
    exact Agree.moves h ((hd.inserts n).moves hd)
  | pinNeighbor n =>
    cases hs
    exact hquiet (hd.pin_moves n)
  | txAck n =>
    cases hs
    exact hquiet (hd.tx_moves n true)
  | txNoAck n =>
    cases hs
    exact hquiet (hd.tx_moves n false)
  | clearDLQ n =>
    cases hs
    exact hquiet (hd.clear_moves n)

/-- A step keeps the neighbors that are pinned. -/
theorem step_pinned {s s' : Router c} {e : Event} (hd : s.neighborTable.Distinct)
    (hs : step w address s e = some s') : s'.neighborTable.Distinct ∧
      ∀ n, s.neighborTable.Pinned n → s'.neighborTable.entry n ≠ none := by
  have hin : ∀ {t : NeighborTable} {n}, t.Pinned n → t.entry n ≠ none := by
    rintro t n ⟨x, hx, -⟩
    rw [hx]
    exact Option.some_ne_none x
  have hmoves : ∀ {t' v}, s.neighborTable.Moves t' v →
      t'.Distinct ∧ ∀ n, s.neighborTable.Pinned n → t'.entry n ≠ none := fun hm =>
    ⟨hm.distinct, fun n hn => hin (hm.pinned hn).1⟩
  cases e with
  | receive f rand32 =>
    cases hs
    have hm := (hd.hears w address f).moves hd
    obtain ⟨hd', hp⟩ := beaconReceive_pinned (s := ⟨tellEvicted _ s.engine, _⟩) hm.distinct f rand32
    exact ⟨hd', fun n hn => hin (hp n (hm.pinned hn).1)⟩
  | updateRouteTask rand32 =>
    obtain ⟨-, hs⟩ := Option.ite_none_right_eq_some.1 hs
    cases hs
    obtain ⟨hd', hstay⟩ := updateRouteTask_stays
      (s := { s with engine := { s.engine with updateRoutePosted := false } }) hd rand32
    exact ⟨hd', fun n hn => hstay n (hin hn)⟩
  | engine ev =>
    obtain ⟨-, hs⟩ := Option.ite_none_right_eq_some.1 hs
    obtain ⟨e', -, rfl⟩ := Option.map_eq_some_iff.1 hs
    exact ⟨hd, fun n => hin⟩
  | insertNeighbor n =>
    cases hs
    exact hmoves ((hd.inserts n).moves hd)
  | pinNeighbor n =>
    cases hs
    exact hmoves (hd.pin_moves n)
  | txAck n =>
    cases hs
    exact hmoves (hd.tx_moves n true)
  | txNoAck n =>
    cases hs
    exact hmoves (hd.tx_moves n false)
  | clearDLQ n =>
    cases hs
    exact hmoves (hd.clear_moves n)

/-- The routing table follows the estimator's. -/
structure Router.Follows (s : Router c) : Prop where
  valid : ∀ n ∈ neighbors s.engine.routingTable,
    ∃ x ∈ s.neighborTable, x.valid = true ∧ x.llAddr = n
  nodup : (neighbors s.engine.routingTable).Nodup
  parent : s.engine.routeInfo.parent = invalidAddr ∨
    s.engine.routeInfo.parent ∈ neighbors s.engine.routingTable ∧
      ∃ x ∈ s.neighborTable, x.valid = true ∧ x.llAddr = s.engine.routeInfo.parent ∧
        x.pinned = true

theorem Router.Agrees.tables {s : Router c} (h : s.Agrees) : s.Follows where
  valid n hn := by
    obtain ⟨x, hx⟩ := Option.ne_none_iff_exists'.1 (h.known n hn).2
    obtain ⟨i, hi, hv⟩ := h.distinct.entry_eq_some_iff.1 hx
    exact ⟨x, List.mem_of_getElem? hi, hv⟩
  nodup := by
    refine s.engine.routingTable.unique.imp_of_mem fun {a b} ha _ hab heq => ?_
    exact (h.known a ha).1 (hab heq)
  parent := by
    refine h.parent.imp_right (And.imp_right ?_)
    rintro ⟨x, hx, hp⟩
    obtain ⟨i, hi, hv, hn⟩ := h.distinct.entry_eq_some_iff.1 hx
    exact ⟨x, List.mem_of_getElem? hi, hv, hn, hp⟩

theorem agrees_init : Router.Agrees ({} : Router c) :=
  ⟨NeighborTable.distinct_init, nofun, .inl rfl⟩

/-- No step of a run evicts a pinned neighbor; and if no message of the run comes from
`INVALID_ADDR`, the routing table follows the neighbor table in every state of the run. -/
theorem tables_agree {h : List (Router c × Event)} {s : Router c}
    (hr : (machine w address c).Run h s) :
    (∀ p ∈ h, ∀ s', step w address p.1 p.2 = some s' → ∀ n, p.1.neighborTable.Pinned n →
      s'.neighborTable.entry n ≠ none) ∧
    ((∀ p ∈ h, p.2.Sourced) → s.Follows ∧ ∀ p ∈ h, p.1.Follows) := by
  constructor
  · intro p hp s' hs
    have hdist := hr.inv_of_steps (P := fun s => s.neighborTable.Distinct) (C := fun _ _ => True)
      (by rintro _ rfl; exact NeighborTable.distinct_init)
      (fun _ _ _ hd _ hs => (step_pinned hd hs).1) fun _ _ => trivial
    exact (step_pinned (hdist.2 p hp) hs).2
  · intro hsrc
    obtain ⟨hs, hh⟩ := hr.inv_of_steps (P := Router.Agrees) (C := fun _ e => e.Sourced)
      (by rintro _ rfl; exact agrees_init) (fun _ _ _ ha he hs => Router.Agrees.step ha he hs) hsrc
    exact ⟨Router.Agrees.tables hs, fun p hp => Router.Agrees.tables (hh p hp)⟩

/-! ## Examples -/

/-- A beacon that advertises the parent 5 and a cost of 10. -/
def exampleBeacon (source : UInt16) (seq : UInt8) : Event :=
  .receive ⟨source, amBroadcastAddr,
    fun a => if a = 1 then seq else if a = 4 then 5 else if a = 6 then 10 else 0, 7⟩ 0

theorem tables_agree_parent : ∃ (h : List (Router ctpP × Event)) (s : Router ctpP),
    (machine .bits16 1 ctpP).Run h s ∧ s.engine.routeInfo.parent = 2 ∧
    s.Follows ∧ ∀ p ∈ h, p.1.Follows := by
  obtain ⟨h, s, hr, hp⟩ := Machine.exists_run_of_exec (M := machine .bits16 1 ctpP) (s := {}) rfl
    [exampleBeacon 2 0, exampleBeacon 2 1, exampleBeacon 2 2, .engine .recomputeRoutes,
      .updateRouteTask 0]
    (fun h s => s.engine.routeInfo.parent = 2 ∧ ∀ p ∈ h, p.2.Sourced) (by decide)
  obtain ⟨hpar, hsrc⟩ := of_decide_eq_true hp
  exact ⟨h, s, hr, hpar, (tables_agree hr).2 hsrc⟩

/-- Four beacons from `INVALID_ADDR` make two entries for it. -/
theorem not_tables_agree : ¬ ∀ (w : IntWidth) (address : UInt16) (c : Config)
    (h : List (Router c × Event)) (s : Router c), (machine w address c).Run h s → s.Follows := by
  intro hf
  obtain ⟨h, s, hr, hp⟩ := Machine.exists_run_of_exec (M := machine .bits16 1 ctpP) (s := {}) rfl
    [exampleBeacon invalidAddr 0, exampleBeacon invalidAddr 1, exampleBeacon invalidAddr 2,
      exampleBeacon invalidAddr 3]
    (fun _ s => ¬ (neighbors s.engine.routingTable).Nodup) (by decide)
  exact of_decide_eq_true hp (hf _ _ _ _ _ hr).nodup

end CtpP
