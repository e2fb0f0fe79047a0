import Backip.BCP.Proof.Downhill

/-!
# Where the routing engine reads and writes

`routingTableFind` answers `routingTableActive` for a neighbor it does not find. `txNoAck` compares
the answer with `ROUTING_TABLE_SIZE` only, `updateNeighborSnoop` with nothing, and the broadcast
address is never found, though it gets an entry each time it is heard of. `Command.accesses` are the
indices a command uses, and `in_range_iff` says when all of them are of entries in use, and the
entries of different neighbors.
-/

set_option autoImplicit false

namespace BCP.RoutingTable

variable {t : RoutingTable}

/-- An index into `routingTable`, and the entries in use when the atomic block around it is done: a
new entry is written and counted in one. -/
structure Access where
  idx : Nat
  routingTableActive : Nat
deriving DecidableEq, Repr

/-- The entries `routingTableFind` compares. -/
def findAccesses (t : RoutingTable) (neighbor : UInt16) : List Access :=
  if neighbor = tosBcastAddr then []
  else (List.range (min (t.routingTableFind neighbor + 1) t.routingTableActive)).map
    (⟨·, t.routingTableActive⟩)

/-- The accesses of `routingTableUpdateEntry`. -/
def updateEntryAccesses (t : RoutingTable) (neighbor : UInt16) : List Access :=
  let idx := t.routingTableFind neighbor
  t.findAccesses neighbor ++
    if idx = routingTableSize then []
    else if idx = t.routingTableActive then [⟨idx, t.routingTableActive + 1⟩]
    else [⟨idx, t.routingTableActive⟩]

/-- The entries `updateRouting` scans, and those it may come back to. -/
def routingAccesses (t : RoutingTable) (localBackpressure : UInt16) : List Access :=
  if t.routingTableActive = 0 then []
  else (List.range t.routingTableActive).map (⟨·, t.routingTableActive⟩) ++
    match t.scan localBackpressure t.routingTableActive with
    | none => []
    | some v =>
      [⟨v.maxWeightIdx, t.routingTableActive⟩, ⟨v.bestBurstNeighborIdx, t.routingTableActive⟩]

/-- The accesses of a command. -/
def accesses (t : RoutingTable) : Command → List Access
  | .updateNeighborBackpressure n _ => t.updateEntryAccesses n
  | .updateNeighborSnoop _ snoop _ _ n _ =>
    let t' := (t.routingTableUpdateEntry n snoop).2
    t.updateEntryAccesses n ++ t'.findAccesses n ++ [⟨t'.routingTableFind n, t'.routingTableActive⟩]
  | .updateLinkSuccess n _ | .updateLinkRate n _ =>
    let idx := t.routingTableFind n
    t.findAccesses n ++ if idx = t.routingTableActive then [] else [⟨idx, t.routingTableActive⟩]
  | .txNoAck n =>
    let idx := t.routingTableFind n
    t.findAccesses n ++ if idx = routingTableSize then [] else [⟨idx, t.routingTableActive⟩]
  | .updateRouting bp => t.routingAccesses bp

/-- A command at the node `me` uses entries in use only, and leaves at most `ROUTING_TABLE_SIZE`
of them, of different neighbors. -/
structure Sound (me : UInt16) (t : RoutingTable) (c : Command) : Prop where
  inUse : ∀ a ∈ t.accesses c, a.idx < a.routingTableActive
  active_le : ∀ t', t.step me c = some t' → t'.routingTableActive ≤ routingTableSize
  nodup : ∀ t', t.step me c = some t' → t'.known.Nodup

/-- What a command must find: the broadcast address, if it is told of it, is not new to it or the
table is full; a neighbor snooped on has an entry or there is room for one; a neighbor that did not
acknowledge has an entry, or the table is full. -/
def Careful (t : RoutingTable) : Command → Prop
  | .updateNeighborBackpressure n _ =>
    n = tosBcastAddr → t.routingTableActive = routingTableSize ∨ n ∉ t.known
  | .updateNeighborSnoop _ _ _ _ n _ =>
    n ≠ tosBcastAddr ∧ (n ∈ t.known ∨ t.routingTableActive < routingTableSize)
  | .txNoAck n => n ≠ tosBcastAddr ∧ n ∈ t.known ∨ t.routingTableActive = routingTableSize
  | _ => True

instance (t : RoutingTable) (c : Command) : Decidable (t.Careful c) := by
  unfold Careful
  split <;> infer_instance

/-! ## The accesses that are always in use -/

theorem findAccesses_lt (t : RoutingTable) (n : UInt16) :
    ∀ a ∈ t.findAccesses n, a.idx < a.routingTableActive := by
  unfold findAccesses
  split
  · simp
  · intro a ha
    obtain ⟨i, hi, rfl⟩ := List.mem_map.1 ha
    exact (Nat.lt_min.1 (List.mem_range.1 hi)).2

theorem updateEntryAccesses_lt (t : RoutingTable) (n : UInt16) :
    ∀ a ∈ t.updateEntryAccesses n, a.idx < a.routingTableActive := by
  have hfind := t.findAccesses_lt n
  have hle := t.find_le n
  unfold updateEntryAccesses
  simp only [List.forall_mem_append]
  refine ⟨hfind, ?_⟩
  split
  · simp
  · split <;> simp <;> omega

theorem scan_idx {bp : UInt16} (hactive : 0 < t.routingTableActive) {n : Nat}
    (hn : n ≤ t.routingTableActive) {v : Scan} (hv : t.scan bp n = some v) :
    v.maxWeightIdx < t.routingTableActive ∧ v.bestBurstNeighborIdx < t.routingTableActive := by
  induction n generalizing v with
  | zero =>
    cases hv
    exact ⟨hactive, hactive⟩
  | succ n ih =>
    obtain ⟨v₀, hv₀, hturn⟩ := Option.bind_eq_some_iff.1 hv
    obtain ⟨hbest, hburst⟩ := ih (Nat.le_of_lt hn) hv₀
    unfold Scan.turn at hturn
    dsimp only at hturn
    split at hturn
    · split at hturn
      · cases hturn
        exact ⟨hbest, hn⟩
      · cases hturn
        exact ⟨hbest, hburst⟩
    · obtain ⟨w, -, hw⟩ := Option.map_eq_some_iff.1 hturn
      split at hw
      · cases hw
        exact ⟨hn, hburst⟩
      · cases hw
        exact ⟨hbest, hburst⟩

theorem routingAccesses_lt (t : RoutingTable) (bp : UInt16) :
    ∀ a ∈ t.routingAccesses bp, a.idx < a.routingTableActive := by
  unfold routingAccesses
  split
  · simp
  · rename_i hactive
    simp only [List.forall_mem_append]
    refine ⟨by simp, ?_⟩
    split
    · simp
    · rename_i v hv
      simpa using scan_idx (Nat.pos_of_ne_zero hactive) (Nat.le_refl _) hv

/-! ## What the others need -/

/-- The entries in use fit the array, and are of different neighbors. -/
structure Separate (t : RoutingTable) : Prop where
  wellFormed : t.WellFormed
  nodup : t.known.Nodup

theorem Separate.updateEntry_iff (h : t.Separate) (n bp : UInt16) :
    (t.routingTableUpdateEntry n bp).2.known.Nodup ↔
      (n = tosBcastAddr → t.routingTableActive = routingTableSize ∨ n ∉ t.known) := by
  by_cases hlt : t.routingTableFind n < t.routingTableActive
  · obtain ⟨hn, hk⟩ := (t.known_iff_find n).2 hlt
    rw [updateEntry_known h.wellFormed hn hk]
    exact iff_of_true h.nodup fun hb => absurd hb hn
  have hfind : t.routingTableFind n = t.routingTableActive :=
    Nat.le_antisymm (t.find_le n) (Nat.not_lt.1 hlt)
  by_cases hfull : t.routingTableActive = routingTableSize
  · rw [updateEntry_full hfind hfull]
    exact iff_of_true h.nodup fun _ => .inl hfull
  · have hiff : (t.known ++ [n]).Nodup ↔ n ∉ t.known := by
      rw [List.nodup_append_comm, List.singleton_append, List.nodup_cons]
      exact and_iff_left h.nodup
    rw [updateEntry_new hfind hfull, hiff]
    constructor
    · exact fun hk _ => .inr hk
    · intro hb hk
      by_cases hn : n = tosBcastAddr
      · exact (hb hn).elim hfull fun hk' => hk' hk
      · exact hlt (find_lt_of_known hn hk)

/-- **The commands that use entries in use only and keep the neighbors apart.** -/
theorem Separate.sound_iff (h : t.Separate) (self : UInt16) (c : Command) :
    t.Sound self c ↔ t.Careful c := by
  have hactive : ∀ t', t.step self c = some t' → t'.routingTableActive ≤ routingTableSize :=
    fun t' hs => (wellFormed_step h.wellFormed hs).active_le
  cases c with
  | updateNeighborBackpressure n bp =>
    rw [Careful, ← h.updateEntry_iff n bp]
    constructor
    · exact fun hsound => hsound.nodup _ rfl
    · intro hnodup
      refine ⟨t.updateEntryAccesses_lt n, hactive, ?_⟩
      rintro _ ⟨⟩
      exact hnodup
  | updateNeighborSnoop bp snoop nh tx n notify =>
    rw [Careful, ← h.wellFormed.snoop_iff n snoop]
    constructor
    · intro hsound
      exact hsound.inUse _ (List.mem_append_right _ (.head _))
    · intro hlt
      refine ⟨?_, hactive, ?_⟩
      · simp only [accesses, List.forall_mem_append, List.forall_mem_singleton]
        exact ⟨⟨t.updateEntryAccesses_lt n, findAccesses_lt _ n⟩, hlt⟩
      · intro t' hs
        rw [known_step h.wellFormed hs]
        exact (h.updateEntry_iff n snoop).2 fun hb =>
          absurd hb ((h.wellFormed.snoop_iff n snoop).1 hlt).1
  | updateLinkSuccess n tx | updateLinkRate n time =>
    refine iff_of_true ⟨?_, hactive, ?_⟩ trivial
    · have hle := t.find_le n
      simp only [accesses, List.forall_mem_append]
      refine ⟨t.findAccesses_lt n, ?_⟩
      split <;> simp
      omega
    · intro t' hs
      rw [known_step h.wellFormed hs]
      exact h.nodup
  | txNoAck n =>
    have hle := t.find_le n
    have hle' := h.wellFormed.active_le
    rw [Careful, known_iff_find]
    have hinUse : (∀ a ∈ t.accesses (.txNoAck n), a.idx < a.routingTableActive) ↔
        t.routingTableFind n < t.routingTableActive ∨ t.routingTableActive = routingTableSize := by
      simp only [accesses, List.forall_mem_append]
      refine (and_iff_right (t.findAccesses_lt n)).trans ?_
      split <;> simp <;> omega
    rw [← hinUse]
    constructor
    · exact fun hsound => hsound.inUse
    · intro hlt
      refine ⟨hlt, hactive, ?_⟩
      intro t' hs
      rw [known_step h.wellFormed hs]
      exact h.nodup
  | updateRouting bp =>
    refine iff_of_true ⟨t.routingAccesses_lt bp, hactive, ?_⟩ trivial
    intro t' hs
    rw [known_step h.wellFormed hs]
    exact h.nodup

/-- **All accesses of a sequence of commands are in range, and the neighbors different, exactly if**
each command finds what it needs (`Careful`). The last command is the one after the run: where the
code would leave the array it is not part of one. -/
theorem in_range_iff {self : UInt16} {h : List (RoutingTable × Command)}
    (hr : (machine self).Run h t) (c : Command) :
    ((∀ p ∈ h, p.1.Sound self p.2) ∧ t.Sound self c) ↔
      (∀ p ∈ h, p.1.Careful p.2) ∧ t.Careful c := by
  have hinit : ∀ t, (machine self).init t → t.Separate := by
    rintro _ rfl
    exact ⟨.init, List.nodup_nil⟩
  have hstep : ∀ t c t', t.Separate → t.Careful c → (machine self).step t c = some t' →
      t'.Separate := by
    intro t c t' hs hc hst
    exact ⟨wellFormed_step hs.wellFormed hst, ((hs.sound_iff self c).2 hc).nodup t' hst⟩
  rw [hr.forall_steps_iff hinit hstep fun t c t' hs _ => hs.sound_iff self c]
  refine and_congr_right fun hcareful => ?_
  exact (hr.inv_of_steps hinit hstep hcareful).1.sound_iff self c

/-- A neighbor is snooped on twice, and does not acknowledge. -/
theorem in_range_snoop : ∃ h t, (machine 1).Run h t ∧ t.routingTableActive = 1 ∧
    (∀ p ∈ h, p.1.Sound 1 p.2) ∧ t.Sound 1 (.txNoAck 2) := by
  obtain ⟨h, t, hr, hp⟩ := Machine.exists_run_of_exec (M := machine 1) (s := init) rfl
    [.updateNeighborSnoop 10 3 4 1 2 1, .updateNeighborSnoop 10 3 4 2 2 1]
    (fun h t => t.routingTableActive = 1 && (decide (∀ p ∈ h, p.1.Careful p.2) &&
      decide (t.Careful (.txNoAck 2)))) (by decide)
  simp only [Bool.and_eq_true, decide_eq_true_iff] at hp
  exact ⟨h, t, hr, hp.1, (in_range_iff hr (.txNoAck 2)).2 hp.2⟩

/-- A neighbor the table has no entry for does not acknowledge: the cell after the last entry is
read. -/
theorem in_range_false : ¬∀ (self : UInt16) (h : List (RoutingTable × Command)) (t : RoutingTable),
    (machine self).Run h t → ∀ c, ∀ a ∈ t.accesses c, a.idx < a.routingTableActive := by
  intro hall
  have := hall 1 [] init (.init rfl) (.txNoAck 2) ⟨0, 0⟩ (by decide)
  exact absurd this (by decide)

end BCP.RoutingTable
