import Backip.BCP.Proof.Downhill

/-!
# Bursts of snooped transmissions

A cell keeps the counter last snooped from its neighbor and the length of the streak that it ends.
`expected` computes both from the counters snooped: the streak is not the run of increments since the
last gap (`increments`). It starts over between 255 and 0, since `lastTxNoStreakID + 1` is compared as
an `int`, and a neighbor first snooped with the counter 1 has a streak of one from the start, since a
new cell holds the counter 0.
-/

set_option autoImplicit false

namespace BCP

/-! ## Sequences of counters -/

/-- The run of increments since the last gap that ends at the last counter, which comes first. -/
def increments : List UInt8 → Nat
  | c :: c' :: counters => if c = c' + 1 then increments (c' :: counters) + 1 else 0
  | _ => 0

/-- This run started at the first counter of all, which was 1. -/
def fromOne : List UInt8 → Bool
  | [] => false
  | [c] => c == 1
  | c :: c' :: counters => c == c' + 1 && fromOne (c' :: counters)

/-- The streak `updateNeighborSnoop` has counted at the last counter. -/
def counted : List UInt8 → UInt8
  | [] => 0
  | c :: counters =>
    if fromOne (c :: counters) then c
    else UInt8.ofNat (min (increments (c :: counters)) c.toNat)

/-- What a cell then holds: `lastTxNoStreakID` and `txNoStreakCount`. -/
def expected (counters : List UInt8) : UInt8 × UInt8 := (counters.headD 0, counted counters)

/-- The two fields in the branches of `updateNeighborSnoop`. -/
def advance (s : UInt8 × UInt8) (c : UInt8) : UInt8 × UInt8 :=
  if s.1.toNat + 1 = c.toNat then (s.1 + 1, s.2 + 1) else (c, 0)

theorem eq_succ_of_toNat {c c' : UInt8} (h : c'.toNat + 1 = c.toNat) : c = c' + 1 := by
  apply UInt8.toNat_inj.1
  have := c.toNat_lt
  rw [UInt8.toNat_add, UInt8.toNat_one, Nat.mod_eq_of_lt (by omega), h]

/-- An increment that the comparison misses is from 255 to 0. -/
theorem wraps_of_eq_succ {c c' : UInt8} (h : c = c' + 1) (hne : c'.toNat + 1 ≠ c.toNat) : c = 0 := by
  apply UInt8.toNat_inj.1
  have := c'.toNat_lt
  rw [h, UInt8.toNat_add, UInt8.toNat_one] at hne ⊢
  rw [UInt8.toNat_zero]
  omega

/-- The streak grows with the counter. -/
theorem counted_next {c c' : UInt8} (h : c'.toNat + 1 = c.toNat) (counters : List UInt8) :
    counted (c :: c' :: counters) = counted (c' :: counters) + 1 := by
  have hc := eq_succ_of_toNat h
  have hfrom : fromOne (c :: c' :: counters) = fromOne (c' :: counters) := by
    simp [fromOne, ← hc]
  have hinc : increments (c :: c' :: counters) = increments (c' :: counters) + 1 := by
    rw [increments, if_pos hc]
  rw [counted, counted, hfrom, hinc]
  split
  · exact hc
  · rw [← h, Nat.add_min_add_right, UInt8.ofNat_add]
    rfl

/-- It starts over at a gap, and at 0. -/
theorem counted_restart {c c' : UInt8} (h : c'.toNat + 1 ≠ c.toNat) (counters : List UInt8) :
    counted (c :: c' :: counters) = 0 := by
  rw [counted]
  by_cases hc : c = c' + 1
  · have hzero := wraps_of_eq_succ hc h
    rw [hzero]
    simp
  · have hfrom : fromOne (c :: c' :: counters) = false := by
      simp [fromOne, hc]
    simp [hfrom, increments, hc]

/-- The next counter advances the cell as expected. -/
theorem advance_expected (counters : List UInt8) (c : UInt8) :
    advance (expected counters) c = expected (c :: counters) := by
  cases counters with
  | nil =>
    by_cases hc : c = 1
    · subst hc
      rfl
    · have hne : ¬0 + 1 = c.toNat := fun h => hc (UInt8.toNat_inj.1 h.symm)
      simp [advance, expected, counted, fromOne, increments, hc, hne]
  | cons c' counters =>
    rw [advance, expected, List.headD_cons]
    by_cases hnext : c'.toNat + 1 = c.toNat
    · rw [if_pos hnext, ← eq_succ_of_toNat hnext, expected, counted_next hnext]
      rfl
    · rw [if_neg hnext, expected, counted_restart hnext]
      rfl

/-- The counters at which the streak and the run of increments disagree on having reached three. -/
def Misleads (counters : List UInt8) : Prop :=
  if fromOne counters then counters.headD 0 = 3 ∨ increments counters = 3
  else increments counters = 3 ∧ (counters.headD 0).toNat < 3 ∨
    3 < increments counters ∧ counters.headD 0 = 3

instance (counters : List UInt8) : Decidable (Misleads counters) := by
  unfold Misleads
  infer_instance

/-- While a run from the first counter lasts, the counter is one ahead of it. -/
theorem increments_fromOne {c : UInt8} {counters : List UInt8} (h : fromOne (c :: counters) = true) :
    c = UInt8.ofNat (increments (c :: counters) + 1) := by
  induction counters generalizing c with
  | nil => simpa [fromOne, increments] using h
  | cons c' counters ih =>
    rw [fromOne, Bool.and_eq_true, beq_iff_eq] at h
    obtain ⟨hc, h⟩ := h
    rw [increments, if_pos hc, UInt8.ofNat_add, ← ih h, hc]
    rfl

/-- They agree at all others. -/
theorem counted_three_iff (c : UInt8) (counters : List UInt8) :
    (counted (c :: counters) = 3 ↔ increments (c :: counters) = 3) ↔ ¬Misleads (c :: counters) := by
  rw [counted, Misleads, List.headD_cons]
  split
  · rename_i hfrom
    have hboth : ¬(c = 3 ∧ increments (c :: counters) = 3) := by
      rintro ⟨hc, hinc⟩
      have hnext := increments_fromOne hfrom
      rw [hinc, hc] at hnext
      exact absurd hnext (by decide)
    constructor
    · rintro hiff (hc | hinc)
      · exact hboth ⟨hc, hiff.1 hc⟩
      · exact hboth ⟨hiff.2 hinc, hinc⟩
    · intro hneither
      exact iff_of_false (fun hc => hneither (.inl hc)) fun hinc => hneither (.inr hinc)
  · have hlt := c.toNat_lt
    have hthree : ∀ x : UInt8, x = 3 ↔ x.toNat = 3 := fun x => UInt8.toNat_inj.symm
    rw [hthree, hthree, UInt8.toNat_ofNat', Nat.mod_eq_of_lt (by omega)]
    omega

namespace RoutingTable

variable {t t' : RoutingTable} {n : UInt16}

/-! ## The cell of a neighbor -/

theorem find_range (f : Nat → UInt16) (n : UInt16) (k : Nat) :
    ((List.range k).find? fun i => f i == n).getD k = ((List.range k).map f).idxOf n := by
  induction k with
  | zero => rfl
  | succ k ih =>
    rw [List.range_succ, List.find?_append, List.map_append, List.map_singleton, List.idxOf_append]
    cases hfind : (List.range k).find? fun i => f i == n with
    | none =>
      have hnot : n ∉ (List.range k).map f := by
        intro hmem
        obtain ⟨i, hi, rfl⟩ := List.mem_map.1 hmem
        exact absurd (List.find?_eq_none.1 hfind i hi) (by simp)
      rw [if_neg hnot]
      by_cases hk : f k = n <;> simp [hk, Nat.add_comm]
    | some i =>
      have hmem : n ∈ (List.range k).map f := by
        have hi := List.find?_some hfind
        exact List.mem_map.2 ⟨i, List.mem_of_find?_eq_some hfind, beq_iff_eq.1 hi⟩
      rw [if_pos hmem, ← ih, hfind]
      rfl

/-- Where a neighbor is found is where it stands among those that have an entry. -/
theorem find_eq_idxOf (t : RoutingTable) (hn : n ≠ tosBcastAddr) :
    t.routingTableFind n = t.known.idxOf n := by
  rw [routingTableFind, if_neg hn]
  exact find_range ..

theorem find_congr (hn : n ≠ tosBcastAddr) (hk : t'.known = t.known) :
    t'.routingTableFind n = t.routingTableFind n := by
  rw [find_eq_idxOf _ hn, find_eq_idxOf _ hn, hk]

/-- `lastTxNoStreakID` and `txNoStreakCount`. -/
def streakOf (e : RoutingTableEntry) : UInt8 × UInt8 := (e.lastTxNoStreakID, e.txNoStreakCount)

/-- These of the entry of a neighbor, if it has one. -/
def tracked (t : RoutingTable) (n : UInt16) : Option (UInt8 × UInt8) :=
  if t.routingTableFind n < t.routingTableActive then
    some (streakOf (t.routingTable (t.routingTableFind n)))
  else none

theorem tracked_eq_none (hn : n ≠ tosBcastAddr) : t.tracked n = none ↔ n ∉ t.known := by
  have hiff : n ∈ t.known ↔ t.routingTableFind n < t.routingTableActive :=
    ⟨find_lt_of_known hn, fun hlt => mem_known_of_find_ne (Nat.ne_of_lt hlt)⟩
  rw [tracked, hiff]
  split <;> simp [*]

/-- Tables with the same neighbors whose entries agree in the two fields. -/
theorem tracked_congr (hn : n ≠ tosBcastAddr) (hk : t'.known = t.known)
    (hcell : ∀ i < t.routingTableActive, (t.routingTable i).neighbor = n →
      streakOf (t'.routingTable i) = streakOf (t.routingTable i)) : t'.tracked n = t.tracked n := by
  have hfind := find_congr hn hk
  have hactive : t'.routingTableActive = t.routingTableActive := by
    rw [← length_known, ← length_known, hk]
  rw [tracked, tracked, hfind, hactive]
  rcases t.find_cases n with ⟨hlt, he⟩ | he
  · rw [if_pos hlt, if_pos hlt, hcell _ hlt he]
  · rw [if_neg (by omega), if_neg (by omega)]

/-- Writing a cell of the same neighbor, and the two fields as they are if it is `n`. -/
theorem tracked_set (hn : n ≠ tosBcastAddr) {idx : Nat} {e : RoutingTableEntry}
    (hb : e.neighbor = (t.routingTable idx).neighbor)
    (he : idx < t.routingTableActive → (t.routingTable idx).neighbor = n →
      streakOf e = streakOf (t.routingTable idx)) : (t.set idx e).tracked n = t.tracked n := by
  apply tracked_congr hn (known_set hb)
  intro i hi hin
  by_cases hidx : i = idx
  · subst hidx
    rw [set_self]
    exact he hi hin
  · rw [set_ne _ _ hidx]

/-- `routingTableUpdateEntry` leaves the two fields alone, or they are 0 in a new entry. -/
theorem tracked_updateEntry (hn : n ≠ tosBcastAddr) (m bp : UInt16) :
    (t.routingTableUpdateEntry m bp).2.tracked n = t.tracked n ∨
      n = m ∧ t.tracked n = none ∧ (t.routingTableUpdateEntry m bp).2.tracked n = some (0, 0) := by
  by_cases hfull : t.routingTableFind m = routingTableSize
  · left
    unfold routingTableUpdateEntry
    dsimp only
    rw [if_pos hfull]
  by_cases hnew : t.routingTableFind m = t.routingTableActive
  · have hroom : t.routingTableActive ≠ routingTableSize := hnew ▸ hfull
    obtain ⟨e, hupdate, he⟩ : ∃ e, (t.routingTableUpdateEntry m bp).2 =
        { t.set t.routingTableActive e with routingTableActive := t.routingTableActive + 1 } ∧
          streakOf e = (0, 0) ∧ e.neighbor = m := by
      unfold routingTableUpdateEntry
      dsimp only
      rw [if_neg hfull, if_pos hnew, hnew]
      exact ⟨_, rfl, rfl, rfl⟩
    have hknown := updateEntry_new hnew hroom bp
    generalize (t.routingTableUpdateEntry m bp).2 = t' at hupdate hknown ⊢
    have hactive : t'.routingTableActive = t.routingTableActive + 1 := by
      rw [hupdate]
    by_cases hk : n ∈ t.known
    · left
      have hlt := find_lt_of_known hn hk
      have hfind : t'.routingTableFind n = t.routingTableFind n := by
        rw [find_eq_idxOf _ hn, find_eq_idxOf _ hn, hknown, List.idxOf_append_of_mem hk]
      have hcell :
          t'.routingTable (t.routingTableFind n) = t.routingTable (t.routingTableFind n) := by
        rw [hupdate]
        exact set_ne _ _ (Nat.ne_of_lt hlt)
      rw [tracked, tracked, hfind, hactive, if_pos hlt, if_pos (by omega), hcell]
    · have hnone := (tracked_eq_none hn).2 hk
      by_cases hnm : n = m
      · right
        subst hnm
        have hfind : t'.routingTableFind n = t.routingTableActive := by
          rw [find_eq_idxOf _ hn, hknown, List.idxOf_append_of_notMem hk]
          simp
        have hcell : t'.routingTable t.routingTableActive = e := by
          rw [hupdate]
          exact set_self ..
        refine ⟨rfl, hnone, ?_⟩
        rw [tracked, hfind, hactive, if_pos (Nat.lt_succ_self _), hcell, he.1]
      · left
        rw [hnone, tracked_eq_none hn, hknown]
        simp [hk, hnm]
  · left
    have hupdate : (t.routingTableUpdateEntry m bp).2 = t.set (t.routingTableFind m)
        { t.routingTable (t.routingTableFind m) with backpressure := bp } := by
      unfold routingTableUpdateEntry
      dsimp only
      rw [if_neg hfull, if_neg hnew]
    rw [hupdate]
    exact tracked_set hn rfl fun _ _ => rfl

/-- Writing the cell of `n`. -/
theorem tracked_set_self (hn : n ≠ tosBcastAddr)
    (hlt : t.routingTableFind n < t.routingTableActive) {e : RoutingTableEntry}
    (he : e.neighbor = (t.routingTable (t.routingTableFind n)).neighbor) :
    (t.set (t.routingTableFind n) e).tracked n = some (streakOf e) := by
  rw [tracked, find_congr hn (known_set he), set_active, if_pos hlt, set_self]

/-- The streak in a cell, and whether it is signalled. -/
theorem streak_spec (e : RoutingTableEntry) (bp nh : UInt16) (c : UInt8) :
    streakOf (streak e bp nh c).1 = advance (streakOf e) c ∧
      ((streak e bp nh c).2 = true ↔ (advance (streakOf e) c).2 = 3 ∧ bp < nh) := by
  unfold streak advance streakOf
  split
  · simp
  · simp

section Snoop

variable {self bp snoop nh m notify : UInt16} {c : UInt8} {signals : List UInt16}
  (hn : n ≠ tosBcastAddr)
  (hs : t.updateNeighborSnoop self bp snoop nh c m notify = some (signals, t'))

include hs

/-- `updateNeighborSnoop` writes the cell it finds after the update. -/
theorem snoop_eq : ∃ e, t' =
      (t.routingTableUpdateEntry m snoop).2.set
        ((t.routingTableUpdateEntry m snoop).2.routingTableFind m) e ∧
    (t.routingTableUpdateEntry m snoop).2.routingTableFind m < routingTableSize ∧
    e.neighbor = ((t.routingTableUpdateEntry m snoop).2.routingTable
      ((t.routingTableUpdateEntry m snoop).2.routingTableFind m)).neighbor ∧
    streakOf e = advance (streakOf ((t.routingTableUpdateEntry m snoop).2.routingTable
      ((t.routingTableUpdateEntry m snoop).2.routingTableFind m))) c ∧
    signals = if (streakOf e).2 = 3 ∧ bp < nh then [m] else [] := by
  unfold updateNeighborSnoop at hs
  dsimp only at hs
  split at hs
  · rename_i hlt
    cases hs
    generalize (t.routingTableUpdateEntry m snoop).2 = t₁ at hlt ⊢
    obtain ⟨hstreak, hsignal⟩ := streak_spec (t₁.routingTable (t₁.routingTableFind m)) bp nh c
    refine ⟨_, rfl, hlt, streak_neighbor .., hstreak, ?_⟩
    refine if_congr ?_ rfl rfl
    rw [hsignal, ← hstreak]
    rfl
  · cases hs

include hn

/-- The neighbor snooped on has an entry afterwards. -/
theorem snoop_self (hm : m = n) :
    t'.tracked n = some (advance ((t.tracked n).getD (0, 0)) c) ∧
      signals = if (advance ((t.tracked n).getD (0, 0)) c).2 = 3 ∧ bp < nh then [n] else [] := by
  subst hm
  obtain ⟨e, ht', hsize, hneighbor, hstreak, hsignals⟩ := snoop_eq hs
  have hupdate := tracked_updateEntry (t := t) hn m snoop
  have hlt : (t.routingTableUpdateEntry m snoop).2.routingTableFind m <
      (t.routingTableUpdateEntry m snoop).2.routingTableActive := by
    apply find_lt_of_known hn
    by_contra hk
    have hnone : t.tracked m = none := by
      rcases hupdate with hsame | ⟨-, hnone, -⟩
      · rw [← hsame]
        exact (tracked_eq_none hn).2 hk
      · exact hnone
    have hfind := find_of_not_known ((tracked_eq_none hn).1 hnone)
    by_cases hfull : t.routingTableActive = routingTableSize
    · rw [updateEntry_full hfind hfull, hfind, hfull] at hsize
      exact Nat.lt_irrefl _ hsize
    · rw [updateEntry_new hfind hfull] at hk
      simp at hk
  have htracked : streakOf ((t.routingTableUpdateEntry m snoop).2.routingTable
      ((t.routingTableUpdateEntry m snoop).2.routingTableFind m)) = (t.tracked m).getD (0, 0) := by
    rw [tracked, if_pos hlt] at hupdate
    rcases hupdate with hsame | ⟨-, hnone, hzero⟩
    · rw [← hsame]
      rfl
    · rw [hnone]
      exact Option.some.inj hzero
  rw [htracked] at hstreak
  rw [ht', tracked_set_self hn hlt hneighbor, hsignals, hstreak]
  exact ⟨rfl, rfl⟩

/-- The others keep the two fields. -/
theorem snoop_other (hm : m ≠ n) : t'.tracked n = t.tracked n := by
  obtain ⟨e, ht', -, hneighbor, -⟩ := snoop_eq hs
  rcases tracked_updateEntry (t := t) hn m snoop with hsame | ⟨heq, -⟩
  · rw [← hsame, ht']
    apply tracked_set hn hneighbor
    intro hlt hcell
    rcases (t.routingTableUpdateEntry m snoop).2.find_cases m with ⟨-, hfound⟩ | hfound
    · exact absurd (hfound.symm.trans hcell) hm
    · omega
  · exact absurd heq.symm hm

end Snoop

/-- A command that is no snoop on `n` leaves the two fields alone, or they are 0 in a new entry. -/
theorem tracked_step {self : UInt16} (h : t.WellFormed) (hn : n ≠ tosBcastAddr) {c : Command}
    (hc : ∀ bp snoop nh tx notify, c ≠ .updateNeighborSnoop bp snoop nh tx n notify)
    (hs : t.step self c = some t') :
    t'.tracked n = t.tracked n ∨ t.tracked n = none ∧ t'.tracked n = some (0, 0) := by
  cases c with
  | updateNeighborBackpressure m bp =>
    cases hs
    exact (tracked_updateEntry hn m bp).imp_right fun hnew => hnew.2
  | updateNeighborSnoop bp snoop nh tx m notify =>
    obtain ⟨⟨signals, t''⟩, hr, rfl⟩ := Option.map_eq_some_iff.1 hs
    refine .inl (snoop_other hn hr ?_)
    rintro rfl
    exact hc _ _ _ _ _ rfl
  | updateLinkSuccess m tx =>
    cases hs
    unfold RoutingTable.updateLinkSuccess
    dsimp only
    split
    · exact .inl rfl
    · exact .inl (tracked_set hn rfl fun _ _ => rfl)
  | updateLinkRate m time =>
    cases hs
    unfold RoutingTable.updateLinkRate
    dsimp only
    split
    · exact .inl rfl
    · exact .inl (tracked_set hn rfl fun _ _ => rfl)
  | txNoAck m =>
    cases hs
    unfold RoutingTable.txNoAck
    dsimp only
    split
    · exact .inl rfl
    · split
      · exact .inl (tracked_set hn rfl fun _ _ => rfl)
      · exact .inl rfl
  | updateRouting bp =>
    left
    have hknown := known_step h hs
    obtain ⟨r, hr, rfl⟩ := Option.map_eq_some_iff.1 hs
    apply tracked_congr hn hknown
    intro i _ _
    obtain ⟨b, hcell⟩ := (h.routed hr).2 i
    rw [hcell]
    rfl

/-! ## Runs -/

/-- The counters snooped from `n`, the last one first. -/
def snoopedFrom (n : UInt16) (h : List (RoutingTable × Command)) : List UInt8 :=
  h.filterMap fun
    | (_, .updateNeighborSnoop _ _ _ c m _) => if m = n then some c else none
    | _ => none

/-- The cell of a neighbor holds what is expected of the counters snooped from it. -/
theorem tracked_run {self : UInt16} {h : List (RoutingTable × Command)}
    (hr : (machine self).Run h t) (hn : n ≠ tosBcastAddr) :
    (t.tracked n).getD (0, 0) = expected (snoopedFrom n h) := by
  induction hr with
  | init hinit =>
    cases hinit
    rfl
  | @step h s s' c hr hs ih =>
    have hwf := hr.inv (wellFormed self)
    by_cases hc : ∀ bp snoop nh tx notify, c ≠ .updateNeighborSnoop bp snoop nh tx n notify
    · have hsame : snoopedFrom n ((s, c) :: h) = snoopedFrom n h := by
        cases c with
        | updateNeighborSnoop bp snoop nh tx m notify =>
          have hm : m ≠ n := by
            rintro rfl
            exact hc _ _ _ _ _ rfl
          simp [snoopedFrom, hm]
        | _ => rfl
      rw [hsame, ← ih]
      rcases tracked_step hwf hn hc hs with htracked | ⟨hnone, hzero⟩
      · rw [htracked]
      · rw [hnone, hzero]
        rfl
    · push Not at hc
      obtain ⟨bp, snoop, nh, tx, notify, rfl⟩ := hc
      obtain ⟨⟨signals, t'⟩, hsnoop, rfl⟩ := Option.map_eq_some_iff.1 hs
      have hcons : snoopedFrom n ((s, .updateNeighborSnoop bp snoop nh tx n notify) :: h) =
          tx :: snoopedFrom n h := by
        simp [snoopedFrom]
      rw [hcons, (snoop_self hn hsnoop rfl).1, ih, Option.getD_some, advance_expected]

/-- `updateNeighborSnoop` of `n` with the counter `c` signals `setNotifyBurstyLinkNeighbor` for it
exactly if the counter completes a run of three increments and the local backpressure is below that
of the next hop. -/
def Detects (self : UInt16) (h : List (RoutingTable × Command)) (t : RoutingTable)
    (bp snoop nh : UInt16) (c : UInt8) (n notify : UInt16) : Prop :=
  ∃ t', t.updateNeighborSnoop self bp snoop nh c n notify =
    some (if increments (c :: snoopedFrom n h) = 3 ∧ bp < nh then [n] else [], t')

/-- **Bursts are detected exactly if** the neighbor has an entry or finds room for one, and, with the
local backpressure below the next hop's, the counter is none that misleads. -/
theorem detects_iff {self : UInt16} {h : List (RoutingTable × Command)} (hr : (machine self).Run h t)
    (bp snoop nh : UInt16) (c : UInt8) (hn : n ≠ tosBcastAddr) (notify : UInt16) :
    Detects self h t bp snoop nh c n notify ↔
      (n ∈ t.known ∨ t.routingTableActive < routingTableSize) ∧
        (bp < nh → ¬Misleads (c :: snoopedFrom n h)) := by
  have hwf := hr.inv (wellFormed self)
  have hle := hwf.active_le
  -- what the code signals, where the call has a result
  have hsignals : ∀ r, t.updateNeighborSnoop self bp snoop nh c n notify = some r →
      r.1 = if counted (c :: snoopedFrom n h) = 3 ∧ bp < nh then [n] else [] := by
    intro r hsnoop
    have hself := (snoop_self hn hsnoop rfl).2
    rw [tracked_run hr hn, advance_expected] at hself
    exact hself
  constructor
  · rintro ⟨t', hsnoop⟩
    constructor
    · by_contra hno
      obtain ⟨hk, hroom⟩ := not_or.1 hno
      obtain ⟨-, -, hsize, -⟩ := snoop_eq hsnoop
      have hfull : t.routingTableActive = routingTableSize := by omega
      have hfind := find_of_not_known hk
      rw [updateEntry_full hfind hfull, hfind, hfull] at hsize
      exact Nat.lt_irrefl _ hsize
    · intro hlt
      have hsame := hsignals _ hsnoop
      rw [← counted_three_iff]
      simp only [hlt, and_true] at hsame
      by_cases h3 : counted (c :: snoopedFrom n h) = 3 <;>
        by_cases h3' : increments (c :: snoopedFrom n h) = 3 <;> simp [h3, h3'] at hsame ⊢
  · rintro ⟨hroom, hok⟩
    have hlt := (hwf.snoop_iff n snoop).2 ⟨hn, hroom⟩
    have hle' := (hwf.updateEntry n snoop).active_le
    obtain ⟨r, hsnoop⟩ : ∃ r, t.updateNeighborSnoop self bp snoop nh c n notify = some r := by
      unfold updateNeighborSnoop
      dsimp only
      rw [if_pos (by omega)]
      exact ⟨_, rfl⟩
    refine ⟨r.2, hsnoop.trans ?_⟩
    rw [← Prod.eta r, hsignals r hsnoop]
    refine congrArg some (Prod.ext (if_congr ?_ rfl rfl) rfl)
    refine and_congr_left fun hlt => ?_
    exact (counted_three_iff c _).2 (hok hlt)

/-- The fourth snoop, with the counters 5 to 8. -/
theorem detects_burst : ∃ h t, (machine 1).Run h t ∧ Detects 1 h t 3 3 4 8 2 0 := by
  obtain ⟨h, t, hr, hp⟩ := Machine.exists_run_of_exec (M := machine 1) (s := init) rfl
    [.updateNeighborSnoop 3 3 4 5 2 0, .updateNeighborSnoop 3 3 4 6 2 0,
      .updateNeighborSnoop 3 3 4 7 2 0]
    (fun h t => t.routingTableActive = 1 && snoopedFrom 2 h = [7, 6, 5]) (by decide +kernel)
  simp only [Bool.and_eq_true, decide_eq_true_iff] at hp
  refine ⟨h, t, hr, (detects_iff hr 3 3 4 8 (by decide) 0).2 ⟨.inr ?_, fun _ => ?_⟩⟩
  · rw [hp.1]
    decide
  · rw [hp.2]
    decide

/-- The counters 254, 255, 0 and 1: the third increment is not seen. -/
theorem detects_false : ¬∀ (self : UInt16) (h : List (RoutingTable × Command)) (t : RoutingTable),
    (machine self).Run h t → ∀ (bp snoop nh : UInt16) (c : UInt8) (n notify : UInt16),
      n ≠ tosBcastAddr → (n ∈ t.known ∨ t.routingTableActive < routingTableSize) →
        Detects self h t bp snoop nh c n notify := by
  intro hall
  obtain ⟨h, t, hr, hp⟩ := Machine.exists_run_of_exec (M := machine 1) (s := init) rfl
    [.updateNeighborSnoop 3 3 4 254 2 0, .updateNeighborSnoop 3 3 4 255 2 0,
      .updateNeighborSnoop 3 3 4 0 2 0]
    (fun h t => t.routingTableActive = 1 && (snoopedFrom 2 h = [0, 255, 254] &&
      (t.updateNeighborSnoop 1 3 3 4 1 2 0).all fun r => r.1 = [])) (by decide +kernel)
  simp only [Bool.and_eq_true, decide_eq_true_iff] at hp
  obtain ⟨hactive, hsnooped, hsilent⟩ := hp
  obtain ⟨t', hsnoop⟩ := hall 1 h t hr 3 3 4 1 2 0 (by decide) (.inr (by rw [hactive]; decide))
  rw [hsnooped, if_pos (by decide)] at hsnoop
  simp [hsnoop] at hsilent

end RoutingTable

end BCP
