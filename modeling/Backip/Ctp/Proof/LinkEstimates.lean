import Backip.Lib.Observed
import Backip.Ctp.Proof.NeighborTable
import Mathlib.Algebra.Group.Nat.Defs

/-!
# Estimates of different neighbors

The estimate of a neighbor comes from what the events tell of it since it was put into the table
(`Notes`), and from what is left of the neighbor that had the slot before: `initNeighborIdx` does not
reset the counters of acknowledgements.

* `step_entry`: an event changes the entry of a neighbor as its note says, or not at all.
* `isolated`: two runs that tell the same of a neighbor give it the same quality, if the slots they
  put it in have the same counters left.
-/

set_option autoImplicit false

namespace LinkEstimatorP

/-! ## What an event tells of a neighbor -/

/-- What an event tells of a neighbor: its beacon and the entries in it for this node, whether a
message to it was acknowledged, that its counters are cleared. -/
inductive Note
  | beacon (seq : UInt8) (qualities : List UInt8)
  | tx (ack : Bool)
  | clear
deriving DecidableEq, Repr

namespace Note

/-- What a note does to the neighbor's entry. -/
def act (w : IntWidth) (x : NeighborTableEntry) : Note → NeighborTableEntry
  | beacon seq qualities => (x.heard w seq).footers qualities
  | tx ack => x.tx w ack
  | clear => { x with dataTotal := 0, dataSuccess := 0 }

/-- What is left of a note if the beacon is not counted. -/
def actUncounted (w : IntWidth) (x : NeighborTableEntry) : Note → NeighborTableEntry
  | beacon _ qualities => x.footers qualities
  | a => a.act w x

end Note

/-- The note of an event, if it concerns the neighbor. -/
def Event.note (myLlAddr n : UInt16) : Event → Option Note
  | receive f =>
    if f.destination = amBroadcastAddr ∧ f.source = n then
      some (.beacon (f.mem 1) (NeighborTable.qualities myLlAddr f))
    else none
  | txAck m => if m = n then some (.tx true) else none
  | txNoAck m => if m = n then some (.tx false) else none
  | clearDLQ m => if m = n then some .clear else none
  | _ => none

/-- What a run tells of a neighbor. -/
def notes (myLlAddr n : UInt16) (es : List Event) : List Note := es.filterMap (·.note myLlAddr n)

/-! ## The slot of a new neighbor -/

namespace Event

/-- What an entry must have to be evicted for the event. -/
def threshold : Event → UInt16
  | insertNeighbor _ => bestEetx
  | _ => evictEetxThreshold

/-- The slot that the event gives to a new neighbor. -/
def slot (t : NeighborTable) (e : Event) : Option NeighborTableEntry :=
  (t.findEmpty <|> t.findWorst e.threshold).bind (t[·]?)

/-- The counters of acknowledgements that are left in the slot. -/
def leftover (t : NeighborTable) (e : Event) : Option (UInt8 × UInt8) :=
  (e.slot t).map fun o => (o.dataSuccess, o.dataTotal)

/-- A beacon is not counted if its sender takes the slot of another neighbor. -/
def uncounted (t : NeighborTable) : Event → Bool
  | receive _ => t.findEmpty.isNone
  | _ => false

end Event

/-! ## Entries without their pin -/

namespace NeighborTableEntry

variable {w : IntWidth}

/-- What the estimate of an entry is made of: all but the pin. -/
def unpinned (x : NeighborTableEntry) : NeighborTableEntry := { x with pinned := false }

theorem unpinned_hear (x : NeighborTableEntry) (seq : UInt8) :
    (x.hear seq).unpinned = x.unpinned.hear seq := by
  unfold hear
  cases h : x.init
  all_goals
    have h' : x.unpinned.init = _ := h
    simp only [h, h', Bool.false_eq_true, if_false, if_true]
    rw [apply_ite unpinned]
    rfl

theorem unpinned_updateEst (x : NeighborTableEntry) :
    (x.updateEst w).unpinned = x.unpinned.updateEst w := by
  cases x with
  | mk llAddr lastseq rcvcnt failcnt valid mature init pinned inage outage =>
    unfold updateEst unpinned
    dsimp only [updateEETX]
    generalize (if inage > 0 then inage - 1 else inage) = inage
    generalize (if outage > 0 then outage - 1 else outage) = outage
    split <;> rfl

theorem unpinned_heard (x : NeighborTableEntry) (seq : UInt8) :
    (x.heard w seq).unpinned = x.unpinned.heard w seq := by
  have hcnt : (x.hear seq).rcvcnt = (x.unpinned.hear seq).rcvcnt := by
    rw [← unpinned_hear]
    rfl
  unfold heard
  dsimp only
  rw [← hcnt, ← unpinned_hear, ← unpinned_updateEst]
  split <;> rfl

theorem unpinned_footers (x : NeighborTableEntry) (qualities : List UInt8) :
    (x.footers qualities).unpinned = x.unpinned.footers qualities := by
  induction qualities generalizing x with
  | nil => rfl
  | cons q qs ih => exact ih (x.footer q)

theorem unpinned_updateDEETX (x : NeighborTableEntry) :
    (x.updateDEETX w).unpinned = x.unpinned.updateDEETX w := by
  unfold updateDEETX
  rw [apply_ite unpinned]
  rfl

theorem unpinned_tx (x : NeighborTableEntry) (ack : Bool) :
    (x.tx w ack).unpinned = x.unpinned.tx w ack := by
  unfold tx
  dsimp only
  rw [apply_ite unpinned, unpinned_updateDEETX]
  rfl

theorem unpinned_act (x : NeighborTableEntry) (a : Note) :
    (a.act w x).unpinned = a.act w x.unpinned := by
  cases a with
  | beacon seq qs =>
    rw [Note.act, unpinned_footers, unpinned_heard]
    rfl
  | tx ack => exact x.unpinned_tx ack
  | clear => rfl

end NeighborTableEntry

namespace NeighborTable

variable {w : IntWidth} {myLlAddr n m : UInt16} {t t' : NeighborTable} {x y : NeighborTableEntry}
  {v : Option UInt16}

/-- What the table knows of a neighbor. -/
def estimate (n : UInt16) (t : NeighborTable) : Option NeighborTableEntry :=
  (t.entry n).map NeighborTableEntry.unpinned

theorem estimate_eq_none_iff : t.estimate n = none ↔ t.entry n = none := Option.map_eq_none_iff

/-- The quality is a function of what the table knows. -/
theorem getLinkQuality_estimate (t : NeighborTable) (n : UInt16) : t.getLinkQuality n =
    match t.estimate n with
    | some ne => if ne.mature then ne.eetx else veryLargeEetxValue
    | none => veryLargeEetxValue := by
  rw [getLinkQuality_eq, estimate]
  cases t.entry n <;> rfl

/-! ## One event -/

/-- An event that concerns another neighbor leaves the entry or evicts the neighbor. -/
theorem Becomes.estimate_other (h : Becomes t m y v t') (hne : n ≠ m) :
    t'.estimate n = none ∨ t'.estimate n = t.estimate n := by
  rw [estimate, h.others n hne]
  split
  · exact .inl rfl
  · exact .inr rfl

theorem Becomes.estimate_new (h : Becomes t n y v t') : t'.estimate n = some y.unpinned := by
  rw [estimate, h.new]
  rfl

/-- A command on the entry of a neighbor `m`, whose note for `n` is `a`. -/
theorem Distinct.onEntry_estimate (hd : t.Distinct)
    {g : NeighborTableEntry → NeighborTableEntry} {a : Option Note}
    (hg : ∀ x, (g x).valid = x.valid ∧ (g x).llAddr = x.llAddr)
    (ha : m = n → ∀ x, (g x).unpinned = a.elim x.unpinned (Note.act w x.unpinned))
    (hother : m ≠ n → a = none) {o : NeighborTableEntry} (ho : t.estimate n = some o) :
    (t.onEntry m g).2.estimate n = none ∨
      (t.onEntry m g).2.estimate n = some (a.elim o (Note.act w o)) := by
  by_cases hmn : m = n
  · subst hmn
    rcases hd.onEntry_cases m hg with ⟨hnone, -⟩ | ⟨x, hx, hb⟩
    · rw [estimate, hnone] at ho
      cases ho
    · rw [estimate, hx] at ho
      cases ho
      exact .inr (hb.estimate_new.trans (congrArg some (ha rfl x)))
  · rw [hother hmn]
    rcases hd.onEntry_cases m hg with ⟨-, hsame⟩ | ⟨x, hx, hb⟩
    · rw [hsame]
      exact .inr ho
    · exact (hb.estimate_other (Ne.symm hmn)).imp_right fun h => h.trans ho

theorem ne_of_estimate {o : NeighborTableEntry} (ho : t.estimate n = some o)
    (hm : t.entry m = none) : n ≠ m := by
  rintro rfl
  rw [estimate_eq_none_iff.2 hm] at ho
  cases ho

theorem Hears.estimate {f : Frame} (h : Hears w myLlAddr t f t' v) {o : NeighborTableEntry}
    (ho : t.estimate n = some o) : t'.estimate n = none ∨
      t'.estimate n = some (((Event.receive f).note myLlAddr n).elim o (Note.act w o)) := by
  have hother : n ≠ f.source → (Event.receive f).note myLlAddr n = none := fun hn =>
    if_neg fun hc => hn hc.2.symm
  cases h with
  | unicast hdest =>
    rw [Event.note, if_neg fun hc => hdest hc.1]
    exact .inr ho
  | full _ hnone =>
    rw [hother (ne_of_estimate ho hnone)]
    exact .inr ho
  | known x hdest hx hb =>
    by_cases hn : n = f.source
    · subst hn
      rw [NeighborTable.estimate, hx] at ho
      cases ho
      rw [Event.note, if_pos ⟨hdest, rfl⟩, hb.estimate_new]
      exact .inr (congrArg some (x.unpinned_act (.beacon _ _)))
    · rw [hother hn]
      exact (hb.estimate_other hn).imp_right fun h => h.trans ho
  | fresh _ _ _ hnone _ _ hb =>
    rw [hother (ne_of_estimate ho hnone)]
    exact (hb.estimate_other (ne_of_estimate ho hnone)).imp_right fun h => h.trans ho
  | replaced _ _ _ hnone _ _ _ _ _ hb =>
    rw [hother (ne_of_estimate ho hnone)]
    exact (hb.estimate_other (ne_of_estimate ho hnone)).imp_right fun h => h.trans ho

theorem Inserts.estimate (h : Inserts t m t' v) {o : NeighborTableEntry}
    (ho : t.estimate n = some o) : t'.estimate n = none ∨ t'.estimate n = some o := by
  cases h with
  | known => exact .inr ho
  | full => exact .inr ho
  | fresh _ _ hnone _ _ hb =>
    exact (hb.estimate_other (ne_of_estimate ho hnone)).imp_right fun h => h.trans ho
  | replaced _ _ hnone _ _ _ _ _ hb =>
    exact (hb.estimate_other (ne_of_estimate ho hnone)).imp_right fun h => h.trans ho

theorem Hears.distinct {f : Frame} (hd : t.Distinct) (h : Hears w myLlAddr t f t' v) :
    t'.Distinct := by
  cases h with
  | unicast => exact hd
  | full => exact hd
  | known _ _ _ hb => exact hb.distinct
  | fresh _ _ _ _ _ _ hb => exact hb.distinct
  | replaced _ _ _ _ _ _ _ _ _ hb => exact hb.distinct

theorem Inserts.distinct (hd : t.Distinct) (h : Inserts t m t' v) : t'.Distinct := by
  cases h with
  | known => exact hd
  | full => exact hd
  | fresh _ _ _ _ _ hb => exact hb.distinct
  | replaced _ _ _ _ _ _ _ _ hb => exact hb.distinct

theorem Distinct.onEntry (hd : t.Distinct) {g : NeighborTableEntry → NeighborTableEntry}
    (hg : ∀ x, (g x).valid = x.valid ∧ (g x).llAddr = x.llAddr) : (t.onEntry m g).2.Distinct := by
  rcases hd.onEntry_cases m hg with ⟨-, hsame⟩ | ⟨_, _, hb⟩
  · rw [hsame]
    exact hd
  · exact hb.distinct

theorem Distinct.step (hd : t.Distinct) (e : Event) : (t.step w myLlAddr e).Distinct := by
  cases e with
  | receive f => exact (hd.hears w myLlAddr f).distinct hd
  | insertNeighbor m => exact (hd.inserts m).distinct hd
  | txAck m => exact hd.onEntry fun x => ⟨x.tx_fixed.1, x.tx_fixed.2.1⟩
  | txNoAck m => exact hd.onEntry fun x => ⟨x.tx_fixed.1, x.tx_fixed.2.1⟩
  | _ => exact hd.onEntry fun _ => ⟨rfl, rfl⟩

theorem distinct_run (es : List Event) : (run w myLlAddr init es).Distinct :=
  List.foldlRecOn es (NeighborTable.step w myLlAddr) distinct_init fun _ hd e _ => hd.step e

/-- An event changes what the table knows of a neighbor as its note says, unless the neighbor is
evicted. -/
theorem Distinct.step_estimate (hd : t.Distinct) (e : Event) {o : NeighborTableEntry}
    (ho : t.estimate n = some o) : (t.step w myLlAddr e).estimate n = none ∨
      (t.step w myLlAddr e).estimate n = some ((e.note myLlAddr n).elim o (Note.act w o)) := by
  cases e with
  | receive f => exact (hd.hears w myLlAddr f).estimate ho
  | insertNeighbor m => exact (hd.inserts m).estimate ho
  | pinNeighbor m =>
    exact hd.onEntry_estimate (g := fun ne => { ne with pinned := true }) (a := none)
      (fun _ => ⟨rfl, rfl⟩) (fun _ _ => rfl) (fun _ => rfl) ho
  | unpinNeighbor m =>
    exact hd.onEntry_estimate (g := fun ne => { ne with pinned := false }) (a := none)
      (fun _ => ⟨rfl, rfl⟩) (fun _ _ => rfl) (fun _ => rfl) ho
  | txAck m =>
    refine hd.onEntry_estimate (a := (Event.txAck m).note myLlAddr n)
      (fun x => ⟨x.tx_fixed.1, x.tx_fixed.2.1⟩) ?_ (fun h => if_neg h) ho
    intro hm x
    rw [Event.note, if_pos hm]
    exact x.unpinned_tx true
  | txNoAck m =>
    refine hd.onEntry_estimate (a := (Event.txNoAck m).note myLlAddr n)
      (fun x => ⟨x.tx_fixed.1, x.tx_fixed.2.1⟩) ?_ (fun h => if_neg h) ho
    intro hm x
    rw [Event.note, if_pos hm]
    exact x.unpinned_tx false
  | clearDLQ m =>
    refine hd.onEntry_estimate (g := fun ne => { ne with dataTotal := 0, dataSuccess := 0 })
      (a := (Event.clearDLQ m).note myLlAddr n) (fun _ => ⟨rfl, rfl⟩) ?_ (fun h => if_neg h) ho
    intro hm x
    rw [Event.note, if_pos hm]
    rfl

/-! ## The event that puts a neighbor into the table -/

/-- A neighbor comes into the table only by its own entry. -/
theorem Becomes.eq_of_enters (h : Becomes t m y v t') (hnone : t.estimate n = none)
    (hsome : t'.estimate n ≠ none) : n = m := by
  by_contra hne
  rcases h.estimate_other hne with h | h
  · exact hsome h
  · exact hsome (h.trans hnone)

theorem Distinct.onEntry_absent (hd : t.Distinct) {g : NeighborTableEntry → NeighborTableEntry}
    (hg : ∀ x, (g x).valid = x.valid ∧ (g x).llAddr = x.llAddr) (hnone : t.estimate n = none) :
    (t.onEntry m g).2.estimate n = none := by
  by_contra hsome
  rcases hd.onEntry_cases m hg with ⟨-, hsame⟩ | ⟨x, hx, hb⟩
  · rw [hsame] at hsome
    exact hsome hnone
  · rw [← hb.eq_of_enters hnone hsome, estimate_eq_none_iff.1 hnone] at hx
    cases hx

/-- How the entry of a neighbor starts in a slot. -/
def Started (w : IntWidth) (myLlAddr n : UInt16) (t : NeighborTable) (e : Event)
    (t' : NeighborTable) : Prop :=
  ∃ o, e.slot t = some o ∧ (e.uncounted t = true → e.note myLlAddr n ≠ none) ∧
    t'.estimate n = some ((e.note myLlAddr n).elim (o.initNeighbor n)
      (if e.uncounted t then Note.actUncounted w (o.initNeighbor n)
        else Note.act w (o.initNeighbor n)))

theorem slot_eq {e : Event} {i : Nat} (hi : (t.findEmpty <|> t.findWorst e.threshold) = some i)
    (hx : t[i]? = some x) : e.slot t = some x := by
  rw [Event.slot, hi]
  exact hx

theorem Hears.started {f : Frame} (h : Hears w myLlAddr t f t' v) (hnone : t.estimate n = none)
    (hsome : t'.estimate n ≠ none) : Started w myLlAddr n t (.receive f) t' := by
  cases h with
  | unicast => exact absurd hnone hsome
  | full => exact absurd hnone hsome
  | known x _ hx hb =>
    rw [← hb.eq_of_enters hnone hsome, estimate_eq_none_iff.1 hnone] at hx
    cases hx
  | fresh i o hdest _ hi ho hb =>
    obtain rfl := hb.eq_of_enters hnone hsome
    have hcount : (Event.receive f).uncounted t = false := by
      rw [Event.uncounted, hi]
      rfl
    refine ⟨o, slot_eq (by rw [hi]; rfl) ho, by rw [hcount]; nofun, ?_⟩
    rw [hb.estimate_new, hcount, Event.note, if_pos ⟨hdest, rfl⟩]
    exact congrArg some ((o.initNeighbor _).unpinned_act (.beacon _ _))
  | replaced i o hdest _ he hi ho _ _ hb =>
    obtain rfl := hb.eq_of_enters hnone hsome
    have hcount : (Event.receive f).uncounted t = true := by
      rw [Event.uncounted, he]
      rfl
    have hnote : (Event.receive f).note myLlAddr f.source = some _ := if_pos ⟨hdest, rfl⟩
    refine ⟨o, slot_eq (by rw [he]; exact hi) ho, fun _ => by rw [hnote]; nofun, ?_⟩
    rw [hb.estimate_new, hcount, hnote]
    exact congrArg some ((o.initNeighbor _).unpinned_footers _)

theorem Inserts.started (h : Inserts t m t' v) (hnone : t.estimate n = none)
    (hsome : t'.estimate n ≠ none) : Started w myLlAddr n t (.insertNeighbor m) t' := by
  cases h with
  | known => exact absurd hnone hsome
  | full => exact absurd hnone hsome
  | fresh i o _ hi ho hb =>
    obtain rfl := hb.eq_of_enters hnone hsome
    exact ⟨o, slot_eq (by rw [hi]; rfl) ho, nofun, hb.estimate_new⟩
  | replaced i o _ he hi ho _ _ hb =>
    obtain rfl := hb.eq_of_enters hnone hsome
    exact ⟨o, slot_eq (by rw [he]; exact hi) ho, nofun, hb.estimate_new⟩

/-- The entry starts with the counters that are left in the slot. -/
theorem Distinct.step_enters (hd : t.Distinct) {e : Event}
    (h : Enters (NeighborTable.step w myLlAddr) (estimate n) t e) :
    Started w myLlAddr n t e (t.step w myLlAddr e) := by
  obtain ⟨hnone, hsome⟩ := h
  cases e with
  | receive f => exact (hd.hears w myLlAddr f).started hnone hsome
  | insertNeighbor m => exact (hd.inserts m).started hnone hsome
  | txAck m =>
    exact absurd (hd.onEntry_absent (fun x => ⟨x.tx_fixed.1, x.tx_fixed.2.1⟩) hnone) hsome
  | txNoAck m =>
    exact absurd (hd.onEntry_absent (fun x => ⟨x.tx_fixed.1, x.tx_fixed.2.1⟩) hnone) hsome
  | _ => exact (hsome (hd.onEntry_absent (fun _ => ⟨rfl, rfl⟩) hnone)).elim

end NeighborTable

/-! ## Two runs -/

section

variable (w : IntWidth) (myLlAddr n : UInt16)

/-- The table after a run from the start. -/
def after (es : List Event) : NeighborTable := NeighborTable.init.run w myLlAddr es

/-- In the run of `pre`, `e` and `post` the neighbor was last put into the table by `e`. -/
structure LastInserted (pre : List Event) (e : Event) (post : List Event) : Prop where
  enters : Enters (NeighborTable.step w myLlAddr) (NeighborTable.estimate n)
    (after w myLlAddr pre) e
  since : Unentered (NeighborTable.step w myLlAddr) (NeighborTable.estimate n)
    ((after w myLlAddr pre).step w myLlAddr e) post

end

namespace LastInserted

variable {w : IntWidth} {myLlAddr n : UInt16} {pre pre' post post' : List Event} {e e' : Event}

/-- The run's table knows of the neighbor what the notes tell, or no longer has it. -/
theorem estimate (h : LastInserted w myLlAddr n pre e post) : ∃ o,
    e.slot (after w myLlAddr pre) = some o ∧
    (e.uncounted (after w myLlAddr pre) = true → e.note myLlAddr n ≠ none) ∧
    ((after w myLlAddr (pre ++ e :: post)).estimate n ≠ none →
      (after w myLlAddr (pre ++ e :: post)).estimate n =
        some ((notes myLlAddr n post).foldl (Note.act w) ((e.note myLlAddr n).elim
          (o.initNeighbor n) (if e.uncounted (after w myLlAddr pre) then
            Note.actUncounted w (o.initNeighbor n) else Note.act w (o.initNeighbor n))))) := by
  have hd : (after w myLlAddr pre).Distinct := NeighborTable.distinct_run pre
  obtain ⟨o, ho, hnote, hstart⟩ := hd.step_enters h.enters
  refine ⟨o, ho, hnote, fun hin => ?_⟩
  have hrun : after w myLlAddr (pre ++ e :: post) =
      post.foldl (NeighborTable.step w myLlAddr) ((after w myLlAddr pre).step w myLlAddr e) := by
    rw [after, NeighborTable.run, List.foldl_append]
    rfl
  rw [hrun] at hin ⊢
  have hobs := h.since.observed (fun _ e hd => NeighborTable.Distinct.step hd e)
    (fun _ e _ hd ho => hd.step_estimate e ho) (hd.step e) hstart
  exact hobs.resolve_left hin

/-- The same notes, the same counters left and the same count of the first beacon make the same
estimate. -/
theorem started_eq {o o' : NeighborTableEntry} {u : Bool}
    (hleft : (o.dataSuccess, o.dataTotal) = (o'.dataSuccess, o'.dataTotal))
    (hnote : u = true → e.note myLlAddr n ≠ none) (hnote' : u = true → e'.note myLlAddr n ≠ none)
    (hnotes : notes myLlAddr n (e :: post) = notes myLlAddr n (e' :: post')) :
    (notes myLlAddr n post).foldl (Note.act w) ((e.note myLlAddr n).elim (o.initNeighbor n)
        (if u then Note.actUncounted w (o.initNeighbor n) else Note.act w (o.initNeighbor n))) =
      (notes myLlAddr n post').foldl (Note.act w) ((e'.note myLlAddr n).elim (o'.initNeighbor n)
        (if u then Note.actUncounted w (o'.initNeighbor n)
          else Note.act w (o'.initNeighbor n))) := by
  obtain ⟨hs, ht⟩ := Prod.mk.inj hleft
  have hinit : o.initNeighbor n = o'.initNeighbor n := by
    unfold NeighborTableEntry.initNeighbor
    rw [hs, ht]
  rw [hinit]
  cases u with
  | true =>
    obtain ⟨a, ha⟩ := Option.ne_none_iff_exists'.1 (hnote rfl)
    obtain ⟨b, hb⟩ := Option.ne_none_iff_exists'.1 (hnote' rfl)
    rw [notes, notes, List.filterMap_cons_some ha, List.filterMap_cons_some hb] at hnotes
    obtain ⟨rfl, hrest⟩ := List.cons.inj hnotes
    rw [ha, hb, notes, notes, hrest]
  | false =>
    have hcons : ∀ (e : Event) (post : List Event) (x : NeighborTableEntry),
        (notes myLlAddr n post).foldl (Note.act w) ((e.note myLlAddr n).elim x (Note.act w x)) =
          (notes myLlAddr n (e :: post)).foldl (Note.act w) x := by
      intro e post x
      cases ha : e.note myLlAddr n with
      | none => rw [notes, notes, List.filterMap_cons_none ha, Option.elim_none]
      | some a => rw [notes, notes, List.filterMap_cons_some ha, List.foldl_cons, Option.elim_some]
    rw [if_neg Bool.false_ne_true, hcons, hcons, hnotes]

/-- Two runs that tell the same of a neighbor since they put it into the table give it the same
quality, if the slots have the same counters left of their earlier neighbors, the beacon that came
first was counted in both or in neither, and at the end both have the neighbor or neither has. -/
theorem isolated (h : LastInserted w myLlAddr n pre e post)
    (h' : LastInserted w myLlAddr n pre' e' post')
    (hnotes : notes myLlAddr n (e :: post) = notes myLlAddr n (e' :: post'))
    (hleft : e.leftover (after w myLlAddr pre) = e'.leftover (after w myLlAddr pre'))
    (hcount : e.uncounted (after w myLlAddr pre) = e'.uncounted (after w myLlAddr pre'))
    (hin : (after w myLlAddr (pre ++ e :: post)).entry n = none ↔
      (after w myLlAddr (pre' ++ e' :: post')).entry n = none) :
    (after w myLlAddr (pre ++ e :: post)).getLinkQuality n =
      (after w myLlAddr (pre' ++ e' :: post')).getLinkQuality n := by
  rw [NeighborTable.getLinkQuality_estimate, NeighborTable.getLinkQuality_estimate]
  rw [← NeighborTable.estimate_eq_none_iff, ← NeighborTable.estimate_eq_none_iff] at hin
  obtain ⟨o, ho, hnote, heq⟩ := h.estimate
  obtain ⟨o', ho', hnote', heq'⟩ := h'.estimate
  by_cases hnone : (after w myLlAddr (pre ++ e :: post)).estimate n = none
  · rw [hnone, hin.1 hnone]
  · rw [Event.leftover, Event.leftover, ho, ho'] at hleft
    rw [← hcount] at hnote' heq'
    rw [heq hnone, heq' (mt hin.2 hnone),
      started_eq (Option.some.inj hleft) hnote hnote' hnotes]

end LastInserted

/-! ## An example: a slot with counters left -/

/-- A beacon without entries. -/
def exampleBeacon (source : UInt16) (seq : UInt8) : Event :=
  .receive ⟨source, amBroadcastAddr, fun a => if a = 1 then seq else 0, 2⟩

/-- Neighbor 1 is mature and has lost four messages, and nine more fill the table. -/
def exampleFull : List Event :=
  [exampleBeacon 1 0, exampleBeacon 1 1, exampleBeacon 1 2] ++
    [2, 3, 4, 5, 6, 7, 8, 9, 10].map (exampleBeacon · 0) ++ List.replicate 4 (.txNoAck 1)

/-- Neighbor 11 is heard three times, then it loses a message. -/
def exampleSince : List Event :=
  [exampleBeacon 11 0, exampleBeacon 11 1, exampleBeacon 11 2, .txNoAck 11]

theorem LastInserted.isolated_slots :
    LastInserted .bits16 99 11 [exampleBeacon 1 0] (.insertNeighbor 11) exampleSince ∧
    LastInserted .bits16 99 11 [] (exampleBeacon 11 0) exampleSince.tail ∧
    (after .bits16 99 (exampleBeacon 1 0 :: .insertNeighbor 11 :: exampleSince)).getLinkQuality 11 =
      (after .bits16 99 exampleSince).getLinkQuality 11 := by
  have h : LastInserted .bits16 99 11 [exampleBeacon 1 0] (.insertNeighbor 11) exampleSince :=
    ⟨by decide, by decide⟩
  have h' : LastInserted .bits16 99 11 [] (exampleBeacon 11 0) exampleSince.tail :=
    ⟨by decide, by decide⟩
  exact ⟨h, h', LastInserted.isolated h h' (by decide) (by decide) (by decide) (by decide)⟩

/-- The slot of neighbor 1 has its four lost messages left when neighbor 11 gets it: the quality of
neighbor 11 is not the one it has in an empty table. -/
theorem LastInserted.not_isolated : ¬ ∀ (w : IntWidth) (myLlAddr n : UInt16)
    (pre pre' post post' : List Event) (e e' : Event), LastInserted w myLlAddr n pre e post →
    LastInserted w myLlAddr n pre' e' post' →
    (e :: post).filter (fun e => (e.note myLlAddr n).isSome) =
      (e' :: post').filter (fun e => (e.note myLlAddr n).isSome) →
    (after w myLlAddr (pre ++ e :: post)).entry n ≠ none →
    (after w myLlAddr (pre' ++ e' :: post')).entry n ≠ none →
    (after w myLlAddr (pre ++ e :: post)).getLinkQuality n =
      (after w myLlAddr (pre' ++ e' :: post')).getLinkQuality n := by
  intro h
  have heq := h .bits16 99 11 exampleFull [] exampleSince exampleSince (.insertNeighbor 11)
    (.insertNeighbor 11) ⟨by decide, by decide⟩
    ⟨by decide, by decide⟩ rfl (by decide) (by decide)
  exact absurd heq (by decide)

end LinkEstimatorP
