import Backip.BackIP.Proof.DispatchStep
import Backip.Blip.SendSide

/-!
# The pools of the send side

`Dispatch.Queued` says what `IPLower.send` does to the `send_info`s and the references to them,
`Dispatch.Whole` that entries, buffers and `send_info`s are where they should be, none of them lost.
`SendSide.pools_conserved`: so it is between the handlers, whatever the link and the radio do.
-/

set_option autoImplicit false

namespace BackIP.Dispatch

variable {d d' d'' : Dispatch} {own : List Nat} {i : Nat}

/-! ## `IPLower.send` -/

/-- `d'` has the queue and the `send_info`s of `d`. -/
structure Same (d d' : Dispatch) : Prop where
  info : d'.info = d.info
  entry : d'.entry = d.entry
  sendQueue : d'.sendQueue = d.sendQueue
  sendInfoPool : d'.sendInfoPool = d.sendInfoPool
  state : d'.state = d.state
  radioBusy : d'.radioBusy = d.radioBusy

theorem Same.refs (h : Same d d') : d'.refs = d.refs := by
  rw [Dispatch.refs, Dispatch.refs, h.sendQueue, h.entry]

theorem Same.trans (h : Same d d') (h' : Same d' d'') : Same d d'' :=
  ⟨h'.info.trans h.info, h'.entry.trans h.entry, h'.sendQueue.trans h.sendQueue,
    h'.sendInfoPool.trans h.sendInfoPool, h'.state.trans h.state, h'.radioBusy.trans h.radioBusy⟩

theorem getBuffers_same (d : Dispatch) : Same d d.getBuffers.2 := by
  unfold getBuffers
  dsimp only
  split <;> exact ⟨rfl, rfl, rfl, rfl, rfl, rfl⟩

theorem fill_same (d : Dispatch) (o : Nat) (origin : Origin) (data : List UInt8) :
    Same d (d.fill o origin data) := ⟨rfl, rfl, rfl, rfl, rfl, rfl⟩

theorem putBuffers_same (d : Dispatch) (e o : Nat) : Same d (d.putBuffers e o) :=
  ⟨rfl, rfl, rfl, rfl, rfl, rfl⟩

/-- `k` fragments have joined the queue for the `send_info` `i`, which has failed if so said. -/
structure Queued (d d' : Dispatch) (i k : Nat) (failed : Bool) : Prop where
  refs : d'.refs = d.refs ++ List.replicate k i
  other : ∀ j ≠ i, d'.info j = d.info j
  self : d'.info i =
    { d.info i with
      linkFragments := (d.info i).linkFragments + k
      failed := (d.info i).failed || failed
      refcount := (d.info i).refcount + k }
  sendInfoPool : d'.sendInfoPool = d.sendInfoPool
  state : d'.state = d.state
  radioBusy : d'.radioBusy = d.radioBusy

theorem Same.queued (h : Same d d') (i : Nat) : Queued d d' i 0 false where
  refs := by rw [h.refs, List.replicate_zero, List.append_nil]
  other j _ := by rw [h.info]
  self := by
    rw [h.info, Bool.or_false]
    rfl
  sendInfoPool := h.sendInfoPool
  state := h.state
  radioBusy := h.radioBusy

theorem Queued.trans {k k' : Nat} {failed : Bool} (h : Queued d d' i k false)
    (h' : Queued d' d'' i k' failed) : Queued d d'' i (k + k') failed where
  refs := by rw [h'.refs, h.refs, List.append_assoc, List.replicate_append_replicate]
  other j hj := (h'.other j hj).trans (h.other j hj)
  self := by
    rw [h'.self, h.self]
    simp only [Bool.or_false, Nat.add_assoc]
  sendInfoPool := h'.sendInfoPool.trans h.sendInfoPool
  state := h'.state.trans h.state
  radioBusy := h'.radioBusy.trans h.radioBusy

theorem setFailed_queued (d : Dispatch) (i : Nat) : Queued d (d.setFailed i) i 0 true where
  refs := (List.append_nil _).symm
  other j hj := setInfo_info_of_ne _ _ hj
  self := by
    rw [setFailed, setInfo_info_self, Bool.or_true]
    rfl
  sendInfoPool := rfl
  state := rfl
  radioBusy := rfl

/-- A fragment joins the queue with an entry that was free. -/
theorem append_queued {e o : Nat} (he : e ∉ d.sendQueue) (broadcast : Bool) :
    Queued d (d.append i e o broadcast) i 1 false where
  refs := by
    simp only [refs, append, setInfo, List.map_append, List.map_singleton, Function.update_self]
    refine congrArg (· ++ _) (List.map_congr_left fun x hx => ?_)
    rw [Function.update_of_ne fun heq : x = e => he (heq ▸ hx)]
  other j hj := setInfo_info_of_ne _ _ hj
  self := by rw [append, setInfo_info_self, Bool.or_false]
  sendInfoPool := rfl
  state := rfl
  radioBusy := rfl

/-- **What the loop of `IPLower.send` queues**: nothing without an error only if the first fragment
could not be cut. -/
theorem fragLoop_queued (h : d.Inv [i]) (origin : Origin) (broadcast : Bool)
    (frags : List (List UInt8)) :
    ∃ k, Queued d (fragLoop origin broadcast i frags d).1 i k
        (decide ((fragLoop origin broadcast i frags d).2 ≠ .success)) ∧
      ((fragLoop origin broadcast i frags d).2 = .success → k = 0 →
        d.refs.length < nFragments ∧ ∀ data ∈ frags.head?, data = []) := by
  induction frags generalizing d with
  | nil =>
    rcases getBuffers_spec h with ⟨_, hg⟩ | ⟨e, o, d₁, hg, ht⟩
    · simp only [fragLoop, hg]
      exact ⟨0, setFailed_queued d i, fun h => absurd h (by decide)⟩
    · simp only [fragLoop, hg]
      have hsame := getBuffers_same d
      rw [hg] at hsame
      have hfill := hsame.trans (fill_same _ o origin [])
      have hroom := (ht origin []).custody.length_free
      rw [List.length_cons, List.length_range, hfill.sendQueue] at hroom
      refine ⟨0, (hfill.trans (putBuffers_same _ e o)).queued i, fun _ _ => ⟨?_, fun _ hdata => ?_⟩⟩
      · rw [refs, List.length_map]
        omega
      · cases hdata
  | cons data frags ih =>
    rcases getBuffers_spec h with ⟨_, hg⟩ | ⟨e, o, d₁, hg, ht⟩
    · simp only [fragLoop, hg]
      exact ⟨0, setFailed_queued d i, fun h => absurd h (by decide)⟩
    · simp only [fragLoop, hg]
      have hsame := getBuffers_same d
      rw [hg] at hsame
      have hfill := hsame.trans (fill_same _ o origin data)
      have ht := ht origin data
      have hroom := ht.custody.length_free
      rw [List.length_cons, List.length_range] at hroom
      by_cases hdata : data.length ≤ 0
      · rw [if_pos hdata]
        refine ⟨0, (hfill.trans (putBuffers_same _ e o)).queued i, fun _ _ => ⟨?_, ?_⟩⟩
        · rw [hfill.sendQueue] at hroom
          rw [refs, List.length_map]
          omega
        · intro data' hdata'
          obtain rfl := Option.some.inj hdata'
          exact List.eq_nil_of_length_eq_zero (Nat.le_zero.1 hdata)
      · obtain ⟨hinv, -⟩ := append_spec ht (List.mem_singleton_self i) broadcast
        obtain ⟨k, hqueued, -⟩ := ih hinv
        have hnot := ht.custody.not_mem_held List.nodup_range (.head _)
        rw [if_neg hdata, if_neg (by omega)]
        refine ⟨1 + k, ((hfill.queued i).trans (append_queued hnot broadcast)).trans hqueued, ?_⟩
        intro _ hk
        omega

/-- `SendQueue.enqueue` fails in the loop. -/
def enqueueFails (origin : Origin) (broadcast : Bool) (i : Nat) :
    List (List UInt8) → Dispatch → Prop
  | [], _ => False
  | data :: frags, d =>
    match d.getBuffers with
    | (none, _) => False
    | (some (e, o), d) =>
      let d := d.fill o origin data
      0 < data.length ∧ (nFragments ≤ d.sendQueue.length ∨
        enqueueFails origin broadcast i frags (d.append i e o broadcast))

theorem not_enqueueFails (h : d.Inv [i]) (origin : Origin) (broadcast : Bool)
    (frags : List (List UInt8)) : ¬enqueueFails origin broadcast i frags d := by
  induction frags generalizing d with
  | nil => exact fun hfails => hfails
  | cons data frags ih =>
    rcases getBuffers_spec h with ⟨_, hg⟩ | ⟨e, o, d₁, hg, ht⟩
    · simp only [enqueueFails, hg]
      exact fun hfails => hfails
    · simp only [enqueueFails, hg]
      have ht := ht origin data
      have hroom := ht.custody.length_free
      rw [List.length_cons, List.length_range] at hroom
      rintro ⟨_, hfull | hfails⟩
      · omega
      · exact ih (append_spec ht (List.mem_singleton_self i) broadcast).1 hfails

/-! ## The references -/

/-- Entries and buffers are free or in the queue, and the `send_info`s are free or in use, with
their references counted. -/
structure Whole (d : Dispatch) (own : List Nat) : Prop extends Inv d own where
  infos : Accounted (List.range nConcurrentSends) d.sendInfoPool.toList
    (fun i => (d.info i).refcount) (own ++ d.refs)

theorem whole_boot : boot.Whole [] where
  toInv := inv_boot
  infos := by
    have hpool : boot.sendInfoPool.toList = List.range nConcurrentSends := by
      rw [show boot.sendInfoPool = PoolP.init id (by decide) from rfl, PoolP.toList_init,
        List.map_id]
    refine ⟨inv_boot.refs, ?_, fun _ h => absurd h List.not_mem_nil, ?_, fun _ _ => rfl⟩
    · rw [hpool]
      exact fun _ h => h
    · rw [hpool]
      exact fun _ h hnot => absurd h hnot

/-- `getSendInfo` takes a `send_info` that nothing refers to. -/
theorem getSendInfo_whole (h : d.Whole []) :
    d.getSendInfo = (none, d) ∨
      ∃ i d', d.getSendInfo = (some i, d') ∧ d'.Whole [i] ∧ i ∉ d.refs ∧ d'.refs = d.refs ∧
        d'.info = Function.update d.info i ⟨0, 0, false, 1⟩ ∧ d'.state = d.state ∧
        d'.radioBusy = d.radioBusy := by
  cases hpool : d.sendInfoPool.toList with
  | nil =>
    left
    rw [getSendInfo, PoolP.get_nil hpool]
  | cons i free =>
    obtain ⟨h1, h2⟩ := PoolP.get_cons hpool
    have hinfos := h.infos
    rw [hpool] at hinfos
    have hget : d.getSendInfo =
        (some i, { d with sendInfoPool := d.sendInfoPool.get.2 }.setInfo i ⟨0, 0, false, 1⟩) := by
      rw [getSendInfo, show d.sendInfoPool.get = (some i, d.sendInfoPool.get.2) from
        Prod.ext h1 rfl]
    obtain hnone | ⟨j, d', hsome, hinv, -⟩ := getSendInfo_spec h.toInv
    · cases hnone.symm.trans hget
    obtain ⟨hj, rfl⟩ := Prod.mk.inj (hsome.symm.trans hget)
    obtain rfl := Option.some.inj hj
    refine .inr ⟨j, _, hget, ⟨hinv, ?_⟩, hinfos.fresh j (.head _), rfl, rfl, rfl, rfl⟩
    rw [← h2] at hinfos
    refine hinfos.get (by rw [setInfo_info_self]) fun b hb => ?_
    rw [setInfo_info_of_ne _ _ hb]

theorem Queued.whole {k : Nat} {failed : Bool} (h : d.Whole [i]) (hinv : d'.Inv [i])
    (hq : Queued d d' i k failed) : d'.Whole [i] where
  toInv := hinv
  infos := by
    rw [hq.sendInfoPool, hq.refs, ← List.append_assoc]
    refine h.infos.share_many (.head _) k (by rw [hq.self]) fun b hb => ?_
    rw [hq.other b hb]

/-- `SENDINFO_DECR` drops a reference, and frees with the last one. -/
theorem sendInfoDecr_accounted {refs : List Nat}
    (h : Accounted (List.range nConcurrentSends) d.sendInfoPool.toList
      (fun j => (d.info j).refcount) (i :: refs)) :
    Accounted (List.range nConcurrentSends) (d.sendInfoDecr i).sendInfoPool.toList
      (fun j => ((d.sendInfoDecr i).info j).refcount) refs := by
  generalize hx : ({ d.info i with refcount := (d.info i).refcount - 1 } : SendInfo) = x
  have hself : ((d.setInfo i x).info i).refcount = (d.info i).refcount - 1 := by
    rw [setInfo_info_self, ← hx]
  have hne : ∀ j ≠ i, ((d.setInfo i x).info j).refcount = (d.info j).refcount := fun j hj => by
    rw [setInfo_info_of_ne d x hj]
  have hlt := h.length_lt (.head _)
  rw [List.length_range] at hlt
  rw [sendInfoDecr, hx]
  split
  · rename_i hzero
    have hdrop := h.drop_last hself hne hzero
    rw [← (PoolP.put_ok i hlt).2] at hdrop
    exact hdrop
  · rename_i hpos
    exact h.drop_shared hself hne hpos

/-- What `SENDINFO_DECR` leaves. -/
theorem sendInfoDecr_info (d : Dispatch) (i : Nat) : (d.sendInfoDecr i).info =
    Function.update d.info i { d.info i with refcount := (d.info i).refcount - 1 } := by
  obtain ⟨pool, hpool⟩ := sendInfoDecr_eq d i
  rw [hpool]
  rfl

/-- `IPLower.send` leaves everything accounted for. -/
theorem send_whole (h : d.Whole []) (origin : Origin) (broadcast : Bool)
    (frags : List (List UInt8)) : (d.send origin broadcast frags).1.Whole [] := by
  refine ⟨(send_spec h.toInv origin broadcast frags).1, ?_⟩
  rw [send]
  split
  · exact h.infos
  · rcases getSendInfo_whole h with hg | ⟨i, d₀, hg, hwhole, -⟩
    · simp only [hg]
      exact h.infos
    · simp only [hg]
      obtain ⟨k, hqueued, -⟩ := fragLoop_queued hwhole.toInv origin broadcast frags
      have hloop := (fragLoop_spec hwhole.toInv origin broadcast frags).1
      have hinfos := sendInfoDecr_accounted (hqueued.whole hwhole hloop).infos
      obtain ⟨pool, hpool⟩ := sendInfoDecr_eq (fragLoop origin broadcast i frags d₀).1 i
      rw [hpool] at hinfos ⊢
      exact hinfos

/-- **What `IPLower.send` does to the packets in the queue**: nothing, or it queues `k` fragments
of a new one. -/
theorem send_cases (h : d.Whole []) (origin : Origin) (broadcast : Bool)
    (frags : List (List UInt8)) :
    ((d.state ≠ .running ∨ d.getSendInfo.1 = none) ∧ (d.send origin broadcast frags).1 = d ∧
      (d.send origin broadcast frags).2 ≠ .success) ∨
    ∃ i k, d.state = .running ∧ d.getSendInfo.1 = some i ∧ i ∉ d.refs ∧
      (d.send origin broadcast frags).1.refs = d.refs ++ List.replicate k i ∧
      (∀ j ≠ i, (d.send origin broadcast frags).1.info j = d.info j) ∧
      (d.send origin broadcast frags).1.info i =
        ⟨k, 0, decide ((d.send origin broadcast frags).2 ≠ .success), k⟩ ∧
      (d.send origin broadcast frags).1.state = d.state ∧
      (d.send origin broadcast frags).1.radioBusy = d.radioBusy ∧
      ((d.send origin broadcast frags).2 = .success → k = 0 →
        d.refs.length < nFragments ∧ ∀ data ∈ frags.head?, data = []) := by
  rw [send]
  split
  · rename_i hstate
    exact .inl ⟨.inl hstate, rfl, by simp⟩
  · rename_i hstate
    rcases getSendInfo_whole h with hg | ⟨i, d₀, hg, hwhole, hi, hrefs, hinfo, hst, hbusy⟩
    · rw [hg]
      exact .inl ⟨.inr rfl, rfl, by simp⟩
    · simp only [hg]
      obtain ⟨k, hqueued, hempty⟩ := fragLoop_queued hwhole.toInv origin broadcast frags
      obtain ⟨pool, hpool⟩ := sendInfoDecr_eq (fragLoop origin broadcast i frags d₀).1 i
      refine .inr ⟨i, k, Classical.not_not.1 hstate, rfl, hi, ?_⟩
      rw [hpool]
      refine ⟨hqueued.refs.trans (by rw [hrefs]), ?_, ?_, hqueued.state.trans hst,
        hqueued.radioBusy.trans hbusy, hrefs ▸ hempty⟩
      · intro j hj
        refine (setInfo_info_of_ne _ _ hj).trans ((hqueued.other j hj).trans ?_)
        rw [hinfo, Function.update_of_ne hj]
      · refine (setInfo_info_self _ _ _).trans ?_
        rw [hqueued.self, hinfo, Function.update_self]
        simp only [Nat.zero_add, Bool.false_or, Nat.add_sub_cancel_left]

section Head

variable {e : Nat} {rest : List Nat} (h : d.Whole []) (hq : d.sendQueue = e :: rest)

include h hq

/-- The entry at the head leaves everything accounted for. -/
theorem dropHead_whole : (d.dropHead e).Whole [] := by
  refine ⟨(dropHead_spec h.toInv hq).1, ?_⟩
  have hinfos := h.infos
  rw [List.nil_append, refs, hq] at hinfos
  have hdecr := sendInfoDecr_accounted hinfos
  obtain ⟨pool, hpool⟩ := sendInfoDecr_eq d (d.entry e).info
  simp only [dropHead]
  rw [hpool] at hdecr ⊢
  simp only [refs, putBuffers, setInfo, hq, List.tail_cons, List.nil_append]
  exact hdecr

end Head

theorem dropHead_refs {e : Nat} {rest : List Nat} (hq : d.sendQueue = e :: rest) :
    (d.dropHead e).refs = rest.map fun e => (d.entry e).info := by
  obtain ⟨pool, hpool⟩ := sendInfoDecr_eq d (d.entry e).info
  simp only [dropHead]
  rw [hpool]
  simp only [refs, putBuffers, setInfo, hq, List.tail_cons]

theorem dropHead_info (d : Dispatch) (e : Nat) : (d.dropHead e).info =
    Function.update d.info (d.entry e).info
      { d.info (d.entry e).info with refcount := (d.info (d.entry e).info).refcount - 1 } :=
  sendInfoDecr_info d _

theorem dropHead_state (d : Dispatch) (e : Nat) : (d.dropHead e).state = d.state := by
  obtain ⟨pool, hpool⟩ := sendInfoDecr_eq d (d.entry e).info
  simp only [dropHead]
  rw [hpool]
  rfl

/-- A change that keeps the counts. -/
theorem Whole.setInfo (h : d.Whole own) {x : SendInfo} (hx : x.refcount = (d.info i).refcount) :
    (d.setInfo i x).Whole own := by
  have hcount : ∀ j, ((d.setInfo i x).info j).refcount = (d.info j).refcount := fun j => by
    by_cases hj : j = i
    · subst hj
      rw [setInfo_info_self, hx]
    · rw [setInfo_info_of_ne _ _ hj]
  exact ⟨⟨h.custody, h.toInv.refs.congr hcount⟩, h.infos.congr hcount⟩

theorem sendFail_whole {e : Nat} {rest : List Nat} (h : d.Whole []) (hq : d.sendQueue = e :: rest) :
    (d.sendFail e).Whole [] := by
  have hposted : Whole { d with sendTaskPosted := true } [] :=
    ⟨⟨h.custody, h.toInv.refs⟩, h.infos⟩
  exact dropHead_whole (hposted.setInfo (i := (d.entry e).info) rfl) hq

/-- What `sendTask` does: nothing, or the fragment at the head leaves the queue because its packet
has failed or the link refuses it, or the link gets it. -/
theorem sendTask_cases (d : Dispatch) (ret : TinyError) :
    (d.toSend = none ∧ d.sendTask ret = d) ∨
    ∃ e rest, d.sendQueue = e :: rest ∧ d.radioBusy = false ∧ d.state = .running ∧
      ((d.toSend = none ∧ (d.info (d.entry e).info).failed = true ∧ d.sendTask ret = d.sendFail e) ∨
        (d.toSend = some (d.entry e).msg ∧ (d.info (d.entry e).info).failed = false ∧
          d.sendTask ret = if ret ≠ .success then d.sendFail e else { d with radioBusy := true })) := by
  by_cases hb : d.radioBusy = true ∨ d.state ≠ .running
  · exact .inl ⟨by rw [toSend, if_pos hb], by rw [sendTask, if_pos hb]⟩
  · by_cases hnil : d.sendQueue = []
    · exact .inl ⟨by rw [toSend, if_neg hb, hnil], by rw [sendTask, if_neg hb, hnil]⟩
    · obtain ⟨e, rest, hq⟩ := List.exists_cons_of_ne_nil hnil
      obtain ⟨hidle, hrun⟩ := not_or.1 hb
      refine .inr ⟨e, rest, hq, Bool.eq_false_iff.2 hidle, Classical.not_not.1 hrun, ?_⟩
      rw [toSend_cons hq hb, sendTask_cons hq hb]
      by_cases hf : (d.info (d.entry e).info).failed = true
      · exact .inl ⟨if_pos hf, hf, if_pos hf⟩
      · exact .inr ⟨if_neg hf, Bool.eq_false_iff.2 hf, if_neg hf⟩

theorem sendTask_whole (h : d.Whole []) (ret : TinyError) : (d.sendTask ret).Whole [] := by
  rcases sendTask_cases d ret with ⟨-, hsame⟩ | ⟨e, rest, hq, -, -, ⟨-, -, hfail⟩ | ⟨-, -, hsend⟩⟩
  · rwa [hsame]
  · rw [hfail]
    exact sendFail_whole h hq
  · rw [hsend]
    split
    · exact sendFail_whole h hq
    · exact ⟨⟨h.custody, h.toInv.refs⟩, h.infos⟩

theorem sendFail_state (d : Dispatch) (e : Nat) : (d.sendFail e).state = d.state :=
  dropHead_state _ e

end BackIP.Dispatch

namespace Blip

open BackIP Dispatch

theorem attempted_whole {d : Dispatch} (h : d.Whole []) (i : Nat) (delivered : Bool) :
    (attempted d i delivered).1.Whole [] := by
  have hsame : ∀ lowerDone, Whole { d with lowerDone := lowerDone } [] := fun _ =>
    ⟨⟨h.custody, h.toInv.refs⟩, h.infos⟩
  exact (hsame _).setInfo rfl

theorem linkDone_whole {d : Dispatch} (h : d.Whole []) (delivered : Bool) :
    (linkDone d delivered).1.Whole [] := by
  unfold linkDone
  split
  · exact h
  · rename_i e rest hq
    have hidle : Whole { d with radioBusy := false } [] := ⟨⟨h.custody, h.toInv.refs⟩, h.infos⟩
    dsimp only
    split
    · have hdrop := dropHead_whole (d := { d with radioBusy := false, state := .stopped })
        ⟨⟨h.custody, h.toInv.refs⟩, h.infos⟩ hq
      exact ⟨⟨hdrop.custody, hdrop.toInv.refs⟩, hdrop.infos⟩
    · have hdrop := dropHead_whole (attempted_whole hidle (d.entry e).info delivered) hq
      exact ⟨⟨hdrop.custody, hdrop.toInv.refs⟩, hdrop.infos⟩

/-- `Ieee154Send.sendDone` takes the head from the queue. -/
theorem linkDone_cons {d : Dispatch} {e : Nat} {rest : List Nat} (hq : d.sendQueue = e :: rest)
    (delivered : Bool) :
    (linkDone d delivered).1.radioBusy = false ∧
      (linkDone d delivered).1.state = if d.state = .stopping then .stopped else d.state := by
  unfold linkDone
  rw [hq]
  dsimp only
  have hbusy : ∀ d : Dispatch, (d.dropHead e).radioBusy = d.radioBusy := fun d => by
    obtain ⟨pool, hpool⟩ := sendInfoDecr_eq d (d.entry e).info
    simp only [dropHead]
    rw [hpool]
    rfl
  split
  · exact ⟨hbusy _, dropHead_state _ _⟩
  · exact ⟨hbusy _, dropHead_state _ _⟩

namespace SendSide

/-- The invariant of all runs: nothing is lost, and while the link has a fragment, it stands at the
head of the queue and the radio is on. -/
structure Inv (s : SendSide) : Prop where
  whole : s.d.Whole []
  busy : s.d.radioBusy = s.inRadio.isSome
  handed : s.inRadio.isSome = true → s.d.refs ≠ [] ∧ s.d.state ≠ .stopped
  on : s.d.state ≠ .stopped → s.radio = .on

theorem Inv.send {s : SendSide} (h : s.Inv) (data : Nat) (broadcast : Bool)
    (frags : List (List UInt8)) : (s.send data broadcast frags).Inv := by
  have hwhole := send_whole h.whole .data broadcast frags
  rcases send_cases h.whole .data broadcast frags with
    ⟨-, hsame, -⟩ | ⟨i, k, -, -, -, hrefs, -, -, hstate, hbusy, -⟩
  · refine ⟨hwhole, ?_, ?_, ?_⟩
    · exact (congrArg Dispatch.radioBusy hsame).trans h.busy
    · intro hin
      simp only [SendSide.send, hsame]
      exact h.handed hin
    · intro hrun
      simp only [SendSide.send, hsame] at hrun
      exact h.on hrun
  · refine ⟨hwhole, hbusy.trans h.busy, ?_, ?_⟩
    · intro hin
      obtain ⟨hne, hrun⟩ := h.handed hin
      simp only [SendSide.send, hrefs, hstate]
      exact ⟨List.append_ne_nil_of_left_ne_nil hne _, hrun⟩
    · intro hrun
      simp only [SendSide.send, hstate] at hrun
      exact h.on hrun

theorem Inv.sendTask {s : SendSide} (h : s.Inv) (ret : TinyError) : (s.sendTask ret).Inv := by
  have hwhole' : Whole { s.d with sendTaskPosted := false } [] :=
    ⟨⟨h.whole.custody, h.whole.toInv.refs⟩, h.whole.infos⟩
  have hwhole := sendTask_whole hwhole' ret
  rcases sendTask_cases { s.d with sendTaskPosted := false } ret with
    ⟨hnone, hsame⟩ | ⟨e, rest, hq, hidle, hrun, hcase⟩
  · have hin : (s.sendTask ret).inRadio = s.inRadio := by
      simp [SendSide.sendTask, hnone]
    refine ⟨hwhole, ?_, ?_, ?_⟩
    · rw [hin]
      exact (congrArg Dispatch.radioBusy hsame).trans h.busy
    · rw [hin]
      intro hsome
      simp only [SendSide.sendTask, hsame]
      exact h.handed hsome
    · intro hne
      simp only [SendSide.sendTask, hsame] at hne
      exact h.on hne
  have hempty : s.inRadio = none := by
    rw [← Option.not_isSome_iff_eq_none, ← h.busy, show s.d.radioBusy = false from hidle]
    exact Bool.false_ne_true
  have hradio : s.radio = .on := h.on (by rw [show s.d.state = .running from hrun]; decide)
  have hfailed : (s.sendTask ret).inRadio = none →
      (s.sendTask ret).d = Dispatch.sendFail { s.d with sendTaskPosted := false } e →
      (s.sendTask ret).Inv := by
    intro hin hfail
    refine ⟨hwhole, ?_, ?_, fun _ => hradio⟩
    · rw [hin, hfail]
      exact (sendFail_spec hwhole'.toInv hq).2.2.1.trans hidle
    · rw [hin]
      exact fun hsome => nomatch hsome
  rcases hcase with ⟨hnone, -, hfail⟩ | ⟨hsome, -, hsend⟩
  · refine hfailed ?_ hfail
    simp [SendSide.sendTask, hnone, hempty]
  · by_cases hret : ret = .success
    · rw [if_neg (not_not_intro hret)] at hsend
      have hin : (s.sendTask ret).inRadio = some (s.d.entry e).msg := by
        simp [SendSide.sendTask, hsome, hret]
      refine ⟨hwhole, ?_, ?_, fun _ => hradio⟩
      · rw [hin]
        exact congrArg Dispatch.radioBusy hsend
      · intro _
        simp only [SendSide.sendTask, hsend]
        refine ⟨?_, by rw [show s.d.state = .running from hrun]; decide⟩
        rw [Dispatch.refs, show s.d.sendQueue = e :: rest from hq]
        exact List.cons_ne_nil _ _
    · rw [if_pos hret] at hsend
      refine hfailed ?_ hsend
      simp only [SendSide.sendTask, hret, if_false, hempty]

theorem Inv.sendDone {s : SendSide} (h : s.Inv) (hin : s.inRadio.isSome = true)
    (delivered stop : Bool) : (s.sendDone delivered stop).Inv := by
  obtain ⟨hne, hrun⟩ := h.handed hin
  have hnil : s.d.sendQueue ≠ [] := fun hnil => hne (by rw [Dispatch.refs, hnil, List.map_nil])
  obtain ⟨e, rest, hq⟩ := List.exists_cons_of_ne_nil hnil
  obtain ⟨hbusy, hstate⟩ := linkDone_cons hq delivered
  refine ⟨linkDone_whole h.whole delivered, hbusy, (fun hsome => absurd hsome Bool.false_ne_true), ?_⟩
  intro hrun'
  simp only [SendSide.sendDone, hstate] at hrun' ⊢
  by_cases hstop : s.d.state = .stopping
  · rw [if_pos hstop] at hrun'
    exact absurd rfl hrun'
  · rw [if_neg fun hc => hstop hc.1]
    exact h.on hrun

theorem Inv.step {s s' : SendSide} {e : Event} (h : s.Inv) (hstep : s.step e = some s') :
    s'.Inv := by
  cases e with
  | send data broadcast frags =>
    cases hstep
    exact h.send data broadcast frags
  | sendTask ret =>
    unfold SendSide.step at hstep
    dsimp only at hstep
    split at hstep
    · cases hstep
      exact h.sendTask ret
    · cases hstep
  | sendDone delivered stop =>
    unfold SendSide.step at hstep
    dsimp only at hstep
    split at hstep
    · rename_i hin
      cases hstep
      exact h.sendDone hin delivered stop
    · cases hstep
  | start accepted =>
    cases hstep
    refine ⟨h.whole, h.busy, h.handed, ?_⟩
    intro hrun
    have hon := h.on hrun
    rw [if_neg fun hc => by rw [hon] at hc; cases hc.1]
    exact hon
  | stop accepted =>
    cases hstep
    unfold SendSide.stop
    split
    · rename_i hbusy
      have hin : s.inRadio.isSome = true := h.busy.symm.trans hbusy
      exact ⟨⟨⟨h.whole.custody, h.whole.toInv.refs⟩, h.whole.infos⟩, h.busy,
        fun _ => ⟨(h.handed hin).1, show DispatchState.stopping ≠ .stopped by decide⟩,
        fun _ => h.on (h.handed hin).2⟩
    · rename_i hidle
      refine ⟨⟨⟨h.whole.custody, h.whole.toInv.refs⟩, h.whole.infos⟩, h.busy, ?_,
        fun hrun => absurd rfl hrun⟩
      intro hin
      exact absurd (h.busy.trans hin) hidle
  | startDone success =>
    unfold SendSide.step at hstep
    dsimp only at hstep
    split at hstep
    · rename_i hstarting
      cases hstep
      have hoff : s.d.state = .stopped := Classical.not_not.1 fun hrun => by
        cases (h.on hrun).symm.trans hstarting
      have hidle : s.inRadio = none := by
        rw [← Option.not_isSome_iff_eq_none]
        exact fun hin => (h.handed hin).2 hoff
      unfold SendSide.startDone
      split
      · refine ⟨⟨⟨h.whole.custody, h.whole.toInv.refs⟩, h.whole.infos⟩, ?_, ?_, fun _ => rfl⟩
        · rw [hidle]
          rfl
        · rw [hidle]
          exact fun hin => nomatch hin
      · refine ⟨h.whole, h.busy, h.handed, fun hrun => absurd hoff hrun⟩
    · cases hstep
  | stopDone success =>
    unfold SendSide.step at hstep
    dsimp only at hstep
    split at hstep
    · rename_i hstopping
      cases hstep
      refine ⟨h.whole, h.busy, h.handed, fun hrun => ?_⟩
      cases (h.on hrun).symm.trans hstopping
    · cases hstep

theorem inv_machine : machine.Inductive Inv where
  init s hs := by
    obtain rfl := hs
    have hwhole : boot.d.Whole [] :=
      ⟨⟨whole_boot.custody, whole_boot.toInv.refs⟩, whole_boot.infos⟩
    exact ⟨hwhole, rfl, (fun hin => nomatch hin), fun hrun => absurd rfl hrun⟩
  step _ _ _ h hstep := h.step hstep

/-- Every fragment buffer and every entry is in its pool or in the queue, once; a `send_info` counts
the entries that point to it and is in its pool exactly if there are none. -/
structure Conserved (s : SendSide) : Prop where
  frags : (s.d.fragPool.toList ++ s.d.sendQueue.map fun e => (s.d.entry e).msg).Perm
    (List.range nFragments)
  entries : (s.d.sendEntryPool.toList ++ s.d.sendQueue).Perm (List.range nFragments)
  refcount : ∀ i < nConcurrentSends, (s.d.info i).refcount =
    (s.d.sendQueue.map fun e => (s.d.entry e).info).count i
  infos : ∀ i < nConcurrentSends,
    s.d.sendInfoPool.toList.count i = if (s.d.info i).refcount = 0 then 1 else 0

theorem Inv.conserved {s : SendSide} (h : s.Inv) : s.Conserved where
  frags := h.whole.custody.bufs_perm
  entries := h.whole.custody.objs_perm
  refcount i _ := h.whole.infos.eq_count i
  infos i hi := by
    have hmem := h.whole.infos.mem_free_iff (List.mem_range.2 hi)
    rw [h.whole.infos.nodup.count]
    exact if_congr hmem rfl rfl

/-- **Between the handlers nothing of the send side is lost**, whatever is sent, whatever the link
answers and however the radio is started and stopped; and in no `IPLower.send` does
`SendQueue.enqueue` fail. -/
theorem pools_conserved {h : List (SendSide × Event)} {s : SendSide} (hr : machine.Run h s) :
    s.Conserved ∧ ∀ i d, s.d.getSendInfo = (some i, d) →
      ∀ broadcast frags, ¬enqueueFails .data broadcast i frags d := by
  have hinv := hr.inv inv_machine
  refine ⟨hinv.conserved, ?_⟩
  intro i d hget broadcast frags
  rcases getSendInfo_whole hinv.whole with hnone | ⟨j, d', hsome, hwhole, -⟩
  · cases hnone.symm.trans hget
  · obtain ⟨hj, rfl⟩ := Prod.mk.inj (hsome.symm.trans hget)
    obtain rfl := Option.some.inj hj
    exact not_enqueueFails hwhole.toInv .data broadcast frags

/-- Two packets in the queue, one of two fragments and one that failed for want of entries. -/
theorem pools_conserved_full : ∃ h s, machine.Run h s ∧ s.d.sendQueue.length = nFragments ∧
    s.d.sendInfoPool.free = 1 ∧ s.Conserved := by
  obtain ⟨h, s, hr, hp⟩ := Machine.exists_run_of_exec (M := machine) (s := boot) rfl
    [.start true, .startDone true, .send 1 false [[1], [2]], .sendTask .success,
      .send 2 true (List.replicate 11 [3])]
    (fun _ s => s.d.sendQueue.length = nFragments && s.d.sendInfoPool.free = 1)
    (by decide)
  simp only [Bool.and_eq_true, decide_eq_true_iff] at hp
  exact ⟨h, s, hr, hp.1, hp.2, (pools_conserved hr).1⟩

end SendSide

end Blip
