import Backip.BackIP.Dispatch
import Backip.Lib.Custody
import Backip.Lib.RefCount

/-!
# What the handlers of the fragment queue do to the fragments

`Dispatch.frames` is the abstraction: the fragments in the queue, each with the `send_info` its
packet's fragments share. `Dispatch.Inv` says that entries, buffers and references are where they
should be; with it `IPLower.send` appends fragments of one new packet (`send_spec`), `sendTask`
takes the first of the fragments that wait (`sendTask_some`) and `sendDone` drops the one that was
handed over (`sendDone_spec`).
-/

set_option autoImplicit false

namespace BackIP.Dispatch

/-- The `send_info`s the queue refers to. -/
def refs (d : Dispatch) : List Nat := d.sendQueue.map fun e => (d.entry e).info

/-- The fragments in the queue, each with its packet. -/
def frames (d : Dispatch) : List (Nat × Message) :=
  d.sendQueue.map fun e => ((d.entry e).info, d.frag (d.entry e).msg)

def failed (d : Dispatch) (i : Nat) : Bool := (d.info i).failed

/-- Entries and buffers are free or in the queue; the references to `send_info`s are the queue's
and `own`, those of the handler that runs. -/
structure Inv (d : Dispatch) (own : List Nat) : Prop where
  custody : Custody (List.range nFragments) (List.range nFragments) (fun e => (d.entry e).msg)
    d.sendEntryPool.toList d.fragPool.toList d.sendQueue
  refs : RefCount d.sendInfoPool.toList (fun i => (d.info i).refcount) (own ++ d.refs)

variable {d d' d'' : Dispatch} {own : List Nat} {i : Nat}

theorem Inv.length (h : d.Inv own) :
    d.sendEntryPool.toList.length + d.sendQueue.length = nFragments := by
  rw [h.custody.length_free, List.length_range]

theorem Inv.length_frag (h : d.Inv own) :
    d.fragPool.toList.length + d.sendQueue.length = nFragments := by
  rw [h.custody.length_freeBuf, List.length_range]

theorem inv_boot : boot.Inv [] where
  custody := by
    have hpool : (PoolP.init id (by decide) : PoolP Nat nFragments).toList =
        List.range nFragments := by
      rw [PoolP.toList_init, List.map_id]
    constructor
    · simp [boot, hpool]
    · simp [boot, hpool]
  refs := by
    have hpool : (PoolP.init id (by decide) : PoolP Nat nConcurrentSends).toList =
        List.range nConcurrentSends := by
      rw [PoolP.toList_init, List.map_id]
    refine ⟨?_, fun _ _ => List.not_mem_nil, fun _ _ => rfl⟩
    rw [show boot.sendInfoPool.toList = _ from hpool]
    exact List.nodup_range

/-- `d'` is `d` with the fragments `ms` of packet `i` behind the others. -/
structure Grows (d d' : Dispatch) (i : Nat) (ms : List Message) : Prop where
  frames : d'.frames = d.frames ++ ms.map (i, ·)
  busy : d'.radioBusy = d.radioBusy
  state : d'.state = d.state
  failed : ∀ j ≠ i, d'.failed j = d.failed j

theorem Grows.trans {ms ms' : List Message} (h : Grows d d' i ms) (h' : Grows d' d'' i ms') :
    Grows d d'' i (ms ++ ms') where
  frames := by rw [h'.frames, h.frames, List.map_append, List.append_assoc]
  busy := h'.busy.trans h.busy
  state := h'.state.trans h.state
  failed j hj := (h'.failed j hj).trans (h.failed j hj)

/-! ## `send_info` -/

theorem failed_setInfo (d : Dispatch) {i : Nat} {x : SendInfo} (hx : x.failed = d.failed i)
    (j : Nat) : (d.setInfo i x).failed j = d.failed j := by
  rw [failed]
  by_cases hj : j = i
  · subst hj
    rw [setInfo_info_self, hx]
  · rw [setInfo_info_of_ne d x hj, failed]

/-- `SENDINFO_DECR` touches nothing but the count and the pool. -/
theorem sendInfoDecr_eq (d : Dispatch) (i : Nat) : ∃ pool, d.sendInfoDecr i =
    { d with sendInfoPool := pool }.setInfo i
      { d.info i with refcount := (d.info i).refcount - 1 } := by
  rw [sendInfoDecr]
  split
  · exact ⟨_, rfl⟩
  · exact ⟨d.sendInfoPool, rfl⟩

/-- `SENDINFO_DECR` drops a reference. -/
theorem refs_sendInfoDecr {refs : List Nat}
    (h : RefCount d.sendInfoPool.toList (fun j => (d.info j).refcount) (i :: refs)) :
    RefCount (d.sendInfoDecr i).sendInfoPool.toList
      (fun j => ((d.sendInfoDecr i).info j).refcount) refs := by
  generalize hx : ({ d.info i with refcount := (d.info i).refcount - 1 } : SendInfo) = x
  have hi : ((d.setInfo i x).info i).refcount = (d.info i).refcount - 1 := by
    rw [setInfo_info_self, ← hx]
  have hne : ∀ j ≠ i, ((d.setInfo i x).info j).refcount = (d.info j).refcount := fun j hj => by
    rw [setInfo_info_of_ne d x hj]
  rw [sendInfoDecr, hx]
  split
  · rename_i hzero
    rcases Nat.lt_or_ge d.sendInfoPool.toList.length nConcurrentSends with hlt | hge
    · have hput := h.drop_last hi hne hzero
      rw [← (PoolP.put_ok i hlt).2] at hput
      exact hput
    · have hfull : d.sendInfoPool.put i = _ :=
        PoolP.put_full i (Nat.le_antisymm d.sendInfoPool.length_le hge)
      have hdrop := h.drop_shared hi hne
      rw [show (d.setInfo i x).sendInfoPool = d.sendInfoPool from rfl, hfull]
      exact hdrop
  · exact h.drop_shared hi hne

/-- `getSendInfo` finds no `send_info`, or one that nothing refers to. -/
theorem getSendInfo_spec (h : d.Inv []) :
    d.getSendInfo = (none, d) ∨
      ∃ i d', d.getSendInfo = (some i, d') ∧ d'.Inv [i] ∧ i ∉ d.refs ∧ Grows d d' i [] := by
  cases hpool : d.sendInfoPool.toList with
  | nil =>
    left
    rw [getSendInfo, PoolP.get_nil hpool]
  | cons i free =>
    obtain ⟨h1, h2⟩ := PoolP.get_cons hpool
    have hrefs := h.refs
    rw [hpool] at hrefs
    refine .inr ⟨i, { d with sendInfoPool := d.sendInfoPool.get.2 }.setInfo i ⟨0, 0, false, 1⟩,
      ?_, ⟨h.custody, ?_⟩, hrefs.fresh i (.head _), ⟨(List.append_nil _).symm, rfl, rfl, ?_⟩⟩
    · rw [getSendInfo, show d.sendInfoPool.get = (some i, d.sendInfoPool.get.2) from
        Prod.ext h1 rfl]
    · rw [← h2] at hrefs
      apply hrefs.get (by rw [setInfo_info_self])
      intro j hj
      rw [setInfo_info_of_ne _ _ hj]
    · intro j hj
      rw [failed, setInfo_info_of_ne _ _ hj, failed]

theorem inv_setFailed (h : d.Inv own) (i : Nat) : (d.setFailed i).Inv own where
  custody := h.custody
  refs := h.refs.congr fun j => by
    rw [setFailed]
    by_cases hj : j = i
    · subst hj
      rw [setInfo_info_self]
    · rw [setInfo_info_of_ne _ _ hj]

theorem grows_setFailed (d : Dispatch) (i : Nat) : Grows d (d.setFailed i) i [] where
  frames := (List.append_nil _).symm
  busy := rfl
  state := rfl
  failed j hj := by rw [failed, setFailed, setInfo_info_of_ne _ _ hj, failed]

/-! ## Entries and buffers -/

/-- `d₁` is `d` with the entry `e` and the buffer `o` taken and a fragment of `origin` in `o`. -/
structure Taken (own : List Nat) (d d₁ : Dispatch) (e o : Nat) (origin : Origin) : Prop where
  custody : Custody (List.range nFragments) (List.range nFragments) (fun e => (d₁.entry e).msg)
    (e :: d₁.sendEntryPool.toList) (o :: d₁.fragPool.toList) d₁.sendQueue
  refs : RefCount d₁.sendInfoPool.toList (fun i => (d₁.info i).refcount) (own ++ d₁.refs)
  grows : ∀ i, Grows d d₁ i []
  origin : (d₁.frag o).origin = origin

/-- A buffer of no fragment in the queue can be filled. -/
theorem frames_update {o : Nat} (ho : o ∉ d.sendQueue.map fun e => (d.entry e).msg) (m : Message) :
    frames { d with frag := Function.update d.frag o m } = d.frames := by
  apply List.map_congr_left
  intro x hx
  have hne : (d.entry x).msg ≠ o := fun heq => ho (List.mem_map.2 ⟨x, hx, heq⟩)
  exact congrArg (Prod.mk _) (Function.update_of_ne hne ..)

/-- `getBuffers` finds an entry and a buffer unless the queue is full. -/
theorem getBuffers_spec (h : d.Inv own) :
    d.sendQueue.length = nFragments ∧ d.getBuffers = (none, d) ∨
      ∃ e o d₁, d.getBuffers = (some (e, o), d₁) ∧
        ∀ origin data, Taken own d (d₁.fill o origin data) e o origin := by
  have h1 := h.length
  have h2 := h.length_frag
  cases he : d.sendEntryPool.toList with
  | nil =>
    rw [he, List.length_nil, Nat.zero_add] at h1
    have ho : d.fragPool.toList = [] := List.length_eq_zero_iff.1 (by omega)
    refine .inl ⟨h1, ?_⟩
    rw [getBuffers, PoolP.get_nil he, PoolP.get_nil ho]
  | cons e es =>
    cases ho : d.fragPool.toList with
    | nil =>
      rw [he, List.length_cons] at h1
      rw [ho, List.length_nil] at h2
      omega
    | cons o os =>
      obtain ⟨he1, he2⟩ := PoolP.get_cons he
      obtain ⟨ho1, ho2⟩ := PoolP.get_cons ho
      have hc := h.custody
      rw [he, ho, ← he2, ← ho2] at hc
      refine .inr ⟨e, o, { d with
        sendEntryPool := d.sendEntryPool.get.2, fragPool := d.fragPool.get.2 }, ?_,
        fun origin data => ⟨hc, h.refs, fun i => ⟨?_, rfl, rfl, fun _ _ => rfl⟩, origin_fill ..⟩⟩
      · simp only [getBuffers, he1, ho1]
      · rw [List.map_nil, List.append_nil]
        exact frames_update (hc.not_mem_held_map List.nodup_range (.head _)) _

/-- What was taken goes back. -/
theorem putBuffers_spec {d₁ : Dispatch} {e o : Nat} {origin : Origin}
    (h : Taken own d d₁ e o origin) (i : Nat) :
    (d₁.putBuffers e o).Inv own ∧ Grows d (d₁.putBuffers e o) i [] := by
  have h1 := h.custody.length_free
  have h2 := h.custody.length_freeBuf
  rw [List.length_cons, List.length_range] at h1 h2
  refine ⟨⟨?_, h.refs⟩, (h.grows i).trans ⟨(List.append_nil _).symm, rfl, rfl, fun _ _ => rfl⟩⟩
  have hput := h.custody.rotate
  rw [← (PoolP.put_ok e (by omega : d₁.sendEntryPool.toList.length < nFragments)).2,
    ← (PoolP.put_ok o (by omega : d₁.fragPool.toList.length < nFragments)).2] at hput
  exact hput

/-- What was taken joins the queue. -/
theorem append_spec {d₁ : Dispatch} {e o : Nat} {origin : Origin} (h : Taken own d d₁ e o origin)
    (hi : i ∈ own) (broadcast : Bool) :
    (d₁.append i e o broadcast).Inv own ∧
      ∃ m, m.origin = origin ∧ m.data = (d₁.frag o).data ∧
        Grows d (d₁.append i e o broadcast) i [m] := by
  have hnot : e ∉ d₁.sendQueue := h.custody.not_mem_held List.nodup_range (.head _)
  have hentry : ∀ x ∈ d₁.sendQueue, Function.update d₁.entry e ⟨i, o⟩ x = d₁.entry x :=
    fun x hx => Function.update_of_ne (fun heq : x = e => hnot (heq ▸ hx)) ..
  have hfailed : ∀ j, (d₁.append i e o broadcast).failed j = d₁.failed j := fun j => by
    rw [append]
    exact failed_setInfo _ (by rfl) j
  generalize hm : ({ d₁.frag o with
    maxRetries := if broadcast then 0 else blipL2Retries
    retryDelay := blipL2Delay } : Message) = m
  have hgrows : Grows d₁ (d₁.append i e o broadcast) i [m] := by
    refine ⟨?_, rfl, rfl, fun j _ => hfailed j⟩
    have hold := frames_update (h.custody.not_mem_held_map List.nodup_range (.head _)) m
    simp only [frames] at hold ⊢
    simp only [append, setInfo, hm, List.map_append, List.map_singleton, Function.update_self]
    rw [← hold]
    congr 1
    exact List.map_congr_left fun x hx => by rw [hentry x hx]
  refine ⟨⟨?_, ?_⟩, m, ?_, by rw [← hm], (h.grows i).trans hgrows⟩
  · have htake : Custody (List.range nFragments) (List.range nFragments)
        (fun x => (Function.update d₁.entry e ⟨i, o⟩ x).msg) d₁.sendEntryPool.toList
        d₁.fragPool.toList (e :: d₁.sendQueue) :=
      h.custody.take List.nodup_range (by rw [Function.update_self])
        fun x hx => by rw [Function.update_of_ne hx]
    exact htake.perm (List.perm_append_singleton e _).symm
  · have hrefs : (d₁.append i e o broadcast).refs = d₁.refs ++ [i] := by
      simp only [refs, append, setInfo, List.map_append, List.map_singleton, Function.update_self]
      congr 1
      exact List.map_congr_left fun x hx => by rw [hentry x hx]
    rw [hrefs, ← List.append_assoc]
    refine RefCount.perm (h.refs.share (List.mem_append_left _ hi) ?_ ?_)
      (List.perm_append_singleton i _).symm
    · rw [append, setInfo_info_self]
    · intro j hj
      rw [append, setInfo_info_of_ne _ _ hj]
  · rw [← hm]
    exact h.origin

/-! ## `IPLower.send` -/

/-- The loop queues fragments of its packet. -/
theorem fragLoop_spec (h : d.Inv [i]) (origin : Origin) (broadcast : Bool)
    (frags : List (List UInt8)) :
    (fragLoop origin broadcast i frags d).1.Inv [i] ∧
      ∃ ms, ms.length ≤ frags.length ∧ (∀ m ∈ ms, m.origin = origin) ∧
        Grows d (fragLoop origin broadcast i frags d).1 i ms := by
  induction frags generalizing d with
  | nil =>
    rcases getBuffers_spec h with ⟨_, hg⟩ | ⟨e, o, d₁, hg, ht⟩
    · simp only [fragLoop, hg]
      exact ⟨inv_setFailed h i, [], Nat.zero_le _, List.forall_mem_nil _, grows_setFailed d i⟩
    · simp only [fragLoop, hg]
      obtain ⟨hinv, hgrows⟩ := putBuffers_spec (ht origin []) i
      exact ⟨hinv, [], Nat.zero_le _, List.forall_mem_nil _, hgrows⟩
  | cons data frags ih =>
    rcases getBuffers_spec h with ⟨_, hg⟩ | ⟨e, o, d₁, hg, ht⟩
    · simp only [fragLoop, hg]
      exact ⟨inv_setFailed h i, [], Nat.zero_le _, List.forall_mem_nil _, grows_setFailed d i⟩
    · simp only [fragLoop, hg]
      have ht := ht origin data
      have hroom := ht.custody.length_free
      rw [List.length_cons, List.length_range] at hroom
      by_cases hdata : data.length ≤ 0
      · obtain ⟨hinv, hgrows⟩ := putBuffers_spec ht i
        rw [if_pos hdata]
        exact ⟨hinv, [], Nat.zero_le _, List.forall_mem_nil _, hgrows⟩
      · obtain ⟨hinv, m, horigin, -, hgrows⟩ := append_spec ht (List.mem_singleton_self i) broadcast
        obtain ⟨hinv', ms, hlen, horigins, hgrows'⟩ := ih hinv
        -- there is an entry left, so the queue has room
        rw [if_neg hdata, if_neg (by omega)]
        exact ⟨hinv', m :: ms, Nat.succ_le_succ hlen, List.forall_mem_cons.2 ⟨horigin, horigins⟩,
          hgrows.trans hgrows'⟩

/-- `d'` is `d` with the fragments `new` behind the others, whose packets fare as before. -/
structure Adds (d d' : Dispatch) (new : List (Nat × Message)) : Prop where
  frames : d'.frames = d.frames ++ new
  busy : d'.radioBusy = d.radioBusy
  failed : ∀ x ∈ d.frames, d'.failed x.1 = d.failed x.1

theorem Grows.adds {ms : List Message} (h : Grows d d' i ms) (hi : i ∉ d.refs) :
    Adds d d' (ms.map (i, ·)) where
  frames := h.frames
  busy := h.busy
  failed x hx := by
    refine h.failed x.1 fun he => hi ?_
    obtain ⟨e, hmem, rfl⟩ := List.mem_map.1 hx
    exact he ▸ List.mem_map_of_mem hmem

/-- The end of `IPLower.send` changes no fragment. -/
theorem send_end_spec (h : d.Inv [i]) :
    Inv { d.sendInfoDecr i with sendTaskPosted := true } [] ∧
      Grows d { d.sendInfoDecr i with sendTaskPosted := true } i [] := by
  obtain ⟨pool, hpool⟩ := sendInfoDecr_eq d i
  have hrefs := refs_sendInfoDecr h.refs
  rw [hpool] at hrefs ⊢
  exact ⟨⟨h.custody, hrefs⟩, (List.append_nil _).symm, rfl, rfl,
    fun j _ => failed_setInfo _ (by rfl) j⟩

/-- **`IPLower.send` appends fragments of its packet.** -/
theorem send_spec (h : d.Inv []) (origin : Origin) (broadcast : Bool) (frags : List (List UInt8)) :
    (d.send origin broadcast frags).1.Inv [] ∧
      ∃ new, new.length ≤ frags.length ∧ (∀ x ∈ new, x.2.origin = origin) ∧
        Adds d (d.send origin broadcast frags).1 new := by
  have hsame : Adds d d [] := ⟨(List.append_nil _).symm, rfl, fun _ _ => rfl⟩
  rw [send]
  split
  · exact ⟨h, [], Nat.zero_le _, List.forall_mem_nil _, hsame⟩
  · rcases getSendInfo_spec h with hg | ⟨i, d₀, hg, hinv, hi, hgrows⟩
    · simp only [hg]
      exact ⟨h, [], Nat.zero_le _, List.forall_mem_nil _, hsame⟩
    · simp only [hg]
      obtain ⟨hinv', ms, hlen, horigins, hgrows'⟩ := fragLoop_spec hinv origin broadcast frags
      obtain ⟨hend, hgrows''⟩ := send_end_spec hinv'
      refine ⟨hend, ms.map (i, ·), by rwa [List.length_map], ?_, ?_⟩
      · intro x hx
        obtain ⟨m, hm, rfl⟩ := List.mem_map.1 hx
        exact horigins m hm
      · have hall := ((hgrows.trans hgrows').trans hgrows'').adds hi
        rwa [List.nil_append, List.append_nil] at hall

/-! ## The head of the queue -/

section Head

variable {e : Nat} {rest : List Nat} (h : d.Inv []) (hq : d.sendQueue = e :: rest)

include h hq

theorem dropHead_spec : (d.dropHead e).Inv [] ∧ (d.dropHead e).frames = d.frames.tail ∧
    (d.dropHead e).radioBusy = d.radioBusy ∧
    ∀ j, (d.dropHead e).failed j = d.failed j := by
  obtain ⟨pool, hpool⟩ := sendInfoDecr_eq d (d.entry e).info
  have hc := h.custody
  rw [hq] at hc
  have h1 := hc.length_free
  have h2 := hc.length_freeBuf
  rw [List.length_cons, List.length_range] at h1 h2
  have hrel := hc.release
  rw [← (PoolP.put_ok e (by omega : d.sendEntryPool.toList.length < nFragments)).2,
    ← (PoolP.put_ok (d.entry e).msg (by omega : d.fragPool.toList.length < nFragments)).2] at hrel
  have hrefs : RefCount d.sendInfoPool.toList (fun j => (d.info j).refcount)
      ((d.entry e).info :: rest.map fun e => (d.entry e).info) := by
    have := h.refs
    rwa [refs, hq] at this
  have hdecr := refs_sendInfoDecr hrefs
  simp only [dropHead]
  rw [hpool] at hdecr ⊢
  refine ⟨⟨?_, ?_⟩, ?_, rfl, failed_setInfo _ (by rfl)⟩
  · simp only [putBuffers, setInfo, hq, List.tail_cons]
    exact hrel
  · simp only [refs, putBuffers, setInfo, hq, List.tail_cons, List.nil_append]
    exact hdecr
  · simp only [frames, putBuffers, setInfo, List.map_tail]

/-- A fragment that is not sent leaves the queue; its packet fails. -/
theorem sendFail_spec : (d.sendFail e).Inv [] ∧ (d.sendFail e).frames = d.frames.tail ∧
    (d.sendFail e).radioBusy = d.radioBusy ∧
    ∀ j, (d.sendFail e).failed j = (d.failed j || decide (j = (d.entry e).info)) := by
  have hinv : Inv ({ d with sendTaskPosted := true }.setFailed (d.entry e).info) [] :=
    inv_setFailed (show Inv { d with sendTaskPosted := true } [] from ⟨h.custody, h.refs⟩) _
  obtain ⟨h1, h2, h3, h4⟩ := dropHead_spec hinv hq
  refine ⟨h1, h2, h3, fun j => (h4 j).trans ?_⟩
  rw [failed, setFailed]
  by_cases hj : j = (d.entry e).info
  · rw [hj, setInfo_info_self, decide_eq_true rfl, Bool.or_true]
  · rw [setInfo_info_of_ne _ _ hj, decide_eq_false hj, Bool.or_false]
    rfl

end Head

/-! ## The fragments that wait for `Send.send` -/

/-- The fragments `sendTask` has yet to hand to `Send.send`: not the one that was handed over last,
nor those of a failed packet. -/
def waiting (d : Dispatch) : List (Nat × Message) :=
  (if d.radioBusy then d.frames.tail else d.frames).filter fun x => !d.failed x.1

/-- Fragments that come wait behind the others. -/
theorem Adds.waiting {new : List (Nat × Message)} (h : Adds d d' new)
    (hbusy : d.radioBusy = true → d.frames ≠ []) :
    d'.waiting = d.waiting ++ new.filter fun x => !d'.failed x.1 := by
  rw [Dispatch.waiting, Dispatch.waiting, h.busy, h.frames]
  cases hb : d.radioBusy with
  | false =>
    rw [if_neg Bool.false_ne_true, if_neg Bool.false_ne_true, List.filter_append]
    congr 1
    exact List.filter_congr fun x hx => by rw [h.failed x hx]
  | true =>
    rw [if_pos rfl, if_pos rfl, List.tail_append_of_ne_nil (hbusy hb), List.filter_append]
    congr 1
    exact List.filter_congr fun x hx => by rw [h.failed x (List.mem_of_mem_tail hx)]

section Cons

variable {e : Nat} {rest : List Nat} (hq : d.sendQueue = e :: rest)

include hq

theorem toSend_cons (hb : ¬ (d.radioBusy = true ∨ d.state ≠ .running)) : d.toSend =
    if (d.info (d.entry e).info).failed then none else some (d.entry e).msg := by
  rw [toSend, if_neg hb, hq]

theorem sendTask_cons (hb : ¬ (d.radioBusy = true ∨ d.state ≠ .running)) (ret : TinyError) :
    d.sendTask ret =
      if (d.info (d.entry e).info).failed then d.sendFail e
      else if ret ≠ .success then d.sendFail e
      else { d with radioBusy := true } := by
  rw [sendTask, if_neg hb]
  split
  · rename_i hnil
    rw [hq] at hnil
    cases hnil
  · rename_i hcons
    obtain ⟨rfl, rfl⟩ := List.cons.inj (hq.symm.trans hcons)
    rfl

/-- `sendDone` drops the head of a queue with the same fragments. -/
theorem sendDone_cons (h : d.Inv []) : ∃ d₁ : Dispatch,
    d.sendDone = { d₁.dropHead e with sendTaskPosted := true } ∧ d₁.Inv [] ∧
      d₁.sendQueue = e :: rest ∧ d₁.frames = d.frames ∧ d₁.radioBusy = false ∧
      ∀ j, d₁.failed j = d.failed j := by
  rw [sendDone]
  split
  · rename_i hnil
    rw [hq] at hnil
    cases hnil
  · rename_i hcons
    obtain ⟨rfl, rfl⟩ := List.cons.inj (hq.symm.trans hcons)
    dsimp only
    by_cases hs : d.state = .stopping
    · rw [if_pos hs]
      exact ⟨_, rfl, ⟨h.custody, h.refs⟩, hq, rfl, rfl, fun _ => rfl⟩
    · rw [if_neg hs]
      refine ⟨_, rfl, ⟨h.custody, h.refs.congr ?_⟩, hq, rfl, rfl,
        failed_setInfo _ (by rfl)⟩
      intro j
      by_cases hj : j = (d.entry e).info
      · subst hj
        rw [setInfo_info_self]
      · rw [setInfo_info_of_ne _ _ hj]

end Cons

/-- `sendTask` without a fragment to hand over leaves those that wait. -/
theorem sendTask_none (h : d.Inv []) (hsend : d.toSend = none) (ret : TinyError) :
    (d.sendTask ret).Inv [] ∧ (d.sendTask ret).waiting = d.waiting ∧
      (d.sendTask ret).radioBusy = d.radioBusy ∧
      (d.radioBusy = true → (d.sendTask ret).frames = d.frames) := by
  have hsame : d.Inv [] ∧ d.waiting = d.waiting ∧ d.radioBusy = d.radioBusy ∧
      (d.radioBusy = true → d.frames = d.frames) := ⟨h, rfl, rfl, fun _ => rfl⟩
  by_cases hb : d.radioBusy = true ∨ d.state ≠ .running
  · rwa [sendTask, if_pos hb]
  · have hidle : d.radioBusy = false := Bool.not_eq_true _ ▸ (not_or.1 hb).1
    cases hq : d.sendQueue with
    | nil => rwa [sendTask, if_neg hb, hq]
    | cons e rest =>
      rw [toSend_cons hq hb] at hsend
      rw [sendTask_cons hq hb]
      by_cases hf : (d.info (d.entry e).info).failed = true
      · obtain ⟨h1, h2, h3, h4⟩ := sendFail_spec h hq
        rw [if_pos hf]
        refine ⟨h1, ?_, h3, fun hb' => absurd (hidle.symm.trans hb') Bool.false_ne_true⟩
        have hfailed : (d.sendFail e).failed = d.failed := funext fun j => by
          rw [h4]
          by_cases hj : j = (d.entry e).info
          · rw [hj, failed, hf, Bool.true_or]
          · rw [decide_eq_false hj, Bool.or_false]
        rw [waiting, waiting, h3, hidle, if_neg Bool.false_ne_true, if_neg Bool.false_ne_true, h2,
          hfailed, frames, hq, List.map_cons, List.tail_cons, List.filter_cons_of_neg]
        simp [failed, hf]
      · rw [if_neg hf] at hsend
        cases hsend

/-- The fragment `sendTask` hands over is the first of those that wait, and waits no more. -/
theorem sendTask_some (h : d.Inv []) {o : Nat} (hsend : d.toSend = some o) (ret : TinyError) :
    d.radioBusy = false ∧ (d.sendTask ret).Inv [] ∧
      (∃ x rest, d.waiting = x :: rest ∧ x.2 = d.frag o ∧
        ∀ y ∈ (d.sendTask ret).waiting, y ∈ rest) ∧
      (d.sendTask ret).radioBusy = decide (ret = .success) ∧
      (ret = .success → (d.sendTask ret).frames ≠ []) := by
  by_cases hb : d.radioBusy = true ∨ d.state ≠ .running
  · rw [toSend, if_pos hb] at hsend
    cases hsend
  have hidle : d.radioBusy = false := Bool.not_eq_true _ ▸ (not_or.1 hb).1
  cases hq : d.sendQueue with
  | nil =>
    rw [toSend, if_neg hb, hq] at hsend
    cases hsend
  | cons e rest =>
    rw [toSend_cons hq hb] at hsend
    rw [sendTask_cons hq hb]
    by_cases hf : (d.info (d.entry e).info).failed = true
    · rw [if_pos hf] at hsend
      cases hsend
    rw [if_neg hf, Option.some.injEq] at hsend
    rw [if_neg hf]
    have hframes : d.frames = ((d.entry e).info, d.frag o) :: d.frames.tail := by
      rw [frames, hq, List.map_cons, List.tail_cons, hsend]
    have hwait : d.waiting = ((d.entry e).info, d.frag o) ::
        d.frames.tail.filter fun x => !d.failed x.1 := by
      rw [waiting, hidle, if_neg Bool.false_ne_true, hframes, List.filter_cons_of_pos]
      · rfl
      · simpa [failed] using hf
    by_cases hr : ret = .success
    · rw [if_neg (not_not_intro hr), decide_eq_true hr]
      refine ⟨hidle, ⟨h.custody, h.refs⟩, ⟨_, _, hwait, rfl, fun _ hy => hy⟩, rfl, ?_⟩
      intro _
      change d.frames ≠ []
      rw [hframes]
      exact List.cons_ne_nil _ _
    · obtain ⟨h1, h2, h3, h4⟩ := sendFail_spec h hq
      rw [if_pos hr, decide_eq_false hr]
      refine ⟨hidle, h1, ⟨_, _, hwait, rfl, ?_⟩, h3.trans hidle, fun h => absurd h hr⟩
      intro y hy
      rw [waiting, h3, hidle, if_neg Bool.false_ne_true, h2, List.mem_filter, h4, Bool.not_or,
        Bool.and_eq_true] at hy
      exact List.mem_filter.2 ⟨hy.1, hy.2.1⟩

/-- `sendDone` drops the fragment that was handed over. -/
theorem sendDone_spec (h : d.Inv []) (hbusy : d.radioBusy = true) (hne : d.frames ≠ []) :
    d.sendDone.Inv [] ∧ d.sendDone.waiting = d.waiting ∧ d.sendDone.radioBusy = false := by
  cases hq : d.sendQueue with
  | nil => exact absurd (by rw [frames, hq, List.map_nil]) hne
  | cons e rest =>
    obtain ⟨d₁, heq, hinv, hq₁, hframes, hb₁, hfailed⟩ := sendDone_cons hq h
    obtain ⟨h1, h2, h3, h4⟩ := dropHead_spec hinv hq₁
    have hfailed' : (d₁.dropHead e).failed = d.failed := funext fun j => (h4 j).trans (hfailed j)
    rw [heq]
    refine ⟨⟨h1.custody, h1.refs⟩, ?_, h3.trans hb₁⟩
    change (if (d₁.dropHead e).radioBusy = true then _ else (d₁.dropHead e).frames).filter
      (fun x => !(d₁.dropHead e).failed x.1) = _
    rw [h3, hb₁, if_neg Bool.false_ne_true, h2, hframes, hfailed', waiting, hbusy, if_pos rfl]

end BackIP.Dispatch
