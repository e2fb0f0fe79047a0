import Backip.Blip.Proof.SendPools
import Mathlib

/-!
# Every accepted send completes once

`Books` is what the send side's runs leave on record: the `send_info`s that the queue refers to and
the signals so far. `Books.Right`: a packet in the queue that has not failed has not been signalled
and has as many fragments in the queue as are left to attempt; any other is settled. A step keeps
the books right unless the link refuses a fragment or the first fragment of a packet cannot be cut
(`SendSide.Event.Completes`).
-/

set_option autoImplicit false

namespace Blip

open BackIP Dispatch

/-- What the queue refers to, the `send_info`s, the packets and what was signalled. -/
structure Books where
  refs : List Nat
  info : Nat → SendInfo
  packet : Nat → Nat
  upperData : Nat → Nat
  sends : List (Nat × TinyError)
  done : List (Nat × Nat)

namespace Books

/-- The signals for a packet. -/
def signals (b : Books) (n : Nat) : List (Nat × Nat) := b.done.filter (·.1 == n)

/-- A packet that was accepted has been signalled once, with its pointer, and any other never. -/
def Settled (b : Books) (n data : Nat) (rc : TinyError) : Prop :=
  b.signals n = if rc = .success then [(n, data)] else []

/-- What is known of a packet in the queue. -/
def Tracked (b : Books) (i : Nat) : Prop :=
  ∃ rc, b.sends[b.packet i]? = some (b.upperData i, rc) ∧
    if (b.info i).failed then b.Settled (b.packet i) (b.upperData i) rc
    else rc = .success ∧ b.signals (b.packet i) = [] ∧
      (b.info i).linkFragmentAttempts + b.refs.count i = (b.info i).linkFragments

structure Right (b : Books) : Prop where
  inj : ∀ i ∈ b.refs, ∀ j ∈ b.refs, b.packet i = b.packet j → i = j
  tracked : ∀ i ∈ b.refs, b.Tracked i
  gone : ∀ n data rc, b.sends[n]? = some (data, rc) → n ∉ b.refs.map b.packet →
    b.Settled n data rc
  past : ∀ signal ∈ b.done, signal.1 < b.sends.length

variable {b b' : Books}

theorem Tracked.lt {i : Nat} (h : b.Tracked i) : b.packet i < b.sends.length := by
  obtain ⟨rc, hsend, -⟩ := h
  exact (List.getElem?_eq_some_iff.1 hsend).1

/-- There is no signal for a packet yet to come. -/
theorem Right.signals_length (h : b.Right) : b.signals b.sends.length = [] := by
  refine List.filter_eq_nil_iff.2 fun signal hs => ?_
  simpa using Nat.ne_of_lt (h.past signal hs)

/-- What the books have on the packets in the queue is the same. -/
structure Keeps (b b' : Books) : Prop where
  info : ∀ j ∈ b.refs, b'.info j = b.info j
  packet : ∀ j ∈ b.refs, b'.packet j = b.packet j
  upperData : ∀ j ∈ b.refs, b'.upperData j = b.upperData j
  done : b'.done = b.done

/-- A packet joins the books: it is refused, or `k` fragments are queued for a `send_info` that was
free. -/
theorem Right.enter (h : b.Right) (hkeeps : Keeps b b') {i k data : Nat} {rc : TinyError}
    (hrefs : b'.refs = b.refs ++ List.replicate k i)
    (hsends : b'.sends = b.sends ++ [(data, rc)]) (hzero : rc = .success → k ≠ 0)
    (hnew : k ≠ 0 → i ∉ b.refs ∧ b'.packet i = b.sends.length ∧ b'.upperData i = data ∧
      b'.info i = ⟨k, 0, decide (rc ≠ .success), k⟩) : b'.Right := by
  have hsignals : ∀ n, b'.signals n = b.signals n := fun n => by
    rw [signals, hkeeps.done, signals]
  have hmem : ∀ j ∈ b'.refs, j ∈ b.refs ∨ j = i ∧ k ≠ 0 := fun j hj => by
    rw [hrefs] at hj
    exact (List.mem_append.1 hj).imp_right fun hj =>
      ⟨List.eq_of_mem_replicate hj, (List.mem_replicate.1 hj).1⟩
  have hlast : b'.sends[b.sends.length]? = some (data, rc) := by
    rw [hsends, List.getElem?_append_right (Nat.le_refl _), Nat.sub_self]
    rfl
  refine ⟨?_, ?_, ?_, ?_⟩
  · intro j hj j' hj' heq
    rcases hmem j hj with hj | ⟨rfl, hk⟩ <;> rcases hmem j' hj' with hj' | ⟨rfl, hk'⟩
    · exact h.inj j hj j' hj' (by rwa [hkeeps.packet j hj, hkeeps.packet j' hj'] at heq)
    · rw [hkeeps.packet j hj, (hnew hk').2.1] at heq
      exact absurd heq (Nat.ne_of_lt (h.tracked j hj).lt)
    · rw [hkeeps.packet j' hj', (hnew hk).2.1] at heq
      exact absurd heq.symm (Nat.ne_of_lt (h.tracked j' hj').lt)
    · rfl
  · intro j hj
    rcases hmem j hj with hj | ⟨rfl, hk⟩
    · obtain ⟨rc', hsend, hstate⟩ := h.tracked j hj
      have hcount : b'.refs.count j = b.refs.count j := by
        rw [hrefs, List.count_append, Nat.add_eq_left, List.count_eq_zero]
        intro hrep
        obtain ⟨hk, rfl⟩ := List.mem_replicate.1 hrep
        exact (hnew hk).1 hj
      refine ⟨rc', ?_, ?_⟩
      · rw [hkeeps.packet j hj, hkeeps.upperData j hj, hsends,
          List.getElem?_append_left (h.tracked j hj).lt]
        exact hsend
      · rw [Settled, hkeeps.info j hj, hkeeps.packet j hj, hkeeps.upperData j hj, hsignals, hcount]
        exact hstate
    · obtain ⟨hfree, hpacket, hdata, hinfo⟩ := hnew hk
      refine ⟨rc, ?_, ?_⟩
      · rw [hpacket, hdata]
        exact hlast
      · rw [Settled, hinfo, hpacket, hsignals, h.signals_length]
        by_cases hrc : rc = .success
        · have hcount : b'.refs.count j = k := by
            rw [hrefs, List.count_append, List.count_eq_zero.2 hfree, List.count_replicate_self,
              Nat.zero_add]
          simp [hrc, hcount]
        · simp [hrc]
  · intro n data' rc' hsend hgone
    have hgone' : n ∉ b.refs.map b.packet := by
      intro hn
      obtain ⟨j, hj, rfl⟩ := List.mem_map.1 hn
      refine hgone (List.mem_map.2 ⟨j, ?_, hkeeps.packet j hj⟩)
      rw [hrefs]
      exact List.mem_append_left _ hj
    rw [Settled, hsignals]
    by_cases hn : n = b.sends.length
    · rw [hn] at hsend hgone ⊢
      obtain ⟨rfl, rfl⟩ := Prod.mk.inj (Option.some.inj (hsend.symm.trans hlast))
      rw [h.signals_length, if_neg]
      intro hrc
      refine hgone (List.mem_map.2 ⟨i, ?_, (hnew (hzero hrc)).2.1⟩)
      rw [hrefs]
      exact List.mem_append_right _ (List.mem_replicate.2 ⟨hzero hrc, rfl⟩)
    · rw [hsends] at hsend
      have hlt : n < b.sends.length := by
        have := (List.getElem?_eq_some_iff.1 hsend).1
        rw [List.length_append, List.length_singleton] at this
        omega
      rw [List.getElem?_append_left hlt] at hsend
      exact h.gone n data' rc' hsend hgone'
  · intro signal hs
    rw [hkeeps.done] at hs
    rw [hsends, List.length_append]
    exact Nat.lt_of_lt_of_le (h.past signal hs) (Nat.le_add_right _ _)

/-- A fragment leaves the books. -/
theorem Right.leave (h : b.Right) {i : Nat} {rest : List Nat} (hi : b.refs = i :: rest)
    (hrefs : b'.refs = rest) (hother : ∀ j ≠ i, b'.info j = b.info j)
    (hpacket : b'.packet = b.packet) (hdata : b'.upperData = b.upperData)
    (hsends : b'.sends = b.sends)
    (hdone : ∀ n ≠ b.packet i, b'.signals n = b.signals n)
    (hpast : ∀ signal ∈ b'.done, signal.1 < b'.sends.length)
    (htracked : i ∈ rest → b'.Tracked i)
    (hsettled : i ∉ rest → ∀ rc, b.sends[b.packet i]? = some (b.upperData i, rc) →
      b'.Settled (b.packet i) (b.upperData i) rc) : b'.Right := by
  have hmem : ∀ j ∈ rest, j ∈ b.refs := fun j hj => by
    rw [hi]
    exact .tail _ hj
  have hhead : i ∈ b.refs := by
    rw [hi]
    exact .head _
  refine ⟨?_, ?_, ?_, hpast⟩
  · rw [hrefs, hpacket]
    exact fun j hj j' hj' => h.inj j (hmem j hj) j' (hmem j' hj')
  · rw [hrefs]
    intro j hj
    by_cases hji : j = i
    · rw [hji] at hj ⊢
      exact htracked hj
    · obtain ⟨rc, hsend, hstate⟩ := h.tracked j (hmem j hj)
      have hne : b.packet j ≠ b.packet i := fun heq => hji (h.inj j (hmem j hj) i hhead heq)
      have hcount : b'.refs.count j = b.refs.count j := by
        rw [hrefs, hi, List.count_cons_of_ne (Ne.symm hji)]
      refine ⟨rc, ?_, ?_⟩
      · rw [hsends, hpacket, hdata]
        exact hsend
      · rw [Settled, hother j hji, hpacket, hdata, hdone _ hne, hcount]
        exact hstate
  · rw [hrefs, hpacket, hsends]
    intro n data rc hsend hgone
    by_cases hn : n = b.packet i
    · rw [hn] at hsend hgone ⊢
      obtain ⟨rc', hsend', -⟩ := h.tracked i hhead
      obtain ⟨rfl, rfl⟩ := Prod.mk.inj (Option.some.inj (hsend.symm.trans hsend'))
      exact hsettled (fun hrest => hgone (List.mem_map_of_mem hrest)) _ hsend
    · rw [Settled, hdone n hn]
      refine h.gone n data rc hsend ?_
      rw [hi, List.map_cons, List.mem_cons, not_or]
      exact ⟨hn, hgone⟩

end Books

/-- `Ieee154Send.sendDone` while nothing stops: the head leaves the queue, attempted. -/
theorem linkDone_running {d : Dispatch} {e : Nat} {rest : List Nat} (hq : d.sendQueue = e :: rest)
    (hrun : d.state ≠ .stopping) (delivered : Bool) :
    (linkDone d delivered).1.refs = rest.map (fun e => (d.entry e).info) ∧
      (∀ j ≠ (d.entry e).info, (linkDone d delivered).1.info j = d.info j) ∧
      ((linkDone d delivered).1.info (d.entry e).info).linkFragments =
        (d.info (d.entry e).info).linkFragments ∧
      ((linkDone d delivered).1.info (d.entry e).info).linkFragmentAttempts =
        (d.info (d.entry e).info).linkFragmentAttempts + 1 ∧
      ((linkDone d delivered).1.info (d.entry e).info).failed =
        ((d.info (d.entry e).info).failed || !delivered) ∧
      (linkDone d delivered).2 = (!delivered ||
        (d.info (d.entry e).info).linkFragmentAttempts + 1 ==
          (d.info (d.entry e).info).linkFragments) := by
  have hdone : linkDone d delivered =
      ({ (attempted { d with radioBusy := false } (d.entry e).info delivered).1.dropHead e with
        sendTaskPosted := true },
        (attempted { d with radioBusy := false } (d.entry e).info delivered).2) := by
    unfold linkDone
    split
    · rename_i hnil
      cases hq.symm.trans hnil
    · rename_i hcons
      obtain ⟨rfl, rfl⟩ := List.cons.inj (hq.symm.trans hcons)
      dsimp only
      rw [if_neg hrun]
  rw [hdone]
  generalize hr : attempted { d with radioBusy := false } (d.entry e).info delivered = r
  have hq' : r.1.sendQueue = e :: rest := by
    rw [← hr]
    exact hq
  have hentry : r.1.entry = d.entry := by
    rw [← hr]
    rfl
  have hself : r.1.info (d.entry e).info = { d.info (d.entry e).info with
      linkFragmentAttempts := (d.info (d.entry e).info).linkFragmentAttempts + 1
      failed := (d.info (d.entry e).info).failed || !delivered } := by
    rw [← hr]
    exact setInfo_info_self ..
  have hother : ∀ j ≠ (d.entry e).info, r.1.info j = d.info j := fun j hj => by
    rw [← hr]
    exact setInfo_info_of_ne _ _ hj
  have hinfo := dropHead_info r.1 e
  have hrefs := dropHead_refs hq'
  rw [hentry] at hinfo hrefs
  refine ⟨hrefs, ?_, ?_, ?_, ?_, ?_⟩
  · intro j hj
    change (r.1.dropHead e).info j = d.info j
    rw [hinfo, Function.update_of_ne hj]
    exact hother j hj
  · change ((r.1.dropHead e).info (d.entry e).info).linkFragments = _
    rw [hinfo, Function.update_self, hself]
  · change ((r.1.dropHead e).info (d.entry e).info).linkFragmentAttempts = _
    rw [hinfo, Function.update_self, hself]
  · change ((r.1.dropHead e).info (d.entry e).info).failed = _
    rw [hinfo, Function.update_self, hself]
  · rw [← hr]
    rfl

/-- A fragment that is not sent leaves the queue. -/
theorem sendFail_running {d : Dispatch} {e : Nat} {rest : List Nat} (hq : d.sendQueue = e :: rest) :
    (d.sendFail e).refs = rest.map (fun e => (d.entry e).info) ∧
      (∀ j ≠ (d.entry e).info, (d.sendFail e).info j = d.info j) ∧
      ((d.sendFail e).info (d.entry e).info).failed = true := by
  have hinfo := dropHead_info ({ d with sendTaskPosted := true }.setFailed (d.entry e).info) e
  refine ⟨dropHead_refs hq, ?_, ?_⟩
  · intro j hj
    refine (congrFun hinfo j).trans ((Function.update_of_ne hj ..).trans ?_)
    exact setInfo_info_of_ne _ _ hj
  · have hself := congrArg SendInfo.failed (setInfo_info_self { d with sendTaskPosted := true }
      (d.entry e).info { d.info (d.entry e).info with failed := true })
    refine (congrArg SendInfo.failed (congrFun hinfo _)).trans ?_
    rw [show (Dispatch.setFailed { d with sendTaskPosted := true } (d.entry e).info).entry e =
      d.entry e from rfl, Function.update_self]
    exact hself

namespace SendSide

def books (s : SendSide) : Books := ⟨s.d.refs, s.d.info, s.packet, s.upperData, s.sends, s.done⟩

/-- Every packet that was accepted is signalled once, at the latest when its last fragment has left
the queue, and with its pointer; a packet that was not accepted is never signalled. -/
def Completed (s : SendSide) : Prop :=
  ∀ n data rc, s.sends[n]? = some (data, rc) →
    if rc = .success then
      s.done.filter (·.1 == n) = [(n, data)] ∨
        n ∈ s.d.sendQueue.map (fun e => s.packet (s.d.entry e).info) ∧
          s.done.filter (·.1 == n) = []
    else s.done.filter (·.1 == n) = []

/-- The first fragment of a packet that gets a `send_info` and an entry can be cut, and the link
does not refuse a fragment. -/
def Event.Completes (s : SendSide) : Event → Prop
  | .send _ _ frags => s.d.getSendInfo.1 = none ∨ s.d.sendQueue.length = nFragments ∨
      ∃ data ∈ frags.head?, data ≠ []
  | .sendTask ret => s.d.toSend = none ∨ ret = .success
  | _ => True

instance (s : SendSide) (e : Event) : Decidable (e.Completes s) :=
  match e with
  | .send _ _ _ => inferInstanceAs (Decidable (_ ∨ _ ∨ _))
  | .sendTask _ => inferInstanceAs (Decidable (_ ∨ _))
  | .sendDone _ _ | .start _ | .stop _ | .startDone _ | .stopDone _ => .isTrue trivial

/-- The invariant while the radio is on: the books are right and the fragment that the link has is
of a packet that has not failed. -/
structure Fair (s : SendSide) : Prop where
  inv : s.Inv
  running : s.d.state = .running
  right : s.books.Right
  head : s.inRadio.isSome = true → ∀ i ∈ s.d.refs.head?, (s.d.info i).failed = false

theorem Fair.completed {s : SendSide} (h : s.Fair) : s.Completed := by
  intro n data rc hsend
  by_cases hin : n ∈ s.d.refs.map s.packet
  · obtain ⟨i, hi, rfl⟩ := List.mem_map.1 hin
    obtain ⟨rc', hsend', hstate⟩ := h.right.tracked i hi
    obtain ⟨rfl, rfl⟩ := Prod.mk.inj (Option.some.inj (hsend.symm.trans hsend'))
    split at hstate
    · by_cases hrc : rc = .success
      · rw [if_pos hrc]
        exact .inl (hstate.trans (if_pos hrc))
      · rw [if_neg hrc]
        exact hstate.trans (if_neg hrc)
    · obtain ⟨hrc, hnone, -⟩ := hstate
      rw [if_pos hrc]
      refine .inr ⟨?_, hnone⟩
      rw [Dispatch.refs, List.map_map] at hin
      exact hin
  · have hsettled := h.right.gone n data rc hsend hin
    by_cases hrc : rc = .success
    · rw [if_pos hrc]
      exact .inl (hsettled.trans (if_pos hrc))
    · rw [if_neg hrc]
      exact hsettled.trans (if_neg hrc)

theorem Fair.send {s : SendSide} (h : s.Fair) {data : Nat} {broadcast : Bool}
    {frags : List (List UInt8)} (hcomp : Event.Completes s (.send data broadcast frags)) :
    (s.send data broadcast frags).Fair := by
  have hinv := h.inv.send data broadcast frags
  have hsends : (s.send data broadcast frags).books.sends =
      s.books.sends ++ [(data, (s.d.send .data broadcast frags).2)] := rfl
  rcases send_cases h.inv.whole .data broadcast frags with
    ⟨hnone, hsame, hrc⟩ |
      ⟨i, k, hrun, hsome, hi, hrefs, hother, hself, hstate, -, hempty⟩
  · have htaken : (if s.d.state = .running then s.d.getSendInfo.1 else none) = none := by
      rcases hnone with hstate | hget
      · exact if_neg hstate
      · rw [hget, ite_self]
    have hd : (s.send data broadcast frags).d = s.d := hsame
    have hpacket : (s.send data broadcast frags).packet = s.packet := by
      simp only [SendSide.send, htaken, Option.elim_none]
    have hdata : (s.send data broadcast frags).upperData = s.upperData := by
      simp only [SendSide.send, htaken, Option.elim_none]
    refine ⟨hinv, by rw [hd]; exact h.running, ?_, by rw [hd]; exact h.head⟩
    refine h.right.enter (i := 0) (k := 0)
      ⟨fun j _ => ?_, fun j _ => ?_, fun j _ => ?_, rfl⟩ ?_ hsends
      (fun hsucc => absurd hsucc hrc) fun hk => absurd rfl hk
    · simp only [books, hd]
    · simp only [books, hpacket]
    · simp only [books, hdata]
    · simp only [books, hd, List.replicate_zero, List.append_nil]
  · have hpacket : (s.send data broadcast frags).packet =
        Function.update s.packet i s.sends.length := by
      simp only [SendSide.send, hrun, if_true, hsome, Option.elim_some]
    have hdata : (s.send data broadcast frags).upperData =
        Function.update s.upperData i data := by
      simp only [SendSide.send, hrun, if_true, hsome, Option.elim_some]
    have hne : ∀ j ∈ s.d.refs, j ≠ i := fun j hj hji => hi (hji ▸ hj)
    refine ⟨hinv, hstate.trans h.running, ?_, ?_⟩
    · refine h.right.enter (i := i) (k := k)
        ⟨fun j hj => hother j (hne j hj), fun j hj => ?_, fun j hj => ?_, rfl⟩ hrefs hsends ?_
        fun _ => ⟨hi, ?_, ?_, hself⟩
      · simp only [books, hpacket, Function.update_of_ne (hne j hj)]
      · simp only [books, hdata, Function.update_of_ne (hne j hj)]
      · intro hsucc hk
        obtain ⟨hlen, hcut⟩ := hempty hsucc hk
        rcases hcomp with hnone | hfull | ⟨data', hdata', hne'⟩
        · cases hsome.symm.trans hnone
        · rw [Dispatch.refs, List.length_map, hfull] at hlen
          exact absurd hlen (Nat.lt_irrefl _)
        · exact hne' (hcut data' hdata')
      · simp only [books, hpacket, Function.update_self]
      · simp only [books, hdata, Function.update_self]
    · intro hin j hj
      have hne' := (h.inv.handed hin).1
      have hhead : s.d.refs.head? = some j := by
        have hj' : (s.d.refs ++ List.replicate k i).head? = some j := hrefs ▸ hj
        rwa [List.head?_append_of_ne_nil _ hne'] at hj'
      have hfailed := h.head hin j hhead
      rw [show (s.send data broadcast frags).d.info j = s.d.info j from
        hother j (hne j (List.mem_of_mem_head? hhead))]
      exact hfailed

theorem Fair.sendTask {s : SendSide} (h : s.Fair) {ret : TinyError}
    (hcomp : Event.Completes s (.sendTask ret)) : (s.sendTask ret).Fair := by
  have hinv := h.inv.sendTask ret
  have hcomp' : Dispatch.toSend { s.d with sendTaskPosted := false } = none ∨ ret = .success :=
    hcomp
  rcases sendTask_cases { s.d with sendTaskPosted := false } ret with
    ⟨hnone, hsame⟩ | ⟨e, rest, hq, hidle, hrun, ⟨hnone, hfailed, hfail⟩ | ⟨hsome, hfailed, hsend⟩⟩
  · have hd : (s.sendTask ret).d = { s.d with sendTaskPosted := false } := hsame
    have hin : (s.sendTask ret).inRadio = s.inRadio := by simp [SendSide.sendTask, hnone]
    refine ⟨hinv, by rw [hd]; exact h.running, ?_, by rw [hd, hin]; exact h.head⟩
    rw [books, hd]
    exact h.right
  · have hd : (s.sendTask ret).d = Dispatch.sendFail { s.d with sendTaskPosted := false } e :=
      hfail
    have hin : (s.sendTask ret).inRadio = s.inRadio := by simp [SendSide.sendTask, hnone]
    have hrefs₀ : s.d.refs = (s.d.entry e).info :: rest.map fun e => (s.d.entry e).info := by
      rw [Dispatch.refs, show s.d.sendQueue = e :: rest from hq, List.map_cons]
    obtain ⟨hrefs, hother, hself⟩ := sendFail_running hq
    rw [← hd] at hrefs hother hself
    obtain ⟨rc, hsend, hstate⟩ := h.right.tracked (s.d.entry e).info
      (by rw [show s.books.refs = _ from hrefs₀]; exact .head _)
    rw [if_pos (show (s.books.info (s.d.entry e).info).failed = true from hfailed)] at hstate
    refine ⟨hinv, (congrArg Dispatch.state hd).trans ((sendFail_state _ e).trans hrun), ?_, ?_⟩
    · refine h.right.leave hrefs₀ hrefs hother rfl rfl rfl (fun _ _ => rfl) h.right.past ?_ ?_
      · intro _
        refine ⟨rc, hsend, ?_⟩
        rw [show ((s.sendTask ret).books.info (s.d.entry e).info).failed = true from hself,
          if_pos rfl]
        exact hstate
      · intro _ rc' hsend'
        obtain ⟨-, rfl⟩ := Prod.mk.inj (Option.some.inj (hsend.symm.trans hsend'))
        exact hstate
    · rw [hin, ← h.inv.busy, show s.d.radioBusy = false from hidle]
      exact fun hfalse => absurd hfalse Bool.false_ne_true
  · have hret : ret = .success := hcomp'.resolve_left fun hnone => by
      cases hsome.symm.trans hnone
    rw [if_neg (not_not_intro hret)] at hsend
    have hd : (s.sendTask ret).d = { s.d with sendTaskPosted := false, radioBusy := true } := hsend
    refine ⟨hinv, by rw [hd]; exact h.running, ?_, ?_⟩
    · rw [books, hd]
      exact h.right
    · intro _ j hj
      rw [hd] at hj ⊢
      have hj' : s.d.refs.head? = some j := hj
      rw [Dispatch.refs, show s.d.sendQueue = e :: rest from hq, List.map_cons,
        List.head?_cons, Option.some.injEq] at hj'
      rw [← hj']
      exact hfailed

theorem Fair.sendDone {s : SendSide} (h : s.Fair) (hin : s.inRadio.isSome = true)
    (delivered stop : Bool) : (s.sendDone delivered stop).Fair := by
  have hinv := h.inv.sendDone hin delivered stop
  have hnil : s.d.sendQueue ≠ [] := fun hnil => (h.inv.handed hin).1 (by
    rw [Dispatch.refs, hnil, List.map_nil])
  obtain ⟨e, rest, hq⟩ := List.exists_cons_of_ne_nil hnil
  have hrefs₀ : s.d.refs = (s.d.entry e).info :: rest.map fun e => (s.d.entry e).info := by
    rw [Dispatch.refs, hq, List.map_cons]
  have hsent := h.head hin (s.d.entry e).info (by rw [hrefs₀]; rfl)
  obtain ⟨hrefs, hother, hfragments, hattempts, hfailed, hsignal⟩ :=
    linkDone_running hq (by simp [h.running]) delivered
  obtain ⟨-, hstate⟩ := linkDone_cons hq delivered
  have hhead : s.head.toList = [(s.packet (s.d.entry e).info, s.upperData (s.d.entry e).info)] := by
    rw [SendSide.head, hq]
    rfl
  obtain ⟨rc, hsend, htracked⟩ := h.right.tracked (s.d.entry e).info
    (by rw [show s.books.refs = _ from hrefs₀]; exact .head _)
  rw [if_neg (by rw [show (s.books.info (s.d.entry e).info).failed = _ from hsent]; decide)]
    at htracked
  obtain ⟨rfl, hnone, hcount⟩ := htracked
  generalize (s.d.entry e).info = i at *
  generalize (rest.map fun e => (s.d.entry e).info) = rest' at *
  have hdone : (s.sendDone delivered stop).done =
      if (linkDone s.d delivered).2 then (s.packet i, s.upperData i) :: s.done else s.done := by
    rw [SendSide.sendDone, hhead]
    rfl
  refine ⟨hinv, ?_, ?_, fun hfalse => absurd hfalse Bool.false_ne_true⟩
  · refine hstate.trans ?_
    rw [h.running]
    rfl
  · have hcons : s.books.refs.count i = rest'.count i + 1 := by
      rw [show s.books.refs = _ from hrefs₀, List.count_cons_self]
    have hlt := (h.right.tracked i (by rw [show s.books.refs = _ from hrefs₀]; exact .head _)).lt
    have hsignals : (s.sendDone delivered stop).books.signals (s.packet i) =
        if (linkDone s.d delivered).2 then [(s.packet i, s.upperData i)] else [] := by
      rw [Books.signals, show (s.sendDone delivered stop).books.done = _ from hdone]
      have hnone' : s.done.filter (·.1 == s.packet i) = [] := hnone
      split
      · rw [List.filter_cons_of_pos (by simp), hnone']
      · exact hnone'
    refine h.right.leave (i := i) hrefs₀ hrefs hother rfl rfl rfl ?_ ?_ ?_ ?_
    · intro n hn
      rw [Books.signals, show (s.sendDone delivered stop).books.done = _ from hdone]
      have hn' : s.packet i ≠ n := Ne.symm hn
      split
      · exact List.filter_cons_of_neg (by simpa using hn')
      · rfl
    · intro signal hs
      rw [show (s.sendDone delivered stop).books.done = _ from hdone] at hs
      split at hs
      · rcases List.mem_cons.1 hs with rfl | hs
        · exact hlt
        · exact h.right.past signal hs
      · exact h.right.past signal hs
    · intro hrest
      have hmore := List.count_pos_iff.2 hrest
      refine ⟨.success, hsend, ?_⟩
      have hfailed' : ((s.sendDone delivered stop).books.info i).failed = !delivered := by
        refine hfailed.trans ?_
        rw [hsent, Bool.false_or]
      have hlast : ((s.d.info i).linkFragmentAttempts + 1 == (s.d.info i).linkFragments) = false := by
        rw [beq_eq_false_iff_ne]
        have hcount' : (s.d.info i).linkFragmentAttempts + s.books.refs.count i =
          (s.d.info i).linkFragments := hcount
        omega
      rw [hfailed', Books.Settled,
        show (s.sendDone delivered stop).books.packet i = s.packet i from rfl, hsignals, hsignal,
        hlast, Bool.or_false]
      cases delivered with
      | false => rfl
      | true =>
        refine ⟨rfl, rfl, ?_⟩
        rw [show (s.sendDone true stop).books.refs = _ from hrefs]
        refine (congrArg (· + _) hattempts).trans (Eq.trans ?_ hfragments.symm)
        have hcount' : (s.d.info i).linkFragmentAttempts + s.books.refs.count i =
          (s.d.info i).linkFragments := hcount
        omega
    · intro hrest rc' hsend'
      obtain ⟨-, rfl⟩ := Prod.mk.inj (Option.some.inj (hsend.symm.trans hsend'))
      have hlast : ((s.d.info i).linkFragmentAttempts + 1 == (s.d.info i).linkFragments) = true := by
        rw [beq_iff_eq]
        have hcount' : (s.d.info i).linkFragmentAttempts + s.books.refs.count i =
          (s.d.info i).linkFragments := hcount
        rw [List.count_eq_zero.2 hrest] at hcons
        omega
      rw [Books.Settled, show s.books.packet i = s.packet i from rfl, hsignals, hsignal, hlast,
        Bool.or_true]
      rfl

theorem Fair.step {s s' : SendSide} {e : Event} (h : s.Fair) (hcomp : e.Completes s)
    (hstep : runningMachine.step s e = some s') : s'.Fair := by
  obtain ⟨hrunning, hstep⟩ := Machine.restrict_step hstep
  cases e with
  | send data broadcast frags =>
    cases hstep
    exact h.send hcomp
  | sendTask ret =>
    by_cases hposted : s.d.sendTaskPosted = true
    · cases (if_pos hposted).symm.trans hstep
      exact h.sendTask hcomp
    · cases (if_neg hposted).symm.trans hstep
  | sendDone delivered stop =>
    by_cases hin : s.inRadio.isSome = true
    · cases (if_pos hin).symm.trans hstep
      exact h.sendDone hin delivered stop
    · cases (if_neg hin).symm.trans hstep
  | start _ => exact hrunning.elim
  | stop _ => exact hrunning.elim
  | startDone _ => exact hrunning.elim
  | stopDone _ => exact hrunning.elim

theorem fair_booted : booted.Fair where
  inv := ⟨whole_boot, rfl, (fun hin => nomatch hin), fun _ => rfl⟩
  running := rfl
  right :=
    { inj := fun _ hi => absurd hi List.not_mem_nil
      tracked := fun _ hi => absurd hi List.not_mem_nil
      gone := fun _ _ _ hsend => nomatch hsend
      past := fun _ hs => absurd hs List.not_mem_nil }
  head := fun hin => nomatch hin

/-- **Every accepted send completes once** in a run with the radio on in which the link refuses no
fragment and the first fragment of a packet can be cut. -/
theorem completed_once {h : List (SendSide × Event)} {s : SendSide} (hr : runningMachine.Run h s)
    (hcomp : ∀ st ∈ h, st.2.Completes st.1) : s.Completed ∧ ∀ st ∈ h, st.1.Completed := by
  have hall : s.Fair ∧ ∀ st ∈ h, st.1.Fair := by
    refine hr.inv_of_steps (C := fun s e => Event.Completes s e) ?_ ?_ hcomp
    · rintro s rfl
      exact fair_booted
    · intro s e s' hs he hst
      exact hs.step he hst
  exact ⟨hall.1.completed, fun st hst => (hall.2 st hst).completed⟩

/-- A packet of two fragments is delivered, and the next one is not. -/
theorem completed_once_two : ∃ h s, runningMachine.Run h s ∧
    s.done = [(1, 8), (0, 7)] ∧ s.Completed := by
  obtain ⟨h, s, hr, hp⟩ := Machine.exists_run_of_exec (M := runningMachine) (s := booted) rfl
    [.send 7 false [[1], [2]], .sendTask .success, .send 8 false [[3], [4]],
      .sendDone true true, .sendTask .success, .sendDone true true, .sendTask .success,
      .sendDone false true, .sendTask .success]
    (fun h s => s.done = [(1, 8), (0, 7)] && h.all fun st => st.2.Completes st.1)
    (by decide)
  simp only [Bool.and_eq_true, decide_eq_true_iff, List.all_eq_true] at hp
  exact ⟨h, s, hr, hp.1, (completed_once hr hp.2).1⟩

/-- **The link refuses the only fragment of a packet**, which was accepted: nothing is signalled. -/
theorem refused_never_completed : ∃ h s, runningMachine.Run h s ∧ ¬s.Completed := by
  obtain ⟨h, s, hr, hp⟩ := Machine.exists_run_of_exec (M := runningMachine) (s := booted) rfl
    [.send 7 false [[1]], .sendTask .fail]
    (fun _ s => s.sends[0]? = some (7, .success) && s.done = [] && s.d.sendQueue = [])
    (by decide)
  simp only [Bool.and_eq_true, decide_eq_true_iff] at hp
  refine ⟨h, s, hr, fun hdone => ?_⟩
  have hfirst := hdone 0 7 .success hp.1.1
  rw [if_pos rfl, hp.1.2, hp.2] at hfirst
  rcases hfirst with hfirst | ⟨hfirst, -⟩
  · cases hfirst
  · cases hfirst

end SendSide

end Blip
