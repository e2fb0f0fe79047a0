import Backip.Blip.Proof.Completion

/-!
# Which packets fit

`IPLower.send` takes a buffer and an entry for each fragment, and one more pair before it learns that
there is no further fragment. A packet of as many fragments as there are free buffers is queued whole
and refused (`Dispatch.send_fits`). `SendSide.Fits` says what a packet that fits is promised: all its
fragments are queued in order, and none is dropped later unless the link failed one of them.
-/

set_option autoImplicit false

namespace BackIP.Dispatch

variable {d : Dispatch} {i : Nat}

/-- The loop takes a pair for each fragment and one more. -/
theorem fragLoop_fits (h : d.Inv [i]) (origin : Origin) (broadcast : Bool)
    {frags : List (List UInt8)} (hfrags : ∀ data ∈ frags, data ≠ []) :
    (frags.length + d.sendQueue.length < nFragments →
      (fragLoop origin broadcast i frags d).2 = .success ∧
      ∃ ms : List Message, ms.map (·.data) = frags ∧
        (fragLoop origin broadcast i frags d).1.frames = d.frames ++ ms.map (i, ·)) ∧
    (nFragments ≤ frags.length + d.sendQueue.length →
      (fragLoop origin broadcast i frags d).2 = .eretry) := by
  induction frags generalizing d with
  | nil =>
    rcases getBuffers_spec h with ⟨hfull, hg⟩ | ⟨e, o, d₁, hg, ht⟩
    · simp only [fragLoop, hg]
      refine ⟨fun hroom => ?_, fun _ => trivial⟩
      rw [hfull] at hroom
      simp at hroom
    · simp only [fragLoop, hg]
      have hsame := getBuffers_same d
      rw [hg] at hsame
      have hroom := (ht origin []).custody.length_free
      rw [List.length_cons, List.length_range, (hsame.trans (fill_same _ o origin [])).sendQueue]
        at hroom
      refine ⟨fun _ => ⟨trivial, [], rfl, (putBuffers_spec (ht origin []) i).2.frames⟩,
        fun hfull => ?_⟩
      rw [List.length_nil] at hfull
      omega
  | cons data frags ih =>
    rcases getBuffers_spec h with ⟨hfull, hg⟩ | ⟨e, o, d₁, hg, ht⟩
    · simp only [fragLoop, hg]
      refine ⟨fun hroom => ?_, fun _ => trivial⟩
      rw [hfull] at hroom
      omega
    · simp only [fragLoop, hg]
      have hsame := getBuffers_same d
      rw [hg] at hsame
      have hqueue := (hsame.trans (fill_same _ o origin data)).sendQueue
      have ht := ht origin data
      have hroom := ht.custody.length_free
      rw [List.length_cons, List.length_range] at hroom
      obtain ⟨hinv, m, -, hdata, hgrows⟩ :=
        append_spec ht (List.mem_singleton_self i) broadcast
      have hdata : m.data = data := by
        rw [hdata]
        simp [fill]
      have hlen : ((d₁.fill o origin data).append i e o broadcast).sendQueue.length =
          d.sendQueue.length + 1 := by
        rw [← hqueue]
        simp [append, setInfo]
      have hne : ¬data.length ≤ 0 := by
        have := List.length_pos_iff.2 (hfrags data (by simp))
        omega
      obtain ⟨hfits, hretry⟩ := ih hinv fun x hx => hfrags x (.tail _ hx)
      rw [if_neg hne, if_neg (by omega), List.length_cons]
      rw [hlen] at hfits hretry
      refine ⟨fun hlt => ?_, fun hge => hretry (by omega)⟩
      obtain ⟨hret, ms, hms, hframes⟩ := hfits (by omega)
      refine ⟨hret, m :: ms, by rw [List.map_cons, hms, hdata], ?_⟩
      rw [hframes, hgrows.frames, List.append_assoc]
      rfl

/-- **What `IPLower.send` does with a packet, by the room there is.** -/
theorem send_fits (h : d.Whole []) (hrun : d.state = .running)
    (hinfo : d.sendInfoPool.toList ≠ []) (origin : Origin) (broadcast : Bool)
    {frags : List (List UInt8)} (hfrags : ∀ data ∈ frags, data ≠ []) :
    (frags.length + d.sendQueue.length < nFragments →
      (d.send origin broadcast frags).2 = .success ∧
      ∃ (i : Nat) (ms : List Message), i ∉ d.refs ∧ ms.map (·.data) = frags ∧
        (d.send origin broadcast frags).1.frames = d.frames ++ ms.map (i, ·)) ∧
    (nFragments ≤ frags.length + d.sendQueue.length →
      (d.send origin broadcast frags).2 = .eretry) := by
  rw [send, if_neg (not_not_intro hrun)]
  rcases getSendInfo_whole h with hnone | ⟨i, d₀, hg, hwhole, hi, hrefs, -⟩
  · obtain ⟨x, l, hpool⟩ := List.exists_cons_of_ne_nil hinfo
    have hsome := (PoolP.get_cons hpool).1
    rw [getSendInfo, show d.sendInfoPool.get = (some x, d.sendInfoPool.get.2) from
      Prod.ext hsome rfl] at hnone
    cases hnone
  · have hqueue : d₀.sendQueue = d.sendQueue ∧ d₀.frames = d.frames := by
      rw [getSendInfo] at hg
      split at hg
      · cases hg
      · cases hg
        exact ⟨rfl, rfl⟩
    obtain ⟨hfits, hretry⟩ := fragLoop_fits hwhole.toInv origin broadcast hfrags
    rw [hqueue.1] at hfits hretry
    simp only [hg]
    refine ⟨fun hlt => ?_, hretry⟩
    obtain ⟨hret, ms, hms, hframes⟩ := hfits hlt
    have hend := (send_end_spec (fragLoop_spec hwhole.toInv origin broadcast frags).1).2.frames
    refine ⟨hret, i, ms, hi, hms, ?_⟩
    rw [hend, hframes, hqueue.2, List.map_nil, List.append_nil]

end BackIP.Dispatch

namespace Blip

open BackIP Dispatch

namespace SendSide

/-- The link refuses a fragment of packet `n`, or does not deliver it. -/
def Event.Fails (n : Nat) (s : SendSide) : Event → Prop
  | .sendTask ret => ret ≠ .success ∧ s.d.toSend.isSome ∧ s.head.map (·.1) = some n
  | .sendDone delivered _ => delivered = false ∧ s.head.map (·.1) = some n
  | _ => False

/-- `sendTask` would drop the fragment at the head, one of packet `n`, without giving it to the
link. -/
def Drops (n : Nat) (s : SendSide) : Prop :=
  s.head.map (·.1) = some n ∧ s.d.radioBusy = false ∧ s.d.state = .running ∧ s.d.toSend = none

/-- What a packet that fits is promised by `IPLower.send` in the state `s` after `h`. -/
structure Fits (h : List (SendSide × Event)) (s : SendSide) (data : Nat) (broadcast : Bool)
    (frags : List (List UInt8)) : Prop where
  accepted : (s.send data broadcast frags).sends = s.sends ++ [(data, .success)]
  /-- Its fragments, with a `send_info` of their own, stand behind the others. -/
  queued : ∃ (i : Nat) (ms : List Message), i ∉ s.d.refs ∧ ms.map (·.data) = frags ∧
    (s.send data broadcast frags).d.frames = s.d.frames ++ ms.map (i, ·)
  /-- Whatever follows, one is dropped only after the link failed one. -/
  kept : ∀ h' s', machine.Run (h' ++ (s, .send data broadcast frags) :: h) s' →
    s'.Drops s.sends.length → ∃ p ∈ h', p.2.Fails s.sends.length p.1

/-! ## Which packets are marked as failed -/

/-- The packets in the queue have been numbered. -/
def Numbered (s : SendSide) : Prop := ∀ i ∈ s.d.refs, s.packet i < s.sends.length

/-- No fragment in the queue is of packet `n` and marked as failed. -/
def Unmarked (n : Nat) (s : SendSide) : Prop :=
  ∀ i ∈ s.d.refs, s.packet i = n → s.d.failed i = false

/-- What an event other than `IPLower.send` does to the packets: fragments leave the queue, and a
packet is marked when the link fails a fragment of it. -/
structure Passes (s s' : SendSide) (e : Event) : Prop where
  refs : ∀ i ∈ s'.d.refs, i ∈ s.d.refs
  packet : s'.packet = s.packet
  sends : s'.sends = s.sends
  marks : ∀ i, s'.d.failed i = true → s.d.failed i = true ∨ e.Fails (s.packet i) s

variable {s s' : SendSide}

theorem Passes.numbered {e : Event} (hp : Passes s s' e) (h : s.Numbered) : s'.Numbered := by
  intro i hi
  rw [hp.packet, hp.sends]
  exact h i (hp.refs i hi)

theorem Passes.unmarked {e : Event} {n : Nat} (hp : Passes s s' e) (h : s.Unmarked n)
    (hok : ¬e.Fails n s) : s'.Unmarked n := by
  intro i hi hn
  rw [hp.packet] at hn
  apply Bool.eq_false_iff.2
  intro hfailed
  rcases hp.marks i hfailed with hmark | hfails
  · rw [h i (hp.refs i hi) hn] at hmark
    cases hmark
  · rw [hn] at hfails
    exact hok hfails

theorem passes_same {e : Event} (hrefs : s'.d.refs = s.d.refs) (hinfo : s'.d.info = s.d.info)
    (hpacket : s'.packet = s.packet) (hsends : s'.sends = s.sends) : Passes s s' e where
  refs := by simp [hrefs]
  packet := hpacket
  sends := hsends
  marks i hi := by
    simp only [Dispatch.failed, hinfo] at hi
    exact .inl hi

theorem head_cons {e : Nat} {rest : List Nat} (hq : s.d.sendQueue = e :: rest) :
    s.head.map (·.1) = some (s.packet (s.d.entry e).info) := by
  simp [head, hq]

theorem refs_cons {e : Nat} {rest : List Nat} (hq : s.d.sendQueue = e :: rest) :
    s.d.refs = (s.d.entry e).info :: rest.map fun e => (s.d.entry e).info := by
  simp [Dispatch.refs, hq]

theorem passes_sendTask (s : SendSide) (ret : TinyError) :
    Passes s (s.sendTask ret) (.sendTask ret) := by
  rcases sendTask_cases { s.d with sendTaskPosted := false } ret with
    ⟨-, hsame⟩ | ⟨e, rest, hq, -, -, hcase⟩
  · exact passes_same (by simp only [sendTask, hsame]; rfl) (by simp only [sendTask, hsame]) rfl rfl
  obtain ⟨hrefs, hother, -⟩ := sendFail_running hq
  -- when the fragment is dropped, only its packet may be marked
  have hdropped : (s.sendTask ret).d = Dispatch.sendFail { s.d with sendTaskPosted := false } e →
      (s.d.failed (s.d.entry e).info = true ∨
        Event.Fails (s.packet (s.d.entry e).info) s (.sendTask ret)) →
      Passes s (s.sendTask ret) (.sendTask ret) := by
    intro hfail hhead
    refine ⟨?_, rfl, rfl, ?_⟩
    · intro i hi
      rw [hfail, hrefs] at hi
      rw [refs_cons hq]
      exact .tail _ hi
    · intro i hi
      by_cases heq : i = (s.d.entry e).info
      · rw [heq]
        exact hhead
      · rw [Dispatch.failed, hfail, hother i heq] at hi
        exact .inl hi
  rcases hcase with ⟨-, hfailed, hfail⟩ | ⟨hsome, -, hsend⟩
  · exact hdropped hfail (.inl hfailed)
  · by_cases hret : ret = .success
    · rw [if_neg (not_not_intro hret)] at hsend
      exact passes_same (by simp only [sendTask, hsend]; rfl) (by simp only [sendTask, hsend])
        rfl rfl
    · rw [if_pos hret] at hsend
      refine hdropped hsend (.inr ⟨hret, ?_, head_cons hq⟩)
      exact Option.isSome_iff_exists.2 ⟨_, hsome⟩

/-- `Ieee154Send.sendDone` marks the packet at the head, if the fragment was not delivered. -/
theorem linkDone_failed {d : Dispatch} {e : Nat} {rest : List Nat} (hq : d.sendQueue = e :: rest)
    (delivered : Bool) :
    (linkDone d delivered).1.refs = rest.map (fun e => (d.entry e).info) ∧
      ∀ j, (linkDone d delivered).1.failed j = true →
        d.failed j = true ∨ delivered = false ∧ j = (d.entry e).info := by
  by_cases hstop : d.state = .stopping
  · have hdone : (linkDone d delivered).1 = { Dispatch.dropHead
        { d with radioBusy := false, state := .stopped } e with sendTaskPosted := true } := by
      simp [linkDone, hq, hstop]
    rw [hdone]
    refine ⟨dropHead_refs hq, fun j hj => .inl ?_⟩
    have hinfo := congrFun (dropHead_info { d with radioBusy := false, state := .stopped } e) j
    rw [Dispatch.failed, hinfo] at hj
    by_cases heq : j = (d.entry e).info
    · subst heq
      rwa [Function.update_self] at hj
    · rwa [Function.update_of_ne heq] at hj
  · obtain ⟨hrefs, hother, -, -, hself, -⟩ := linkDone_running hq hstop delivered
    refine ⟨hrefs, fun j hj => ?_⟩
    by_cases heq : j = (d.entry e).info
    · rw [Dispatch.failed, heq, hself] at hj
      cases delivered with
      | true => exact .inl (by simpa [Dispatch.failed, heq] using hj)
      | false => exact .inr ⟨rfl, heq⟩
    · rw [Dispatch.failed, hother j heq] at hj
      exact .inl hj

theorem passes_sendDone (s : SendSide) (delivered stop : Bool) :
    Passes s (s.sendDone delivered stop) (.sendDone delivered stop) := by
  cases hq : s.d.sendQueue with
  | nil =>
    have hsame : (s.sendDone delivered stop).d = s.d := by
      simp [sendDone, linkDone, hq]
    exact passes_same (congrArg Dispatch.refs hsame) (congrArg Dispatch.info hsame) rfl rfl
  | cons e rest =>
    obtain ⟨hrefs, hmarks⟩ := linkDone_failed hq delivered
    refine ⟨?_, rfl, rfl, ?_⟩
    · intro i hi
      rw [show (s.sendDone delivered stop).d = (linkDone s.d delivered).1 from rfl, hrefs] at hi
      rw [refs_cons hq]
      exact .tail _ hi
    · intro i hi
      rcases hmarks i hi with hmark | ⟨hlost, rfl⟩
      · exact .inl hmark
      · exact .inr ⟨hlost, head_cons hq⟩

theorem passes_step {e : Event} (hsend : ∀ data broadcast frags, e ≠ .send data broadcast frags)
    (hstep : s.step e = some s') : Passes s s' e := by
  cases e with
  | send data broadcast frags => exact absurd rfl (hsend data broadcast frags)
  | sendTask ret =>
    simp only [step] at hstep
    split at hstep
    · cases hstep
      exact passes_sendTask s ret
    · cases hstep
  | sendDone delivered stop =>
    simp only [step] at hstep
    split at hstep
    · cases hstep
      exact passes_sendDone s delivered stop
    · cases hstep
  | start accepted =>
    cases hstep
    exact passes_same rfl rfl rfl rfl
  | stop accepted =>
    cases hstep
    unfold SendSide.stop
    split <;> exact passes_same rfl rfl rfl rfl
  | startDone success =>
    simp only [step] at hstep
    split at hstep
    · cases hstep
      unfold startDone
      split <;> exact passes_same rfl rfl rfl rfl
    · cases hstep
  | stopDone success =>
    simp only [step] at hstep
    split at hstep
    · cases hstep
      exact passes_same rfl rfl rfl rfl
    · cases hstep

/-! ## What `IPLower.send` does to the packets -/

/-- A `send_info` in the queue is of a packet that was there before, or of the new one. -/
theorem send_packets (h : s.Inv) (data : Nat) (broadcast : Bool) (frags : List (List UInt8)) :
    ∀ j ∈ (s.send data broadcast frags).d.refs,
      (j ∈ s.d.refs ∧ (s.send data broadcast frags).packet j = s.packet j ∧
        (s.send data broadcast frags).d.failed j = s.d.failed j) ∨
      ((s.send data broadcast frags).packet j = s.sends.length ∧
        (s.send data broadcast frags).d.failed j =
          decide ((s.d.send .data broadcast frags).2 ≠ .success)) := by
  intro j hj
  rcases send_cases h.whole .data broadcast frags with
    ⟨hoff, hsame, -⟩ | ⟨i, k, hrun, hget, hi, hrefs, hother, hself, -⟩
  · have htaken : (if s.d.state = .running then s.d.getSendInfo.1 else none) = none := by
      split
      · rename_i hrun
        exact hoff.resolve_left (not_not_intro hrun)
      · rfl
    simp only [SendSide.send, hsame, htaken, Option.elim_none] at hj ⊢
    exact .inl ⟨hj, trivial, trivial⟩
  · simp only [SendSide.send, hrefs, hrun, hget, if_true, Option.elim_some] at hj ⊢
    by_cases hji : j = i
    · subst hji
      refine .inr ⟨Function.update_self .., ?_⟩
      rw [Dispatch.failed, hself]
    · rw [Function.update_of_ne hji, Dispatch.failed, hother j hji]
      refine .inl ⟨?_, rfl, rfl⟩
      rcases List.mem_append.1 hj with hj | hj
      · exact hj
      · exact absurd (List.eq_of_mem_replicate hj) hji

theorem sends_send (s : SendSide) (data : Nat) (broadcast : Bool) (frags : List (List UInt8)) :
    (s.send data broadcast frags).sends =
      s.sends ++ [(data, (s.d.send .data broadcast frags).2)] := rfl

theorem Numbered.send (h : s.Numbered) (hinv : s.Inv) (data : Nat) (broadcast : Bool)
    (frags : List (List UInt8)) : (s.send data broadcast frags).Numbered := by
  intro j hj
  rw [sends_send, List.length_append, List.length_singleton]
  rcases send_packets hinv data broadcast frags j hj with ⟨hold, hpacket, -⟩ | ⟨hnew, -⟩
  · rw [hpacket]
    exact Nat.lt_succ_of_lt (h j hold)
  · rw [hnew]
    exact Nat.lt_succ_self _

theorem Unmarked.send {n : Nat} (h : s.Unmarked n) (hinv : s.Inv) (hn : n < s.sends.length)
    (data : Nat) (broadcast : Bool) (frags : List (List UInt8)) :
    (s.send data broadcast frags).Unmarked n := by
  intro j hj hj'
  rcases send_packets hinv data broadcast frags j hj with ⟨hold, hpacket, hmark⟩ | ⟨hnew, -⟩
  · rw [hmark]
    exact h j hold (hpacket ▸ hj')
  · omega

/-- A packet that was accepted is not marked. -/
theorem unmarked_accepted (h : s.Numbered) (hinv : s.Inv) {data : Nat} {broadcast : Bool}
    {frags : List (List UInt8)} (hret : (s.d.send .data broadcast frags).2 = .success) :
    (s.send data broadcast frags).Unmarked s.sends.length := by
  intro j hj hj'
  rcases send_packets hinv data broadcast frags j hj with ⟨hold, hpacket, -⟩ | ⟨-, hmark⟩
  · have := h j hold
    omega
  · rw [hmark, hret]
    rfl

/-! ## Runs -/

theorem numbered_machine : machine.Inductive fun s => s.Inv ∧ s.Numbered where
  init s hs := by
    refine ⟨inv_machine.init s hs, ?_⟩
    obtain rfl := hs
    exact fun i hi => absurd hi List.not_mem_nil
  step s e s' h hstep := by
    refine ⟨h.1.step hstep, ?_⟩
    by_cases hsend : ∀ data broadcast frags, e ≠ .send data broadcast frags
    · exact (passes_step hsend hstep).numbered h.2
    · push Not at hsend
      obtain ⟨data, broadcast, frags, rfl⟩ := hsend
      cases hstep
      exact h.2.send h.1 data broadcast frags

/-- What is kept of a packet `n` whose fragments the link does not fail. -/
structure Keeping (n : Nat) (s : SendSide) : Prop where
  inv : s.Inv
  past : n < s.sends.length
  unmarked : s.Unmarked n

theorem Keeping.step {n : Nat} {e : Event} (h : s.Keeping n) (hok : ¬e.Fails n s)
    (hstep : s.step e = some s') : s'.Keeping n := by
  have hinv := h.inv.step hstep
  by_cases hsend : ∀ data broadcast frags, e ≠ .send data broadcast frags
  · have hp := passes_step hsend hstep
    exact ⟨hinv, by rw [hp.sends]; exact h.past, hp.unmarked h.unmarked hok⟩
  · push Not at hsend
    obtain ⟨data, broadcast, frags, rfl⟩ := hsend
    cases hstep
    refine ⟨hinv, ?_, h.unmarked.send h.inv h.past data broadcast frags⟩
    rw [sends_send, List.length_append]
    exact Nat.lt_add_right _ h.past

theorem Keeping.not_drops {n : Nat} (h : s.Keeping n) : ¬s.Drops n := by
  rintro ⟨hhead, hidle, hrun, hnone⟩
  cases hq : s.d.sendQueue with
  | nil => simp [head, hq] at hhead
  | cons e rest =>
    have hmark := h.unmarked (s.d.entry e).info (by simp [refs_cons hq])
      (Option.some.inj ((head_cons hq).symm.trans hhead))
    rw [toSend_cons hq (by simp [hidle, hrun]), if_neg (by simpa [Dispatch.failed] using hmark)]
      at hnone
    cases hnone

/-- **A packet is sent if and only if there is a buffer and an entry to spare.** -/
theorem fits_iff {h : List (SendSide × Event)} (hr : machine.Run h s)
    (hrun : s.d.state = .running) (hinfo : 0 < s.d.sendInfoPool.free) (data : Nat)
    (broadcast : Bool) {frags : List (List UInt8)} (hfrags : ∀ data ∈ frags, data ≠ []) :
    Fits h s data broadcast frags ↔
      frags.length < s.d.fragPool.free ∧ frags.length < s.d.sendEntryPool.free := by
  obtain ⟨hinv, hnum⟩ := hr.inv numbered_machine
  have hentries := hinv.whole.toInv.length
  have hbufs := hinv.whole.toInv.length_frag
  rw [PoolP.length_toList] at hentries hbufs
  have hnonempty : s.d.sendInfoPool.toList ≠ [] := by
    rw [← List.length_pos_iff, PoolP.length_toList]
    exact hinfo
  obtain ⟨hfits, hretry⟩ := send_fits hinv.whole hrun hnonempty .data broadcast hfrags
  constructor
  · intro hf
    have hret : (s.d.send .data broadcast frags).2 = .success := by
      have := hf.accepted
      rw [sends_send, List.append_cancel_left_eq] at this
      simpa using this
    by_contra hfull
    rw [hretry (by omega)] at hret
    cases hret
  · intro hroom
    obtain ⟨hret, hqueued⟩ := hfits (by omega)
    refine ⟨by rw [sends_send, hret], hqueued, ?_⟩
    intro h' s' hr' hdrops
    by_contra hfails
    push Not at hfails
    have hkeeping : (s.send data broadcast frags).Keeping s.sends.length :=
      ⟨hinv.send data broadcast frags, by simp [sends_send], unmarked_accepted hnum hinv hret⟩
    have hend := hr'.after (P := Keeping s.sends.length) (C := fun t e => ¬e.Fails s.sends.length t)
      (fun _ _ _ hk hc hs => hk.step hc hs) rfl hkeeping hfails
    exact hend.not_drops hdrops

/-- Eleven fragments fit into an empty queue. -/
theorem fits_eleven : ∃ h s, machine.Run h s ∧ s.d.fragPool.free = 12 ∧
    Fits h s 1 false (List.replicate 11 [3]) := by
  obtain ⟨h, s, hr, hp⟩ := Machine.exists_run_of_exec (M := machine) (s := boot) rfl
    [.start true, .startDone true]
    (fun _ s => s.d.state = .running && (s.d.sendInfoPool.free = 3 && (s.d.fragPool.free = 12 &&
      s.d.sendEntryPool.free = 12)))
    (by decide)
  simp only [Bool.and_eq_true, decide_eq_true_iff] at hp
  obtain ⟨hrun, hinfo, hbufs, hentries⟩ := hp
  refine ⟨h, s, hr, hbufs, (fits_iff hr hrun (by omega) 1 false ?_).2 ?_⟩
  · exact fun data hdata => by simp [List.eq_of_mem_replicate hdata]
  · rw [hbufs, hentries]
    decide

/-- Twelve do not, though there is a buffer and an entry for each. -/
theorem fits_not_twelve : ∃ h s, machine.Run h s ∧ s.d.state = .running ∧
    s.d.fragPool.free = 12 ∧ s.d.sendEntryPool.free = 12 ∧ 0 < s.d.sendInfoPool.free ∧
    ¬Fits h s 1 false (List.replicate 12 [3]) := by
  obtain ⟨h, s, hr, hp⟩ := Machine.exists_run_of_exec (M := machine) (s := boot) rfl
    [.start true, .startDone true]
    (fun _ s => s.d.state = .running && (s.d.sendInfoPool.free = 3 && (s.d.fragPool.free = 12 &&
      (s.d.sendEntryPool.free = 12 &&
      (s.send 1 false (List.replicate 12 [3])).sends = [(1, .eretry)]))))
    (by decide)
  simp only [Bool.and_eq_true, decide_eq_true_iff] at hp
  obtain ⟨hrun, hinfo, hbufs, hentries, hsends⟩ := hp
  refine ⟨h, s, hr, hrun, hbufs, hentries, by omega, fun hfits => ?_⟩
  have haccepted := hfits.accepted
  rw [hsends] at haccepted
  cases hs : s.sends with
  | nil =>
    rw [hs] at haccepted
    cases haccepted
  | cons x l => simp [hs] at haccepted

end SendSide

end Blip
