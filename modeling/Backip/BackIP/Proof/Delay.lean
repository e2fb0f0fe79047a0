import Backip.BackIP.Delay
import Backip.BackIP.Proof.QueueMemory

/-!
# What the delay trailer says

`sendDataTask` stamps every data frame each time it hands it over. The first stamp takes the frame's
slot, a frame that starts here never has one, and a frame of another length is stamped all the same:
so a trailer is right, or a frame unharmed, only if `Tracked` or `Untouched` holds when it is handed
over (`timeSpent_eq_iff_tracked`, `timeSpent_eq_iff_untouched`). If that is so each time, all
trailers delivered are right and all other bytes are those queued (`accounted_of_careful`); a frame
that is handed over twice is not (`accounted_false`).

The packets are where the moves of the abstract queue put them: the plain build makes the same step
in a memory that has the stamp already (`queueing_transmit`). `Kept` adds what is in their buffers.
-/

set_option autoImplicit false

namespace BackIP

/-! ## Words in a frame -/

section Words

variable {l : List UInt8} {i : Nat}

theorem wordAt_splice (h : i ≤ l.length) (x : UInt32) : wordAt (splice l i x.netBytes) i = x := by
  have hbyte : ∀ k, k < 4 → (splice l i x.netBytes).getD (i + k) 0 = x.netBytes.getD k 0 :=
    fun k hk => getD_splice h hk 0
  have h₀ := hbyte 0 (by decide)
  rw [Nat.add_zero] at h₀
  rw [wordAt, h₀, hbyte 1 (by decide), hbyte 2 (by decide), hbyte 3 (by decide)]
  exact word32_netBytes x

theorem drop_eq_getD_cons (h : i < l.length) : l.drop i = l.getD i 0 :: l.drop (i + 1) := by
  rw [List.drop_eq_getElem_cons h, List.getD_eq_getElem?_getD, List.getElem?_eq_getElem h,
    Option.getD_some]

theorem splice_wordAt (h : i + 4 ≤ l.length) : splice l i (wordAt l i).netBytes = l := by
  apply splice_self
  rw [UInt32.length_netBytes, wordAt, netBytes_word32, drop_eq_getD_cons (by omega),
    drop_eq_getD_cons (by omega), drop_eq_getD_cons (by omega), drop_eq_getD_cons (by omega)]
  rfl

end Words

namespace Message

/-- The frame with the destination `a`. -/
def readdress (m : Message) (a : LlAddr) : Message := { m with data := splice m.data 6 a.bytes }

end Message

/-- `data'` is `data` with the destinations of some hand-overs written into it. -/
def DstOnly (data data' : List UInt8) : Prop :=
  ∃ dsts : List LlAddr, data' = dsts.foldr (fun a l => splice l 6 a.bytes) data

theorem LlAddr.length_bytes_le (a : LlAddr) : a.bytes.length ≤ 8 := by
  cases a <;> simp [LlAddr.bytes]

namespace Delaying

variable {s s' : Delaying} {table : List DelaySlot} {g : Given} {m : Message} {now : UInt32}

/-- The frame with its new trailer. -/
def stamped (table : List DelaySlot) (m : Message) (now : UInt32) : Message :=
  { m with data := splice m.data (m.length - 4) (timeSpent table m now).netBytes }

/-- The frame `m` of 40 bytes, given as `g`, has a slot with the time it came and the trailer it was
given with; or it has no slot, and nothing but `PER_HOP_DELAY` is due. -/
def Tracked (table : List DelaySlot) (g : Given) (m : Message) (now : UInt32) : Prop :=
  (∃ i ∈ slotOf table m.seq,
      m.trailer - (table.getD i .zero).timeIn = g.frame.trailer - g.arrived) ∨
    slotOf table m.seq = none ∧ g.frame.trailer + (now - g.arrived) = 0

instance : Decidable (Tracked table g m now) := inferInstanceAs (Decidable (_ ∨ _))

/-- The frame `m` ends in what the stamp writes. -/
def Untouched (table : List DelaySlot) (m : Message) (now : UInt32) : Prop :=
  (∃ i ∈ slotOf table m.seq, now - (table.getD i .zero).timeIn + perHopDelay = 0) ∨
    slotOf table m.seq = none ∧ m.trailer = perHopDelay

instance : Decidable (Untouched table m now) := inferInstanceAs (Decidable (_ ∨ _))

/-- The trailer written is the one due. -/
theorem timeSpent_eq_iff_tracked :
    timeSpent table m now = g.frame.trailer + (now - g.arrived) + perHopDelay ↔
      Tracked table g m now := by
  rw [timeSpent, Tracked]
  cases slotOf table m.seq with
  | none =>
    simp only [Option.not_mem_none, false_and, exists_false, false_or, true_and]
    grind
  | some i =>
    simp only [Option.mem_some_iff, exists_eq_left', reduceCtorEq, false_and, or_false]
    generalize (table.getD i .zero).timeIn = t
    grind

/-- The trailer written is the one that is there. -/
theorem timeSpent_eq_iff_untouched :
    timeSpent table m now = m.trailer ↔ Untouched table m now := by
  rw [timeSpent, Untouched]
  cases slotOf table m.seq with
  | none =>
    simp only [Option.not_mem_none, false_and, exists_false, false_or, true_and]
    grind
  | some i =>
    simp only [Option.mem_some_iff, exists_eq_left', reduceCtorEq, false_and, or_false]
    generalize (table.getD i .zero).timeIn = t
    grind

/-- The frame `m`, given as `g`, may be handed to the neighbour `a`. -/
structure Stampable (table : List DelaySlot) (g : Given) (m : Message) (a : LlAddr)
    (now : UInt32) : Prop where
  ge : 8 ≤ m.length
  le : m.length ≤ m.data.length
  tracked : m.length = 40 → Tracked table g (m.readdress a) now
  untouched : m.length ≠ 40 → Untouched table (m.readdress a) now

instance {a : LlAddr} : Decidable (Stampable table g m a now) :=
  decidable_of_iff (8 ≤ m.length ∧ m.length ≤ m.data.length ∧
      (m.length = 40 → Tracked table g (m.readdress a) now) ∧
      (m.length ≠ 40 → Untouched table (m.readdress a) now))
    ⟨fun ⟨h₁, h₂, h₃, h₄⟩ => ⟨h₁, h₂, h₃, h₄⟩, fun ⟨h₁, h₂, h₃, h₄⟩ => ⟨h₁, h₂, h₃, h₄⟩⟩

/-- The frame as it is handed to the neighbour `a`. -/
def handedFrame (table : List DelaySlot) (m : Message) (a : LlAddr) (now : UInt32) : Message :=
  { stamped table (m.readdress a) now with maxRetries := 2, retryDelay := 50 }

namespace Stampable

variable {a : LlAddr} (h : Stampable table g m a now)

include h

theorem le_data : 6 ≤ m.data.length := by
  have hge := h.ge
  have hle := h.le
  omega

theorem le_readdressed : m.length ≤ (m.readdress a).data.length := by
  have hle := h.le
  have h6 := h.le_data
  simp only [Message.readdress, splice, List.length_append, List.length_take, List.length_drop]
  omega

theorem trailer : (handedFrame table m a now).trailer = timeSpent table (m.readdress a) now := by
  have hle := h.le_readdressed
  exact wordAt_splice (show m.length - 4 ≤ (m.readdress a).data.length by omega) _

/-- A frame of 40 bytes gets the trailer it should have. -/
theorem exact (hlen : m.length = 40) :
    (handedFrame table m a now).trailer = g.frame.trailer + (now - g.arrived) + perHopDelay := by
  rw [h.trailer]
  exact timeSpent_eq_iff_tracked.2 (h.tracked hlen)

/-- A frame of another length keeps all bytes but the destination's. -/
theorem same (hlen : m.length ≠ 40) :
    (handedFrame table m a now).data = (m.readdress a).data := by
  have htime : timeSpent table (m.readdress a) now = (m.readdress a).trailer :=
    timeSpent_eq_iff_untouched.2 (h.untouched hlen)
  have hle := h.le_readdressed
  have hge := h.ge
  refine (congrArg (fun x : UInt32 => splice _ (m.length - 4) x.netBytes) htime).trans ?_
  exact splice_wordAt (by omega)

/-- The stamp leaves the destination alone. -/
theorem readdress : splice (handedFrame table m a now).data 6 a.bytes =
    (handedFrame table m a now).data := by
  by_cases hlen : m.length = 40
  · have hle := h.le_readdressed
    have hbytes := a.length_bytes_le
    exact splice_splice_right (show 6 + a.bytes.length ≤ m.length - 4 by omega)
      (show m.length - 4 ≤ (m.readdress a).data.length by omega) h.le_data
  · rw [h.same hlen]
    exact splice_splice_self h.le_data

end Stampable

/-! ## A hand-over is one of the plain build -/

/-- The frame of a hand-over, and the queue after it. -/
theorem handOff_eq (s : Delaying) (q : QePtr) (len : Nat) (r : TinyError) (now : UInt32) :
    let msg := (s.queueing.qe q).msg
    let frame := handedFrame s.delaytable (s.queueing.mem msg) s.queueing.currNbLlAddr now
    (s.handOff q len r now).queueing =
        { s.queueing.handOff q len r with
          mem := Function.update s.queueing.mem msg frame
          calls := .subSendData q s.queueing.currNbLlAddr frame len r :: s.queueing.calls } ∧
      (s.handOff q len r now).log = .handed (s.given q) frame :: s.log := by
  intro msg frame
  constructor
  · simp only [handOff, stamp, Queueing.handOff, Queueing.rewriteDstLlAddr, Queueing.setLinkRetries,
      Queueing.record, Queueing.linkAccept, Function.update_self, Function.update_idem]
    rfl
  · simp only [handOff, stamp, Queueing.rewriteDstLlAddr, Queueing.setLinkRetries,
      Function.update_self, Function.update_idem]
    rfl

/-- The stamp can be made in advance, in the memory of the plain build. -/
theorem queueing_transmit {q : QePtr} (len : Nat) (r : TinyError)
    (h : Stampable s.delaytable g (s.queueing.mem (s.queueing.qe q).msg) s.queueing.currNbLlAddr
      now) :
    (s.transmit q len r now).queueing =
      (s.queueing.withMem (Function.update s.queueing.mem (s.queueing.qe q).msg
        { s.queueing.mem (s.queueing.qe q).msg with
          data := (handedFrame s.delaytable (s.queueing.mem (s.queueing.qe q).msg)
            s.queueing.currNbLlAddr now).data })).transmit q len r := by
  have hhand : (s.handOff q len r now).queueing =
      (s.queueing.withMem (Function.update s.queueing.mem (s.queueing.qe q).msg
        { s.queueing.mem (s.queueing.qe q).msg with
          data := (handedFrame s.delaytable (s.queueing.mem (s.queueing.qe q).msg)
            s.queueing.currNbLlAddr now).data })).handOff q len r := by
    rw [(s.handOff_eq q len r now).1]
    simp only [Queueing.handOff, Queueing.withMem, Queueing.rewriteDstLlAddr,
      Queueing.setLinkRetries, Queueing.record, Queueing.linkAccept, Function.update_self,
      Function.update_idem, h.readdress]
    rfl
  unfold transmit Queueing.transmit
  by_cases hr : r = .success
  · rw [if_pos hr, if_pos hr]
    exact hhand
  · rw [if_neg hr, if_neg hr]
    exact congrArg (Queueing.localSendFailed · q) hhand

/-- `sendDataTask` runs as in the plain build, or hands the packet on top over. -/
theorem sendDataTask_cases (s : Delaying) (nb : Option LlAddr) (r : TinyError) (now : UInt32) :
    (s.sendDataTask nb r now = { s with queueing := s.queueing.sendDataTask nb r } ∧
      (s.queueing.sendDataTask nb r).mem = s.queueing.mem ∧
      (s.queueing.sendDataTask nb r).pending = s.queueing.pending) ∨
    ∃ (a : LlAddr) (q : QePtr) (t : Queueing), nb = some a ∧ t = s.queueing.handing a ∧
      q = t.currentSendQe ∧ s.queueing.radioBusy = false ∧
      (s.queueing.found a).sendStack.empty = false ∧ (t.qe q).txCount < maxRetxAttempts ∧
      s.sendDataTask nb r now =
        { s with queueing := t }.transmit q (t.mem (t.qe q).msg).length r now ∧
      ∀ mem, (s.queueing.withMem mem).sendDataTask nb r =
        (t.withMem mem).transmit q (mem (t.qe q).msg).length r := by
  by_cases hbusy : s.queueing.radioBusy = true
  · refine .inl ⟨?_, ?_⟩
    · rw [sendDataTask, Queueing.sendDataTask, if_pos hbusy, if_pos hbusy]
    · rw [Queueing.sendDataTask, if_pos hbusy]
      exact ⟨rfl, rfl⟩
  obtain ⟨hmem, -, hpending⟩ := s.queueing.checkBp_fields
  by_cases hidle : (s.queueing.checkBp.sendStack.empty &&
      decide (s.queueing.checkBp.virtualQueueSize ≤ 0)) = true
  · have hplain : s.queueing.sendDataTask nb r = s.queueing.checkBp := by
      rw [Queueing.sendDataTask, if_neg hbusy]
      exact if_pos hidle
    refine .inl ⟨?_, ?_⟩
    · rw [hplain, sendDataTask, if_neg hbusy]
      exact if_pos hidle
    · rw [hplain]
      exact ⟨hmem, hpending⟩
  cases nb with
  | none =>
    have hplain : s.queueing.sendDataTask none r =
        { s.queueing.checkBp with txRetryTimer := some rerouteInterval } := by
      rw [Queueing.sendDataTask, if_neg hbusy]
      exact if_neg hidle
    refine .inl ⟨?_, ?_⟩
    · rw [hplain, sendDataTask, if_neg hbusy]
      exact if_neg hidle
    · rw [hplain]
      exact ⟨hmem, hpending⟩
  | some a =>
    have hsend : s.sendDataTask (some a) r now =
        { s with queueing := s.queueing.checkBp }.sendTo a r now := by
      rw [sendDataTask, if_neg hbusy]
      exact if_neg hidle
    obtain ⟨hmem', -, hpending', -⟩ := s.queueing.handing_fields a
    cases hne : (s.queueing.found a).sendStack.empty with
    | true =>
      have hplain : s.queueing.sendDataTask (some a) r =
          { s.queueing.found a with radioBusy := true }.sendNull := by
        rw [Queueing.sendDataTask_eq hbusy hidle]
        exact if_neg (show ¬(!(s.queueing.found a).sendStack.empty) = true by simp [hne])
      refine .inl ⟨?_, ?_⟩
      · rw [hplain, hsend]
        exact if_neg (show ¬(!(s.queueing.found a).sendStack.empty) = true by simp [hne])
      · rw [hplain]
        exact ⟨hmem', hpending'⟩
    | false =>
      have hdelay : s.sendDataTask (some a) r now =
          { s with queueing := { s.queueing.found a with radioBusy := true } }.sendData r now := by
        rw [hsend]
        exact if_pos (show (!(s.queueing.found a).sendStack.empty) = true by rw [hne]; rfl)
      by_cases htx : maxRetxAttempts ≤
          ((s.queueing.handing a).qe (s.queueing.handing a).currentSendQe).txCount
      · have hplain : s.queueing.sendDataTask (some a) r =
            (s.queueing.handing a).giveUp (s.queueing.handing a).currentSendQe := by
          rw [Queueing.sendDataTask_eq hbusy hidle, Queueing.sendTo_checkBp hne, if_pos htx]
        obtain ⟨hmem'', hpending''⟩ :=
          (s.queueing.handing a).giveUp_fields (s.queueing.handing a).currentSendQe
        refine .inl ⟨?_, ?_⟩
        · rw [hplain, hdelay]
          exact if_pos htx
        · rw [hplain]
          exact ⟨hmem''.trans hmem', hpending''.trans hpending'⟩
      · refine .inr ⟨a, _, _, rfl, rfl, rfl, Bool.not_eq_true _ ▸ hbusy, hne, Nat.not_le.1 htx, ?_,
          fun mem => ?_⟩
        · rw [hdelay]
          exact if_neg htx
        · have hidle' : ¬((s.queueing.withMem mem).checkBp.sendStack.empty &&
              decide ((s.queueing.withMem mem).checkBp.virtualQueueSize ≤ 0)) = true := by
            rw [Queueing.checkBp_withMem]
            exact hidle
          have hbusy' : ¬(s.queueing.withMem mem).radioBusy = true := hbusy
          have hne' : ((s.queueing.withMem mem).found a).sendStack.empty = false := by
            rw [Queueing.found_withMem]
            exact hne
          rw [Queueing.sendDataTask_eq hbusy' hidle', Queueing.sendTo_checkBp hne',
            Queueing.handing_withMem]
          exact if_neg htx

end Delaying

/-! ## The account -/

/-- `frame` is the frame given, apart from the destination and, if it has 40 bytes, the trailer. -/
def Given.Carries (g : Given) (frame : Message) : Prop :=
  frame.length = g.frame.length ∧ (g.frame.length ≠ 40 → DstOnly g.frame.data frame.data)

/-- A frame of 40 bytes has its time at this node and `PER_HOP_DELAY` on its trailer. -/
def Given.Exact (g : Given) (handedAt : UInt32) (frame : Message) : Prop :=
  g.frame.length = 40 →
    frame.trailer = g.frame.trailer + (handedAt - g.arrived) + perHopDelay

theorem Given.carries_self (g : Given) : g.Carries g.frame := ⟨rfl, fun _ => ⟨[], rfl⟩⟩

namespace Delaying

open QueueView

variable {s s' : Delaying}

/-- Each frame delivered has the right trailer, and each one handed over is the one given. -/
structure Accounted (s : Delaying) : Prop where
  delivered : ∀ g handedAt frame, .delivered g handedAt frame ∈ s.log → g.Exact handedAt frame
  handed : ∀ g frame, .handed g frame ∈ s.log → g.Carries frame

/-- The packet on top of the stack may be handed over. -/
def Careful (s : Delaying) : DelayEvent → Prop
  | .queue (.sendDataTask (some a) _) now _ => s.queueing.radioBusy = false →
      ∀ q ∈ s.queueing.sendStack.toList.getLast?, (s.queueing.qe q).txCount < maxRetxAttempts →
        Stampable s.delaytable (s.given q) (s.queueing.mem (s.queueing.qe q).msg) a now
  | _ => True

/-- What holds between events: the packets held are the frames given, the one at the link as it was
handed over. -/
structure Kept (s : Delaying) : Prop where
  inv : s.queueing.view.Inv
  held : ∀ q ∈ s.queueing.view.stack ++ s.queueing.view.inFlight,
    (s.given q).Carries (s.queueing.mem (s.queueing.view.msgOf q))
  flying : ∀ q ∈ s.queueing.view.inFlight,
    (s.given q).Exact s.handedAt (s.queueing.mem (s.queueing.view.msgOf q))
  accounted : s.Accounted

theorem kept_start : start.Kept where
  inv := Inv.init
  held q hq := by
    have hstack : start.queueing.view.stack = [] :=
      StackC.toList_init (fun _ => QePtr.null) (by decide : 0 < forwardingQueueSize)
    rw [hstack, inFlight_idle rfl] at hq
    cases hq
  flying q hq := by
    rw [inFlight_idle rfl] at hq
    cases hq
  accounted := ⟨nofun, nofun⟩

/-- Events that bring no packet and leave the frames held alone. -/
theorem Kept.frame (h : s.Kept) {t : Queueing} (hinv : t.view.Inv)
    (hk : Keeps s.queueing.view t.view) (hfl : ∀ q ∈ t.view.inFlight, q ∈ s.queueing.view.inFlight)
    (hmem : ∀ q ∈ t.view.stack ++ t.view.inFlight,
      t.mem (s.queueing.view.msgOf q) = s.queueing.mem (s.queueing.view.msgOf q)) :
    { s with queueing := t }.Kept where
  inv := hinv
  held q hq := by
    dsimp only
    rw [hk.msgOf, hmem q hq]
    exact h.held q (hk.held q hq)
  flying q hq := by
    dsimp only
    rw [hk.msgOf, hmem q (List.mem_append_right _ hq)]
    exact h.flying q (hfl q hq)
  accounted := ⟨h.accounted.delivered, h.accounted.handed⟩

theorem receive_eq (s : Delaying) (payload : List UInt8) (xlen : Nat) (now : UInt32) :
    ∃ table, s.receive payload xlen now = { s with delaytable := table } := by
  unfold receive
  split
  · split
    · exact ⟨_, rfl⟩
    · exact ⟨_, rfl⟩
  · exact ⟨_, rfl⟩

/-- What a hand-over leaves. -/
theorem transmit_fields (s : Delaying) (q : QePtr) (len : Nat) (r : TinyError) (now : UInt32) :
    let msg := (s.queueing.qe q).msg
    let frame := handedFrame s.delaytable (s.queueing.mem msg) s.queueing.currNbLlAddr now
    (s.transmit q len r now).queueing.mem = Function.update s.queueing.mem msg frame ∧
      (s.transmit q len r now).log = .handed (s.given q) frame :: s.log ∧
      (s.transmit q len r now).given = s.given ∧ (s.transmit q len r now).handedAt = now ∧
      (s.transmit q len r now).queueing.currentSendQe = s.queueing.currentSendQe := by
  intro msg frame
  obtain ⟨hqueueing, hlog⟩ := s.handOff_eq q len r now
  have hmem : (s.handOff q len r now).queueing.mem = Function.update s.queueing.mem msg frame := by
    rw [hqueueing]
  unfold transmit
  dsimp only
  split
  · exact ⟨hmem, hlog, rfl, rfl, rfl⟩
  · exact ⟨hmem, hlog, rfl, rfl, rfl⟩

/-- A packet whose frame the stamp gets right is handed over. -/
theorem Kept.handOver (h : s.Kept) {a : LlAddr} {now : UInt32} {q : QePtr}
    (hq : q ∈ s.queueing.view.stack) (hst : Stampable s.delaytable (s.given q)
      (s.queueing.mem (s.queueing.view.msgOf q)) a now) (hinv : s'.queueing.view.Inv)
    (hk : Keeps s.queueing.view s'.queueing.view)
    (hmem : s'.queueing.mem = Function.update s.queueing.mem (s.queueing.view.msgOf q)
      (handedFrame s.delaytable (s.queueing.mem (s.queueing.view.msgOf q)) a now))
    (hlog : s'.log = .handed (s.given q)
      (handedFrame s.delaytable (s.queueing.mem (s.queueing.view.msgOf q)) a now) :: s.log)
    (hgiven : s'.given = s.given) (hat : s'.handedAt = now)
    (hcur : s'.queueing.currentSendQe = q) : s'.Kept := by
  obtain ⟨hlen, hdata⟩ := h.held q (List.mem_append_left _ hq)
  generalize hm : s.queueing.mem (s.queueing.view.msgOf q) = m at hst hmem hlog hlen hdata
  have hcarries : (s.given q).Carries (handedFrame s.delaytable m a now) := by
    refine ⟨hlen, fun hne => ?_⟩
    obtain ⟨dsts, hdsts⟩ := hdata hne
    refine ⟨a :: dsts, ?_⟩
    rw [hst.same (by rw [hlen]; exact hne), List.foldr_cons, ← hdsts]
    rfl
  have hexact : (s.given q).Exact now (handedFrame s.delaytable m a now) := fun h40 =>
    hst.exact (by rw [hlen]; exact h40)
  refine ⟨hinv, fun q' hq' => ?_, fun q' hq' => ?_, ?_⟩
  · have hheld := hk.held q' hq'
    rw [hk.msgOf, hgiven, hmem]
    by_cases hne : q' = q
    · rw [hne, Function.update_self]
      exact hcarries
    · rw [Function.update_of_ne fun hmsg =>
        hne (h.inv.msgOf_inj hheld (List.mem_append_left _ hq) hmsg)]
      exact h.held q' hheld
  · obtain rfl : q' = q := by
      rw [← hcur]
      unfold inFlight at hq'
      split at hq'
      · exact List.mem_singleton.1 hq'
      · cases hq'
    rw [hk.msgOf, hgiven, hmem, Function.update_self, hat]
    exact hexact
  · constructor
    · intro g handedAt frame hmem'
      rw [hlog] at hmem'
      rcases List.mem_cons.1 hmem' with heq | hmem'
      · cases heq
      · exact h.accounted.delivered g handedAt frame hmem'
    · intro g frame hmem'
      rw [hlog] at hmem'
      rcases List.mem_cons.1 hmem' with heq | hmem'
      · cases heq
        exact hcarries
      · exact h.accounted.handed g frame hmem'

theorem Kept.sendDataTask (h : s.Kept) (hposted : s.queueing.sendDataPosted = true)
    {nb : Option LlAddr} {r : TinyError} {now arrived : UInt32}
    (hc : s.Careful (.queue (.sendDataTask nb r) now arrived)) :
    ({ s with queueing := { s.queueing with sendDataPosted := false } }.sendDataTask nb r
      now).Kept := by
  have hcases := ({ s with queueing := { s.queueing with sendDataPosted := false } } :
    Delaying).sendDataTask_cases nb r now
  generalize hs' : ({ s with queueing := { s.queueing with sendDataPosted := false } } :
    Delaying).sendDataTask nb r now = s' at hcases
  rcases hcases with ⟨rfl, hmem, hpending⟩ |
    ⟨a, q, t, rfl, ht, hq, hbusy, hne, htx, heq, hplain⟩
  · have hmove := Queueing.step_move h.inv (Queueing.step_sendDataTask hposted nb r)
    have hk := hmove.keeps h.inv nofun
    exact h.frame (h.inv.move hmove) hk (hk.flying (Nat.le_of_eq (congrArg List.length hpending)))
      fun q _ => congrFun hmem _
  · obtain ⟨hmem, hqe, hpending, hnb⟩ :=
      ({ s.queueing with sendDataPosted := false } : Queueing).handing_fields a
    rw [← ht] at hmem hqe hpending hnb
    have hlast : s.queueing.sendStack.toList.getLast? = some q := by
      rw [hq, ht]
      exact Queueing.getLast?_handing (s := { s.queueing with sendDataPosted := false })
        ⟨h.inv.custody, h.inv.msg_ne_frag, h.inv.link, h.inv.succeeds⟩ hne
    rw [hqe] at htx
    have hst := hc hbusy q hlast htx
    -- the plain build makes the same step in a memory that has the stamp already
    have hstamp : Stampable s.delaytable (s.given q) (t.mem (t.qe q).msg) t.currNbLlAddr now := by
      rw [hmem, hqe, hnb]
      exact hst
    have hqueueing := queueing_transmit (s := { s with queueing := t })
      (t.mem (t.qe q).msg).length r hstamp
    generalize hmem' : Function.update t.mem (t.qe q).msg { t.mem (t.qe q).msg with
      data := (handedFrame s.delaytable (t.mem (t.qe q).msg) t.currNbLlAddr now).data } = mem'
      at hqueueing
    have hlen : (mem' (t.qe q).msg).length = (t.mem (t.qe q).msg).length := by
      rw [← hmem', Function.update_self]
    have hstep : (s.queueing.withMem mem').step (.sendDataTask (some a) r) = some s'.queueing := by
      rw [Queueing.step_sendDataTask (s := s.queueing.withMem mem') hposted, heq, hqueueing, ← hlen]
      exact congrArg some (hplain mem')
    have hmove : Move s.queueing.view (.sendDataTask (some a) r) s'.queueing.view :=
      Queueing.step_move (s := s.queueing.withMem mem') h.inv hstep
    obtain ⟨hmem₁, hlog, hgiven, hat, hcur⟩ := transmit_fields { s with queueing := t } q
      (t.mem (t.qe q).msg).length r now
    rw [← heq] at hmem₁ hlog hgiven hat hcur
    dsimp only at hmem₁ hlog
    rw [hmem, hqe, hnb] at hmem₁ hlog
    exact h.handOver (List.mem_of_getLast? hlast) hst (h.inv.move hmove) (hmove.keeps h.inv nofun)
      hmem₁ hlog hgiven hat (hcur.trans hq.symm)

theorem Kept.send (h : s.Kept) (i : Nat) (frame : Message) (len : Nat) (r : TinyError) (now : Nat)
    (arrived : UInt32) {t : Queueing}
    (ht : s.queueing.step (.send i frame len r now) = some t) :
    (s.note (.send i frame len r now) arrived t).Kept := by
  have hmove := Queueing.step_move h.inv ht
  have hinv := h.inv.move hmove
  obtain ⟨hmem, hnew⟩ := Queueing.send_mem h.inv i frame len r now (Option.some.inj ht)
  have hfrag := h.inv.msg_ne_frag
  generalize hv : t.view = v' at hmove hinv
  have hnone {calls : List Call} (hcalls : v'.calls = calls) (hq : queuedIn calls = none) :
      s.note (.send i frame len r now) arrived t = { s with queueing := t } := by
    have hcalls' : t.calls = calls := (congrArg QueueView.calls hv).trans hcalls
    rw [note, hcalls', hq]
  cases hmove with
  | bypassBusy i frame len r now hf hb =>
    rw [hnone rfl rfl]
    refine h.frame (hv ▸ hinv) ?_ ?_ fun q _ => hmem _ (hfrag q) (.inl hf)
    · rw [hv]
      exact ⟨fun _ hq => hq, fun _ => rfl, fun _ _ hq => hq⟩
    · rw [hv]
      exact fun _ hq => hq
  | bypass i frame len r now hf hb =>
    rw [hnone rfl (by cases r <;> rfl)]
    have hidle : t.view.inFlight = [] := by
      have hp := (h.inv.idle hb).1
      rw [hv]
      refine if_neg fun hin => ?_
      by_cases hr : r = .success
      · rw [if_pos hr, hp] at hin
        exact hfrag _ i (List.mem_singleton.1 hin)
      · rw [if_neg hr, hp] at hin
        cases hin
    refine h.frame (hv ▸ hinv) ?_ ?_ fun q _ => hmem _ (hfrag q) (.inl hf)
    · refine .of_idle hidle (fun q hq => List.mem_append_left _ ?_) fun _ => by rw [hv]; rfl
      rw [hv] at hq
      exact hq
    · rw [hidle]
      nofun
  | refuse i frame len r now hf hfree =>
    rw [hnone rfl rfl]
    have hkeeps := s.queueing.view.discard_keeps
    refine h.frame (hv ▸ hinv) ?_ ?_ fun q _ => hmem _ (hfrag q) (.inr (by rw [hfree]; nofun))
    · rw [hv]
      exact ⟨hkeeps.held, hkeeps.msgOf, hkeeps.flying⟩
    · rw [hv]
      exact fun _ hq => hq
  | accept i frame len r now m free q freeQe hf hfree hfreeQe =>
    have hnote : s.note (.send i frame len r now) arrived t =
        { s with
          queueing := t
          given := Function.update s.given q ⟨{ frame with length := len }, arrived⟩ } := by
      have hcalls : t.calls = _ := congrArg QueueView.calls hv
      rw [note, hcalls]
      rfl
    have hd := h.inv.discard
    have hout := hd.not_mem_held hfreeQe
    have hinflight : t.view.inFlight = s.queueing.view.inFlight := by
      rw [hv]
      exact hd.inFlight_accept hfree hfreeQe now _ rfl rfl rfl
    have hmsgOf : ∀ q', q' ≠ q → t.view.msgOf q' = s.queueing.view.msgOf q' := fun q' hne => by
      rw [hv]
      exact congrArg QueueEntry.msg (Function.update_of_ne hne _ _)
    -- a packet held before is in another entry and another buffer
    have hold : ∀ q' ∈ s.queueing.view.discard.stack ++ s.queueing.view.inFlight, q' ≠ q ∧
        t.mem (t.view.msgOf q') = s.queueing.mem (s.queueing.view.msgOf q') := fun q' hq' => by
      have hne : q' ≠ q := fun heq => hout (heq ▸ hq')
      refine ⟨hne, ?_⟩
      rw [hmsgOf q' hne]
      refine hmem _ (hfrag q') (.inr fun hin => ?_)
      exact hd.custody.not_mem_held_map buffers_nodup hin (List.mem_map_of_mem hq')
    rw [hnote]
    refine ⟨hv ▸ hinv, fun q' hq' => ?_, fun q' hq' => ?_, h.accounted.delivered,
      h.accounted.handed⟩
    · dsimp only at hq' ⊢
      rw [hinflight] at hq'
      by_cases hne : q' = q
      · subst hne
        have hmsg : t.view.msgOf q' = m := by
          rw [hv]
          simp [QueueView.msgOf]
        rw [Function.update_self, hmsg, hnew m free (Bool.not_eq_true _ ▸ hf) hfree]
        exact Given.carries_self _
      · have hheld : q' ∈ s.queueing.view.discard.stack ++ s.queueing.view.inFlight := by
          rcases List.mem_append.1 hq' with hq' | hq'
          · rw [hv] at hq'
            rcases List.mem_append.1 hq' with hq' | hq'
            · exact List.mem_append_left _ hq'
            · exact absurd (List.mem_singleton.1 hq') hne
          · exact List.mem_append_right _ hq'
        rw [Function.update_of_ne hne, (hold q' hheld).2]
        exact h.held q' (s.queueing.view.discard_keeps.held q' hheld)
    · dsimp only at hq' ⊢
      rw [hinflight] at hq'
      obtain ⟨hne, hsame⟩ := hold q' (List.mem_append_right _ hq')
      rw [Function.update_of_ne hne, hsame]
      exact h.flying q' hq'

theorem Kept.subSendDone (h : s.Kept) {msg : MsgPtr} {error : TinyError} {delivered : Bool}
    {now : Nat} (arrived : UInt32) {t : Queueing}
    (ht : s.queueing.step (.subSendDone msg error delivered now) = some t) :
    (s.note (.subSendDone msg error delivered now) arrived t).Kept := by
  have hmove := Queueing.step_move h.inv ht
  have hk := hmove.keeps h.inv nofun
  obtain ⟨hm, ht'⟩ := Option.ite_none_right_eq_some.1 ht
  obtain ⟨hmem, hpending⟩ :=
    ({ s.queueing with pending := s.queueing.pending.erase msg } : Queueing).subSendDone_fields msg
      error delivered now
  rw [Option.some.inj ht'] at hmem hpending
  have hlen : t.pending.length ≤ s.queueing.pending.length := by
    rw [hpending]
    exact List.Sublist.length_le List.erase_sublist
  have hbase : { s with queueing := t }.Kept :=
    h.frame (h.inv.move hmove) hk (hk.flying hlen) fun q _ => congrFun hmem _
  cases delivered with
  | false => exact hbase
  | true =>
    by_cases hsup : s.queueing.suppressSendDone = true
    · obtain ⟨hmsg, hdata, -, -⟩ := h.inv.data hm hsup
      have hflying := h.flying s.queueing.currentSendQe (by
        rw [inFlight_data hdata]
        exact .head _)
      rw [note, if_pos hsup]
      refine ⟨hbase.inv, hbase.held, hbase.flying, ?_, fun g frame hin => ?_⟩
      · intro g handedAt frame hin
        rcases List.mem_cons.1 hin with heq | hin
        · cases heq
          rw [hmsg]
          exact hflying
        · exact h.accounted.delivered g handedAt frame hin
      · rcases List.mem_cons.1 hin with heq | hin
        · cases heq
        · exact h.accounted.handed g frame hin
    · rw [note, if_neg hsup]
      exact hbase

/-- An event that is not a run of `sendDataTask`. -/
theorem step_queue {e : QEvent} {now arrived : UInt32}
    (hs : s.step (.queue e now arrived) = some s') (he : ∀ nb r, e ≠ .sendDataTask nb r) :
    ∃ t, s.queueing.step e = some t ∧ s.note e arrived t = s' := by
  cases e with
  | sendDataTask nb r => exact absurd rfl (he nb r)
  | _ => exact Option.map_eq_some_iff.1 hs

/-- Careful events keep what holds. -/
theorem Kept.step (h : s.Kept) {e : DelayEvent} (hc : s.Careful e) (hs : s.step e = some s') :
    s'.Kept := by
  cases e with
  | receive payload xlen now =>
    obtain ⟨table, htable⟩ := s.receive_eq payload xlen now
    cases hs
    rw [htable]
    exact ⟨h.inv, h.held, h.flying, h.accounted.delivered, h.accounted.handed⟩
  | queue e now arrived =>
    -- events that do not touch the frames
    have hplain {t : Queueing} (ht : s.queueing.step e = some t)
        (he : ∀ i frame len r now, e ≠ .send i frame len r now)
        (hmem : t.mem = s.queueing.mem) (hp : t.pending = s.queueing.pending) :
        { s with queueing := t }.Kept := by
      have hmove := Queueing.step_move h.inv ht
      have hk := hmove.keeps h.inv he
      exact h.frame (h.inv.move hmove) hk
        (hk.flying (Nat.le_of_eq (congrArg List.length hp))) fun q _ => congrFun hmem _
    cases e with
    | sendDataTask nb r =>
      obtain ⟨hposted, hs'⟩ := Option.ite_none_right_eq_some.1 hs
      cases hs'
      exact h.sendDataTask hposted hc
    | send i frame len r time =>
      obtain ⟨t, ht, rfl⟩ := step_queue hs nofun
      exact h.send i frame len r time arrived ht
    | subSendDone msg error delivered time =>
      obtain ⟨t, ht, rfl⟩ := step_queue hs nofun
      exact h.subSendDone arrived ht
    | sendingBeacon =>
      obtain ⟨t, ht, rfl⟩ := step_queue hs nofun
      cases ht
      exact hplain rfl nofun rfl rfl
    | txRetryTimerFired =>
      obtain ⟨t, ht, rfl⟩ := step_queue hs nofun
      obtain ⟨-, ht'⟩ := Option.ite_none_right_eq_some.1 ht
      cases ht'
      exact hplain ht nofun rfl rfl
    | signalDone =>
      obtain ⟨t, ht, rfl⟩ := step_queue hs nofun
      obtain ⟨-, ht'⟩ := Option.ite_none_right_eq_some.1 ht
      cases ht'
      exact hplain ht nofun rfl rfl

/-- **The trailers are right, and all other bytes are as they were queued**, in a run in which each
frame handed over is one the stamp gets right. -/
theorem accounted_of_careful {h : List (Delaying × DelayEvent)} (hr : machine.Run h s)
    (hc : ∀ p ∈ h, p.1.Careful p.2) : s.Accounted ∧ ∀ p ∈ h, p.1.Accounted := by
  obtain ⟨hs, hh⟩ := hr.inv_of_steps (P := Kept)
    (fun s hi => by rw [show s = start from hi]; exact kept_start)
    (fun _ _ _ hk hc hst => hk.step hc hst) hc
  exact ⟨hs.accounted, fun p hp => (hh p hp).accounted⟩

instance (s : Delaying) : (e : DelayEvent) → Decidable (s.Careful e)
  | .queue (.sendDataTask (some a) _) now _ => inferInstanceAs (Decidable
      (s.queueing.radioBusy = false → ∀ q ∈ s.queueing.sendStack.toList.getLast?,
        (s.queueing.qe q).txCount < maxRetxAttempts →
          Stampable s.delaytable (s.given q) (s.queueing.mem (s.queueing.qe q).msg) a now))
  | .queue (.sendDataTask none _) _ _ | .queue .sendingBeacon _ _ | .queue (.send ..) _ _
  | .queue .txRetryTimerFired _ _ | .queue .signalDone _ _ | .queue (.subSendDone ..) _ _
  | .receive .. => .isTrue trivial

/-- A frame of 40 bytes with the number 1 and 5 on its trailer. -/
def exampleFrame : Message :=
  ⟨List.replicate 32 0 ++ [0, 0, 0, 1] ++ [0, 0, 0, 5], 40, 0, 0, .data⟩

/-- It is received at 100, handed over at 110 and delivered. -/
theorem accounted_delivered : ∃ h s, machine.Run h s ∧ s.log.length = 2 ∧ s.Accounted := by
  obtain ⟨h, s, hr, hp⟩ := Machine.exists_run_of_exec (M := machine) rfl
    [.receive exampleFrame.data 40 100, .queue (.send 0 exampleFrame 40 .success 101) 101 100,
      .queue (.sendDataTask (some (.short 1)) .success) 110 0,
      .queue (.subSendDone (.pool 0) .success true 120) 120 0]
    (fun h s => s.log.length = 2 && decide (∀ p ∈ h, p.1.Careful p.2)) (by decide)
  rw [Bool.and_eq_true, decide_eq_true_iff] at hp
  exact ⟨h, s, hr, hp.1, (accounted_of_careful hr (of_decide_eq_true hp.2)).1⟩

/-- The last of the log is a delivery of 40 bytes whose delay is not what its trailer says. -/
def miscounted (s : Delaying) : Bool :=
  match s.log with
  | .delivered g handedAt frame :: _ => decide (g.frame.length = 40 ∧
      frame.trailer ≠ g.frame.trailer + (handedAt - g.arrived) + perHopDelay)
  | _ => false

/-- It is not acknowledged and handed over again, when its slot is free: only `PER_HOP_DELAY` is on
its trailer. -/
theorem accounted_false : ¬∀ (h : List (Delaying × DelayEvent)) (s : Delaying),
    machine.Run h s → s.Accounted := by
  intro hall
  obtain ⟨h, s, hr, hp⟩ := Machine.exists_run_of_exec (M := machine) rfl
    [.receive exampleFrame.data 40 100, .queue (.send 0 exampleFrame 40 .success 101) 101 100,
      .queue (.sendDataTask (some (.short 1)) .success) 110 0,
      .queue (.subSendDone (.pool 0) .success false 120) 120 0,
      .queue (.sendDataTask (some (.short 1)) .success) 150 0,
      .queue (.subSendDone (.pool 0) .success true 160) 160 0]
    (fun _ s => s.miscounted) (by decide)
  unfold miscounted at hp
  split at hp
  · rename_i g handedAt frame log hlog
    obtain ⟨h40, hne⟩ := of_decide_eq_true hp
    exact hne ((hall h s hr).delivered g handedAt frame (hlog ▸ .head _) h40)
  · cases hp

end Delaying

end BackIP
