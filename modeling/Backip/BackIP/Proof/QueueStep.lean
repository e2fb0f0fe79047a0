import Backip.BackIP.Proof.QueueInv

/-!
# The code's handlers make the moves of the abstract queue

Each function of `BackIPQueueingP` has a lemma `view_…` that gives the view after it, under what
the invariant says about the state it is called in: that a push finds room and a buffer put back is
missing from its pool. With one case for each handler they make `Queueing.step_move`: **a step of
the code from a state that keeps the invariant is a move**, so every state of every run keeps it
(`Queueing.reachable_inv`) and every step of every run is a move (`Queueing.Run.move`).
-/

set_option autoImplicit false

namespace BackIP.Queueing

open QueueView

variable {s : Queueing}

attribute [local irreducible] inc16 dec16

/-! ## The wired components -/

theorem view_record (s : Queueing) (c : Call) :
    (s.record c).view = { s.view with calls := c :: s.view.calls } := rfl

theorem view_putMessage (msg : MsgPtr) (h : s.view.free.length < forwardingQueueSize) :
    (s.putMessage msg).view =
      { s.view with
        free := s.view.free ++ [msg]
        calls := .messagePut .success :: s.view.calls } := by
  obtain ⟨h1, h2⟩ := PoolP.put_ok msg h
  simp only [putMessage, view_record, h1]
  simp only [view, h2]

theorem view_putQEntry (q : QePtr) (h : s.view.freeQe.length < forwardingQueueSize) :
    (s.putQEntry q).view =
      { s.view with
        freeQe := s.view.freeQe ++ [q]
        calls := .qEntryPut .success :: s.view.calls } := by
  obtain ⟨h1, h2⟩ := PoolP.put_ok q h
  simp only [putQEntry, view_record, h1]
  simp only [view, h2]

theorem view_pushTop (q : QePtr) (h : s.view.stack.length < forwardingQueueSize) :
    (s.pushTop q).view =
      { s.view with
        stack := s.view.stack ++ [q]
        calls := .pushTop .success :: s.view.calls } := by
  obtain ⟨h1, h2⟩ := StackC.toList_pushTop q h
  simp only [pushTop, view_record, h1]
  simp only [view, h2]

/-- The stack's size is the length of the list of its elements. -/
theorem size_eq (s : Queueing) : s.sendStack.size = s.view.stack.length :=
  (StackC.length_toList _).symm

theorem empty_iff (s : Queueing) : s.sendStack.empty = true ↔ s.view.stack = [] :=
  StackC.empty_iff _

/-! ## `conditionalDiscard` -/

theorem view_discardOne {q : QePtr} {rest : List QePtr} (hs : s.view.stack = q :: rest)
    (hfree : s.view.free.length < forwardingQueueSize)
    (hfreeQe : s.view.freeQe.length < forwardingQueueSize) :
    s.discardOne.view =
      { s.view with
        stack := rest
        free := s.view.free ++ [s.view.msgOf q]
        freeQe := s.view.freeQe ++ [q]
        virtual := inc16 s.view.virtual
        calls := .qEntryPut .success :: .messagePut .success :: .discard q :: s.view.calls } := by
  obtain ⟨h1, h2⟩ := StackC.toList_popBottom hs
  generalize hs1 : { s with sendStack := s.sendStack.popBottom.2 }.record (.discard q) = s1
  have hv1 : s1.view = { s.view with stack := rest, calls := .discard q :: s.view.calls } := by
    rw [← hs1, view_record]
    simp only [view, h2]
  have hv2 := view_putMessage (s := s1) (s.view.msgOf q) (by rw [hv1]; exact hfree)
  have hv3 := view_putQEntry (s := s1.putMessage (s.view.msgOf q)) q
    (by rw [hv2, hv1]; exact hfreeQe)
  have hqe : s1.qe = s.qe := by rw [← hs1]; rfl
  have hv4 : s.discardOne.view = { ((s1.putMessage (s.view.msgOf q)).putQEntry q).view with
      virtual := inc16 ((s1.putMessage (s.view.msgOf q)).putQEntry q).view.virtual } := by
    simp only [discardOne, h1, hs1, hqe]
    rfl
  rw [hv4, hv3, hv2, hv1]

theorem conditionalDiscard_of_room (h : s.view.stack.length ≠ forwardingQueueSize) :
    s.conditionalDiscard = s := by
  unfold conditionalDiscard
  cases hn : s.sendStack.size with
  | zero => rfl
  | succ n =>
    rw [discardLoop, if_neg]
    have hle := s.sendStack.length_le
    rw [← size_eq] at h
    rw [StackC.length_toList] at hle
    simp only [StackC.maxSize]
    omega

theorem view_conditionalDiscard
    (hfree : s.view.free.length + s.view.stack.length ≤ forwardingQueueSize)
    (hfreeQe : s.view.freeQe.length + s.view.stack.length ≤ forwardingQueueSize) :
    s.conditionalDiscard.view = s.view.discard := by
  rcases s.view.discard_cases with ⟨hd, hne⟩ | ⟨q, rest, hs, hlen, hd⟩
  · rw [conditionalDiscard_of_room hne, hd]
  · have h10 : 0 < forwardingQueueSize := by decide
    have hv := view_discardOne hs (by omega) (by omega)
    have hsize : s.sendStack.size = rest.length + 1 := by rw [size_eq, hs]; rfl
    rw [hd, ← hv, conditionalDiscard, hsize, discardLoop, if_pos]
    · -- one turn makes room
      have hrest : s.discardOne.sendStack.size = rest.length := by rw [size_eq, hv]
      rw [← hrest]
      refine congrArg view (conditionalDiscard_of_room ?_)
      rw [← size_eq, hrest]
      rw [hs, List.length_cons] at hlen
      omega
    · exact Nat.le_of_eq (by rw [StackC.maxSize, size_eq, hlen])

/-- In a state that keeps the invariant, `conditionalDiscard` discards. -/
theorem view_conditionalDiscard_inv (hv : s.view.Inv) :
    s.conditionalDiscard.view = s.view.discard := by
  have h1 := hv.length_free
  have h2 := hv.length_freeQe
  exact view_conditionalDiscard (by omega) (by omega)

/-- `check_bp` may ask for a beacon, and does nothing else. -/
theorem view_checkBp (s : Queueing) : ∃ beacon, s.checkBp.view = s.view.check beacon := by
  unfold checkBp
  split
  · exact ⟨true, rfl⟩
  · exact ⟨false, rfl⟩

/-! ## `sendDataTask` -/

theorem view_giveUp (q : QePtr) (h : s.view.stack.length < forwardingQueueSize) :
    (s.giveUp q).view =
      { s.view with
        sending := 0
        stack := s.view.stack ++ [q]
        qe := Function.update s.view.qe q { s.view.qe q with txCount := 0 }
        busy := false
        timer := true
        calls := .pushTop .success :: .giveUp q s.view.nb (2 * maxRetxAttempts) ::
          s.view.calls } := by
  generalize hs1 : { s with
      sendStats := { s.sendStats with droppedFail := inc16 s.sendStats.droppedFail }
      sendingData := 0 }.record (.giveUp q s.currNbLlAddr (2 * maxRetxAttempts)) = s1
  have hv1 : s1.view = { s.view with
      sending := 0
      calls := .giveUp q s.view.nb (2 * maxRetxAttempts) :: s.view.calls } := by
    rw [← hs1]; rfl
  have hd : s1.conditionalDiscard = s1 :=
    conditionalDiscard_of_room (by rw [hv1]; exact Nat.ne_of_lt h)
  have hqe : s1.qe = s.qe := by rw [← hs1]; rfl
  generalize hs2 : { s1 with qe := Function.update s.qe q { s.qe q with txCount := 0 } } = s2
  have hv2 : s2.view = { s1.view with
      qe := Function.update s.view.qe q { s.view.qe q with txCount := 0 } } := by
    rw [← hs2]; rfl
  have hv3 := view_pushTop (s := s2) q (by rw [hv2, hv1]; exact h)
  have hv4 : (s.giveUp q).view = { (s2.pushTop q).view with busy := false, timer := true } := by
    simp only [giveUp, hs1, hd, hqe, hs2]
    rfl
  rw [hv4, hv3, hv2, hv1]

/-- The packet is counted and the link has answered. -/
theorem view_handOff (q : QePtr) (len : Nat) (r : TinyError)
    (ht : (s.view.qe q).txCount < maxRetxAttempts) :
    ∃ frame, (s.handOff q len r).view =
      { s.view with
        suppress := true
        sending := 1
        qe := Function.update s.view.qe q
          { s.view.qe q with txCount := (s.view.qe q).txCount + 1 }
        pending := if r = .success then s.view.msgOf q :: s.view.pending else s.view.pending
        calls := .subSendData q s.view.nb frame len r :: s.view.calls } := by
  have hinc : inc16 (s.qe q).txCount = (s.qe q).txCount + 1 := by
    have : (s.qe q).txCount < 5 := ht
    unfold inc16
    omega
  have hmsg : (Function.update s.qe q { s.qe q with txCount := inc16 (s.qe q).txCount } q).msg =
      (s.qe q).msg := by rw [Function.update_self]
  have hqe : (s.handOff q len r).qe =
      Function.update s.qe q { s.qe q with txCount := (s.qe q).txCount + 1 } :=
    congrArg (fun n => Function.update s.qe q { s.qe q with txCount := n }) hinc
  have hpending : (s.handOff q len r).pending =
      if r = .success then (s.qe q).msg :: s.pending else s.pending :=
    congrArg (fun m => if r = .success then m :: s.pending else s.pending) hmsg
  obtain ⟨frame, hcalls⟩ : ∃ frame, (s.handOff q len r).calls =
      .subSendData q s.currNbLlAddr frame len r :: s.calls := ⟨_, rfl⟩
  refine ⟨frame, ?_⟩
  rw [view, hqe, hpending, hcalls]
  rfl

theorem view_transmit_success (q : QePtr) (len : Nat)
    (ht : (s.view.qe q).txCount < maxRetxAttempts) :
    ∃ frame, (s.transmit q len .success).view =
      { s.view with
        suppress := true
        sending := 1
        qe := Function.update s.view.qe q
          { s.view.qe q with txCount := (s.view.qe q).txCount + 1 }
        pending := s.view.msgOf q :: s.view.pending
        calls := .subSendData q s.view.nb frame len .success :: s.view.calls } := by
  obtain ⟨frame, hv⟩ := view_handOff q len .success ht
  exact ⟨frame, hv⟩

/-- The attempt does not count, and the packet is back on top. -/
theorem view_transmit_failed (q : QePtr) (len : Nat) {r : TinyError} (hr : r ≠ .success)
    (ht : (s.view.qe q).txCount < maxRetxAttempts)
    (h : s.view.stack.length < forwardingQueueSize) :
    ∃ frame, (s.transmit q len r).view =
      { s.view with
        suppress := true
        sending := 0
        busy := false
        timer := true
        stack := s.view.stack ++ [q]
        calls := .pushTop .success :: .subSendData q s.view.nb frame len r :: s.view.calls } := by
  obtain ⟨frame, hv⟩ := view_handOff q len r ht
  refine ⟨frame, ?_⟩
  rw [transmit, if_neg hr]
  generalize s.handOff q len r = s1 at hv
  rw [if_neg hr] at hv
  have hqe : s1.qe = Function.update s.view.qe q
      { s.view.qe q with txCount := (s.view.qe q).txCount + 1 } := congrArg QueueView.qe hv
  generalize hs2 : { s1 with
    qe := Function.update s1.qe q { s1.qe q with txCount := dec16 (s1.qe q).txCount } } = s2
  have hdec : dec16 ((s.view.qe q).txCount + 1) = (s.view.qe q).txCount := by
    have : (s.view.qe q).txCount < 5 := ht
    unfold dec16
    omega
  have hv2 : s2.view = { s1.view with qe := s.view.qe } := by
    rw [← hs2]
    simp only [view, hqe, Function.update_self, Function.update_idem]
    congr 1
    exact (congrArg (fun n => Function.update s.qe q { s.qe q with txCount := n }) hdec).trans
      (Function.update_eq_self q s.view.qe)
  have hv3 := view_pushTop (s := s2) q (by rw [hv2, hv]; exact h)
  have hv4 : (s1.localSendFailed q).view =
      { (s2.pushTop q).view with sending := 0, busy := false, timer := true } := by
    simp only [localSendFailed, hs2]
    rfl
  rw [hv4, hv3, hv2, hv]

/-- The data branch, with `q` on top of the stack: the move is `giveUp`, `transmit` or
`localSendFailed`. -/
theorem move_sendData {v : QueueView} {b : Bool} {a : LlAddr} {r : TinyError}
    (hv : s.view = { v.chosen b a with busy := true }) (hp : v.posted = true) (hb : v.busy = false)
    {l : List QePtr} {q : QePtr} (hs : (v.chosen b a).stack = l ++ [q]) :
    Move v (.sendDataTask (some a) r) (s.sendData r).view := by
  have hstack : s.sendStack.toList = l ++ [q] := (congrArg QueueView.stack hv).trans hs
  obtain ⟨h1, h2⟩ := StackC.toList_popTop hstack
  generalize hs1 : { s with sendStack := s.sendStack.popTop.2, currentSendQe := q } = s1
  have hv1 : s1.view = { v.chosen b a with busy := true, stack := l, current := q } := by
    have : s1.view = { s.view with stack := l, current := q } := by
      rw [← hs1, ← h2]; rfl
    rw [this, hv]
  have hroom : s1.view.stack.length < forwardingQueueSize := by
    have := s.sendStack.length_le
    rw [hstack, List.length_append, List.length_singleton] at this
    rw [hv1]
    exact this
  have hqe : s.qe = v.qe := congrArg QueueView.qe hv
  simp only [sendData, h1, hs1]
  generalize (s.mem (s.qe q).msg).length = len
  split
  · rename_i ht
    rw [hqe] at ht
    refine (?_ : (s1.giveUp q).view = _) ▸ Move.giveUp v a r b l q hp hb hs ht
    rw [view_giveUp q hroom, hv1]
    exact congrArg (fun st => { v.chosen b a with
      current := q
      sending := 0
      stack := st
      busy := false
      qe := Function.update v.qe q { v.qe q with txCount := 0 }
      timer := true
      calls := .pushTop .success :: .giveUp q a (2 * maxRetxAttempts) ::
        (v.chosen b a).calls }) hs.symm
  · rename_i ht
    rw [hqe, Nat.not_le] at ht
    have ht1 : (s1.view.qe q).txCount < maxRetxAttempts := by rw [hv1]; exact ht
    by_cases hr : r = .success
    · subst hr
      obtain ⟨frame, hf⟩ := view_transmit_success q len ht1
      rw [hf, hv1]
      exact .transmit v a b l q frame len hp hb hs ht
    · obtain ⟨frame, hf⟩ := view_transmit_failed q len hr ht1 hroom
      refine (?_ : (s1.transmit q len r).view = _) ▸
        Move.localSendFailed v a r b l q frame len hr hp hb hs ht
      rw [hf, hv1]
      exact congrArg (fun st => { v.chosen b a with
        current := q
        suppress := true
        sending := 0
        stack := st
        busy := false
        timer := true
        calls := .pushTop .success :: .subSendData q a frame len r ::
          (v.chosen b a).calls }) hs.symm

/-- A good neighbour `a` is found. -/
theorem move_sendTo {v : QueueView} {b : Bool} {a : LlAddr} {r : TinyError}
    (hs : s.view = { v with posted := false }.check b) (hv : v.Inv) (hp : v.posted = true)
    (hb : v.busy = false) (hne : v.stack ≠ [] ∨ 0 < v.virtual) :
    Move v (.sendDataTask (some a) r) (s.sendTo a r).view := by
  generalize hs1 : { s with currNbLlAddr := a } = s1
  have hv1 : s1.view = { v with posted := false, nb := a }.check b := by
    have : s1.view = { s.view with nb := a } := by rw [← hs1]; rfl
    rw [this, hs]
    rfl
  have hi1 : s1.view.Inv := by
    rw [hv1]
    exact Inv.check (v := { v with posted := false, nb := a })
      ⟨hv.custody, hv.msg_ne_frag, hv.link, hv.succeeds⟩ b
  have hv2 : s1.conditionalDiscard.view = v.chosen b a := by
    rw [view_conditionalDiscard_inv hi1, hv1]
    rfl
  generalize hs3 : { s1.conditionalDiscard with radioBusy := true } = s3
  have hv3 : s3.view = { v.chosen b a with busy := true } := by
    rw [← hv2, ← hs3]; rfl
  have hempty : s1.conditionalDiscard.sendStack.empty = true ↔ (v.chosen b a).stack = [] := by
    rw [empty_iff, hv2]
  simp only [sendTo, hs1, hs3]
  cases he : s1.conditionalDiscard.sendStack.empty with
  | true =>
    -- a full queue has packets left, so nothing was discarded
    obtain ⟨hd, hs0⟩ := discard_eq_of_stack_eq_nil (hempty.1 he)
    have hm := Move.sendNull v a r b hp hb hs0 (hne.resolve_left fun h => h hs0)
    have hv4 : s3.sendNull.view = { s3.view with
        virtual := dec16 s3.view.virtual
        busy := false
        calls := .sendNull :: s3.view.calls } := rfl
    rw [if_neg (by simp), hv4, hv3, QueueView.chosen, hd]
    exact hm
  | false =>
    obtain ⟨l, q, hlq⟩ : ∃ l q, (v.chosen b a).stack = l ++ [q] := by
      rcases List.eq_nil_or_concat (v.chosen b a).stack with hnil | ⟨l, q, hlq⟩
      · rw [hempty.2 hnil] at he; cases he
      · exact ⟨l, q, by rw [hlq, List.concat_eq_append]⟩
    rw [if_pos (by simp)]
    exact move_sendData hv3 hp hb hlq

theorem move_sendDataTask (hv : s.view.Inv) (hp : s.view.posted = true) (nb : Option LlAddr)
    (r : TinyError) :
    Move s.view (.sendDataTask nb r)
      ({ s with sendDataPosted := false }.sendDataTask nb r).view := by
  generalize hs0 : { s with sendDataPosted := false } = s0
  have hv0 : s0.view = { s.view with posted := false } := by rw [← hs0]; rfl
  have hbusy : s0.radioBusy = s.view.busy := congrArg QueueView.busy hv0
  unfold sendDataTask
  by_cases hb : s0.radioBusy = true
  · have hv1 : { s0 with txRetryTimer := some retryInterval }.view =
        { s.view with posted := false, timer := true } :=
      congrArg (fun v : QueueView => { v with timer := true }) hv0
    rw [if_pos hb, hv1]
    exact .taskBusy s.view nb r hp (hbusy ▸ hb)
  · rw [if_neg hb]
    rw [Bool.not_eq_true, hbusy] at hb
    obtain ⟨b, hc⟩ := view_checkBp s0
    generalize s0.checkBp = s1 at hc
    rw [hv0] at hc
    have hidle : (s1.sendStack.empty && decide (s1.virtualQueueSize ≤ 0)) = true ↔
        s.view.stack = [] ∧ s.view.virtual = 0 := by
      have hvirtual : s1.virtualQueueSize = s.view.virtual := congrArg QueueView.virtual hc
      have hempty : s1.sendStack.empty = true ↔ s.view.stack = [] := by rw [empty_iff, hc]; rfl
      rw [Bool.and_eq_true, hempty, decide_eq_true_eq, hvirtual, Nat.le_zero]
    by_cases hi : s.view.stack = [] ∧ s.view.virtual = 0
    · simp only [if_pos (hidle.2 hi), hc]
      exact .taskIdle s.view nb r b hp hb hi.1 hi.2
    · have hne : s.view.stack ≠ [] ∨ 0 < s.view.virtual := by
        rw [Nat.pos_iff_ne_zero]
        exact not_and_or.1 hi
      simp only [if_neg (mt hidle.1 hi)]
      cases nb with
      | none =>
        have hv2 : { s1 with txRetryTimer := some rerouteInterval }.view =
            { ({ s.view with posted := false }.check b) with timer := true } :=
          congrArg (fun v : QueueView => { v with timer := true }) hc
        rw [hv2]
        exact .taskNoNeighbour s.view r b hp hb hne
      | some a => exact move_sendTo hc hv hp hb hne

/-! ## `Send.send` -/

theorem view_refuse (s : Queueing) (msg : MsgPtr) :
    (s.refuse msg).view = { s.view with calls := .send msg false .eretry :: s.view.calls } := rfl

theorem move_bypass {v : QueueView} (i : Nat) (frame : Message) (len : Nat) (r : TinyError)
    (now : Nat) (hs : s.view = v) (hm : s.mem (.frag i) = frame) (hf : v.flag = true) :
    Move v (.send i frame len r now) (s.bypass (.frag i) len r).view := by
  subst hs hm
  unfold bypass
  by_cases hb : s.radioBusy = true
  · rw [if_pos hb]
    exact .bypassBusy s.view i _ len r now hf hb
  · rw [if_neg hb]
    exact .bypass s.view i _ len r now hf (Bool.not_eq_true _ ▸ hb)

/-- A push that finds room. -/
theorem view_push (msg newMsg : MsgPtr) (ins : QePtr) (now : Nat)
    (h : s.view.stack.length < forwardingQueueSize) :
    (s.push msg newMsg ins now).view =
      { s.view with
        stack := s.view.stack ++ [ins]
        qe := Function.update s.view.qe ins ⟨newMsg, 0, now⟩
        mMsgp := msg
        posted := true
        donePosted := true
        calls := .send msg false .success :: .enqueue ins :: .pushTop .success ::
          s.view.calls } := by
  generalize hs1 : { s with
    mem := Function.update s.mem newMsg (s.mem msg)
    qe := Function.update s.qe ins ⟨newMsg, 0, now⟩ } = s1
  have hv1 : s1.view = { s.view with qe := Function.update s.view.qe ins ⟨newMsg, 0, now⟩ } := by
    rw [← hs1]; rfl
  have h1 : s1.view.stack.length < forwardingQueueSize := by rw [hv1]; exact h
  have hok : (s.sendStack.pushTop ins).1 = .success := (StackC.toList_pushTop ins h).1
  have hv2 := view_pushTop ins h1
  generalize hs2 : s1.pushTop ins = s2 at hv2
  have hv3 : (s.push msg newMsg ins now).view = { s2.view with
      mMsgp := msg
      posted := true
      donePosted := true
      calls := .send msg false .success :: .enqueue ins :: s2.view.calls } := by
    simp only [push, hs1, hok, hs2, ne_eq, not_true_eq_false, if_false]
    rfl
  rw [hv3, hv2, hv1]

theorem move_enqueue {v : QueueView} (i : Nat) (frame : Message) (len : Nat) (r : TinyError)
    (now : Nat) (hs : s.view = v) (hv : v.Inv) (hf : v.flag = false) :
    Move v (.send i frame len r now) (s.enqueue (.frag i) len now).view := by
  generalize hs1 : { s with
    sendStats := { s.sendStats with sentTotal := inc16 s.sendStats.sentTotal } } = s1
  have hv1 : s1.view = v := by rw [← hs1, ← hs]; rfl
  have hv2 : s1.conditionalDiscard.view = v.discard := by
    rw [view_conditionalDiscard_inv (hv1 ▸ hv), hv1]
  generalize hs3 : s1.conditionalDiscard.setPayloadLength (.frag i) len = s3
  have hv3 : s3.view = v.discard := by rw [← hv2, ← hs3]; rfl
  have hd : v.discard.Inv := hv.discard
  simp only [enqueue, hs1, hs3]
  cases hfree : v.discard.free with
  | nil =>
    have he : s3.messagePool.empty = true :=
      (PoolP.empty_iff _).2 (hv3 ▸ hfree : s3.view.free = [])
    rw [if_pos he, view_refuse, hv3]
    exact .refuse v i frame len r now hf hfree
  | cons m free =>
    -- the pools are empty together, so there is an entry too
    obtain ⟨q, freeQe, hfreeQe⟩ : ∃ q freeQe, v.discard.freeQe = q :: freeQe := by
      cases hq : v.discard.freeQe with
      | nil => rw [hd.freeQe_eq_nil_iff.1 hq] at hfree; cases hfree
      | cons q freeQe => exact ⟨q, freeQe, rfl⟩
    have hfree3 : s3.messagePool.toList = m :: free := (hv3 ▸ hfree : s3.view.free = _)
    have hfreeQe3 : s3.qEntryPool.toList = q :: freeQe := (hv3 ▸ hfreeQe : s3.view.freeQe = _)
    have he : ¬ s3.messagePool.empty = true := by rw [PoolP.empty_iff, hfree3]; simp
    obtain ⟨hm1, hm2⟩ := PoolP.get_cons hfree3
    obtain ⟨hq1, hq2⟩ := PoolP.get_cons hfreeQe3
    rw [if_neg he, show s3.messagePool.get = (some m, s3.messagePool.get.2) from Prod.ext hm1 rfl]
    dsimp only
    rw [show s3.qEntryPool.get = (some q, s3.qEntryPool.get.2) from Prod.ext hq1 rfl]
    dsimp only
    generalize hs4 : { s3 with
      messagePool := s3.messagePool.get.2, qEntryPool := s3.qEntryPool.get.2 } = s4
    have hv4 : s4.view = { v.discard with free := free, freeQe := freeQe } := by
      rw [← hv3, ← hm2, ← hq2, ← hs4]; rfl
    have hroom : v.discard.stack.length < forwardingQueueSize := by
      have := hd.length_free
      rw [hfree, List.length_cons] at this
      omega
    rw [view_push _ _ _ _ (by rw [hv4]; exact hroom), hv4]
    exact .accept v i frame len r now m free q freeQe hf hfree hfreeQe

/-! ## `SubSend.sendDone` -/

theorem view_postIfBacklog (s : Queueing) :
    s.postIfBacklog.view = { s.view with
      posted := s.view.posted || (s.view.stack ≠ [] ∨ 0 < s.view.virtual) } := by
  have hbacklog : (s.sendStack.size > 0 ∨ s.virtualQueueSize > 0) ↔
      (s.view.stack ≠ [] ∨ 0 < s.view.virtual) := by
    rw [size_eq, gt_iff_lt, List.length_pos_iff]
    rfl
  unfold postIfBacklog
  by_cases h : s.view.stack ≠ [] ∨ 0 < s.view.virtual
  · rw [if_pos (hbacklog.2 h), decide_eq_true h, Bool.or_true]
    rfl
  · rw [if_neg (mt hbacklog.1 h), decide_eq_false h, Bool.or_false]

theorem move_retry {v : QueueView} {m : MsgPtr} (error : TinyError) (now : Nat)
    (hs : s.view = { v with pending := v.pending.erase m }) (hv : v.Inv) (hm : m ∈ v.pending)
    (hsup : v.suppress = true) : Move v (.subSendDone m error false now) s.retry.view := by
  obtain ⟨rfl, hp, _, _⟩ := hv.data hm hsup
  have hroom : v.stack.length < forwardingQueueSize := by
    have := hv.length_free
    rw [inFlight_data hp, List.length_singleton] at this
    omega
  generalize hs1 : { s with sendingData := 0 } = s1
  have hv1 : s1.view = { v with pending := v.pending.erase (v.msgOf v.current), sending := 0 } := by
    have : s1.view = { s.view with sending := 0 } := by rw [← hs1]; rfl
    rw [this, hs]
  have hcur : s.currentSendQe = v.current := congrArg QueueView.current hs
  have hv2 := view_pushTop (s := s1) v.current (by rw [hv1]; exact hroom)
  have hv3 : s.retry.view = { (s1.pushTop v.current).view with busy := false, posted := true } := by
    simp only [retry, hs1]
    rw [hcur]
    rfl
  rw [hv3, hv2, hv1]
  exact .retry v _ error now hm hsup

theorem move_deliver {v : QueueView} {m : MsgPtr} (error : TinyError) (now : Nat)
    (hs : s.view = { v with pending := v.pending.erase m }) (hv : v.Inv) (hm : m ∈ v.pending)
    (hsup : v.suppress = true) :
    Move v (.subSendDone m error true now) (s.deliver now).postIfBacklog.view := by
  obtain ⟨rfl, hp, _, _⟩ := hv.data hm hsup
  have h1 := hv.length_free
  have h2 := hv.length_freeQe
  rw [inFlight_data hp, List.length_singleton] at h1 h2
  have hcur : s.currentSendQe = v.current := congrArg QueueView.current hs
  have hqe : s.qe = v.qe := congrArg QueueView.qe hs
  generalize hs1 : { s with
    sendStats := { s.sendStats with sentSuccess := inc16 s.sendStats.sentSuccess }
    sendingData := 0 }.record (.delivered s.currentSendQe s.currNbLlAddr
      (s.qe s.currentSendQe).txCount (txTime now (s.qe s.currentSendQe).firstTxTime)) = s1
  have hv1 : s1.view = { v with
      pending := v.pending.erase (v.msgOf v.current)
      sending := 0
      calls := .delivered v.current v.nb (v.qe v.current).txCount
        (txTime now (v.qe v.current).firstTxTime) :: v.calls } := by
    have : s1.view = { s.view with
        sending := 0
        calls := .delivered s.view.current s.view.nb (s.view.qe s.view.current).txCount
          (txTime now (s.view.qe s.view.current).firstTxTime) :: s.view.calls } := by
      rw [← hs1]; rfl
    rw [this, hs]
  have hqe1 : s1.qe = v.qe := by rw [← hs1]; exact hqe
  have hfree : v.free.length < forwardingQueueSize := by omega
  have hfreeQe : v.freeQe.length < forwardingQueueSize := by omega
  have hv2 := view_putMessage (s := s1) (v.msgOf v.current) (by rw [hv1]; exact hfree)
  have hv3 := view_putQEntry (s := s1.putMessage (v.msgOf v.current)) v.current
    (by rw [hv2, hv1]; exact hfreeQe)
  have hv4 : (s.deliver now).view =
      { ((s1.putMessage (v.msgOf v.current)).putQEntry v.current).view with
        suppress := false, busy := false } := by
    simp only [deliver, hs1]
    rw [hqe1, hcur]
    rfl
  rw [view_postIfBacklog, hv4, hv3, hv2, hv1]
  exact .deliver v _ error now _ hm hsup

theorem move_subSendDone (hv : s.view.Inv) {m : MsgPtr} (error : TinyError) (delivered : Bool)
    (now : Nat) (hm : m ∈ s.view.pending) :
    Move s.view (.subSendDone m error delivered now)
      ({ s with pending := s.pending.erase m }.subSendDone m error delivered now).view := by
  generalize hs1 : { s with pending := s.pending.erase m } = s1
  have hv1 : s1.view = { s.view with pending := s.view.pending.erase m } := by rw [← hs1]; rfl
  have hsup : s1.suppressSendDone = s.view.suppress := congrArg QueueView.suppress hv1
  rw [subSendDone, hsup]
  cases hs : s.view.suppress with
  | true =>
    cases delivered with
    | false => exact move_retry error now hv1 hv hm hs
    | true => exact move_deliver error now hv1 hv hm hs
  | false =>
    have hv2 : (s1.beaconDone m error).view = { s1.view with
        busy := false
        calls := .sendDone m error :: s1.view.calls } := rfl
    simp only [Bool.false_eq_true, if_false]
    rw [view_postIfBacklog, hv2, hv1]
    exact .beaconDone s.view m error delivered now hm hs

/-! ## Every step of every run -/

/-- **A step of the code from a state that keeps the invariant is a move of the abstract queue.** -/
theorem step_move {s' : Queueing} {e : QEvent} (hv : s.view.Inv) (h : s.step e = some s') :
    Move s.view e s'.view := by
  cases e with
  | sendingBeacon =>
    cases h
    exact .sendingBeacon s.view
  | send i frame len r now =>
    cases h
    unfold send
    split
    · rename_i hf
      exact move_bypass i frame len r now rfl (Function.update_self ..) hf
    · rename_i hf
      exact move_enqueue i frame len r now rfl hv (Bool.not_eq_true _ ▸ hf)
  | sendDataTask nb r =>
    simp only [step, Option.ite_none_right_eq_some, Option.some.injEq] at h
    obtain ⟨hp, rfl⟩ := h
    exact move_sendDataTask hv hp nb r
  | txRetryTimerFired =>
    simp only [step, Option.ite_none_right_eq_some, Option.some.injEq] at h
    obtain ⟨hp, rfl⟩ := h
    exact .txRetryTimerFired s.view hp
  | signalDone =>
    simp only [step, Option.ite_none_right_eq_some, Option.some.injEq] at h
    obtain ⟨hp, rfl⟩ := h
    exact .signalDone s.view hp
  | subSendDone msg error delivered now =>
    simp only [step, Option.ite_none_right_eq_some, Option.some.injEq] at h
    obtain ⟨hp, rfl⟩ := h
    exact move_subSendDone hv error delivered now hp

/-- The invariant holds of every reachable state. -/
theorem inductive_inv : machine.Inductive fun s => s.view.Inv where
  init s hs := by rw [show s = boot.start from hs]; exact Inv.init
  step _ _ _ hv h := hv.move (step_move hv h)

theorem reachable_inv (h : machine.Reachable s) : s.view.Inv := h.inv inductive_inv

/-- A property of views that holds after `StdControl.start` and that every move keeps, in states
that keep the invariant, is an invariant of the code. -/
theorem inductive_of_move {P : QueueView → Prop} (h0 : P boot.start.view)
    (hstep : ∀ v e v', v.Inv → P v → Move v e v' → P v') :
    machine.Inductive fun s => s.view.Inv ∧ P s.view where
  init s hs := by rw [show s = boot.start from hs]; exact ⟨Inv.init, h0⟩
  step _ _ _ hv h :=
    have hm := step_move hv.1 h
    ⟨hv.1.move hm, hstep _ _ _ hv.1 hv.2 hm⟩

end BackIP.Queueing
