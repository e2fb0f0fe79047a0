import Backip.BCP.ForwarderView

/-!
# The forwarding engine makes the moves of the list view

`Owned cfg v` says where everything is: each queue entry is free, on the stack or being sent, each
message belongs to an entry in use or is in a pool, the snoop queue or with another component, and
what the link holds is the message being sent. From such a state each handler does to the view what
`View.Move` says (`Forwarder.step_move`). The lemmas before it say what the single functions of the
module do to the view.
-/

set_option autoImplicit false

namespace BCP

/-- The entries of `QEntryPool`. -/
def entries : List QePtr := (List.range forwardingQueueSize).map .entry

/-- The messages of `MessagePool`, of the radio and of the applications, and `loopbackMsg`. -/
def messages (cfg : Config) : List MsgPtr :=
  (List.range (forwardingQueueSize + snoopQueueSize)).map .pool ++ cfg.radio.map .other ++
    cfg.app.map .other ++ [.loopback]

namespace View

/-- Where everything is, and that nothing has failed. -/
structure Placed (cfg : Config) (v : View) : Prop where
  custody : Custody entries (messages cfg) v.msgOf v.freeQe v.loose v.held
  count : v.free.length + v.held.length + v.snoop.length = forwardingQueueSize + snoopQueueSize
  pending : ∀ m, v.pending = some m → v.occupied = true ∧ v.msgOf v.sendQe = m
  faults : v.faults = []

structure Owned (cfg : Config) (v : View) : Prop extends Placed cfg v where
  stack_le : v.stack.length ≤ forwardingQueueSize - 1
  snoop_le : v.snoop.length ≤ snoopQueueSize

theorem entries_nodup : entries.Nodup := by decide

@[simp] theorem held_sending {v : View} (ho : v.occupied = true) :
    v.held = v.stack ++ [v.sendQe] := by
  unfold held current
  rw [if_pos ho]

@[simp] theorem held_idle {v : View} (ho : v.occupied = false) : v.held = v.stack := by
  unfold held current
  rw [ho]
  exact List.append_nil _

/-- How many entries and messages there are in the pools and in use. -/
structure Counted (v : View) : Prop where
  entries : v.freeQe.length + v.held.length = forwardingQueueSize
  messages : v.free.length + v.held.length + v.snoop.length = forwardingQueueSize + snoopQueueSize
  stack_le : v.stack.length ≤ forwardingQueueSize - 1
  snoop_le : v.snoop.length ≤ snoopQueueSize

namespace Counted

variable {cfg : Config} {v : View} (h : v.Counted)
include h

/-- What is in use came out of the pools. -/
theorem room (hne : v.held ≠ []) : v.free.length < forwardingQueueSize + snoopQueueSize ∧
    v.freeQe.length < forwardingQueueSize := by
  have h1 := h.entries
  have h2 := h.messages
  have h3 := List.length_pos_iff.2 hne
  omega

/-- An entry and a message are free when the stack is empty and nothing is being sent. -/
theorem free_of_held_nil (hn : v.held = []) :
    (∃ q freeQe, v.freeQe = q :: freeQe) ∧ ∃ m free, v.free = m :: free := by
  have h1 := h.entries
  have h2 := h.messages
  have h3 := h.snoop_le
  rw [hn, List.length_nil] at h1 h2
  simp only [forwardingQueueSize, snoopQueueSize] at h1 h2 h3
  constructor
  · exact List.exists_cons_of_length_pos (by omega)
  · exact List.exists_cons_of_length_pos (by omega)

/-- After making room on the stack an entry and a message are free. -/
theorem free_of_discard (cfg : Config) : (∃ q freeQe, (v.discard cfg).freeQe = q :: freeQe) ∧
    ∃ m free, (v.discard cfg).free = m :: free := by
  have h1 := h.entries
  have h2 := h.messages
  have h3 := h.snoop_le
  have h4 := h.stack_le
  have hheld : v.held.length ≤ v.stack.length + 1 := by
    cases ho : v.occupied with
    | true => simp [held_sending ho]
    | false => simp [held_idle ho]
  simp only [forwardingQueueSize, snoopQueueSize] at h1 h2 h3 h4
  rcases discard_cases cfg v with ⟨hd, hne⟩ | ⟨q, rest, virtual, hs, hl, hd⟩
  · rw [hd]
    simp only [forwardingQueueSize] at hne
    constructor
    · exact List.exists_cons_of_length_pos (by omega)
    · exact List.exists_cons_of_length_pos (by omega)
  · rw [hd]
    constructor
    · exact List.exists_cons_of_length_pos (by simp [release])
    · exact List.exists_cons_of_length_pos (by simp [release])

end Counted

theorem Owned.counted {cfg : Config} {v : View} (h : v.Owned cfg) : v.Counted :=
  ⟨h.custody.length_free, h.count, h.stack_le, h.snoop_le⟩

/-- An entry in use is an entry of the pool. -/
theorem Owned.held_ne_null {cfg : Config} {v : View} (h : v.Owned cfg) {q : QePtr}
    (hq : q ∈ v.held) : q ≠ .null := by
  have hmem := h.custody.objs_perm.subset (List.mem_append_right v.freeQe hq)
  rintro rfl
  obtain ⟨i, -, hi⟩ := List.mem_map.1 hmem
  cases hi

end View

namespace Forwarder

variable {cfg : Config} (s : Forwarder)

/-! ## The functions of the module -/

theorem view_record {c : Call} (hc : c.isFault = false) : (s.record c).view = s.view := by
  unfold view record
  simp only [List.filter_cons, hc]
  rfl

theorem view_reportError {code : UInt8} (hc : failureCodes.contains code = false) :
    (s.reportError code).view = s.view :=
  s.view_record hc

theorem view_setMsg (msg : MsgPtr) (m : Message) : (s.setMsg msg m).view = s.view := rfl

theorem view_setQe (q : QePtr) (e : FeQueueEntry) :
    (s.setQe q e).view = { s.view with qe := Function.update s.view.qe q e } := rfl

theorem check_success (code : UInt8) : s.check .success code = s := rfl

theorem view_putMessage (msg : MsgPtr) (code : UInt8)
    (hroom : s.view.free.length < forwardingQueueSize + snoopQueueSize) :
    (s.putMessage msg code).view = { s.view with free := s.view.free ++ [msg] } := by
  obtain ⟨h1, h2⟩ := PoolP.put_ok msg hroom
  unfold putMessage
  simp only [h1, check_success]
  rw [view_record _ rfl]
  unfold view
  simp only [h2]

theorem view_putQEntry (q : QePtr) (code : UInt8)
    (hroom : s.view.freeQe.length < forwardingQueueSize) :
    (s.putQEntry q code).view = { s.view with freeQe := s.view.freeQe ++ [q] } := by
  obtain ⟨h1, h2⟩ := PoolP.put_ok q hroom
  unfold putQEntry
  simp only [h1, check_success]
  rw [view_record _ rfl]
  unfold view
  simp only [h2]

theorem putMessage_freeQe (msg : MsgPtr) (code : UInt8) :
    (s.putMessage msg code).view.freeQe = s.view.freeQe := by
  unfold putMessage check
  dsimp only
  split <;> rfl

/-- A full pool refuses an entry, and the failure is noted. -/
theorem putQEntry_full (q : QePtr) (code : UInt8)
    (hfull : s.view.freeQe.length = forwardingQueueSize) :
    .qEntryPut q .fail ∈ (s.putQEntry q code).view.faults := by
  have hput := PoolP.put_full q hfull
  unfold putQEntry
  rw [hput]
  refine List.mem_filter.2 ⟨?_, rfl⟩
  exact .tail _ (.head _)

/-- An entry and its message go back to their pools. -/
theorem view_release (q : QePtr) (code code' : UInt8)
    (hroom : s.view.free.length < forwardingQueueSize + snoopQueueSize ∧
      s.view.freeQe.length < forwardingQueueSize) :
    ((s.putMessage (s.qe q).msg code).putQEntry q code').view = s.view.release q := by
  have h1 := s.view_putMessage (s.qe q).msg code hroom.1
  rw [view_putQEntry _ _ _ (by rw [h1]; exact hroom.2), h1]
  rfl

theorem view_getMessage {msg : MsgPtr} {free : List MsgPtr} (h : s.view.free = msg :: free) :
    s.getMessage.1 = some msg ∧ s.getMessage.2.view = { s.view with free := free } := by
  obtain ⟨h1, h2⟩ := PoolP.get_cons h
  refine ⟨h1, ?_⟩
  unfold view getMessage
  simp only [h2]

theorem view_getQEntry {q : QePtr} {freeQe : List QePtr} (h : s.view.freeQe = q :: freeQe) :
    s.getQEntry.1 = some q ∧ s.getQEntry.2.view = { s.view with freeQe := freeQe } := by
  obtain ⟨h1, h2⟩ := PoolP.get_cons h
  refine ⟨h1, ?_⟩
  unfold view getQEntry
  simp only [h2]

theorem view_popTop {l : List QePtr} {q : QePtr} (h : s.view.stack = l ++ [q]) :
    s.popTop.1 = q ∧ s.popTop.2.view = { s.view with stack := l } := by
  obtain ⟨h1, h2⟩ := StackC.toList_popTop h
  refine ⟨h1, ?_⟩
  unfold view popTop
  simp only [h2]

theorem view_popBottom {l : List QePtr} {q : QePtr} (h : s.view.stack = q :: l) :
    s.popBottom.1 = q ∧ s.popBottom.2.view = { s.view with stack := l } := by
  obtain ⟨h1, h2⟩ := StackC.toList_popBottom h
  refine ⟨h1, ?_⟩
  unfold view popBottom
  simp only [h2]

theorem view_pushTop (q : QePtr) (hroom : s.view.stack.length < forwardingQueueSize - 1) :
    (s.pushTop q).1 = .success ∧
      (s.pushTop q).2.view = { s.view with stack := s.view.stack ++ [q] } := by
  obtain ⟨h1, h2⟩ := StackC.toList_pushTop q hroom
  refine ⟨h1, ?_⟩
  unfold view pushTop
  simp only [h2]

theorem view_pushBottom (q : QePtr) (hroom : s.view.stack.length < forwardingQueueSize - 1) :
    (s.pushBottom q).1 = .success ∧
      (s.pushBottom q).2.view = { s.view with stack := q :: s.view.stack } := by
  obtain ⟨h1, h2⟩ := StackC.toList_pushBottom q hroom
  refine ⟨h1, ?_⟩
  unfold view pushBottom
  simp only [h2]

variable (cfg) in
/-- A stack that has room takes another entry. -/
theorem view_insert (q : QePtr) (hroom : s.view.stack.length < forwardingQueueSize - 1) :
    (s.insert cfg q).1 = .success ∧
      (s.insert cfg q).2.view = { s.view with stack := View.inserted cfg s.view.stack q } := by
  unfold insert View.inserted
  split
  · exact s.view_pushTop q hroom
  · exact s.view_pushBottom q hroom

theorem stack_empty : s.sendStack.empty = s.view.stack.isEmpty := by
  rw [Bool.eq_iff_iff, StackC.empty_iff, List.isEmpty_iff]
  rfl

theorem view_forwarderActivity : s.forwarderActivity.view = s.view.activity := by
  have he := s.stack_empty
  unfold forwarderActivity View.activity View.backlog
  rw [he]
  repeat' split
  all_goals first
    | rfl
    | simp_all [view]

theorem view_retryLater : s.retryLater.view = { s.view with sending := false, retry := true } := rfl

theorem view_stopSending : s.stopSending.view = { s.view with sending := false } := rfl

theorem view_setSendQe (q : QePtr) : (s.setSendQe q).view = { s.view with sendQe := q } := rfl

theorem view_setLoopback (msg : MsgPtr) :
    (s.setLoopback msg).view = { s.view with loopback := msg } := rfl

theorem popTop_empty (h : s.view.stack = []) : s.popTop.2 = s := by
  have hsize : s.sendStack.size = 0 := by
    rw [← StackC.length_toList]
    exact congrArg List.length h
  unfold popTop StackC.popTop
  rw [if_pos hsize]

theorem view_clearSendQe : s.clearSendQe.view = { s.view with occupied := false } := rfl

attribute [local irreducible] putMessage putQEntry forwarderActivity getMessage getQEntry popTop
  popBottom pushTop pushBottom insert retryLater clearSendQe stopSending setSendQe
  setLoopback record check

variable (cfg) in
theorem view_conditionalFQDiscard
    (hroom : s.view.stack ≠ [] → s.view.free.length < forwardingQueueSize + snoopQueueSize ∧
      s.view.freeQe.length < forwardingQueueSize) :
    (s.conditionalFQDiscard cfg).view = s.view.discard cfg := by
  have hlen : s.view.stack.length = s.sendStack.size := s.sendStack.length_toList
  unfold conditionalFQDiscard View.discard StackC.maxSize
  rw [← hlen]
  cases hs : s.view.stack with
  | nil => rfl
  | cons q rest =>
    obtain ⟨hq, hpop⟩ := s.view_popBottom hs
    rw [List.length_cons]
    by_cases hfull : rest.length + 1 = forwardingQueueSize - 1
    · have hrel := s.popBottom.2.view_release q 0x59 0x39
        (by rw [hpop]; exact hroom (hs ▸ List.cons_ne_nil _ _))
      rw [hpop] at hrel
      simp only [if_pos hfull, hq]
      generalize (s.popBottom.2.putMessage _ 0x59).putQEntry q 0x39 = s' at hrel
      split
      · exact congrArg (fun w : View => { w with virtual := w.virtual + 1 }) hrel
      · exact hrel
    · simp only [if_neg hfull]

theorem view_signalReceive (msg back : MsgPtr) :
    (s.signalReceive msg back).1 = (View.swap s.view.app msg back).1 ∧
      (s.signalReceive msg back).2.view =
        { s.view with app := (View.swap s.view.app msg back).2 } := by
  have hrec := s.view_record (c := .receive msg (s.mem msg)) rfl
  have happ : (s.record (.receive msg (s.mem msg))).app = s.view.app := congrArg View.app hrec
  unfold signalReceive View.swap
  rw [← happ]
  dsimp only
  generalize s.record (.receive msg (s.mem msg)) = s' at hrec happ
  split
  · exact ⟨rfl, congrArg (fun w : View => { w with app := msg :: s'.app.erase back }) hrec⟩
  · exact ⟨rfl, hrec.trans (congrArg (fun a => { s.view with app := a }) happ.symm)⟩

attribute [local irreducible] signalReceive conditionalFQDiscard

/-! ## `sendDataTask` -/

theorem view_serveRoot (q : QePtr) (back : MsgPtr)
    (hroom : s.view.free.length < forwardingQueueSize + snoopQueueSize ∧
      s.view.freeQe.length < forwardingQueueSize) :
    (s.serveRoot q back).view = s.view.serve q back := by
  have hrel := view_release (s.setMsg s.loopbackMsgPtr (s.mem (s.qe q).msg)) q 0xbb 0xbc hroom
  unfold serveRoot View.serve
  dsimp only
  rw [view_forwarderActivity, view_setLoopback]
  generalize ((s.setMsg s.loopbackMsgPtr (s.mem (s.qe q).msg)).putMessage _ 0xbb).putQEntry q 0xbc
    = s' at hrel
  obtain ⟨h1, h2⟩ := s'.view_signalReceive s'.loopbackMsgPtr back
  have happ := congrArg View.app hrel
  have hloop := congrArg View.loopback hrel
  change s'.view.app = s.view.app at happ
  change s'.loopbackMsgPtr = s.view.loopback at hloop
  rw [happ, hloop] at h1 h2
  rw [hrel] at h2
  rw [hloop, h1, h2]
  rfl

/-- Serving an entry that the full pool refuses leaves a fault. -/
theorem faults_serveRoot (q : QePtr) (back : MsgPtr)
    (hfull : s.view.freeQe.length = forwardingQueueSize) :
    .qEntryPut q .fail ∈ (s.serveRoot q back).view.faults := by
  have hput := putQEntry_full ((s.setMsg s.loopbackMsgPtr (s.mem (s.qe q).msg)).putMessage
    ((s.setMsg s.loopbackMsgPtr (s.mem (s.qe q).msg)).qe q).msg 0xbb) q 0xbc
    (by rw [putMessage_freeQe]; exact hfull)
  unfold serveRoot
  dsimp only
  rw [view_forwarderActivity, View.faults_activity, view_setLoopback]
  generalize ((s.setMsg s.loopbackMsgPtr (s.mem (s.qe q).msg)).putMessage _ 0xbb).putQEntry q 0xbc
    = s' at hput
  rw [(s'.view_signalReceive s'.loopbackMsgPtr back).2]
  exact hput

attribute [local irreducible] serveRoot

section
variable {v : View} {a : Answers} (h : v.Counted) (hp : v.posted = true)
include h hp

/-- `sendDataTask` at a root. -/
theorem move_sendDataRoot (hr : v.isRoot = true) (hs : s.view = { v with posted := false }) :
    View.Move cfg v (.sendDataTask a) (s.sendDataRoot a.back).view := by
  have hs' := s.view_stopSending
  rw [hs] at hs'
  unfold sendDataRoot
  dsimp only
  generalize s.stopSending = s at hs'
  have ho : s.view.occupied = v.occupied := by rw [hs']
  have hst : s.view.stack = v.stack := by rw [hs']
  have hv : s.view.virtual = v.virtual := by rw [hs']
  have hq : s.view.sendQe = v.sendQe := by rw [hs']
  rw [show s.sendQeOccupied = v.occupied from ho, stack_empty, hst,
    show s.virtualQueueSize = v.virtual from hv, show s.sendQe = v.sendQe from hq]
  cases hocc : v.occupied with
  | true =>
    have hview := s.view_clearSendQe
    rw [hs'] at hview
    have hroom := h.room (by rw [View.held_sending hocc]; simp)
    rw [if_pos rfl, view_serveRoot _ _ _ (by rw [hview]; exact hroom), hview]
    exact .serveCurrent v a hp hr hocc
  | false =>
    rw [if_neg Bool.false_ne_true]
    rcases List.eq_nil_or_concat' v.stack with hnil | ⟨l, q, hsnoc⟩
    · rw [hnil]
      by_cases hv0 : v.virtual = 0
      · rw [if_pos (by simp [hv0]), view_reportError _ (by decide), hs']
        exact .rootIdle v a hp hr hocc hnil hv0
      · rw [if_neg (by simp [hv0]), popTop_empty s (hst.trans hnil)]
        refine .servePhantom v a _ s.popTop.1 hp hr hocc hnil hv0 (faults_serveRoot _ _ _ ?_)
        have hfree := h.entries
        rw [View.held_idle hocc, hnil] at hfree
        rw [view_setSendQe, hs']
        exact hfree
    · have hl : s.view.stack = l ++ [q] := hst.trans hsnoc
      obtain ⟨h1, h2⟩ := s.view_popTop hl
      have hview := s.popTop.2.view_setSendQe q
      rw [h2, hs'] at hview
      rw [if_neg (by simp [hsnoc]), h1]
      have hroom := h.room (by rw [View.held_idle hocc, hsnoc]; simp)
      rw [view_serveRoot _ _ _ (by rw [hview]; exact hroom), hview]
      exact .serveStack v a l q hp hr hocc hsnoc

omit h hp

theorem view_giveUp (hroom : s.view.free.length < forwardingQueueSize + snoopQueueSize ∧
    s.view.freeQe.length < forwardingQueueSize)
    (hstack : s.view.stack.length ≤ forwardingQueueSize - 1) :
    (s.giveUp cfg).view =
      { s.view.discard cfg with
        stack := (s.view.discard cfg).stack ++ [s.view.sendQe]
        qe := Function.update s.view.qe s.view.sendQe
          { s.view.qe s.view.sendQe with txCount := 0 }
        occupied := false
        sending := false
        retry := true } := by
  have hrec := s.view_record (c := .router (.updateLinkSuccess (s.mem (s.qe s.sendQe).msg).dst
    (2 * maxRetxAttempts))) rfl
  have hqe := view_setQe (s.record (.router (.updateLinkSuccess (s.mem (s.qe s.sendQe).msg).dst
    (2 * maxRetxAttempts)))) s.sendQe { s.view.qe s.sendQe with txCount := 0 }
  rw [hrec] at hqe
  have hqe' : (s.record (.router (.updateLinkSuccess (s.mem (s.qe s.sendQe).msg).dst
    (2 * maxRetxAttempts)))).qe = s.view.qe := congrArg View.qe hrec
  unfold giveUp
  dsimp only
  rw [hqe']
  generalize (s.record _).setQe s.sendQe { s.view.qe s.sendQe with txCount := 0 } = t at hqe
  have hdis := view_conditionalFQDiscard cfg t (fun _ => by rw [hqe]; exact hroom)
  have hmsg : ∀ q, (Function.update s.view.qe s.sendQe
      { s.view.qe s.sendQe with txCount := 0 } q).msg = (s.view.qe q).msg := by
    intro q
    by_cases hq : q = s.sendQe
    · rw [hq, Function.update_self]
    · rw [Function.update_of_ne hq]
  rw [hqe, View.discard_setQe cfg s.view hmsg] at hdis
  have hlt := View.length_discard_lt cfg hstack
  obtain ⟨h1, h2⟩ := view_pushTop (t.conditionalFQDiscard cfg) s.sendQe (by rw [hdis]; exact hlt)
  rw [h1, check_success, view_reportError _ (by decide), view_retryLater, view_clearSendQe, h2,
    hdis]
  rfl

theorem view_subSend (q : QePtr) (dst : UInt16) (len : UInt8) (r : TinyError) :
    (s.subSend q dst len r).1 = s.view.answer r ∧
      (s.subSend q dst len r).2.view =
        { s.view with
          pending := if s.view.answer r = .success then some (s.view.msgOf q)
            else s.view.pending } := by
  refine ⟨rfl, ?_⟩
  have hrec := view_record (s.setMsg (s.qe q).msg { s.mem (s.qe q).msg with dst := dst })
    (c := .subSend q dst ((s.setMsg (s.qe q).msg { s.mem (s.qe q).msg with dst := dst }).mem
      (s.qe q).msg) len (s.view.answer r)) rfl
  exact congrArg (fun w : View => { w with
    pending := if s.view.answer r = TinyError.success then some (s.view.msgOf q) else w.pending })
    hrec

theorem view_sendResult (msg : MsgPtr) (r : TinyError) :
    (s.sendResult cfg msg r).view =
      { s.view with
        posted := s.view.posted || r == .ebusy
        radioOn := s.view.radioOn && r != .eoff } := by
  have hsame : s.view = { s.view with
      posted := s.view.posted || false, radioOn := s.view.radioOn && true } := by
    rw [Bool.or_false, Bool.and_true]
  unfold sendResult
  cases r with
  | success => exact (s.view_reportError (by decide)).trans hsame
  | eoff =>
    rw [view_reportError _ (by decide)]
    exact congrArg₂ (fun b c => { s.view with posted := b, radioOn := c })
      (Bool.or_false _).symm (Bool.and_false _).symm
  | ebusy =>
    rw [view_reportError _ (by decide)]
    exact congrArg₂ (fun b c => { s.view with posted := b, radioOn := c })
      (Bool.or_true _).symm (Bool.and_true _).symm
  | esize => exact (view_reportError _ (by decide)).trans hsame
  | fail | ecancel | einval | eretry | ereserve | ealready | enomem | enoack => exact hsame

attribute [local irreducible] subSend sendResult giveUp

theorem view_transmit (a : Answers) :
    (s.transmit cfg a).view =
      { s.view with
        qe := Function.update s.view.qe s.view.sendQe
          { s.view.qe s.view.sendQe with txCount := (s.view.qe s.view.sendQe).txCount + 1 }
        pending := if s.view.answer a.subSend = .success then some (s.view.msgOf s.view.sendQe)
          else s.view.pending
        posted := s.view.posted || s.view.answer a.subSend == .ebusy
        radioOn := s.view.radioOn && s.view.answer a.subSend != .eoff } := by
  unfold transmit
  dsimp only
  rw [view_sendResult, (view_subSend _ _ _ _ _).1, (view_subSend _ _ _ _ _).2]
  have hmsg : (Function.update s.view.qe s.view.sendQe { s.view.qe s.view.sendQe with
      txCount := (s.view.qe s.view.sendQe).txCount + 1 } s.view.sendQe).msg =
      s.view.msgOf s.view.sendQe := by
    rw [Function.update_self]
    rfl
  exact congrArg (fun m => { s.view with
    qe := Function.update s.view.qe s.view.sendQe
      { s.view.qe s.view.sendQe with txCount := (s.view.qe s.view.sendQe).txCount + 1 }
    pending := if s.view.answer a.subSend = TinyError.success then some m else s.view.pending
    posted := s.view.posted || s.view.answer a.subSend == TinyError.ebusy
    radioOn := s.view.radioOn && s.view.answer a.subSend != TinyError.eoff }) hmsg

attribute [local irreducible] transmit

/-- Taking the top packet. -/
theorem view_takeNext {l : List QePtr} {q : QePtr} (now : UInt32)
    (hs : s.view.stack = l ++ [q]) :
    (s.takeNext now).view =
      { s.view with
        stack := l
        sendQe := q
        occupied := true
        qe := Function.update s.view.qe q { s.view.qe q with firstTxTime := now } } := by
  obtain ⟨h1, h2⟩ := s.view_popTop hs
  have hqe : s.popTop.2.qe = s.view.qe := congrArg View.qe h2
  have hset := s.popTop.2.view_setQe q { s.view.qe q with firstTxTime := now }
  rw [h2] at hset
  unfold takeNext
  dsimp only
  rw [h1, hqe]
  have hsend := view_setSendQe (s.popTop.2.setQe q { s.view.qe q with firstTxTime := now }) q
  rw [hset] at hsend
  exact congrArg (fun w : View => { w with occupied := true }) hsend

variable (cfg) in
/-- A null packet on the empty stack. -/
theorem view_pushNull {q : QePtr} {freeQe : List QePtr} {m : MsgPtr} {free : List MsgPtr}
    (now : UInt32) (hs : s.view.stack = []) (hq : s.view.freeQe = q :: freeQe)
    (hm : s.view.free = m :: free) :
    (s.pushNull cfg now).1 = true ∧
      (s.pushNull cfg now).2.view =
        { s.view with
          freeQe := freeQe
          free := free
          stack := [q]
          virtual := s.view.virtual - 1
          qe := Function.update s.view.qe q { arrivalTime := now, source := 1, msg := m } } := by
  obtain ⟨h1, h2⟩ := s.view_getQEntry hq
  obtain ⟨h3, h4⟩ := view_getMessage s.getQEntry.2 (by rw [h2]; exact hm)
  unfold pushNull
  simp only [h1, h3]
  rw [h2] at h4
  have hfill : (s.getQEntry.2.getMessage.2.fillNull cfg q m now).view =
      { s.getQEntry.2.getMessage.2.view with
        qe := Function.update s.getQEntry.2.getMessage.2.view.qe q
          { arrivalTime := now, source := 1, msg := m } } := rfl
  rw [h4] at hfill
  obtain ⟨h5, h6⟩ := view_pushTop (s.getQEntry.2.getMessage.2.fillNull cfg q m now) q
    (by rw [hfill]; simp [hs])
  rw [h5, check_success]
  rw [hfill] at h6
  refine ⟨by simp, ?_⟩
  have hst : s.view.stack ++ [q] = [q] := by rw [hs, List.nil_append]
  exact (congrArg (fun w : View => { w with virtual := w.virtual - 1 }) h6).trans
    (congrArg (fun l => { s.view with
      freeQe := freeQe
      free := free
      stack := l
      virtual := s.view.virtual - 1
      qe := Function.update s.view.qe q { arrivalTime := now, source := 1, msg := m } }) hst)

attribute [local irreducible] takeNext pushNull

end

end Forwarder

namespace View

variable {v v₁ : View} {a : Answers}

theorem Ready.occupied (h : Ready v a v₁) : v₁.occupied = true := by
  cases h with
  | current ho => exact ho
  | next => rfl
  | null => rfl

/-- With a packet to send neither pool is full, and the stack has not grown. -/
theorem Ready.room (hr : Ready v a v₁) (h : v.Counted) :
    (v₁.free.length < forwardingQueueSize + snoopQueueSize ∧
      v₁.freeQe.length < forwardingQueueSize) ∧ v₁.stack.length ≤ forwardingQueueSize - 1 := by
  have hlen := h.stack_le
  cases hr with
  | current ho => exact ⟨h.room (by simp [held_sending ho]), hlen⟩
  | next l q ho hroute hs =>
    refine ⟨h.room (by simp [held_idle ho, hs]), ?_⟩
    rw [hs, List.length_append] at hlen
    exact Nat.le_of_add_right_le hlen
  | null q freeQe m free ho hroute hs hv hq hm =>
    have h1 := h.entries
    have h2 := h.messages
    rw [hq, List.length_cons] at h1
    rw [hm, List.length_cons] at h2
    refine ⟨⟨?_, ?_⟩, Nat.zero_le _⟩
    · simp only
      omega
    · simp only
      omega

end View

namespace Forwarder

variable {cfg : Config} (s : Forwarder) {v : View} {a : Answers}

/-- `sendDataTask` with a packet to send. -/
theorem move_attempt {v₁ : View} (h : View.Counted { v with posted := false })
    (hp : v.posted = true) (hr : v.isRoot = false)
    (hready : View.Ready { v with posted := false } a v₁) (hs : s.view = v₁) :
    View.Move cfg v (.sendDataTask a) (s.attempt cfg a).view := by
  obtain ⟨hroom, hstack⟩ := hready.room h
  have htx : (s.qe s.sendQe).txCount = (v₁.qe v₁.sendQe).txCount := by rw [← hs]; rfl
  have hposted : v₁.posted = false := by cases hready <;> rfl
  unfold attempt
  rw [htx]
  split
  · next ht =>
    rw [view_giveUp s (hs ▸ hroom) (hs ▸ hstack), hs]
    exact .giveUp v v₁ a hp hr hready ht
  · next ht =>
    rw [view_transmit, hs, hposted, Bool.false_or]
    exact .transmit v v₁ a hp hr hready (UInt8.not_le.1 ht)

attribute [local irreducible] attempt

/-- `sendDataTask` with a next hop and something to send. -/
theorem move_sendNext (h : v.Counted) (hp : v.posted = true) (hr : v.isRoot = false)
    (hocc : v.occupied = false) (hne : a.route ≠ none) (hwork : v.stack ≠ [] ∨ v.virtual ≠ 0)
    (hs : s.view = { v with posted := false }) :
    View.Move cfg v (.sendDataTask a) (s.sendNext cfg a).view := by
  have h' : View.Counted { v with posted := false } :=
    ⟨h.entries, h.messages, h.stack_le, h.snoop_le⟩
  have hst : s.view.stack = v.stack := by rw [hs]
  unfold sendNext
  rw [stack_empty, hst]
  rcases List.eq_nil_or_concat' v.stack with hnil | ⟨l, q, hsnoc⟩
  · obtain ⟨⟨q, freeQe, hq⟩, m, free, hm⟩ :=
      h.free_of_held_nil ((View.held_idle hocc).trans hnil)
    have hq' : s.view.freeQe = q :: freeQe := by rw [hs]; exact hq
    have hm' : s.view.free = m :: free := by rw [hs]; exact hm
    obtain ⟨h1, h2⟩ := view_pushNull cfg s a.now (hst.trans hnil) hq' hm'
    rw [hnil]
    simp only [List.isEmpty_nil, if_true, h1]
    have hst' : (s.pushNull cfg a.now).2.view.stack = [] ++ [q] := by rw [h2]; rfl
    refine move_attempt _ h' hp hr ?_ (view_takeNext _ a.now hst')
    have hnull := View.Ready.null { v with posted := false } a q freeQe m free hocc hne hnil
      (hwork.resolve_left (not_not_intro hnil)) hq hm
    rw [h2, hs]
    simp only [Function.update_self, Function.update_idem]
    exact hnull
  · rw [if_neg (by simp [hsnoc])]
    refine move_attempt _ h' hp hr ?_ (view_takeNext _ a.now (hst.trans hsnoc))
    rw [hs]
    exact .next { v with posted := false } a l q hocc hne hsnoc

attribute [local irreducible] sendNext

/-- `sendDataTask`. -/
theorem move_sendDataTask (h : v.Counted) (hp : v.posted = true)
    (hs : s.view = { v with posted := false }) :
    View.Move cfg v (.sendDataTask a) (s.sendDataTask cfg a).view := by
  have hroot : s.view.isRoot = v.isRoot := by rw [hs]
  have ho : s.view.occupied = v.occupied := by rw [hs]
  have hst : s.view.stack = v.stack := by rw [hs]
  have hv : s.view.virtual = v.virtual := by rw [hs]
  have h' : View.Counted { v with posted := false } :=
    ⟨h.entries, h.messages, h.stack_le, h.snoop_le⟩
  unfold sendDataTask
  rw [show s.isRoot = v.isRoot from hroot, show s.sendQeOccupied = v.occupied from ho, stack_empty,
    hst, show s.virtualQueueSize = v.virtual from hv]
  cases hr : v.isRoot with
  | true => exact move_sendDataRoot s h hp hr hs
  | false =>
    rw [if_neg Bool.false_ne_true]
    cases hocc : v.occupied with
    | true => exact move_attempt s h' hp hr (.current _ a hocc) hs
    | false =>
      rw [if_neg Bool.false_ne_true]
      split
      · next hempty =>
        rw [Bool.and_eq_true, List.isEmpty_iff, beq_iff_eq] at hempty
        rw [view_reportError _ (by decide), hs]
        exact .taskEmpty v a hp hr hocc hempty.1 hempty.2
      · next hwork =>
        rw [Bool.and_eq_true, List.isEmpty_iff, beq_iff_eq, not_and_or] at hwork
        have hrec := s.view_record (c := .router (.updateRouting s.getBackpressure)) rfl
        rw [hs] at hrec
        cases hroute : a.route with
        | none =>
          change View.Move cfg v _ (retryLater _).view
          rw [view_retryLater, hrec]
          exact .noRoute v a hp hr hocc hwork hroute
        | some hop =>
          change View.Move cfg v _ ((setNextHopAddress _ hop).sendNext cfg a).view
          exact move_sendNext _ h hp hr hocc (by simp [hroute]) hwork hrec

attribute [local irreducible] sendDataTask

/-! ## `Send.send`, `SubReceive.receive` and `SubSnoop.receive` -/

theorem pool_ne_empty {α : Type} {size : Nat} {p : PoolP α size} {x : α} {l : List α}
    (h : p.toList = x :: l) : p.empty = false := by
  rw [Bool.eq_false_iff, ne_eq, PoolP.empty_iff, h]
  exact List.cons_ne_nil x l

variable (cfg) in
/-- A packet enters the queue, and `Send.send` succeeds. -/
theorem view_enqueue (h : s.view.Counted) (m : Message) (now : UInt32) :
    (s.enqueue cfg m now).1 = .success ∧ ∃ q freeQe msg free,
      (s.view.discard cfg).freeQe = q :: freeQe ∧ (s.view.discard cfg).free = msg :: free ∧
      (s.enqueue cfg m now).2.view =
        ({ s.view.discard cfg with
          freeQe := freeQe
          free := free
          qe := Function.update s.view.qe q { source := 1, arrivalTime := now, msg := msg }
          stack := View.inserted cfg (s.view.discard cfg).stack q }).activity := by
  obtain ⟨⟨q, freeQe, hq⟩, msg, free, hm⟩ := h.free_of_discard cfg
  have hdis := view_conditionalFQDiscard cfg s fun hne => h.room (by simp [View.held, hne])
  have hqe := View.discard_qe cfg s.view
  have hlt := View.length_discard_lt cfg h.stack_le
  unfold enqueue
  dsimp only
  generalize s.conditionalFQDiscard cfg = t at hdis
  rw [← hdis] at hq hm hlt hqe ⊢
  obtain ⟨h1, h2⟩ := t.view_getQEntry hq
  obtain ⟨h3, h4⟩ := view_getMessage t.getQEntry.2 (by rw [h2]; exact hm)
  rw [h2] at h4
  rw [pool_ne_empty hm, pool_ne_empty hq, if_neg Bool.false_ne_true, if_neg Bool.false_ne_true]
  simp only [h1, h3]
  have hset := view_setQe (t.getQEntry.2.getMessage.2.setMsg msg m) q
    { source := 1, arrivalTime := now, msg := msg }
  rw [view_setMsg, h4] at hset
  generalize (t.getQEntry.2.getMessage.2.setMsg msg m).setQe q
    { source := 1, arrivalTime := now, msg := msg } = u at hset
  obtain ⟨h5, h6⟩ := view_insert cfg u q (by rw [hset]; exact hlt)
  rw [if_pos h5]
  refine ⟨rfl, q, freeQe, msg, free, hq, hm, ?_⟩
  change ((u.insert cfg q).2.forwarderActivity.record .sendDone).view = _
  rw [view_record _ rfl, view_forwarderActivity, h6, hset, hqe]

variable (cfg) in
/-- An arrival enters the queue, and the radio gets a buffer of the pool. -/
theorem view_forward (h : s.view.Counted) (m : MsgPtr) (now : UInt32) :
    ∃ q freeQe newMsg free delay,
      (s.view.discard cfg).freeQe = q :: freeQe ∧ (s.view.discard cfg).free = newMsg :: free ∧
      (s.forward cfg m now).1 = newMsg ∧
      (s.forward cfg m now).2.view =
        ({ s.view.discard cfg with
          freeQe := freeQe
          free := free
          qe := Function.update s.view.qe q
            { source := 2, arrivalTime := now, bcpArrivalDelay := delay, msg := m }
          stack := View.inserted cfg (s.view.discard cfg).stack q }).activity := by
  obtain ⟨⟨q, freeQe, hq⟩, newMsg, free, hm⟩ := h.free_of_discard cfg
  have hdis := view_conditionalFQDiscard cfg s fun hne => h.room (by simp [View.held, hne])
  have hqe := View.discard_qe cfg s.view
  have hlt := View.length_discard_lt cfg h.stack_le
  unfold forward
  dsimp only
  generalize s.conditionalFQDiscard cfg = t at hdis
  rw [← hdis] at hq hm hlt hqe ⊢
  obtain ⟨h1, h2⟩ := t.view_getQEntry hq
  obtain ⟨h3, h4⟩ := view_getMessage t.getQEntry.2 (by rw [h2]; exact hm)
  rw [h2] at h4
  rw [pool_ne_empty hm, pool_ne_empty hq, if_neg Bool.false_ne_true, if_neg Bool.false_ne_true]
  simp only [h1, h3]
  generalize ((t.getQEntry.2.getMessage.2.setMsg newMsg {}).mem m).hdr.bcpDelay = delay
  have hset := view_setQe (t.getQEntry.2.getMessage.2.setMsg newMsg {}) q
    { source := 2, arrivalTime := now, bcpArrivalDelay := delay, msg := m }
  rw [view_setMsg, h4] at hset
  generalize (t.getQEntry.2.getMessage.2.setMsg newMsg {}).setQe q
    { source := 2, arrivalTime := now, bcpArrivalDelay := delay, msg := m } = u at hset
  obtain ⟨h5, h6⟩ := view_insert cfg u q (by rw [hset]; exact hlt)
  rw [if_pos h5]
  refine ⟨q, freeQe, newMsg, free, delay, hq, hm, rfl, ?_⟩
  change (u.insert cfg q).2.forwarderActivity.view = _
  rw [view_forwarderActivity, h6, hset, hqe]

attribute [local irreducible] enqueue forward

/-- `Send.send` of a running engine, of a payload that fits, succeeds. -/
theorem send_success (h : s.view.Counted) (m : Message) {len : UInt8} (now : UInt32)
    (hrun : s.running = true) (hlen : len ≤ maxPayloadLength cfg) :
    (s.send cfg m len now).1 = .success := by
  unfold send
  rw [if_neg (by simp [hrun]), if_neg (UInt8.not_lt.2 hlen)]
  exact (view_enqueue cfg { s with seqno := s.seqno + 1, dataSerial := s.dataSerial + 1 } h _ _).1

/-- `Send.send`. -/
theorem move_send (h : s.view.Counted) (m : Message) (len : UInt8) (now : UInt32) :
    View.Move cfg s.view (.send m len now) (s.send cfg m len now).2.view := by
  unfold send
  split
  · next hrun =>
    rw [Bool.not_eq_true'] at hrun
    exact .sendRefused s.view m len now (.inl hrun)
  · split
    · next hlen => exact .sendRefused s.view m len now (.inr hlen)
    · obtain ⟨-, q, freeQe, msg, free, hq, hm, hview⟩ :=
        view_enqueue cfg { s with seqno := s.seqno + 1, dataSerial := s.dataSerial + 1 } h
          (s.fillData cfg m len) now
      rw [hview]
      exact .sendAccepted s.view m len now q freeQe msg free hq hm

attribute [local irreducible] send

theorem view_latestForwardedTableUpdate (src origin : UInt16) (originSeqNo hopCount : UInt8) :
    (s.latestForwardedTableUpdate src origin originSeqNo hopCount).view = s.view := by
  unfold latestForwardedTableUpdate
  split
  · split
    · exact s.view_reportError (by decide)
    · rfl
  · rfl

/-- Noting a new packet moves nothing. -/
theorem view_accept (msg : MsgPtr) : (s.accept msg).view = s.view := by
  unfold accept
  dsimp only
  rw [view_setMsg, view_record _ rfl, view_record _ rfl, view_latestForwardedTableUpdate]
  rfl

attribute [local irreducible] accept

/-- A frame in a buffer of the radio, and the buffer the radio gets for it. -/
theorem arrive_view {msg : MsgPtr} {frame : Message} {f : Forwarder → MsgPtr × Forwarder}
    {s' : Forwarder} (h : s.arrive msg frame f = some s') :
    msg ∈ s.view.radio ∧ ∃ t, t.view = { s.view with radio := s.view.radio.erase msg } ∧
      t.mem msg = frame ∧ t.latestForwardedTable = s.latestForwardedTable ∧
      s' = { (f t).2 with radio := (f t).1 :: (f t).2.radio } := by
  unfold arrive at h
  split at h
  · next hm =>
    refine ⟨hm, { s with radio := s.radio.erase msg }.setMsg msg frame, rfl,
      Function.update_self .., rfl, (Option.some.inj h).symm⟩
  · cases h

variable (cfg) in
/-- The radio's buffers but for `msg`, and what a handler gives back for it. -/
theorem view_forward_radio (h : v.Counted) {msg : MsgPtr}
    (hs : s.view = { v with radio := v.radio.erase msg }) (now : UInt32) :
    ∃ q freeQe newMsg free delay,
      (v.discard cfg).freeQe = q :: freeQe ∧ (v.discard cfg).free = newMsg :: free ∧
      { (s.forward cfg msg now).2.view with
          radio := (s.forward cfg msg now).1 :: (s.forward cfg msg now).2.view.radio } =
        ({ v.discard cfg with
          freeQe := freeQe
          free := free
          qe := Function.update v.qe q
            { source := 2, arrivalTime := now, bcpArrivalDelay := delay, msg := msg }
          radio := newMsg :: v.radio.erase msg
          stack := View.inserted cfg (v.discard cfg).stack q }).activity := by
  have hc : s.view.Counted := by
    rw [hs]
    exact ⟨h.entries, h.messages, h.stack_le, h.snoop_le⟩
  obtain ⟨q, freeQe, newMsg, free, delay, hq, hf, h1, h2⟩ := view_forward cfg s hc msg now
  rw [hs, View.discard_radio] at hq hf h2
  refine ⟨q, freeQe, newMsg, free, delay, hq, hf, ?_⟩
  have hradio : (s.forward cfg msg now).2.view.radio = v.radio.erase msg := by
    rw [h2]
    rcases View.activity_cases _ with h | ⟨-, h⟩ | ⟨-, -, h⟩ <;> rw [h]
  rw [hradio, h1, h2, View.activity_radio]

/-- `SubReceive.receive`. -/
theorem move_subReceive (h : v.Counted) {msg : MsgPtr} {frame : Message} (hm : msg ∈ v.radio)
    (hs : s.view = { v with radio := v.radio.erase msg }) :
    View.Move cfg v (.receive msg frame a)
      { (s.subReceive cfg msg a).2.view with
        radio := (s.subReceive cfg msg a).1 :: (s.subReceive cfg msg a).2.view.radio } := by
  have hdrop : View.Move cfg v (.receive msg frame a)
      { s.view with radio := msg :: s.view.radio } := by
    rw [hs]
    exact .receiveDropped v msg frame a hm
  unfold subReceive
  cases s.verdict cfg (s.mem msg) with
  | oversized =>
    dsimp only
    rw [view_reportError _ (by decide)]
    exact hdrop
  | corrupted => exact hdrop
  | duplicate =>
    dsimp only
    rw [view_record _ rfl]
    exact hdrop
  | fresh =>
    have hacc := s.view_accept msg
    rw [hs] at hacc
    dsimp only
    generalize s.accept msg = s' at hacc
    have hroot : s'.isRoot = v.isRoot := congrArg View.isRoot hacc
    rw [hroot]
    cases hr : v.isRoot with
    | true =>
      obtain ⟨h1, h2⟩ := s'.view_signalReceive msg a.back
      rw [hacc] at h1 h2
      rw [if_pos rfl, h1, h2]
      exact .receiveRoot v msg frame a hm hr
    | false =>
      obtain ⟨q, freeQe, newMsg, free, delay, hq, hf, hview⟩ := view_forward_radio cfg s' h hacc a.now
      rw [if_neg Bool.false_ne_true, hview]
      exact .receiveForward v msg frame a delay q freeQe newMsg free hm hr hq hf

attribute [local irreducible] subReceive

/-- `SubSnoop.receive`. -/
theorem move_subSnoop (h : v.Counted) {msg : MsgPtr} {frame : Message} (hm : msg ∈ v.radio)
    (hs : s.view = { v with radio := v.radio.erase msg }) :
    View.Move cfg v (.snoop msg frame)
      { (s.subSnoop cfg msg).2.view with
        radio := (s.subSnoop cfg msg).1 :: (s.subSnoop cfg msg).2.view.radio } := by
  have hdrop : View.Move cfg v (.snoop msg frame)
      { s.view with radio := msg :: s.view.radio } := by
    rw [hs]
    exact .snoopDropped v msg frame hm
  have hsnoop : s.view.snoop = v.snoop := by rw [hs]
  have hfree : s.view.free = v.free := by rw [hs]
  have hsize : s.snoopQueue.size = v.snoop.length := by
    rw [← QueueC.length_toList]
    exact congrArg List.length hsnoop
  unfold subSnoop
  split
  · change View.Move cfg v _ { (s.reportError 0x36).view with
      radio := msg :: (s.reportError 0x36).view.radio }
    rw [view_reportError _ (by decide)]
    exact hdrop
  · split
    · exact hdrop
    · next hfull =>
      have hroom : v.snoop.length < snoopQueueSize :=
        Nat.lt_of_le_of_ne h.snoop_le (hsize ▸ hfull)
      split
      · exact hdrop
      · next hempty =>
        rw [PoolP.empty_iff] at hempty
        obtain ⟨newMsg, free, hf⟩ := List.exists_cons_of_ne_nil hempty
        change s.view.free = newMsg :: free at hf
        obtain ⟨h1, h2⟩ := s.view_getMessage hf
        have hq : s.getMessage.2.snoopQueue.toList = v.snoop := by
          rw [← hsnoop]
          exact congrArg View.snoop h2
        obtain ⟨h3, h4⟩ := QueueC.enqueue_ok msg (hq ▸ hroom)
        simp only [h1, h3]
        rw [if_neg (not_not_intro rfl)]
        rw [hs] at h2
        have hview : ({ s.getMessage.2 with
            snoopQueue := (s.getMessage.2.snoopQueue.enqueue msg).2
            snoopHandlerPosted := true } : Forwarder).view =
            { v with
              free := free
              snoop := v.snoop ++ [msg]
              radio := v.radio.erase msg } := by
          rw [← hq, ← h4]
          exact congrArg (fun w : View => { w with
            snoop := (s.getMessage.2.snoopQueue.enqueue msg).2.toList }) h2
        have key : ∀ u : Forwarder, u.view = { v with
              free := free
              snoop := v.snoop ++ [msg]
              radio := v.radio.erase msg } →
            View.Move cfg v (.snoop msg frame)
              { u.view with radio := newMsg :: u.view.radio } := by
          intro u hu
          rw [hu]
          exact .snoopQueued v msg frame newMsg free hm hroom (hfree ▸ hf)
        exact key _ hview

attribute [local irreducible] subSnoop

/-- `snoopHandlerTask`. -/
theorem move_snoopHandlerTask (h : s.view.Counted) (notify : Bool) :
    View.Move cfg s.view (.snoopHandlerTask notify)
      ({ s with snoopHandlerPosted := false }.snoopHandlerTask notify).view := by
  unfold snoopHandlerTask
  split
  · next hempty => exact .snoopIdle s.view notify ((QueueC.empty_iff _).1 hempty)
  · next hne =>
    rw [QueueC.empty_iff] at hne
    obtain ⟨msg, rest, hq⟩ := List.exists_cons_of_ne_nil hne
    have h1 : s.snoopQueue.first = msg := (QueueC.dequeue_cons hq).1
    have hlt : s.view.free.length < forwardingQueueSize + snoopQueueSize := by
      have hm := h.messages
      have hl := congrArg List.length hq
      change s.view.snoop.length = _ at hl
      rw [List.length_cons] at hl
      omega
    dsimp only
    generalize ht : ({ s with snoopHandlerPosted := false } : Forwarder).record _ = t
    have hview : t.view = s.view := by
      rw [← ht]
      exact view_record _ rfl
    obtain ⟨-, h2⟩ := QueueC.dequeue_cons ((congrArg View.snoop hview).trans hq)
    rw [h1]
    have hdeq : ({ t with
        notifyBurstyLinkNeighbor := if notify then (s.mem msg).src else t.notifyBurstyLinkNeighbor
        snoopQueue := t.snoopQueue.dequeue.2 } : Forwarder).view = { s.view with snoop := rest } := by
      rw [← hview, ← h2]
      rfl
    rw [view_putMessage _ _ _ (by rw [hdeq]; exact hlt), hdeq]
    exact .snoopHandled s.view notify msg rest hq

/-- The packet at the link is done. -/
theorem move_finish {m : MsgPtr} (h : v.Counted) (hp : v.pending = some m)
    (ho : v.occupied = true) (now : UInt32) (hs : s.view = { v with pending := none }) :
    View.Move cfg v (.subSendDone .success true now) (s.finish now).view := by
  have hroom := h.room (by simp [View.held_sending ho])
  have hq : s.view.sendQe = v.sendQe := by rw [hs]
  have hrec : ∀ c c' : RoutingTable.Command,
      ((s.record (.router c)).record (.router c')).view = { v with pending := none } := by
    intro c c'
    rw [view_record _ rfl, view_record _ rfl, hs]
  unfold finish
  dsimp only
  generalize ht : (s.record _).record _ = t
  have hview : t.view = { v with pending := none } := by
    rw [← ht]
    exact hrec _ _
  have hqe : s.qe = t.qe := by
    change s.view.qe = t.view.qe
    rw [hs, hview]
  have hrel := t.view_release s.sendQe 0x37 0x41 (by rw [hview]; exact hroom)
  rw [view_forwarderActivity, view_stopSending, view_clearSendQe, hqe, hrel, hview,
    show s.sendQe = v.sendQe from hq]
  exact .finish v m now hp

/-- `SubSend.sendDone`. -/
theorem move_subSendDone {m : MsgPtr} (h : v.Owned cfg) (hp : v.pending = some m)
    (error : TinyError) (acked : Bool) (now : UInt32) (hs : s.view = { v with pending := none }) :
    View.Move cfg v (.subSendDone error acked now) (s.subSendDone m error acked now).view := by
  obtain ⟨ho, hm⟩ := h.pending m hp
  have hne : v.sendQe ≠ .null := h.held_ne_null (by simp [View.held_sending ho])
  have hq : s.sendQe = v.sendQe := by
    change s.view.sendQe = _
    rw [hs]
  have hqm : (s.qe v.sendQe).msg = m := by
    change s.view.msgOf v.sendQe = m
    rw [hs]
    exact hm
  have hfail : ∀ t : Forwarder, t.view = s.view →
      View.Move cfg v (.subSendDone error acked now) ({ t with sendDataPosted := true }).view := by
    intro t ht
    have hview : ({ t with sendDataPosted := true } : Forwarder).view =
        { v with pending := none, posted := true } :=
      congrArg (fun w : View => { w with posted := true }) (ht.trans hs)
    rw [hview]
    exact .sendFailed v m error acked now hp
  unfold subSendDone
  have hguard : ¬ (s.sendQe = .null ∨ (s.qe s.sendQe).msg ≠ m) := by simp [hq, hqm, hne]
  rw [if_neg hguard]
  split
  · exact hfail s rfl
  · next herror =>
    rw [not_not] at herror
    subst herror
    cases acked with
    | false => exact hfail _ (s.view_record rfl)
    | true => exact move_finish s h.counted hp ho now hs

attribute [local irreducible] subSendDone

/-! ## Beacons and the radio -/

theorem view_sendBeaconTask (r : TinyError) :
    ∃ off, (s.sendBeaconTask r).view = { s.view with radioOn := s.view.radioOn && !off } := by
  have hon : s.view = { s.view with radioOn := s.view.radioOn && !false } := by
    rw [Bool.not_false, Bool.and_true]
  unfold sendBeaconTask
  dsimp only
  generalize (if s.beaconPending then TinyError.ebusy else r) = ret
  have hrec := s.view_record (c := .beaconSend s.getBackpressure ret) rfl
  generalize s.record _ = t at hrec
  split
  · exact ⟨false, hrec.trans hon⟩
  · refine ⟨true, ?_⟩
    rw [Bool.not_true, Bool.and_false]
    exact congrArg (fun w : View => { w with radioOn := false }) hrec
  · exact ⟨false, hrec.trans hon⟩

theorem view_beaconReceive (src bcpBackpressure : UInt16) (len : UInt8) :
    (s.beaconReceive src bcpBackpressure len).view = s.view := by
  unfold beaconReceive
  dsimp only
  split
  · exact s.view_reportError (by decide)
  · rw [view_record _ rfl]
    exact s.view_reportError (by decide)

theorem view_beaconFired : s.beaconFired.view = s.view := by
  unfold beaconFired
  dsimp only
  split
  · rfl
  · rfl

/-- `RadioControl.startDone`. -/
theorem move_startDone (error : TinyError) :
    View.Move cfg s.view (.startDone error) (s.startDone error).view := by
  unfold startDone
  split
  · next h =>
    rw [h, view_forwarderActivity]
    exact .startDone s.view
  · next h => exact .startFailed s.view error h

/-- `RadioControl.stopDone`. -/
theorem move_stopDone (error : TinyError) :
    View.Move cfg s.view (.stopDone error) (s.stopDone error).view := by
  unfold stopDone
  split
  · next h =>
    rw [h]
    exact .stopDone s.view
  · next h => exact .stopFailed s.view error h

/-- `txRetryTimer.fired`. -/
theorem move_txRetryFired (h : s.txRetryTimer.isRunning = true) :
    View.Move cfg s.view .txRetryTimerFired
      ({ s with txRetryTimer := s.txRetryTimer.expire }.txRetryFired).view := by
  unfold txRetryFired
  split
  · next hs =>
    rw [Bool.not_eq_true'] at hs
    exact .txRetry s.view s.txRetryTimer.expire.isRunning h hs
  · next hs =>
    rw [Bool.not_eq_true', Bool.not_eq_false] at hs
    exact .txRetryIdle s.view s.txRetryTimer.expire.isRunning h hs

attribute [local irreducible] sendBeaconTask beaconReceive beaconFired startDone stopDone
  txRetryFired

/-- **A node whose buffers are each in one place makes the moves of its view.** -/
theorem step_move {e : Event} {s' : Forwarder} (h : s.view.Owned cfg)
    (hstep : s.step cfg e = some s') : View.Move cfg s.view e s'.view := by
  cases e with
  | start => exact Option.some.inj hstep ▸ .start s.view
  | stop => exact Option.some.inj hstep ▸ .stop s.view
  | setRoot => exact Option.some.inj hstep ▸ .setRoot s.view
  | unsetRoot => exact Option.some.inj hstep ▸ .unsetRoot s.view
  | startDone error => exact Option.some.inj hstep ▸ s.move_startDone error
  | stopDone error => exact Option.some.inj hstep ▸ s.move_stopDone error
  | send m len now =>
    rw [← Option.some.inj hstep, view_record _ rfl]
    exact s.move_send h.counted m len now
  | receive msg frame a =>
    unfold step at hstep
    obtain ⟨hm, t, ht, -, -, hs'⟩ := s.arrive_view hstep
    rw [hs']
    exact t.move_subReceive h.counted hm ht
  | snoop msg frame =>
    unfold step at hstep
    obtain ⟨hm, t, ht, -, -, hs'⟩ := s.arrive_view hstep
    rw [hs']
    exact t.move_subSnoop h.counted hm ht
  | sendDataTask a =>
    obtain ⟨hp, hs'⟩ := Option.ite_none_right_eq_some.1 hstep
    exact Option.some.inj hs' ▸ move_sendDataTask _ h.counted hp rfl
  | snoopHandlerTask notify =>
    obtain ⟨-, hs'⟩ := Option.ite_none_right_eq_some.1 hstep
    exact Option.some.inj hs' ▸ s.move_snoopHandlerTask h.counted notify
  | sendBeaconTask r =>
    obtain ⟨-, hs'⟩ := Option.ite_none_right_eq_some.1 hstep
    obtain ⟨off, hview⟩ := view_sendBeaconTask { s with sendBeaconPosted := false } r
    rw [← Option.some.inj hs', hview]
    exact .sendBeaconTask s.view r off
  | txRetryTimerFired =>
    obtain ⟨ht, hs'⟩ := Option.ite_none_right_eq_some.1 hstep
    exact Option.some.inj hs' ▸ s.move_txRetryFired ht
  | beaconTimerFired =>
    obtain ⟨-, hs'⟩ := Option.ite_none_right_eq_some.1 hstep
    rw [← Option.some.inj hs', view_beaconFired]
    exact .beaconTimerFired s.view
  | subSendDone error acked now =>
    cases hp : s.pending with
    | none => simp [step, hp] at hstep
    | some m =>
      simp only [step, hp, Option.some.injEq] at hstep
      exact hstep ▸ move_subSendDone _ h hp error acked now rfl
  | beaconSendDone =>
    obtain ⟨-, hs'⟩ := Option.ite_none_right_eq_some.1 hstep
    exact Option.some.inj hs' ▸ .beaconSendDone s.view
  | beaconReceive src bcpBackpressure len =>
    rw [← Option.some.inj hstep, view_beaconReceive]
    exact .beaconReceive s.view src bcpBackpressure len

end Forwarder

end BCP
