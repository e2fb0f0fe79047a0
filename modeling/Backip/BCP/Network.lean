import Backip.BCP.Forwarding
import Backip.Lib.Machine

/-!
# A network of BCP nodes, and duplicate suppression

Each node runs a `Forwarder`. The message a node's link has accepted may go on the air, with the
node as its source, any number of times until `sendDone` is signalled, and what is on the air may
arrive at the node it is addressed to, and be overheard by any node, any number of times or not at
all: a link retransmits, loses frames, and loses acknowledgements, after which the engine sends the
packet again.

A receiver keeps the origin, the sequence number and the hop count of the last packet of each
neighbor, eight bits of the two numbers, and not the packet type. `Forwarder.Honest` says that the
headers of a node's messages agree with the packets they carry, and each entry of its table with the
last packet received from that neighbor. Every handler keeps it, so all messages of a network are
honest (`Network.honest_step`), and an arrival is discarded as a duplicate only if it is the packet
received before, or collides with it (`Ident.Collides`).
-/

set_option autoImplicit false

namespace BCP

/-- The nodes' builds. -/
structure Deployment where
  cfg : UInt16 → Config
  tosNodeId : ∀ a, (cfg a).tosNodeId = a

structure Network where
  nodes : UInt16 → Forwarder
  /-- The frames sent so far, the last one first. -/
  air : List Message

namespace Network

inductive Event
  /-- Something other than the arrival of a frame happens to node `a`. -/
  | node (a : UInt16) (e : BCP.Event)
  /-- The link of node `a` transmits. -/
  | transmit (a : UInt16)
  /-- The frame `air[i]` arrives at `b` in the buffer `msg`. -/
  | receive (b : UInt16) (i : Nat) (msg : MsgPtr) (a : Answers)
  | snoop (b : UInt16) (i : Nat) (msg : MsgPtr)

/-- An event of a node that is not the arrival of a frame. -/
def ownEvent : BCP.Event → Bool
  | .receive .. | .snoop .. => false
  | _ => true

/-- Node `a` takes the step `e`. -/
def stepAt (d : Deployment) (n : Network) (a : UInt16) (e : BCP.Event) : Option Network :=
  ((n.nodes a).step (d.cfg a) e).map fun s => { n with nodes := Function.update n.nodes a s }

/-- What the link of `a` puts on the air. -/
def frameOf (n : Network) (a : UInt16) (msg : MsgPtr) : Message :=
  { (n.nodes a).mem msg with src := a }

def step (d : Deployment) (n : Network) : Event → Option Network
  | .node a e => if ownEvent e then n.stepAt d a e else none
  | .transmit a =>
    (n.nodes a).pending.map fun msg => { n with air := n.frameOf a msg :: n.air }
  | .receive b i msg a =>
    match n.air[i]? with
    | some frame =>
      if frame.dst = b ∨ frame.dst = tosBcastAddr then n.stepAt d b (.receive msg frame a)
      else none
    | none => none
  | .snoop b i msg =>
    match n.air[i]? with
    | some frame => n.stepAt d b (.snoop msg frame)
    | none => none

def machine (d : Deployment) : Machine Network Event where
  init n := n = ⟨fun a => .boot (d.cfg a), []⟩
  step := step d

end Network

/-! ## Duplicate suppression -/

/-- The last packet received from `src` that was not discarded; the calls are the last one first. -/
def lastProcessed (calls : List Call) (src : UInt16) : Option Ident :=
  calls.findSome? fun
    | .processed src' id => if src' = src then some id else none
    | _ => none

/-- Whatever was discarded as a duplicate of `src` is the packet received from `src` before. -/
def OnlyDuplicates (calls : List Call) : Prop :=
  ∀ src id rest, Call.duplicate src id :: rest <:+ calls → lastProcessed rest src = some id

/-- Two packets that the eight bits of their numbers do not tell apart, although they differ in the
kind, or by a multiple of 256 in the serial number or the hops. -/
def Ident.Collides (x y : Ident) : Prop :=
  x ≠ y ∧ x.origin = y.origin ∧ x.serial % 256 = y.serial % 256 ∧ x.hops % 256 = y.hops % 256

instance (x y : Ident) : Decidable (x.Collides y) := by
  unfold Ident.Collides
  infer_instance

/-- The entry of a neighbor in `latestForwardedTable`. -/
def known (l : List LatestForwardedEntry) (src : UInt16) : Option LatestForwardedEntry :=
  (Forwarder.latestForwardedTableFind l src).bind (l[·]?)

/-- An arrival that `SubReceive.receive` compares with the entry of its sender. -/
def Forwarder.Compares (cfg : Config) (s : Forwarder) (m : Message) : Prop :=
  m.length ≤ cfg.subMaxPayloadLength ∧ m.checksumOk = true ∧
    (known s.latestForwardedTable m.src).isSome = true

instance (cfg : Config) (s : Forwarder) (m : Message) : Decidable (s.Compares cfg m) := by
  unfold Forwarder.Compares
  infer_instance

/-- An arrival that is compared does not collide with the packet received from its sender before. -/
def Network.Distinct (d : Deployment) (n : Network) : Network.Event → Prop
  | .receive b i _ _ => ∀ frame ∈ n.air[i]?, (n.nodes b).Compares (d.cfg b) frame →
      ∀ id ∈ lastProcessed (n.nodes b).calls frame.src, ¬ id.Collides frame.ident
  | _ => True

instance (d : Deployment) (n : Network) (e : Network.Event) : Decidable (n.Distinct d e) := by
  unfold Network.Distinct
  split <;> infer_instance

end BCP

namespace BCP

/-! ## Messages and their packets -/

/-- The header agrees with the packet it belongs to. -/
structure Message.Genuine (m : Message) : Prop where
  origin : m.hdr.origin = m.ident.origin
  originSeqNo : m.hdr.originSeqNo = UInt8.ofNat m.ident.serial
  hopCount : m.hdr.hopCount = UInt8.ofNat m.ident.hops

/-- The entry of the last packet `id` received from a neighbor. -/
structure LatestForwardedEntry.Of (e : LatestForwardedEntry) (id : Ident) : Prop where
  origin : e.origin = id.origin
  originSeqNo : e.originSeqNo = UInt8.ofNat id.serial
  hopCount : e.hopCount = UInt8.ofNat id.hops

theorem ofNat_eq_iff {m n : Nat} : UInt8.ofNat m = UInt8.ofNat n ↔ m % 256 = n % 256 := by
  rw [← UInt8.toNat_inj, UInt8.toNat_ofNat', UInt8.toNat_ofNat']

/-- A packet with the numbers of the last one is the last one, or collides with it. -/
theorem eq_of_not_collides {id : Ident} {e : LatestForwardedEntry} {m : Message} (he : e.Of id)
    (hm : m.Genuine) (horigin : e.origin = m.hdr.origin)
    (hseq : e.originSeqNo = m.hdr.originSeqNo) (hhop : e.hopCount = m.hdr.hopCount)
    (hc : ¬ id.Collides m.ident) : id = m.ident := by
  by_contra hne
  refine hc ⟨hne, ?_, ofNat_eq_iff.1 ?_, ofNat_eq_iff.1 ?_⟩
  · rw [← he.origin, horigin, hm.origin]
  · rw [← he.originSeqNo, hseq, hm.originSeqNo]
  · rw [← he.hopCount, hhop, hm.hopCount]

/-! ## The table of latest packets -/

theorem known_eq_find? (l : List LatestForwardedEntry) (src : UInt16) :
    known l src = if src = tosBcastAddr then none else l.find? (·.neighbor == src) := by
  unfold known Forwarder.latestForwardedTableFind
  split
  · rfl
  · exact List.find?_eq_bind_findIdx?_getElem?.symm

/-- Changing the entry of a neighbor changes what is found for this neighbor. -/
theorem find?_modify {src : UInt16} {f : LatestForwardedEntry → LatestForwardedEntry}
    (hf : ∀ e, (f e).neighbor = e.neighbor) {l : List LatestForwardedEntry} {i : Nat}
    (hi : l.findIdx? (·.neighbor == src) = some i) (src' : UInt16) :
    (l.modify i f).find? (·.neighbor == src') =
      if src' = src then (l.find? (·.neighbor == src)).map f
      else l.find? (·.neighbor == src') := by
  induction l generalizing i with
  | nil => cases hi
  | cons e l ih =>
    rw [List.findIdx?_cons] at hi
    by_cases he : e.neighbor = src
    · simp only [he, beq_self_eq_true, if_true, Option.some.injEq] at hi
      subst hi
      by_cases hs : src' = src
      · simp [hf, he, hs]
      · have hne : ¬ src = src' := Ne.symm hs
        simp [hf, he, hs, hne]
    · simp only [beq_iff_eq, he, if_false, Option.map_eq_some_iff] at hi
      obtain ⟨j, hj, rfl⟩ := hi
      by_cases hs : src' = src
      · subst hs
        simpa [he] using ih hj
      · by_cases hs' : e.neighbor = src'
        · simp [hs, hs']
        · simpa [hs, hs'] using ih hj

theorem known_none {l : List LatestForwardedEntry} {src : UInt16}
    (h : Forwarder.latestForwardedTableFind l src = none) : known l src = none := by
  unfold known
  rw [h]
  rfl

/-- After an update the entry of the neighbor is the new one, and the others are as before. -/
theorem known_update (s : Forwarder) (src origin : UInt16) (originSeqNo hopCount : UInt8)
    {src' : UInt16} {e : LatestForwardedEntry}
    (he : e ∈ known
      (s.latestForwardedTableUpdate src origin originSeqNo hopCount).latestForwardedTable src') :
    src' = src ∧ e.origin = origin ∧ e.originSeqNo = originSeqNo ∧ e.hopCount = hopCount ∨
      src' ≠ src ∧ e ∈ known s.latestForwardedTable src' := by
  unfold Forwarder.latestForwardedTableUpdate at he
  cases hfind : Forwarder.latestForwardedTableFind s.latestForwardedTable src with
  | none =>
    have hnone := known_none hfind
    rw [hfind] at he
    dsimp only at he
    split at he
    · refine .inr ⟨?_, he⟩
      rintro rfl
      change e ∈ known s.latestForwardedTable src' at he
      rw [hnone] at he
      cases he
    · rw [known_eq_find?] at he hnone
      by_cases hb : src' = tosBcastAddr
      · rw [if_pos hb] at he
        cases he
      · rw [if_neg hb, List.find?_append] at he
        by_cases hs : src' = src
        · subst hs
          rw [if_neg hb] at hnone
          simp only [hnone, Option.none_or, List.find?_singleton, beq_self_eq_true, if_true,
            Option.mem_def, Option.some.injEq] at he
          subst he
          exact .inl ⟨rfl, rfl, rfl, rfl⟩
        · have hne : (src == src') = false := beq_eq_false_iff_ne.2 (Ne.symm hs)
          simp only [List.find?_singleton, hne, Bool.false_eq_true, if_false, Option.or_none] at he
          refine .inr ⟨hs, ?_⟩
          rw [known_eq_find?, if_neg hb]
          exact he
  | some i =>
    rw [hfind] at he
    dsimp only at he
    unfold Forwarder.latestForwardedTableFind at hfind
    split at hfind
    · cases hfind
    · rw [known_eq_find?] at he
      split at he
      · cases he
      · next hb =>
        rw [find?_modify (f := fun e => { e with
          origin := origin
          originSeqNo := originSeqNo
          hopCount := hopCount }) (fun _ => rfl) hfind] at he
        split at he
        · next hs =>
          obtain ⟨e', -, rfl⟩ := Option.map_eq_some_iff.1 he
          exact .inl ⟨hs, rfl, rfl, rfl⟩
        · next hs =>
          refine .inr ⟨hs, ?_⟩
          rw [known_eq_find?, if_neg hb]
          exact he

/-- What an update leaves as it is. -/
theorem update_frame (s : Forwarder) (src origin : UInt16) (originSeqNo hopCount : UInt8) :
    let t := s.latestForwardedTableUpdate src origin originSeqNo hopCount
    t.mem = s.mem ∧ t.seqno = s.seqno ∧ t.nullSeqNo = s.nullSeqNo ∧
      t.dataSerial = s.dataSerial ∧ t.nullSerial = s.nullSerial ∧
      (t.calls = s.calls ∨ t.calls = .reportError 0x38 :: s.calls) := by
  unfold Forwarder.latestForwardedTableUpdate
  split
  · split
    · exact ⟨rfl, rfl, rfl, rfl, rfl, .inr rfl⟩
    · exact ⟨rfl, rfl, rfl, rfl, rfl, .inl rfl⟩
  · exact ⟨rfl, rfl, rfl, rfl, rfl, .inl rfl⟩

/-- A duplicate is an arrival that is compared and has the numbers noted for its sender. -/
theorem verdict_duplicate_iff {cfg : Config} {s : Forwarder} {m : Message} :
    s.verdict cfg m = .duplicate ↔ s.Compares cfg m ∧ ∃ e ∈ known s.latestForwardedTable m.src,
      e.origin = m.hdr.origin ∧ e.originSeqNo = m.hdr.originSeqNo ∧
        e.hopCount = m.hdr.hopCount := by
  have hknown : (Forwarder.latestForwardedTableFind s.latestForwardedTable m.src).bind
      (s.latestForwardedTable[·]?) = known s.latestForwardedTable m.src := rfl
  unfold Forwarder.verdict Forwarder.Compares
  rw [hknown]
  by_cases hlen : m.length > cfg.subMaxPayloadLength
  · have hnot : ¬ m.length ≤ cfg.subMaxPayloadLength := UInt8.not_le.2 hlen
    simp [hlen, hnot]
  · have hle : m.length ≤ cfg.subMaxPayloadLength := UInt8.not_lt.1 hlen
    cases hsum : m.checksumOk with
    | false => simp [hlen]
    | true =>
      cases hk : known s.latestForwardedTable m.src with
      | none => simp [hlen]
      | some e =>
        by_cases hsame : e.origin = m.hdr.origin ∧ e.originSeqNo = m.hdr.originSeqNo ∧
          e.hopCount = m.hdr.hopCount
        · simp [hlen, hle, hsame]
        · simp [hlen, hle, hsame]

/-! ## Records -/

/-- A call that is not the arrival of a packet. -/
def Call.quiet : Call → Bool
  | .processed .. | .duplicate .. => false
  | _ => true

@[simp] theorem lastProcessed_quiet {c : Call} (hc : c.quiet = true) (calls : List Call)
    (src : UInt16) : lastProcessed (c :: calls) src = lastProcessed calls src := by
  cases c with
  | processed | duplicate => cases hc
  | _ => rfl

theorem onlyDuplicates_cons {c : Call} {calls : List Call} :
    OnlyDuplicates (c :: calls) ↔ OnlyDuplicates calls ∧
      ∀ src id, c = .duplicate src id → lastProcessed calls src = some id := by
  unfold OnlyDuplicates
  simp only [List.suffix_cons_iff, List.cons.injEq]
  constructor
  · intro h
    exact ⟨fun src id rest hr => h src id rest (.inr hr),
      fun src id hc => h src id calls (.inl ⟨hc.symm, rfl⟩)⟩
  · rintro ⟨h, hc⟩ src id rest (⟨rfl, rfl⟩ | hr)
    · exact hc src id rfl
    · exact h src id rest hr

theorem onlyDuplicates_quiet {c : Call} (hc : c.quiet = true) {calls : List Call} :
    OnlyDuplicates (c :: calls) ↔ OnlyDuplicates calls := by
  rw [onlyDuplicates_cons, and_iff_left]
  rintro src id rfl
  cases hc

namespace Forwarder

/-- The messages of a node are genuine, its counters number its packets, its table knows the last
packet of each neighbor, and it has discarded nothing but duplicates. -/
structure Honest (s : Forwarder) : Prop where
  mem : ∀ p, (s.mem p).Genuine
  seqno : s.seqno = UInt8.ofNat s.dataSerial
  nullSeqNo : s.nullSeqNo = UInt8.ofNat s.nullSerial
  table : ∀ src, ∀ e ∈ known s.latestForwardedTable src,
    ∃ id, lastProcessed s.calls src = some id ∧ e.Of id
  duplicates : OnlyDuplicates s.calls

/-- The variables `Honest` reads. -/
def facts (s : Forwarder) :=
  (s.mem, s.seqno, s.nullSeqNo, s.dataSerial, s.nullSerial, s.latestForwardedTable, s.calls)

namespace Honest

variable {cfg : Config} {s : Forwarder} (h : s.Honest)
include h

theorem record {c : Call} (hc : c.quiet = true) : (s.record c).Honest := by
  refine ⟨h.mem, h.seqno, h.nullSeqNo, ?_, (onlyDuplicates_quiet hc).2 h.duplicates⟩
  intro src e he
  obtain ⟨id, hid, hof⟩ := h.table src e he
  exact ⟨id, (lastProcessed_quiet hc ..).trans hid, hof⟩

theorem setMsg (msg : MsgPtr) {m : Message} (hm : m.Genuine) : (s.setMsg msg m).Honest := by
  refine ⟨?_, h.seqno, h.nullSeqNo, h.table, h.duplicates⟩
  intro p
  by_cases hp : p = msg
  · simpa [Forwarder.setMsg, hp] using hm
  · simpa [Forwarder.setMsg, hp] using h.mem p

/-- The other variables do not matter. -/
theorem of_facts {s' : Forwarder} (hs : s'.facts = s.facts) : s'.Honest := by
  simp only [facts, Prod.mk.injEq] at hs
  obtain ⟨hmem, hseq, hnull, hd, hn, htable, hcalls⟩ := hs
  refine ⟨?_, ?_, ?_, ?_, ?_⟩
  · rw [hmem]
    exact h.mem
  · rw [hseq, hd]
    exact h.seqno
  · rw [hnull, hn]
    exact h.nullSeqNo
  · rw [htable, hcalls]
    exact h.table
  · rw [hcalls]
    exact h.duplicates

theorem check (ret : TinyError) (code : UInt8) : (s.check ret code).Honest := by
  unfold Forwarder.check
  split
  · exact h.record rfl
  · exact h

theorem putMessage (msg : MsgPtr) (code : UInt8) : (s.putMessage msg code).Honest := by
  have hpool : Honest { s with messagePool := (s.messagePool.put msg).2 } := h.of_facts rfl
  exact (hpool.record rfl).check _ _

theorem putQEntry (q : QePtr) (code : UInt8) : (s.putQEntry q code).Honest := by
  have hpool : Honest { s with qEntryPool := (s.qEntryPool.put q).2 } := h.of_facts rfl
  exact (hpool.record rfl).check _ _

theorem getMessage : s.getMessage.2.Honest := h.of_facts rfl

theorem getQEntry : s.getQEntry.2.Honest := h.of_facts rfl

theorem popTop : s.popTop.2.Honest := h.of_facts rfl

theorem popBottom : s.popBottom.2.Honest := h.of_facts rfl

theorem pushTop (q : QePtr) : (s.pushTop q).2.Honest := h.of_facts rfl

theorem pushBottom (q : QePtr) : (s.pushBottom q).2.Honest := h.of_facts rfl

theorem insert (q : QePtr) : (s.insert cfg q).2.Honest := by
  unfold Forwarder.insert
  split
  · exact h.pushTop q
  · exact h.pushBottom q

theorem setQe (q : QePtr) (e : FeQueueEntry) : (s.setQe q e).Honest := h.of_facts rfl

theorem forwarderActivity : s.forwarderActivity.Honest := by
  unfold Forwarder.forwarderActivity
  repeat' split
  all_goals exact h.of_facts rfl

theorem signalReceive (msg back : MsgPtr) : (s.signalReceive msg back).2.Honest := by
  unfold Forwarder.signalReceive
  have hrec : (s.record (.receive msg (s.mem msg))).Honest := h.record rfl
  dsimp only
  split
  · exact hrec.of_facts rfl
  · exact hrec

attribute [local irreducible] Forwarder.check Forwarder.putMessage Forwarder.putQEntry
  Forwarder.getMessage Forwarder.getQEntry Forwarder.popTop Forwarder.popBottom Forwarder.pushTop
  Forwarder.pushBottom Forwarder.insert Forwarder.forwarderActivity
  Forwarder.signalReceive

theorem conditionalFQDiscard : (s.conditionalFQDiscard cfg).Honest := by
  unfold Forwarder.conditionalFQDiscard
  have hput := (h.popBottom.putMessage (s.popBottom.2.qe s.popBottom.1).msg 0x59).putQEntry
    s.popBottom.1 0x39
  split
  · dsimp only
    split
    · exact hput.of_facts rfl
    · exact hput
  · exact h

theorem stopSending : s.stopSending.Honest := h.of_facts rfl

theorem retryLater : s.retryLater.Honest := h.of_facts rfl

theorem setSendQe (q : QePtr) : (s.setSendQe q).Honest := h.of_facts rfl

theorem setLoopback (msg : MsgPtr) : (s.setLoopback msg).Honest := h.of_facts rfl

theorem clearSendQe : s.clearSendQe.Honest := h.of_facts rfl

theorem setNextHopAddress (hop : UInt16 × UInt16) : (s.setNextHopAddress hop).Honest :=
  h.of_facts rfl

theorem reportError (code : UInt8) : (s.reportError code).Honest := h.record rfl

attribute [local irreducible] Forwarder.conditionalFQDiscard Forwarder.stopSending
  Forwarder.retryLater Forwarder.setSendQe Forwarder.setLoopback Forwarder.clearSendQe
  Forwarder.reportError

/-! ### `sendDataTask` -/

theorem serveRoot (q : QePtr) (back : MsgPtr) : (s.serveRoot q back).Honest := by
  unfold Forwarder.serveRoot
  dsimp only
  exact (((((h.setMsg _ (h.mem _)).putMessage _ _).putQEntry _ _).signalReceive _ _).setLoopback
    _).forwarderActivity

theorem sendDataRoot (back : MsgPtr) : (s.sendDataRoot back).Honest := by
  unfold Forwarder.sendDataRoot
  dsimp only
  split
  · exact h.stopSending.clearSendQe.serveRoot _ _
  · split
    · exact h.stopSending.reportError _
    · exact (h.stopSending.popTop.setSendQe _).serveRoot _ _

/-- A null packet is the next one of its kind. -/
theorem fillNull (q : QePtr) (msg : MsgPtr) (now : UInt32) :
    (s.fillNull cfg q msg now).Honest := by
  have hnext : s.nullSeqNo + 1 = UInt8.ofNat (s.nullSerial + 1) := by
    rw [h.nullSeqNo, UInt8.ofNat_add]
    rfl
  have hset := setMsg h msg (m := { s.mem msg with
    hdr := { (s.mem msg).hdr with
      hopCount := 0
      origin := cfg.tosNodeId
      originSeqNo := s.nullSeqNo
      bcpDelay := 0
      txCount := 0
      pktType := pktNull }
    ident := ⟨cfg.tosNodeId, pktNull, s.nullSerial, 0⟩ }) ⟨rfl, h.nullSeqNo, rfl⟩
  unfold Forwarder.fillNull
  refine setQe ?_ _ _
  exact ⟨hset.mem, hset.seqno, hnext, hset.table, hset.duplicates⟩

attribute [local irreducible] Forwarder.serveRoot Forwarder.sendDataRoot Forwarder.fillNull

theorem pushNull (now : UInt32) : (s.pushNull cfg now).2.Honest := by
  unfold Forwarder.pushNull
  dsimp only
  split
  · exact h.getQEntry.reportError _
  · split
    · exact ((h.getQEntry.getMessage.reportError _).putQEntry _ _).reportError _
    · exact (((h.getQEntry.getMessage.fillNull _ _ _).pushTop _).check _ _).of_facts rfl

theorem takeNext (now : UInt32) : (s.takeNext now).Honest := by
  unfold Forwarder.takeNext
  dsimp only
  exact ((h.popTop.setQe _ _).setSendQe _).of_facts rfl

theorem giveUp : (s.giveUp cfg).Honest := by
  unfold Forwarder.giveUp
  dsimp only
  exact ((((((h.record rfl).setQe _ _).conditionalFQDiscard).pushTop _).check _ _).clearSendQe
    |>.retryLater).reportError _

theorem sendResult (msg : MsgPtr) (r : TinyError) : (s.sendResult cfg msg r).Honest := by
  unfold Forwarder.sendResult
  split
  · exact h.reportError _
  · refine Honest.reportError ?_ _
    exact h.of_facts rfl
  · refine Honest.reportError ?_ _
    exact h.of_facts rfl
  · refine Honest.reportError (h.setMsg _ ?_) _
    obtain ⟨h1, h2, h3⟩ := h.mem msg
    exact ⟨h1, h2, h3⟩
  · exact h

attribute [local irreducible] Forwarder.pushNull Forwarder.takeNext Forwarder.giveUp
  Forwarder.sendResult

theorem subSend (q : QePtr) (dst : UInt16) (len : UInt8) (r : TinyError) :
    (s.subSend q dst len r).2.Honest := by
  have hdst : Message.Genuine { s.mem (s.qe q).msg with dst := dst } :=
    ⟨(h.mem _).origin, (h.mem _).originSeqNo, (h.mem _).hopCount⟩
  exact of_facts (record (h.setMsg _ hdst) (c := .subSend q dst _ len _) rfl) rfl

/-- Filling in the header leaves the packet as it is. -/
theorem transmit (a : Answers) : (s.transmit cfg a).Honest := by
  have hfill : ∀ (t : Forwarder) (e : FeQueueEntry) (m : Message), m.Genuine →
      (t.fillHeader e m a.now).Genuine := fun t e m hm => ⟨hm.origin, hm.originSeqNo, hm.hopCount⟩
  unfold Forwarder.transmit
  dsimp only
  refine sendResult (subSend ?_ _ _ _ _) _ _
  have hcount : Honest { s.setQe s.sendQe { s.qe s.sendQe with
      txCount := (s.qe s.sendQe).txCount + 1 } with localTXCount := s.localTXCount + 1 } :=
    h.of_facts rfl
  exact (hcount.setMsg _ (hfill _ _ _ (h.mem _))).of_facts rfl

attribute [local irreducible] Forwarder.subSend Forwarder.transmit

theorem attempt (a : Answers) : (s.attempt cfg a).Honest := by
  unfold Forwarder.attempt
  split
  · exact h.giveUp
  · exact h.transmit a

theorem sendNext (a : Answers) : (s.sendNext cfg a).Honest := by
  unfold Forwarder.sendNext
  dsimp only
  split
  · split
    · exact ((h.pushNull _).takeNext _).attempt a
    · exact h.pushNull _
  · exact (h.takeNext _).attempt a

attribute [local irreducible] Forwarder.attempt Forwarder.sendNext

theorem sendDataTask (a : Answers) : (s.sendDataTask cfg a).Honest := by
  unfold Forwarder.sendDataTask
  split
  · exact h.sendDataRoot _
  · split
    · exact h.attempt a
    · split
      · exact h.reportError _
      · dsimp only
        have hrec : (s.record (.router (.updateRouting s.getBackpressure))).Honest := h.record rfl
        split
        · exact hrec.retryLater
        · exact (hrec.setNextHopAddress _).sendNext a

attribute [local irreducible] Forwarder.sendDataTask

/-! ### `Send.send` and `SubReceive.receive` -/

theorem enqueue {m : Message} (hm : m.Genuine) (now : UInt32) :
    (s.enqueue cfg m now).2.Honest := by
  have hd : (s.conditionalFQDiscard cfg).Honest := h.conditionalFQDiscard
  unfold Forwarder.enqueue
  dsimp only
  split
  · exact hd.reportError _
  · split
    · exact hd.reportError _
    · split
      · exact hd.getQEntry.reportError _
      · split
        · exact (hd.getQEntry.getMessage.putQEntry _ _).reportError _
        · have hin : ∀ msg q e, (((s.conditionalFQDiscard cfg).getQEntry.2.getMessage.2.setMsg msg
              m).setQe q e |>.insert cfg q).2.Honest := fun msg q e =>
            ((hd.getQEntry.getMessage.setMsg msg hm).setQe q e).insert q
          split
          · exact (hin _ _ _).forwarderActivity.record rfl
          · exact ((((hin _ _ _).reportError _).putMessage _ _).putQEntry _ _).reportError _

/-- A client's packet is the next one of its kind. -/
theorem send (m : Message) (len : UInt8) (now : UInt32) : (s.send cfg m len now).2.Honest := by
  unfold Forwarder.send
  split
  · exact h
  · split
    · exact h
    · dsimp only
      refine enqueue (m := s.fillData cfg m len) ?_ ⟨rfl, h.seqno, rfl⟩ now
      refine ⟨h.mem, ?_, h.nullSeqNo, h.table, h.duplicates⟩
      change s.seqno + 1 = UInt8.ofNat (s.dataSerial + 1)
      rw [h.seqno, UInt8.ofNat_add]
      rfl

theorem forward (m : MsgPtr) (now : UInt32) : (s.forward cfg m now).2.Honest := by
  have hd : (s.conditionalFQDiscard cfg).Honest := h.conditionalFQDiscard
  unfold Forwarder.forward
  dsimp only
  split
  · exact hd.reportError _
  · split
    · exact hd.reportError _
    · split
      · exact hd.getQEntry.reportError _
      · split
        · exact (hd.getQEntry.getMessage.reportError _).putQEntry _ _
        · have hin : ∀ msg q e, (((s.conditionalFQDiscard cfg).getQEntry.2.getMessage.2.setMsg msg
              {}).setQe q e |>.insert cfg q).2.Honest := fun msg q e =>
            ((hd.getQEntry.getMessage.setMsg msg ⟨rfl, rfl, rfl⟩).setQe q e).insert q
          split
          · exact (hin _ _ _).forwarderActivity
          · exact (((hin _ _ _).reportError _).putMessage _ _).putQEntry _ _

attribute [local irreducible] Forwarder.enqueue Forwarder.send Forwarder.forward

/-- Noting a new packet keeps the table in step with the packets received. -/
theorem accept (msg : MsgPtr) : (s.accept msg).Honest := by
  obtain ⟨h1, h2, h3⟩ := h.mem msg
  obtain ⟨hm, hseq, hnull, hd, hn, hcalls⟩ := update_frame
    { s with dataCRCSuccessCount := s.dataCRCSuccessCount + 1 } (s.mem msg).src
    (s.mem msg).hdr.origin (s.mem msg).hdr.originSeqNo (s.mem msg).hdr.hopCount
  have hknown := @known_update
    { s with dataCRCSuccessCount := s.dataCRCSuccessCount + 1 } (s.mem msg).src
    (s.mem msg).hdr.origin (s.mem msg).hdr.originSeqNo (s.mem msg).hdr.hopCount
  unfold Forwarder.accept
  dsimp only at hm hseq hnull hd hn hcalls hknown ⊢
  -- nothing else about the update is used
  generalize Forwarder.latestForwardedTableUpdate _ _ _ _ _ = t
    at hm hseq hnull hd hn hcalls hknown ⊢
  have hlast : ∀ src, lastProcessed t.calls src = lastProcessed s.calls src := by
    intro src
    rcases hcalls with hc | hc
    · rw [hc]
    · rw [hc, lastProcessed_quiet rfl]
  refine setMsg ⟨?_, ?_, ?_, ?_, ?_⟩ msg ⟨h1, h2, ?_⟩
  · intro p
    exact congrFun hm p ▸ h.mem p
  · exact hseq.trans (h.seqno.trans (congrArg UInt8.ofNat hd.symm))
  · exact hnull.trans (h.nullSeqNo.trans (congrArg UInt8.ofNat hn.symm))
  · intro src e he
    rcases hknown he with ⟨rfl, ho, hs, hh⟩ | ⟨hne, he'⟩
    · refine ⟨(s.mem msg).ident, ?_, ho.trans h1, hs.trans h2, hh.trans h3⟩
      simp [lastProcessed, Forwarder.record]
    · obtain ⟨id, hid, hof⟩ := h.table src e he'
      refine ⟨id, ?_, hof⟩
      rw [← hid, ← hlast src]
      simp [lastProcessed, Forwarder.record, Ne.symm hne]
  · refine onlyDuplicates_cons.2 ⟨(onlyDuplicates_quiet rfl).2 ?_, nofun⟩
    rcases hcalls with hc | hc
    · rw [hc]
      exact h.duplicates
    · rw [hc]
      exact (onlyDuplicates_quiet rfl).2 h.duplicates
  · change (s.mem msg).hdr.hopCount + 1 = UInt8.ofNat ((s.mem msg).ident.hops + 1)
    rw [h3, UInt8.ofNat_add]
    rfl

/-- **An arrival is discarded only if it is the packet received before.** -/
theorem subReceive (msg : MsgPtr) (a : Answers)
    (hc : s.Compares cfg (s.mem msg) →
      ∀ id ∈ lastProcessed s.calls (s.mem msg).src, ¬ id.Collides (s.mem msg).ident) :
    (s.subReceive cfg msg a).2.Honest := by
  unfold Forwarder.subReceive
  cases hv : s.verdict cfg (s.mem msg) with
  | oversized => exact h.reportError _
  | corrupted => exact h.of_facts rfl
  | duplicate =>
    obtain ⟨hcmp, e, he, ho, hs, hh⟩ := verdict_duplicate_iff.1 hv
    obtain ⟨id, hid, hof⟩ := h.table _ e he
    have heq := eq_of_not_collides hof (h.mem msg) ho hs hh (hc hcmp id hid)
    have hcount : Honest { s with dataCRCSuccessCount := s.dataCRCSuccessCount + 1 } :=
      h.of_facts rfl
    refine ⟨hcount.mem, hcount.seqno, hcount.nullSeqNo, ?_, ?_⟩
    · exact h.table
    · refine onlyDuplicates_cons.2 ⟨h.duplicates, ?_⟩
      rintro src id' hcall
      cases hcall
      rw [← heq]
      exact hid
  | fresh =>
    dsimp only
    split
    · exact (h.accept msg).signalReceive _ _
    · exact (h.accept msg).forward _ _

theorem subSnoop (msg : MsgPtr) : (s.subSnoop cfg msg).2.Honest := by
  unfold Forwarder.subSnoop
  split
  · exact h.reportError _
  · split
    · exact h
    · split
      · exact h
      · dsimp only
        split
        · exact h.getMessage.reportError _
        · split
          · refine reportError (record ?_ rfl) _
            exact h.getMessage.of_facts rfl
          · exact h.getMessage.of_facts rfl

theorem snoopHandlerTask (notify : Bool) : (s.snoopHandlerTask notify).Honest := by
  unfold Forwarder.snoopHandlerTask
  split
  · exact h
  · dsimp only
    refine putMessage ?_ _ _
    exact (h.record (c := .router (.updateNeighborSnoop ..)) rfl).of_facts rfl

/-! ### `SubSend.sendDone`, the timers and the radio -/

theorem finish (now : UInt32) : (s.finish now).Honest := by
  unfold Forwarder.finish
  dsimp only
  exact ((((h.record rfl).record rfl).putMessage _ _).putQEntry _ _).clearSendQe.stopSending
    |>.forwarderActivity

theorem subSendDone (msg : MsgPtr) (error : TinyError) (acked : Bool) (now : UInt32) :
    (s.subSendDone msg error acked now).Honest := by
  unfold Forwarder.subSendDone
  split
  · exact h.reportError _
  · split
    · exact h.of_facts rfl
    · split
      · exact (h.record (c := .router (.txNoAck _)) rfl).of_facts rfl
      · exact h.finish now

theorem sendBeaconTask (r : TinyError) : (s.sendBeaconTask r).Honest := by
  unfold Forwarder.sendBeaconTask
  dsimp only
  split
  all_goals exact (h.record (c := .beaconSend _ _) rfl).of_facts rfl

theorem beaconReceive (src bcpBackpressure : UInt16) (len : UInt8) :
    (s.beaconReceive src bcpBackpressure len).Honest := by
  unfold Forwarder.beaconReceive
  dsimp only
  split
  · exact h.reportError _
  · exact (h.reportError _).record rfl

theorem beaconFired : s.beaconFired.Honest := by
  unfold Forwarder.beaconFired
  dsimp only
  split
  all_goals exact h.of_facts rfl

theorem txRetryFired : s.txRetryFired.Honest := by
  unfold Forwarder.txRetryFired
  split
  · exact h.of_facts rfl
  · exact h

theorem startDone (error : TinyError) : (s.startDone error).Honest := by
  unfold Forwarder.startDone
  split
  · refine forwarderActivity ?_
    exact h.of_facts rfl
  · exact h

theorem stopDone (error : TinyError) : (s.stopDone error).Honest := by
  unfold Forwarder.stopDone
  split
  · exact h.of_facts rfl
  · exact h

attribute [local irreducible] Forwarder.subReceive Forwarder.subSnoop Forwarder.snoopHandlerTask
  Forwarder.subSendDone Forwarder.sendBeaconTask Forwarder.beaconReceive Forwarder.beaconFired
  Forwarder.txRetryFired Forwarder.startDone Forwarder.stopDone

/-- A genuine frame arrives in a buffer of the radio. -/
theorem arrive {msg : MsgPtr} {frame : Message} {f : Forwarder → MsgPtr × Forwarder}
    {s' : Forwarder} (hframe : frame.Genuine)
    (hf : ∀ t : Forwarder, t.Honest → t.mem msg = frame → t.calls = s.calls →
      t.latestForwardedTable = s.latestForwardedTable → (f t).2.Honest)
    (hstep : s.arrive msg frame f = some s') : s'.Honest := by
  obtain ⟨-, hs'⟩ := Option.ite_none_right_eq_some.1 hstep
  rw [← Option.some.inj hs']
  have hlent : Honest { s with radio := s.radio.erase msg } := h.of_facts rfl
  refine (hf _ (hlent.setMsg msg hframe) ?_ rfl rfl).of_facts rfl
  exact Function.update_self ..

/-- **Every step of a node keeps it honest**, an arrival if its frame is genuine and does not collide
with the packet received before. -/
theorem step {e : Event} {s' : Forwarder} (hstep : s.step cfg e = some s')
    (hr : ∀ msg frame a, e = .receive msg frame a → frame.Genuine ∧ (s.Compares cfg frame →
      ∀ id ∈ lastProcessed s.calls frame.src, ¬ id.Collides frame.ident))
    (hs : ∀ msg frame, e = .snoop msg frame → frame.Genuine) : s'.Honest := by
  cases e with
  | start | stop | setRoot | unsetRoot => exact Option.some.inj hstep ▸ h.of_facts rfl
  | startDone error => exact Option.some.inj hstep ▸ h.startDone error
  | stopDone error => exact Option.some.inj hstep ▸ h.stopDone error
  | send m len now => exact Option.some.inj hstep ▸ (h.send m len now).record rfl
  | receive msg frame a =>
    obtain ⟨hframe, hc⟩ := hr msg frame a rfl
    unfold Forwarder.step at hstep
    refine h.arrive hframe (fun t ht hmem hcalls htable => ht.subReceive msg a ?_) hstep
    unfold Compares
    rw [hmem, hcalls, htable]
    exact hc
  | snoop msg frame =>
    unfold Forwarder.step at hstep
    exact h.arrive (hs msg frame rfl) (fun t ht _ _ _ => ht.subSnoop msg) hstep
  | sendDataTask a =>
    obtain ⟨-, hs'⟩ := Option.ite_none_right_eq_some.1 hstep
    have hrun : Honest { s with sendDataPosted := false } := h.of_facts rfl
    exact Option.some.inj hs' ▸ hrun.sendDataTask a
  | snoopHandlerTask notify =>
    obtain ⟨-, hs'⟩ := Option.ite_none_right_eq_some.1 hstep
    have hrun : Honest { s with snoopHandlerPosted := false } := h.of_facts rfl
    exact Option.some.inj hs' ▸ hrun.snoopHandlerTask notify
  | sendBeaconTask r =>
    obtain ⟨-, hs'⟩ := Option.ite_none_right_eq_some.1 hstep
    have hrun : Honest { s with sendBeaconPosted := false } := h.of_facts rfl
    exact Option.some.inj hs' ▸ hrun.sendBeaconTask r
  | txRetryTimerFired =>
    obtain ⟨-, hs'⟩ := Option.ite_none_right_eq_some.1 hstep
    have hrun : Honest { s with txRetryTimer := s.txRetryTimer.expire } := h.of_facts rfl
    exact Option.some.inj hs' ▸ hrun.txRetryFired
  | beaconTimerFired =>
    obtain ⟨-, hs'⟩ := Option.ite_none_right_eq_some.1 hstep
    exact Option.some.inj hs' ▸ h.beaconFired
  | subSendDone error acked now =>
    cases hp : s.pending with
    | none => simp [Forwarder.step, hp] at hstep
    | some m =>
      simp only [Forwarder.step, hp, Option.some.injEq] at hstep
      have hrun : Honest { s with pending := none } := h.of_facts rfl
      exact hstep ▸ hrun.subSendDone m error acked now
  | beaconSendDone =>
    obtain ⟨-, hs'⟩ := Option.ite_none_right_eq_some.1 hstep
    exact Option.some.inj hs' ▸ h.of_facts rfl
  | beaconReceive src bcpBackpressure len =>
    exact Option.some.inj hstep ▸ h.beaconReceive src bcpBackpressure len

end Honest

theorem honest_boot (cfg : Config) : (boot cfg).Honest where
  mem _ := ⟨rfl, rfl, rfl⟩
  seqno := rfl
  nullSeqNo := rfl
  table src e he := by
    rw [known_eq_find?] at he
    split at he
    · cases he
    · cases he
  duplicates src id rest hr := by
    cases List.suffix_nil.1 hr

end Forwarder

namespace Network

variable {d : Deployment} {n n' : Network}

/-- All messages of the network are genuine. -/
structure Honest (n : Network) : Prop where
  nodes : ∀ a, (n.nodes a).Honest
  air : ∀ m ∈ n.air, m.Genuine

theorem Honest.stepAt (h : n.Honest) {a : UInt16} {e : BCP.Event}
    (hstep : n.stepAt d a e = some n')
    (he : ∀ s', (n.nodes a).step (d.cfg a) e = some s' → s'.Honest) : n'.Honest := by
  obtain ⟨s', hs', rfl⟩ := Option.map_eq_some_iff.1 hstep
  refine ⟨fun b => ?_, h.air⟩
  by_cases hb : b = a
  · simpa [hb] using he s' hs'
  · simpa [hb] using h.nodes b

/-- **A step whose arrival does not collide keeps the network honest.** -/
theorem honest_step (h : n.Honest) {e : Event} (hc : n.Distinct d e)
    (hstep : n.step d e = some n') : n'.Honest := by
  cases e with
  | node a e =>
    obtain ⟨hown, hstep⟩ := Option.ite_none_right_eq_some.1 hstep
    refine h.stepAt hstep fun s' hs' => (h.nodes a).step hs' ?_ ?_
    · rintro _ _ _ rfl
      cases hown
    · rintro _ _ rfl
      cases hown
  | transmit a =>
    obtain ⟨msg, -, rfl⟩ := Option.map_eq_some_iff.1 hstep
    refine ⟨h.nodes, List.forall_mem_cons.2 ⟨?_, h.air⟩⟩
    obtain ⟨h1, h2, h3⟩ := (h.nodes a).mem msg
    exact ⟨h1, h2, h3⟩
  | receive b i msg a =>
    cases hi : n.air[i]? with
    | none => simp [step, hi] at hstep
    | some frame =>
      simp only [step, hi] at hstep
      obtain ⟨-, hstep⟩ := Option.ite_none_right_eq_some.1 hstep
      refine h.stepAt hstep fun s' hs' => (h.nodes b).step hs' ?_ nofun
      rintro _ _ _ ⟨⟩
      exact ⟨h.air frame (List.mem_of_getElem? hi), hc frame hi⟩
  | snoop b i msg =>
    cases hi : n.air[i]? with
    | none => simp [step, hi] at hstep
    | some frame =>
      simp only [step, hi] at hstep
      refine h.stepAt hstep fun s' hs' => (h.nodes b).step hs' nofun ?_
      rintro _ _ ⟨⟩
      exact h.air frame (List.mem_of_getElem? hi)

end Network

/-- What is discarded is noted. -/
theorem Forwarder.calls_of_duplicate {cfg : Config} {s s' : Forwarder} {msg : MsgPtr}
    {frame : Message} {a : Answers} (hv : s.verdict cfg frame = .duplicate)
    (hstep : s.step cfg (.receive msg frame a) = some s') :
    s'.calls = .duplicate frame.src frame.ident :: s.calls := by
  obtain ⟨-, hs'⟩ := Option.ite_none_right_eq_some.1 hstep
  have hmem : ({ s with radio := s.radio.erase msg }.setMsg msg frame).mem msg = frame :=
    Function.update_self ..
  have hv' : ({ s with radio := s.radio.erase msg }.setMsg msg frame).verdict cfg frame =
      .duplicate := hv
  rw [← Option.some.inj hs']
  unfold Forwarder.subReceive
  simp only [hmem, hv']
  rfl

namespace Network

variable {d : Deployment} {n n' : Network}

/-- An arrival that collides with the packet before and is compared is discarded. -/
theorem distinct_of_step (h : n.Honest) {e : Event} (hstep : n.step d e = some n')
    (hn' : ∀ b, OnlyDuplicates (n'.nodes b).calls) : n.Distinct d e := by
  cases e with
  | receive b i msg a =>
    rintro frame hi hcmp id hid ⟨hne, ho, hs, hh⟩
    simp only [step, show n.air[i]? = some frame from hi] at hstep
    obtain ⟨-, hstep⟩ := Option.ite_none_right_eq_some.1 hstep
    obtain ⟨s', hs', rfl⟩ := Option.map_eq_some_iff.1 hstep
    obtain ⟨e, he⟩ := Option.isSome_iff_exists.1 hcmp.2.2
    obtain ⟨id', hid', hof⟩ := (h.nodes b).table _ e he
    obtain rfl : id' = id := Option.some.inj (hid'.symm.trans hid)
    have hgen := h.air frame (List.mem_of_getElem? hi)
    have hv : (n.nodes b).verdict (d.cfg b) frame = .duplicate := by
      refine verdict_duplicate_iff.2 ⟨hcmp, e, he, ?_, ?_, ?_⟩
      · rw [hof.origin, hgen.origin, ho]
      · rw [hof.originSeqNo, hgen.originSeqNo, ofNat_eq_iff.2 hs]
      · rw [hof.hopCount, hgen.hopCount, ofNat_eq_iff.2 hh]
    have hcalls := Forwarder.calls_of_duplicate hv hs'
    have hdup := hn' b
    simp only [Function.update_self] at hdup
    rw [hcalls] at hdup
    have hlast := (onlyDuplicates_cons.1 hdup).2 frame.src frame.ident rfl
    exact hne (Option.some.inj (hid.symm.trans hlast))
  | _ => trivial

/-- **Duplicate suppression.** In a run of a network whatever a node has discarded as a duplicate is
the packet it had received from the same neighbor before, in every state, exactly if no arrival that
is compared collides with the packet before (`Distinct`). -/
theorem only_duplicates_iff {h : List (Network × Event)} (hr : (machine d).Run h n) :
    ((∀ b, OnlyDuplicates (n.nodes b).calls) ∧ ∀ p ∈ h, ∀ b, OnlyDuplicates (p.1.nodes b).calls) ↔
      ∀ p ∈ h, p.1.Distinct d p.2 := by
  refine hr.forall_iff_of_strong (J := Honest) (P := fun n => ∀ b, OnlyDuplicates (n.nodes b).calls)
    (C := fun n e => n.Distinct d e) ?_ ?_ ?_ ?_
  · rintro n rfl
    exact ⟨fun a => Forwarder.honest_boot (d.cfg a), nofun⟩
  · exact fun n hn b => (hn.nodes b).duplicates
  · exact fun n e n' hn hc => honest_step hn hc
  · exact fun n e n' hn hstep => distinct_of_step hn hstep

/-- Every node runs the build of the examples. -/
def exampleDeployment : Deployment where
  cfg a := { Forwarder.exampleConfig with tosNodeId := a }
  tosNodeId _ := rfl

/-- A packet that is sent again, since its acknowledgement was lost, is discarded. -/
theorem only_duplicates_resent : ∃ n : Network, (∃ id, .duplicate 1 id ∈ (n.nodes 2).calls) ∧
    ∀ b, OnlyDuplicates (n.nodes b).calls := by
  obtain ⟨h, n, hr, hp⟩ := Machine.exists_run_of_exec (M := machine exampleDeployment) rfl
    [.node 1 .start, .node 1 (.startDone .success), .node 1 (.send {} 20 0),
      .node 1 (.sendDataTask { route := some (2, 0) }), .transmit 1, .receive 2 0 (.other 0) {},
      .node 1 (.subSendDone .success false 0),
      .node 1 (.sendDataTask { route := some (2, 0) }), .transmit 1, .receive 2 0 (.pool 0) {}]
    (fun h n => .duplicate 1 ⟨1, pktNormal, 0, 0⟩ ∈ (n.nodes 2).calls &&
      h.all fun p => decide (p.1.Distinct exampleDeployment p.2)) (by decide +kernel)
  rw [Bool.and_eq_true, List.all_eq_true] at hp
  exact ⟨n, ⟨_, of_decide_eq_true hp.1⟩,
    ((only_duplicates_iff hr).2 fun p hm => of_decide_eq_true (hp.2 p hm)).1⟩

/-- Node 1 sends its first data packet to node 2, queues twelve more, of which a full stack loses
one, sends the others to node 3, and the null packet for the lost one to node 2: it has the sequence
number of the first packet, and is discarded. -/
theorem only_duplicates_false : ¬ ∀ (d : Deployment) (h : List (Network × Event)) (n : Network),
    (machine d).Run h n → ∀ b, OnlyDuplicates (n.nodes b).calls := by
  intro hall
  obtain ⟨h, n, hr, hp⟩ := Machine.exists_run_of_exec (M := machine exampleDeployment) rfl
    ([.node 1 .start, .node 1 (.startDone .success), .node 1 (.send {} 20 0),
      .node 1 (.sendDataTask { route := some (2, 0) }), .transmit 1, .receive 2 0 (.other 0) {},
      .node 1 (.subSendDone .success true 0)] ++
      List.replicate 12 (.node 1 (.send {} 20 0)) ++
      (List.replicate 11 [.node 1 (.sendDataTask { route := some (3, 0) }),
        .node 1 (.subSendDone .success true 0)]).flatten ++
      [.node 1 (.sendDataTask { route := some (2, 0) }), .transmit 1, .receive 2 0 (.pool 0) {}])
    (fun _ n => (n.nodes 2).calls.head? == some (.duplicate 1 ⟨1, pktNull, 0, 0⟩) &&
      lastProcessed (n.nodes 2).calls.tail 1 == some ⟨1, pktNormal, 0, 0⟩) (by decide +kernel)
  rw [Bool.and_eq_true, beq_iff_eq, beq_iff_eq] at hp
  obtain ⟨calls, hcalls⟩ := List.head?_eq_some_iff.1 hp.1
  have hdup := hall _ h n hr 2
  rw [hcalls] at hdup
  have hlast := (onlyDuplicates_cons.1 hdup).2 _ _ rfl
  have hp2 := hp.2
  rw [hcalls, List.tail_cons, hlast] at hp2
  cases hp2

end Network

end BCP
