import Backip.Lib.Machine
import Backip.Tcp.Tcplib
import Backip.Tcp.Proof.Unacked

/-!
# Which segments establish a connection

`Handshake` follows a socket from `tcplib_connect` on and records the SYNs it has sent and whether
one of them was answered. While it waits for the answer, `tcplib_process` takes a segment with
either flag for one: `established_answered_iff` says for which segments nothing else establishes
the connection.
-/

set_option autoImplicit false

namespace Tcp

/-! ## The states of a socket that is not established -/

namespace Proc

variable {mem : List Output → Bool}

theorem transfer_state {p p' : Proc} {seg : Segment} (h : p.transfer mem seg = some p') :
    p'.sock.state = p.sock.state := by
  unfold transfer at h
  split at h
  · obtain ⟨q, hack, rfl⟩ := Option.map_eq_some_iff.1 h
    have hstate := ((q.dataPart_spec mem seg).1.state).trans (ackPart_spec hack).1
    dsimp only
    split at hstate <;> split <;> exact hstate
  · cases h
    rfl

theorem timeWaitPart_state {p : Proc} {seg : Segment}
    (h : p.sock.state ≠ .established ∨ seg.hdr.seqno ≠ p.sock.ackno) :
    (p.timeWaitPart mem seg).sock.state = p.sock.state := by
  unfold timeWaitPart
  split
  · have hack := p.sendAck_quiet mem (seg.payloadLen == 0 && seg.has tcpFlagFin) tcpFlagAck
    dsimp only
    rw [hack.state, hack.ackno, if_neg (fun hclose => h.elim (· hclose.1) (· hclose.2.2))]
    exact hack.state
  · rfl

/-- A connection that a segment establishes is not closed by it: its number was the one before. -/
theorem establishedPart_state {p p' : Proc} {seg : Segment} {done : Bool}
    (hseq : seg.hdr.seqno ≠ p.sock.ackno) (h : p.establishedPart mem seg done = some p') :
    p'.sock.state = p.sock.state := by
  obtain ⟨q, hq, rfl⟩ := Option.map_eq_some_iff.1 h
  have hackno : q.sock.ackno = p.sock.ackno := by
    obtain ⟨data, hdata, -⟩ := (transfer_effect hq).recvd
    generalize q.sock.ackno = ackno at hdata
    cases hdata with
    | nothing => rfl
    | next hsame => exact absurd hsame hseq
  dsimp only
  split
  · refine (timeWaitPart_state (.inr ?_)).trans (transfer_state hq :)
    exact fun hsame => hseq (hsame.trans hackno)
  · rw [timeWaitPart_state (.inr (hackno ▸ hseq))]
    exact transfer_state hq

end Proc

/-- A socket that has not been established since `tcplib_connect`. -/
def Sock.Opening (s : Sock) : Prop :=
  s.state = .synSent ∨ s.state = .timeWait ∨ s.state = .closed

/-- `tcplib_process` takes the segment for the answer to the SYN. -/
def Sock.TakesAnswer (s : Sock) (seg : Segment) : Prop :=
  s.state = .synSent ∧ seg.has tcpFlagRst = false ∧ seg.has (tcpFlagSyn ||| tcpFlagAck)

theorem process_opening {mem : List Output → Bool} {hdrSize : Nat} {accept : Option (List UInt8)}
    {s : Sock} {seg : Segment} {p : Proc} (hs : s.Opening)
    (h : process mem hdrSize accept s seg = some p) :
    (s.TakesAnswer seg ∧ p.sock.state = .established) ∨
      (¬s.TakesAnswer seg ∧ p.sock.Opening) := by
  unfold process at h
  dsimp only at h
  split at h
  · rename_i hrst
    cases h
    exact .inr ⟨fun hest => by simp [hest.2.1] at hrst, hs⟩
  · rename_i hrst
    rcases hs with hs | hs | hs
    · simp only [hs] at h
      split at h
      · rename_i hflags
        refine .inl ⟨⟨hs, by simpa using hrst, hflags⟩, ?_⟩
        refine Proc.establishedPart_state ?_ h
        dsimp only
        grind
      · rename_i hflags
        cases h
        refine .inr ⟨fun hest => hflags hest.2.2, .inl ?_⟩
        exact (Proc.sendRst_quiet mem _ seg).state.trans rfl
    · simp only [hs] at h
      cases h
      refine .inr ⟨fun hest => (nomatch hs.symm.trans hest.1), .inr (.inl ?_)⟩
      refine (Proc.timeWaitPart_state (.inl ?_)).trans rfl
      exact fun hest => nomatch hest
    · simp only [hs] at h
      cases h
      exact .inr ⟨fun hest => (nomatch hs.symm.trans hest.1), .inr (.inr rfl)⟩

theorem tcplibClose_opening {mem : List Output → Bool} {s : Sock} (hs : s.Opening) :
    (tcplibClose mem s).sock.Opening := by
  unfold tcplibClose
  rcases hs with hs | hs | hs
  · simp only [hs]
    exact .inr (.inr rfl)
  · simp only [hs]
    exact .inr (.inl hs)
  · simp only [hs]
    exact .inr (.inr hs)

theorem tcplibAbort_opening {mem : List Output → Bool} {s : Sock} (hs : s.Opening) :
    (tcplibAbort mem s).sock.Opening := by
  unfold tcplibAbort
  dsimp only
  split
  · exact hs
  · exact .inr (.inr rfl)

namespace Proc

variable {mem : List Output → Bool}

theorem retxSwitch_opening {p p' : Proc} {retxcnt retxcnt' : UInt16} (hs : p.sock.Opening)
    (h : p.retxSwitch mem retxcnt = some (p', retxcnt')) : p'.sock.Opening := by
  unfold retxSwitch at h
  rcases hs with hs | hs | hs
  · simp only [hs] at h
    cases h
    exact .inl ((p.sendAck_quiet mem false tcpFlagSyn).state.trans hs)
  · simp only [hs] at h
    cases h
    exact .inr (.inr rfl)
  · simp only [hs] at h
    cases h
    exact .inr (.inr hs)

theorem retxExpire_opening {p p' : Proc} {retxcnt retxcnt' : UInt16} (hs : p.sock.Opening)
    (h : p.retxExpire mem retxcnt = some (p', retxcnt')) : p'.sock.Opening := by
  obtain ⟨⟨q, cnt⟩, hq, hp⟩ := Option.map_eq_some_iff.1 h
  dsimp only at hp
  split at hp
  · cases hp
    exact .inr (.inl rfl)
  · cases hp
    exact retxSwitch_opening hs hq

theorem timerProcess_opening {p p' : Proc} {retxcnt retxcnt' : UInt16} (hs : p.sock.Opening)
    (h : p.timerProcess mem retxcnt = some (p', retxcnt')) : p'.sock.Opening := by
  obtain ⟨⟨q, cnt⟩, hq, hp⟩ := Option.map_eq_some_iff.1 h
  have hexpired : q.sock.Opening := by
    split at hq
    · dsimp only at hq
      split at hq
      · exact retxExpire_opening (p := p.setRetx (p.sock.retx - 1)) hs hq
      · cases hq
        exact hs
    · cases hq
      exact hs
  dsimp only at hp
  split at hp
  · cases hp
    rw [Sock.Opening, (q.sendAck_quiet mem false tcpFlagAck).state]
    exact hexpired
  · cases hp
    exact hexpired

end Proc

/-! ## From the connect on -/

/-- A socket from `tcplib_connect` on: the numbers of the SYNs that it has sent, and whether a
segment that carries SYN and acknowledges one of them has arrived. -/
structure Handshake where
  sock : Sock
  retxcnt : UInt16
  syns : List UInt32
  answered : Bool

/-- A segment arrives, the timer fires, or the application calls. -/
inductive HandshakeEvent
  | segment (mem : List Output → Bool) (accept : Option (List UInt8)) (seg : Segment)
  | tick (mem : List Output → Bool)
  | send (data : List UInt8)
  | close (mem : List Output → Bool)
  | abort (mem : List Output → Bool)

/-- The numbers of the SYNs among what is sent. -/
def synsOf (outs : List Output) : List UInt32 :=
  outs.filterMap fun
    | .segment flags seqno _ _ => if flags &&& tcpFlagSyn != 0 then some seqno else none
    | _ => none

/-- The segment carries SYN and acknowledges one of the SYNs. -/
def Segment.Answers (seg : Segment) (syns : List UInt32) : Prop :=
  seg.has tcpFlagSyn ∧ seg.has tcpFlagAck ∧ ∃ n ∈ syns, seg.hdr.ackno = n + 1

instance (seg : Segment) (syns : List UInt32) : Decidable (seg.Answers syns) :=
  inferInstanceAs (Decidable (_ ∧ _ ∧ _))

namespace Handshake

def step (hdrSize : Nat) (s : Handshake) : HandshakeEvent → Option Handshake
  | .segment mem accept seg =>
    (process mem hdrSize accept s.sock seg).map fun p =>
      { s with
        sock := p.sock
        syns := s.syns ++ synsOf p.outs
        answered := s.answered || decide (seg.Answers s.syns) }
  | .tick mem =>
    (Proc.timerProcess mem ⟨s.sock, [], 0⟩ s.retxcnt).map fun (p, retxcnt) =>
      { s with sock := p.sock, retxcnt := retxcnt, syns := s.syns ++ synsOf p.outs }
  | .send data => (tcplibSend s.sock data).map fun (_, sock) => { s with sock := sock }
  | .close mem => some { s with sock := (tcplibClose mem s.sock).sock }
  | .abort mem => some { s with sock := (tcplibAbort mem s.sock).sock }

/-- `tcplib_connect` has just been called, successfully. -/
def Connecting (hdrSize : Nat) (s : Handshake) : Prop :=
  ∃ mem txMem sock, (tcplibConnect mem hdrSize txMem sock).rc = 0 ∧
    s.sock = (tcplibConnect mem hdrSize txMem sock).sock ∧
    s.syns = synsOf (tcplibConnect mem hdrSize txMem sock).outs ∧ s.answered = false

def machine (hdrSize : Nat) : Machine Handshake HandshakeEvent where
  init := Connecting hdrSize
  step := step hdrSize

/-- An established connection was answered. -/
def Sound (s : Handshake) : Prop := s.sock.state = .established → s.answered

/-- A segment that is taken for the answer is one, or is not the first. -/
def Heeds (s : Handshake) : HandshakeEvent → Prop
  | .segment _ _ seg => s.sock.TakesAnswer seg → s.answered ∨ seg.Answers s.syns
  | _ => True

variable {hdrSize : Nat} {s s' : Handshake}

theorem Connecting.opening (h : s.Connecting hdrSize) : s.sock.Opening := by
  obtain ⟨mem, txMem, sock, hrc, hsock, -⟩ := h
  rw [hsock]
  unfold tcplibConnect at hrc ⊢
  split
  · simp at hrc
  · split
    · exact .inl rfl
    · rename_i hstate
      simp [hstate] at hrc

/-- The invariant: what is not answered is not established. -/
def Waiting (s : Handshake) : Prop := s.answered ∨ s.sock.Opening

theorem Waiting.sound (h : s.Waiting) : s.Sound := by
  intro hest
  rcases h with h | h
  · exact h
  · simp [Sock.Opening, hest] at h

/-- A segment keeps the invariant if it heeds, and is sound only then; other events keep it. -/
theorem Waiting.step {e : HandshakeEvent} (h : s.Waiting) (hs : s.step hdrSize e = some s') :
    (s.Heeds e → s'.Waiting) ∧ (s'.Sound → s.Heeds e) := by
  have hother : s'.answered = s.answered → (s.sock.Opening → s'.sock.Opening) → s'.Waiting :=
    fun hans hopen => h.imp hans.trans hopen
  cases e with
  | segment mem accept seg =>
    obtain ⟨p, hp, rfl⟩ := Option.map_eq_some_iff.1 hs
    rcases h with hans | hopen
    · exact ⟨fun _ => .inl (by simp [hans]), fun _ _ => .inl hans⟩
    rcases process_opening hopen hp with ⟨htakes, hest⟩ | ⟨hnot, hopen'⟩
    · constructor
      · intro hheeds
        exact .inl (by simpa using hheeds htakes)
      · intro hsound _
        simpa using hsound hest
    · exact ⟨fun _ => .inr hopen', fun _ htakes => absurd htakes hnot⟩
  | tick mem =>
    obtain ⟨⟨p, cnt⟩, hp, rfl⟩ := Option.map_eq_some_iff.1 hs
    exact ⟨fun _ => hother rfl fun hopen => Proc.timerProcess_opening hopen hp, fun _ => trivial⟩
  | send data =>
    obtain ⟨⟨rc, sock⟩, hsend, rfl⟩ := Option.map_eq_some_iff.1 hs
    refine ⟨fun _ => hother rfl fun hopen => ?_, fun _ => trivial⟩
    have hstate : s.sock.state ≠ .established := by
      intro hest
      simp [Sock.Opening, hest] at hopen
    rw [tcplibSend, if_pos hstate] at hsend
    cases hsend
    exact hopen
  | close mem =>
    cases hs
    exact ⟨fun _ => hother rfl tcplibClose_opening, fun _ => trivial⟩
  | abort mem =>
    cases hs
    exact ⟨fun _ => hother rfl tcplibAbort_opening, fun _ => trivial⟩

/-- **A connection is established only after its SYN is answered**, in every state of a run, exactly
when every segment taken for the answer is one. -/
theorem established_answered_iff {h : List (Handshake × HandshakeEvent)}
    (hr : (machine hdrSize).Run h s) :
    (s.Sound ∧ ∀ p ∈ h, p.1.Sound) ↔ ∀ p ∈ h, p.1.Heeds p.2 := by
  refine hr.forall_iff_of_strong (J := Waiting) (fun _ hi => .inr (Connecting.opening hi))
    (fun _ hw => hw.sound) ?_ ?_
  · intro t e t' hw hheeds hs
    exact (@Waiting.step hdrSize t t' e hw hs).1 hheeds
  · intro t e t' hw hs hsound
    exact (@Waiting.step hdrSize t t' e hw hs).2 hsound

instance (s : Handshake) (e : HandshakeEvent) : Decidable (s.Heeds e) :=
  match e with
  | .segment _ _ seg => inferInstanceAs (Decidable
      (s.sock.state = .synSent ∧ seg.has tcpFlagRst = false ∧ seg.has (tcpFlagSyn ||| tcpFlagAck) →
        s.answered ∨ seg.Answers s.syns))
  | .tick _ | .send _ | .close _ | .abort _ => inferInstanceAs (Decidable True)

/-- A socket that has just connected, with a ring of eight bytes. -/
def connecting : Handshake :=
  let sock := { Session.connected.sock with state := .closed }
  let p := tcplibConnect (fun _ => true) 24 (some (List.replicate 32 0)) sock
  { sock := p.sock, retxcnt := 0, syns := synsOf p.outs, answered := false }

theorem connecting_connecting : Connecting 24 connecting :=
  ⟨_, _, _, rfl, rfl, rfl, rfl⟩

/-- A segment with flags and an acknowledgement number. -/
def answer (flags : UInt8) (ackno : UInt32) : Segment :=
  { Session.exampleSegment 1 [] with
    hdr := { (Session.exampleSegment 1 []).hdr with flags := flags, ackno := ackno } }

/-- The SYN is answered. -/
theorem established_answered_syn : ∃ h s, (machine 24).Run h s ∧ s.sock.state = .established ∧
    s.Sound := by
  obtain ⟨h, s, hr, hp⟩ := Machine.exists_run_of_exec (M := machine 24) connecting_connecting
    [.tick (fun _ => true),
      .segment (fun _ => true) none (answer (tcpFlagSyn ||| tcpFlagAck) (Proc.iss + 1))]
    (fun h s => s.sock.state = .established && decide (∀ st ∈ h, st.1.Heeds st.2))
    (by decide)
  simp only [Bool.and_eq_true, decide_eq_true_iff] at hp
  exact ⟨h, s, hr, hp.1, ((established_answered_iff hr).2 hp.2).1⟩

/-- **A bare ACK establishes the connection**, whatever it acknowledges. -/
theorem established_unanswered : ∃ h s, (machine 24).Run h s ∧ s.sock.state = .established ∧
    ¬s.Sound := by
  obtain ⟨h, s, hr, hp⟩ := Machine.exists_run_of_exec (M := machine 24) connecting_connecting
    [.segment (fun _ => true) none (answer tcpFlagAck 0)]
    (fun _ s => s.sock.state = .established && !s.answered) (by decide)
  simp only [Bool.and_eq_true, decide_eq_true_iff, Bool.not_eq_true'] at hp
  exact ⟨h, s, hr, hp.1, fun hsound => by simp [hsound hp.1] at hp⟩

end Handshake

end Tcp
