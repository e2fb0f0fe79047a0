import Backip.Ppp.Proof.Fcs

/-!
# What the receiver makes of a line

`Tracks`: in a frame, the receiver's state says where in the frame it is, its checksum is that of the
bytes it has decoded, and it has counted those behind the address and control fields. `Framed` and
`Filled`: these bytes are in the buffer of the active frame.

`queued_good`: whatever comes over the line, only frames with a matching checksum are queued.
-/

set_option autoImplicit false

namespace Ppp.Receiver

variable {s s' : Receiver}

/-! ## The decoded bytes -/

/-- One byte that is not dropped: whether the next one is escaped, and the bytes decoded. -/
def decode (p : Bool × List UInt8) (b : UInt8) : Bool × List UInt8 :=
  if p.1 then (false, p.2 ++ [b ^^^ controlModifier])
  else if b = controlEscape then (true, p.2)
  else (false, p.2 ++ [b])

def decoded (l : List UInt8) : Bool × List UInt8 := l.foldl decode (false, [])

theorem decoded_snoc (l : List UInt8) (b : UInt8) : decoded (l ++ [b]) = decode (decoded l) b := by
  rw [decoded, List.foldl_append]
  rfl

/-- Where in the frame the receiver is behind some bytes, and which of them it has stored. -/
inductive Place : List UInt8 → RxState → List UInt8 → Prop
  | address : Place [] .atAddress []
  | control : Place [allStationsAddress] .atControlField []
  | full (l : List UInt8) : Place (allStationsAddress :: controlFieldValue :: l) .receive l
  | compressed {c : UInt8} (l : List UInt8) :
      c ≠ allStationsAddress → Place (c :: l) .receive (c :: l)

theorem Place.stored_eq {st : RxState} {c : UInt8} {l stored : List UInt8}
    (h : Place (c :: l) st stored) (hc : c ≠ allStationsAddress) : stored = c :: l := by
  cases h with
  | control => exact absurd rfl hc
  | full => exact absurd rfl hc
  | compressed => rfl

structure Tracks (st : RxState) (p : Bool × List UInt8) (stored : List UInt8) (s : Receiver) :
    Prop where
  place : Place p.2 st stored
  state : if p.1 then s.rxState = .escaped ∧ s.rxEscapedState = st else s.rxState = st
  rxIndex : s.rxIndex = stored.length
  rxCrc : s.rxCrc = fcs p.2

/-- The stored bytes are in the buffer. -/
structure Filled (stored : List UInt8) (s : Receiver) : Prop where
  buffer : stored ≠ [] → s.rxBuffer ≠ 0
  bytes : (List.range stored.length).map (fun k => s.mem (s.rxBuffer + k)) = stored

/-- The active frame has the buffer, and the frames in the ready queue are received. -/
structure Framed (s : Receiver) : Prop where
  idle : s.rxActiveFrame = none → s.rxBuffer = 0
  active : ∀ i, s.rxActiveFrame = some i →
    ∃ fp, s.rxFrames[i]? = some fp ∧ fp.frameState = .receiving ∧ fp.start = s.rxBuffer
  ready : ∀ i ∈ s.readyFrame, ∃ fp, s.rxFrames[i]? = some fp ∧ fp.frameState = .received
  nodup : s.readyFrame.Nodup

/-! ## One byte of a frame -/

/-- What a byte inside a frame leaves as it was. -/
structure Inside (s s' : Receiver) : Prop where
  options : s'.options = s.options
  rxBuffer : s'.rxBuffer = s.rxBuffer
  rxBufferLength : s'.rxBufferLength = s.rxBufferLength
  rxFrames : s'.rxFrames = s.rxFrames
  rxActiveFrame : s'.rxActiveFrame = s.rxActiveFrame
  readyFrame : s'.readyFrame = s.readyFrame
  queued : s'.queued = s.queued

theorem Framed.inside (h : Framed s) (hs : Inside s s') : Framed s' := by
  refine ⟨?_, ?_, ?_, ?_⟩
  · rw [hs.rxActiveFrame, hs.rxBuffer]
    exact h.idle
  · rw [hs.rxActiveFrame, hs.rxBuffer, hs.rxFrames]
    exact h.active
  · rw [hs.readyFrame, hs.rxFrames]
    exact h.ready
  · rw [hs.readyFrame]
    exact h.nodup

theorem notify_eq (r : Result) : ∃ l, notify r = { r.1 with signals := l } := by
  obtain ⟨s, _ | code, _ | _⟩ := r
  · exact ⟨_, rfl⟩
  · exact ⟨_, rfl⟩
  · exact ⟨_, rfl⟩
  · exact ⟨_, rfl⟩

/-- There is room for so many bytes. -/
def Room (n : Nat) (s : Receiver) : Prop := s.rxBuffer ≠ 0 ∧ n ≤ s.rxBufferLength

/-- What comes of a decoded byte: it has its place in the frame, and is stored if it must be; or there
is no place or no room for it. -/
structure Fed (p : Bool × List UInt8) (stored : List UInt8) (s s' : Receiver) : Prop where
  inside : Inside s s'
  outcome : (∃ st' stored', Tracks st' p stored' s' ∧ (Filled stored s → Filled stored' s')) ∨
    s'.rxState = .unsynchronized ∧ ∀ st' stored', Place p.2 st' stored' → ¬Room stored'.length s

theorem Fed.of_state {p : Bool × List UInt8} {stored : List UInt8} {st : RxState}
    (h : Fed p stored { s with rxState := st } s') : Fed p stored s s' := by
  obtain ⟨⟨h₁, h₂, h₃, h₄, h₅, h₆, h₇⟩, ho⟩ := h
  refine ⟨⟨h₁, h₂, h₃, h₄, h₅, h₆, h₇⟩, ?_⟩
  rcases ho with ⟨st', stored', ht, hf⟩ | ho
  · exact .inl ⟨st', stored', ht, fun h => hf ⟨h.buffer, h.bytes⟩⟩
  · exact .inr ho

/-- A byte of the payload or the checksum. -/
theorem receive_fed {d stored : List UInt8} {inByte byte : UInt8}
    (hplace : Place (d ++ [byte]) .receive (stored ++ [byte]))
    (huniq : ∀ st' stored', Place (d ++ [byte]) st' stored' → stored' = stored ++ [byte])
    (hstate : s.rxState = .receive) (hindex : s.rxIndex = stored.length) (hcrc : s.rxCrc = fcs d)
    (hin : inByte ≠ flagSequence) (pool : PoolAnswer) :
    Fed (false, d ++ [byte]) stored s (notify (s.receive inByte byte pool)) := by
  obtain ⟨l, hl⟩ := notify_eq (s.receive inByte byte pool)
  rw [hl, receive, if_neg hin]
  by_cases hbuf : s.rxBuffer ≠ 0
  · rw [if_pos hbuf]
    by_cases hroom : (s.rxIndex : Int) < s.rxBufferLength
    · rw [if_pos hroom]
      refine ⟨⟨rfl, rfl, rfl, rfl, rfl, rfl, rfl⟩, .inl ⟨.receive, stored ++ [byte],
        ⟨hplace, hstate, ?_, ?_⟩, fun hf => ⟨fun _ => hbuf, ?_⟩⟩⟩
      · show s.rxIndex + 1 = _
        rw [hindex, List.length_append]
        rfl
      · show fcs16Update s.rxCrc byte = _
        rw [hcrc, fcs_snoc]
      · show (List.range (stored ++ [byte]).length).map (fun k =>
          Function.update s.mem (s.rxBuffer + s.rxIndex) byte (s.rxBuffer + k)) = _
        rw [List.length_append, List.length_singleton, List.range_succ, List.map_append, hindex]
        congr 1
        · refine (List.map_congr_left fun k hk => ?_).trans hf.bytes
          have hlt := List.mem_range.1 hk
          exact Function.update_of_ne (by omega) _ _
        · simp
    · rw [if_neg hroom]
      refine ⟨⟨rfl, rfl, rfl, rfl, rfl, rfl, rfl⟩, .inr ⟨rfl, ?_⟩⟩
      intro st' stored' hp hr
      have hle := hr.2
      rw [huniq st' stored' hp, List.length_append, ← hindex] at hle
      exact hroom (by simp at hle; omega)
  · rw [if_neg hbuf]
    exact ⟨⟨rfl, rfl, rfl, rfl, rfl, rfl, rfl⟩, .inr ⟨rfl, fun _ _ _ hr => hbuf hr.1⟩⟩

theorem Tracks.process {st : RxState} {d stored : List UInt8} (h : Tracks st (false, d) stored s)
    {inByte byte : UInt8} (hin : inByte ≠ flagSequence) (pool : PoolAnswer) :
    Fed (false, d ++ [byte]) stored s (notify (s.process inByte byte pool)) := by
  obtain ⟨hplace, hstate, hindex, hcrc⟩ := h
  cases hplace with
  | address =>
    rw [Receiver.process, show s.rxState = .atAddress from hstate]
    dsimp only
    rw [if_neg hin]
    by_cases hb : byte ≠ allStationsAddress
    · rw [if_pos hb]
      have hfed : Fed (false, [] ++ [byte]) [] { s with rxState := .receive }
          (notify ({ s with rxState := .receive }.receive inByte byte pool)) := by
        apply receive_fed (.compressed [] hb)
        · exact fun st' stored' hp => hp.stored_eq hb
        · rfl
        · exact hindex
        · exact hcrc
        · exact hin
      exact hfed.of_state
    · rw [if_neg hb]
      obtain rfl := not_not.1 hb
      obtain ⟨l, hl⟩ := notify_eq ({ s with
        rxCrc := fcs16Update s.rxCrc allStationsAddress, rxState := .atControlField }, none, false)
      rw [hl]
      refine ⟨⟨rfl, rfl, rfl, rfl, rfl, rfl, rfl⟩, .inl ⟨.atControlField, [],
        ⟨.control, rfl, hindex, ?_⟩, fun hf => ⟨nofun, rfl⟩⟩⟩
      show fcs16Update s.rxCrc _ = _
      rw [hcrc, fcs_snoc]
  | control =>
    rw [Receiver.process, show s.rxState = .atControlField from hstate]
    dsimp only
    by_cases hb : byte ≠ controlFieldValue
    · rw [if_pos hb, if_pos hin, reprocessUnsynchronized, if_neg hin]
      obtain ⟨l, hl⟩ := notify_eq ({ s with
        rxIndex := 0, rxCrc := fcs16Initial, rxState := .unsynchronized },
        some HdlcError.invalidControlField, false)
      rw [hl]
      refine ⟨⟨rfl, rfl, rfl, rfl, rfl, rfl, rfl⟩, .inr ⟨rfl, fun st' stored' hp => ?_⟩⟩
      cases hp with
      | full => exact absurd rfl hb
      | compressed _ hne => exact absurd rfl hne
    · rw [if_neg hb]
      obtain rfl := not_not.1 hb
      obtain ⟨l, hl⟩ := notify_eq ({ s with
        rxCrc := fcs16Update s.rxCrc controlFieldValue, rxState := .receive }, none, false)
      rw [hl]
      refine ⟨⟨rfl, rfl, rfl, rfl, rfl, rfl, rfl⟩, .inl ⟨.receive, [],
        ⟨.full [], rfl, hindex, ?_⟩, fun hf => ⟨nofun, rfl⟩⟩⟩
      show fcs16Update s.rxCrc _ = _
      rw [hcrc, fcs_snoc]
  | full =>
    rw [Receiver.process, show s.rxState = .receive from hstate]
    refine receive_fed (.full (stored ++ [byte])) ?_ hstate hindex hcrc hin pool
    intro st' stored' hp
    cases hp with
    | full => rfl
    | compressed _ hne => exact absurd rfl hne
  | @compressed c l hc =>
    rw [Receiver.process, show s.rxState = .receive from hstate]
    refine receive_fed (.compressed (l ++ [byte]) hc) ?_ hstate hindex hcrc hin pool
    exact fun st' stored' hp => hp.stored_eq hc

/-! ## `receivedByte` -/

theorem receivedByte_plain {b : UInt8}
    (hmap : inMap s.options.rxAsyncControlCharacterMap b = false) (hstate : s.rxState ≠ .escaped)
    (hb : s.rxState ≠ .unsynchronized → b ≠ controlEscape) (pool : PoolAnswer) :
    s.receivedByte b pool = notify (s.process b b pool) := by
  rw [receivedByte, if_neg (by rw [hmap]; nofun), unescape, if_neg hstate]
  exact if_neg fun hn => hb hn.1 hn.2

theorem receivedByte_escape
    (hmap : inMap s.options.rxAsyncControlCharacterMap controlEscape = false)
    (hstate : s.rxState ≠ .escaped) (hsync : s.rxState ≠ .unsynchronized) (pool : PoolAnswer) :
    s.receivedByte controlEscape pool =
      { s with rxEscapedState := s.rxState, rxState := .escaped } := by
  rw [receivedByte, if_neg (by rw [hmap]; nofun), unescape, if_neg hstate]
  exact if_pos ⟨hsync, rfl⟩

theorem receivedByte_masked {b : UInt8}
    (hmap : inMap s.options.rxAsyncControlCharacterMap b = false) (hstate : s.rxState = .escaped)
    (hflag : b ≠ flagSequence) (hesc : b ≠ controlEscape) (pool : PoolAnswer) :
    s.receivedByte b pool =
      notify ({ s with rxState := s.rxEscapedState }.process b (b ^^^ controlModifier) pool) := by
  rw [receivedByte, if_neg (by rw [hmap]; nofun), unescape, if_pos hstate,
    if_neg (not_or.2 ⟨hflag, hesc⟩)]
  exact if_neg fun hn => hesc hn.2

/-- Flags and escapes are not escaped. -/
theorem receivedByte_invalid {b : UInt8}
    (hmap : inMap s.options.rxAsyncControlCharacterMap b = false) (hstate : s.rxState = .escaped)
    (hb : b = flagSequence ∨ b = controlEscape) (pool : PoolAnswer) :
    s.receivedByte b pool = notify ({ s with rxState := .unsynchronized }.process b b pool) := by
  rw [receivedByte, if_neg (by rw [hmap]; nofun), unescape, if_pos hstate, if_pos hb]
  exact if_neg fun hn => hn.1 rfl

/-- A byte that is neither dropped nor a flag. -/
theorem Tracks.receivedByte {st : RxState} {p : Bool × List UInt8} {stored : List UInt8}
    (h : Tracks st p stored s) {b : UInt8}
    (hmap : inMap s.options.rxAsyncControlCharacterMap b = false) (hb : b ≠ flagSequence)
    (pool : PoolAnswer) :
    Fed (decode p b) stored s (s.receivedByte b pool) ∨
      p.1 = true ∧ b = controlEscape ∧ Inside s (s.receivedByte b pool) ∧
        (s.receivedByte b pool).rxState = .unsynchronized := by
  obtain ⟨esc, d⟩ := p
  cases esc with
  | false =>
    have hstate : s.rxState = st := h.state
    have hne : s.rxState ≠ .escaped ∧ s.rxState ≠ .unsynchronized := by
      rw [hstate]
      cases h.place <;> exact ⟨nofun, nofun⟩
    left
    by_cases hesc : b = controlEscape
    · subst hesc
      rw [receivedByte_escape hmap hne.1 hne.2]
      exact ⟨⟨rfl, rfl, rfl, rfl, rfl, rfl, rfl⟩, .inl ⟨st, stored,
        ⟨h.place, ⟨rfl, hstate⟩, h.rxIndex, h.rxCrc⟩, fun hf => ⟨hf.buffer, hf.bytes⟩⟩⟩
    · have hdecode : decode (false, d) b = (false, d ++ [b]) := if_neg hesc
      rw [receivedByte_plain hmap hne.1 fun _ => hesc, hdecode]
      exact h.process hb pool
  | true =>
    obtain ⟨hstate, hst⟩ : s.rxState = .escaped ∧ s.rxEscapedState = st := h.state
    by_cases hesc : b = controlEscape
    · right
      rw [receivedByte_invalid hmap hstate (.inr hesc), Receiver.process]
      dsimp only
      rw [reprocessUnsynchronized, if_neg hb]
      exact ⟨rfl, hesc, ⟨rfl, rfl, rfl, rfl, rfl, rfl, rfl⟩, rfl⟩
    · left
      have ht : Tracks st (false, d) stored { s with rxState := s.rxEscapedState } :=
        ⟨h.place, hst, h.rxIndex, h.rxCrc⟩
      rw [receivedByte_masked hmap hstate hb hesc]
      exact (ht.process hb pool).of_state

/-! ## Flags -/

/-- The frame that a flag completes. -/
def completes (s : Receiver) : List (List UInt8) :=
  if s.rxState = .receive ∧ fcsLength ≤ s.rxIndex ∧ s.rxCrc = fcs16Good then
    (s.rxActiveFrame.map fun i =>
      let start := (s.rxFrames.getD i default).start
      s.contents start (start + s.rxIndex - fcsLength)).toList
  else []

theorem found {l : List HdlcRxFrame} {p : HdlcRxFrame → Bool} (h : l.findIdx p ≠ l.length) :
    ∃ fp, l[l.findIdx p]? = some fp ∧ p fp = true := by
  have hlt : l.findIdx p < l.length := Nat.lt_of_le_of_ne (List.findIdx_le_length) h
  exact ⟨_, List.getElem?_eq_getElem hlt, List.findIdx_getElem⟩

/-- What leaves the reception of a frame as it was. -/
structure Still (s s' : Receiver) : Prop where
  rxState : s'.rxState = s.rxState
  rxEscapedState : s'.rxEscapedState = s.rxEscapedState
  rxIndex : s'.rxIndex = s.rxIndex
  rxCrc : s'.rxCrc = s.rxCrc
  mem : s'.mem = s.mem
  queued : s'.queued = s.queued

theorem Still.trans {s'' : Receiver} (h : Still s s') (h' : Still s' s'') : Still s s'' :=
  ⟨h'.rxState.trans h.rxState, h'.rxEscapedState.trans h.rxEscapedState, h'.rxIndex.trans h.rxIndex,
    h'.rxCrc.trans h.rxCrc, h'.mem.trans h.mem, h'.queued.trans h.queued⟩

theorem Still.post (h : Still s s') : Still s s'.postInputEngine :=
  ⟨h.rxState, h.rxEscapedState, h.rxIndex, h.rxCrc, h.mem, h.queued⟩

theorem startNewFrame_still (s : Receiver) (pool : PoolAnswer) : Still s (s.startNewFrame pool).2 := by
  unfold startNewFrame
  dsimp only
  split
  · exact ⟨rfl, rfl, rfl, rfl, rfl, rfl⟩
  · cases pool <;> exact ⟨rfl, rfl, rfl, rfl, rfl, rfl⟩

theorem available_still (s : Receiver) (pool : PoolAnswer) : Still s (s.available pool) := by
  rw [available]
  split
  · exact startNewFrame_still s pool
  · exact ⟨rfl, rfl, rfl, rfl, rfl, rfl⟩

theorem completeFrame_spec (s : Receiver) (pool : PoolAnswer) :
    (s.completeFrame pool).queued = s.queued ++ (s.rxActiveFrame.map fun i =>
      let start := (s.rxFrames.getD i default).start
      s.contents start (start + s.rxIndex - fcsLength)).toList := by
  rw [completeFrame]
  cases s.rxActiveFrame with
  | none => exact (List.append_nil _).symm
  | some i => exact (available_still _ pool).queued

/-- A flag completes the frame, if there is one (`t`), and starts the next. -/
inductive Restarts (s t : Receiver) (pool : PoolAnswer) : Prop
  | drop : Inside s t → s.completes = [] → Restarts s t pool
  | complete : s.rxState = .receive → fcsLength ≤ s.rxIndex → s.rxCrc = fcs16Good →
      t = s.completeFrame pool → Restarts s t pool

theorem receivedByte_flag (s : Receiver) (pool : PoolAnswer) :
    ∃ t l, Restarts s t pool ∧ s.receivedByte flagSequence pool =
      { t with rxIndex := 0, rxCrc := fcs16Initial, rxState := .atAddress, signals := l } := by
  have hmap : inMap s.options.rxAsyncControlCharacterMap flagSequence = false := rfl
  have hflag (t : Receiver) (error : Option HdlcError) :
      ∃ l, notify (t.reprocessUnsynchronized error flagSequence) =
        { t with rxIndex := 0, rxCrc := fcs16Initial, rxState := .atAddress, signals := l } :=
    notify_eq ({ t with rxIndex := 0, rxCrc := fcs16Initial, rxState := .atAddress }, error, true)
  have hsame : Inside s s := ⟨rfl, rfl, rfl, rfl, rfl, rfl, rfl⟩
  have hno (hn : ¬(s.rxState = .receive ∧ fcsLength ≤ s.rxIndex ∧ s.rxCrc = fcs16Good)) :
      s.completes = [] := if_neg hn
  by_cases hesc : s.rxState = .escaped
  · obtain ⟨l, hl⟩ := hflag { s with rxState := .unsynchronized } none
    refine ⟨{ s with rxState := .unsynchronized }, l,
      .drop ⟨rfl, rfl, rfl, rfl, rfl, rfl, rfl⟩ (hno ?_), ?_⟩
    · rw [hesc]
      exact fun hn => absurd hn.1 nofun
    · rw [receivedByte_invalid hmap hesc (.inl rfl)]
      exact hl
  · rw [receivedByte_plain hmap hesc (fun _ => by decide), Receiver.process]
    cases hstate : s.rxState with
    | escaped => exact absurd hstate hesc
    | unsynchronized =>
      obtain ⟨l, hl⟩ := hflag s none
      exact ⟨s, l, .drop hsame (hno (by rw [hstate]; exact fun hn => absurd hn.1 nofun)), hl⟩
    | atAddress =>
      obtain ⟨l, hl⟩ := hflag s none
      exact ⟨s, l, .drop hsame (hno (by rw [hstate]; exact fun hn => absurd hn.1 nofun)), hl⟩
    | atControlField =>
      obtain ⟨l, hl⟩ := hflag s none
      exact ⟨s, l, .drop hsame (hno (by rw [hstate]; exact fun hn => absurd hn.1 nofun)), hl⟩
    | receive =>
      dsimp only
      rw [Receiver.receive, if_pos rfl]
      by_cases hlen : fcsLength ≤ s.rxIndex
      · rw [if_pos hlen]
        by_cases hcrc : s.rxCrc = fcs16Good
        · rw [if_pos hcrc]
          obtain ⟨l, hl⟩ := hflag (s.completeFrame pool) none
          exact ⟨_, l, .complete hstate hlen hcrc rfl, hl⟩
        · rw [if_neg hcrc]
          obtain ⟨l, hl⟩ := hflag s (some .badCrc)
          exact ⟨s, l, .drop hsame (hno fun hn => hcrc hn.2.2), hl⟩
      · rw [if_neg hlen]
        obtain ⟨l, hl⟩ := hflag s (some .shortFrame)
        exact ⟨s, l, .drop hsame (hno fun hn => hlen hn.2.1), hl⟩

theorem Restarts.queued {t : Receiver} {pool : PoolAnswer} (h : Restarts s t pool) :
    t.queued = s.queued ++ s.completes := by
  cases h with
  | drop hs hno => rw [hs.queued, hno, List.append_nil]
  | complete hstate hlen hcrc ht =>
    rw [ht, completeFrame_spec, completes, if_pos ⟨hstate, hlen, hcrc⟩]

/-! ## The frames -/

theorem Framed.startNewFrame (h : Framed s) (pool : PoolAnswer) : Framed (s.startNewFrame pool).2 := by
  unfold Receiver.startNewFrame
  dsimp only
  split
  · exact h
  · next hfound =>
    obtain ⟨fp, hget, hunused⟩ := found hfound
    cases pool with
    | error rc => exact h
    | ok fragment =>
      have hlt := (List.getElem?_eq_some_iff.1 hget).1
      refine ⟨nofun, ?_, ?_, h.nodup⟩
      · rintro i ⟨⟩
        exact ⟨_, by rw [List.getElem?_set_self hlt], rfl, rfl⟩
      · intro j hj
        obtain ⟨fp', hget', hreceived⟩ := h.ready j hj
        refine ⟨fp', ?_, hreceived⟩
        rw [List.getElem?_set_ne, hget']
        rintro rfl
        rw [hget] at hget'
        cases hget'
        rw [of_decide_eq_true hunused] at hreceived
        cases hreceived

theorem Framed.available (h : Framed s) (pool : PoolAnswer) : Framed (s.available pool) := by
  rw [Receiver.available]
  split
  · exact h.startNewFrame pool
  · exact h

theorem Framed.completeFrame (h : Framed s) (pool : PoolAnswer) : Framed (s.completeFrame pool) := by
  rw [Receiver.completeFrame]
  cases hactive : s.rxActiveFrame with
  | none => exact h
  | some i =>
    obtain ⟨fp, hget, hreceiving, -⟩ := h.active i hactive
    have hlt := (List.getElem?_eq_some_iff.1 hget).1
    have hnot : ∀ j ∈ s.readyFrame, j ≠ i := by
      rintro j hj rfl
      obtain ⟨fp', hget', hreceived⟩ := h.ready j hj
      cases hget.symm.trans hget'
      rw [hreceiving] at hreceived
      cases hreceived
    refine Framed.available ?_ pool
    refine ⟨fun _ => rfl, nofun, ?_, ?_⟩
    · intro j hj
      rcases List.mem_append.1 hj with hj | hj
      · obtain ⟨fp', hget', hreceived⟩ := h.ready j hj
        exact ⟨fp', by rw [List.getElem?_set_ne (hnot j hj).symm, hget'], hreceived⟩
      · obtain rfl := List.mem_singleton.1 hj
        exact ⟨_, by rw [List.getElem?_set_self hlt], rfl⟩
    · refine List.nodup_append.2 ⟨h.nodup, List.pairwise_singleton _ _, ?_⟩
      intro j hj k hk he
      exact hnot j hj (he.trans (List.mem_singleton.1 hk))

/-- What is released is neither being received nor still in the ready queue. -/
def Releases (s : Receiver) : Event → Prop
  | .releaseReceivedFrame buffer =>
    let i := s.rxFrames.findIdx (·.start = buffer)
    i ≠ s.rxFrames.length → (s.rxFrames.getD i default).frameState ≠ .receiving ∧
      (s.rxFrames.getD i default).frameState ≠ .received
  | _ => True

/-- `StdControl.start` is called while no frame is active. -/
def Starts (s : Receiver) : Event → Prop
  | .start _ => s.rxActiveFrame = none
  | _ => True

/-- A frame in another state is neither active nor ready. -/
theorem Framed.setFrame (h : Framed s) {i : Nat} {fp : HdlcRxFrame} (fp' : HdlcRxFrame)
    (hget : s.rxFrames[i]? = some fp) (h₁ : fp.frameState ≠ .receiving) {ready : List Nat} (hready : ready.Sublist s.readyFrame)
    (h₂ : i ∉ ready) (posted : Bool) (signals : List Signal) :
    Framed { s with
      rxFrames := s.rxFrames.set i fp', readyFrame := ready, taskPosted := posted, signals := signals } := by
  refine ⟨h.idle, ?_, ?_, h.nodup.sublist hready⟩
  · intro j hj
    obtain ⟨fq, hq, hreceiving, hstart⟩ := h.active j hj
    refine ⟨fq, ?_, hreceiving, hstart⟩
    rw [List.getElem?_set_ne, hq]
    rintro rfl
    cases hget.symm.trans hq
    exact h₁ hreceiving
  · intro j hj
    obtain ⟨fq, hq, hreceived⟩ := h.ready j (hready.subset hj)
    refine ⟨fq, ?_, hreceived⟩
    rw [List.getElem?_set_ne, hq]
    rintro rfl
    exact h₂ hj

theorem Framed.inputEngineTask (h : Framed s) (pool : PoolAnswer) :
    Framed (s.inputEngineTask pool) := by
  rw [Receiver.inputEngineTask]
  dsimp only
  cases hready : s.readyFrame with
  | cons i rest =>
    obtain ⟨fp, hget, hreceived⟩ := h.ready i (hready ▸ .head _)
    have hnd := h.nodup
    rw [hready] at hnd
    have hs := h.setFrame { s.rxFrames.getD i default with frameState := .processing } hget
      (by rw [hreceived]; nofun) (hready ▸ List.sublist_cons_self i rest) (List.nodup_cons.1 hnd).1
    dsimp only
    split
    · exact hs _ _
    · exact hs _ _
  | nil =>
    dsimp only
    split
    · exact ⟨h.idle, h.active, hready ▸ h.ready, hready ▸ h.nodup⟩
    · next hfound =>
      obtain ⟨fp, hget, hreleasable⟩ := found hfound
      have hs := h.setFrame {} hget (by rw [of_decide_eq_true hreleasable]; nofun)
        (List.nil_sublist _) List.not_mem_nil false s.signals
      split
      · have ha := Framed.available hs pool
        exact ⟨ha.idle, ha.active, ha.ready, ha.nodup⟩
      · exact hs

/-! ## Runs -/

def Event.isByte : Event → Bool
  | .receivedByte .. => true
  | _ => false

theorem inputEngineTask_still (s : Receiver) (pool : PoolAnswer) :
    Still s (s.inputEngineTask pool) := by
  rw [Receiver.inputEngineTask]
  dsimp only
  cases s.readyFrame with
  | cons i rest =>
    dsimp only
    split <;> exact ⟨rfl, rfl, rfl, rfl, rfl, rfl⟩
  | nil =>
    dsimp only
    split
    · exact ⟨rfl, rfl, rfl, rfl, rfl, rfl⟩
    · split
      · refine Still.post (Still.trans ?_ (available_still _ pool))
        exact ⟨rfl, rfl, rfl, rfl, rfl, rfl⟩
      · exact ⟨rfl, rfl, rfl, rfl, rfl, rfl⟩

/-- Only bytes matter to the frame that is being received. -/
theorem step_still (s : Receiver) {e : Event} (he : e.isByte = false) : Still s (s.step e) := by
  cases e with
  | start pool => exact startNewFrame_still s pool
  | setOptions o => exact ⟨rfl, rfl, rfl, rfl, rfl, rfl⟩
  | receivedByte b pool => cases he
  | available pool => exact available_still s pool
  | inputEngineTask pool =>
    rw [step]
    split
    · exact inputEngineTask_still s pool
    · exact ⟨rfl, rfl, rfl, rfl, rfl, rfl⟩
  | releaseReceivedFrame buffer =>
    rw [step, releaseReceivedFrame]
    dsimp only
    split <;> exact ⟨rfl, rfl, rfl, rfl, rfl, rfl⟩

theorem Framed.step (h : Framed s) {e : Event} (he : e.isByte = false) (hrel : s.Releases e) :
    Framed (s.step e) := by
  cases e with
  | start pool => exact h.startNewFrame pool
  | setOptions o => exact ⟨h.idle, h.active, h.ready, h.nodup⟩
  | receivedByte b pool => cases he
  | available pool => exact h.available pool
  | inputEngineTask pool =>
    rw [Receiver.step]
    split
    · exact h.inputEngineTask pool
    · exact h
  | releaseReceivedFrame buffer =>
    rw [Receiver.step, releaseReceivedFrame]
    dsimp only
    split
    · exact h
    · next hfound =>
      obtain ⟨fp, hget, -⟩ := found hfound
      have hstate := hrel hfound
      rw [List.getD_eq_getElem?_getD, hget, Option.getD_some] at hstate
      refine h.setFrame _ hget hstate.1 (List.Sublist.refl _) ?_ true s.signals
      intro hj
      obtain ⟨fp', hget', hreceived⟩ := h.ready _ hj
      cases hget.symm.trans hget'
      exact hstate.2 hreceived

/-- The buffer of the active frame stays. -/
theorem Framed.buffer (h : Framed s) {e : Event} (he : e.isByte = false) (hstart : s.Starts e)
    (hb : s.rxBuffer ≠ 0) :
    (s.step e).rxBuffer = s.rxBuffer ∧ (s.step e).rxBufferLength = s.rxBufferLength := by
  have hactive : s.rxActiveFrame ≠ none := fun hn => hb (h.idle hn)
  cases e with
  | start pool => exact absurd hstart hactive
  | setOptions o => exact ⟨rfl, rfl⟩
  | receivedByte b pool => cases he
  | available pool =>
    rw [Receiver.step, Receiver.available, if_neg hactive]
    exact ⟨rfl, rfl⟩
  | inputEngineTask pool =>
    rw [Receiver.step]
    split
    · rw [Receiver.inputEngineTask]
      dsimp only
      cases s.readyFrame with
      | cons i rest =>
        dsimp only
        split <;> exact ⟨rfl, rfl⟩
      | nil =>
        dsimp only
        rw [Receiver.available, if_neg hactive]
        split
        · exact ⟨rfl, rfl⟩
        · split <;> exact ⟨rfl, rfl⟩
    · exact ⟨rfl, rfl⟩
  | releaseReceivedFrame buffer =>
    rw [Receiver.step, releaseReceivedFrame]
    dsimp only
    split <;> exact ⟨rfl, rfl⟩

theorem Filled.step {stored : List UInt8} (hf : Filled stored s) (h : Framed s) {e : Event}
    (he : e.isByte = false) (hstart : s.Starts e) : Filled stored (s.step e) := by
  by_cases hnil : stored = []
  · subst hnil
    exact ⟨fun hn => absurd rfl hn, rfl⟩
  · have hbuf := (h.buffer he hstart (hf.buffer hnil)).1
    refine ⟨fun _ => hbuf ▸ hf.buffer hnil, ?_⟩
    rw [hbuf, (step_still s he).mem]
    exact hf.bytes

theorem Tracks.still {st : RxState} {p : Bool × List UInt8} {stored : List UInt8}
    (h : Tracks st p stored s) (hs : Still s s') : Tracks st p stored s' := by
  refine ⟨h.place, ?_, hs.rxIndex.trans h.rxIndex, hs.rxCrc.trans h.rxCrc⟩
  rw [hs.rxState, hs.rxEscapedState]
  exact h.state

/-- The bytes since the last flag that were not dropped. -/
def line : List (Receiver × Event) → List UInt8
  | [] => []
  | (s, .receivedByte b _) :: h =>
    if inMap s.options.rxAsyncControlCharacterMap b then line h
    else if b = flagSequence then []
    else line h ++ [b]
  | _ :: h => line h

theorem line_receivedByte (s : Receiver) (b : UInt8) (pool : PoolAnswer)
    (h : List (Receiver × Event)) :
    line ((s, .receivedByte b pool) :: h) =
      if inMap s.options.rxAsyncControlCharacterMap b then line h
      else if b = flagSequence then []
      else line h ++ [b] := rfl

theorem line_of_not_byte {e : Event} (he : e.isByte = false) (h : List (Receiver × Event)) :
    line ((s, e) :: h) = line h := by
  cases e with
  | receivedByte b pool => cases he
  | _ => rfl

/-- The frames of the history are used as they should be. -/
def AllReleases (h : List (Receiver × Event)) : Prop := ∀ p ∈ h, p.1.Releases p.2

def AllOrderly (h : List (Receiver × Event)) : Prop := ∀ p ∈ h, p.1.Releases p.2 ∧ p.1.Starts p.2

theorem AllOrderly.releases {h : List (Receiver × Event)} (ho : AllOrderly h) : AllReleases h :=
  fun p hp => (ho p hp).1

/-- The receiver is out of step with the line, or follows it. -/
structure Follows (h : List (Receiver × Event)) (s : Receiver) : Prop where
  wellFramed : AllReleases h → Framed s
  state : s.rxState = .unsynchronized ∨
    ∃ st stored, Tracks st (decoded (line h)) stored s ∧ (AllOrderly h → Filled stored s)

theorem Follows.receivedByte {h : List (Receiver × Event)} (hf : Follows h s) {b : UInt8}
    (hmap : inMap s.options.rxAsyncControlCharacterMap b = false) (hflag : b ≠ flagSequence)
    (pool : PoolAnswer) :
    Inside s (s.receivedByte b pool) ∧ ((s.receivedByte b pool).rxState = .unsynchronized ∨
      ∃ st stored, Tracks st (decoded (line h ++ [b])) stored (s.receivedByte b pool) ∧
        (AllOrderly h → Filled stored (s.receivedByte b pool))) := by
  rcases hf.state with hu | ⟨st, stored, ht, hfill⟩
  · rw [receivedByte_plain hmap (by rw [hu]; nofun) fun hn => absurd hu hn, Receiver.process, hu]
    dsimp only
    rw [reprocessUnsynchronized, if_neg hflag]
    exact ⟨⟨rfl, rfl, rfl, rfl, rfl, rfl, rfl⟩, .inl rfl⟩
  · rcases ht.receivedByte hmap hflag pool with hfed | ⟨-, -, hinside, hu⟩
    · refine ⟨hfed.inside, ?_⟩
      rw [decoded_snoc]
      rcases hfed.outcome with ⟨st', stored', ht', hfill'⟩ | ⟨hu, -⟩
      · exact .inr ⟨st', stored', ht', fun ho => hfill' (hfill ho)⟩
      · exact .inl hu
    · exact ⟨hinside, .inl hu⟩

theorem Framed.receivedByte_flag (h : Framed s) (pool : PoolAnswer) :
    Framed (s.receivedByte flagSequence pool) := by
  obtain ⟨t, l, hrestart, he⟩ := Receiver.receivedByte_flag s pool
  have hframed : Framed t := by
    cases hrestart with
    | drop hs _ => exact h.inside hs
    | complete _ _ _ ht => exact ht ▸ h.completeFrame pool
  rw [he]
  exact ⟨hframed.idle, hframed.active, hframed.ready, hframed.nodup⟩

/-- A flag starts a frame. -/
theorem tracks_flag (s : Receiver) (pool : PoolAnswer) :
    Tracks .atAddress (decoded []) [] (s.receivedByte flagSequence pool) := by
  obtain ⟨t, l, -, he⟩ := Receiver.receivedByte_flag s pool
  rw [he]
  exact ⟨.address, rfl, rfl, rfl⟩

theorem Follows.step {h : List (Receiver × Event)} (hf : Follows h s) (e : Event) :
    Follows ((s, e) :: h) (s.step e) := by
  have hrel (ho : AllReleases ((s, e) :: h)) : s.Releases e ∧ AllReleases h :=
    List.forall_mem_cons.1 ho
  have hall (ho : AllOrderly ((s, e) :: h)) : (s.Releases e ∧ s.Starts e) ∧ AllOrderly h :=
    List.forall_mem_cons.1 ho
  cases he : e.isByte with
  | false =>
    have hs := step_still s he
    refine ⟨fun ho => (hf.wellFramed (hrel ho).2).step he (hrel ho).1, ?_⟩
    rw [line_of_not_byte he]
    rcases hf.state with hu | ⟨st, stored, ht, hfill⟩
    · exact .inl (hs.rxState.trans hu)
    · exact .inr ⟨st, stored, ht.still hs, fun ho =>
        (hfill (hall ho).2).step (hf.wellFramed (hall ho).2.releases) he (hall ho).1.2⟩
  | true =>
    cases e with
    | receivedByte b pool =>
      rw [Receiver.step]
      cases hmap : inMap s.options.rxAsyncControlCharacterMap b with
      | true =>
        have hsame : s.receivedByte b pool = s := by rw [Receiver.receivedByte, if_pos hmap]
        have hline : line ((s, .receivedByte b pool) :: h) = line h := by
          rw [line_receivedByte, if_pos hmap]
        rw [hsame]
        refine ⟨fun ho => hf.wellFramed (hrel ho).2, ?_⟩
        rw [hline]
        exact hf.state.imp_right fun ⟨st, stored, ht, hfill⟩ =>
          ⟨st, stored, ht, fun ho => hfill (hall ho).2⟩
      | false =>
        by_cases hflag : b = flagSequence
        · subst hflag
          have hline : line ((s, .receivedByte flagSequence pool) :: h) = [] := by
            rw [line_receivedByte, hmap, if_neg (by nofun), if_pos rfl]
          refine ⟨fun ho => (hf.wellFramed (hrel ho).2).receivedByte_flag pool, .inr ?_⟩
          rw [hline]
          exact ⟨_, [], tracks_flag s pool, fun _ => ⟨nofun, rfl⟩⟩
        · have hline : line ((s, .receivedByte b pool) :: h) = line h ++ [b] := by
            rw [line_receivedByte, hmap, if_neg (by nofun), if_neg hflag]
          obtain ⟨hinside, hstate⟩ := hf.receivedByte hmap hflag pool
          refine ⟨fun ho => (hf.wellFramed (hrel ho).2).inside hinside, ?_⟩
          rw [hline]
          exact hstate.imp_right fun ⟨st, stored, ht, hfill⟩ =>
            ⟨st, stored, ht, fun ho => hfill (hall ho).2⟩
    | _ => cases he

theorem follows {limit : UInt8} {h : List (Receiver × Event)} (hr : (machine limit).Run h s) :
    Follows h s := by
  induction hr with
  | init hi => exact hi ▸ ⟨fun _ => ⟨fun _ => rfl, nofun, nofun, .nil⟩, .inl rfl⟩
  | step _ hs ih =>
    cases hs
    exact ih.step _

/-! ## What is queued -/

/-- The bytes behind the address and control fields. -/
theorem Place.split {d stored : List UInt8} (h : Place d .receive stored) :
    ∃ front, (front = [] ∨ front = [allStationsAddress, controlFieldValue]) ∧ d = front ++ stored := by
  cases h with
  | full => exact ⟨_, .inr rfl, rfl⟩
  | compressed => exact ⟨[], .inl rfl, rfl⟩

theorem take_contents {stored : List UInt8} (hf : Filled stored s) {n : Nat} (hn : n ≤ stored.length) :
    s.contents s.rxBuffer (s.rxBuffer + n) = stored.take n := by
  rw [contents, Nat.add_sub_cancel_left]
  conv_rhs => rw [← hf.bytes]
  rw [← List.map_take, List.take_range, Nat.min_eq_left hn]

/-- The payload is what is stored, but for the checksum. -/
theorem Filled.completes_eq {payload check : List UInt8} (hf : Filled (payload ++ check) s)
    (hframed : Framed s) (hcheck : check.length = fcsLength) (hstate : s.rxState = .receive)
    (hindex : s.rxIndex = (payload ++ check).length) (hcrc : s.rxCrc = fcs16Good) :
    s.completes = [payload] := by
  rw [List.length_append, hcheck] at hindex
  have hne : payload ++ check ≠ [] := by
    rintro hnil
    rw [(List.append_eq_nil_iff.1 hnil).2] at hcheck
    cases hcheck
  cases hactive : s.rxActiveFrame with
  | none => exact absurd (hframed.idle hactive) (hf.buffer hne)
  | some i =>
    obtain ⟨fp, hget, -, hstart⟩ := hframed.active i hactive
    have hend : s.rxBuffer + s.rxIndex - fcsLength = s.rxBuffer + payload.length := by omega
    rw [Receiver.completes, if_pos ⟨hstate, by omega, hcrc⟩, hactive, Option.map_some,
      Option.toList_some, List.getD_eq_getElem?_getD, hget, Option.getD_some, hstart]
    dsimp only
    rw [hend, take_contents hf (by simp), List.take_left]

theorem exists_two {l : List UInt8} (h : 2 ≤ l.length) : ∃ front x y, l = front ++ [x, y] := by
  obtain rfl | ⟨l, y, rfl⟩ := List.eq_nil_or_concat l
  · cases h
  · obtain rfl | ⟨l, x, rfl⟩ := List.eq_nil_or_concat l
    · simp at h
    · exact ⟨l, x, y, by simp⟩

/-- A frame that a flag completes. -/
theorem Follows.complete {h : List (Receiver × Event)} (hf : Follows h s)
    (hstate : s.rxState = .receive) (hlen : fcsLength ≤ s.rxIndex) (hcrc : s.rxCrc = fcs16Good) :
    ∃ front payload, (front = [] ∨ front = [allStationsAddress, controlFieldValue]) ∧
      decoded (line h) = (false, framed front payload) ∧
      (AllOrderly h → s.completes = [payload]) := by
  rcases hf.state with hu | ⟨st, stored, ht, hfill⟩
  · cases hstate.symm.trans hu
  · obtain ⟨hplace, hrx, hindex, hfcs⟩ := ht
    cases hp : decoded (line h) with
    | mk esc d =>
      rw [hp] at hplace hrx hfcs
      cases esc with
      | true => cases hstate.symm.trans hrx.1
      | false =>
        obtain rfl : st = .receive := (hstate.symm.trans hrx).symm
        obtain ⟨front, hfront, rfl⟩ := hplace.split
        obtain ⟨payload, x, y, rfl⟩ := exists_two (hindex ▸ hlen)
        have htrailer : [x, y] = trailer (front ++ payload) := by
          rw [← fcs_eq_good_iff, List.append_assoc, ← hcrc, hfcs]
        refine ⟨front, payload, hfront, ?_, fun ho => ?_⟩
        · rw [framed, ← htrailer, List.append_assoc]
        · exact (hfill ho).completes_eq (hf.wellFramed ho.releases) rfl hstate hindex hcrc

theorem queued_flag (s : Receiver) (pool : PoolAnswer) :
    (s.receivedByte flagSequence pool).queued = s.queued ++ s.completes := by
  obtain ⟨t, l, hrestart, he⟩ := receivedByte_flag s pool
  rw [he]
  exact hrestart.queued

/-- **Only frames with a matching checksum are queued**, and what is queued is their payload. -/
theorem queued_good {limit : UInt8} {h : List (Receiver × Event)} (hr : (machine limit).Run h s)
    {e : Event} (hne : (s.step e).queued ≠ s.queued) :
    (∃ pool, e = .receivedByte flagSequence pool) ∧ ∃ front payload,
      (front = [] ∨ front = [allStationsAddress, controlFieldValue]) ∧
      decoded (line h) = (false, framed front payload) ∧
      (AllOrderly h → (s.step e).queued = s.queued ++ [payload]) := by
  have hf := follows hr
  cases e with
  | receivedByte b pool =>
    rw [Receiver.step] at hne ⊢
    cases hmap : inMap s.options.rxAsyncControlCharacterMap b with
    | true =>
      rw [Receiver.receivedByte, if_pos hmap] at hne
      exact absurd rfl hne
    | false =>
      by_cases hflag : b = flagSequence
      · subst hflag
        rw [queued_flag] at hne ⊢
        by_cases hgood : s.rxState = .receive ∧ fcsLength ≤ s.rxIndex ∧ s.rxCrc = fcs16Good
        · obtain ⟨front, payload, hfront, hdecoded, hcompletes⟩ :=
            hf.complete hgood.1 hgood.2.1 hgood.2.2
          exact ⟨⟨pool, rfl⟩, front, payload, hfront, hdecoded, fun ho => by rw [hcompletes ho]⟩
        · rw [completes, if_neg hgood, List.append_nil] at hne
          exact absurd rfl hne
      · exact absurd (hf.receivedByte hmap hflag pool).1.queued hne
  | _ => exact absurd (step_still s rfl).queued hne

end Ppp.Receiver
