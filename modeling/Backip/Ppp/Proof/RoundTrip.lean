import Backip.Ppp.Proof.Receive
import Backip.Ppp.Proof.Transmit
import Mathlib

/-!
# From one transmitter to the receiver

What was sent is decoded byte by byte (`decoded_escapeAll`), no byte of it is dropped or taken for a
flag (`next_byte`), and every part of it has its place and its room (`exists_place`). So `fed` carries
the receiver from the opening flag to the closing one, and `frame_queued` is what the closing flag then
does.
-/

set_option autoImplicit false

namespace Ppp

open Transmitter Receiver

variable {accm map : UInt32} {front data content w : List UInt8} {s s' s₁ : Receiver}

/-! ## The bytes of a frame -/

theorem escape_of_mustEscape {c : UInt8} (h : mustEscape c accm = true) :
    escape accm c = [controlEscape, c ^^^ controlModifier] := if_pos h

theorem escape_of_not_mustEscape {c : UInt8} (h : mustEscape c accm = false) : escape accm c = [c] :=
  if_neg (by rw [h]; nofun)

theorem escapeAll_cons (c : UInt8) (l : List UInt8) :
    escapeAll accm (c :: l) = escape accm c ++ escapeAll accm l := List.flatMap_cons

theorem xor_controlModifier (c : UInt8) : c ^^^ controlModifier ^^^ controlModifier = c := by
  rw [UInt8.xor_assoc, UInt8.xor_self, UInt8.xor_zero]

/-- A part `w` of what is sent: it stands for a part `d` of the contents, or ends inside the two bytes
of a `c`. -/
inductive Part (accm : UInt32) (content w : List UInt8) (p : Bool × List UInt8) : Prop
  | whole {d r : List UInt8} : content = d ++ r → p = (false, d) →
      escapeAll accm content = w ++ escapeAll accm r → Part accm content w p
  | half {d r : List UInt8} {c : UInt8} : content = d ++ c :: r → p = (true, d) →
      mustEscape c accm = true →
      escapeAll accm content = w ++ (c ^^^ controlModifier) :: escapeAll accm r →
      Part accm content w p

/-- One byte of the contents, and a part of what is behind it. -/
theorem Part.cons {c : UInt8} {esc : Bool} {d : List UInt8}
    (h : Part accm content w (esc, d)) :
    Part accm (c :: content) (escape accm c ++ w) (esc, c :: d) := by
  cases h with
  | @whole d' r hc hp hw =>
    cases hp
    exact .whole (d := c :: d) (r := r) (by rw [hc]; rfl) rfl
      (by rw [escapeAll_cons, hw, List.append_assoc])
  | @half d' r c' hc hp hm hw =>
    cases hp
    exact .half (d := c :: d) (r := r) (c := c') (by rw [hc]; rfl) rfl hm
      (by rw [escapeAll_cons, hw, List.append_assoc])

/-- Decoding appends to what is there. -/
theorem foldl_decode (l d : List UInt8) (esc : Bool) :
    l.foldl decode (esc, d) = ((l.foldl decode (esc, [])).1, d ++ (l.foldl decode (esc, [])).2) := by
  induction l generalizing d esc with
  | nil => rw [List.foldl_nil, List.foldl_nil, List.append_nil]
  | cons b l ih =>
    rw [List.foldl_cons, List.foldl_cons]
    cases esc with
    | true =>
      show l.foldl decode (false, d ++ [b ^^^ controlModifier]) = _
      rw [ih, show decode (true, []) b = (false, [b ^^^ controlModifier]) from rfl, ih [_],
        List.append_assoc]
    | false =>
      by_cases hb : b = controlEscape
      · rw [show decode (false, d) b = (true, d) from if_pos hb,
          show decode (false, []) b = (true, []) from if_pos hb, ih]
      · rw [show decode (false, d) b = (false, d ++ [b]) from if_neg hb,
          show decode (false, []) b = (false, [b]) from if_neg hb, ih, ih [_], List.append_assoc]

theorem decoded_escape_append (c : UInt8) (l : List UInt8) :
    decoded (escape accm c ++ l) = ((decoded l).1, c :: (decoded l).2) := by
  have hone : (escape accm c).foldl decode (false, []) = (false, [c]) := by
    cases hc : mustEscape c accm with
    | true =>
      rw [escape_of_mustEscape hc]
      show (false, [c ^^^ controlModifier ^^^ controlModifier]) = _
      rw [xor_controlModifier]
    | false =>
      rw [escape_of_not_mustEscape hc]
      refine if_neg ?_
      rintro rfl
      simp [mustEscape] at hc
  rw [decoded, List.foldl_append, hone, foldl_decode]
  rfl

theorem part_of_prefix (h : w <+: escapeAll accm content) : Part accm content w (decoded w) := by
  induction content generalizing w with
  | nil =>
    obtain rfl := List.prefix_nil.1 h
    exact .whole (d := []) (r := []) rfl rfl rfl
  | cons c content ih =>
    rw [escapeAll_cons] at h
    cases hw : w with
    | nil => exact .whole (d := []) (r := c :: content) rfl rfl rfl
    | cons b w' =>
      rw [hw] at h
      -- the bytes of `c` are all in `w`, or `w` is the first of two
      obtain hall | ⟨hm, rfl⟩ : (∃ l, b :: w' = escape accm c ++ l) ∨
          mustEscape c accm = true ∧ w' = [] := by
        cases hm : mustEscape c accm with
        | false =>
          rw [escape_of_not_mustEscape hm] at h ⊢
          exact .inl ⟨w', by rw [(List.cons_prefix_cons.1 h).1]; rfl⟩
        | true =>
          rw [escape_of_mustEscape hm] at h ⊢
          obtain ⟨rfl, hrest⟩ := List.cons_prefix_cons.1 h
          cases w' with
          | nil => exact .inr ⟨rfl, rfl⟩
          | cons x l => exact .inl ⟨l, by rw [(List.cons_prefix_cons.1 hrest).1]; rfl⟩
      · obtain ⟨l, hl⟩ := hall
        rw [hl] at h ⊢
        rw [decoded_escape_append]
        exact (ih ((List.prefix_append_right_inj _).1 h)).cons
      · rw [escape_of_mustEscape hm] at h
        obtain ⟨rfl, -⟩ := List.cons_prefix_cons.1 h
        refine .half (d := []) (r := content) (c := c) rfl rfl hm ?_
        rw [escapeAll_cons, escape_of_mustEscape hm]
        rfl

theorem decoded_escapeAll (accm : UInt32) (content : List UInt8) :
    decoded (escapeAll accm content) = (false, content) := by
  induction content with
  | nil => rfl
  | cons c content ih => rw [escapeAll_cons, decoded_escape_append, ih]

/-- A byte that is sent masked is neither a control character nor a flag or an escape. -/
theorem masked_plain {c : UInt8} (h : mustEscape c accm = true) :
    c ^^^ controlModifier ≠ flagSequence ∧ c ^^^ controlModifier ≠ controlEscape ∧
      ∀ map, inMap map (c ^^^ controlModifier) = false := by
  have hmask : ∀ c : UInt8, c = flagSequence ∨ c = controlEscape ∨ c < 0x20 →
      c ^^^ controlModifier ≠ flagSequence ∧ c ^^^ controlModifier ≠ controlEscape ∧
        ¬c ^^^ controlModifier < 0x20 := by
    rintro ⟨⟨⟨c, hlt⟩⟩⟩
    revert c
    decide +kernel
  have hc : c = flagSequence ∨ c = controlEscape ∨ c < 0x20 := by
    simp only [mustEscape, inMap, Bool.or_eq_true, Bool.and_eq_true, decide_eq_true_eq] at h
    rcases h with (h | h) | h
    · exact .inl h
    · exact .inr (.inl h)
    · exact .inr (.inr h.1)
  obtain ⟨hflag, hesc, hcontrol⟩ := hmask c hc
  exact ⟨hflag, hesc, fun map => by rw [inMap, decide_eq_false hcontrol, Bool.false_and]⟩

/-- The next byte of what is sent. -/
theorem next_byte {b : UInt8} (h : w ++ [b] <+: escapeAll accm content)
    (hmap : ∀ c, inMap map c = true → inMap accm c = true) :
    b ≠ flagSequence ∧ inMap map b = false ∧ ((decoded w).1 = true → b ≠ controlEscape) ∧
      (decoded (w ++ [b])).2 <+: content := by
  have hw := part_of_prefix ((List.prefix_append w [b]).trans h)
  have hpart : (decoded (w ++ [b])).2 <+: content := by
    cases part_of_prefix h with
    | whole hc hp _ => exact ⟨_, by rw [hp, hc]⟩
    | half hc hp _ _ => exact ⟨_, by rw [hp, hc]⟩
  cases hw with
  | @whole d r hc hp hl =>
    rw [hp]
    rw [hl, List.prefix_append_right_inj] at h
    refine ⟨?_, ?_, nofun, hpart⟩
    all_goals cases r with
      | nil => exact absurd (List.prefix_nil.1 h) nofun
      | cons c r =>
        rw [escapeAll_cons] at h
        cases hm : mustEscape c accm with
        | true =>
          rw [escape_of_mustEscape hm] at h
          obtain ⟨rfl, -⟩ := List.cons_prefix_cons.1 h
          first | decide | rfl
        | false =>
          rw [escape_of_not_mustEscape hm] at h
          obtain ⟨rfl, -⟩ := List.cons_prefix_cons.1 h
          simp only [mustEscape, Bool.or_eq_false_iff, decide_eq_false_iff_not] at hm
          first
          | exact hm.1.1
          | exact Bool.eq_false_iff.2 fun hb => by rw [hmap _ hb] at hm; exact absurd hm.2 nofun
  | half hc hp hm hl =>
    rw [hl, List.prefix_append_right_inj] at h
    obtain ⟨rfl, -⟩ := List.cons_prefix_cons.1 h
    obtain ⟨hflag, hesc, hno⟩ := masked_plain hm
    exact ⟨hflag, hno map, fun _ => hesc, hpart⟩

/-! ## Places -/

theorem trailer_length (l : List UInt8) : (trailer l).length = fcsLength := rfl

/-- The address and control fields are there, or they are compressed and the payload cannot be taken
for them. -/
inductive Fronted : List UInt8 → List UInt8 → Prop
  | full (data : List UInt8) : Fronted [allStationsAddress, controlFieldValue] data
  | compressed {data : List UInt8} : data.head? ≠ some allStationsAddress → Fronted [] data

/-- The whole of a frame has been stored, but for the address and control fields. -/
theorem Fronted.place (h : Fronted front data) :
    Place (framed front data) .receive (data ++ trailer (front ++ data)) := by
  cases h with
  | full => exact .full _
  | compressed hne =>
    cases data with
    | nil => exact .compressed [0] (by decide)
    | cons c l => exact .compressed _ fun hc => hne (congrArg some hc)

/-- Every part of a frame has a place, and only so much of it is stored. -/
theorem Fronted.exists_place (h : Fronted front data) {d : List UInt8} (hd : d <+: framed front data) :
    ∃ st stored, Place d st stored ∧ stored.length ≤ data.length + fcsLength := by
  have hlen := hd.length_le
  rw [framed, List.length_append, List.length_append, trailer_length] at hlen
  cases h with
  | full =>
    obtain _ | ⟨c, _ | ⟨c', l⟩⟩ := d
    · exact ⟨_, _, .address, Nat.zero_le _⟩
    · obtain ⟨rfl, -⟩ := List.cons_prefix_cons.1 hd
      exact ⟨_, _, .control, Nat.zero_le _⟩
    · obtain ⟨rfl, hrest⟩ := List.cons_prefix_cons.1 hd
      obtain ⟨rfl, -⟩ := List.cons_prefix_cons.1 hrest
      simp only [List.length_cons, List.length_nil] at hlen
      exact ⟨_, _, .full l, by omega⟩
  | compressed hne =>
    cases d with
    | nil => exact ⟨_, _, .address, Nat.zero_le _⟩
    | cons c l =>
      refine ⟨_, _, .compressed l ?_, by simpa using hlen⟩
      cases data with
      | nil =>
        obtain ⟨rfl, -⟩ := List.cons_prefix_cons.1 hd
        decide
      | cons c' l' =>
        obtain ⟨rfl, -⟩ := List.cons_prefix_cons.1 hd
        exact fun hc => hne (congrArg some hc)

theorem Receiver.Place.unique {d stored stored' : List UInt8} {st st' : RxState} (h : Place d st stored)
    (h' : Place d st' stored') : st = st' ∧ stored = stored' := by
  cases h with
  | address => cases h'; exact ⟨rfl, rfl⟩
  | control =>
    cases h' with
    | control => exact ⟨rfl, rfl⟩
    | compressed _ hne => exact absurd rfl hne
  | full l =>
    cases h' with
    | full => exact ⟨rfl, rfl⟩
    | compressed _ hne => exact absurd rfl hne
  | compressed l hne =>
    cases h' with
    | control => exact absurd rfl hne
    | full => exact absurd rfl hne
    | compressed => exact ⟨rfl, rfl⟩

/-! ## Feeding the frame -/

/-- The bytes that were received. -/
def bytes : List (Receiver × Event) → List UInt8
  | [] => []
  | (_, .receivedByte b _) :: h => bytes h ++ [b]
  | _ :: h => bytes h

theorem bytes_of_not_byte {e : Event} (he : e.isByte = false) (h : List (Receiver × Event)) :
    bytes ((s, e) :: h) = bytes h := by
  cases e with
  | receivedByte b pool => cases he
  | _ => rfl

theorem bytes_append (h h' : List (Receiver × Event)) : bytes (h ++ h') = bytes h' ++ bytes h := by
  induction h with
  | nil => rw [bytes, List.append_nil, List.nil_append]
  | cons p h ih =>
    obtain ⟨s, e⟩ := p
    cases he : e.isByte with
    | false => rw [List.cons_append, bytes_of_not_byte he, bytes_of_not_byte he, ih]
    | true =>
      cases e with
      | receivedByte b pool =>
        show bytes (h ++ h') ++ [b] = bytes h' ++ (bytes h ++ [b])
        rw [ih, List.append_assoc]
      | _ => cases he

/-- The events while a frame is fed: the options stay, and the receiver is not started again. -/
def feeds : Event → Bool
  | .start _ => false
  | .setOptions _ => false
  | _ => true

theorem starts_of_feeds {e : Event} (he : feeds e = true) : s.Starts e := by
  cases e with
  | start pool => cases he
  | _ => trivial

theorem startNewFrame_options (s : Receiver) (pool : PoolAnswer) :
    (s.startNewFrame pool).2.options = s.options := by
  unfold startNewFrame
  dsimp only
  split
  · rfl
  · cases pool <;> rfl

theorem available_options (s : Receiver) (pool : PoolAnswer) :
    (s.available pool).options = s.options := by
  rw [available]
  split
  · exact startNewFrame_options s pool
  · rfl

theorem step_options {e : Event} (he : e.isByte = false) (hfeeds : feeds e = true) :
    (s.step e).options = s.options := by
  cases e with
  | start pool => cases hfeeds
  | setOptions o => cases hfeeds
  | receivedByte b pool => cases he
  | available pool => exact available_options s pool
  | inputEngineTask pool =>
    rw [step]
    split
    · rw [inputEngineTask]
      dsimp only
      cases s.readyFrame with
      | cons i rest =>
        dsimp only
        split <;> rfl
      | nil =>
        dsimp only
        split
        · rfl
        · split
          · exact available_options _ pool
          · rfl
    · rfl
  | releaseReceivedFrame buffer =>
    rw [step, releaseReceivedFrame]
    dsimp only
    split <;> rfl

/-- The receiver has the part `w` of a frame, and is otherwise as it was at the frame's start. -/
structure Receiving (s₁ : Receiver) (w : List UInt8) (s : Receiver) : Prop where
  tracks : ∃ st stored, Tracks st (decoded w) stored s ∧ Filled stored s
  options : s.options = s₁.options
  rxBuffer : s.rxBuffer = s₁.rxBuffer
  rxBufferLength : s.rxBufferLength = s₁.rxBufferLength
  queued : s.queued = s₁.queued

theorem Receiving.byte (h : Receiving s₁ w s) (hfront : Fronted front data)
    (hroom : Room (data.length + fcsLength) s₁)
    (hmap : ∀ c, inMap s₁.options.rxAsyncControlCharacterMap c = true → inMap accm c = true) {b : UInt8}
    (hb : w ++ [b] <+: escapeAll accm (framed front data)) (pool : PoolAnswer) :
    Receiving s₁ (w ++ [b]) (s.receivedByte b pool) := by
  obtain ⟨st, stored, ht, hf⟩ := h.tracks
  obtain ⟨hflag, hno, hesc, hpart⟩ := next_byte hb hmap
  rw [← h.options] at hno
  have hdecoded := decoded_snoc w b
  rcases ht.receivedByte hno hflag pool with hfed | ⟨hescaped, rfl, -⟩
  · have hs := hfed.inside
    refine ⟨?_, hs.options.trans h.options, hs.rxBuffer.trans h.rxBuffer,
      hs.rxBufferLength.trans h.rxBufferLength, hs.queued.trans h.queued⟩
    rw [hdecoded]
    rcases hfed.outcome with ⟨st', stored', ht', hf'⟩ | ⟨-, hnone⟩
    · exact ⟨st', stored', ht', hf' hf⟩
    · -- there is a place and room for it
      rw [hdecoded] at hpart
      obtain ⟨st', stored', hplace, hlen⟩ := hfront.exists_place hpart
      refine absurd ⟨?_, ?_⟩ (hnone st' stored' hplace)
      · rw [h.rxBuffer]
        exact hroom.1
      · rw [h.rxBufferLength]
        exact Int.le_trans (Int.ofNat_le.2 hlen) hroom.2
  · exact absurd rfl (hesc hescaped)

theorem Receiving.step (h : Receiving s₁ w s) (hbuf : s₁.rxBuffer ≠ 0) (hframed : Framed s) {e : Event}
    (he : e.isByte = false) (hfeeds : feeds e = true) : Receiving s₁ w (s.step e) := by
  obtain ⟨st, stored, ht, hf⟩ := h.tracks
  have hs := step_still s he
  obtain ⟨hbuffer, hlength⟩ := hframed.buffer he (starts_of_feeds hfeeds) (h.rxBuffer ▸ hbuf)
  exact ⟨⟨st, stored, ht.still hs, hf.step hframed he (starts_of_feeds hfeeds)⟩,
    (step_options he hfeeds).trans h.options, hbuffer.trans h.rxBuffer,
    hlength.trans h.rxBufferLength, hs.queued.trans h.queued⟩

/-- The closing flag. -/
theorem Receiving.complete (h : Receiving s₁ (escapeAll accm (framed front data)) s)
    (hfront : Fronted front data) (hframed : Framed s) : s.completes = [data] := by
  obtain ⟨st, stored, ht, hf⟩ := h.tracks
  rw [decoded_escapeAll] at ht
  obtain ⟨rfl, rfl⟩ := hfront.place.unique ht.place
  refine hf.completes_eq hframed (trailer_length _) ht.state ht.rxIndex ?_
  rw [ht.rxCrc]
  exact (fcs_eq_good_iff _ _ _).2 rfl

theorem receiving_flag {limit : UInt8} {h : List (Receiver × Event)} {noise : List UInt8}
    (hr : (machine limit).Run h s) (hb : bytes h = noise ++ [flagSequence]) :
    Tracks .atAddress (decoded []) [] s := by
  induction hr with
  | init _ => exact absurd hb.symm (by simp [bytes])
  | @step h s s' e hr hs ih =>
    cases hs
    cases he : e.isByte with
    | false =>
      rw [bytes_of_not_byte he] at hb
      exact (ih hb).still (step_still s he)
    | true =>
      cases e with
      | receivedByte b pool =>
        obtain ⟨-, rfl⟩ := List.append_inj' hb rfl |>.imp_right (fun hl => List.singleton_inj.1 hl)
        exact tracks_flag s pool
      | _ => cases he

/-- The frame from its first byte to the closing flag. -/
theorem fed {limit : UInt8} {h₁ h₂ : List (Receiver × Event)} {noise : List UInt8}
    (hr₁ : (machine limit).Run h₁ s₁) (hflag : bytes h₁ = noise ++ [flagSequence])
    (hr : (machine limit).Run (h₂ ++ h₁) s) (hrel : AllReleases (h₂ ++ h₁))
    (hfeeds : ∀ p ∈ h₂, feeds p.2 = true) (hfront : Fronted front data)
    (hroom : Room (data.length + fcsLength) s₁)
    (hmap : ∀ c, inMap s₁.options.rxAsyncControlCharacterMap c = true → inMap accm c = true) :
    (bytes h₂ <+: escapeAll accm (framed front data) → Receiving s₁ (bytes h₂) s) ∧
      (bytes h₂ = escapeAll accm (framed front data) ++ [flagSequence] →
        s.queued = s₁.queued ++ [data]) := by
  induction h₂ generalizing s with
  | nil =>
    obtain rfl := Machine.Run.unique (fun _ _ h₀ h₀' => Eq.trans h₀ (Eq.symm h₀')) hr hr₁
    exact ⟨fun _ => ⟨⟨_, [], receiving_flag hr hflag, ⟨nofun, rfl⟩⟩, rfl, rfl, rfl, rfl⟩,
      fun hb => absurd hb.symm (by simp [bytes])⟩
  | cons p h₂ ih =>
    obtain ⟨-, hrel'⟩ := List.forall_mem_cons.1 hrel
    obtain ⟨hfeed, hfeeds'⟩ := List.forall_mem_cons.1 hfeeds
    cases hr with
    | @step _ s _ e hr hs =>
      cases hs
      obtain ⟨ihpart, ihwhole⟩ := ih hr hrel' hfeeds'
      have hframed := (follows hr).wellFramed hrel'
      cases he : e.isByte with
      | false =>
        rw [bytes_of_not_byte he]
        refine ⟨fun hb => (ihpart hb).step hroom.1 hframed he hfeed, fun hb => ?_⟩
        rw [(step_still s he).queued]
        exact ihwhole hb
      | true =>
        cases e with
        | receivedByte b pool =>
          refine ⟨fun hb => ?_, fun hb => ?_⟩
          · have hpart := ihpart ((List.prefix_append (bytes h₂) [b]).trans hb)
            exact hpart.byte hfront hroom hmap hb pool
          · obtain ⟨hl, hflag⟩ := List.append_inj' hb rfl
            obtain rfl := List.singleton_inj.1 hflag
            have hwhole := ihpart (hl ▸ List.prefix_rfl)
            rw [hl] at hwhole
            rw [Receiver.step, queued_flag, hwhole.queued, hwhole.complete hfront hframed]
        | _ => cases he

/-! ## The round trip -/

/-- The payload cannot be taken for an address field. -/
theorem fronted {t : Transmitter} {data : List UInt8} {inhibitAccomp : Bool}
    (h : t.fields inhibitAccomp = [] → data.head? ≠ some allStationsAddress) :
    Fronted (t.fields inhibitAccomp) data := by
  rw [fields] at h ⊢
  split
  · exact .full data
  · next hno => exact .compressed (h (if_neg hno))

/-- **A frame that was sent is received.** Whatever came over the line before, up to the flag with which
the frame starts, if there is room for the payload and the checksum then exactly the payload is queued.
And only frames with a matching checksum are queued. -/
theorem frame_queued {limit : UInt8} :
    (∀ (t : Transmitter) (data noise : List UInt8) (inhibitAccomp : Bool)
        (h₁ h₂ : List (Receiver × Event)) (s₁ s₂ : Receiver),
      t.txState = .idle →
      (t.fields inhibitAccomp = [] → data.head? ≠ some allStationsAddress) →
      (machine limit).Run h₁ s₁ → bytes h₁ = noise ++ [flagSequence] →
      Room (data.length + fcsLength) s₁ →
      (∀ c, inMap s₁.options.rxAsyncControlCharacterMap c = true →
        inMap t.options.txAsyncControlCharacterMap c = true) →
      (machine limit).Run (h₂ ++ h₁) s₂ → AllReleases (h₂ ++ h₁) →
      (∀ p ∈ h₂, feeds p.2 = true) →
      ∃ t₁ t₂, t.sendFrame data inhibitAccomp .success = (.success, t₁) ∧
        (∀ k, data.length + 2 ≤ k → t₁.finish k = some t₂) ∧
        t₂.signals = t.signals ++ [(data, .success)] ∧
        t₂.wire.head? = some flagSequence ∧
        (bytes h₂ = t₂.wire.tail → s₂.queued = s₁.queued ++ [data])) ∧
    ∀ (h : List (Receiver × Event)) (s : Receiver) (e : Event),
      (machine limit).Run h s → (s.step e).queued ≠ s.queued →
      (∃ pool, e = .receivedByte flagSequence pool) ∧ ∃ front payload,
        (front = [] ∨ front = [allStationsAddress, controlFieldValue]) ∧
        decoded (line h) = (false, framed front payload) ∧
        (AllOrderly h → (s.step e).queued = s.queued ++ [payload]) := by
  refine ⟨?_, fun h s e hr hne => queued_good hr hne⟩
  intro t data noise inhibitAccomp h₁ h₂ s₁ s₂ hidle hhead hr₁ hflag hroom hmap hr₂ hrel hfeeds
  obtain ⟨t₁, hsend, hsignals, hsending, hptr⟩ := sendFrame_sending hidle data inhibitAccomp
  have hleft : data.length - t₁.txPtr + 2 ≤ data.length + 2 := by omega
  obtain ⟨t₂, hfinish, hdone, hwire⟩ := hsending.finish hleft
  refine ⟨t₁, t₂, hsend, ?_, hdone.trans (by rw [hsignals]), by rw [hwire]; rfl, fun hbytes => ?_⟩
  · exact fun k hk => finish_mono hk hfinish
  · rw [hwire] at hbytes
    exact (fed hr₁ hflag hr₂ hrel hfeeds (fronted hhead) hroom hmap).2 hbytes

/-- The bytes one after the other, while the pool has no more fragments. -/
def after (s : Receiver) : List UInt8 → List (Receiver × Event) × Receiver
  | [] => ([], s)
  | b :: l =>
    let r := after (s.receivedByte b (.error .fail)) l
    (r.1 ++ [(s, .receivedByte b (.error .fail))], r.2)

theorem after_spec {limit : UInt8} {h : List (Receiver × Event)} (hr : (machine limit).Run h s)
    (l : List UInt8) :
    (machine limit).Run ((after s l).1 ++ h) (after s l).2 ∧ bytes (after s l).1 = l ∧
      AllReleases (after s l).1 ∧ ∀ p ∈ (after s l).1, feeds p.2 = true := by
  induction l generalizing s h with
  | nil => exact ⟨hr, rfl, List.forall_mem_nil _, List.forall_mem_nil _⟩
  | cons b l ih =>
    obtain ⟨hrun, hbytes, hrel, hfeeds⟩ := ih (.step (e := .receivedByte b (.error .fail)) hr rfl)
    rw [after]
    refine ⟨by rw [List.append_assoc]; exact hrun, ?_, ?_, ?_⟩
    · exact (bytes_append _ _).trans (congrArg (b :: ·) hbytes)
    · exact List.forall_mem_append.2 ⟨hrel, List.forall_mem_singleton.2 trivial⟩
    · exact List.forall_mem_append.2 ⟨hfeeds, List.forall_mem_singleton.2 rfl⟩

theorem frame_queued_two :
    ∃ h s, (machine 2).Run h s ∧ s.queued = [[flagSequence, 0x41]] := by
  have hr₁ : (machine 2).Run _ _ :=
    .step (e := .receivedByte flagSequence (.error .fail))
      (.step (e := .start (.ok (100, 200))) (.init rfl) rfl) rfl
  obtain ⟨hr₂, hbytes, hrel, hfeeds⟩ := after_spec hr₁ [255, 125, 35, 125, 94, 65, 49, 239, 126]
  obtain ⟨t₁, t₂, hsend, hfinish, -, -, hqueued⟩ := frame_queued.1 Transmitter.boot [flagSequence, 0x41] []
    false _ _ _ _ rfl nofun hr₁ rfl ⟨by decide, by decide⟩ (fun _ h => h) hr₂
    (List.forall_mem_append.2
      ⟨hrel, List.forall_mem_cons.2 ⟨trivial, List.forall_mem_singleton.2 trivial⟩⟩) hfeeds
  obtain rfl : t₁ = (Transmitter.boot.sendFrame [flagSequence, 0x41] false .success).2 := by rw [hsend]
  have hwire : ((Transmitter.boot.sendFrame [flagSequence, 0x41] false .success).2.finish 4).map
      (fun t => t.wire.tail) = some [255, 125, 35, 125, 94, 65, 49, 239, 126] := by decide
  rw [hfinish 4 (by decide)] at hwire
  exact ⟨_, _, hr₂, hqueued (hbytes.trans (Option.some.inj hwire).symm)⟩

end Ppp
