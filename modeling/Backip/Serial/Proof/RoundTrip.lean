import Backip.Serial.Proof.Receive
import Backip.Serial.Proof.Transmit

/-!
# The receiver resynchronises, and the round trip between host and mote

* `resynchronises`: after any noise and two flags, a frame is signalled exactly if the noise does not
  leave an escape behind in a state in which a flag does not clear it (`Escaped`);
* `round_trip`: the mote signals what the host writes, and the host pushes what the mote sends exactly
  if no packet of it is longer than 252 bytes.
-/

set_option autoImplicit false

namespace Serial

variable {s s' : Receiver} {accept : List Signal → Bool} {isDelimiter : Bool} {body l : List UInt8}

/-- In its state `PROTO` the receiver has read nothing. -/
def Settled (s : Receiver) : Prop :=
  s.rx.rxState = .proto → s.rx.rxBuf.readPtr = 0 ∧ s.rx.rxBuf.writePtr = 0 ∧
    s.rx.rxByteCnt = 0 ∧ s.rx.rxCRC = 0

/-- An escape was received, and the state machine is in one of the states in which a flag does not
make it reset the escape. -/
def Escaped (s : Receiver) : Prop :=
  s.receiveEscape = true ∧ (s.rx.rxState = .noSync ∨ s.rx.rxState = .proto)

theorem settled_nosync (s : Receiver) (isDelimiter : Bool) : Settled (s.nosync isDelimiter) := by
  cases isDelimiter
  · exact nofun
  · exact fun _ => ⟨rfl, rfl, rfl, rfl⟩

theorem Step.settled (h : Step s isDelimiter s') (hs : Settled s) : Settled s' := by
  cases h with
  | same => exact hs
  | sync => exact fun _ => ⟨rfl, rfl, rfl, rfl⟩
  | nosync t _ => exact settled_nosync t isDelimiter
  | inside t hstate _ _ => exact fun hproto => absurd hproto hstate
  | endPacket => exact nofun

theorem Settled.receivedByte (hs : Settled s) (b : UInt8) : Settled (s.receivedByte accept b) := by
  unfold Receiver.receivedByte
  split
  · exact (step s true 0).settled hs
  · split
    · exact hs
    · split
      · exact (step _ false _).settled hs
      · exact (step s false b).settled hs

theorem Settled.receive (hs : Settled s) (l : List UInt8) : Settled (s.receive accept l) := by
  induction l generalizing s with
  | nil => exact hs
  | cons b l ih => exact ih (hs.receivedByte b)

theorem signals_receivedByte (s : Receiver) (b : UInt8) :
    s.signals <+: (s.receivedByte accept b).signals := by
  unfold Receiver.receivedByte
  split
  · exact (step s true 0).signals_mono
  · split
    · exact List.prefix_rfl
    · split
      · exact (step { s with receiveEscape := false } false _).signals_mono
      · exact (step s false b).signals_mono

theorem signals_receive (s : Receiver) (l : List UInt8) :
    s.signals <+: (s.receive accept l).signals := by
  induction l generalizing s with
  | nil => exact List.prefix_rfl
  | cons b l ih => exact (signals_receivedByte s b).trans (ih _)

/-! ## Flags -/

/-- A flag in the state `PROTO`. -/
theorem flag_proto (hs : s.rx.rxState = .proto) : s.receivedByte accept flagByte = s := by
  rw [Receiver.receivedByte, if_pos rfl, Receiver.rxStateMachine, hs]
  rfl

theorem ready_nosync (s : Receiver) : Ready (s.nosync true) := ⟨rfl, rfl, rfl, rfl, rfl, rfl⟩

/-- The flag after the end of a frame, or in the middle of one. -/
theorem flag_nosync (hs : s.rx.rxState = .token ∨ s.rx.rxState = .inactive) :
    s.receivedByte accept flagByte = s.nosync true := by
  rw [Receiver.receivedByte, if_pos rfl, Receiver.rxStateMachine]
  rcases hs with hs | hs <;> rw [hs] <;> rfl

theorem receive_two (s : Receiver) (a b : UInt8) :
    s.receive accept [a, b] = (s.receivedByte accept a).receivedByte accept b := rfl

/-- Two flags clear the escape in the other states. -/
theorem ready_flags (hs : Settled s) (hesc : ¬ Escaped s) :
    Ready (s.receive accept [flagByte, flagByte]) := by
  have hnosync : ∀ t : Receiver, (t.nosync true).receivedByte accept flagByte = t.nosync true :=
    fun t => flag_proto rfl
  rw [receive_two]
  cases hstate : s.rx.rxState with
  | noSync =>
    have hclear : s.receiveEscape = false := by
      rw [Bool.eq_false_iff]
      exact fun h => hesc ⟨h, .inl hstate⟩
    have hfirst : s.receivedByte accept flagByte =
        { s with rx := { s.rx.rxInit with rxState := .proto } } := by
      rw [Receiver.receivedByte, if_pos rfl, Receiver.rxStateMachine, hstate]
      rfl
    rw [hfirst, flag_proto rfl]
    exact ⟨rfl, hclear, rfl, rfl, rfl, rfl⟩
  | proto =>
    have hclear : s.receiveEscape = false := by
      rw [Bool.eq_false_iff]
      exact fun h => hesc ⟨h, .inr hstate⟩
    obtain ⟨hread, hwrite, hcount, hcrc⟩ := hs hstate
    rw [flag_proto hstate, flag_proto hstate]
    exact ⟨hstate, hclear, hread, hwrite, hcount, hcrc⟩
  | token =>
    rw [flag_nosync (.inl hstate), hnosync]
    exact ready_nosync s
  | info =>
    have hfirst : s.receivedByte accept flagByte = s.nosync true ∨
        s.receivedByte accept flagByte = s.endPacket := by
      rw [Receiver.receivedByte, if_pos rfl, Receiver.rxStateMachine, hstate]
      dsimp only
      split
      · rw [if_pos rfl]
        split
        · split
          · exact .inr rfl
          · exact .inl rfl
        · exact .inl rfl
      · exact .inl rfl
    rcases hfirst with hfirst | hfirst
    · rw [hfirst, hnosync]
      exact ready_nosync s
    · rw [hfirst, flag_nosync (.inr rfl)]
      exact ready_nosync _
  | inactive =>
    rw [flag_nosync (.inr hstate), hnosync]
    exact ready_nosync s

/-- Two flags do not clear it in the states `NOSYNC` and `PROTO`. -/
theorem escaped_flags (accept : List Signal → Bool) (hesc : Escaped s) :
    (s.receive accept [flagByte, flagByte]).rx.rxState = .proto ∧
    (s.receive accept [flagByte, flagByte]).receiveEscape = true := by
  rw [receive_two]
  rcases hesc with ⟨hclear, hstate | hstate⟩
  · have hfirst : s.receivedByte accept flagByte =
        { s with rx := { s.rx.rxInit with rxState := .proto } } := by
      rw [Receiver.receivedByte, if_pos rfl, Receiver.rxStateMachine, hstate]
      rfl
    rw [hfirst, flag_proto rfl]
    exact ⟨rfl, hclear⟩
  · rw [flag_proto hstate, flag_proto hstate]
    exact ⟨hstate, hclear⟩

/-- The protocol byte of the frame is taken for another one. -/
theorem escaped_frame (accept : List Signal → Bool) (hstate : s.rx.rxState = .proto)
    (hesc : s.receiveEscape = true) (l : List UInt8) :
    s.signals ++ [.endPacket .fail] <+: (s.receive accept (protoPacketAck :: l)).signals := by
  have hproto : (s.receivedByte accept protoPacketAck).signals =
      s.signals ++ [.endPacket .fail] := by
    rw [Receiver.receivedByte, if_neg (by decide), if_neg (by decide), if_pos hesc,
      Receiver.rxStateMachine]
    dsimp only
    rw [hstate]
    exact signals_nosync _ false
  rw [← hproto]
  exact signals_receive _ l

/-- **The receiver resynchronises** after two flags, exactly if no escape is left behind. -/
theorem resynchronises (accept : List Signal → Bool) (noise : List UInt8) (token : UInt8)
    (body : List UInt8) (hlen : body.length ≤ 252)
    (haccept : accept (Receiver.start.receive accept (noise ++ [flagByte, flagByte])).signals =
      true) :
    (Receiver.start.receive accept (noise ++ [flagByte, flagByte] ++
      (writeFramedPacket protoPacketAck token body).tail)).signals =
      (Receiver.start.receive accept (noise ++ [flagByte, flagByte])).signals ++
        delivery token body ↔
    ¬ Escaped (Receiver.start.receive accept noise) := by
  have hsettled : Settled (Receiver.start.receive accept noise) :=
    Settled.receive (s := .start) nofun noise
  have hflags : Receiver.start.receive accept (noise ++ [flagByte, flagByte]) =
      (Receiver.start.receive accept noise).receive accept [flagByte, flagByte] :=
    List.foldl_append
  have hframe : (writeFramedPacket protoPacketAck token body).tail =
      hdlc.stuffAll (contents (protoPacketAck :: token :: body)) ++ [flagByte] := by
    rw [writeFramedPacket_eq]
    rfl
  rw [hflags] at haccept
  rw [Receiver.receive, List.foldl_append, ← Receiver.receive, ← Receiver.receive, hflags, hframe]
  constructor
  · intro hdeliver hesc
    obtain ⟨hstate, hescape⟩ := escaped_flags accept hesc
    obtain ⟨rest, hrest⟩ : ∃ rest, hdlc.stuffAll (contents (protoPacketAck :: token :: body)) ++
        [flagByte] = protoPacketAck :: rest := ⟨_, rfl⟩
    rw [hrest] at hdeliver
    obtain ⟨t, ht⟩ := escaped_frame accept hstate hescape rest
    rw [hdeliver, List.append_assoc] at ht
    cases List.append_cancel_left ht
  · intro hesc
    exact (ready_flags hsettled hesc).deliver_signals haccept hlen token

/-- Noise, the truncated start of a frame and an escape; the packet contains a flag. -/
theorem resynchronises_noise :
    (Receiver.start.receive (fun _ => true) ([3, 0x7e, 0x44, 0x7d] ++ [flagByte, flagByte] ++
      (writeFramedPacket protoPacketAck 9 [1, 0x7e]).tail)).signals =
      (Receiver.start.receive (fun _ => true) ([3, 0x7e, 0x44, 0x7d] ++
        [flagByte, flagByte])).signals ++ delivery 9 [1, 0x7e] :=
  (resynchronises (fun _ => true) [3, 0x7e, 0x44, 0x7d] 9 [1, 0x7e] (by decide) rfl).2
    fun hesc => nomatch hesc.2

/-- An escape after a flag. -/
theorem not_resynchronises :
    ∃ (accept : List Signal → Bool) (noise : List UInt8) (token : UInt8) (body : List UInt8),
      body.length ≤ 252 ∧
      accept (Receiver.start.receive accept (noise ++ [flagByte, flagByte])).signals = true ∧
      (Receiver.start.receive accept (noise ++ [flagByte, flagByte] ++
        (writeFramedPacket protoPacketAck token body).tail)).signals ≠
        (Receiver.start.receive accept (noise ++ [flagByte, flagByte])).signals ++
          delivery token body :=
  ⟨fun _ => true, [flagByte, ctlescByte], 9, [1], by decide, rfl, by decide +kernel⟩

end Serial

/-! ## The round trip -/

namespace Serial

variable {s : Receiver} {accept : List Signal → Bool}

/-- What is signalled for packets, each but the first one behind `endPacket(FAIL)` for the flag
between the frames. -/
def deliveries (before : List Signal) (seqno : UInt8) : List (List UInt8) → List Signal
  | [] => []
  | packet :: packets =>
    before ++ delivery (seqno + 1) packet ++ deliveries [.endPacket .fail] (seqno + 1) packets

/-- From a state in which a flag leads to `PROTO`, signalling `before`. -/
theorem signals_packets {before : List Signal} (hready : Ready (s.receivedByte accept flagByte))
    (hbefore : (s.receivedByte accept flagByte).signals = s.signals ++ before)
    (haccept : ∀ l, accept l = true) (seqno : UInt8) (packets : List (List UInt8))
    (hlen : ∀ packet ∈ packets, packet.length ≤ 252) :
    (s.receive accept (writeSerialPackets seqno packets)).signals =
      s.signals ++ deliveries before seqno packets := by
  induction packets generalizing s before seqno with
  | nil => exact (List.append_nil _).symm
  | cons packet packets ih =>
    obtain ⟨hfirst, hrest⟩ := List.forall_mem_cons.1 hlen
    have hsplit : s.receive accept (writeSerialPackets seqno (packet :: packets)) =
        ((s.receivedByte accept flagByte).receive accept
          (hdlc.stuffAll (contents (protoPacketAck :: (seqno + 1) :: packet)) ++ [flagByte])).receive
          accept (writeSerialPackets (seqno + 1) packets) := by
      rw [writeSerialPackets, writeFramedPacket_eq, Receiver.receive, List.foldl_append]
      rfl
    have hsignals := hready.deliver_signals (haccept _) hfirst (seqno + 1)
    rw [hsplit]
    rw [hready.deliver (haccept _) hfirst] at hsignals ⊢
    generalize (s.receivedByte accept flagByte).receive accept
      (hdlc.stuffAll (contents (protoPacketAck :: (seqno + 1) :: packet))) = t at hsignals
    -- The next flag is no end of a frame.
    have hflag : t.endPacket.receivedByte accept flagByte = t.endPacket.nosync true :=
      flag_nosync (.inr rfl)
    rw [ih (by rw [hflag]; exact ready_nosync _) (by rw [hflag]; exact signals_nosync _ true) _ hrest,
      hsignals, hbefore, deliveries]
    simp only [List.append_assoc]

/-- **The round trip**: what the mote signals of the packets of the host, and when the host pushes
the packets of the mote. -/
theorem round_trip {accept : List Signal → Bool} (haccept : ∀ l, accept l = true) (seqno : UInt8)
    {packets : List (List UInt8)} (hlen : ∀ packet ∈ packets, packet.length ≤ 252)
    {h : List (Sender × Sender.Event)} {s : Sender} (hr : Sender.machine.Run h s) {k : Nat}
    (hk : s.wire.length ≤ k) :
    (Receiver.start.receive accept (writeSerialPackets seqno packets)).signals =
        deliveries [] seqno packets ∧
      ((Source.start.reads k s.wire).1.pushed = s.sent ↔ ∀ q ∈ s.sent, q.2.length ≤ 252) := by
  constructor
  · have hstart : Ready (Receiver.start.receivedByte accept flagByte) :=
      ⟨rfl, rfl, rfl, rfl, rfl, rfl⟩
    have hnone : (Receiver.start.receivedByte accept flagByte).signals =
        Receiver.start.signals ++ [] := rfl
    exact signals_packets hstart hnone haccept seqno packets hlen
  · obtain ⟨p, hgood⟩ := Sender.good_run hr
    rw [hgood.pushed hk, List.filter_eq_self]
    simp only [decide_eq_true_eq]

/-- Two packets for the mote; an ack and a packet with a flag in it for the host. -/
theorem round_trip_both : ∃ h s, Sender.machine.Run h s ∧
    s.sent = [(protoAck, [9]), (protoPacketNoAck, [1, 0x7e])] ∧
    (Source.start.reads s.wire.length s.wire).1.pushed = s.sent ∧
    (Receiver.start.receive (fun _ => true) (writeSerialPackets 255 [[0x7e, 1], []])).signals =
      deliveries [] 255 [[0x7e, 1], []] := by
  obtain ⟨h, s, hr, hp⟩ := Machine.exists_run_of_exec (M := Sender.machine) (s := .start) rfl
    ([.startSend 1 [0x7e], .ackQueuePush 9, .runTx] ++ List.replicate 6 .sendDone ++ [.runTx] ++
      List.replicate 7 .sendDone)
    (fun _ s => s.sent = [(protoAck, [9]), (protoPacketNoAck, [1, 0x7e])]) (by decide)
  have hsent := of_decide_eq_true hp
  obtain ⟨hsignals, hpushed⟩ := round_trip (fun _ => rfl : ∀ l, (fun _ => true) l = true) 255
    (by decide : ∀ packet ∈ ([[0x7e, 1], []] : List (List UInt8)), packet.length ≤ 252) hr
    (Nat.le_refl _)
  refine ⟨h, s, hr, hsent, hpushed.2 ?_, hsignals⟩
  rw [hsent]
  decide

/-- The host drops a packet of 253 bytes. -/
theorem not_round_trip : ∃ h s k, Sender.machine.Run h s ∧ s.wire.length ≤ k ∧
    s.sent = [(protoPacketNoAck, List.replicate 253 1)] ∧
    (Source.start.reads k s.wire).1.pushed ≠ s.sent := by
  obtain ⟨h, s, hr, hp⟩ := Machine.exists_run_of_exec (M := Sender.machine) (s := .start) rfl
    ([.startSend 1 (List.replicate 252 1), .runTx] ++ List.replicate 257 .sendDone)
    (fun _ s => s.wire.length ≤ 300 && (s.sent = [(protoPacketNoAck, List.replicate 253 1)] &&
      (Source.start.reads 300 s.wire).1.pushed = [])) (by decide +kernel)
  simp only [Bool.and_eq_true, decide_eq_true_eq] at hp
  obtain ⟨hlen, hsent, hpushed⟩ := hp
  refine ⟨h, s, 300, hr, hlen, hsent, ?_⟩
  rw [hpushed, hsent]
  nofun

end Serial
