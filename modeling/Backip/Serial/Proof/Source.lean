import Backip.Serial.Proof.Frame

/-!
# The host reads frames

* `Source.Between.read_frame`: between two frames the host reads a frame of a packet and pushes it, unless
  the packet is too long for its buffer.
* `Source.reads_eq`: enough calls of `read_and_process` read all bytes.
-/

set_option autoImplicit false

namespace Serial

namespace Source

variable {s : Source} {l : List UInt8}

/-- The state after the bytes. -/
def readAll (s : Source) (bytes : List UInt8) : Source :=
  bytes.foldl (fun s b => (s.readByte b).1) s

theorem readAll_append (s : Source) (l l' : List UInt8) :
    s.readAll (l ++ l') = (s.readAll l).readAll l' := List.foldl_append

theorem readAll_cons (s : Source) (b : UInt8) (l : List UInt8) :
    s.readAll (b :: l) = (s.readByte b).1.readAll l := rfl

/-! ## Calls of `read_and_process` -/

theorem readAndProcess_readAll (s : Source) (bytes : List UInt8) :
    (s.readAndProcess bytes).1.readAll (s.readAndProcess bytes).2 = s.readAll bytes := by
  induction bytes generalizing s with
  | nil => rfl
  | cons b bytes ih =>
    rw [readAndProcess]
    split
    · rfl
    · exact ih _

theorem length_readAndProcess (s : Source) (bytes : List UInt8) :
    (s.readAndProcess bytes).2.length ≤ bytes.length - 1 := by
  induction bytes generalizing s with
  | nil => exact Nat.le_refl 0
  | cons b bytes ih =>
    rw [readAndProcess]
    split
    · exact Nat.le_refl _
    · exact Nat.le_trans (ih _) (Nat.sub_le _ _)

/-- Every call reads a byte. -/
theorem reads_eq {k : Nat} (s : Source) (bytes : List UInt8) (hk : bytes.length ≤ k) :
    s.reads k bytes = (s.readAll bytes, []) := by
  induction k generalizing s bytes with
  | zero =>
    obtain rfl := List.length_eq_zero_iff.1 (Nat.le_zero.1 hk)
    rfl
  | succ k ih =>
    have hlen := length_readAndProcess s bytes
    rw [reads, ih _ _ (by omega), readAndProcess_readAll]

/-! ## Between and inside frames -/

/-- No frame has begun. -/
def Between (s : Source) : Prop := s.inSync = true → s.packet = [] ∧ s.escaped = false

/-- A flag has been read. -/
structure Synced (s : Source) : Prop where
  inSync : s.inSync = true
  packet : s.packet = []
  escaped : s.escaped = false

theorem readByte_notSync (hsync : s.inSync = false) {b : UInt8} (hb : b ≠ syncByte) :
    (s.readByte b).1 = s := by
  rw [readByte, if_pos hsync, if_neg hb]

theorem readByte_full (hsync : s.inSync = true) (hlen : s.packet.length ≥ hostMtu) (b : UInt8) :
    (s.readByte b).1 = { s with inSync := false } := by
  rw [readByte, if_neg (by rw [hsync]; nofun), if_pos hlen]

theorem readByte_esc (hsync : s.inSync = true) (hlen : ¬ s.packet.length ≥ hostMtu)
    (hesc : s.escaped = false) : (s.readByte hdlc.esc).1 = { s with escaped := true } := by
  rw [readByte, if_neg (by rw [hsync]; nofun), if_neg hlen, if_neg (by rw [hesc]; nofun)]
  exact congrArg Prod.fst (if_pos rfl)

theorem readByte_escaped (hsync : s.inSync = true) (hlen : ¬ s.packet.length ≥ hostMtu)
    (hesc : s.escaped = true) {b : UInt8} (hb : b ≠ syncByte) :
    (s.readByte b).1 = { s with packet := s.packet ++ [b ^^^ 0x20], escaped := false } := by
  rw [readByte, if_neg (by rw [hsync]; nofun), if_neg hlen, if_pos hesc, if_neg hb]

theorem readByte_plain (hsync : s.inSync = true) (hlen : ¬ s.packet.length ≥ hostMtu)
    (hesc : s.escaped = false) {b : UInt8} (hb : ¬ hdlc.Reserved b) :
    (s.readByte b).1 = { s with packet := s.packet ++ [b] } := by
  have hflag : b ≠ syncByte := fun h => hb (.inl h)
  have hmark : b ≠ escapeByteMark := fun h => hb (.inr h)
  rw [readByte, if_neg (by rw [hsync]; nofun), if_neg hlen, if_neg (by rw [hesc]; nofun),
    if_neg hmark, if_neg hflag]

/-- A flag, where a frame has begun and fits into the buffer. -/
theorem readByte_flag (hsync : s.inSync = true) (hlen : ¬ s.packet.length ≥ hostMtu)
    (hesc : s.escaped = false) :
    (s.readByte flagByte).1 =
      if s.packet.length < 4 then { s with packet := [] }
      else
        if (s.packet.getD (s.packet.length - 2) 0).toUInt16 |||
            ((s.packet.getD (s.packet.length - 1) 0).toUInt16 <<< 8) =
            crcPacket (s.packet.take (s.packet.length - 2)) then
          { s with packet := [] }.processPacket (s.packet.take (s.packet.length - 2))
        else { s with packet := [] } := by
  have hmark : flagByte ≠ escapeByteMark := by decide
  rw [readByte, if_neg (by rw [hsync]; nofun), if_neg hlen, if_neg (by rw [hesc]; nofun),
    if_neg hmark, if_pos rfl]
  dsimp only
  split
  · rfl
  · split <;> rfl

theorem Between.flag (h : Between s) :
    Synced (s.readByte flagByte).1 ∧ (s.readByte flagByte).1.pushed = s.pushed := by
  cases hsync : s.inSync with
  | false =>
    have hstart : (s.readByte flagByte).1 =
        { s with inSync := true, packet := [], escaped := false } := by
      rw [readByte, if_pos hsync, if_pos rfl]
    rw [hstart]
    exact ⟨⟨rfl, rfl, rfl⟩, rfl⟩
  | true =>
    obtain ⟨hpacket, hesc⟩ := h hsync
    have hlen : ¬ s.packet.length ≥ hostMtu := by
      rw [hpacket]
      decide
    rw [readByte_flag hsync hlen hesc, if_pos (by rw [hpacket]; decide)]
    exact ⟨⟨hsync, rfl, hesc⟩, rfl⟩

/-- A byte of the contents. -/
def data (s : Source) (b : UInt8) : Source :=
  if s.inSync = false then s
  else if s.packet.length ≥ hostMtu then { s with inSync := false }
  else { s with packet := s.packet ++ [b] }

theorem data_of_notSync (h : s.inSync = false) (b : UInt8) : s.data b = s := if_pos h

theorem data_of_full (hsync : s.inSync = true) (h : s.packet.length ≥ hostMtu) (b : UInt8) :
    s.data b = { s with inSync := false } := by
  rw [data, if_neg (by rw [hsync]; nofun), if_pos h]

theorem data_of_room (hsync : s.inSync = true) (h : ¬ s.packet.length ≥ hostMtu) (b : UInt8) :
    s.data b = { s with packet := s.packet ++ [b] } := by
  rw [data, if_neg (by rw [hsync]; nofun), if_neg h]

/-- The host takes the bytes out of the stuffing. -/
theorem unstuffs : hdlc.Unstuffs (fun s b => (Source.readByte s b).1) data
    (fun s => s.escaped = false) where
  plain s b hs hb := by
    cases hsync : s.inSync with
    | false => exact (readByte_notSync hsync fun h => hb (.inl h)).trans (data_of_notSync hsync b).symm
    | true =>
      by_cases hlen : s.packet.length ≥ hostMtu
      · rw [readByte_full hsync hlen, data_of_full hsync hlen]
      · rw [readByte_plain hsync hlen hs hb, data_of_room hsync hlen]
  masked s b hs hb := by
    have hflag : hdlc.mask b ≠ syncByte := fun h => mask_not_reserved hb (.inl h)
    cases hsync : s.inSync with
    | false =>
      rw [readByte_notSync hsync (by decide), readByte_notSync hsync hflag, data_of_notSync hsync]
    | true =>
      by_cases hlen : s.packet.length ≥ hostMtu
      · rw [readByte_full hsync hlen, readByte_notSync rfl hflag, data_of_full hsync hlen]
      · have hmask : hdlc.mask b ^^^ 0x20 = b := mask_mask b
        rw [readByte_esc hsync hlen hs, readByte_escaped (s := { s with escaped := true }) hsync hlen rfl hflag,
          data_of_room hsync hlen, hmask, ← hs]
  clear s b hs := by
    unfold data
    split
    · exact hs
    · split <;> exact hs

/-! ## The contents of a frame -/

theorem foldl_data_room (hsync : s.inSync = true) (hlen : s.packet.length + l.length ≤ hostMtu) :
    l.foldl data s = { s with packet := s.packet ++ l } := by
  induction l generalizing s with
  | nil => rw [List.foldl_nil, List.append_nil]
  | cons b l ih =>
    rw [List.length_cons] at hlen
    have hroom : ¬ s.packet.length ≥ hostMtu := by omega
    have hnext : (s.packet ++ [b]).length + l.length ≤ hostMtu := by
      rw [List.length_append, List.length_singleton]
      omega
    rw [List.foldl_cons, data_of_room hsync hroom]
    refine (ih (s := { s with packet := s.packet ++ [b] }) hsync hnext).trans ?_
    dsimp only
    rw [List.append_assoc]
    rfl

theorem foldl_data_notSync (hsync : s.inSync = false) : l.foldl data s = s := by
  induction l with
  | nil => rfl
  | cons b l ih => rw [List.foldl_cons, data_of_notSync hsync, ih]

/-- A frame that does not fit into the buffer. -/
theorem foldl_data_long (hsync : s.inSync = true) (hroom : s.packet.length ≤ hostMtu)
    (hlen : hostMtu < s.packet.length + l.length) : (l.foldl data s).inSync = false := by
  induction l generalizing s with
  | nil => exact absurd hlen (Nat.not_lt_of_le hroom)
  | cons b l ih =>
    rw [List.length_cons] at hlen
    rw [List.foldl_cons]
    by_cases hfull : s.packet.length ≥ hostMtu
    · rw [data_of_full hsync hfull, foldl_data_notSync rfl]
    · rw [data_of_room hsync hfull]
      have hlength : (s.packet ++ [b]).length = s.packet.length + 1 := List.length_append
      refine ih (s := { s with packet := s.packet ++ [b] }) hsync ?_ ?_
      · rw [hlength]
        omega
      · rw [hlength]
        omega

theorem pushed_data (s : Source) (b : UInt8) : (s.data b).pushed = s.pushed := by
  unfold data
  split
  · rfl
  · split <;> rfl

theorem pushed_foldl_data (s : Source) (l : List UInt8) : (l.foldl data s).pushed = s.pushed := by
  induction l generalizing s with
  | nil => rfl
  | cons b l ih => rw [List.foldl_cons, ih, pushed_data]

theorem Synced.between (h : Synced s) : Between s := fun _ => ⟨h.packet, h.escaped⟩

/-- The flag behind the contents of a packet that fits. -/
theorem contents_flag (hsync : s.inSync = true) (hesc : s.escaped = false) {type : UInt8}
    {bytes : List UInt8} (htype : type ≠ protoPacketAck) (hne : bytes ≠ [])
    (hlen : bytes.length ≤ 252) (hpacket : s.packet = contents (type :: bytes)) :
    Between (s.readByte flagByte).1 ∧
    (s.readByte flagByte).1.pushed = s.pushed ++ [(type, bytes)] := by
  have hcount : s.packet.length = bytes.length + 3 := by
    rw [hpacket, length_contents]
    rfl
  have hpos := List.length_pos_iff.2 hne
  have hroom : ¬ s.packet.length ≥ hostMtu := by
    rw [hcount]
    exact Nat.not_le_of_lt (Nat.lt_succ_of_le (Nat.add_le_add_right hlen 3))
  have htake : s.packet.take (s.packet.length - 2) = type :: bytes := by
    rw [hcount, hpacket]
    exact List.take_left' rfl
  have hlow : s.packet.getD (s.packet.length - 2) 0 = (crc (type :: bytes) &&& 0xff).toUInt8 := by
    rw [hcount, hpacket]
    simp [contents]
  have hup : s.packet.getD (s.packet.length - 1) 0 = (crc (type :: bytes) >>> 8).toUInt8 := by
    rw [hcount, hpacket]
    simp [contents]
  have hcrc : crcPacket (type :: bytes) = crc (type :: bytes) := by
    rw [crcPacket, crcByteSlow_eq_crcByte]
    rfl
  rw [readByte_flag hsync hroom hesc, if_neg (by omega), htake, hlow, hup, hcrc, crc_bytes,
    if_pos rfl]
  have hproc : { s with packet := [] }.processPacket (type :: bytes) =
      { s with packet := [], pushed := s.pushed ++ [(type, bytes)] } := if_neg htype
  rw [hproc]
  exact ⟨fun _ => ⟨rfl, hesc⟩, rfl⟩

/-- **The host reads a frame** and pushes its packet, unless it is too long. -/
theorem Between.read_frame (h : Between s) {type : UInt8} {bytes : List UInt8}
    (htype : type ≠ protoPacketAck) (hne : bytes ≠ []) :
    Between (s.readAll (frame (type :: bytes))) ∧
    (s.readAll (frame (type :: bytes))).pushed =
      s.pushed ++ if bytes.length ≤ 252 then [(type, bytes)] else [] := by
  obtain ⟨hsynced, hpushed⟩ := h.flag
  have hread : s.readAll (frame (type :: bytes)) =
      (((contents (type :: bytes)).foldl data (s.readByte flagByte).1).readByte flagByte).1 := by
    have hdata : (s.readByte flagByte).1.readAll (hdlc.stuffAll (contents (type :: bytes))) =
        (contents (type :: bytes)).foldl data (s.readByte flagByte).1 :=
      unstuffs.foldl_stuffAll hsynced.escaped _
    rw [frame, readAll_cons, readAll_append, hdata]
    rfl
  have hlength : (contents (type :: bytes)).length = bytes.length + 3 := length_contents _
  have hmtu : hostMtu = 256 := rfl
  rw [hread, ← hpushed]
  generalize (s.readByte flagByte).1 = t at hsynced
  have hsum : t.packet.length + (contents (type :: bytes)).length = bytes.length + 3 := by
    rw [hsynced.packet, hlength]
    exact Nat.zero_add _
  by_cases hfits : bytes.length ≤ 253
  · have hdata := foldl_data_room (l := contents (type :: bytes)) hsynced.inSync (by omega)
    rw [hsynced.packet, List.nil_append] at hdata
    rw [hdata]
    by_cases hlen : bytes.length ≤ 252
    · rw [if_pos hlen]
      exact contents_flag (s := { t with packet := contents (type :: bytes) }) hsynced.inSync
        hsynced.escaped htype hne hlen rfl
    · have hfull : (contents (type :: bytes)).length ≥ hostMtu := by omega
      rw [readByte_full (s := { t with packet := contents (type :: bytes) }) hsynced.inSync hfull,
        if_neg hlen, List.append_nil]
      exact ⟨fun hs => absurd hs Bool.false_ne_true, rfl⟩
  · have hroom : t.packet.length ≤ hostMtu := by
      rw [hsynced.packet]
      exact Nat.zero_le _
    have hlong := foldl_data_long (l := contents (type :: bytes)) hsynced.inSync hroom (by omega)
    have hbetween : Between ((contents (type :: bytes)).foldl data t) := fun hs => by
      rw [hlong] at hs
      cases hs
    rw [if_neg (by omega), List.append_nil, hbetween.flag.2, pushed_foldl_data]
    exact ⟨hbetween.flag.1.between, rfl⟩

end Source

end Serial
