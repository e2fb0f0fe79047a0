import Backip.Lib.Stuffing
import Backip.Serial.Proof.Crc
import Backip.Serial.SerialSource

/-!
# Frames

A frame is the stuffed payload with its checksum between two flags (`frame`), which is what
`write_framed_packet` writes (`writeFramedPacket_eq`).
-/

set_option autoImplicit false

namespace Serial

def hdlc : Stuffing UInt8 where
  flag := flagByte
  esc := ctlescByte
  mask b := b ^^^ 0x20

/-- The checksum of the payload. -/
def crc (payload : List UInt8) : UInt16 := payload.foldl crcByte 0

/-- The payload with its checksum. -/
def contents (payload : List UInt8) : List UInt8 :=
  payload ++ [(crc payload &&& 0xff).toUInt8, (crc payload >>> 8).toUInt8]

def frame (payload : List UInt8) : List UInt8 :=
  flagByte :: (hdlc.stuffAll (contents payload) ++ [flagByte])

theorem length_contents (payload : List UInt8) : (contents payload).length = payload.length + 2 := by
  rw [contents, List.length_append]
  rfl

theorem mask_mask (b : UInt8) : b ^^^ 0x20 ^^^ 0x20 = b := by
  rw [UInt8.xor_assoc, UInt8.xor_self, UInt8.xor_zero]

theorem mask_not_reserved {b : UInt8} (h : hdlc.Reserved b) : ¬ hdlc.Reserved (hdlc.mask b) := by
  rcases h with rfl | rfl <;> decide

theorem flag_notMem (l : List UInt8) : flagByte ∉ hdlc.stuffAll l :=
  Stuffing.flag_notMem_stuffAll (by decide) (fun _ hb hf => mask_not_reserved hb (.inl hf)) l

/-- The checksum from its two bytes. -/
theorem crc_bytes (crc : UInt16) :
    (crc &&& 0xff).toUInt8.toUInt16 ||| ((crc >>> 8).toUInt8.toUInt16 <<< 8) = crc := by
  have hlow : (crc &&& 0xff).toUInt8 = crc.toUInt8 := by
    rw [UInt16.toUInt8_and]
    exact UInt8.and_neg_one
  rw [hlow, or_shiftLeft_eight]
  exact (eq_bytes crc).symm

/-! ## The host's frames -/

theorem escapeByte_escaped (s : Escaper) (b : UInt8) :
    (s.escapeByte b).escaped = s.escaped ++ hdlc.stuff b := by
  unfold Escaper.escapeByte
  by_cases hb : b = syncByte ∨ b = escapeByteMark
  · rw [Stuffing.stuff_of_reserved (S := hdlc) hb]
    dsimp only
    rw [if_pos hb]
    exact List.append_assoc ..
  · rw [Stuffing.stuff_of_not_reserved (S := hdlc) hb]
    dsimp only
    rw [if_neg hb]
    rfl

theorem escapeByte_crc (s : Escaper) (b : UInt8) : (s.escapeByte b).crc = crcByte s.crc b := by
  unfold Escaper.escapeByte
  rw [crcByteSlow_eq_crcByte]
  split <;> rfl

theorem foldl_escapeByte (s : Escaper) (l : List UInt8) :
    (l.foldl Escaper.escapeByte s).escaped = s.escaped ++ hdlc.stuffAll l ∧
    (l.foldl Escaper.escapeByte s).crc = l.foldl crcByte s.crc := by
  induction l generalizing s with
  | nil => exact ⟨(List.append_nil _).symm, rfl⟩
  | cons b l ih =>
    obtain ⟨hesc, hcrc⟩ := ih (s.escapeByte b)
    constructor
    · rw [List.foldl_cons, hesc, escapeByte_escaped, List.append_assoc]
      rfl
    · rw [List.foldl_cons, hcrc, escapeByte_crc]
      rfl

/-- **`write_framed_packet` writes a frame.** -/
theorem writeFramedPacket_eq (packetType firstByte : UInt8) (packet : List UInt8) :
    writeFramedPacket packetType firstByte packet = frame (packetType :: firstByte :: packet) := by
  obtain ⟨hesc, hcrc⟩ := foldl_escapeByte .init (packetType :: firstByte :: packet)
  unfold writeFramedPacket Escaper.terminate Escaper.add
  rw [List.foldl_cons, List.foldl_cons] at hesc hcrc
  simp only [escapeByte_escaped, hesc, hcrc]
  simp only [frame, contents, Stuffing.stuffAll_append, Stuffing.stuffAll_cons,
    Stuffing.stuffAll_nil, List.append_nil, List.append_assoc]
  rfl

end Serial
