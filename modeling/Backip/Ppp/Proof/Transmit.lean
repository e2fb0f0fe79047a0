import Backip.Ppp.Proof.Fcs
import Mathlib

/-!
# The frame on the wire

`sends`: however the payload is cut into pieces, what the UART gets is a flag, the escaped bytes of the
frame with its checksum, and a flag.
-/

set_option autoImplicit false

namespace Ppp.Transmitter

variable {t : Transmitter} {accm : UInt32} {front data : List UInt8}

/-- The address and control fields, where they are not compressed. -/
def fields (t : Transmitter) (inhibitAccomp : Bool) : List UInt8 :=
  if inhibitAccomp || !t.options.txSuppressAddressControl then [allStationsAddress, controlFieldValue]
  else []

/-- The escaped bytes. -/
def escapeAll (accm : UInt32) (l : List UInt8) : List UInt8 := l.flatMap (escape accm)

theorem escapeAll_append (l l' : List UInt8) :
    escapeAll accm (l ++ l') = escapeAll accm l ++ escapeAll accm l' := List.flatMap_append

/-- Nothing in here needs to be escaped. -/
theorem escapeAll_plain {l : List UInt8} (h : ∀ c ∈ l, mustEscape c accm = false) :
    escapeAll accm l = l := by
  induction l with
  | nil => rfl
  | cons c l ih =>
    have hc : escape accm c = [c] := if_neg (by rw [h c (.head _)]; nofun)
    rw [escapeAll, List.flatMap_cons, hc, ← escapeAll, ih fun c hc => h c (.tail _ hc)]
    rfl

/-- The bytes up to `txPtr_` have been sent. -/
structure Sending (accm : UInt32) (front data : List UInt8) (t : Transmitter) : Prop where
  active : t.txState = .active
  txData : t.txData = data
  txPtr : t.txPtr ≤ data.length
  map : t.options.txAsyncControlCharacterMap = accm
  txCrc : t.txCrc = fcs (front ++ data.take t.txPtr)
  wire : t.wire = flagSequence :: escapeAll accm (front ++ data.take t.txPtr)

/-- The checksum has been sent. -/
structure Sent (accm : UInt32) (front data : List UInt8) (t : Transmitter) : Prop where
  sendCrc : t.txState = .sendCrc
  txData : t.txData = data
  wire : t.wire = flagSequence :: escapeAll accm (framed front data) ++ [flagSequence]

theorem sendFrame_sending (hidle : t.txState = .idle) (data : List UInt8) (inhibitAccomp : Bool) :
    ∃ t₁, t.sendFrame data inhibitAccomp .success = (.success, t₁) ∧ t₁.signals = t.signals ∧
      Sending t.options.txAsyncControlCharacterMap (t.fields inhibitAccomp) data t₁ ∧ t₁.txPtr = 0 := by
  have haddress : escape t.options.txAsyncControlCharacterMap allStationsAddress =
      [allStationsAddress] := rfl
  rw [sendFrame, if_neg (not_not_intro hidle), fields]
  dsimp only
  cases inhibitAccomp || !t.options.txSuppressAddressControl with
  | true =>
    refine ⟨_, rfl, rfl, ⟨rfl, rfl, Nat.zero_le _, rfl, rfl, ?_⟩, rfl⟩
    show flagSequence :: allStationsAddress :: escape _ controlFieldValue =
      flagSequence :: ([allStationsAddress, controlFieldValue] ++ []).flatMap (escape _)
    rw [List.append_nil, List.flatMap_cons, haddress, List.flatMap_cons, List.flatMap_nil,
      List.append_nil]
    rfl
  | false => exact ⟨_, rfl, rfl, ⟨rfl, rfl, Nat.zero_le _, rfl, rfl, rfl⟩, rfl⟩

/-- `HdlcUart.sendDone`, and the task. -/
abbrev turn (t : Transmitter) : Transmitter := (t.uartSendDone .success).uartStreamSendDone .success

theorem fcs_append (l l' : List UInt8) : fcs (l ++ l') = l'.foldl fcs16Update (fcs l) :=
  List.foldl_append

/-- A piece of the payload is sent. -/
theorem Sending.piece (h : Sending accm front data t) (piece : List UInt8) (hne : piece ≠ [])
    (hpiece : piece <+: data.drop t.txPtr) {t' : Transmitter} (hstate : t'.txState = .active)
    (hdata : t'.txData = t.txData) (hptr : t'.txPtr = t.txPtr + piece.length)
    (hmap : t'.options = t.options) (hcrc : t'.txCrc = piece.foldl fcs16Update t.txCrc)
    (hwire : t'.wire = t.wire ++ escapeAll accm piece) :
    t.txPtr < t'.txPtr ∧ Sending accm front data t' := by
  have hlen : piece.length ≤ data.length - t.txPtr := by
    rw [← List.length_drop]
    exact hpiece.length_le
  have hpos : 0 < piece.length := List.length_pos_iff.2 hne
  have htake : data.take t'.txPtr = data.take t.txPtr ++ piece := by
    rw [hptr, List.take_add, List.prefix_iff_eq_take.1 hpiece]
    simp
  have hle := h.txPtr
  refine ⟨by omega, hstate, hdata.trans h.txData, by omega, (congrArg _ hmap).trans h.map, ?_, ?_⟩
  · rw [hcrc, h.txCrc, htake, ← List.append_assoc, fcs_append (front ++ _)]
  · rw [hwire, h.wire, htake, ← List.append_assoc, escapeAll_append (front ++ _), List.cons_append]

theorem Sending.turn (h : Sending accm front data t) :
    t.turn.signals = t.signals ∧
      (t.txPtr < t.turn.txPtr ∧ Sending accm front data t.turn ∨ Sent accm front data t.turn) := by
  have hnot : t.txState ≠ .sendCrc := by
    rw [h.active]
    rintro ⟨⟩
  rw [Transmitter.turn, uartStreamSendDone]
  simp only [uartSendDone, ne_eq, not_true_eq_false, if_false, hnot, h.map]
  cases hrest : t.txData.drop t.txPtr with
  | nil =>
    -- the whole payload is sent
    rw [h.txData, List.drop_eq_nil_iff] at hrest
    have hall : data.take t.txPtr = data := List.take_of_length_le hrest
    refine ⟨rfl, .inr ⟨rfl, h.txData, ?_⟩⟩
    show t.wire ++ (escapeAll accm [(t.txCrc ^^^ fcs16Initial).toUInt8,
      ((t.txCrc ^^^ fcs16Initial) >>> 8).toUInt8] ++ [flagSequence]) = _
    rw [h.wire, h.txCrc, hall, framed, escapeAll_append (front ++ data), trailer]
    simp only [List.cons_append, List.append_assoc]
  | cons c rest =>
    have hpre : data.drop t.txPtr = c :: rest := h.txData ▸ hrest
    cases hplain : (c :: rest).takeWhile fun c => !mustEscape c accm with
    | nil =>
      have hc : mustEscape c accm = true := by
        by_contra hno
        rw [List.takeWhile_cons, if_pos (by simp [hno])] at hplain
        cases hplain
      refine ⟨rfl, .inl (h.piece [c] (by rintro ⟨⟩) ?_ h.active rfl rfl rfl rfl ?_)⟩
      · rw [hpre]
        exact ⟨rest, rfl⟩
      · show t.wire ++ [controlEscape, controlModifier ^^^ c] = _
        rw [escapeAll, List.flatMap_cons, escape, if_pos hc, UInt8.xor_comm]
        rfl
    | cons b plain =>
      have hall : ∀ x ∈ b :: plain, mustEscape x accm = false := by
        intro x hx
        rw [← hplain] at hx
        simpa using List.mem_takeWhile_imp hx
      refine ⟨rfl, .inl (h.piece (b :: plain) (by rintro ⟨⟩) ?_ h.active rfl rfl rfl rfl ?_)⟩
      · rw [hpre, ← hplain]
        exact List.takeWhile_prefix _
      · rw [escapeAll_plain hall]
        rfl

theorem Sent.turn (h : Sent accm front data t) :
    t.turn.txState = .idle ∧ t.turn.wire = t.wire ∧
      t.turn.signals = t.signals ++ [(data, .success)] := by
  rw [Transmitter.turn, uartStreamSendDone]
  simp only [uartSendDone, ne_eq, not_true_eq_false, if_false, h.sendCrc, if_true]
  exact ⟨rfl, rfl, congrArg (fun l => t.signals ++ [(l, TinyError.success)]) h.txData⟩

/-- A turn for each piece, one for the checksum, and one for the end. -/
theorem Sending.finish {k : Nat} (h : Sending accm front data t)
    (hk : data.length - t.txPtr + 2 ≤ k) :
    ∃ t', t.finish k = some t' ∧ t'.signals = t.signals ++ [(data, .success)] ∧
      t'.wire = flagSequence :: escapeAll accm (framed front data) ++ [flagSequence] := by
  induction k generalizing t with
  | zero => omega
  | succ k ih =>
    obtain ⟨hsignals, ⟨hlt, hs⟩ | hs⟩ := h.turn
    · have hle := hs.txPtr
      obtain ⟨t', hf, hsig, hw⟩ := ih hs (by omega)
      refine ⟨t', ?_, hsig.trans (by rw [hsignals]), hw⟩
      rw [Transmitter.finish]
      exact (if_neg (by rw [hs.active]; nofun)).trans hf
    · obtain ⟨hidle, hwire, hsig⟩ := hs.turn
      refine ⟨t.turn.turn, ?_, by rw [hsig, hsignals], hwire.trans hs.wire⟩
      obtain ⟨k, rfl⟩ : ∃ j, k = j + 1 := ⟨k - 1, by omega⟩
      rw [Transmitter.finish]
      refine (if_neg (by rw [hs.sendCrc]; nofun)).trans ?_
      rw [Transmitter.finish]
      exact if_pos hidle

theorem finish_mono {k k' : Nat} {t' : Transmitter} (hk : k ≤ k') (h : t.finish k = some t') :
    t.finish k' = some t' := by
  induction k generalizing k' t with
  | zero => cases h
  | succ k ih =>
    obtain ⟨k', rfl⟩ : ∃ j, k' = j + 1 := ⟨k' - 1, by omega⟩
    rw [Transmitter.finish] at h ⊢
    split
    · next hidle => rwa [if_pos hidle] at h
    · next hidle =>
      rw [if_neg hidle] at h
      exact ih (by omega) h

end Ppp.Transmitter
