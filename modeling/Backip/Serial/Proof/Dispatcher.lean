import Backip.Serial.SerialDispatcherP
import Mathlib.Data.List.Basic

/-!
# The double buffering of the dispatcher

* `Good`: the invariant of the locks, the buffers and the task, with a lemma for each signal and each
  section of the task.
* `double_buffered`: what holds of it in every run.
* `not_whole`: of a packet that does not fit in `message_t` only the front is passed.
-/

set_option autoImplicit false

namespace SerialDispatcherP

variable {cfg : SerialPlatform} {d : Dispatcher} {bytes : List UInt8} {b : UInt8}

/-! ## What a buffer holds of a packet -/

/-- The type of a packet, its first byte. -/
def typeOf (bytes : List UInt8) : UInt8 := bytes.headD unknownId

/-- The bytes behind the type that fit in `message_t`. -/
def kept (cfg : SerialPlatform) (bytes : List UInt8) : List UInt8 :=
  bytes.tail.take (cfg.messageSize - (cfg.offset (typeOf bytes)).toNat)

@[simp] theorem kept_nil : kept cfg [] = [] := by simp [kept]

theorem kept_of_fits
    (h : (cfg.offset (typeOf bytes)).toNat + bytes.tail.length ≤ cfg.messageSize) :
    kept cfg bytes = bytes.tail := by
  rw [kept, List.take_of_length_le (by omega)]

/-- What is passed of a packet. -/
def Right (cfg : SerialPlatform) (bytes : List UInt8) (p : Passed) : Prop :=
  p = ⟨typeOf bytes, kept cfg bytes, cfg.upperLength (typeOf bytes) (kept cfg bytes).length.toUInt8⟩

/-- The buffer `buf`, filled up to `index`, holds a packet. -/
structure Holds (cfg : SerialPlatform) (d : Dispatcher) (type : UInt8) (buf : Nat) (index : UInt8)
    (bytes : List UInt8) : Prop where
  type_eq : type = typeOf bytes
  index_eq : index.toNat = (cfg.offset type).toNat + (kept cfg bytes).length
  read_eq : d.read buf (cfg.offset type).toNat (kept cfg bytes).length = kept cfg bytes

theorem Holds.congr {d' : Dispatcher} {type index : UInt8} {buf : Nat}
    (h : Holds cfg d type buf index bytes) (hm : d'.memory buf = d.memory buf) :
    Holds cfg d' type buf index bytes :=
  ⟨h.type_eq, h.index_eq, by simpa only [Dispatcher.read, hm] using h.read_eq⟩

/-- The first byte of a packet is its type. -/
theorem holds_type (d : Dispatcher) (buf : Nat) (b : UInt8) :
    Holds cfg d b buf (cfg.offset b) [b] where
  type_eq := rfl
  index_eq := by simp [kept]
  read_eq := by simp [kept, Dispatcher.read]

theorem kept_snoc (cfg : SerialPlatform) (hne : bytes ≠ []) (b : UInt8) : kept cfg (bytes ++ [b]) =
    if (cfg.offset (typeOf bytes)).toNat + (kept cfg bytes).length < cfg.messageSize then
      kept cfg bytes ++ [b]
    else kept cfg bytes := by
  obtain ⟨t, l, rfl⟩ := List.exists_cons_of_ne_nil hne
  simp only [kept, typeOf, List.cons_append, List.headD_cons, List.tail_cons, List.take_append,
    List.length_take]
  split
  · rw [List.take_of_length_le (l := [b]) (by rw [List.length_singleton]; omega)]
  · rw [show cfg.messageSize - (cfg.offset t).toNat - l.length = 0 by omega, List.take_zero,
      List.append_nil]

/-- One more byte, where `byteReceived` puts it. -/
theorem Holds.byte {type index : UInt8} {buf : Nat} (h : Holds cfg d type buf index bytes)
    (hne : bytes ≠ []) (b : UInt8) (hlt : index.toNat < cfg.messageSize) {d' : Dispatcher}
    (hm : d'.memory buf = Function.update (d.memory buf) index.toNat b) :
    Holds cfg d' type buf (index + 1) (bytes ++ [b]) := by
  have htype : typeOf (bytes ++ [b]) = typeOf bytes := by
    obtain ⟨t, l, rfl⟩ := List.exists_cons_of_ne_nil hne
    rfl
  have hsize := cfg.messageSize_le
  have hkept := kept_snoc cfg hne b
  rw [← h.type_eq, ← h.index_eq, if_pos hlt] at hkept
  refine ⟨h.type_eq.trans htype.symm, ?_, ?_⟩
  · rw [hkept, List.length_append, List.length_singleton, UInt8.toNat_add, h.index_eq]
    have := h.index_eq
    simp only [UInt8.reduceToNat]
    omega
  · rw [hkept, List.length_append, List.length_singleton]
    have hread := h.read_eq
    simp only [Dispatcher.read, List.range_succ, List.map_append, List.map_cons, List.map_nil, hm]
      at hread ⊢
    rw [← h.index_eq, Function.update_self]
    refine congrArg (· ++ [b]) (Eq.trans ?_ hread)
    refine List.map_congr_left fun k hk => Function.update_of_ne ?_ _ _
    have := List.mem_range.1 hk
    have := h.index_eq
    omega

/-- A byte that does not fit is dropped. -/
theorem Holds.drop {type index : UInt8} {buf : Nat} (h : Holds cfg d type buf index bytes)
    (hne : bytes ≠ []) (b : UInt8) (hlt : ¬ index.toNat < cfg.messageSize) :
    Holds cfg d type buf index (bytes ++ [b]) := by
  have htype : typeOf (bytes ++ [b]) = typeOf bytes := by
    obtain ⟨t, l, rfl⟩ := List.exists_cons_of_ne_nil hne
    rfl
  have hkept := kept_snoc cfg hne b
  rw [← h.type_eq, ← h.index_eq, if_neg hlt] at hkept
  exact ⟨h.type_eq.trans htype.symm, by rw [hkept]; exact h.index_eq,
    by rw [hkept]; exact h.read_eq⟩

/-! ## The locks -/

/-- Setting a lock changes nothing else. -/
theorem setLock_eq (d : Dispatcher) (which locked : Bool) :
    ∃ bufZeroLocked bufOneLocked, d.setLock which locked =
      { d with receiveState := { d.receiveState with bufZeroLocked, bufOneLocked } } ∧
    ∀ w, (if w then bufOneLocked else bufZeroLocked) =
      if w = which then locked else d.isLocked w := by
  cases which
  · exact ⟨locked, d.receiveState.bufOneLocked, rfl, fun w => by cases w <;> rfl⟩
  · exact ⟨d.receiveState.bufZeroLocked, locked, rfl, fun w => by cases w <;> rfl⟩

/-! ## The invariant -/

/-- What the task has copied is what `endPacket` left for it. -/
def Copied (cfg : SerialPlatform) (d : Dispatcher) : Prop :=
  match d.task with
  | .idle => False
  | .posted => True
  | .copied myType myBuf mySize myWhich => myType = d.receiveTaskType ∧
      myBuf = d.receiveTaskBuf ∧ mySize = d.receiveTaskSize ∧ myWhich = d.receiveTaskWhich
  | .signalled myType myBuf mySize myWhich => myType = d.receiveTaskType ∧
      myBuf = d.receiveTaskBuf ∧ myWhich = d.receiveTaskWhich ∧
      mySize = cfg.upperLength myType (kept cfg d.taskPacket).length.toUInt8

theorem Copied.congr {d' : Dispatcher} (h : Copied cfg d) (ht : d'.task = d.task)
    (htype : d'.receiveTaskType = d.receiveTaskType) (hbuf : d'.receiveTaskBuf = d.receiveTaskBuf)
    (hsize : d'.receiveTaskSize = d.receiveTaskSize)
    (hwhich : d'.receiveTaskWhich = d.receiveTaskWhich) (hp : d'.taskPacket = d.taskPacket) :
    Copied cfg d' := by
  unfold Copied at h ⊢
  rwa [ht, htype, hbuf, hsize, hwhich, hp]

/-- The other buffer is with the task. -/
structure Taken (cfg : SerialPlatform) (d : Dispatcher) : Prop where
  which : d.receiveTaskWhich = !d.receiveState.which
  buf : d.receiveTaskBuf = d.messagePtrs (!d.receiveState.which)
  locked : d.isLocked (!d.receiveState.which) = true
  copied : Copied cfg d
  holds : Holds cfg d d.receiveTaskType d.receiveTaskBuf d.receiveTaskSize d.taskPacket
  complete : d.taskPacket ∈ d.complete

structure Good (cfg : SerialPlatform) (d : Dispatcher) : Prop where
  current : d.receiveBuffer = d.messagePtrs d.receiveState.which
  distinct : d.messagePtrs false ≠ d.messagePtrs true
  locked_iff : d.isCurrentBufferLocked = d.packet.isSome
  begins : d.packet = some [] → d.receiveState.state = .begin ∧ d.recvIndex = 0 ∧
    d.recvType = unknownId
  fills : ∀ bytes, d.packet = some bytes → bytes ≠ [] → d.receiveState.state = .data ∧
    Holds cfg d d.recvType d.receiveBuffer d.recvIndex bytes
  taken : d.receiveTaskPending = true → Taken cfg d
  free : d.receiveTaskPending = false →
    d.isLocked (!d.receiveState.which) = false ∧ d.task = .idle
  passed : ∀ p ∈ d.passed, ∃ bytes ∈ d.complete, Right cfg bytes p

theorem good_boot : Good cfg .boot where
  current := rfl
  distinct := by decide
  locked_iff := rfl
  begins h := nomatch h
  fills _ h := nomatch h
  taken h := nomatch h
  free _ := ⟨rfl, rfl⟩
  passed := by simp [Dispatcher.boot]

theorem Good.distinct_which (h : Good cfg d) (w : Bool) : d.messagePtrs (!w) ≠ d.messagePtrs w := by
  cases w
  · exact h.distinct.symm
  · exact h.distinct

theorem Good.startPacket (h : Good cfg d) : Good cfg d.startPacket.2 := by
  unfold Dispatcher.startPacket
  split
  · obtain ⟨z, o, heq, hlock⟩ := setLock_eq d d.receiveState.which true
    rw [Dispatcher.lockCurrentBuffer, heq]
    have hother : (if !d.receiveState.which then o else z) = d.isLocked (!d.receiveState.which) := by
      rw [hlock, if_neg (by simp)]
    refine ⟨h.current, h.distinct, ?_, fun _ => ⟨rfl, rfl, rfl⟩, ?_, fun hp => ?_, fun hp => ?_,
      h.passed⟩
    · exact (hlock _).trans (if_pos rfl)
    · intro bytes hb hne
      exact absurd (Option.some.inj hb).symm hne
    · have ht := h.taken hp
      exact ⟨ht.which, ht.buf, hother.trans ht.locked, ht.copied.congr rfl rfl rfl rfl rfl rfl,
        ht.holds.congr rfl, ht.complete⟩
    · exact ⟨hother.trans (h.free hp).1, (h.free hp).2⟩
  · exact h

/-- A byte goes to the buffer that is not with the task. -/
theorem memory_byteReceived (cfg : SerialPlatform) {buf : Nat} (hb : buf ≠ d.receiveBuffer)
    (b : UInt8) : (d.byteReceived cfg b).memory buf = d.memory buf := by
  unfold Dispatcher.byteReceived
  dsimp only
  split
  · rfl
  · split
    · exact Function.update_of_ne hb _ _
    · rfl
  · rfl

theorem Good.taskBuf_ne (h : Good cfg d) (hp : d.receiveTaskPending = true) :
    d.receiveTaskBuf ≠ d.receiveBuffer := by
  rw [(h.taken hp).buf, h.current]
  exact h.distinct_which _

/-- A byte changes neither the locks nor what the task has. -/
theorem byteReceived_eq (cfg : SerialPlatform) (d : Dispatcher) (b : UInt8) :
    ∃ state recvType recvIndex memory, d.byteReceived cfg b =
      { d with
        receiveState := { d.receiveState with state }
        recvType, recvIndex, memory, packet := d.packet.map (· ++ [b]) } := by
  unfold Dispatcher.byteReceived
  dsimp only
  split
  · exact ⟨_, _, _, _, rfl⟩
  · split
    · exact ⟨_, _, _, _, rfl⟩
    · exact ⟨_, _, _, _, rfl⟩
  · exact ⟨_, _, _, _, rfl⟩

/-- The packet with one more byte. -/
theorem Good.fills_byte (h : Good cfg d) (hp : d.packet = some bytes) (b : UInt8) :
    (d.byteReceived cfg b).receiveState.state = .data ∧
      Holds cfg (d.byteReceived cfg b) (d.byteReceived cfg b).recvType
        (d.byteReceived cfg b).receiveBuffer (d.byteReceived cfg b).recvIndex (bytes ++ [b]) := by
  by_cases hne : bytes = []
  · subst hne
    obtain ⟨hstate, -, -⟩ := h.begins hp
    have heq : d.byteReceived cfg b =
        { d with
          packet := d.packet.map (· ++ [b])
          receiveState := { d.receiveState with state := .data }
          recvIndex := cfg.offset b
          recvType := b } := by
      unfold Dispatcher.byteReceived
      dsimp only
      rw [hstate]
    rw [heq]
    exact ⟨rfl, holds_type _ _ b⟩
  · obtain ⟨hstate, hholds⟩ := h.fills bytes hp hne
    by_cases hlt : d.recvIndex.toNat < cfg.messageSize
    · have heq : d.byteReceived cfg b =
          { d with
            packet := d.packet.map (· ++ [b])
            memory := Function.update d.memory d.receiveBuffer
              (Function.update (d.memory d.receiveBuffer) d.recvIndex.toNat b)
            recvIndex := d.recvIndex + 1 } := by
        unfold Dispatcher.byteReceived
        dsimp only
        rw [hstate]
        exact if_pos hlt
      rw [heq]
      exact ⟨hstate, hholds.byte hne b hlt (Function.update_self _ _ _)⟩
    · have heq : d.byteReceived cfg b = { d with packet := d.packet.map (· ++ [b]) } := by
        unfold Dispatcher.byteReceived
        dsimp only
        rw [hstate]
        exact if_neg hlt
      rw [heq]
      exact ⟨hstate, (hholds.drop hne b hlt).congr rfl⟩

theorem Good.byteReceived (h : Good cfg d) (hp : d.packet.isSome) (b : UInt8) :
    Good cfg (d.byteReceived cfg b) := by
  obtain ⟨bytes, hbytes⟩ := Option.isSome_iff_exists.1 hp
  have hfill := h.fills_byte hbytes b
  have hmem := fun hpend => memory_byteReceived cfg (h.taskBuf_ne hpend) b
  obtain ⟨state, type, index, memory, heq⟩ := byteReceived_eq cfg d b
  rw [hbytes] at heq
  rw [heq] at hfill hmem ⊢
  refine ⟨h.current, h.distinct, ?_, ?_, ?_, fun hp => ?_, h.free, h.passed⟩
  · have := h.locked_iff
    rw [hbytes] at this
    exact this
  · intro hb
    exact absurd (Option.some.inj hb) (by simp)
  · rintro bytes' hb -
    obtain rfl : bytes ++ [b] = bytes' := Option.some.inj hb
    exact hfill
  · have ht := h.taken hp
    exact ⟨ht.which, ht.buf, ht.locked, ht.copied.congr rfl rfl rfl rfl rfl rfl,
      ht.holds.congr (hmem hp), ht.complete⟩

theorem Good.holds (h : Good cfg d) (hp : d.packet = some bytes) :
    Holds cfg d d.recvType d.receiveBuffer d.recvIndex bytes := by
  by_cases hne : bytes = []
  · subst hne
    obtain ⟨-, hindex, htype⟩ := h.begins hp
    rw [htype, hindex]
    exact ⟨rfl, by simp [cfg.offset_unknownId], by simp [Dispatcher.read]⟩
  · exact (h.fills bytes hp hne).2

/-- The packet is complete, and the other buffer is free. -/
theorem Good.complete (h : Good cfg d) (hp : d.packet = some bytes)
    (hpend : d.receiveTaskPending = false) : Good cfg (d.endPacket .success) := by
  have hholds := h.holds hp
  have hlocked : d.isLocked d.receiveState.which = true := h.locked_iff.trans (by rw [hp]; rfl)
  have heq : d.endPacket .success =
      { d with
        packet := none
        complete := d.complete ++ [bytes]
        receiveTaskPending := true
        receiveTaskType := d.recvType
        receiveTaskWhich := d.receiveState.which
        receiveTaskBuf := d.receiveBuffer
        receiveTaskSize := d.recvIndex
        receiveBuffer := d.messagePtrs (!d.receiveState.which)
        receiveState := { d.receiveState with which := !d.receiveState.which, state := .idle }
        task := .posted
        taskPacket := bytes } := by
    unfold Dispatcher.endPacket
    rw [hp, hpend]
    rfl
  rw [heq]
  refine ⟨rfl, h.distinct, (h.free hpend).1, nofun, nofun, fun _ => ?_, nofun, ?_⟩
  · refine ⟨(Bool.not_not _).symm, ?_, ?_, trivial, hholds.congr rfl, List.mem_append_right _ (.head _)⟩
    · exact h.current.trans (congrArg d.messagePtrs (Bool.not_not _).symm)
    · exact (congrArg d.isLocked (Bool.not_not _)).trans hlocked
  · intro p hpass
    obtain ⟨q, hq, hr⟩ := h.passed p hpass
    exact ⟨q, List.mem_append_left _ hq, hr⟩

/-- The packet is given up, or dropped because the other buffer is not free. -/
theorem Good.abandon (h : Good cfg d) (complete : List (List UInt8)) (hc : d.complete ⊆ complete) :
    Good cfg ({ d with packet := none, complete }.unlockBuffer d.receiveState.which) := by
  obtain ⟨z, o, heq, hlock⟩ :=
    setLock_eq { d with packet := none, complete } d.receiveState.which false
  rw [Dispatcher.unlockBuffer, heq]
  have hother : (if !d.receiveState.which then o else z) = d.isLocked (!d.receiveState.which) :=
    (hlock _).trans (if_neg (by simp))
  refine ⟨h.current, h.distinct, (hlock _).trans (if_pos rfl), nofun, nofun, fun hp => ?_,
    fun hp => ⟨hother.trans (h.free hp).1, (h.free hp).2⟩, fun p hp => ?_⟩
  · have ht := h.taken hp
    exact ⟨ht.which, ht.buf, hother.trans ht.locked, ht.copied.congr rfl rfl rfl rfl rfl rfl,
      ht.holds.congr rfl, hc ht.complete⟩
  · obtain ⟨q, hq, hr⟩ := h.passed p hp
    exact ⟨q, hc hq, hr⟩

theorem endPacket_fail (d : Dispatcher) {result : TinyError} (hr : result ≠ .success) :
    d.endPacket result = { d with packet := none }.unlockBuffer d.receiveState.which := by
  unfold Dispatcher.endPacket
  simp only [hr, and_false, if_false]

theorem endPacket_drop (hp : d.packet = some bytes) (hpend : d.receiveTaskPending = true) :
    d.endPacket .success =
      { d with packet := none, complete := d.complete ++ [bytes] }.unlockBuffer
        d.receiveState.which := by
  unfold Dispatcher.endPacket
  simp [hp, hpend]

theorem Good.endPacket (h : Good cfg d) {result : TinyError}
    (hr : result = .success → d.packet.isSome) : Good cfg (d.endPacket result) := by
  by_cases hs : result = .success
  · subst hs
    obtain ⟨bytes, hbytes⟩ := Option.isSome_iff_exists.1 (hr rfl)
    cases hp : d.receiveTaskPending
    · exact h.complete hbytes hp
    · rw [endPacket_drop hbytes hp]
      exact h.abandon _ (List.subset_append_left _ _)
  · rw [endPacket_fail d hs]
    exact h.abandon d.complete (List.Subset.refl _)

/-! ## The task -/

/-- Until it has returned, the task is pending. -/
theorem Good.pending (h : Good cfg d) (ht : d.task ≠ .idle) : d.receiveTaskPending = true := by
  cases hp : d.receiveTaskPending
  · exact absurd (h.free hp).2 ht
  · rfl

theorem Good.receiveTaskCopy (h : Good cfg d) (ht : d.task = .posted) :
    Good cfg d.receiveTaskCopy := by
  have hpend := h.pending (by rw [ht]; nofun)
  refine ⟨h.current, h.distinct, h.locked_iff, h.begins, fun bytes hb hne => ?_, fun hp => ?_,
    fun hp => absurd (hpend.symm.trans hp) nofun, h.passed⟩
  · exact ⟨(h.fills bytes hb hne).1, (h.fills bytes hb hne).2.congr rfl⟩
  · have ht := h.taken hp
    exact ⟨ht.which, ht.buf, ht.locked, ⟨rfl, rfl, rfl, rfl⟩, ht.holds.congr rfl, ht.complete⟩

theorem Holds.size {type index : UInt8} {buf : Nat} (h : Holds cfg d type buf index bytes) :
    index - cfg.offset type = (kept cfg bytes).length.toUInt8 ∧
      (index - cfg.offset type).toNat = (kept cfg bytes).length := by
  have hi := h.index_eq
  have hlt := index.toNat_lt
  have hle : cfg.offset type ≤ index := by
    rw [UInt8.le_iff_toNat_le]
    omega
  have hsub : (index - cfg.offset type).toNat = (kept cfg bytes).length := by
    rw [UInt8.toNat_sub_of_le _ _ hle]
    omega
  refine ⟨?_, hsub⟩
  rw [← hsub]
  exact (UInt8.ofNat_toNat).symm

theorem Good.receiveTaskSignal (h : Good cfg d) {myType mySize : UInt8} {myBuf : Nat}
    {myWhich : Bool} (ht : d.task = .copied myType myBuf mySize myWhich) :
    Good cfg (d.receiveTaskSignal cfg myType myBuf mySize myWhich) := by
  have hpend := h.pending (by rw [ht]; nofun)
  have htaken := h.taken hpend
  have hcopied := htaken.copied
  rw [Copied, ht] at hcopied
  obtain ⟨rfl, rfl, rfl, rfl⟩ := hcopied
  obtain ⟨hsize, hnat⟩ := htaken.holds.size
  have heq : d.receiveTaskSignal cfg d.receiveTaskType d.receiveTaskBuf d.receiveTaskSize
      d.receiveTaskWhich =
      { d with
        task := .signalled d.receiveTaskType d.receiveTaskBuf
          (cfg.upperLength d.receiveTaskType (kept cfg d.taskPacket).length.toUInt8)
          d.receiveTaskWhich
        passed := d.passed ++ [⟨d.receiveTaskType, kept cfg d.taskPacket,
          cfg.upperLength d.receiveTaskType (kept cfg d.taskPacket).length.toUInt8⟩] } := by
    unfold Dispatcher.receiveTaskSignal
    dsimp only
    rw [hnat, htaken.holds.read_eq, hsize]
  rw [heq]
  refine ⟨h.current, h.distinct, h.locked_iff, h.begins, fun bytes hb hne => ?_, fun hp => ?_,
    fun hp => absurd (hpend.symm.trans hp) nofun, fun p hp => ?_⟩
  · exact ⟨(h.fills bytes hb hne).1, (h.fills bytes hb hne).2.congr rfl⟩
  · exact ⟨htaken.which, htaken.buf, htaken.locked, ⟨rfl, rfl, rfl, rfl⟩, htaken.holds.congr rfl,
      htaken.complete⟩
  · rcases List.mem_append.1 hp with hp | hp
    · exact h.passed p hp
    · refine ⟨d.taskPacket, htaken.complete, (List.mem_singleton.1 hp).trans ?_⟩
      rw [htaken.holds.type_eq]

theorem Good.receiveTaskReturn (h : Good cfg d) {myType mySize : UInt8} {buf myBuf : Nat}
    {myWhich : Bool} (ht : d.task = .signalled myType buf mySize myWhich)
    (hbuf : myBuf ≠ d.messagePtrs (!myWhich)) : Good cfg (d.receiveTaskReturn myBuf myWhich) := by
  have hpend := h.pending (by rw [ht]; nofun)
  have htaken := h.taken hpend
  have hcopied := htaken.copied
  rw [Copied, ht] at hcopied
  obtain ⟨-, -, rfl, -⟩ := hcopied
  obtain ⟨z, o, heq, hlock⟩ := setLock_eq
    { d with messagePtrs := Function.update d.messagePtrs d.receiveTaskWhich myBuf }
    d.receiveTaskWhich false
  have hne : d.receiveState.which ≠ d.receiveTaskWhich := by
    rw [htaken.which]
    cases d.receiveState.which <;> nofun
  have hcur : (if d.receiveState.which then o else z) = d.isLocked d.receiveState.which :=
    (hlock _).trans (if_neg hne)
  unfold Dispatcher.receiveTaskReturn
  dsimp only
  rw [Dispatcher.unlockBuffer, heq]
  refine ⟨?_, ?_, hcur.trans h.locked_iff, h.begins, fun bytes hb hne' => ?_, nofun,
    fun _ => ⟨?_, rfl⟩, h.passed⟩
  · exact h.current.trans (Function.update_of_ne hne _ _).symm
  · cases hw : d.receiveTaskWhich
    · rw [hw] at hbuf
      simpa [Function.update] using hbuf
    · rw [hw] at hbuf
      simpa [Function.update] using hbuf.symm
  · exact ⟨(h.fills bytes hb hne').1, (h.fills bytes hb hne').2.congr rfl⟩
  · exact (hlock _).trans (if_pos htaken.which.symm)

/-! ## Runs -/

theorem good_inductive (cfg : SerialPlatform) : (Dispatcher.machine cfg).Inductive (Good cfg) where
  init d hd := by
    cases hd
    exact good_boot
  step d e d' h hs := by
    cases e with
    | startPacket =>
      obtain rfl := Option.some.inj hs
      exact h.startPacket
    | byteReceived b =>
      obtain ⟨hp, hs⟩ := Option.ite_none_right_eq_some.1 hs
      obtain rfl := Option.some.inj hs
      exact h.byteReceived hp b
    | endPacket result =>
      obtain ⟨hp, hs⟩ := Option.ite_none_right_eq_some.1 hs
      obtain rfl := Option.some.inj hs
      exact h.endPacket hp
    | taskCopy =>
      obtain ⟨ht, hs⟩ := Option.ite_none_right_eq_some.1 hs
      obtain rfl := Option.some.inj hs
      exact h.receiveTaskCopy ht
    | taskSignal =>
      simp only [Dispatcher.machine, Dispatcher.step] at hs
      split at hs
      · rename_i ht
        obtain rfl := Option.some.inj hs
        exact h.receiveTaskSignal ht
      · cases hs
    | taskReturn myBuf =>
      simp only [Dispatcher.machine, Dispatcher.step] at hs
      split at hs
      · rename_i ht
        obtain ⟨hbuf, hs⟩ := Option.ite_none_right_eq_some.1 hs
        obtain rfl := Option.some.inj hs
        exact h.receiveTaskReturn ht hbuf
      · cases hs

/-- What the double buffering is for. -/
structure RaceFree (cfg : SerialPlatform) (d : Dispatcher) : Prop where
  /-- Until the task has given a buffer back, no byte is written to the one it has. -/
  untouched : d.receiveTaskPending = true →
    ∀ b, (d.byteReceived cfg b).memory d.receiveTaskBuf = d.memory d.receiveTaskBuf
  /-- The buffer that `Receive.receive` was passed holds a complete packet. -/
  whole : ∀ myType myBuf mySize myWhich, d.task = .signalled myType myBuf mySize myWhich →
    d.receiveTaskPending = true ∧ myBuf = d.receiveTaskBuf ∧ ∃ bytes ∈ d.complete,
      Right cfg bytes ⟨myType,
        d.read myBuf (cfg.offset myType).toNat (kept cfg bytes).length, mySize⟩
  passed : ∀ p ∈ d.passed, ∃ bytes ∈ d.complete, Right cfg bytes p
  distinct : d.messagePtrs false ≠ d.messagePtrs true
  unlocked : d.packet = none → d.receiveTaskPending = false →
    d.receiveState.bufZeroLocked = false ∧ d.receiveState.bufOneLocked = false
  resumes : d.packet = none → d.startPacket.1 = .success

theorem Good.raceFree (h : Good cfg d) : RaceFree cfg d where
  untouched hp b := memory_byteReceived cfg (h.taskBuf_ne hp) b
  whole myType myBuf mySize myWhich ht := by
    have hpend := h.pending (by rw [ht]; nofun)
    have htaken := h.taken hpend
    have hcopied := htaken.copied
    rw [Copied, ht] at hcopied
    obtain ⟨rfl, rfl, rfl, rfl⟩ := hcopied
    refine ⟨hpend, rfl, d.taskPacket, htaken.complete, ?_⟩
    rw [htaken.holds.read_eq, Right, htaken.holds.type_eq]
  passed := h.passed
  distinct := h.distinct
  unlocked hp hpend := by
    have hcur : d.isLocked d.receiveState.which = false := h.locked_iff.trans (by rw [hp]; rfl)
    have hother := (h.free hpend).1
    cases hw : d.receiveState.which
    · rw [hw] at hcur hother
      exact ⟨hcur, hother⟩
    · rw [hw] at hcur hother
      exact ⟨hother, hcur⟩
  resumes hp := by
    have hcur : d.isCurrentBufferLocked = false := h.locked_iff.trans (by rw [hp]; rfl)
    unfold Dispatcher.startPacket
    rw [hcur]
    rfl

/-- **The double buffering.** In every run the buffer that `Receive.receive` has is not written, it
holds one complete packet, up to the end of `message_t`, the two buffers are distinct, and whenever
no packet is being received and the task is not pending both are unlocked. -/
theorem double_buffered {h : List (Dispatcher × Dispatcher.Event)}
    (hr : (Dispatcher.machine cfg).Run h d) : RaceFree cfg d :=
  (hr.inv (good_inductive cfg)).raceFree

/-- A mote with `message_t` of 52 bytes, where packets of the type 0 have a header of 7 bytes that
starts at 5. -/
def exampleMote : SerialPlatform where
  messageSize := 52
  messageSize_le := by decide
  offset type := if type = 0 then 5 else 0
  offset_unknownId := rfl
  upperLength type n := if type = 0 then n - 7 else 0

/-- A packet is with the upper layer while the next one is received. -/
theorem double_buffered_next : ∃ h d, (Dispatcher.machine exampleMote).Run h d ∧
    (d.task = .signalled 0 0 1 false ∧ d.packet = some [0]) ∧ RaceFree exampleMote d := by
  obtain ⟨h, d, hr, hd⟩ := Machine.exists_run_of_exec (M := Dispatcher.machine exampleMote)
    (s := .boot) rfl
    ([.startPacket] ++ (List.range 9).map (fun k => .byteReceived k.toUInt8) ++
      [.endPacket .success, .startPacket, .taskCopy, .byteReceived 0, .taskSignal])
    (fun _ d => decide (d.task = .signalled 0 0 1 false ∧ d.packet = some [0])) (by decide +kernel)
  exact ⟨h, d, hr, of_decide_eq_true hd, double_buffered hr⟩

/-- A packet of 60 bytes is passed without its end. -/
theorem not_whole : ∃ h d, (Dispatcher.machine exampleMote).Run h d ∧
    ∃ p ∈ d.passed, ∀ bytes ∈ d.complete, p.contents ≠ bytes.tail := by
  obtain ⟨h, d, hr, hd⟩ := Machine.exists_run_of_exec (M := Dispatcher.machine exampleMote)
    (s := .boot) rfl
    ([.startPacket] ++ (List.range 60).map (fun k => .byteReceived k.toUInt8) ++
      [.endPacket .success, .taskCopy, .taskSignal])
    (fun _ d => decide (∃ p ∈ d.passed, ∀ bytes ∈ d.complete, p.contents ≠ bytes.tail))
    (by decide +kernel)
  exact ⟨h, d, hr, of_decide_eq_true hd⟩

end SerialDispatcherP
