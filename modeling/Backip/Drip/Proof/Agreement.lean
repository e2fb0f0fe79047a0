import Backip.Drip.DisseminationEngineImplP
import Mathlib.Algebra.Group.Nat.Defs
import Mathlib.Data.List.Basic
import Mathlib.Order.Nat

/-!
# Dissemination agrees

Each node's value with its number is a replica (`Node.replica`), and so is each message
(`Frame.replica`). As long as the counters stay below `2 ^ 15` the signed comparison of two numbers
is the one of their values, so handling a message merges it into the replica (`receive_replica`),
and a change writes under a number nobody used before (`Invariant.change`): the numbers of one node
grow, and those of two nodes differ in their lower halves. So what is held anywhere, in a node, in
its buffer or on the air, was written under its very number (`Invariant`).

* `Network.agrees`: numbers never decrease, nodes with one known number hold one value, what is held
  under a known number is a change that produced that number, and a node's number has reached those
  of the messages it has handled.
-/

set_option autoImplicit false

namespace Drip

/-! ## Sequence numbers -/

theorem nextSeqno_toNat (seqno : UInt32) (h : seqno.toNat / 65536 + 1 < 65536) (id : UInt16) :
    (Disseminator.nextSeqno seqno id).toNat = (seqno.toNat / 65536 + 1) * 65536 + id.toNat := by
  have hid := id.toNat_lt
  have hs : (seqno >>> 16).toNat = seqno.toNat / 65536 := by
    rw [UInt32.toNat_shiftRight]
    exact Nat.shiftRight_eq_div_pow _ _
  have hc : ((seqno >>> 16) + 1).toNat = seqno.toNat / 65536 + 1 := by
    rw [UInt32.toNat_add, hs, UInt32.toNat_one]
    exact Nat.mod_eq_of_lt (by omega)
  have hne : (seqno >>> 16) + 1 ≠ seqnoUnknown := by
    intro he
    have := congrArg UInt32.toNat he
    rw [hc] at this
    exact absurd this (Nat.succ_ne_zero _)
  have hl : (((seqno >>> 16) + 1) <<< 16).toNat = (seqno.toNat / 65536 + 1) * 65536 := by
    rw [UInt32.toNat_shiftLeft, hc]
    simp only [UInt32.reduceToNat, Nat.reduceMod, Nat.shiftLeft_eq]
    omega
  unfold Disseminator.nextSeqno
  simp only [if_neg hne]
  rw [UInt32.toNat_add, hl, UInt16.toNat_toUInt32]
  exact Nat.mod_eq_of_lt (by omega)

theorem toInt_sub {x y : UInt32} (hx : x.toNat < 2 ^ 31) (hy : y.toNat < 2 ^ 31) :
    (x - y).toInt32.toInt = (x.toNat : Int) - y.toNat := by
  rw [Int32.toInt, UInt32.toBitVec_toInt32, UInt32.toBitVec_sub, BitVec.toInt_sub,
    BitVec.toInt_eq_toNat_of_lt, BitVec.toInt_eq_toNat_of_lt]
  · simp only [UInt32.toNat_toBitVec]
    rw [Int.bmod_eq_of_le] <;> omega
  · simp only [UInt32.toNat_toBitVec]
    omega
  · simp only [UInt32.toNat_toBitVec]
    omega

/-- Numbers in the lower half compare by their values. -/
theorem sub_pos_iff {x y : UInt32} (hx : x.toNat < 2 ^ 31) (hy : y.toNat < 2 ^ 31) :
    (x - y).toInt32 > 0 ↔ y.toNat < x.toNat := by
  rw [gt_iff_lt, Int32.lt_iff_toInt_lt, toInt_sub hx hy, Int32.toInt_zero]
  omega

theorem eq_unknown_iff {x : UInt32} : x = seqnoUnknown ↔ x.toNat = 0 := by
  rw [← UInt32.toNat_inj]
  rfl

theorem memcpy_all {dst src : List UInt8} {n : Nat} (hd : dst.length ≤ n) (hs : src.length = n) :
    memcpy dst src n = src := by
  rw [memcpy, List.drop_eq_nil_of_le hd, List.append_nil, List.take_of_length_le hs.le]

/-! ## Replicas -/

/-- The value of `key` with its number. -/
def Node.replica (n : Node) (key : UInt16) : Stamped Nat (List UInt8) :=
  ⟨(n.disseminators key).seqno.toNat, (n.disseminators key).valueCache⟩

/-- A message's value with its number. -/
def Frame.replica (f : Frame) : Stamped Nat (List UInt8) := ⟨f.seqno.toNat, f.data⟩

namespace Node

variable {cfg : Config} {n : Node} {key k : UInt16} {accept : Bool}

@[simp] theorem setDisseminator_self (s : Disseminator) :
    (n.setDisseminator key s).disseminators key = s :=
  Function.update_self ..

theorem setDisseminator_of_ne (h : k ≠ key) (s : Disseminator) :
    (n.setDisseminator key s).disseminators k = n.disseminators k :=
  Function.update_of_ne h ..

@[simp] theorem setDisseminator_buf (s : Disseminator) : (n.setDisseminator key s).buf = n.buf :=
  rfl

@[simp] theorem setDisseminator_bufBusy (s : Disseminator) :
    (n.setDisseminator key s).bufBusy = n.bufBusy :=
  rfl

@[simp] theorem setDisseminator_sending (s : Disseminator) :
    (n.setDisseminator key s).sending = n.sending :=
  rfl

/-- What `sendObject` may do: nothing, or take the buffer for the key's number and value. -/
inductive Sends (cfg : Config) (n : Node) (key : UInt16) : Node → Prop
  | idle : Sends cfg n key n
  | header (sending : Option Nat) : n.bufBusy = false → n.requestSeqno cfg key = seqnoUnknown →
      sending = some headerSize ∨ sending = n.sending →
      Sends cfg n key
        { n with bufBusy := true, buf := ⟨key, seqnoUnknown, n.buf.data⟩, sending := sending }
  | object (sending : Option Nat) : n.bufBusy = false → cfg.wired key = true →
      sending = some (headerSize + objectSize cfg (cfg.sizeofT key % 256)) ∨ sending = n.sending →
      Sends cfg n key
        { n with
          bufBusy := true
          buf := ⟨key, (n.disseminators key).seqno, memcpy n.buf.data
            (n.disseminators key).valueCache (objectSize cfg (cfg.sizeofT key % 256))⟩
          sending := sending }

theorem sendObject_sends : Sends cfg n key (n.sendObject cfg key accept) := by
  have hans : ∀ len, (if accept then some len else n.sending) = some len ∨
      (if accept then some len else n.sending) = n.sending := by
    intro len
    cases accept
    · exact .inr rfl
    · exact .inl rfl
  unfold sendObject
  split
  · exact .idle
  next hb =>
    have hbusy : n.bufBusy = false := by
      simp only [Bool.or_eq_true, not_or, Bool.not_eq_true] at hb
      exact hb.2
    split
    · by_cases hk : n.requestSeqno cfg key = seqnoUnknown
      · simp only [hk, ne_eq, not_true_eq_false, if_false]
        exact .header _ hbusy hk (hans _)
      · have hw : cfg.wired key = true := by
          by_contra hw
          exact hk (if_neg hw)
        have hseqno : n.requestSeqno cfg key = (n.disseminators key).seqno := if_pos hw
        have hdata : n.requestData cfg key =
            ((n.disseminators key).valueCache, cfg.sizeofT key % 256) := if_pos hw
        simp only [ne_eq, hk, not_false_eq_true, if_true, hdata]
        rw [hseqno]
        exact .object _ hbusy hw (hans _)
    · exact .idle

theorem sendObject_disseminators :
    (n.sendObject cfg key accept).disseminators = n.disseminators := by
  generalize hn : n.sendObject cfg key accept = n'
  have hs : Sends cfg n key n' := hn ▸ sendObject_sends
  cases hs <;> rfl

@[simp] theorem sendObject_replica :
    (n.sendObject cfg key accept).replica k = n.replica k := by
  rw [replica, sendObject_disseminators]
  rfl

/-- What a node holds of `key` was written: its replica, and the message in its buffer while the
link has it. -/
structure Written (ws : List (Stamped Nat (List UInt8))) (cfg : Config) (key : UInt16) (n : Node) :
    Prop where
  held : (n.replica key).Backed ws
  size : (n.disseminators key).valueCache.length = cfg.sizeofT key
  busy : n.sending ≠ none → n.bufBusy = true
  buf : ∀ len, n.sending = some len → n.buf.key = key → (n.frame len).replica.Backed ws

variable {ws : List (Stamped Nat (List UInt8))}

theorem Written.boot : Written ws cfg key (Node.boot cfg) where
  held := .inl rfl
  size := List.length_replicate
  busy h := absurd rfl h
  buf _ h := nomatch h

theorem Written.cons (h : Written ws cfg key n) (w : Stamped Nat (List UInt8)) :
    Written (w :: ws) cfg key n where
  held := h.held.cons w
  size := h.size
  busy := h.busy
  buf len hs hk := (h.buf len hs hk).cons w

/-- The disseminators change, the buffer does not. -/
theorem Written.of_held {n' : Node} (h : Written ws cfg key n) (hbuf : n'.buf = n.buf)
    (hbusy : n'.bufBusy = n.bufBusy) (hsending : n'.sending = n.sending)
    (hheld : (n'.replica key).Backed ws)
    (hsize : (n'.disseminators key).valueCache.length = cfg.sizeofT key) :
    Written ws cfg key n' where
  held := hheld
  size := hsize
  busy := by
    rw [hsending, hbusy]
    exact h.busy
  buf := by
    unfold frame
    rw [hsending, hbuf]
    exact h.buf

theorem objectSize_of_fits (hfit : cfg.Fits key) :
    objectSize cfg (cfg.sizeofT key % 256) = cfg.sizeofT key := by
  have hmax := cfg.maxPayloadLength.toNat_lt
  unfold Types.Fits at hfit
  rw [Nat.mod_eq_of_lt (by omega), objectSize, if_neg (by omega)]

theorem Written.sendObject (h : Written ws cfg key n) (hfit : cfg.Fits key) :
    Written ws cfg key (n.sendObject cfg k accept) := by
  generalize hn : n.sendObject cfg k accept = n'
  have hs : Sends cfg n k n' := hn ▸ sendObject_sends
  -- The buffer is taken only while the link does not have it.
  have hfree : n.bufBusy = false → ∀ len, n.sending ≠ some len := by
    intro hb len hl
    have := h.busy (by rw [hl]; exact Option.some_ne_none _)
    rw [hb] at this
    cases this
  cases hs with
  | idle => exact h
  | header sending hb hu hsend =>
    refine ⟨h.held, h.size, fun _ => rfl, ?_⟩
    intro len hl hk
    exact .inl rfl
  | object sending hb hw hsend =>
    refine ⟨h.held, h.size, fun _ => rfl, ?_⟩
    rintro len hl (rfl : k = key)
    rcases hsend with rfl | rfl
    · cases hl
      have hdata : (frame { n with
          bufBusy := true
          buf := ⟨k, (n.disseminators k).seqno, memcpy n.buf.data
            (n.disseminators k).valueCache (objectSize cfg (cfg.sizeofT k % 256))⟩
          sending := some (headerSize + objectSize cfg (cfg.sizeofT k % 256)) }
          (headerSize + objectSize cfg (cfg.sizeofT k % 256))).replica = n.replica k := by
        rw [objectSize_of_fits hfit, frame, Frame.replica, replica, memcpy, Nat.add_sub_cancel_left,
          List.take_of_length_le h.size.le, ← h.size, List.take_left']
        rfl
      rw [hdata]
      exact h.held
    · exact absurd hl (hfree hb len)

/-! ### Changes -/

theorem change_disseminator (cfg : Config) (accept : Bool)
    (hrun : (n.disseminators key).running = true) (newVal : List UInt8) :
    (n.change cfg key newVal accept).disseminators key =
      (n.disseminators key).change (cfg.sizeofT key) cfg.tosNodeId newVal := by
  simp only [change, hrun, Bool.not_true, Bool.false_eq_true, if_false]
  rw [sendObject_disseminators, setDisseminator_self]

theorem change_of_stopped (cfg : Config) (accept : Bool)
    (hrun : (n.disseminators key).running = false) (newVal : List UInt8) :
    n.change cfg key newVal accept = n := by
  simp only [change, hrun, Bool.not_false, if_true]

theorem change_of_ne (h : k ≠ key) (newVal : List UInt8) :
    (n.change cfg key newVal accept).disseminators k = n.disseminators k := by
  unfold change
  dsimp only
  split
  · rfl
  · rw [sendObject_disseminators, setDisseminator_of_ne h]

/-- A change writes under the node's next number. -/
theorem Written.change (h : Written ws cfg key n) (hfit : cfg.Fits key)
    (hrun : (n.disseminators key).running = true) {newVal : List UInt8}
    (hsize : newVal.length = cfg.sizeofT key) :
    Written (⟨(Disseminator.nextSeqno (n.disseminators key).seqno cfg.tosNodeId).toNat, newVal⟩ ::
      ws) cfg key (n.change cfg key newVal accept) := by
  have hval : memcpy (n.disseminators key).valueCache newVal (cfg.sizeofT key) = newVal :=
    memcpy_all h.size.le hsize
  simp only [Node.change, hrun, Bool.not_true, Bool.false_eq_true, if_false]
  refine Written.sendObject ((h.cons _).of_held rfl rfl rfl ?_ ?_) hfit
  · simp only [replica, setDisseminator_self, Disseminator.change, hval]
    exact .write _
  · simp only [setDisseminator_self, Disseminator.change, hval]
    exact hsize

theorem Written.change_of_ne (h : Written ws cfg key n) (hfit : cfg.Fits key) (hk : k ≠ key)
    (newVal : List UInt8) : Written ws cfg key (n.change cfg k newVal accept) := by
  unfold Node.change
  dsimp only
  split
  · exact h
  · have hother := n.setDisseminator_of_ne hk.symm
      ((n.disseminators k).change (cfg.sizeofT k) cfg.tosNodeId newVal)
    refine Written.sendObject (h.of_held rfl rfl rfl ?_ ?_) hfit
    · rw [replica, hother]
      exact h.held
    · rw [hother]
      exact h.size

/-- The client may set a value only while it has no number. -/
theorem Written.set (h : Written ws cfg key n) {val : List UInt8}
    (hsize : val.length = cfg.sizeofT k) : Written ws cfg key (n.set k val) := by
  by_cases hk : key = k
  · subst hk
    refine h.of_held rfl rfl rfl ?_ ?_
    · rw [Node.set, replica, setDisseminator_self, Disseminator.set]
      split
      next hu =>
        exact .inl (eq_unknown_iff.1 hu)
      · exact h.held
    · rw [Node.set, setDisseminator_self, Disseminator.set]
      split
      · exact hsize
      · exact h.size
  · have hother := n.setDisseminator_of_ne hk ((n.disseminators k).set val)
    refine h.of_held rfl rfl rfl ?_ ?_
    · rw [Node.set, replica, hother]
      exact h.held
    · rw [Node.set, hother]
      exact h.size

theorem set_seqno (val : List UInt8) :
    ((n.set k val).disseminators key).seqno = (n.disseminators key).seqno := by
  by_cases hk : key = k
  · subst hk
    rw [Node.set, setDisseminator_self, Disseminator.set]
    split <;> rfl
  · rw [Node.set, setDisseminator_of_ne hk]

/-! ### Messages received -/

theorem storeData_replica (hw : cfg.wired key = true)
    (hcache : (n.disseminators key).valueCache.length = cfg.sizeofT key) {data : List UInt8}
    (hdata : data.length = cfg.sizeofT key) (seqno : UInt32) :
    (n.storeData cfg key data data.length seqno).replica key = ⟨seqno.toNat, data⟩ := by
  rw [storeData, if_pos hw, replica, setDisseminator_self, Disseminator.storeData, hdata,
    if_neg (Nat.lt_irrefl _), memcpy_all hcache.le hdata]

theorem storeData_of_ne {f : UInt16} (hf : key ≠ f) {data : List UInt8} {size : Nat}
    {seqno : UInt32} :
    (n.storeData cfg f data size seqno).disseminators key = n.disseminators key := by
  unfold storeData
  split
  · exact setDisseminator_of_ne hf _
  · rfl

variable {f : Frame}

theorem receive_cases (cfg : Config) (n : Node) (f : Frame) (accept : Bool) :
    n.receive cfg f accept = n ∨
    n.receive cfg f accept = n.storeData cfg f.key f.data f.data.length f.seqno ∨
    n.receive cfg f accept = n.sendObject cfg f.key accept := by
  unfold receive
  dsimp only
  repeat' split
  all_goals simp

/-- A message a node does not handle leaves the values as they are. -/
theorem receive_of_not (cfg : Config) (accept : Bool)
    (h : ¬(n.running = true ∧ cfg.wired key = true ∧ f.key = key)) :
    (n.receive cfg f accept).disseminators key = n.disseminators key := by
  by_cases hrun : n.running = true
  · rcases receive_cases cfg n f accept with he | he | he
    · rw [he]
    · rw [he]
      by_cases hk : key = f.key
      · have hw : ¬cfg.wired f.key = true := fun hw => h ⟨hrun, hk ▸ hw, hk.symm⟩
        rw [storeData, if_neg hw]
      · exact storeData_of_ne hk
    · rw [he, sendObject_disseminators]
  · simp [receive, hrun]

/-- **Handling a message merges it into the replica.** -/
theorem receive_replica (cfg : Config) (accept : Bool)
    (hrun : n.running = true) (hw : cfg.wired f.key = true)
    (hcache : (n.disseminators f.key).valueCache.length = cfg.sizeofT f.key)
    (hlow : (n.replica f.key).stamp < 2 ^ 31) (hflow : f.replica.stamp < 2 ^ 31)
    (hdata : f.seqno ≠ seqnoUnknown → f.data.length = cfg.sizeofT f.key) :
    (n.receive cfg f accept).replica f.key = (n.replica f.key).merge f.replica := by
  have hcur : n.requestSeqno cfg f.key = (n.disseminators f.key).seqno := if_pos hw
  have hpos := sub_pos_iff hflow hlow
  have hstore : f.seqno ≠ seqnoUnknown → (n.replica f.key).stamp < f.replica.stamp →
      (n.storeData cfg f.key f.data f.data.length f.seqno).replica f.key =
        (n.replica f.key).merge f.replica := by
    intro hk hlt
    rw [storeData_replica hw hcache (hdata hk), Stamped.merge_of_lt hlt]
    rfl
  unfold receive
  simp only [hrun, Bool.not_true, Bool.false_eq_true, if_false, hcur]
  split
  next h =>
    have h0 := eq_unknown_iff.1 h.1
    have h1 := mt eq_unknown_iff.2 h.2
    refine hstore h.2 ?_
    change (n.disseminators f.key).seqno.toNat < f.seqno.toNat
    omega
  split
  next h =>
    refine (Stamped.merge_of_le ?_).symm
    rw [Frame.replica, eq_unknown_iff.1 h.1]
    exact Nat.zero_le _
  split
  next h =>
    have hlt := hpos.1 h
    refine hstore (fun hk => ?_) hlt
    rw [eq_unknown_iff.1 hk] at hlt
    exact Nat.not_lt_zero _ hlt
  next h =>
    have hle : f.replica.stamp ≤ (n.replica f.key).stamp := Nat.not_lt.1 (mt hpos.2 h)
    rw [Stamped.merge_of_le hle]
    split
    · rfl
    · exact sendObject_replica

theorem storeData_buf {data : List UInt8} {size : Nat} {seqno : UInt32} :
    (n.storeData cfg k data size seqno).buf = n.buf := by
  unfold storeData
  split <;> rfl

theorem storeData_bufBusy {data : List UInt8} {size : Nat} {seqno : UInt32} :
    (n.storeData cfg k data size seqno).bufBusy = n.bufBusy := by
  unfold storeData
  split <;> rfl

theorem storeData_sending {data : List UInt8} {size : Nat} {seqno : UInt32} :
    (n.storeData cfg k data size seqno).sending = n.sending := by
  unfold storeData
  split <;> rfl

theorem storeData_size (hcache : (n.disseminators key).valueCache.length = cfg.sizeofT key)
    {data : List UInt8} {seqno : UInt32} :
    ((n.storeData cfg k data data.length seqno).disseminators key).valueCache.length =
      cfg.sizeofT key := by
  by_cases hk : key = k
  · subst hk
    unfold storeData
    split
    · rw [setDisseminator_self, Disseminator.storeData]
      simp only [memcpy, List.length_append, List.length_take, List.length_drop, hcache]
      split <;> omega
    · exact hcache
  · rw [storeData_of_ne hk, hcache]

theorem Written.receive (h : Written ws cfg key n) (hfit : cfg.Fits key)
    (hheld : ((n.receive cfg f accept).replica key).Backed ws) :
    Written ws cfg key (n.receive cfg f accept) := by
  rcases receive_cases cfg n f accept with he | he | he
  · rw [he]
    exact h
  · rw [he] at hheld ⊢
    exact h.of_held storeData_buf storeData_bufBusy storeData_sending hheld
      (storeData_size h.size)
  · rw [he]
    exact h.sendObject hfit

/-! ### Starting, stopping and the end of a transmission -/

theorem start_replica (ok : UInt16 → Bool) : (n.start cfg ok).replica key = n.replica key := by
  simp only [replica, start]
  split <;> rfl

theorem Written.start (h : Written ws cfg key n) (ok : UInt16 → Bool) :
    Written ws cfg key (n.start cfg ok) := by
  have hrep : (n.start cfg ok).replica key = n.replica key := start_replica ok
  refine h.of_held rfl rfl rfl (hrep ▸ h.held) ?_
  exact (congrArg (·.value.length) hrep).trans h.size

theorem stop_replica : (n.stop cfg).replica key = n.replica key := by
  simp only [replica, stop]
  split <;> rfl

theorem Written.stop (h : Written ws cfg key n) : Written ws cfg key (n.stop cfg) := by
  have hrep : (n.stop cfg).replica key = n.replica key := stop_replica
  refine h.of_held rfl rfl rfl (hrep ▸ h.held) ?_
  exact (congrArg (·.value.length) hrep).trans h.size

theorem Written.sendDone (h : Written ws cfg key n) : Written ws cfg key n.sendDone where
  held := h.held
  size := h.size
  busy h := absurd rfl h
  buf _ h := nomatch h

theorem probeReceive_cases (cfg : Config) (n : Node) (k : UInt16) (accept : Bool) :
    n.probeReceive cfg k accept = n ∨ n.probeReceive cfg k accept = n.sendObject cfg k accept := by
  unfold probeReceive
  repeat' split
  all_goals simp

end Node

namespace Network

variable {ι : Type} {d : Deployment ι} {key : UInt16} {ws : List (Stamped Nat (List UInt8))}
  {n : Network ι}

/-- The writes `ws` made to `key` so far account for everything held of it, under numbers that are
unknown to nobody who made them. -/
structure Invariant (d : Deployment ι) (key : UInt16) (ws : List (Stamped Nat (List UInt8)))
    (n : Network ι) : Prop where
  oneEach : Stamped.OneEach ws
  known : ∀ w ∈ ws, 0 < w.stamp
  size : ∀ w ∈ ws, w.value.length = d.sizeofT key
  /-- The counters count changes. -/
  few : ∀ w ∈ ws, w.stamp / 65536 ≤ ws.length
  /-- The lower half of a number says which node made it. -/
  issued : ∀ w ∈ ws, ∃ a, w.stamp % 65536 = (d.tosNodeId a).toNat ∧
    w.stamp ≤ (n.seqno a key).toNat
  nodes : ∀ a, (n.nodes a).Written ws (d.cfg a) key
  air : ∀ f ∈ n.air, f.key = key → f.replica.Backed ws

theorem Invariant.boot : Invariant d key [] ⟨fun a => .boot (d.cfg a), []⟩ where
  oneEach := nofun
  known := nofun
  size := nofun
  few := nofun
  issued := nofun
  nodes _ := .boot
  air := nofun

/-- Whatever is held is backed by few enough changes for its number to be in the lower half. -/
theorem Invariant.low (h : Invariant d key ws n) (hlen : ws.length < 2 ^ 15)
    {r : Stamped Nat (List UInt8)} (hr : r.Backed ws) : r.stamp < 2 ^ 31 := by
  rcases hr with h0 | hr
  · rw [h0]
    decide
  · have := h.few r hr
    omega

theorem changes_cons (p : Network ι × Event ι) (h : List (Network ι × Event ι)) :
    changes d key (p :: h) = (supplied d key p.1 p.2).toList ++ changes d key h := by
  cases hp : supplied d key p.1 p.2 <;> simp [changes, hp]

/-- What node `b` holds after an arrival. -/
theorem Invariant.receive (h : Invariant d key ws n) (hlen : ws.length < 2 ^ 15)
    (hfit : d.Fits key) {f : Frame} (hf : f ∈ n.air) (b : ι) (accept : Bool) :
    ((n.nodes b).receive (d.cfg b) f accept).Written ws (d.cfg b) key ∧
    ((n.nodes b).replica key).stamp ≤
      (((n.nodes b).receive (d.cfg b) f accept).replica key).stamp ∧
    ((n.nodes b).running = true → d.wired b key = true → f.key = key → f.replica.stamp ≤
      (((n.nodes b).receive (d.cfg b) f accept).replica key).stamp) := by
  have hb := h.nodes b
  have hdata : f.key = key → f.seqno ≠ seqnoUnknown → f.data.length = d.sizeofT key := by
    intro hk hs
    rcases h.air f hf hk with h0 | hw
    · exact absurd (eq_unknown_iff.2 h0) hs
    · exact h.size _ hw
  by_cases hall : (n.nodes b).running = true ∧ d.wired b key = true ∧ f.key = key
  · obtain ⟨hrun, hw, rfl⟩ := hall
    have hback := h.air f hf rfl
    have hmerge := Node.receive_replica (d.cfg b) accept hrun hw hb.size
      (h.low hlen hb.held) (h.low hlen hback) (hdata rfl)
    have hstamp := (congrArg Stamped.stamp hmerge).trans (Stamped.merge_stamp _ _)
    refine ⟨hb.receive hfit ?_, hstamp ▸ le_max_left _ _, fun _ _ _ => hstamp ▸ le_max_right _ _⟩
    rw [hmerge]
    exact hb.held.merge hback
  · have hsame := Node.receive_of_not (d.cfg b) accept hall
    have hrep : ((n.nodes b).receive (d.cfg b) f accept).replica key = (n.nodes b).replica key := by
      rw [Node.replica, hsame]
      rfl
    refine ⟨hb.receive hfit ?_, (congrArg Stamped.stamp hrep).ge,
      fun h₁ h₂ h₃ => absurd ⟨h₁, h₂, h₃⟩ hall⟩
    rw [hrep]
    exact hb.held

variable [DecidableEq ι] {a : ι}

@[simp] theorem setNode_self (n' : Node) : (n.setNode a n').nodes a = n' :=
  Function.update_self ..

theorem setNode_of_ne {b : ι} (h : b ≠ a) (n' : Node) : (n.setNode a n').nodes b = n.nodes b :=
  Function.update_of_ne h ..

/-- A step of node `a` after which its number is no smaller. -/
theorem seqno_le_setNode {n' : Node}
    (hle : ((n.nodes a).replica key).stamp ≤ (n'.replica key).stamp) (b : ι) :
    n.seqno b key ≤ (n.setNode a n').seqno b key := by
  by_cases hb : b = a
  · subst hb
    rw [seqno, seqno, setNode_self]
    exact UInt32.le_iff_toNat_le.2 hle
  · rw [seqno, seqno, setNode_of_ne hb]
    exact UInt32.le_refl _

theorem Invariant.setNode (h : Invariant d key ws n) {n' : Node}
    (hw : n'.Written ws (d.cfg a) key)
    (hle : ((n.nodes a).replica key).stamp ≤ (n'.replica key).stamp) :
    Invariant d key ws (n.setNode a n') := by
  refine ⟨h.oneEach, h.known, h.size, h.few, ?_, ?_, h.air⟩
  · intro w hw
    obtain ⟨b, hid, hb⟩ := h.issued w hw
    exact ⟨b, hid, hb.trans (UInt32.le_iff_toNat_le.1 (seqno_le_setNode hle b))⟩
  · intro b
    by_cases hb : b = a
    · subst hb
      rw [setNode_self]
      exact hw
    · rw [setNode_of_ne hb]
      exact h.nodes b

/-- **A change writes under a number of its own**, greater than the node's. -/
theorem Invariant.change (h : Invariant d key ws n) (hlen : ws.length + 1 < 2 ^ 15)
    (hfit : d.Fits key) (hrun : ((n.nodes a).disseminators key).running = true)
    {newVal : List UInt8} (hsize : newVal.length = d.sizeofT key) (accept : Bool) :
    Invariant d key
      (⟨(Disseminator.nextSeqno (n.seqno a key) (d.tosNodeId a)).toNat, newVal⟩ :: ws)
      (n.setNode a ((n.nodes a).change (d.cfg a) key newVal accept)) ∧
    ((n.nodes a).replica key).stamp ≤
      (((n.nodes a).change (d.cfg a) key newVal accept).replica key).stamp := by
  have hlow := h.low (by omega) (h.nodes a).held
  have hcount : (n.seqno a key).toNat / 65536 ≤ ws.length := by
    rcases (h.nodes a).held with h0 | hw
    · have h0 : (n.seqno a key).toNat = 0 := h0
      rw [h0]
      exact Nat.zero_le _
    · exact h.few _ hw
  have hid := (d.tosNodeId a).toNat_lt
  have hnext := nextSeqno_toNat (n.seqno a key) (by omega) (d.tosNodeId a)
  have hdis := Node.change_disseminator (d.cfg a) accept hrun newVal
  have hstamp : (((n.nodes a).change (d.cfg a) key newVal accept).replica key).stamp =
      (Disseminator.nextSeqno (n.seqno a key) (d.tosNodeId a)).toNat := by
    rw [Node.replica, hdis]
    rfl
  have hlt : (n.seqno a key).toNat <
      (Disseminator.nextSeqno (n.seqno a key) (d.tosNodeId a)).toNat := by
    omega
  have hle : ((n.nodes a).replica key).stamp ≤
      (((n.nodes a).change (d.cfg a) key newVal accept).replica key).stamp := by
    rw [hstamp]
    exact hlt.le
  refine ⟨⟨h.oneEach.cons ?_, ?_, ?_, ?_, ?_, ?_, ?_⟩, hle⟩
  · -- Another number of this node is smaller, one of another node differs in the lower half.
    intro w hw he
    obtain ⟨b, hb, hle⟩ := h.issued w hw
    have hw : w.stamp = (Disseminator.nextSeqno (n.seqno a key) (d.tosNodeId a)).toNat := he
    have hab : b = a := by
      refine d.distinct (UInt16.toNat_inj.1 ?_)
      rw [← hb]
      omega
    subst hab
    omega
  · intro w hw
    rcases List.mem_cons.1 hw with rfl | hw
    · exact Nat.zero_lt_of_lt hlt
    · exact h.known w hw
  · intro w hw
    rcases List.mem_cons.1 hw with rfl | hw
    · exact hsize
    · exact h.size w hw
  · intro w hw
    rw [List.length_cons]
    rcases List.mem_cons.1 hw with rfl | hw
    · dsimp only
      omega
    · exact (h.few w hw).trans (Nat.le_succ _)
  · intro w hw
    rcases List.mem_cons.1 hw with rfl | hw
    · refine ⟨a, ?_, ?_⟩
      · dsimp only
        omega
      · change _ ≤ (((n.setNode a _).nodes a).replica key).stamp
        rw [setNode_self]
        exact hstamp.ge
    · obtain ⟨b, hb, hle'⟩ := h.issued w hw
      exact ⟨b, hb, hle'.trans (UInt32.le_iff_toNat_le.1 (seqno_le_setNode hle b))⟩
  · intro b
    by_cases hb : b = a
    · subst hb
      rw [setNode_self]
      exact (h.nodes b).change hfit hrun hsize
    · rw [setNode_of_ne hb]
      exact (h.nodes b).cons _
  · intro f hf hk
    exact (h.air f hf hk).cons _

/-! ### Steps and runs -/

/-- A change as a write. -/
def write (c : UInt32 × List UInt8) : Stamped Nat (List UInt8) := ⟨c.1.toNat, c.2⟩

variable {n' : Network ι} {e : Event ι}

/-- What one step keeps, and how it moves the numbers. -/
structure Advances (d : Deployment ι) (key : UInt16) (ws : List (Stamped Nat (List UInt8)))
    (n : Network ι) (e : Event ι) (n' : Network ι) : Prop where
  kept : Invariant d key ws n'
  le : ∀ a, n.seqno a key ≤ n'.seqno a key
  reached : ∀ a q, d.wired a key = true → n.Processes a key q e → q ≤ n'.seqno a key

/-- A step of node `a` that handles no message and makes no change. -/
theorem Invariant.advances_setNode (h : Invariant d key ws n) {m : Node}
    (hw : m.Written ws (d.cfg a) key)
    (hle : ((n.nodes a).replica key).stamp ≤ (m.replica key).stamp)
    (he : ∀ b q, ¬n.Processes b key q e) : Advances d key ws n e (n.setNode a m) :=
  ⟨h.setNode hw hle, seqno_le_setNode hle, fun b q _ hp => absurd hp (he b q)⟩

theorem Invariant.step (h : Invariant d key ws n) (hfit : d.Fits key)
    (hs : step d n e = some n')
    (hlen : ((supplied d key n e).toList.map write ++ ws).length < 2 ^ 15) :
    Advances d key ((supplied d key n e).toList.map write ++ ws) n e n' := by
  cases e with
  | start a ok =>
    cases hs
    exact h.advances_setNode ((h.nodes a).start ok)
      (congrArg Stamped.stamp (Node.start_replica ok)).ge nofun
  | stop a =>
    cases hs
    exact h.advances_setNode (h.nodes a).stop (congrArg Stamped.stamp Node.stop_replica).ge nofun
  | set a k val =>
    obtain ⟨⟨-, hsize⟩, ⟨⟩⟩ := Option.ite_none_right_eq_some.1 hs
    refine h.advances_setNode ((h.nodes a).set hsize) ?_ nofun
    exact (congrArg UInt32.toNat (Node.set_seqno val)).ge
  | change a k newVal accept =>
    obtain ⟨⟨-, hsize⟩, ⟨⟩⟩ := Option.ite_none_right_eq_some.1 hs
    by_cases hk : k = key
    · subst hk
      by_cases hrun : ((n.nodes a).disseminators k).running = true
      · have hsup : supplied d k n (.change a k newVal accept) =
            some (Disseminator.nextSeqno (n.seqno a k) (d.tosNodeId a), newVal) :=
          if_pos ⟨rfl, hrun⟩
        rw [hsup] at hlen ⊢
        obtain ⟨hI, hle⟩ := h.change hlen hfit hrun hsize accept
        exact ⟨hI, seqno_le_setNode hle, nofun⟩
      · have hsup : supplied d k n (.change a k newVal accept) = none :=
          if_neg fun hc => hrun hc.2
        rw [hsup]
        have hsame := Node.change_of_stopped (d.cfg a) accept
          (Bool.not_eq_true _ ▸ hrun) newVal
        rw [hsame]
        exact h.advances_setNode (h.nodes a) (Nat.le_refl _) nofun
    · have hsup : supplied d key n (.change a k newVal accept) = none :=
        if_neg fun hc => hk hc.1
      rw [hsup]
      refine h.advances_setNode ((h.nodes a).change_of_ne hfit hk newVal) ?_ nofun
      rw [Node.replica, Node.replica, Node.change_of_ne (Ne.symm hk)]
  | fired a k accept =>
    cases hs
    exact h.advances_setNode ((h.nodes a).sendObject hfit)
      (congrArg Stamped.stamp Node.sendObject_replica).ge nofun
  | sendDone a =>
    obtain ⟨-, ⟨⟩⟩ := Option.ite_none_right_eq_some.1 hs
    exact h.advances_setNode (h.nodes a).sendDone (Nat.le_refl _) nofun
  | transmit a =>
    obtain ⟨len, hlen, rfl⟩ := Option.map_eq_some_iff.1 hs
    refine ⟨{ h with air := ?_ }, fun _ => UInt32.le_refl _, nofun⟩
    intro f hf hk
    rcases List.mem_cons.1 hf with rfl | hf
    · exact (h.nodes a).buf len hlen hk
    · exact h.air f hf hk
  | receive b i accept =>
    obtain ⟨f, hf, rfl⟩ := Option.map_eq_some_iff.1 hs
    obtain ⟨hw, hle, hreach⟩ := h.receive hlen hfit (List.mem_of_getElem? hf) b accept
    refine ⟨h.setNode hw hle, seqno_le_setNode hle, ?_⟩
    rintro a q hwired ⟨rfl, hrun, f', hf', hkey, rfl⟩
    cases hf.symm.trans hf'
    refine UInt32.le_iff_toNat_le.2 ((hreach hrun hwired hkey).trans_eq ?_)
    rw [seqno, setNode_self]
    rfl
  | probe b k accept =>
    cases hs
    rcases Node.probeReceive_cases (d.cfg b) (n.nodes b) k accept with he | he
    · rw [he]
      exact h.advances_setNode (h.nodes b) (Nat.le_refl _) nofun
    · rw [he]
      exact h.advances_setNode ((h.nodes b).sendObject hfit)
        (congrArg Stamped.stamp Node.sendObject_replica).ge nofun

theorem Run.invariant (hfit : d.Fits key) {h : List (Network ι × Event ι)}
    (hr : (machine d).Run h n) (hlen : (changes d key h).length < 2 ^ 15) :
    Invariant d key ((changes d key h).map write) n ∧
    ∀ p ∈ h, (∀ a, p.1.seqno a key ≤ n.seqno a key) ∧
      ∀ a q, d.wired a key = true → p.1.Processes a key q p.2 → q ≤ n.seqno a key := by
  induction hr with
  | init hi =>
    cases hi
    exact ⟨.boot, nofun⟩
  | step hr hs ih =>
    rw [changes_cons, List.length_append] at hlen
    rw [changes_cons, List.map_append]
    obtain ⟨hI, hall⟩ := ih (by omega)
    have hadv := hI.step hfit hs (by simpa using hlen)
    refine ⟨hadv.kept, List.forall_mem_cons.2 ⟨⟨hadv.le, hadv.reached⟩, ?_⟩⟩
    intro p hp
    obtain ⟨hle, hreach⟩ := hall p hp
    exact ⟨fun a => UInt32.le_trans (hle a) (hadv.le a),
      fun a q hw hq => UInt32.le_trans (hreach a q hw hq) (hadv.le a)⟩

/-- **Dissemination agrees.** In a network in which fewer than `2 ^ 15` changes of a key take
effect, numbers never decrease, two nodes with one known number hold one value, what is held under a
known number was supplied by a change that produced it, and a node's number has reached those of the
messages it has handled. -/
theorem agrees (d : Deployment ι) {key : UInt16} (hfit : d.Fits key)
    {h : List (Network ι × Event ι)} {n : Network ι} (hr : (machine d).Run h n)
    (hlen : (changes d key h).length < 2 ^ 15) :
    (∀ p ∈ h, ∀ a, p.1.seqno a key ≤ n.seqno a key) ∧
    (∀ a b, n.seqno a key = n.seqno b key → n.seqno a key ≠ seqnoUnknown →
      n.value a key = n.value b key) ∧
    (∀ a, n.seqno a key ≠ seqnoUnknown → (n.seqno a key, n.value a key) ∈ changes d key h) ∧
    (∀ p ∈ h, ∀ a q, d.wired a key = true → p.1.Processes a key q p.2 → q ≤ n.seqno a key) := by
  obtain ⟨hI, hall⟩ := Run.invariant hfit hr hlen
  refine ⟨fun p hp => (hall p hp).1, ?_, ?_, fun p hp => (hall p hp).2⟩
  · intro a b he hk
    have hagree := Stamped.Backed.agree hI.oneEach (hI.nodes a).held (hI.nodes b).held
      (congrArg UInt32.toNat he) (mt eq_unknown_iff.2 hk)
    exact congrArg Stamped.value hagree
  · intro a hk
    rcases (hI.nodes a).held with h0 | hw
    · exact absurd (eq_unknown_iff.2 h0) hk
    · obtain ⟨c, hc, he⟩ := List.mem_map.1 hw
      have hnum : c.1 = n.seqno a key := UInt32.toNat_inj.1 (congrArg Stamped.stamp he)
      have hval : c.2 = n.value a key := congrArg Stamped.value he
      rw [← hnum, ← hval]
      exact hc

/-- Two nodes, both with a client of the key 7. -/
def examplePair : Deployment Bool where
  sizeofT _ := 2
  maxPayloadLength := 28
  tosNodeId a := if a then 1 else 2
  distinct := fun a b => by
    revert a b
    decide
  wired _ _ := true

/-- Node 1 changes the value and node 2 hears of it. -/
theorem agrees_pair : ∃ h n, (machine examplePair).Run h n ∧ n.seqno false 7 = 65537 ∧
    n.value false 7 = [3, 4] ∧ changes examplePair 7 h = [(65537, [3, 4])] ∧
    (∀ p ∈ h, ∀ a, p.1.seqno a 7 ≤ n.seqno a 7) ∧
    (n.value true 7 = n.value false 7) := by
  obtain ⟨h, n, hr, hs⟩ := Machine.exists_run_of_exec (M := machine examplePair)
    (s := ⟨fun a => .boot (examplePair.cfg a), []⟩) rfl
    [.start true fun _ => true, .start false fun _ => true, .change true 7 [3, 4] true,
      .transmit true, .receive false 0 true]
    (fun h n => decide (n.seqno false 7 = 65537 ∧ n.value false 7 = [3, 4] ∧
      n.seqno true 7 = 65537 ∧ changes examplePair 7 h = [(65537, [3, 4])])) (by decide)
  obtain ⟨h1, h2, h3, h4⟩ := of_decide_eq_true hs
  have hfit : examplePair.Fits 7 := by decide
  obtain ⟨hmono, hagree, -, -⟩ := agrees examplePair hfit hr (by rw [h4]; decide)
  exact ⟨h, n, hr, h1, h2, h4, hmono, hagree true false (h3.trans h1.symm) (by rw [h3]; decide)⟩

end Network

end Drip
