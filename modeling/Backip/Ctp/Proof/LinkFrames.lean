import Backip.Ctp.LinkEstimatorP
import Mathlib.Algebra.Group.Int.Defs
import Mathlib.Algebra.Group.Nat.Defs
import Mathlib.Data.List.Basic

/-!
# Link estimator frames

* `load_spec`: the entries behind the payload are the mature ones after the last one sent, as many
  as fit.
* `encapsulation`: what is sent fits, and gives the payload and the entries back; a received frame
  is read inside its payload, and gives an upper payload no longer than it, exactly if the entries
  its header announces lie behind the header.
-/

set_option autoImplicit false

namespace LinkEstimatorP

/-! ## Bytes -/

theorem store_self (mem : Int → UInt8) (a : Int) (b : UInt8) : store mem a b a = b := if_pos rfl

theorem store_of_ne {mem : Int → UInt8} {a x : Int} (h : x ≠ a) (b : UInt8) :
    store mem a b x = mem x :=
  if_neg h

/-- The entry at an address. -/
def entryAt (mem : Int → UInt8) (a : Int) : NeighborStatEntry :=
  ⟨(readAddr a).val mem, mem (a + 2)⟩

theorem entryAt_congr {mem mem' : Int → UInt8} {a : Int} (h₀ : mem a = mem' a)
    (h₁ : mem (a + 1) = mem' (a + 1)) (h₂ : mem (a + 2) = mem' (a + 2)) :
    entryAt mem a = entryAt mem' a := by
  simp only [entryAt, readAddr, Probe.val_bind, Probe.val_read, Probe.val_pure, h₀, h₁, h₂]

theorem entryAt_storeEntry (mem : Int → UInt8) (a : Int) (e : NeighborStatEntry) :
    entryAt (storeEntry mem a e) a = e := by
  have h₀ : storeEntry mem a e a = (e.llAddr >>> 8).toUInt8 := by
    rw [storeEntry, store_of_ne (by omega), store_of_ne (by omega), store_self]
  have h₁ : storeEntry mem a e (a + 1) = e.llAddr.toUInt8 := by
    rw [storeEntry, store_of_ne (by omega), store_self]
  have h₂ : storeEntry mem a e (a + 2) = e.inquality := by rw [storeEntry, store_self]
  simp only [entryAt, readAddr, Probe.val_bind, Probe.val_read, Probe.val_pure, h₀, h₁, h₂,
    ntohs_netBytes]

theorem storeEntry_of_lt {mem : Int → UInt8} {a x : Int} (h : x < a) (e : NeighborStatEntry) :
    storeEntry mem a e x = mem x := by
  rw [storeEntry, store_of_ne (by omega), store_of_ne (by omega), store_of_ne (by omega)]

/-! ## The entries that are sent -/

/-- What the footer says of entry `k`, if it is mature. -/
def stat (t : NeighborTable) (k : Nat) : Option NeighborStatEntry :=
  t[k]?.bind fun ne => if ne.valid && ne.mature then some ⟨ne.llAddr, ne.inquality⟩ else none

/-- The entries sent behind a payload of `len` bytes: the mature ones after the last one sent, as
many as fit. -/
def State.sent (highest : UInt8) (s : State) (len : UInt8) : List NeighborStatEntry :=
  ((order s.prevSentIdx).filterMap (stat s.neighborTable)).take (maxEntries highest len)

/-- The loop has put the entries `l` at `a`. -/
structure Load.Holds (mem : Int → UInt8) (a : Int) (l : List NeighborStatEntry) (v : Load) : Prop
    where
  count : v.j = l.length
  tame : v.wild = false
  below : ∀ x, x < a → v.mem x = mem x
  entries : ∀ (i : Nat) (e : NeighborStatEntry), l[i]? = some e →
    entryAt v.mem (a + footerSize * i) = e

theorem Load.Holds.push {mem : Int → UInt8} {a : Int} {l : List NeighborStatEntry} {v : Load}
    (h : v.Holds mem a l) (e : NeighborStatEntry) (k : Nat) :
    Load.Holds mem a (l ++ [e]) { v with
      mem := storeEntry v.mem (a + footerSize * v.j) e
      j := v.j + 1
      newPrevSentIdx := k } where
  count := by
    rw [List.length_append, List.length_singleton, ← h.count]
  tame := h.tame
  below x hx := by
    have hlt : x < a + footerSize * v.j := by
      simp only [footerSize]
      omega
    exact (storeEntry_of_lt hlt e).trans (h.below x hx)
  entries i e' hi := by
    rw [h.count]
    rcases Nat.lt_trichotomy i l.length with hlt | rfl | hgt
    · rw [List.getElem?_append_left hlt] at hi
      rw [← h.entries i e' hi]
      apply entryAt_congr <;>
        exact storeEntry_of_lt (by simp only [footerSize]; omega) e
    · rw [List.getElem?_append_right (Nat.le_refl _), Nat.sub_self] at hi
      cases hi
      exact entryAt_storeEntry _ _ _
    · rw [List.getElem?_eq_none (by simp; omega)] at hi
      cases hi

theorem foldl_turn {t : NeighborTable} {highest : Nat} {mem : Int → UInt8} {a : Int}
    {footer : Option Int} (hfooter : 0 < highest → footer = some a) (ks : List Nat) {v : Load}
    {l : List NeighborStatEntry} (h : v.Holds mem a l) :
    (ks.foldl (Load.turn t footer highest) v).Holds mem a
      (l ++ (ks.filterMap (stat t)).take (highest - l.length)) := by
  induction ks generalizing v l with
  | nil => simpa using h
  | cons k ks ih =>
    rw [List.foldl_cons]
    by_cases hlt : v.j < highest
    · cases hs : stat t k with
      | none =>
        have hturn : Load.turn t footer highest v k = v := by
          unfold Load.turn
          rw [if_pos hlt]
          unfold stat at hs
          cases hk : t[k]? with
          | none => rfl
          | some ne =>
            rw [hk, Option.bind_some] at hs
            have hn : ¬(ne.valid && ne.mature) = true := by
              intro hc
              rw [if_pos hc] at hs
              cases hs
            exact if_neg hn
        rw [hturn, List.filterMap_cons_none hs]
        exact ih h
      | some e =>
        have hturn : Load.turn t footer highest v k = { v with
            mem := storeEntry v.mem (a + footerSize * v.j) e
            j := v.j + 1
            newPrevSentIdx := k } := by
          unfold Load.turn
          rw [if_pos hlt]
          unfold stat at hs
          cases hk : t[k]? with
          | none =>
            rw [hk] at hs
            cases hs
          | some ne =>
            rw [hk, Option.bind_some] at hs
            obtain ⟨hc, ⟨⟩⟩ := Option.ite_none_right_eq_some.1 hs
            dsimp only
            rw [if_pos hc, hfooter (Nat.zero_lt_of_lt hlt)]
        rw [hturn, List.filterMap_cons_some hs]
        have hnext := ih (h.push e k)
        have hcount : highest - l.length = (highest - (l ++ [e]).length) + 1 := by
          rw [List.length_append, List.length_singleton, ← h.count]
          omega
        rw [hcount, List.take_succ_cons]
        rwa [List.append_assoc, List.singleton_append] at hnext
    · have hturn : Load.turn t footer highest v k = v := if_neg hlt
      have h0 : highest - l.length = 0 := by
        rw [← h.count]
        omega
      have hih := ih h
      rw [h0, List.take_zero] at hih
      rw [hturn, h0, List.take_zero]
      exact hih

/-- Where there is room for an entry, the footer is behind the payload. -/
theorem getFooter_eq {highest len : UInt8} (h : 0 < maxEntries highest len) :
    getFooter highest len = some (headerSize + len.toNat) := by
  have hmax : len.toNat + 5 ≤ highest.toNat := by
    simp only [maxEntries, headerSize, footerSize] at h
    omega
  have hlt := highest.toNat_lt
  have h3 : (len + UInt8.ofNat footerSize + UInt8.ofNat headerSize).toNat = len.toNat + 5 := by
    simp only [UInt8.toNat_add, footerSize, headerSize, UInt8.toNat_ofNat']
    omega
  have hle : len + UInt8.ofNat footerSize + UInt8.ofNat headerSize ≤ highest := by
    rw [UInt8.le_iff_toNat_le, h3]
    exact hmax
  have hat : (len.toNat : Int) + (0 + headerSize) = headerSize + len.toNat := by omega
  rw [getFooter, getPayload, subGetPayload, if_pos hle]
  exact congrArg some hat

/-- **The loop puts the entries to send behind the payload.** -/
theorem load_spec (highest : UInt8) (s : State) (mem : Int → UInt8) (len : UInt8) :
    (s.load highest mem len).Holds mem (headerSize + len.toNat) (s.sent highest len) := by
  have h0 : Load.Holds mem (headerSize + len.toNat) [] { mem } :=
    ⟨rfl, rfl, fun _ _ => rfl, nofun⟩
  exact foldl_turn getFooter_eq _ h0

theorem sent_length_le (highest : UInt8) (s : State) (len : UInt8) :
    (s.sent highest len).length ≤ maxEntries highest len :=
  List.length_take_le _ _

/-! ## Reading a frame back -/

/-- The entries a frame's header announces. -/
def Frame.numEntries (f : Frame) : Nat := (numEntriesFlag &&& f.mem 0).toNat

theorem Frame.numEntries_le (f : Frame) : f.numEntries ≤ 15 := by
  unfold Frame.numEntries
  rw [UInt8.toNat_and]
  exact Nat.and_le_left

/-- The entries as `processReceivedMessage` reads them. -/
def Frame.entries (f : Frame) : List NeighborStatEntry :=
  (footers f.len f.numEntries).map (entryAt f.mem)

theorem payloadLength_toNat (f : Frame) : ((payloadLength f).val f.mem).toNat =
    (f.len.toNat + 256 - (headerSize + footerSize * f.numEntries)) % 256 := by
  have hn := f.numEntries_le
  have hlen := f.len.toNat_lt
  simp only [payloadLength, Probe.val_bind, Probe.val_read, Probe.val_pure, headerSize, footerSize,
    UInt8.toNat_sub, UInt8.toNat_mul, UInt8.toNat_ofNat']
  unfold Frame.numEntries at hn ⊢
  omega

/-- What a frame with the bytes `mem` and the length `len` gives back. -/
structure Frame.GivesBack (f : Frame) (highest : UInt8) (mem : Int → UInt8) (len : UInt8)
    (entries : List NeighborStatEntry) : Prop where
  fits : f.len ≤ highest
  length : (payloadLength f).val f.mem = len
  start : getPayload highest len = some headerSize
  payload : ∀ i : Nat, i < len.toNat → f.mem (headerSize + i) = mem (headerSize + i)
  entries : f.entries = entries

/-- The accesses to a broadcast frame stay inside its payload, and so does the upper payload. -/
structure Frame.Safe (w : IntWidth) (myLlAddr : UInt16) (t : NeighborTable) (f : Frame) : Prop where
  process : Probe.Within 0 f.len.toNat (processReceivedMessage w myLlAddr t f) f.mem
  header : Probe.Within 0 f.len.toNat (payloadLength f) f.mem
  upper : (payloadLength f).val f.mem ≤ f.len

theorem store_header {mem : Int → UInt8} {x : Int} (h : 2 ≤ x) (a b : UInt8) :
    store (store mem 1 a) 0 b x = mem x := by
  rw [store_of_ne (by omega), store_of_ne (by omega)]

theorem addLink_flags (highest : UInt8) (s : State) (mem : Int → UInt8) (len : UInt8) :
    (s.addLinkEstHeaderAndFooter highest mem len).1 0 =
      numEntriesFlag &&& UInt8.ofNat (s.load highest mem len).j := by
  unfold State.addLinkEstHeaderAndFooter
  dsimp only
  rw [store_self]

theorem givesBack (highest : UInt8) (s : State) (mem : Int → UInt8) {len : UInt8}
    (hfit : len.toNat + headerSize ≤ highest.toNat) (source destination : UInt16) :
    (s.load highest mem len).wild = false ∧
    Frame.GivesBack
      ⟨source, destination, (s.addLinkEstHeaderAndFooter highest mem len).1,
        (s.addLinkEstHeaderAndFooter highest mem len).2.1⟩
      highest mem len (s.sent highest len) := by
  have hload := load_spec highest s mem len
  have hmax := sent_length_le highest s len
  have hlt := highest.toNat_lt
  have hentries : maxEntries highest len ≤ 15 := Nat.min_le_right _ _
  have hroom : headerSize + len.toNat + footerSize * (s.sent highest len).length ≤
      highest.toNat := by
    have hdiv : maxEntries highest len ≤ (highest.toNat - len.toNat - headerSize) / footerSize :=
      Nat.min_le_left _ _
    simp only [headerSize, footerSize] at *
    omega
  generalize hf : (⟨source, destination, (s.addLinkEstHeaderAndFooter highest mem len).1,
    (s.addLinkEstHeaderAndFooter highest mem len).2.1⟩ : Frame) = f
  have hmem : ∀ x, 2 ≤ x → f.mem x = (s.load highest mem len).mem x := by
    subst hf
    intro x hx
    exact store_header hx _ _
  have hlen : f.len.toNat = headerSize + len.toNat + footerSize * (s.sent highest len).length := by
    subst hf
    change (UInt8.ofNat
      (headerSize + len.toNat + (s.load highest mem len).j * footerSize)).toNat = _
    rw [hload.count, UInt8.toNat_ofNat']
    simp only [headerSize, footerSize] at *
    omega
  have hnum : f.numEntries = (s.sent highest len).length := by
    have hflags : f.mem 0 = numEntriesFlag &&& UInt8.ofNat (s.load highest mem len).j := by
      subst hf
      exact addLink_flags highest s mem len
    rw [Frame.numEntries, hflags, ← UInt8.and_assoc, UInt8.and_self, hload.count, UInt8.and_comm,
      UInt8.toNat_and, UInt8.toNat_ofNat',
      Nat.mod_eq_of_lt (by omega)]
    have hmask : numEntriesFlag.toNat = 2 ^ 4 - 1 := rfl
    rw [hmask, Nat.and_two_pow_sub_one_eq_mod]
    exact Nat.mod_eq_of_lt (by omega)
  refine ⟨hload.tame, ?_, ?_, ?_, ?_, ?_⟩
  · rw [UInt8.le_iff_toNat_le, hlen]
    exact hroom
  · apply UInt8.toNat_inj.1
    rw [payloadLength_toNat, hlen, hnum]
    have := len.toNat_lt
    simp only [headerSize, footerSize] at *
    omega
  · have hadd : (len + UInt8.ofNat headerSize).toNat = len.toNat + 2 := by
      simp only [UInt8.toNat_add, headerSize, UInt8.toNat_ofNat'] at *
      omega
    have hle : len + UInt8.ofNat headerSize ≤ highest := by
      rw [UInt8.le_iff_toNat_le, hadd]
      exact hfit
    rw [getPayload, subGetPayload, if_pos hle]
    rfl
  · intro i hi
    rw [hmem _ (by simp only [headerSize]; omega), hload.below _ (by omega)]
  · rw [Frame.entries, footers, hnum]
    apply List.ext_getElem?
    intro i
    rw [List.getElem?_map, List.getElem?_map]
    by_cases hi : i < (s.sent highest len).length
    · have hget := List.getElem?_eq_getElem hi
      rw [List.getElem?_range hi, hget]
      simp only [Option.map_some, Option.some.injEq]
      have hat : ((f.len.toNat : Int) - (s.sent highest len).length * footerSize + footerSize * i) =
          headerSize + len.toNat + footerSize * i := by
        rw [hlen]
        simp only [headerSize, footerSize]
        omega
      rw [hat, ← hload.entries i _ hget]
      apply entryAt_congr <;> exact hmem _ (by simp only [headerSize, footerSize]; omega)
    · rw [List.getElem?_eq_none (by simpa using hi), List.getElem?_eq_none (by simpa using hi)]
      rfl

/-! ## Reading any frame -/

variable {w : IntWidth} {myLlAddr : UInt16} {t : NeighborTable} {f : Frame}

theorem within_readEntry {hi : Int} {llAddr : UInt16} {mem : Int → UInt8} (t : NeighborTable)
    {a : Int} (h0 : 0 ≤ a) (ha : a + 2 < hi) :
    Probe.Within 0 hi (readEntry myLlAddr llAddr t a) mem := by
  unfold readEntry readAddr
  rw [Probe.within_bind, Probe.within_bind, Probe.within_bind]
  refine ⟨⟨Probe.within_read.2 ⟨by omega, by omega⟩, Probe.within_read.2 ⟨by omega, by omega⟩,
    Probe.within_pure _⟩, ?_⟩
  split
  · rw [Probe.within_bind]
    exact ⟨Probe.within_read.2 ⟨by omega, by omega⟩, Probe.within_pure _⟩
  · exact Probe.within_pure _

theorem within_hearSender {hi : Int} (h : 2 ≤ hi) (t : NeighborTable) (llAddr : UInt16)
    (mem : Int → UInt8) : Probe.Within 0 hi (hearSender w t llAddr) mem := by
  have hread : Probe.Within 0 hi (Probe.read 1) mem := Probe.within_read.2 ⟨by omega, by omega⟩
  unfold hearSender
  split
  · rw [Probe.within_bind]
    exact ⟨hread, Probe.within_pure _⟩
  · split
    · rw [Probe.within_bind]
      exact ⟨hread, Probe.within_pure _⟩
    · split <;> exact Probe.within_pure _

/-- A frame whose entries lie behind its header is read inside its payload. -/
theorem within_process (h : headerSize + footerSize * f.numEntries ≤ f.len.toNat) :
    Probe.Within 0 f.len.toNat (processReceivedMessage w myLlAddr t f) f.mem := by
  simp only [headerSize, footerSize] at h
  unfold processReceivedMessage
  split
  · rw [Probe.within_bind, Probe.within_bind]
    refine ⟨Probe.within_read.2 ⟨by omega, by omega⟩, within_hearSender (by omega) _ _ _, ?_⟩
    split
    split
    · rw [Probe.within_bind]
      refine ⟨Probe.within_foldlM _ ?_, Probe.within_pure _⟩
      intro t' a ha
      obtain ⟨i, hi, rfl⟩ := List.mem_map.1 ha
      have hi := List.mem_range.1 hi
      have hn : (f.mem 0 &&& numEntriesFlag).toNat = f.numEntries := by
        rw [UInt8.and_comm]
        rfl
      rw [Probe.val_read, hn] at hi ⊢
      apply within_readEntry <;> simp only [footerSize] <;> omega
    · exact Probe.within_pure _
  · exact Probe.within_pure _

theorem safe_iff : f.Safe w myLlAddr t ↔ headerSize + footerSize * f.numEntries ≤ f.len.toNat := by
  have hlen := payloadLength_toNat f
  have hn := f.numEntries_le
  have hlt := f.len.toNat_lt
  constructor
  · intro h
    have hup := UInt8.le_iff_toNat_le.1 h.upper
    rw [hlen] at hup
    simp only [headerSize, footerSize] at *
    omega
  · intro h
    refine ⟨within_process h, ?_, ?_⟩
    · unfold payloadLength
      rw [Probe.within_bind]
      simp only [headerSize] at h
      exact ⟨Probe.within_read.2 ⟨by omega, by omega⟩, Probe.within_pure _⟩
    · rw [UInt8.le_iff_toNat_le, hlen]
      simp only [headerSize, footerSize] at *
      omega

/-- **Encapsulation.** A broadcast frame built from a payload that fits is no longer than the most
the layer below takes, and gives back the payload and the entries written behind it. A received
broadcast frame is read inside its payload and gives an upper payload no longer than it exactly if
the entries that its header announces lie behind the header. -/
theorem encapsulation (w : IntWidth) :
    (∀ (highest : UInt8) (s : State) (mem : Int → UInt8) (len : UInt8) (source : UInt16),
      len.toNat + headerSize ≤ highest.toNat →
      (s.load highest mem len).wild = false ∧
      Frame.GivesBack
        ⟨source, amBroadcastAddr, (s.addLinkEstHeaderAndFooter highest mem len).1,
          (s.addLinkEstHeaderAndFooter highest mem len).2.1⟩
        highest mem len (s.sent highest len)) ∧
    ∀ (myLlAddr : UInt16) (t : NeighborTable) (f : Frame), f.destination = amBroadcastAddr →
      (f.Safe w myLlAddr t ↔ headerSize + footerSize * f.numEntries ≤ f.len.toNat) :=
  ⟨fun highest s mem _ source hfit => givesBack highest s mem hfit source amBroadcastAddr,
    fun _ _ _ _ => safe_iff⟩

/-- A table with a mature entry for neighbor 7. -/
def exampleState : State :=
  { neighborTable := { llAddr := 7, valid := true, mature := true, inquality := 200 } ::
      List.replicate 9 {} }

/-- A beacon of 5 bytes goes out as one of 10, with the entry behind it. -/
theorem encapsulation_beacon :
    (exampleState.addLinkEstHeaderAndFooter 28 (fun _ => 0) 5).2.1 = 10 ∧
    Frame.GivesBack
      ⟨3, amBroadcastAddr, (exampleState.addLinkEstHeaderAndFooter 28 (fun _ => 0) 5).1,
        (exampleState.addLinkEstHeaderAndFooter 28 (fun _ => 0) 5).2.1⟩
      28 (fun _ => 0) 5 [⟨7, 200⟩] ∧
    Frame.Safe .bits16 1 .init ⟨3, amBroadcastAddr, fun _ => 0, 2⟩ := by
  obtain ⟨hback, hsafe⟩ := encapsulation .bits16
  have hsent : exampleState.sent 28 5 = [⟨7, 200⟩] := by decide
  refine ⟨by decide, ?_, (hsafe 1 .init _ rfl).2 (by decide)⟩
  rw [← hsent]
  exact (hback 28 exampleState (fun _ => 0) 5 3 (by decide)).2

/-- A frame of two bytes whose header announces an entry gives an upper payload of 253 bytes. -/
theorem not_encapsulation : ¬ ∀ (w : IntWidth) (myLlAddr : UInt16) (t : NeighborTable) (f : Frame),
    f.destination = amBroadcastAddr → f.Safe w myLlAddr t := by
  intro hall
  have hup := (hall .bits16 1 .init ⟨2, amBroadcastAddr, fun a => if a = 0 then 1 else 0, 2⟩
    rfl).upper
  exact absurd hup (by decide)

end LinkEstimatorP
