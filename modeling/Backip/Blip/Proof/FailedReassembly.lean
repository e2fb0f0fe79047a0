import Backip.Blip.Proof.Ownership

/-!
# Failed reassemblies

A fragment that cannot be handled marks its entry as failed, so that `get_reconstruct` refuses the
other fragments of its datagram until `ExpireTimer` has fired twice. But the entry has the source
and the tag of the datagram only if it had them before: the source is stored when a fragment is
accepted, the tag by `lowpan_recon_start` too. And without a free entry nothing is marked.

* `stays_failed`: in a run where each fragment that fails finds an entry that has its source (and
  its tag, if it is a later one), what follows of its datagram is dropped.
* `restarted`: a first fragment of a source that the entry did not have.
-/

set_option autoImplicit false

namespace Blip

open IpMalloc (Mem ipMalloc ipFree)
open Lowpan (Contexts FrameAddr Ieee154Addr Timeout)

/-! ## Fragments -/

/-- A frame with a fragmentation header, behind its link header. -/
structure Fragment where
  frame : FrameAddr
  headers : Lowpan.Headers
  tag : UInt16
  buf : List UInt8

/-- The fragment in a frame. -/
def fragmentOf (payload : List UInt8) (frame0 : FrameAddr) : Option Fragment :=
  match Lowpan.unpackIeee154Hdr payload frame0 with
  | .error _ => none
  | .ok (frame, buf) =>
    match Lowpan.getHeaderBitmap buf with
    | none => none
    | some headers =>
      if headers.frag1 || headers.fragN then
        match Lowpan.getFragDgramTag buf with
        | .error _ => none
        | .ok tag => some ⟨frame, headers, tag, buf⟩
      else none

namespace Fragment

/-- `source_key`. -/
def key (f : Fragment) : UInt16 := Reassembly.hashAddr f.frame.src

/-- The fragments are of one datagram. -/
def SameDatagram (f g : Fragment) : Prop :=
  (f.frame.src = g.frame.src ∨ Ieee154Addr.Same f.frame.src g.frame.src) ∧ f.tag = g.tag

theorem SameDatagram.key {f g : Fragment} (h : f.SameDatagram g) : f.key = g.key := by
  rcases h.1 with hsrc | hsrc
  · exact congrArg Reassembly.hashAddr hsrc
  · unfold Fragment.key
    generalize f.frame.src = a at hsrc
    generalize g.frame.src = b at hsrc
    cases hsrc with
    | short h0 h1 => simp [Reassembly.hashAddr, h0, h1]
    | ext d => rfl

end Fragment

namespace Reassembly

variable {c : Contexts} {s s' : Reassembly} {i : Fin nReconstructions} {f : Fragment}

/-- The entry was marked as failed. -/
def Failed (recon : Recon) : Prop := recon.timeout = .failed1 ∨ recon.timeout = .failed2

/-- `lowpan_recon_start` finds no block, or the headers do not unpack. -/
def startFails (c : Contexts) (mem : Mem) (f : Fragment) : Bool :=
  match Lowpan.getFragDgramSize f.buf with
  | .error _ => false
  | .ok size =>
    match ipMalloc mem size with
    | none => false
    | some (_, none) => true
    | some (_, some _) =>
      match Lowpan.reconUnpack c f.frame (List.replicate size.toNat 0)
          (f.buf.drop f.headers.len) with
      | .error .rejected => true
      | _ => false

/-- Entry `i` cannot take the fragment: a first one does not start a reassembly, a later one does
not fit. -/
def Rejects (c : Contexts) (s : Reassembly) (i : Fin nReconstructions) (f : Fragment) : Prop :=
  if f.headers.frag1 then (s.reconData i).buf = none ∧ startFails c s.mem f
  else (s.reconData i).size.toNat < ((s.reconData i).bytesRcvd.toNat +
    Lowpan.sizeSub f.buf.length f.headers.len) % 2 ^ 16

instance : Decidable (Rejects c s i f) := inferInstanceAs (Decidable (ite ..))

/-- Entry `i` has the datagram. -/
def Has (s : Reassembly) (i : Fin nReconstructions) (key tag : UInt16) : Prop :=
  (s.reconData i).timeout ≠ .unused ∧ (s.reconData i).sourceKey = key ∧ (s.reconData i).tag = tag

instance {key tag : UInt16} : Decidable (Has s i key tag) := inferInstanceAs (Decidable (_ ∧ _))

/-- The fragment fails: there is no entry for it, or the entry cannot take it. -/
def Fails (c : Contexts) (s : Reassembly) (f : Fragment) : Prop :=
  (s.find f.key f.tag = none ∧ ∀ i, ¬Has s i f.key f.tag) ∨
    ∃ i, s.find f.key f.tag = some i ∧ Rejects c s i f

instance : Decidable (Fails c s f) := inferInstanceAs (Decidable (_ ∨ _))

def Event.fragment : Event → Option Fragment
  | .receive payload _ _ frame0 _ => fragmentOf payload frame0
  | .expire => none

/-- The entry of a fragment that fails has its source, and its tag unless it is a first one. -/
def Records (c : Contexts) (s : Reassembly) (e : Event) : Prop :=
  ∀ f ∈ e.fragment, Fails c s f → ∃ i, s.find f.key f.tag = some i ∧
    (s.reconData i).sourceKey = f.key ∧ (f.headers.frag1 ∨ (s.reconData i).tag = f.tag)

instance {e : Event} : Decidable (Records c s e) :=
  inferInstanceAs (Decidable (∀ f ∈ e.fragment, _))

/-! ## What a fragment does to the entries -/

theorem receive_fragment {payload : List UInt8} {lqi rssi : UInt8} {frame0 : FrameAddr}
    {recon0 : Recon} (h : fragmentOf payload frame0 = some f) :
    s.receive c payload lqi rssi frame0 recon0 =
      match s.getReconstruct f.key f.tag with
      | (none, s) => .ok s
      | (some i, s) => receiveFragment c s i f.frame f.headers f.key f.tag f.buf lqi rssi := by
  unfold fragmentOf at h
  unfold receive
  cases hhdr : Lowpan.unpackIeee154Hdr payload frame0 with
  | error e =>
    rw [hhdr] at h
    cases h
  | ok r =>
    obtain ⟨frame, buf⟩ := r
    rw [hhdr] at h
    dsimp only at h
    rw [Buffer.ok_bind]
    cases hh : Lowpan.getHeaderBitmap buf with
    | none =>
      rw [hh] at h
      cases h
    | some headers =>
      rw [hh] at h
      dsimp only at h ⊢
      rw [hh]
      dsimp only
      split at h
      · rename_i hfrag
        split at h
        · cases h
        · rename_i tag htag
          cases h
          rw [if_pos hfrag, htag]
          rfl
      · cases h

/-- Another frame leaves the entries as they are. -/
theorem receive_other {payload : List UInt8} {lqi rssi : UInt8} {frame0 : FrameAddr}
    {recon0 : Recon} (h : fragmentOf payload frame0 = none)
    (hok : s.receive c payload lqi rssi frame0 recon0 = .ok s') : s'.reconData = s.reconData := by
  unfold fragmentOf at h
  simp only [receive, Buffer.bind_eq_ok] at hok
  obtain ⟨⟨frame, buf⟩, hhdr, hok⟩ := hok
  rw [hhdr] at h
  dsimp only at h hok
  split at hok
  · cases hok
    rfl
  · rename_i headers hh
    rw [hh] at h
    dsimp only at h
    split at hok
    · rename_i hfrag
      rw [if_pos hfrag] at h
      obtain ⟨tag, htag, hok⟩ := Buffer.bind_eq_ok.1 hok
      rw [htag] at h
      cases h
    · simp only [receiveWhole, Buffer.bind_eq_ok] at hok
      obtain ⟨⟨rv, mem, recon, calls⟩, -, hok⟩ := hok
      dsimp only at hok
      split at hok
      · cases hok
        rfl
      · split at hok
        · obtain ⟨⟨packet, mem', recon', calls'⟩, -, hok⟩ := Buffer.bind_eq_ok.1 hok
          cases hok
          rfl
        · split at hok
          · cases hok
            rfl
          · obtain ⟨mem', -, hok⟩ := Buffer.bind_eq_ok.1 hok
            cases hok
            rfl

theorem of_fragmentOf {payload : List UInt8} {frame0 : FrameAddr}
    (h : fragmentOf payload frame0 = some f) : Lowpan.getHeaderBitmap f.buf = some f.headers ∧
      (f.headers.frag1 || f.headers.fragN) = true ∧ Lowpan.getFragDgramTag f.buf = .ok f.tag := by
  unfold fragmentOf at h
  split at h
  · cases h
  · split at h
    · cases h
    · rename_i headers hh
      split at h
      · rename_i hfrag
        split at h
        · cases h
        · rename_i tag htag
          cases h
          exact ⟨hh, hfrag, htag⟩
      · cases h

variable {mem mem' : Mem} {recon recon' : Recon} {others : List Nat} {calls : List Call} {rv : Int}

/-- `lowpan_recon_start` writes the tag of the fragment, and not its source. -/
theorem start_entry (hh : Lowpan.getHeaderBitmap f.buf = some f.headers)
    (hf : f.headers.frag1 = true) (htag : Lowpan.getFragDgramTag f.buf = .ok f.tag)
    (h : lowpanReconStart c mem others f.frame recon f.buf = .ok (rv, mem', recon', calls)) :
    recon'.sourceKey = recon.sourceKey ∧ recon'.tag = f.tag ∧
      (rv < 0 ↔ startFails c mem f = true) := by
  obtain ⟨size, hsize⟩ := fragDgramSize_of_tag htag
  cases hm : ipMalloc mem size with
  | none =>
    simp only [lowpanReconStart, hh, hf, if_true, htag, hsize, Buffer.ok_bind, hm, ended] at h
    cases h
  | some r =>
    obtain ⟨m, buf⟩ := r
    rw [start_of_frag1 hh hf htag hsize hm] at h
    simp only [startFails, hsize, hm]
    cases buf with
    | none =>
      cases h
      exact ⟨rfl, rfl, iff_of_true (by decide) rfl⟩
    | some p =>
      dsimp only at h ⊢
      rcases unpacks_of_ok h with hun | href
      · obtain ⟨rbuf, stop, size', hok, -⟩ := reconUnpackAt_of_unpacks m p others
          { recon with tag := f.tag, size := size, buf := some p } hun
        obtain ⟨u, -, hu, -⟩ := hun
        rw [hok] at h
        cases h
        dsimp only at hu
        rw [hu]
        exact ⟨rfl, rfl, iff_of_false (by decide) Bool.false_ne_true⟩
      · have hfree : ∃ mem2, ipFree m p = some mem2 := by
          cases hfm : ipFree m p with
          | some mem2 => exact ⟨mem2, rfl⟩
          | none =>
            have href' := href
            rw [Refused] at href'
            simp only [reconUnpackAt, href', hfm, ended] at h
            cases h
        obtain ⟨mem2, hfm⟩ := hfree
        rw [reconUnpackAt_of_refused others _ href hfm] at h
        cases h
        rw [Refused] at href
        dsimp only at href
        rw [href]
        exact ⟨rfl, rfl, iff_of_true (by decide) rfl⟩

/-- `lowpan_recon_add` writes neither. -/
theorem add_entry {headers : Lowpan.Headers} {pkt : List UInt8}
    (hh : Lowpan.getHeaderBitmap pkt = some headers) (hfn : headers.fragN = true)
    (h : lowpanReconAdd mem recon pkt = .ok (rv, mem', recon')) :
    recon'.sourceKey = recon.sourceKey ∧ recon'.tag = recon.tag ∧
      (rv < 0 ↔ recon.size.toNat <
        (recon.bytesRcvd.toNat + Lowpan.sizeSub pkt.length headers.len) % 2 ^ 16) := by
  unfold lowpanReconAdd at h
  simp only [hh, hfn, Bool.not_true, Bool.false_eq_true, if_false] at h
  split at h
  · rename_i hlt
    cases h
    exact ⟨rfl, rfl, iff_of_true (by decide) hlt⟩
  · rename_i hle
    obtain ⟨⟨payload, rest⟩, -, h⟩ := Buffer.bind_eq_ok.1 h
    dsimp only at h
    split at h
    · obtain ⟨rbuf, -, h⟩ := Buffer.bind_eq_ok.1 h
      cases h
      exact ⟨rfl, rfl, iff_of_false (by decide) hle⟩
    · split at h
      · cases h
        exact ⟨rfl, rfl, iff_of_false (by decide) hle⟩
      · cases h

theorem complete_entry (h : s.complete i recon = .ok s') :
    (∀ j, j ≠ i → s'.reconData j = s.reconData j) ∧
      (s'.reconData i).sourceKey = recon.sourceKey ∧ (s'.reconData i).tag = recon.tag ∧
      ((s'.reconData i).timeout = recon.timeout ∨ (s'.reconData i).timeout = .unused) := by
  unfold Reassembly.complete at h
  split at h
  · obtain ⟨⟨packet, mem, recon', calls⟩, hd, hok⟩ := Buffer.bind_eq_ok.1 h
    cases hok
    unfold deliver at hd
    split at hd
    · cases hd
    · obtain ⟨mem', -, hd⟩ := Buffer.bind_eq_ok.1 hd
      cases hd
      exact ⟨fun j hj => set_other hj, by simp [Reassembly.set]⟩
  · cases h
    refine ⟨fun j hj => set_other hj, ?_⟩
    rw [set_same]
    exact ⟨rfl, rfl, .inl rfl⟩

/-- What entry `i` has after a fragment that it was found for. -/
structure Entered (c : Contexts) (s : Reassembly) (i : Fin nReconstructions) (f : Fragment)
    (recon : Recon) : Prop where
  failed : Rejects c s i f → recon.timeout = .failed1 ∧
    recon.sourceKey = (s.reconData i).sourceKey ∧
    (recon.tag = if f.headers.frag1 then f.tag else (s.reconData i).tag)
  kept : ¬Rejects c s i f → recon.timeout ≠ .failed1 ∧ recon.timeout ≠ .failed2 ∧
    (recon.timeout = .unused ∨ recon.sourceKey = f.key ∧ recon.tag = f.tag)

/-- The fragment of an entry that is in use for its datagram, or not in use. -/
theorem receiveFragment_entry {lqi rssi : UInt8}
    (hh : Lowpan.getHeaderBitmap f.buf = some f.headers)
    (hfrag : (f.headers.frag1 || f.headers.fragN) = true)
    (htag : Lowpan.getFragDgramTag f.buf = .ok f.tag)
    (hi : (s.reconData i).timeout = .unused ∨ (s.reconData i).timeout = .active ∧
      (s.reconData i).sourceKey = f.key ∧ (s.reconData i).tag = f.tag)
    (h : receiveFragment c s i f.frame f.headers f.key f.tag f.buf lqi rssi = .ok s') :
    (∀ j, j ≠ i → s'.reconData j = s.reconData j) ∧ Entered c s i f (s'.reconData i) := by
  unfold receiveFragment at h
  dsimp only at h
  split at h
  · rename_i hdup
    simp only [Bool.and_eq_true, Option.isSome_iff_ne_none] at hdup
    cases h
    refine ⟨fun j hj => set_other hj, ?_⟩
    rw [set_same]
    refine ⟨fun hrej => ?_, fun _ => ?_⟩
    · rw [Rejects, if_pos hdup.1] at hrej
      exact absurd hrej.1 hdup.2
    · rcases hi with hi | ⟨hi, hkey, htag⟩
      · exact ⟨by simp [hi], by simp [hi], .inl hi⟩
      · exact ⟨by simp [hi], by simp [hi], .inr ⟨hkey, htag⟩⟩
  · rename_i hnew
    -- what the two functions have in common
    have hrv : ∃ (rv : Int) (mem : Mem) (recon : Recon) (calls : List Call), (rv < 0 ↔ Rejects c s i f) ∧
        recon.sourceKey = (s.reconData i).sourceKey ∧
        (recon.tag = if f.headers.frag1 then f.tag else (s.reconData i).tag) ∧
        (if rv < 0 then
          Except.ok ({ s with mem := mem, calls := calls ++ s.calls }.set i
            { recon with timeout := .failed1 })
        else { s with mem := mem, calls := calls ++ s.calls }.complete i
          { recon with timeout := .active, sourceKey := f.key, tag := f.tag }) =
        Except.ok s' := by
      cases hf1 : f.headers.frag1 with
      | true =>
        have hnone : (s.reconData i).buf = none := by simpa [hf1] using hnew
        rw [hf1, if_pos rfl] at h
        obtain ⟨⟨rv, mem, recon, calls⟩, hstart, h⟩ := Buffer.bind_eq_ok.1 h
        obtain ⟨hkey, htag', hiff⟩ := start_entry hh hf1 htag hstart
        refine ⟨rv, mem, recon, calls, ?_, hkey, htag', h⟩
        rw [hiff, Rejects, if_pos hf1]
        exact (and_iff_right hnone).symm
      | false =>
        have hfn : f.headers.fragN = true := by simpa [hf1] using hfrag
        rw [hf1, if_neg (by simp)] at h
        obtain ⟨⟨rv, mem, recon⟩, hadd, h⟩ := Buffer.bind_eq_ok.1 h
        obtain ⟨hkey, htag', hiff⟩ := add_entry hh hfn hadd
        refine ⟨rv, mem, recon, _, ?_, hkey, htag', h⟩
        rw [hiff, Rejects, if_neg (by simp [hf1])]
    obtain ⟨rv, mem, recon, calls, hiff, hkey, htag', h⟩ := hrv
    split at h
    · rename_i hneg
      cases h
      refine ⟨fun j hj => set_other hj, ?_⟩
      rw [set_same]
      exact ⟨fun _ => ⟨rfl, hkey, htag'⟩, fun hnot => absurd (hiff.1 hneg) hnot⟩
    · rename_i hpos
      obtain ⟨hsame, hkey', htag', htime⟩ := complete_entry h
      refine ⟨hsame, fun hrej => absurd (hiff.2 hrej) hpos, fun _ => ?_⟩
      dsimp only at hkey' htag' htime
      refine ⟨?_, ?_, .inr ⟨hkey', htag'⟩⟩
      · rcases htime with ht | ht <;> simp [ht]
      · rcases htime with ht | ht <;> simp [ht]

/-! ## The entry of a datagram -/

variable {key tag : UInt16}

theorem find_some (h : s.find key tag = some i) :
    ((s.reconData i).timeout = .active ∨ (s.reconData i).timeout = .zombie) ∧ Has s i key tag ∨
      (s.reconData i).timeout = .unused ∧ ∀ j, ¬Has s j key tag := by
  rcases getLoop_some h (by simp) with ⟨ht, hkey, htag⟩ | ⟨ht, hall⟩
  · exact .inl ⟨ht, fun hun => by rw [hun] at ht; simp at ht, hkey, htag⟩
  · exact .inr ⟨ht, fun j hj => hj.1 (hall j (List.mem_finRange j) hj.2.1 hj.2.2)⟩

/-- The entry of a failed datagram is not found. -/
theorem getLoop_failed {data : Fin nReconstructions → Recon} {is : List (Fin nReconstructions)}
    {ret : Option (Fin nReconstructions)} (hi : i ∈ is) (hfailed : Failed (data i))
    (hkey : (data i).sourceKey = key) (htag : (data i).tag = tag)
    (hsole : ∀ j ∈ is, (data j).timeout ≠ .unused → (data j).sourceKey = key →
      (data j).tag = tag → j = i) :
    getLoop data key tag is ret = none := by
  induction is generalizing ret with
  | nil => cases hi
  | cons j is ih =>
    have hnot : ¬((data j).tag = tag ∧ (data j).sourceKey = key ∧
        ((data j).timeout = .active ∨ (data j).timeout = .zombie)) := by
      rintro ⟨ht, hk, hu⟩
      obtain rfl := hsole j (.head _) (by rcases hu with hu | hu <;> simp [hu]) hk ht
      rcases hfailed with hf | hf <;> simp [hf] at hu
    rw [getLoop, if_neg hnot]
    by_cases hj : j = i
    · subst hj
      exact if_pos ⟨htag, hkey, hfailed⟩
    · rw [if_neg]
      · exact ih ((List.mem_cons.1 hi).resolve_left (Ne.symm hj)) fun k hk => hsole k (.tail _ hk)
      · rintro ⟨ht, hk, hu⟩
        exact hj (hsole j (.head _) (by rcases hu with hu | hu <;> simp [hu]) hk ht)

/-! ## What a step does to the entries -/

theorem rejects_set {recon : Recon} (hbuf : recon.buf = (s.reconData i).buf)
    (hsize : recon.size = (s.reconData i).size)
    (hrcvd : recon.bytesRcvd = (s.reconData i).bytesRcvd) :
    Rejects c (s.set i recon) i f ↔ Rejects c s i f := by
  rw [Rejects, Rejects, set_same, hbuf, hsize, hrcvd]
  rfl

theorem receive_entry {payload : List UInt8} {lqi rssi : UInt8} {frame0 : FrameAddr}
    {recon0 : Recon} (hf : fragmentOf payload frame0 = some f) (hi : s.find f.key f.tag = some i)
    (h : s.receive c payload lqi rssi frame0 recon0 = .ok s') :
    (∀ j, j ≠ i → s'.reconData j = s.reconData j) ∧ Entered c s i f (s'.reconData i) := by
  obtain ⟨hh, hfrag, htag⟩ := of_fragmentOf hf
  rw [receive_fragment hf, getReconstruct_of_some hi] at h
  dsimp only at h
  rcases find_some hi with ⟨-, hne, hkey, htag'⟩ | ⟨hun, -⟩
  · rw [if_neg hne] at h
    obtain ⟨hother, hent⟩ := receiveFragment_entry hh hfrag htag
      (.inr (by rw [set_same]; exact ⟨rfl, hkey, htag'⟩)) h
    have hiff : Rejects c (s.set i { s.reconData i with timeout := .active }) i f ↔
        Rejects c s i f := rejects_set rfl rfl rfl
    refine ⟨fun j hj => (hother j hj).trans (set_other hj), fun hrej => ?_, fun hnot => ?_⟩
    · have := hent.failed (hiff.2 hrej)
      rwa [set_same] at this
    · exact hent.kept (mt hiff.1 hnot)
  · rw [if_pos hun] at h
    exact receiveFragment_entry hh hfrag htag (.inl hun) h

/-- `reconstruct_age`. -/
def aged : Timeout → Timeout
  | .active => .zombie
  | .failed1 => .failed2
  | _ => .unused

/-- The entry was aged once. -/
def Aged (recon recon' : Recon) : Prop :=
  recon'.timeout = aged recon.timeout ∧ recon'.sourceKey = recon.sourceKey ∧
    recon'.tag = recon.tag

theorem age_entry (h : reconstructAge s i = .ok s') :
    (∀ j, j ≠ i → s'.reconData j = s.reconData j) ∧ Aged (s.reconData i) (s'.reconData i) := by
  unfold Aged
  cases ht : (s.reconData i).timeout with
  | active | failed1 =>
    simp only [reconstructAge, ht] at h
    cases h
    refine ⟨fun j hj => set_other hj, ?_⟩
    rw [set_same]
    exact ⟨rfl, rfl, rfl⟩
  | unused =>
    simp only [reconstructAge, ht] at h
    cases h
    exact ⟨fun j _ => rfl, ht, rfl, rfl⟩
  | zombie | failed2 =>
    simp only [reconstructAge, ht] at h
    split at h
    · cases h
      refine ⟨fun j hj => set_other hj, ?_⟩
      rw [set_same]
      exact ⟨rfl, rfl, rfl⟩
    · obtain ⟨mem', -, h⟩ := Buffer.bind_eq_ok.1 h
      cases h
      exact ⟨fun j hj => set_other hj, by simp [Reassembly.set, aged]⟩

theorem foldlM_age {is : List (Fin nReconstructions)} (hnd : is.Nodup)
    (h : is.foldlM reconstructAge s = .ok s') :
    (∀ j, j ∉ is → s'.reconData j = s.reconData j) ∧
      ∀ j ∈ is, Aged (s.reconData j) (s'.reconData j) := by
  induction is generalizing s with
  | nil =>
    cases h
    exact ⟨fun _ _ => rfl, by simp⟩
  | cons i is ih =>
    obtain ⟨hi, hnd⟩ := List.nodup_cons.1 hnd
    rw [List.foldlM_cons] at h
    obtain ⟨s1, h1, h⟩ := Buffer.bind_eq_ok.1 h
    obtain ⟨hother, hage⟩ := age_entry h1
    obtain ⟨hout, hin⟩ := ih hnd h
    refine ⟨fun j hj => ?_, List.forall_mem_cons.2 ⟨?_, fun j hj => ?_⟩⟩
    · rw [hout j (List.not_mem_of_not_mem_cons hj), hother j (List.ne_of_not_mem_cons hj)]
    · rw [hout i hi]
      exact hage
    · rw [← hother j fun he => hi (he ▸ hj)]
      exact hin j hj

/-- What a step does to the entries. -/
inductive Change (c : Contexts) (s s' : Reassembly) (e : Event) : Prop
  | fault (hfault : s'.fault = true) (hsame : s'.reconData = s.reconData)
  | expire (he : e = .expire) (h : ∀ i, Aged (s.reconData i) (s'.reconData i))
  | other (he : e ≠ .expire) (hf : e.fragment = none) (hsame : s'.reconData = s.reconData)
  | dropped (he : e ≠ .expire) (f : Fragment) (hf : e.fragment = some f)
      (hi : s.find f.key f.tag = none) (hsame : s' = s)
  | entered (he : e ≠ .expire) (f : Fragment) (hf : e.fragment = some f)
      (i : Fin nReconstructions) (hi : s.find f.key f.tag = some i)
      (hother : ∀ j, j ≠ i → s'.reconData j = s.reconData j)
      (hent : Entered c s i f (s'.reconData i))

theorem step_change {e : Event} (h : step c s e = some s') : s.fault = false ∧ Change c s s' e := by
  unfold Reassembly.step at h
  split at h
  · cases h
  · rename_i hfault
    refine ⟨by simpa using hfault, ?_⟩
    cases e with
    | expire =>
      dsimp only at h
      cases hx : s.expire with
      | error x =>
        rw [hx] at h
        cases h
        exact .fault rfl rfl
      | ok s1 =>
        rw [hx] at h
        cases h
        exact .expire rfl fun i =>
          (foldlM_age (List.nodup_finRange _) hx).2 i (List.mem_finRange i)
    | receive payload lqi rssi frame0 recon0 =>
      dsimp only at h
      split at h
      · cases hx : s.receive c payload lqi rssi frame0 recon0 with
        | error x =>
          rw [hx] at h
          cases h
          exact .fault rfl rfl
        | ok s1 =>
          rw [hx] at h
          cases h
          cases hf : fragmentOf payload frame0 with
          | none => exact .other nofun hf (receive_other hf hx)
          | some f =>
            cases hi : s.find f.key f.tag with
            | none =>
              rw [receive_fragment hf, getReconstruct_of_none hi] at hx
              cases hx
              exact .dropped nofun f hf hi rfl
            | some i =>
              obtain ⟨hother, hent⟩ := receive_entry hf hi hx
              exact .entered nofun f hf i hi hother hent
      · cases h

/-! ## The invariants -/

/-- No two entries have one datagram. -/
def Unique (s : Reassembly) : Prop := ∀ i j key tag, Has s i key tag → Has s j key tag → i = j

/-- The datagram was marked as failed, and the entry was aged `n` times since. -/
def Marked (s : Reassembly) (key tag : UInt16) (n : Nat) : Prop :=
  ∃ i, (s.reconData i).sourceKey = key ∧ (s.reconData i).tag = tag ∧
    (s.reconData i).timeout = if n = 0 then .failed1 else .failed2

theorem has_congr {j : Fin nReconstructions} (h : s'.reconData j = s.reconData j) :
    Has s' j key tag ↔ Has s j key tag := by
  rw [Has, Has, h]

theorem Aged.has (h : Aged (s.reconData i) (s'.reconData i)) (hs : Has s' i key tag) :
    Has s i key tag := by
  refine ⟨fun hun => hs.1 ?_, h.2.1 ▸ hs.2.1, h.2.2 ▸ hs.2.2⟩
  rw [h.1, hun]
  rfl

/-- Where the failures are recorded, an entry has the datagram of the fragment that it was found
for. -/
theorem Entered.has {e : Event} (hrec : Records c s e) (hf : e.fragment = some f)
    (hi : s.find f.key f.tag = some i) (h : Entered c s i f (s'.reconData i))
    (hs : Has s' i key tag) : key = f.key ∧ tag = f.tag := by
  obtain ⟨hun, rfl, rfl⟩ := hs
  by_cases hrej : Rejects c s i f
  · obtain ⟨-, hkey, htag⟩ := h.failed hrej
    obtain ⟨i', hi', hkey', htag'⟩ := hrec f hf (.inr ⟨i, hi, hrej⟩)
    obtain rfl := Option.some.inj (hi.symm.trans hi')
    refine ⟨hkey.trans hkey', htag.trans ?_⟩
    split
    · rfl
    · rename_i hf1
      exact htag'.resolve_left hf1
  · exact (h.kept hrej).2.2.resolve_left hun

theorem Unique.step {e : Event} (h : Unique s) (hrec : Records c s e) (hs : Change c s s' e) :
    Unique s' := by
  intro i j key tag hi hj
  cases hs with
  | fault _ hsame =>
    exact h i j key tag ((has_congr (congrFun hsame i)).1 hi) ((has_congr (congrFun hsame j)).1 hj)
  | expire _ hage => exact h i j key tag ((hage i).has hi) ((hage j).has hj)
  | other _ _ hsame =>
    exact h i j key tag ((has_congr (congrFun hsame i)).1 hi) ((has_congr (congrFun hsame j)).1 hj)
  | dropped _ f hf hd hsame =>
    subst hsame
    exact h i j key tag hi hj
  | entered _ f hf k hk hother hent =>
    -- the entry the fragment was found for, and another one with its datagram
    have hsole {j : Fin nReconstructions} (hne : j ≠ k) (hk' : Has s' k key tag)
        (hj : Has s' j key tag) : False := by
      obtain ⟨rfl, rfl⟩ := hent.has hrec hf hk hk'
      have hj' := (has_congr (hother j hne)).1 hj
      rcases find_some hk with ⟨-, hold⟩ | ⟨-, hnone⟩
      · exact hne (h j k _ _ hj' hold)
      · exact hnone j hj'
    by_cases hik : i = k
    · subst hik
      by_contra hne
      exact hsole (Ne.symm hne) hi hj
    · by_cases hjk : j = k
      · subst hjk
        exact (hsole hik hj hi).elim
      · exact h i j key tag ((has_congr (hother i hik)).1 hi) ((has_congr (hother j hjk)).1 hj)

/-- `ExpireTimer.fired`. -/
def Event.expired : Event → Bool
  | .receive .. => false
  | .expire => true

theorem Event.expired_of_ne {e : Event} (h : e ≠ .expire) : e.expired = false := by
  cases e with
  | receive => rfl
  | expire => exact absurd rfl h

/-- A mark is kept until it was aged twice. -/
theorem Marked.step {e : Event} {n : Nat} (h : Marked s key tag n) (hs : Change c s s' e)
    (hok : s'.fault = false) (hn : n + e.expired.toNat < 2) :
    Marked s' key tag (n + e.expired.toNat) := by
  obtain ⟨i, hkey, htag, htime⟩ := h
  cases hs with
  | fault hfault =>
    rw [hfault] at hok
    cases hok
  | expire he hage =>
    subst he
    obtain ⟨ht, hk, hg⟩ := hage i
    obtain rfl : n = 0 := by
      simp only [Event.expired, Bool.toNat_true] at hn
      omega
    refine ⟨i, hk.trans hkey, hg.trans htag, ?_⟩
    rw [ht, htime]
    rfl
  | other he _ hsame =>
    rw [Event.expired_of_ne he]
    exact ⟨i, by rw [hsame]; exact ⟨hkey, htag, htime⟩⟩
  | dropped he f hf hi hsame =>
    rw [Event.expired_of_ne he, hsame]
    exact ⟨i, hkey, htag, htime⟩
  | entered he f hf k hk hother hent =>
    rw [Event.expired_of_ne he]
    have hne : i ≠ k := by
      rintro rfl
      have := getLoop_timeout hk (by simp)
      rw [htime] at this
      split at this <;> simp at this
    exact ⟨i, by rw [hother i hne]; exact ⟨hkey, htag, htime⟩⟩

/-- A fragment that fails marks its datagram. -/
theorem marked_of_fails {e : Event} (hrec : Records c s e) (hs : Change c s s' e)
    (hok : s'.fault = false) (hf : e.fragment = some f) (hfail : Fails c s f) :
    Marked s' f.key f.tag 0 := by
  obtain ⟨i, hi, hkey, htag⟩ := hrec f hf hfail
  have hrej : Rejects c s i f := by
    rcases hfail with ⟨hnone, -⟩ | ⟨j, hj, hrej⟩
    · cases hi.symm.trans hnone
    · obtain rfl := Option.some.inj (hi.symm.trans hj)
      exact hrej
  cases hs with
  | fault hfault =>
    rw [hfault] at hok
    cases hok
  | expire he =>
    subst he
    cases hf
  | other _ hnone =>
    cases hf.symm.trans hnone
  | dropped _ g hg hnone =>
    obtain rfl := Option.some.inj (hf.symm.trans hg)
    cases hi.symm.trans hnone
  | entered _ g hg j hj hother hent =>
    obtain rfl := Option.some.inj (hf.symm.trans hg)
    obtain rfl := Option.some.inj (hi.symm.trans hj)
    obtain ⟨htime, hkey', htag'⟩ := hent.failed hrej
    refine ⟨i, hkey'.trans hkey, htag'.trans ?_, htime⟩
    split
    · rfl
    · rename_i hf1
      exact htag.resolve_left hf1

/-- A fragment of a marked datagram is dropped. -/
theorem dropped_of_marked {e : Event} {n : Nat} (hu : Unique s) (hm : Marked s f.key f.tag n)
    (hf : e.fragment = some f) (hs : step c s e = some s') : s' = s := by
  have hnone : s.find f.key f.tag = none := by
    obtain ⟨i, hkey, htag, htime⟩ := hm
    have hfailed : Failed (s.reconData i) := by
      rw [Failed, htime]
      split
      · exact .inl rfl
      · exact .inr rfl
    refine getLoop_failed (List.mem_finRange i) hfailed hkey htag fun j _ hj hkj htj => ?_
    refine hu j i f.key f.tag ⟨hj, hkj, htj⟩ ⟨fun hun => ?_, hkey, htag⟩
    rcases hfailed with hx | hx <;> rw [hx] at hun <;> cases hun
  cases e with
  | expire => cases hf
  | receive payload lqi rssi frame0 recon0 =>
    have hdrop : s.receive c payload lqi rssi frame0 recon0 = .ok s := by
      rw [receive_fragment hf, getReconstruct_of_none hnone]
    unfold Reassembly.step at hs
    split at hs
    · cases hs
    · dsimp only at hs
      rw [hdrop] at hs
      split at hs
      · cases hs
        rfl
      · cases hs

/-! ## Runs -/

/-- How often `ExpireTimer` fired. -/
def expiries (h : List (Reassembly × Event)) : Nat := h.countP fun p => p.2.expired

/-- After a fragment that fails, the fragments of its datagram are dropped until `ExpireTimer` has
fired twice: they leave the memory and the entries as they are. -/
def StaysFailed (c : Contexts) (h : List (Reassembly × Event)) : Prop :=
  ∀ h₂ s₂ e₂ h₁ s₁ e₁ h₀, h = h₂ ++ (s₂, e₂) :: (h₁ ++ (s₁, e₁) :: h₀) →
    ∀ f ∈ e₁.fragment, ∀ g ∈ e₂.fragment, f.SameDatagram g → Fails c s₁ f → expiries h₁ < 2 →
      step c s₂ e₂ = some s₂

theorem taken_of_run {h h' : List (Reassembly × Event)} {e : Event} {s₁ : Reassembly}
    (hr : (machine c).Run (h' ++ (s, e) :: h) s₁) : ∃ s', step c s e = some s' := by
  induction h' generalizing s₁ with
  | nil =>
    cases hr with
    | step _ hs => exact ⟨_, hs⟩
  | cons p h' ih =>
    cases hr with
    | step hr _ => exact ih hr

/-- From the fragment that failed on, its datagram is marked. -/
theorem marked_of_run {h₁ h₀ : List (Reassembly × Event)} {s₁ : Reassembly} {e₁ : Event}
    (hr : (machine c).Run (h₁ ++ (s₁, e₁) :: h₀) s) (hok : s.fault = false)
    (hrec : Records c s₁ e₁) (hf : e₁.fragment = some f) (hfail : Fails c s₁ f)
    (hn : expiries h₁ < 2) : Marked s f.key f.tag (expiries h₁) := by
  induction h₁ generalizing s with
  | nil =>
    cases hr with
    | step _ hs => exact marked_of_fails hrec (step_change hs).2 hok hf hfail
  | cons p h₁ ih =>
    cases hr with
    | @step _ s0 _ e hr hs =>
      obtain ⟨hok0, hchange⟩ := step_change hs
      have hcount : expiries ((s0, e) :: h₁) = expiries h₁ + e.expired.toNat := by
        rw [expiries, List.countP_cons, expiries]
        cases e.expired <;> rfl
      rw [hcount] at hn ⊢
      exact (ih hr hok0 (by omega)).step hchange hok hn

theorem unique_of_run {h : List (Reassembly × Event)} (hr : (machine c).Run h s)
    (hrec : ∀ p ∈ h, Records c p.1 p.2) : Unique s := by
  refine (hr.inv_of_steps (P := Unique) (C := Records c) ?_ ?_ hrec).1
  · rintro _ ⟨mem, data, rfl⟩ i j key tag hi -
    exact absurd rfl hi.1
  · intro s e s' hu hrec hs
    exact hu.step hrec (step_change hs).2

/-- **Failed reassemblies stay failed**: in a run, from boot on, where the entries have the datagrams
of the fragments that fail, the other fragments of such a datagram are dropped until `ExpireTimer`
has fired twice. -/
theorem stays_failed {h : List (Reassembly × Event)} (hr : (machine c).Run h s)
    (hrec : ∀ p ∈ h, Records c p.1 p.2) : StaysFailed c h := by
  rintro h₂ s₂ e₂ h₁ s₁ e₁ h₀ rfl f hf g hg hsame hfail hn
  obtain ⟨s', hs⟩ := taken_of_run hr
  have hr₂ := hr.before
  have hu := unique_of_run hr₂ fun p hp => hrec p (List.mem_append_right _ (.tail _ hp))
  have hm := marked_of_run hr₂ (step_change hs).1 (hrec (s₁, e₁) (by simp)) hf hfail hn
  rw [hsame.key, hsame.2] at hm
  rw [hs, dropped_of_marked hu hm hg hs]

/-- A fragment that is too long for the reassembly, and the first one again. -/
theorem stays_failed_overrun : ∃ h s, (machine noContexts).Run h s ∧
    (∃ p ∈ h, ∃ f ∈ p.2.fragment, Fails noContexts p.1 f) ∧ (s.reconData 2).timeout = .failed2 ∧
    StaysFailed noContexts h := by
  obtain ⟨h, s, hr, hp⟩ := Machine.exists_run_of_exec (M := machine noContexts)
    (s := boot (fun _ => 0) fun _ => zeroed) ⟨_, _, rfl⟩
    [frameOf ([0xc0, 48, 0, 7, 0x41] ++ List.replicate 40 0),
      frameOf ([0xe0, 48, 0, 7, 5] ++ List.replicate 9 1), .expire,
      frameOf ([0xc0, 48, 0, 7, 0x41] ++ List.replicate 40 0)]
    (fun h s => (∀ p ∈ h, Records noContexts p.1 p.2) ∧
      (∃ p ∈ h, ∃ f ∈ p.2.fragment, Fails noContexts p.1 f) ∧ (s.reconData 2).timeout = .failed2)
    (by decide)
  obtain ⟨hrec, hfails, htime⟩ := of_decide_eq_true hp
  exact ⟨h, s, hr, hfails, htime, stays_failed hr hrec⟩

/-- After a first fragment whose headers do not unpack, the next one gets a buffer. -/
theorem restarted : ∃ h s, (machine noContexts).Run h s ∧ ¬StaysFailed noContexts h ∧
    ∃ i, (s.reconData i).timeout = .active ∧ (s.reconData i).buf ≠ none := by
  obtain ⟨h, s, hr, hp⟩ := Machine.exists_run_of_exec (M := machine noContexts)
    (s := boot (fun _ => 0) fun _ => zeroed) ⟨_, _, rfl⟩
    [frameOf [0xc0, 48, 0, 7, 0], frameOf ([0xc0, 48, 0, 7, 0x41] ++ List.replicate 40 0)]
    (fun h s => (h.length = 2 ∧ ∃ p₂ ∈ h.head?, ∃ p₁ ∈ h.getLast?,
        (p₂.1.reconData 1).buf = none ∧ ∃ f ∈ p₁.2.fragment, ∃ g ∈ p₂.2.fragment,
          (f.frame.src = g.frame.src ∧ f.tag = g.tag) ∧ Fails noContexts p₁.1 f) ∧
      (s.reconData 1).timeout = .active ∧ (s.reconData 1).buf ≠ none)
    (by decide)
  obtain ⟨⟨hlen, p₂, hp₂, p₁, hp₁, hnone, f, hf, g, hg, ⟨hsrc, htag⟩, hfail⟩, hact, hbuf⟩ :=
    of_decide_eq_true hp
  obtain ⟨a, b, rfl⟩ := List.length_eq_two.1 hlen
  obtain rfl : a = p₂ := Option.some.inj hp₂
  obtain rfl : b = p₁ := Option.some.inj hp₁
  refine ⟨_, s, hr, fun hstays => ?_, 1, hact, hbuf⟩
  have hs := hstays [] a.1 a.2 [] b.1 b.2 [] rfl f hf g hg ⟨.inl hsrc, htag⟩ hfail (by decide)
  cases hr with
  | step _ hs' =>
    obtain rfl := Option.some.inj (hs.symm.trans hs')
    exact hbuf hnone

end Reassembly

end Blip
