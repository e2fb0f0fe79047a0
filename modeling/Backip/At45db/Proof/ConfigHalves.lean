import Backip.At45db.ConfigStorageP

/-!
# Which commits leave the committed half alone

The half is flipped and flipped back in pairs: by the grant and the end of a write, by the commit
and its end when it failed. A commit of a volume that is not clean flips it before the request is
made, and if another one is in progress nothing flips it back (`ConfigWatch.keeps_false`). While no
commit is made then, the half is the committed one unless something is written
(`ConfigStorageP.writing`), and all of `ConfigWatch.Keeps` holds (`ConfigWatch.keeps_iff`).
-/

set_option autoImplicit false

namespace At45db

variable {v : Volume} {base : Option (Bool × (Nat → Page))} {s : ConfigStorageP}

/-! ## Pages and bytes -/

theorem Volume.pageSize_pos (v : Volume) : 0 < v.pageSize := Nat.two_pow_pos _

theorem halfPage_ne (half : Bool) {p q : Nat} (hp : p < v.npages) (hq : q < v.npages) :
    halfPage v (!half) q ≠ halfPage v half p := by
  cases half <;> simp only [halfPage, Bool.not_true, Bool.not_false, if_true, Bool.false_eq_true,
    if_false] <;> omega

theorem remap_eq (s : ConfigStorageP) (p : Nat) : s.remap v p = halfPage v s.flip p := rfl

@[simp] theorem length_imageBytes (image : Nat → Page) (addr n : Nat) :
    (imageBytes v image addr n).length = n := by
  simp [imageBytes]

/-- The next bytes are those of one page. -/
theorem imageBytes_add (image : Nat → Page) {addr m n : Nat}
    (hn : n ≤ v.pageSize - (addr + m) % v.pageSize) :
    imageBytes v image addr (m + n) = imageBytes v image addr m ++
      ConfigStorageP.pageBytes (image ((addr + m) / v.pageSize)) ((addr + m) % v.pageSize) n := by
  have hsize := v.pageSize_pos
  rw [imageBytes, List.range_add, List.map_append, List.map_map]
  refine congrArg _ (List.map_congr_left fun i hi => ?_)
  have hi := List.mem_range.1 hi
  have hlt : (addr + m) % v.pageSize + i < v.pageSize := by omega
  have hsum : addr + (m + i) =
      v.pageSize * ((addr + m) / v.pageSize) + ((addr + m) % v.pageSize + i) := by
    have := Nat.div_add_mod (addr + m) v.pageSize
    omega
  have hdiv : (addr + (m + i)) / v.pageSize = (addr + m) / v.pageSize := by
    rw [hsum, Nat.mul_add_div hsize, Nat.div_eq_of_lt hlt, Nat.add_zero]
  have hmod : (addr + (m + i)) % v.pageSize = (addr + m) % v.pageSize + i := by
    rw [hsum, Nat.mul_add_mod, Nat.mod_eq_of_lt hlt]
  simp only [Function.comp, hdiv, hmod]

/-! ## What is committed, after a step -/

/-- There is a base where the volume is clean or dirty. -/
def Based (base : Option (Bool × (Nat → Page))) (state : ConfigState) : Prop :=
  base.isSome = true ↔ state = .clean ∨ state = .dirty

theorem nextBase_same {old : ConfigState} (hb : Based base old) (hs : s.state = old) :
    nextBase v old base s = base := by
  subst hs
  unfold nextBase
  split
  · next h => exact absurd h.1 h.2
  · split
    · rfl
    · next h => exact (Option.not_isSome_iff_eq_none.1 fun hsome => h (hb.1 hsome)).symm

theorem nextBase_dirty {old : ConfigState} (hs : s.state = .dirty) :
    nextBase v old base s = base := by
  simp [nextBase, hs]

theorem nextBase_none {old : ConfigState} (hs : ¬(s.state = .clean ∨ s.state = .dirty)) :
    nextBase v old base s = none := by
  unfold nextBase
  rw [if_neg fun h => hs (.inl h.1), if_neg hs]

theorem nextBase_clean {old : ConfigState} (hs : s.state = .clean) (hold : old ≠ .clean) :
    nextBase v old base s = some (s.flip, fun p => s.flash (halfPage v s.flip p)) := by
  unfold nextBase
  rw [if_pos ⟨hs, hold⟩]

namespace ConfigStorageP

/-! ## The invariant -/

/-- Something is written: to the half that is not committed. -/
def writing (s : ConfigStorageP) : Bool :=
  s.committing || (decide (s.request = .write) && s.granted)

/-- The state in which a request is made, whether for a commit, and with which buffer. -/
def Allowed : Request → ConfigState → Bool → Buffer → Prop
  | .idle, _, committing, _ => committing = false
  | .read, state, committing, buf => committing = false ∧
    (state = .mount ∧ (buf = .low ∨ buf = .high) ∨ (state = .clean ∨ state = .dirty) ∧ buf = .user)
  | .write, state, true, _ => state = .dirty ∨ state = .invalid
  | .write, state, false, _ => state = .clean ∨ state = .dirty ∨ state = .invalid
  | .crc, state, true, _ => state = .dirty ∨ state = .invalid
  | .crc, state, false, _ => state = .mount ∨ state = .clean
  | .sync, state, committing, _ => committing = true ∧ (state = .dirty ∨ state = .invalid)

/-- What holds in every state, also within an event. -/
structure Kept (v : Volume) (base : Option (Bool × (Nat → Page))) (s : ConfigStorageP) : Prop where
  fits : s.request ≠ .idle ∨ s.state.mounted = true → headerSize ≤ volumeSize v
  inside : s.addr + s.len ≤ volumeSize v
  based : Based base s.state
  half : ∀ half image, base = some (half, image) → s.flip = (half ^^ s.writing)
  image : ∀ half image, base = some (half, image) →
    ∀ p < v.npages, s.flash (halfPage v half p) = image p
  reads : ∀ half image, base = some (half, image) →
    s.got = imageBytes v image s.addr s.got.length

/-- The resource is not asked for, nothing is under way. -/
structure Quiet (s : ConfigStorageP) : Prop where
  requested : s.requested = false
  granted : s.granted = false
  active : s.active = false
  copying : s.copying = false
  op : s.op = none

/-- The operation under way is one for the request. -/
def Matches (v : Volume) (s : ConfigStorageP) : Operation → Prop
  | .write page _ _ => s.request = .write ∧ ∃ p < v.npages, page = s.remap v p
  | .read page offset n => s.request = .read ∧ s.currentOffset ≤ s.len ∧ (s.buf = .user →
    s.currentOffset = s.got.length + n ∧ n ≤ v.pageSize - (s.addr + s.got.length) % v.pageSize ∧
    (s.addr + s.got.length) / v.pageSize < v.npages ∧
    page = s.remap v ((s.addr + s.got.length) / v.pageSize) ∧
    offset = (s.addr + s.got.length) % v.pageSize)
  | .computeCrc .. => s.request = .crc
  | .syncAll => s.request = .sync
  | .copyPage .. => False

/-- How far the request of the client is. -/
inductive Phase (v : Volume) (s : ConfigStorageP) : Prop
  | rests (request : s.request = .idle) (quiet : Quiet s)
  | waits (request : s.request ≠ .idle) (requested : s.requested = true)
    (granted : s.granted = false) (active : s.active = false) (copying : s.copying = false)
    (op : s.op = none) (got : s.got = [])
  | copies (source target : Nat) (request : s.request = .write) (committing : s.committing = false)
    (requested : s.requested = false) (granted : s.granted = true) (active : s.active = false)
    (copying : s.copying = true) (state : s.state = .clean) (next : s.nextPage < v.npages)
    (got : s.got = []) (source_eq : source = halfPage v (!s.flip) s.nextPage)
    (target_eq : target = s.remap v s.nextPage)
    (op : s.op = some (.copyPage source target))
  | works (operation : Operation) (requested : s.requested = false) (granted : s.granted = true)
    (active : s.active = true) (copying : s.copying = false) (op : s.op = some operation)
    (empty : s.request ≠ .read → s.got = []) (does : Matches v s operation)

/-- The invariant between events. -/
structure Tracks (v : Volume) (base : Option (Bool × (Nat → Page))) (s : ConfigStorageP) :
    Prop where
  kept : Kept v base s
  allowed : Allowed s.request s.state s.committing s.buf
  told : s.request = .idle → ∀ addr data result rest,
    s.log = .readDone addr data result :: rest →
      addr = s.clientAddr ∧ data = s.got ∧ (result = .success → data.length = s.len)
  phase : Phase v s

/-- The invariant within an event, where the resource is held for a request. -/
structure Held (v : Volume) (base : Option (Bool × (Nat → Page))) (s : ConfigStorageP) :
    Prop where
  kept : Kept v base s
  allowed : Allowed s.request s.state s.committing s.buf
  busy : s.request ≠ .idle
  requested : s.requested = false
  granted : s.granted = true
  copying : s.copying = false
  op : s.op = none
  empty : s.request ≠ .read → s.got = []

theorem Tracks.same {old : ConfigState} (hb : Based base old) (hs : s.state = old)
    (ht : Tracks v base s) : Tracks v (nextBase v old base s) s := by
  rwa [nextBase_same hb hs]

/-! ## Requests -/

/-- A request is refused, or the client waits for the resource. -/
theorem newRequest_cases (s : ConfigStorageP) (r : Request) (addr : Nat) (buf : Buffer)
    (len : Nat) :
    (∃ e, e ≠ .success ∧ s.newRequest v r addr buf len = (e, s)) ∨
    (s.request = .idle ∧ addr + len ≤ volumeSize v ∧
      s.newRequest v r addr buf len = (.success, { s with
        request := r, addr := addr, buf := buf, len := len, requested := true, got := [] })) := by
  unfold newRequest
  split
  · exact .inl ⟨_, by decide, rfl⟩
  · next hidle =>
    split
    · exact .inl ⟨_, by decide, rfl⟩
    · next hin => exact .inr ⟨not_not.1 hidle, by omega, rfl⟩

theorem newRequest_accepted {r : Request} {addr len : Nat} {buf : Buffer}
    (hidle : s.request = .idle) (hin : addr + len ≤ volumeSize v) :
    s.newRequest v r addr buf len = (.success, { s with
      request := r, addr := addr, buf := buf, len := len, requested := true, got := [] }) := by
  unfold newRequest
  rw [if_neg (not_not.2 hidle), if_neg (by omega)]

theorem newRequest_busy {r : Request} {addr len : Nat} {buf : Buffer} (hbusy : s.request ≠ .idle) :
    s.newRequest v r addr buf len = (.ebusy, s) := by
  unfold newRequest
  rw [if_pos hbusy]

@[simp] theorem newRequest_state (r : Request) (addr : Nat) (buf : Buffer) (len : Nat) :
    (s.newRequest v r addr buf len).2.state = s.state := by
  rcases s.newRequest_cases (v := v) r addr buf len with ⟨e, -, h⟩ | ⟨-, -, h⟩ <;> rw [h]

/-- A request that is accepted, from a state that holds nothing. -/
theorem Kept.request (hk : Kept v base s) (hq : Quiet s) (hidle : s.request = .idle)
    (hsize : headerSize ≤ volumeSize v) (r : Request) (addr : Nat) (buf : Buffer) (len : Nat)
    (hr : r ≠ .idle) (ha : Allowed r s.state s.committing buf)
    (hin : addr + len ≤ volumeSize v) : Tracks v base (s.newRequest v r addr buf len).2 := by
  rw [newRequest_accepted hidle hin]
  refine ⟨⟨fun _ => hsize, hin, hk.based, fun half image hb => ?_, hk.image, fun _ _ _ => rfl⟩,
    ha, fun h => absurd h hr, .waits hr rfl hq.granted hq.active hq.copying hq.op rfl⟩
  have hhalf := hk.half half image hb
  simp only [writing, hq.granted, Bool.and_false] at hhalf ⊢
  exact hhalf

theorem sizeWithout_le {n : Nat} (hn : n ≤ volumeSize v) : n + sizeWithout v n ≤ volumeSize v := by
  have : sizeWithout v n ≤ volumeSize v - n := by
    unfold sizeWithout
    rw [show volumeSize v + 2 ^ 32 - n = volumeSize v - n + 2 ^ 32 by omega, Nat.add_mod_right]
    exact Nat.mod_le _ _
  omega

theorem Kept.absent (hstate : ¬(s.state = .clean ∨ s.state = .dirty))
    (hfits : s.request ≠ .idle ∨ s.state.mounted = true → headerSize ≤ volumeSize v)
    (hin : s.addr + s.len ≤ volumeSize v) : Kept v none s :=
  ⟨hfits, hin, ⟨nofun, fun h => absurd h hstate⟩, nofun, nofun, nofun⟩

/-- What a volume that became clean has committed. -/
theorem Kept.fresh (hstate : s.state = .clean) (hsize : headerSize ≤ volumeSize v)
    (hin : s.addr + s.len ≤ volumeSize v) (hwriting : s.writing = false) (hgot : s.got = []) :
    Kept v (some (s.flip, fun p => s.flash (halfPage v s.flip p))) s := by
  refine ⟨fun _ => hsize, hin, ⟨fun _ => .inl hstate, fun _ => rfl⟩, ?_, ?_, ?_⟩
  · rintro half image ⟨⟩
    rw [hwriting, Bool.xor_false]
  · rintro half image ⟨⟩ p -
    rfl
  · rintro half image ⟨⟩
    rw [hgot]
    rfl

/-! ## The end of a request -/

/-- A signal to the client, from a state that holds nothing. -/
theorem Kept.signal (hk : Kept v base s) (hq : Quiet s) (hidle : s.request = .idle)
    (hc : s.committing = false) {c : ConfigSignal}
    (htold : ∀ addr data result, c = .readDone addr data result →
      addr = s.clientAddr ∧ data = s.got ∧ (result = .success → data.length = s.len)) :
    Tracks v base (s.signal c) where
  kept := ⟨hk.fits, hk.inside, hk.based, hk.half, hk.image, hk.reads⟩
  allowed := by
    rw [show (s.signal c).request = .idle from hidle]
    exact hc
  told _ addr data result _ hl := htold addr data result (List.cons.inj hl).1
  phase := .rests hidle ⟨hq.requested, hq.granted, hq.active, hq.copying, hq.op⟩

section

variable (hk : Kept v base s) (hq : Quiet s) (hidle : s.request = .idle)
  (hsize : headerSize ≤ volumeSize v)
include hk hq hidle hsize

theorem Kept.mountReadDone (hm : s.state = .mount) (hc : s.committing = false)
    (error : TinyError) :
    Tracks v (nextBase v .mount base (s.mountReadDone v error)) (s.mountReadDone v error) := by
  unfold ConfigStorageP.mountReadDone
  have hnone : ∀ flip, Kept v none { s with flip := flip } := fun flip =>
    .absent (by simp [hm]) hk.fits hk.inside
  split
  · have ht := Kept.signal (c := .mountDone .fail) (s := { s with state := .stopped })
      (.absent (by simp) (fun _ => hsize) hk.inside)
      ⟨hq.requested, hq.granted, hq.active, hq.copying, hq.op⟩ hidle hc nofun
    rwa [nextBase_none]
    simp [ConfigStorageP.signal]
  · split
    · have ht := (hnone true).request ⟨hq.requested, hq.granted, hq.active, hq.copying, hq.op⟩ hidle
        hsize .read 0 .high headerSize (by decide) ⟨hc, .inl ⟨hm, .inr rfl⟩⟩ (by omega)
      rwa [nextBase_none]
      simp [hm]
    · have ht := (hnone (decide (s.low.version < s.high.version))).request
        ⟨hq.requested, hq.granted, hq.active, hq.copying, hq.op⟩ hidle hsize .crc 2 (.baseCrc 0) _
        (by decide) (by rw [hc]; exact .inl hm)
        (sizeWithout_le (Nat.le_trans (by decide) hsize))
      rwa [nextBase_none]
      simp [computeCrc, hm]

theorem Kept.mountCrcDone (hm : s.state = .mount) (hc : s.committing = false) (hgot : s.got = [])
    (crc : UInt16) (error : TinyError) :
    Tracks v (nextBase v .mount base (s.mountCrcDone v crc error))
      (s.mountCrcDone v crc error) := by
  have hclean : ∀ low, Tracks v
      (nextBase v .mount base ({ s with low := low, state := .clean }.signal (.mountDone .success)))
      ({ s with low := low, state := .clean }.signal (.mountDone .success)) := by
    intro low
    rw [nextBase_clean rfl (by decide)]
    refine Kept.signal (s := { s with low := low, state := .clean }) (.fresh rfl hsize hk.inside ?_
      hgot) ⟨hq.requested, hq.granted, hq.active, hq.copying, hq.op⟩ hidle hc nofun
    simp [writing, hc, hidle]
  unfold ConfigStorageP.mountCrcDone
  by_cases hvalid : error = .success ∧ crc = (if s.flip then s.high.crc else s.low.crc)
  · rw [if_pos hvalid]
    by_cases hflip : s.flip = true
    · rw [if_pos hflip]
      exact hclean _
    · rw [if_neg hflip]
      exact hclean s.low
  · rw [if_neg hvalid]
    split
    · have hnone : Kept v none s.flipHalf := .absent (by simp [flipHalf, hm]) hk.fits hk.inside
      have ht := hnone.request ⟨hq.requested, hq.granted, hq.active, hq.copying, hq.op⟩ hidle hsize
        .crc 2 (.baseCrc 0) _ (by decide)
        (by rw [show s.flipHalf.committing = false from hc]; exact .inl hm)
        (sizeWithout_le (Nat.le_trans (by decide) hsize))
      rwa [nextBase_none]
      simp [computeCrc, flipHalf, hm]
    · have ht := Kept.signal (c := .mountDone .success)
        (s := { s with state := .invalid, low := { s.low with version := 0 } })
        (.absent (by simp) (fun _ => hsize) hk.inside)
        ⟨hq.requested, hq.granted, hq.active, hq.copying, hq.op⟩ hidle hc nofun
      rwa [nextBase_none]
      simp [ConfigStorageP.signal]

theorem Kept.commitSyncDone (hd : s.state = .dirty ∨ s.state = .invalid)
    (hc : s.committing = true) (hgot : s.got = []) (error : TinyError) :
    Tracks v (nextBase v s.state base (s.commitSyncDone error)) (s.commitSyncDone error) := by
  unfold ConfigStorageP.commitSyncDone
  split
  · let s' : ConfigStorageP := { s with committing := false, state := .clean }
    have hwriting : s'.writing = false := by simp [s', writing, hidle]
    have ht : Tracks v (some (s'.flip, fun p => s'.flash (halfPage v s'.flip p)))
        (s'.signal (.commitDone error)) :=
      (Kept.fresh (s := s') rfl hsize hk.inside hwriting hgot).signal
        ⟨hq.requested, hq.granted, hq.active, hq.copying, hq.op⟩ hidle rfl nofun
    have hold : s.state ≠ .clean := by rcases hd with hd | hd <;> simp [hd]
    have hbase : nextBase v s.state base (s'.signal (.commitDone error)) =
        some (s'.flip, fun p => s'.flash (halfPage v s'.flip p)) := nextBase_clean rfl hold
    rw [← hbase] at ht
    exact ht
  · let s' : ConfigStorageP := { s with committing := false, flip := !s.flip }
    have hwriting : s'.writing = false := by simp [s', writing, hidle]
    have hk' : Kept v base s' := by
      refine ⟨fun _ => hsize, hk.inside, hk.based, fun half image hb => ?_, hk.image, hk.reads⟩
      have hhalf := hk.half half image hb
      rw [show s.writing = true by simp [writing, hc], Bool.xor_true] at hhalf
      rw [hwriting, Bool.xor_false, show s'.flip = !s.flip from rfl, hhalf, Bool.not_not]
    have ht : Tracks v base (s'.signal (.commitDone error)) := hk'.signal
      ⟨hq.requested, hq.granted, hq.active, hq.copying, hq.op⟩ hidle rfl nofun
    have hbase : nextBase v s.state base (s'.signal (.commitDone error)) = base :=
      nextBase_same hk.based rfl
    rw [← hbase] at ht
    exact ht

theorem Kept.commitCrcDone (ha : Allowed .crc s.state s.committing s.buf) (hm : s.state ≠ .mount)
    (hgot : s.got = []) (crc : UInt16) (error : TinyError) :
    Tracks v (nextBase v s.state base (s.commitCrcDone v crc error))
      (s.commitCrcDone v crc error) := by
  unfold ConfigStorageP.commitCrcDone
  by_cases hc : s.committing = true
  · rw [hc] at ha
    have hd : s.state = .dirty ∨ s.state = .invalid := ha
    rw [if_neg (by rcases hd with hd | hd <;> simp [hd])]
    split
    · exact hk.commitSyncDone hq hidle hsize hd hc hgot error
    · have ht := Kept.request (s := { s with low := { s.low with crc := crc } })
        ⟨hk.fits, hk.inside, hk.based, hk.half, hk.image, hk.reads⟩
        ⟨hq.requested, hq.granted, hq.active, hq.copying, hq.op⟩ hidle hsize .write 0 .low
        headerSize (by decide) (by rw [hc]; exact hd) (by omega)
      exact ht.same hk.based (newRequest_state ..)
  · have hc : s.committing = false := by simpa using hc
    rw [hc] at ha
    have hclean : s.state = .clean := ha.resolve_left hm
    rw [if_pos hclean]
    refine .same hk.based rfl ?_
    exact hk.signal hq hidle hc nofun

theorem Kept.commitWriteDone (hd : s.state = .dirty ∨ s.state = .invalid)
    (hc : s.committing = true) (hgot : s.got = []) (error : TinyError) :
    Tracks v (nextBase v s.state base (s.commitWriteDone v error)) (s.commitWriteDone v error) := by
  unfold ConfigStorageP.commitWriteDone
  split
  · exact hk.commitSyncDone hq hidle hsize hd hc hgot error
  · have ht := hk.request hq hidle hsize .sync 0 .null 0 (by decide) ⟨hc, hd⟩
      (Nat.zero_le _)
    exact ht.same hk.based (newRequest_state ..)

end

/-- The state the resource is released in. -/
def released (s : ConfigStorageP) : ConfigStorageP :=
  { s with active := false, request := .idle, granted := false }

theorem endRequest_eq (s : ConfigStorageP) (result : TinyError) (crc : UInt16) :
    s.endRequest v result crc = s.released.requestDone v s.request result crc :=
  rfl

namespace Held

variable (h : Held v base s)
include h

theorem quiet : Quiet s.released := ⟨h.requested, rfl, rfl, h.copying, h.op⟩

theorem size : headerSize ≤ volumeSize v := h.kept.fits (.inl h.busy)

theorem kept_released (hw : s.request = .write → s.committing = true) :
    Kept v base s.released := by
  refine ⟨fun _ => h.size, h.kept.inside, h.kept.based, fun half image hb => ?_, h.kept.image,
    h.kept.reads⟩
  have hhalf := h.kept.half half image hb
  have hwriting : s.released.writing = s.writing := by
    by_cases hr : s.request = .write
    · simp [writing, released, hw hr]
    · simp [writing, released, hr]
  rw [hwriting]
  exact hhalf

/-- The half is flipped back. -/
theorem kept_flipped (hr : s.request = .write) (hc : s.committing = false) :
    Kept v base s.released.flipHalf := by
  refine ⟨fun _ => h.size, h.kept.inside, h.kept.based, fun half image hb => ?_, h.kept.image,
    h.kept.reads⟩
  have hhalf := h.kept.half half image hb
  rw [show s.writing = true by simp [writing, hr, h.granted], Bool.xor_true] at hhalf
  have hwriting : s.released.flipHalf.writing = false := by
    simp [writing, released, flipHalf, hc]
  rw [hwriting, Bool.xor_false, show s.released.flipHalf.flip = !s.flip from rfl, hhalf,
    Bool.not_not]

/-- The end of a client's write. -/
theorem endWrite (hr : s.request = .write) (hc : s.committing = false) (result : TinyError)
    (crc : UInt16) : Tracks v base (s.endRequest v result crc) ∧
      (s.endRequest v result crc).state = s.state := by
  rw [endRequest_eq, hr]
  have hdone : s.released.requestDone v .write result crc = s.released.writeWriteDone result :=
    if_neg (by simp [released, hc])
  rw [hdone]
  exact ⟨(h.kept_flipped hr hc).signal ⟨h.requested, rfl, rfl, h.copying, h.op⟩ rfl hc nofun, rfl⟩

/-- The end of any request. -/
theorem endRequest (result : TinyError) (crc : UInt16)
    (hread : s.request = .read → s.buf = .user → result = .success → s.got.length = s.len) :
    Tracks v (nextBase v s.state base (s.endRequest v result crc)) (s.endRequest v result crc) := by
  have ha := h.allowed
  rw [endRequest_eq]
  cases hr : s.request with
  | idle => exact absurd hr h.busy
  | read =>
    rw [hr] at ha
    obtain ⟨hc, ⟨hm, -⟩ | ⟨hstate, hbuf⟩⟩ := ha
    · rw [show s.released.requestDone v .read result crc = s.released.mountReadDone v result from
        if_pos hm, hm]
      exact (h.kept_released (by simp [hr])).mountReadDone h.quiet rfl h.size hm hc result
    · rw [show s.released.requestDone v .read result crc =
        s.released.signal (.readDone s.released.clientAddr s.released.got result) from
        if_neg (show s.state ≠ .mount by rcases hstate with hs | hs <;> simp [hs])]
      refine .same h.kept.based rfl ?_
      refine (h.kept_released (by simp [hr])).signal h.quiet rfl hc ?_
      intro addr data result' heq
      obtain ⟨haddr, hdata, hresult⟩ := ConfigSignal.readDone.inj heq
      rw [← haddr, ← hdata, ← hresult]
      exact ⟨rfl, rfl, hread hr hbuf⟩
  | write =>
    rw [hr] at ha
    by_cases hc : s.committing = true
    · rw [hc] at ha
      rw [show s.released.requestDone v .write result crc = s.released.commitWriteDone v result from
        if_pos hc]
      exact (h.kept_released fun _ => hc).commitWriteDone h.quiet rfl h.size ha hc
        (h.empty (by simp [hr])) result
    · have hend := h.endWrite hr (by simpa using hc) result crc
      rw [endRequest_eq, hr] at hend
      exact hend.1.same h.kept.based hend.2
  | crc =>
    rw [hr] at ha
    have hgot := h.empty (by simp [hr])
    by_cases hm : s.state = .mount
    · have hc : s.committing = false := by
        cases hc : s.committing with
        | false => rfl
        | true =>
          rw [hc, hm] at ha
          exact absurd ha (by simp [Allowed])
      rw [show s.released.requestDone v .crc result crc = s.released.mountCrcDone v crc result from
        if_pos hm, hm]
      exact (h.kept_released (by simp [hr])).mountCrcDone h.quiet rfl h.size hm hc hgot crc result
    · rw [show s.released.requestDone v .crc result crc = s.released.commitCrcDone v crc result from
        if_neg hm]
      exact (h.kept_released (by simp [hr])).commitCrcDone h.quiet rfl h.size ha hm hgot crc result
  | sync =>
    rw [hr] at ha
    exact (h.kept_released (by simp [hr])).commitSyncDone h.quiet rfl h.size ha.2 ha.1
      (h.empty (by simp [hr])) result

/-- The operation for the rest of a request. -/
theorem nextOperation_matches (ha : s.active = true) (hsync : s.request ≠ .sync)
    (hrest : s.currentOffset < s.len)
    (hread : s.request = .read → s.buf = .user → s.currentOffset = s.got.length) (crc : UInt16) :
    Tracks v base { s with
      op := (s.nextOperation v crc).1
      currentOffset := s.currentOffset + (s.nextOperation v crc).2 } := by
  have hsize := v.pageSize_pos
  have hinside := h.kept.inside
  have hpage : (s.addr + s.currentOffset) / v.pageSize < v.npages := by
    refine (Nat.div_lt_iff_lt_mul hsize).2 (Nat.lt_of_lt_of_le ?_ hinside)
    omega
  refine ⟨⟨h.kept.fits, h.kept.inside, h.kept.based, h.kept.half, h.kept.image, h.kept.reads⟩,
    h.allowed, fun hi => absurd hi h.busy, ?_⟩
  have hworks : ∀ op, (s.nextOperation v crc).1 = some op →
      Matches v { s with
        op := (s.nextOperation v crc).1
        currentOffset := s.currentOffset + (s.nextOperation v crc).2 } op →
      Phase v { s with
        op := (s.nextOperation v crc).1
        currentOffset := s.currentOffset + (s.nextOperation v crc).2 } := fun op hop hdoes =>
    .works op h.requested h.granted ha h.copying hop h.empty hdoes
  obtain hr | hr | hr : s.request = .write ∨ s.request = .crc ∨ s.request = .read := by
    have hbusy := h.busy
    revert hbusy hsync
    cases s.request <;> simp
  · exact hworks (.write (s.remap v ((s.addr + s.currentOffset) / v.pageSize)) _ _)
      (by simp only [nextOperation, hr]; rfl) ⟨hr, _, hpage, rfl⟩
  · exact hworks (.computeCrc _ _ _ _) (by simp only [nextOperation, hr]; rfl) hr
  · refine hworks (.read _ _ _) (by simp only [nextOperation, hr]; rfl) ⟨hr, ?_, fun hbuf => ?_⟩
    · simp only [nextOperation, hr]
      omega
    · have hoff := hread hr hbuf
      simp only [nextOperation, hr, ← hoff, true_and, and_true]
      exact ⟨Nat.min_le_right _ _, hpage, rfl⟩

/-- The rest of a request, or its end. -/
theorem multipageContinue (ha : s.active = true) (hsync : s.request ≠ .sync)
    (hread : s.request = .read → s.buf = .user →
      s.currentOffset = s.got.length ∧ s.currentOffset ≤ s.len) (crc : UInt16) :
    Tracks v (nextBase v s.state base (s.multipageContinue v crc)) (s.multipageContinue v crc) := by
  unfold ConfigStorageP.multipageContinue
  split
  · next hrest =>
    refine h.endRequest _ _ fun hr hb _ => ?_
    obtain ⟨hoff, hle⟩ := hread hr hb
    omega
  · next hrest =>
    refine .same h.kept.based rfl ?_
    exact h.nextOperation_matches ha hsync (by omega) (fun hr hb => (hread hr hb).1) crc

/-- A request that is started. -/
theorem startRequest (ha : s.active = true) (hgot : s.got = []) :
    Tracks v (nextBase v s.state base (s.startRequest v)) (s.startRequest v) := by
  have hcontinue : ∀ crc, s.request ≠ .sync →
      Tracks v (nextBase v s.state base ({ s with currentOffset := 0 }.multipageContinue v crc))
        ({ s with currentOffset := 0 }.multipageContinue v crc) := by
    intro crc hsync
    have hheld : Held v base { s with currentOffset := 0 } :=
      ⟨⟨h.kept.fits, h.kept.inside, h.kept.based, h.kept.half, h.kept.image, h.kept.reads⟩,
        h.allowed, h.busy, h.requested, h.granted, h.copying, h.op, h.empty⟩
    refine hheld.multipageContinue ha hsync (fun _ _ => ⟨?_, Nat.zero_le _⟩) crc
    exact (congrArg List.length hgot).symm
  unfold ConfigStorageP.startRequest
  split
  · next hr =>
    refine .same h.kept.based rfl ?_
    refine ⟨⟨h.kept.fits, h.kept.inside, h.kept.based, h.kept.half, h.kept.image, h.kept.reads⟩,
      h.allowed, fun hi => absurd hi h.busy, ?_⟩
    exact .works .syncAll h.requested h.granted ha h.copying rfl h.empty hr
  · next hr => exact hcontinue _ hr

/-- A client's write does not change the state. -/
theorem startWrite (hr : s.request = .write) (hc : s.committing = false) :
    (s.startRequest v).state = s.state := by
  have hstart : ∀ crc, ({ s with currentOffset := 0 }.multipageContinue v crc).state = s.state := by
    intro crc
    unfold ConfigStorageP.multipageContinue
    split
    · have hheld : Held v base { s with currentOffset := 0 } :=
        ⟨⟨h.kept.fits, h.kept.inside, h.kept.based, h.kept.half, h.kept.image, h.kept.reads⟩,
          h.allowed, h.busy, h.requested, h.granted, h.copying, h.op, h.empty⟩
      exact (hheld.endWrite hr hc .success crc).2
    · rfl
  unfold ConfigStorageP.startRequest
  split
  · rfl
  · exact hstart _

end Held

/-! ## The grant -/

theorem copyCopyPageDone_next (hnext : s.nextPage ≠ 0) :
    s.copyCopyPageDone v .success = { s with
      nextPage := s.nextPage - 1
      op := some (.copyPage (if s.flip then s.remap v (s.nextPage - 1) - v.npages
        else s.remap v (s.nextPage - 1) + v.npages) (s.remap v (s.nextPage - 1))) } := by
  unfold copyCopyPageDone
  rw [if_neg (by simp), if_neg hnext]
  rfl

/-- The copy goes on with the page before. -/
theorem Tracks.copy (hk : Kept v base s) (hr : s.request = .write) (hc : s.committing = false)
    (hrequested : s.requested = false) (hgranted : s.granted = true) (hcopying : s.copying = true)
    (hstate : s.state = .clean) (hgot : s.got = []) (hnext : s.nextPage ≠ 0)
    (hle : s.nextPage ≤ v.npages) :
    Tracks v base { s.copyCopyPageDone v .success with active := false } := by
  rw [copyCopyPageDone_next hnext]
  refine ⟨⟨hk.fits, hk.inside, hk.based, hk.half, hk.image, hk.reads⟩, ?_, ?_, ?_⟩
  · simp only [hr, hc, hstate, Allowed, true_or]
  · intro hi
    rw [show s.request = .idle from hi] at hr
    cases hr
  · refine .copies _ _ hr hc hrequested hgranted rfl hcopying hstate (by simp only; omega) hgot ?_
      rfl rfl
    cases hflip : s.flip <;> simp [remap, halfPage, hflip]

theorem npages_ne_zero (hsize : headerSize ≤ volumeSize v) : v.npages ≠ 0 := by
  intro h0
  rw [volumeSize, h0, Nat.zero_mul] at hsize
  cases hsize

/-- The resource is granted. -/
theorem Tracks.granted (ht : Tracks v base s) (hreq : s.requested = true) :
    Tracks v (nextBase v s.state base
        ({ s with requested := false, granted := true }.resourceGranted v))
      ({ s with requested := false, granted := true }.resourceGranted v) := by
  cases ht.phase with
  | rests _ quiet => exact absurd (hreq.symm.trans quiet.requested) (by simp)
  | copies _ _ _ _ requested => exact absurd (hreq.symm.trans requested) (by simp)
  | works _ requested => exact absurd (hreq.symm.trans requested) (by simp)
  | waits hbusy _ hgranted hactive hcopying hop hgot =>
    have hk := ht.kept
    unfold resourceGranted
    by_cases hw : s.request = .write ∧ s.committing = false
    · obtain ⟨hr, hc⟩ := hw
      let s' : ConfigStorageP :=
        { s with requested := false, granted := true, active := true, flip := !s.flip }
      have hkept : Kept v base s' := by
        refine ⟨hk.fits, hk.inside, hk.based, fun half image hb => ?_, hk.image, hk.reads⟩
        have hhalf := hk.half half image hb
        rw [show s.writing = false by simp [writing, hc, hgranted], Bool.xor_false] at hhalf
        rw [show s'.writing = true by simp [s', writing, hr], Bool.xor_true, ← hhalf]
      rw [if_pos (show _ ∧ _ from ⟨hr, hc⟩)]
      dsimp only
      split
      · have hheld : Held v base s' :=
          ⟨hkept, ht.allowed, hbusy, rfl, rfl, hcopying, hop, fun _ => hgot⟩
        exact hheld.startRequest rfl hgot
      · next hstate =>
        have hcopy := Tracks.copy (s := { s' with copying := true, nextPage := v.npages })
          ⟨hkept.fits, hkept.inside, hkept.based, hkept.half, hkept.image, hkept.reads⟩ hr hc rfl
          rfl rfl (not_not.1 hstate) hgot (npages_ne_zero (hk.fits (.inl hbusy))) (Nat.le_refl _)
        refine .same hk.based ?_ hcopy
        rw [copyCopyPageDone_next (npages_ne_zero (hk.fits (.inl hbusy)))]
        rfl
    · rw [if_neg hw]
      have hheld : Held v base { s with requested := false, granted := true, active := true } := by
        refine ⟨⟨hk.fits, hk.inside, hk.based, fun half image hb => ?_, hk.image, hk.reads⟩,
          ht.allowed, hbusy, rfl, rfl, hcopying, hop, fun _ => hgot⟩
        have hhalf := hk.half half image hb
        rw [hhalf]
        congr 1
        by_cases hr : s.request = .write
        · have hc : s.committing = true := by simpa using fun hc => hw ⟨hr, hc⟩
          simp [writing, hc]
        · simp [writing, hr]
      exact hheld.startRequest rfl hgot

/-! ## An operation that is done -/

open ConfigWatch in
/-- Nothing is written to the committed half. -/
theorem Tracks.spares (ht : Tracks v base s) {half : Bool} {image : Nat → Page}
    (hb : base = some (half, image)) : Spares v half s.op := by
  have hhalf := ht.kept.half half image hb
  have hother : ∀ p < v.npages, s.request = .write → s.granted = true →
      ∀ q < v.npages, s.remap v p ≠ halfPage v half q := by
    intro p hp hr hg q hq
    rw [show s.writing = true by simp [writing, hr, hg], Bool.xor_true] at hhalf
    rw [remap_eq, hhalf]
    exact halfPage_ne half hq hp
  cases ht.phase with
  | rests _ quiet =>
    rw [quiet.op]
    trivial
  | waits _ _ _ _ _ op =>
    rw [op]
    trivial
  | copies source target request _ _ granted _ _ _ next _ _ target_eq op =>
    rw [op, target_eq]
    exact hother _ next request granted
  | works operation _ granted _ _ op _ does =>
    rw [op]
    cases operation with
    | write page offset data =>
      obtain ⟨hr, p, hp, rfl⟩ := does
      exact hother p hp hr granted
    | copyPage source target => exact does.elim
    | _ => trivial

/-- A page of the other half changes. -/
theorem Kept.update (hk : Kept v base s) {target : Nat}
    (ht : ∀ half image, base = some (half, image) → ∀ p < v.npages, target ≠ halfPage v half p)
    (page : Page) :
    Kept v base { s with op := none, flash := Function.update s.flash target page } := by
  refine ⟨hk.fits, hk.inside, hk.based, hk.half, fun half image hb p hp => ?_, hk.reads⟩
  exact (Function.update_of_ne (ht half image hb p hp).symm ..).trans (hk.image half image hb p hp)

/-- The write goes on after the copy. -/
theorem Kept.resumed (hk : Kept v base s) (hr : s.request = .write) (hc : s.committing = false)
    (hrequested : s.requested = false) (hgranted : s.granted = true) (hop : s.op = none)
    (hgot : s.got = []) (hstate : s.state = .clean ∨ s.state = .dirty) :
    Held v base { s with copying := false, active := true } := by
  refine ⟨⟨hk.fits, hk.inside, hk.based, hk.half, hk.image, hk.reads⟩, ?_, by simp [hr], hrequested,
    hgranted, rfl, hop, fun _ => hgot⟩
  simp only [hr, hc, Allowed]
  exact hstate.imp_right .inl

/-- The copy of a page is done. -/
theorem Tracks.copied (ht : Tracks v base s) {source target : Nat} (hr : s.request = .write)
    (hc : s.committing = false) (hrequested : s.requested = false) (hgranted : s.granted = true)
    (hactive : s.active = false) (hcopying : s.copying = true) (hstate : s.state = .clean)
    (hnext : s.nextPage < v.npages) (hgot : s.got = [])
    (hop : s.op = some (.copyPage source target)) (result : TinyError) (left : Page) :
    Tracks v (nextBase v s.state base
        (({ s with op := none }.apply (.copyPage source target) result left).copyCopyPageDone v
          result))
      (({ s with op := none }.apply (.copyPage source target) result left).copyCopyPageDone v
        result) := by
  let s' := { s with op := none }.apply (.copyPage source target) result left
  have hk : Kept v base s' := ht.kept.update (fun half image hb => by
    have hspares := ht.spares hb
    rwa [hop] at hspares) _
  change Tracks v (nextBase v s.state base (s'.copyCopyPageDone v result))
    (s'.copyCopyPageDone v result)
  by_cases hresult : result = .success
  · subst hresult
    by_cases hzero : s'.nextPage = 0
    · have hdirty : Kept v base { s' with state := .dirty } :=
        ⟨fun _ => hk.fits (.inr (by rw [show s'.state = .clean from hstate]; rfl)), hk.inside,
          ⟨fun _ => .inr rfl, fun _ => hk.based.2 (.inl hstate)⟩, hk.half, hk.image, hk.reads⟩
      have hheld := hdirty.resumed hr hc hrequested hgranted rfl hgot (.inr rfl)
      have hrest := hheld.startRequest rfl hgot
      have hstill := hheld.startWrite hr hc
      rw [nextBase_dirty hstill] at hrest
      unfold copyCopyPageDone
      rw [if_neg (by simp), if_pos hzero]
      refine Eq.mpr (congrArg (Tracks v · _) (nextBase_dirty ?_)) hrest
      exact hstill
    · have hcopy := Tracks.copy (s := s') hk hr hc hrequested hgranted hcopying hstate hgot hzero
        (Nat.le_of_lt hnext)
      rw [copyCopyPageDone_next hzero] at hcopy ⊢
      rw [show (false : Bool) = s'.active from hactive.symm] at hcopy
      exact hcopy.same ht.kept.based rfl
  · have hheld := hk.resumed hr hc hrequested hgranted rfl hgot (.inl hstate)
    have hend := hheld.endWrite hr hc result 0
    unfold copyCopyPageDone
    rw [if_pos hresult]
    unfold ConfigStorageP.writeContinue
    dsimp only
    rw [if_neg hresult]
    exact hend.1.same ht.kept.based hend.2

/-- What is read next is from the committed half. -/
theorem Tracks.reads_next (ht : Tracks v base s) {page offset n : Nat} (hr : s.request = .read)
    (hbuf : s.buf = .user) (hdoes : Matches v s (.read page offset n)) {half : Bool}
    {image : Nat → Page} (hb : base = some (half, image)) :
    s.got ++ pageBytes (s.flash page) offset n =
      imageBytes v image s.addr (s.got ++ pageBytes (s.flash page) offset n).length := by
  obtain ⟨-, -, hmatch⟩ := hdoes
  obtain ⟨-, hn, hpage, rfl, rfl⟩ := hmatch hbuf
  have hc : s.committing = false := by
    have ha := ht.allowed
    rw [hr] at ha
    exact ha.1
  have hhalf := ht.kept.half half image hb
  rw [show s.writing = false by simp [writing, hc, hr], Bool.xor_false] at hhalf
  have himage := ht.kept.image half image hb _ hpage
  have hlen : (pageBytes (s.flash (s.remap v ((s.addr + s.got.length) / v.pageSize)))
      ((s.addr + s.got.length) % v.pageSize) n).length = n := by
    simp [pageBytes]
  rw [List.length_append, hlen, imageBytes_add image hn, ← ht.kept.reads half image hb, remap_eq,
    hhalf, himage]

namespace Held

variable (h : Held v base s)
include h

theorem multipageOpDone (ha : s.active = true) (hsync : s.request ≠ .sync) (result : TinyError)
    (crc : UInt16) (hread : s.request = .read → s.buf = .user → result = .success →
      s.currentOffset = s.got.length ∧ s.currentOffset ≤ s.len) :
    Tracks v (nextBase v s.state base (s.multipageOpDone v result crc))
      (s.multipageOpDone v result crc) := by
  unfold ConfigStorageP.multipageOpDone
  split
  · next hresult => exact h.endRequest _ _ fun _ _ hs => absurd hs hresult
  · next hresult =>
    exact h.multipageContinue ha hsync (fun hr hb => hread hr hb (not_not.1 hresult)) crc

/-- What was read goes to the buffer. -/
theorem store (hr : s.request = .read) {bytes : List UInt8}
    (hreads : s.buf = .user → ∀ half image, base = some (half, image) →
      s.got ++ bytes = imageBytes v image s.addr (s.got ++ bytes).length) :
    Held v base (s.store bytes) := by
  unfold ConfigStorageP.store
  split
  · exact ⟨⟨h.kept.fits, h.kept.inside, h.kept.based, h.kept.half, h.kept.image, h.kept.reads⟩,
      h.allowed, h.busy, h.requested, h.granted, h.copying, h.op, h.empty⟩
  · exact ⟨⟨h.kept.fits, h.kept.inside, h.kept.based, h.kept.half, h.kept.image, h.kept.reads⟩,
      h.allowed, h.busy, h.requested, h.granted, h.copying, h.op, h.empty⟩
  · next hlow hhigh =>
    have ha := h.allowed
    rw [hr] at ha
    have hbuf : s.buf = .user := by
      rcases ha.2 with ⟨-, hb⟩ | ⟨-, hb⟩
      · exact absurd hb (not_or.2 ⟨hlow, hhigh⟩)
      · exact hb
    exact ⟨⟨h.kept.fits, h.kept.inside, h.kept.based, h.kept.half, h.kept.image, hreads hbuf⟩,
      h.allowed, h.busy, h.requested, h.granted, h.copying, h.op, fun hne => absurd hr hne⟩

end Held

/-- The buffer apart, nothing changes. -/
theorem store_same (s : ConfigStorageP) (bytes : List UInt8) :
    (s.store bytes).request = s.request ∧ (s.store bytes).buf = s.buf ∧
    (s.store bytes).state = s.state ∧ (s.store bytes).active = s.active ∧
    (s.store bytes).currentOffset = s.currentOffset ∧ (s.store bytes).len = s.len := by
  unfold store
  split <;> exact ⟨rfl, rfl, rfl, rfl, rfl, rfl⟩

theorem store_user (hbuf : s.buf = .user) (bytes : List UInt8) :
    (s.store bytes).got = s.got ++ bytes := by
  simp [store, hbuf]

/-- An operation for a request is done. -/
theorem Tracks.worked (ht : Tracks v base s) {operation : Operation}
    (hrequested : s.requested = false) (hgranted : s.granted = true) (hactive : s.active = true)
    (hcopying : s.copying = false) (hop : s.op = some operation)
    (hempty : s.request ≠ .read → s.got = []) (hdoes : Matches v s operation)
    (result : TinyError) (left : Page) :
    Tracks v (nextBase v s.state base
        (({ s with op := none }.apply operation result left).operationDone v operation result))
      (({ s with op := none }.apply operation result left).operationDone v operation result) := by
  have hk := ht.kept
  have hheld : s.request ≠ .idle → Held v base { s with op := none } := fun hbusy =>
    ⟨⟨hk.fits, hk.inside, hk.based, hk.half, hk.image, hk.reads⟩, ht.allowed, hbusy, hrequested,
      hgranted, hcopying, rfl, hempty⟩
  cases operation with
  | copyPage source target => exact hdoes.elim
  | write page offset data =>
    have hr : s.request = .write := hdoes.1
    let s' := { s with op := none }.apply (.write page offset data) result left
    have hheld' : Held v base s' :=
      ⟨hk.update (fun half image hb => by
        have hspares := ht.spares hb
        rwa [hop] at hspares) _, ht.allowed, by simp [s', ConfigStorageP.apply, hr], hrequested,
        hgranted, hcopying, rfl, hempty⟩
    have hdone : s'.operationDone v (.write page offset data) result =
        s'.multipageOpDone v result 0 := if_pos hactive
    change Tracks v (nextBase v s.state base (s'.operationDone v (.write page offset data) result))
      (s'.operationDone v (.write page offset data) result)
    rw [hdone]
    refine hheld'.multipageOpDone hactive ?_ result 0 ?_
    · simp [s', ConfigStorageP.apply, hr]
    · simp [s', ConfigStorageP.apply, hr]
  | read page offset n =>
    have hr : s.request = .read := hdoes.1
    have hread := hheld (by simp [hr])
    by_cases hresult : result = .success
    · subst hresult
      let bytes := pageBytes (s.flash page) offset n
      let s' := { s with op := none }.store bytes
      have hheld' : Held v base s' :=
        hread.store hr fun hbuf _ _ hb => ht.reads_next hr hbuf hdoes hb
      obtain ⟨hr', hbuf, hstate, hactive', hoff, hlen⟩ := store_same { s with op := none } bytes
      change Tracks v (nextBase v s.state base (if s'.active then s'.multipageOpDone v .success 0
        else s')) (if s'.active then s'.multipageOpDone v .success 0 else s')
      rw [if_pos (hactive'.trans hactive), ← show s'.state = s.state from hstate]
      have hread' : s'.request = .read := hr'.trans hr
      refine hheld'.multipageOpDone (hactive'.trans hactive) (by simp [hread']) .success 0
        fun _ hb _ => ?_
      have huser : s.buf = .user := hbuf.symm.trans hb
      have hgot : s'.got = s.got ++ bytes := store_user (s := { s with op := none }) huser bytes
      rw [hgot, show s'.currentOffset = s.currentOffset from hoff, show s'.len = s.len from hlen]
      refine ⟨?_, hdoes.2.1⟩
      rw [List.length_append, show bytes.length = n by simp [bytes, pageBytes]]
      exact (hdoes.2.2 huser).1
    · unfold operationDone
      dsimp only [ConfigStorageP.apply]
      rw [if_neg hresult, if_pos hactive]
      exact hread.multipageOpDone hactive (by simp [hr]) result 0 fun _ _ hs => absurd hs hresult
  | computeCrc page offset n crc =>
    have hr : s.request = .crc := hdoes
    let s' : ConfigStorageP := { s with op := none }
    change Tracks v (nextBase v s.state base (s'.operationDone v _ result))
      (s'.operationDone v _ result)
    rw [show s'.operationDone v (.computeCrc page offset n crc) result = s'.multipageOpDone v result
      (crcBytes crc (pageBytes (s.flash page) offset n)) from if_pos hactive]
    exact (hheld (by simp [hr])).multipageOpDone hactive (by simp [hr]) result _ (by simp [hr])
  | syncAll =>
    have hr : s.request = .sync := hdoes
    let s' : ConfigStorageP := { s with op := none }
    change Tracks v (nextBase v s.state base (s'.operationDone v _ result))
      (s'.operationDone v _ result)
    rw [show s'.operationDone v .syncAll result = s'.endRequest v result 0 from if_pos hactive]
    exact (hheld (by simp [hr])).endRequest result 0 (by simp [hr])

/-- The operation under way is done. -/
theorem Tracks.done (ht : Tracks v base s) {operation : Operation} (hop : s.op = some operation)
    (result : TinyError) (left : Page) :
    Tracks v (nextBase v s.state base
        (({ s with op := none }.apply operation result left).operationDone v operation result))
      (({ s with op := none }.apply operation result left).operationDone v operation result) := by
  cases ht.phase with
  | rests _ quiet => exact absurd (hop.symm.trans quiet.op) (by simp)
  | waits _ _ _ _ _ op => exact absurd (hop.symm.trans op) (by simp)
  | copies source target request committing requested granted active copying state next got _ _ op =>
    obtain rfl : operation = .copyPage source target := Option.some.inj (hop.symm.trans op)
    have hcopied := ht.copied request committing requested granted active copying state next got op
      result left
    let s' := { s with op := none }.apply (.copyPage source target) result left
    change Tracks v (nextBase v s.state base (s'.operationDone v _ result))
      (s'.operationDone v _ result)
    rw [show s'.operationDone v (.copyPage source target) result = s'.copyCopyPageDone v result from
      if_pos copying]
    exact hcopied
  | works operation' requested granted active copying op empty does =>
    obtain rfl : operation = operation' := Option.some.inj (hop.symm.trans op)
    exact ht.worked requested granted active copying op empty does result left

/-! ## The client's commands -/

theorem Tracks.quiet (ht : Tracks v base s) (hidle : s.request = .idle) : Quiet s := by
  cases ht.phase with
  | rests _ quiet => exact quiet
  | waits hbusy => exact absurd hidle hbusy
  | copies _ _ hwrite => exact absurd (hidle.symm.trans hwrite) (by simp)
  | works operation _ _ _ _ _ _ does =>
    cases operation with
    | copyPage source target => exact does.elim
    | write page offset data => exact absurd (hidle.symm.trans does.1) (by simp)
    | read page offset n => exact absurd (hidle.symm.trans does.1) (by simp)
    | computeCrc page offset n crc => exact absurd (hidle.symm.trans does) (by simp)
    | syncAll => exact absurd (hidle.symm.trans does) (by simp)

theorem Tracks.committing (ht : Tracks v base s) (hidle : s.request = .idle) :
    s.committing = false := by
  have ha := ht.allowed
  rwa [hidle] at ha

/-- A refused request changes nothing, an accepted one waits. -/
theorem Tracks.newRequest (ht : Tracks v base s) {r : Request} {addr len : Nat} {buf : Buffer}
    (hr : r ≠ .idle) (hm : s.state.mounted = true)
    (ha : s.committing = false → Allowed r s.state s.committing buf) :
    Tracks v (nextBase v s.state base (s.newRequest v r addr buf len).2)
      (s.newRequest v r addr buf len).2 := by
  refine .same ht.kept.based (newRequest_state ..) ?_
  rcases s.newRequest_cases (v := v) r addr buf len with ⟨e, -, h⟩ | ⟨hidle, hin, -⟩
  · rw [h]
    exact ht
  · exact ht.kept.request (ht.quiet hidle) hidle (ht.kept.fits (.inr hm)) r addr
      buf len hr (ha (ht.committing hidle)) hin

theorem Tracks.mount (ht : Tracks v base s) :
    Tracks v (nextBase v s.state base (s.mount v).2) (s.mount v).2 := by
  unfold ConfigStorageP.mount
  split
  · exact ht.same ht.kept.based rfl
  · next hstopped =>
    have hstopped : s.state = .stopped := not_not.1 hstopped
    have hidle : s.request = .idle := by
      have ha := ht.allowed
      cases hr : s.request with
      | idle => rfl
      | _ => cases hc : s.committing <;> simp [hr, hc, hstopped, Allowed] at ha
    have hq := ht.quiet hidle
    let s' : ConfigStorageP := { s with state := .mount, flip := false }
    have hk : Kept v none s' :=
      .absent (by simp [s']) (by simp [s', hidle, ConfigState.mounted]) ht.kept.inside
    have hnext : nextBase v s.state base (s'.newRequest v .read 0 .low headerSize).2 = none :=
      nextBase_none (by simp [s'])
    refine hnext.symm ▸ ?_
    rcases s'.newRequest_cases (v := v) .read 0 .low headerSize with ⟨e, -, h⟩ | ⟨-, hin, -⟩
    · rw [h]
      refine ⟨hk, ?_, ht.told,
        .rests hidle ⟨hq.requested, hq.granted, hq.active, hq.copying, hq.op⟩⟩
      rw [show s'.request = .idle from hidle]
      exact ht.committing hidle
    · exact hk.request ⟨hq.requested, hq.granted, hq.active, hq.copying, hq.op⟩ hidle (by omega)
        .read 0 .low headerSize (by decide) ⟨ht.committing hidle, .inl ⟨rfl, .inl rfl⟩⟩ hin

theorem Tracks.read (ht : Tracks v base s) (addr len : Nat) :
    Tracks v (nextBase v s.state base (s.read v addr len).2) (s.read v addr len).2 := by
  unfold ConfigStorageP.read
  split
  · exact ht.same ht.kept.based rfl
  · next hm =>
    split
    · exact ht.same ht.kept.based rfl
    · next hvalid =>
      refine ht.newRequest (by decide) (by simpa using hm) fun hc => ⟨hc, .inr ⟨?_, rfl⟩⟩
      revert hm hvalid
      cases s.state <;> simp [ConfigState.mounted]

theorem Tracks.write (ht : Tracks v base s) (addr : Nat) (data : List UInt8) :
    Tracks v (nextBase v s.state base (s.write v addr data).2) (s.write v addr data).2 := by
  unfold ConfigStorageP.write
  split
  · exact ht.same ht.kept.based rfl
  · next hm =>
    refine ht.newRequest (by decide) (by simpa using hm) fun hc => ?_
    rw [hc]
    revert hm
    cases s.state <;> simp [ConfigState.mounted, Allowed]

/-- A commit of a volume that is not clean, while no request is in progress. -/
theorem commit_accepted (hd : s.state = .dirty ∨ s.state = .invalid) (hidle : s.request = .idle)
    (hsize : headerSize ≤ volumeSize v) :
    s.commit v = (.success, { s with
      flip := !s.flip, low := { s.low with version := s.low.version + 1 }, request := .crc
      addr := headerSize
      buf := .baseCrc (crcBytes 0 { s.low with version := s.low.version + 1 }.versionBytes)
      len := sizeWithout v headerSize, requested := true, got := [], committing := true }) := by
  unfold ConfigStorageP.commit
  rw [if_neg (by rcases hd with hd | hd <;> simp [hd, ConfigState.mounted]),
    if_neg (by rcases hd with hd | hd <;> simp [hd])]
  dsimp only
  rw [newRequest_accepted, if_pos rfl]
  · rfl
  · exact hidle
  · exact sizeWithout_le hsize

theorem Tracks.commit (ht : Tracks v base s)
    (hfree : s.state = .dirty ∨ s.state = .invalid → s.request = .idle) :
    Tracks v (nextBase v s.state base (s.commit v).2) (s.commit v).2 := by
  by_cases hd : s.state = .dirty ∨ s.state = .invalid
  · have hidle := hfree hd
    have hsize : headerSize ≤ volumeSize v :=
      ht.kept.fits (.inr (by rcases hd with hd | hd <;> simp [hd, ConfigState.mounted]))
    have h := commit_accepted (v := v) hd hidle hsize
    have hk := ht.kept
    have hq := ht.quiet hidle
    rw [h]
    refine .same hk.based rfl ?_
    refine ⟨⟨fun _ => hsize, sizeWithout_le hsize, hk.based, fun half image hb => ?_, hk.image,
      fun _ _ _ => rfl⟩, hd, nofun,
      .waits (by simp) rfl hq.granted hq.active hq.copying hq.op rfl⟩
    have hhalf := hk.half half image hb
    rw [show s.writing = false by simp [writing, ht.committing hidle, hidle], Bool.xor_false]
      at hhalf
    simp [writing, hhalf]
  · unfold ConfigStorageP.commit
    split
    · exact ht.same ht.kept.based rfl
    · next hm =>
      have hclean : s.state = .clean := by
        revert hm hd
        cases s.state <;> simp [ConfigState.mounted]
      rw [if_pos hclean]
      refine ht.newRequest (by decide) (by simp [hclean, ConfigState.mounted]) fun hc => ?_
      rw [hc]
      exact .inr hclean

/-- Every event but a commit that finds a request in progress. -/
theorem Tracks.step (ht : Tracks v base s) {e : ConfigEvent} {s' : ConfigStorageP}
    (hfree : ConfigWatch.isCommit e = true → s.state = .dirty ∨ s.state = .invalid →
      s.request = .idle) (hs : s.step v e = some s') :
    Tracks v (nextBase v s.state base s') s' := by
  cases e with
  | mount =>
    cases hs
    exact ht.mount
  | read addr len =>
    cases hs
    exact ht.read addr len
  | write addr data =>
    cases hs
    exact ht.write addr data
  | commit =>
    cases hs
    exact ht.commit (hfree rfl)
  | granted =>
    simp only [ConfigStorageP.step, Option.ite_none_right_eq_some, Option.some.injEq] at hs
    obtain ⟨hreq, rfl⟩ := hs
    exact ht.granted hreq
  | done result left =>
    simp only [ConfigStorageP.step, Option.map_eq_some_iff] at hs
    obtain ⟨operation, hop, rfl⟩ := hs
    exact ht.done hop result left

theorem tracks_boot (flash : Nat → Page) : Tracks v none (boot flash) where
  kept := .absent (by simp [boot]) (by simp [boot, ConfigState.mounted]) (Nat.zero_le _)
  allowed := rfl
  told := nofun
  phase := .rests rfl ⟨rfl, rfl, rfl, rfl, rfl⟩

end ConfigStorageP

namespace ConfigWatch

open ConfigStorageP

/-! ## The watched volume -/

/-- A commit of a volume that is not clean finds no request in progress. -/
def Meets (s : ConfigStorageP) (e : ConfigEvent) : Prop :=
  isCommit e = true → s.state = .dirty ∨ s.state = .invalid → s.request = .idle

instance (s : ConfigStorageP) (e : ConfigEvent) : Decidable (Meets s e) :=
  inferInstanceAs (Decidable (_ → _ → _))

theorem not_disturbs_of_meets (ht : Tracks v base s)
    (hfree : s.state = .dirty ∨ s.state = .invalid → s.request = .idle) : ¬Disturbs v s := by
  rintro ⟨herror, hsame⟩
  by_cases hd : s.state = .dirty ∨ s.state = .invalid
  · have hsize : headerSize ≤ volumeSize v :=
      ht.kept.fits (.inr (by rcases hd with hd | hd <;> simp [hd, ConfigState.mounted]))
    have h := commit_accepted (v := v) hd (hfree hd) hsize
    rw [h] at herror
    exact herror rfl
  · have hrefused : ∀ r : TinyError × ConfigStorageP, r = s.commit v →
        (∃ e, e ≠ TinyError.success ∧ r = (e, s)) → False := by
      rintro _ h ⟨e, -, rfl⟩
      exact hsame (h ▸ ⟨rfl, rfl, rfl, rfl, rfl, rfl⟩)
    by_cases hm : s.state.mounted = false
    · refine hrefused _ rfl ⟨.eoff, by decide, ?_⟩
      unfold ConfigStorageP.commit
      rw [if_pos hm]
    · have hclean : s.state = .clean := by
        revert hm hd
        cases s.state <;> simp [ConfigState.mounted]
      have hcommit : s.commit v = s.newRequest v .crc 0 (.baseCrc 0) 1 := by
        unfold ConfigStorageP.commit
        rw [if_neg hm, if_pos hclean]
      rcases s.newRequest_cases (v := v) .crc 0 (.baseCrc 0) 1 with h | ⟨-, -, h⟩
      · exact hrefused _ rfl (hcommit ▸ h)
      · rw [hcommit, h] at herror
        exact herror rfl

/-- A commit that finds a request in progress leaves the half flipped. -/
theorem disturbs_of_busy (hd : s.state = .dirty ∨ s.state = .invalid) (hbusy : s.request ≠ .idle) :
    Disturbs v s := by
  have hcommit : (s.commit v).1 = .ebusy ∧ (s.commit v).2.flip = !s.flip := by
    unfold ConfigStorageP.commit
    rw [if_neg (by rcases hd with hd | hd <;> simp [hd, ConfigState.mounted]),
      if_neg (by rcases hd with hd | hd <;> simp [hd])]
    dsimp only
    rw [newRequest_busy, if_neg (by simp)]
    · exact ⟨rfl, rfl⟩
    · exact hbusy
  refine ⟨by simp [hcommit.1], fun h => ?_⟩
  have hflip := h.1
  rw [hcommit.2] at hflip
  simp at hflip

theorem keeps_of_tracks {w : ConfigWatch} (ht : Tracks v w.base w.c) (hi : w.intact = true) :
    Keeps v w where
  intact := hi
  image := ht.kept.image
  current half image hb hr := by
    have hhalf := ht.kept.half half image hb
    have hc : w.c.committing = false := by
      have ha := ht.allowed
      rcases hr with hr | hr <;> rw [hr] at ha
      · exact ha
      · exact ha.1
    have hwriting : w.c.writing = false := by
      rcases hr with hr | hr <;> simp [writing, hc, hr]
    rwa [hwriting, Bool.xor_false] at hhalf
  reads := ht.kept.reads
  told := ht.told
  spares _ _ hb := ht.spares hb

theorem step_eq {w w' : ConfigWatch} {e : ConfigEvent} (hs : w.step v e = some w') :
    w.c.step v e = some w'.c ∧ w'.base = nextBase v w.c.state w.base w'.c ∧
      w'.intact = (w.intact && !(isCommit e && decide (Disturbs v w.c))) := by
  simp only [ConfigWatch.step, Option.map_eq_some_iff] at hs
  obtain ⟨c, hc, rfl⟩ := hs
  exact ⟨hc, rfl, rfl⟩

/-- **What is committed stays exactly as long as no commit of a volume that is not clean finds a
request of the client in progress.** -/
theorem keeps_iff {h : List (ConfigWatch × ConfigEvent)} {w : ConfigWatch}
    (hr : (machine v).Run h w) :
    (Keeps v w ∧ ∀ p ∈ h, Keeps v p.1) ↔ ∀ p ∈ h, Meets p.1.c p.2 := by
  refine hr.forall_iff_of_strong (J := fun w => Tracks v w.base w.c ∧ w.intact = true)
    (C := fun w e => Meets w.c e) ?_ ?_ ?_ ?_
  · rintro w ⟨⟨flash, hc⟩, hb, hi⟩
    rw [hb, hc]
    exact ⟨tracks_boot flash, hi⟩
  · rintro w ⟨ht, hi⟩
    exact keeps_of_tracks ht hi
  · rintro w e w' ⟨ht, hi⟩ hmeets hs
    obtain ⟨hc, hb, hi'⟩ := step_eq hs
    refine ⟨hb ▸ ht.step hmeets hc, ?_⟩
    rw [hi', hi]
    by_cases he : isCommit e = true
    · simp [not_disturbs_of_meets ht (hmeets he)]
    · simp [he]
  · rintro w e w' - hs hkeeps he hd
    obtain ⟨-, -, hi'⟩ := step_eq hs
    refine by_contra fun hbusy => ?_
    have := hkeeps.intact
    rw [hi', he] at this
    simp [disturbs_of_busy hd hbusy] at this

/-- Halves of one page, with two bytes for the client. -/
def onePage : Volume := ⟨1, 3, by decide, by decide⟩

/-- Booted, over pages of zeros: their CRC is right. -/
def zeros : ConfigWatch := ⟨.boot fun _ _ => 0, none, true⟩

theorem init_zeros : (machine onePage).init zeros := ⟨⟨_, rfl⟩, rfl, rfl⟩

/-- A mount, and a write after it. -/
def written : List ConfigEvent :=
  [.mount, .granted, .done .success fun _ => 0, .granted, .done .success fun _ => 0,
    .granted, .done .success fun _ => 0, .write 0 [1, 2], .granted, .done .success fun _ => 0,
    .done .success fun _ => 0]

/-- A write, a commit that fails, and a read. -/
theorem keeps_written : ∃ (h : List (ConfigWatch × ConfigEvent)) (w : ConfigWatch),
    (machine onePage).Run h w ∧
    w.c.log.take 2 = [.readDone 0 [0, 0] .success, .commitDone .fail] ∧
    Keeps onePage w := by
  obtain ⟨h, w, hr, hp⟩ := Machine.exists_run_of_exec init_zeros
    (written ++ [.commit, .granted, .done .fail fun _ => 0, .read 0 2, .granted,
      .done .success fun _ => 0])
    (fun h w => w.c.log.take 2 = [.readDone 0 [0, 0] .success, .commitDone .fail] ∧
      ∀ p ∈ h, Meets p.1.c p.2) (by decide)
  obtain ⟨hlog, hmeets⟩ := of_decide_eq_true hp
  exact ⟨h, w, hr, hlog, ((keeps_iff hr).2 hmeets).1⟩

/-- The commit is refused, and the read in progress returns what was not committed. -/
theorem keeps_false : ¬ ∀ h w, (machine onePage).Run h w → Keeps onePage w := by
  intro hall
  obtain ⟨h, w, hr, hp⟩ := Machine.exists_run_of_exec init_zeros
    (written ++ [.read 0 2, .commit, .granted, .done .success fun _ => 0])
    (fun _ w => w.c.log.head? = some (.readDone 0 [1, 2] .success) ∧ w.c.addr = headerSize ∧
      w.c.got = [1, 2] ∧ (w.base.map fun b => imageBytes onePage b.2 headerSize 2) = some [0, 0])
    (by decide)
  obtain ⟨-, haddr, hgot, hbase⟩ := of_decide_eq_true hp
  obtain ⟨⟨half, image⟩, hb, himage⟩ := Option.map_eq_some_iff.1 hbase
  have hreads := (hall h w hr).reads half image hb
  rw [haddr, hgot] at hreads
  cases hreads.trans himage

end ConfigWatch

end At45db
