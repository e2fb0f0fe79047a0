import Backip.At45db.ConfigPower
import Backip.At45db.Proof.ConfigHalves
import Backip.System.NwByte
import Mathlib.Tactic.Common

/-!
# What survives power loss

While a volume is mounted, the half that is not written has the last committed contents, and all its
pages are on the flash (`Medium`); the other half is valid only with contents that a commit was cut
short with (`Good`), and then its version is the larger one. So the half that is mounted has what
`Survives` says (`Medium.accept`, `Mounting.done`). Versions begin again when neither half is valid,
and a commit of a clean volume does not make a new one: then an old half can come back
(`ConfigPower.not_survives`). `Careful` leaves these commits out, and everything else is kept by
every event (`Inv.step`, `ConfigPower.survives_of_careful`).
-/

set_option autoImplicit false

namespace At45db

variable {v : Volume}

/-! ## Headers -/

namespace ConfigHeader

@[simp] theorem ofBytes_bytes (h : ConfigHeader) : ofBytes h.bytes = h := by
  have hcrc : (ofBytes h.bytes).crc = h.crc := ntohs_netBytes h.crc
  have hversion : (ofBytes h.bytes).version = h.version := word32_netBytes h.version
  cases h
  exact congrArg₂ mk hcrc hversion

end ConfigHeader

open ConfigStorageP (pageBytes crcBytes volumeSize splicePage)

@[simp] theorem length_pageBytes (page : Page) (offset n : Nat) :
    (pageBytes page offset n).length = n := by
  simp [pageBytes]

theorem pageBytes_add (page : Page) (offset m n : Nat) :
    pageBytes page offset (m + n) = pageBytes page offset m ++ pageBytes page (offset + m) n := by
  simp only [pageBytes, List.range_add, List.map_append, List.map_map]
  refine congrArg _ (List.map_congr_left fun i _ => ?_)
  simp only [Function.comp, Nat.add_assoc]

theorem imageBytes_append (image : Nat → Page) (addr m n : Nat) :
    imageBytes v image addr (m + n) =
      imageBytes v image addr m ++ imageBytes v image (addr + m) n := by
  simp only [imageBytes, List.range_add, List.map_append, List.map_map]
  refine congrArg _ (List.map_congr_left fun i _ => ?_)
  simp only [Function.comp, Nat.add_assoc]

/-- Bytes of the first page. -/
theorem imageBytes_first (image : Nat → Page) {addr n : Nat} (h : addr + n ≤ v.pageSize) :
    imageBytes v image addr n = pageBytes (image 0) addr n := by
  simp only [imageBytes, pageBytes]
  refine List.map_congr_left fun i hi => ?_
  have hi := List.mem_range.1 hi
  rw [Nat.div_eq_of_lt (by omega), Nat.mod_eq_of_lt (by omega)]

theorem imageBytes_congr {f g : Nat → Page} {addr n : Nat} (hin : addr + n ≤ volumeSize v)
    (h : ∀ p < v.npages, f p = g p) : imageBytes v f addr n = imageBytes v g addr n := by
  simp only [imageBytes]
  refine List.map_congr_left fun i hi => ?_
  have hi := List.mem_range.1 hi
  have hpage : (addr + i) / v.pageSize < v.npages :=
    (Nat.div_lt_iff_lt_mul v.pageSize_pos).2 (Nat.lt_of_lt_of_le (by omega) hin)
  rw [h _ hpage]

theorem headerSize_le_pageSize (v : Volume) : headerSize ≤ v.pageSize :=
  Nat.le_trans (show 6 ≤ 2 ^ 3 by decide) (Nat.pow_le_pow_right (by decide) v.large)

/-- The version in a body. -/
def bodyVersion (body : List UInt8) : Nat := (ConfigHeader.ofBytes (0 :: 0 :: body)).version.toNat

theorem bodyVersion_append (h : ConfigHeader) (rest : List UInt8) :
    bodyVersion (h.versionBytes ++ rest) = h.version.toNat :=
  congrArg UInt32.toNat (word32_netBytes h.version)

/-- The body of a half with a header. -/
theorem body_eq {s : ConfigStorageP} {half : Bool} {h : ConfigHeader}
    (hsize : headerSize ≤ volumeSize v) (hh : pageBytes (s.half v half 0) 0 headerSize = h.bytes) :
    s.body v half = h.versionBytes ++
      imageBytes v (s.half v half) headerSize (volumeSize v - headerSize) := by
  have hle := headerSize_le_pageSize v
  have hsum : volumeSize v - 2 = 4 + (volumeSize v - headerSize) := by
    simp only [headerSize] at hsize ⊢
    omega
  have hversion : pageBytes (s.half v half 0) 2 4 = h.versionBytes := by
    have hadd := pageBytes_add (s.half v half 0) 0 2 4
    rw [show (2 : Nat) + 4 = headerSize from rfl, hh] at hadd
    have hinj := List.append_inj (show [(h.crc >>> 8).toUInt8, h.crc.toUInt8] ++ h.versionBytes =
      pageBytes (s.half v half 0) 0 2 ++ pageBytes (s.half v half 0) 2 4 from hadd) (by simp)
    exact hinj.2.symm
  unfold ConfigStorageP.body
  rw [hsum, imageBytes_append, imageBytes_first _ (by simp only [headerSize] at hle; omega),
    hversion]
  rfl

theorem halfPage_inj {half : Bool} {p q : Nat} (h : halfPage v half p = halfPage v half q) :
    p = q := by
  cases half <;> simp only [halfPage, if_true, Bool.false_eq_true, if_false] at h <;> omega

/-- What is behind a header does not change when the header is written. -/
theorem imageBytes_header {f g : Nat → Page} {data : List UInt8} (hlen : data.length = headerSize)
    (hfirst : g 0 = splicePage (f 0) 0 data) (hrest : ∀ p, p ≠ 0 → g p = f p) (n : Nat) :
    imageBytes v g headerSize n = imageBytes v f headerSize n := by
  simp only [imageBytes]
  refine List.map_congr_left fun i _ => ?_
  by_cases hp : (headerSize + i) / v.pageSize = 0
  · have hlt : headerSize + i < v.pageSize := (Nat.div_eq_zero_iff_lt v.pageSize_pos).1 hp
    rw [hp, hfirst, Nat.mod_eq_of_lt hlt]
    simp only [splicePage]
    rw [if_neg (by omega)]
  · rw [hrest _ hp]

theorem crcBytes_append (crc : UInt16) (a b : List UInt8) :
    crcBytes crc (a ++ b) = crcBytes (crcBytes crc a) b :=
  List.foldl_append

/-- Bytes before what is written stay. -/
theorem pageBytes_splice_before (page : Page) {data : List UInt8} {offset at' n : Nat}
    (h : at' + n ≤ offset) :
    pageBytes (splicePage page offset data) at' n = pageBytes page at' n := by
  simp only [pageBytes]
  refine List.map_congr_left fun i hi => ?_
  have hi := List.mem_range.1 hi
  simp only [splicePage]
  rw [if_neg (by omega)]

theorem pageBytes_splice (page : Page) (data : List UInt8) :
    pageBytes (splicePage page 0 data) 0 data.length = data := by
  refine List.ext_getElem (by simp) fun i hi hi' => ?_
  simp [pageBytes, splicePage, hi']

namespace ConfigPower

variable {w : ConfigPower} {kept : Option (Bool × (Nat → Page))}

/-! ## What is on the flash -/

/-- The body of a half with the pages `image`. -/
def keptBody (v : Volume) (image : Nat → Page) : List UInt8 :=
  imageBytes v image 2 (volumeSize v - 2)

/-- A page with a header: it is that of a commit that was cut short or has begun, of what is kept,
or of something older. -/
structure Good (v : Volume) (cut : List (List UInt8)) (begun : Option (List UInt8))
    (kept : Option (Bool × (Nat → Page))) (x : Stored) : Prop where
  header : ∀ body, x.crcOf = some body → ∃ h : ConfigHeader,
    pageBytes x.page 0 headerSize = h.bytes ∧ h.crc = crcBytes 0 body ∧
      ∃ rest, body = h.versionBytes ++ rest
  known : ∀ body, x.crcOf = some body → body ∈ cut ∨ begun = some body ∨
    ∃ half image, kept = some (half, image) ∧
      (body = keptBody v image ∨ bodyVersion body < bodyVersion (keptBody v image))

/-- What the pages may be. `kept` is the half that was mounted or committed last, whose pages are
what they are. -/
structure Medium (v : Volume) (kept : Option (Bool × (Nat → Page))) (w : ConfigPower) : Prop where
  read : ∀ p, (⟨w.c.flash p, w.crcOf p⟩ : Stored) ∈ w.medium p
  good : ∀ half, ∀ x ∈ w.medium (halfPage v half 0), Good v w.cut w.begun kept x
  fresh : ∀ d, w.last = some d → ∀ body, body ∈ w.cut ∨ w.begun = some body →
    bodyVersion d < bodyVersion body
  stable : ∀ half image, kept = some (half, image) →
    ∀ p < v.npages, ∀ x ∈ w.medium (halfPage v half p), x.page = image p
  crcOf : ∀ half image, kept = some (half, image) →
    ∀ x ∈ w.medium (halfPage v half 0), x.crcOf = some (keptBody v image)
  known : ∀ half image, kept = some (half, image) →
    w.last = some (keptBody v image) ∨ keptBody v image ∈ w.cut
  unused : kept = none → w.last = none ∧ w.cut = []
  count : ∀ body, (body ∈ w.cut ∨ w.begun = some body ∨
    ∃ half image, kept = some (half, image) ∧ body = keptBody v image) →
      bodyVersion body ≤ w.commits
  size : kept.isSome = true → headerSize ≤ volumeSize v

/-- No page is other than it is read, and no commit is under way. -/
structure Settled (w : ConfigPower) : Prop where
  medium : ∀ p, w.medium p = [⟨w.c.flash p, w.crcOf p⟩]
  begun : w.begun = none

theorem left_mem (h : ∀ p, (⟨w.c.flash p, w.crcOf p⟩ : Stored) ∈ w.medium p) (pick : Nat → Nat)
    (p : Nat) : w.left pick p ∈ w.medium p := by
  unfold left
  rw [List.getD_eq_getElem?_getD]
  cases hget : (w.medium p)[pick p]? with
  | none => exact h p
  | some x => exact List.mem_of_getElem? hget

theorem settled_lost (pick : Nat → Nat) : Settled (w.lost pick) := ⟨fun _ => rfl, rfl⟩

/-- The power is lost. -/
theorem Medium.lost (h : Medium v kept w) (hbegun : kept = none → w.begun = none)
    (pick : Nat → Nat) : Medium v kept (w.lost pick) := by
  have hmem : ∀ p, ∀ x ∈ (w.lost pick).medium p, x ∈ w.medium p := by
    intro p x hx
    rw [List.mem_singleton.1 hx]
    exact left_mem h.read pick p
  have hcut : ∀ body, body ∈ (w.lost pick).cut ↔ body ∈ w.cut ∨ w.begun = some body := by
    intro body
    simp only [ConfigPower.lost, List.mem_append, Option.mem_toList]
    exact or_comm
  refine ⟨fun p => .head _, fun half x hx => ?_, ?_, ?_, ?_, ?_, ?_, ?_, h.size⟩
  · have hgood := h.good half x (hmem _ _ hx)
    refine ⟨hgood.header, fun body hb => ?_⟩
    rcases hgood.known body hb with hc | hc | hc
    · exact .inl ((hcut body).2 (.inl hc))
    · exact .inl ((hcut body).2 (.inr hc))
    · exact .inr (.inr hc)
  · intro d hd body hb
    refine h.fresh d hd body ((hcut body).1 (hb.resolve_right nofun))
  · exact fun half image hk p hp x hx => h.stable half image hk p hp x (hmem _ _ hx)
  · exact fun half image hk x hx => h.crcOf half image hk x (hmem _ _ hx)
  · exact fun half image hk => (h.known half image hk).imp_right fun hc => (hcut _).2 (.inl hc)
  · intro hk
    obtain ⟨hlast, hc⟩ := h.unused hk
    refine ⟨hlast, ?_⟩
    simp [ConfigPower.lost, hbegun hk, hc]
  · intro body hb
    refine h.count body ?_
    rcases hb with hb | hb | hb
    · rcases (hcut body).1 hb with hc | hc
      · exact .inl hc
      · exact .inr (.inl hc)
    · cases hb
    · exact .inr (.inr hb)

theorem medium_unused (flash : Nat → Page) : Medium v none (ConfigPower.unused flash) := by
  refine ⟨fun p => .head _, fun half x hx => ?_, nofun, nofun, nofun, nofun, fun _ => ⟨rfl, rfl⟩,
    ?_, nofun⟩
  · rw [List.mem_singleton.1 hx]
    exact ⟨nofun, nofun⟩
  · rintro body (hb | hb | ⟨half, image, hk, -⟩)
    · cases hb
    · cases hb
    · cases hk

end ConfigPower

namespace ConfigStorageP

/-- The header of a half. -/
def header (v : Volume) (s : ConfigStorageP) (half : Bool) : ConfigHeader :=
  .ofBytes (pageBytes (s.half v half 0) 0 headerSize)

/-- The checksum of a half is right. -/
def Valid (v : Volume) (s : ConfigStorageP) (half : Bool) : Prop :=
  (s.header v half).crc = crcBytes 0 (s.body v half)

end ConfigStorageP

namespace ConfigPower

variable {w : ConfigPower} {kept : Option (Bool × (Nat → Page))}

/-! ## Which half is mounted -/

theorem Medium.flash_eq (h : Medium v kept w) {half : Bool} {image : Nat → Page}
    (hk : kept = some (half, image)) {p : Nat} (hp : p < v.npages) : w.c.half v half p = image p :=
  h.stable half image hk p hp _ (h.read _)

theorem Medium.body_eq (h : Medium v kept w) {half : Bool} {image : Nat → Page}
    (hk : kept = some (half, image)) : w.c.body v half = keptBody v image := by
  have hsize := h.size (by simp [hk])
  refine imageBytes_congr ?_ fun p hp => h.flash_eq hk hp
  simp only [headerSize] at hsize
  omega

/-- The header of a half whose checksum was computed over `body`. -/
theorem Medium.header_eq (h : Medium v kept w) {half : Bool} {body : List UInt8}
    (hover : w.crcOf (halfPage v half 0) = some body) :
    pageBytes (w.c.half v half 0) 0 headerSize = (w.c.header v half).bytes ∧
      (w.c.header v half).crc = crcBytes 0 body ∧
      (w.c.header v half).version.toNat = bodyVersion body := by
  obtain ⟨hdr, hbytes, hcrc, rest, rfl⟩ :=
    (h.good half _ (h.read _)).header body hover
  have heq : w.c.header v half = hdr :=
    (congrArg ConfigHeader.ofBytes hbytes).trans (ConfigHeader.ofBytes_bytes hdr)
  rw [heq, bodyVersion_append]
  exact ⟨hbytes, hcrc, rfl⟩

theorem Medium.valid_kept (h : Medium v kept w) {half : Bool} {image : Nat → Page}
    (hk : kept = some (half, image)) : w.c.Valid v half ∧
      (w.c.header v half).version.toNat = bodyVersion (keptBody v image) := by
  have hover := h.crcOf half image hk _ (h.read _)
  obtain ⟨-, hcrc, hversion⟩ := h.header_eq hover
  refine ⟨?_, hversion⟩
  rw [ConfigStorageP.Valid, hcrc, h.body_eq hk]

/-- A half with the right checksum that is tried before the one that was kept, or is that one. -/
theorem Medium.accept (h : Medium v kept w) (hs : Settled w) (hd : Detects v w) {half : Bool}
    (hvalid : w.c.Valid v half) (hsize : headerSize ≤ volumeSize v)
    (htry : ∀ old image, kept = some (old, image) → old ≠ half →
      (w.c.header v old).version ≤ (w.c.header v half).version) :
    Medium v (some (half, w.c.half v half)) w ∧
      (w.c.header v half).version.toNat = bodyVersion (keptBody v (w.c.half v half)) := by
  have hover : w.crcOf (halfPage v half 0) = some (w.c.body v half) := hd half hvalid
  obtain ⟨-, -, hversion⟩ := h.header_eq hover
  have hknown := (h.good half _ (h.read _)).known _ hover
  rw [hs.begun] at hknown
  have hsome : ∃ old image, kept = some (old, image) := by
    rcases hknown with hc | hc | ⟨old, image, hk, -⟩
    · cases hk : kept with
      | none =>
        rw [(h.unused hk).2] at hc
        cases hc
      | some k => exact ⟨k.1, k.2, rfl⟩
    · cases hc
    · exact ⟨old, image, hk⟩
  obtain ⟨old, image, hk⟩ := hsome
  obtain ⟨-, holdversion⟩ := h.valid_kept hk
  have hold := h.body_eq hk
  -- What is mounted is not older than what was kept.
  have hle : bodyVersion (keptBody v image) ≤ bodyVersion (w.c.body v half) := by
    by_cases hsame : old = half
    · exact Nat.le_of_eq (by rw [← hsame, hold])
    · rw [← hversion, ← holdversion]
      exact UInt32.le_iff_toNat_le.1 (htry old image hk hsame)
  have hbody : w.c.body v half = keptBody v image ∨ w.c.body v half ∈ w.cut := by
    rcases hknown with hc | hc | ⟨old', image', hk', hc⟩
    · exact .inr hc
    · cases hc
    · obtain ⟨rfl, rfl⟩ := Prod.mk.inj (Option.some.inj (hk.symm.trans hk'))
      rcases hc with hc | hc
      · exact .inl hc
      · omega
  refine ⟨⟨h.read, fun half' x hx => ⟨(h.good half' x hx).header, fun body hb => ?_⟩, h.fresh,
    ?_, ?_, ?_, nofun, ?_, fun _ => hsize⟩, hversion⟩
  · rcases (h.good half' x hx).known body hb with hc | hc | ⟨old', image', hk', hc⟩
    · exact .inl hc
    · exact .inr (.inl hc)
    · obtain ⟨rfl, rfl⟩ := Prod.mk.inj (Option.some.inj (hk.symm.trans hk'))
      rcases hc with hc | hc
      · -- What was kept is what is mounted, was cut short, or is older.
        rcases hbody with heq | hcut
        · exact .inr (.inr ⟨_, _, rfl, .inl (hc.trans heq.symm)⟩)
        · rcases h.known old image hk with hlast | hkcut
          · refine .inr (.inr ⟨_, _, rfl, .inr ?_⟩)
            rw [hc]
            exact h.fresh _ hlast _ (.inl hcut)
          · exact .inl (hc ▸ hkcut)
      · exact .inr (.inr ⟨_, _, rfl, .inr (Nat.lt_of_lt_of_le hc hle)⟩)
  · rintro half' image' ⟨⟩ p - x hx
    rw [hs.medium, List.mem_singleton] at hx
    rw [hx]
    rfl
  · rintro half' image' ⟨⟩ x hx
    rw [hs.medium, List.mem_singleton] at hx
    rw [hx]
    exact hover
  · rintro half' image' ⟨⟩
    rcases hbody with heq | hcut
    · exact (h.known old image hk).imp (fun hl => hl.trans (congrArg some heq.symm))
        fun hc => (show w.c.body v half ∈ w.cut from heq ▸ hc)
    · exact .inr hcut
  · rintro body (hb | hb | ⟨half', image', ⟨⟩, rfl⟩)
    · exact h.count body (.inl hb)
    · exact h.count body (.inr (.inl hb))
    · rcases hbody with heq | hcut
      · exact h.count _ (.inr (.inr ⟨old, image, hk, heq⟩))
      · exact h.count _ (.inl hcut)

end ConfigPower

namespace ConfigStorageP

variable {s s' : ConfigStorageP}

/-! ## The operations of a request -/

theorem half_congr (hf : s'.flash = s.flash) (half : Bool) : s'.half v half = s.half v half := by
  funext p
  exact congrFun hf _

theorem header_congr (hf : s'.flash = s.flash) (half : Bool) :
    s'.header v half = s.header v half := by
  rw [header, header, half_congr hf]

theorem body_congr (hf : s'.flash = s.flash) (half : Bool) : s'.body v half = s.body v half := by
  rw [body, body, half_congr hf]

theorem valid_congr (hf : s'.flash = s.flash) (half : Bool) :
    s'.Valid v half ↔ s.Valid v half := by
  rw [Valid, Valid, header_congr hf, body_congr hf]

/-- The checksum a request starts with. -/
def startCrc (s : ConfigStorageP) : UInt16 :=
  match s.buf with
  | .baseCrc crc => crc
  | _ => 0

theorem startRequest_eq (hr : s.request ≠ .sync) :
    s.startRequest v = { s with currentOffset := 0 }.multipageContinue v s.startCrc := by
  unfold startRequest
  split
  · next h => exact absurd h hr
  · rfl

/-- The grant of a request that is not a client's write. -/
theorem granted_eq (hw : ¬(s.request = .write ∧ s.committing = false)) (hr : s.request ≠ .sync) :
    { s with requested := false, granted := true }.resourceGranted v =
      { s with
        requested := false, granted := true, active := true
        currentOffset := 0 }.multipageContinue v s.startCrc := by
  unfold resourceGranted
  rw [if_neg hw]
  exact startRequest_eq (s := { s with requested := false, granted := true, active := true }) hr

theorem readHeader (hr : s.request = .read) (haddr : s.addr = 0) (hlen : s.len = headerSize)
    (hoff : s.currentOffset = 0) (crc : UInt16) :
    s.multipageContinue v crc = { s with
      op := some (.read (halfPage v s.flip 0) 0 headerSize), currentOffset := headerSize } := by
  have hmin : min 6 v.pageSize = 6 := Nat.min_eq_left (headerSize_le_pageSize v)
  unfold multipageContinue nextOperation
  simp [hr, haddr, hlen, hoff, hmin, remap_eq, headerSize]

theorem writeHeader (hr : s.request = .write) (hbuf : s.buf = .low) (haddr : s.addr = 0)
    (hlen : s.len = headerSize) (hoff : s.currentOffset = 0) (crc : UInt16) :
    s.multipageContinue v crc = { s with
      op := some (.write (halfPage v s.flip 0) 0 s.low.bytes), currentOffset := headerSize } := by
  have hmin : min 6 v.pageSize = 6 := Nat.min_eq_left (headerSize_le_pageSize v)
  have htake : s.low.bytes.take 6 = s.low.bytes := List.take_of_length_le (Nat.le_refl 6)
  unfold multipageContinue nextOperation
  simp [hr, hbuf, haddr, hlen, hoff, hmin, remap_eq, htake, bufBytes, headerSize]

/-- The operation computes the checksum of the half further on. -/
def Sums (v : Volume) (s : ConfigStorageP) (start : UInt16) (op : Operation) : Prop :=
  ∃ m n, s.currentOffset = m + n ∧ s.currentOffset ≤ s.len ∧
    n ≤ v.pageSize - (s.addr + m) % v.pageSize ∧
    op = .computeCrc (s.remap v ((s.addr + m) / v.pageSize)) ((s.addr + m) % v.pageSize) n
      (crcBytes start (imageBytes v (s.half v s.flip) s.addr m))

/-- The rest of a checksum, or its end. -/
theorem sums_continue (hr : s.request = .crc) (hle : s.currentOffset ≤ s.len) (start : UInt16) :
    (s.currentOffset = s.len ∧
      s.multipageContinue v (crcBytes start (imageBytes v (s.half v s.flip) s.addr s.currentOffset))
        = s.endRequest v .success (crcBytes start (imageBytes v (s.half v s.flip) s.addr s.len))) ∨
    ∃ op n,
      s.multipageContinue v (crcBytes start (imageBytes v (s.half v s.flip) s.addr s.currentOffset))
        = { s with op := some op, currentOffset := n } ∧
      Sums v { s with op := some op, currentOffset := n } start op := by
  by_cases hend : s.currentOffset = s.len
  · refine .inl ⟨hend, ?_⟩
    unfold multipageContinue
    rw [if_pos (by omega), hend]
  · refine .inr ⟨.computeCrc (s.remap v ((s.addr + s.currentOffset) / v.pageSize))
      ((s.addr + s.currentOffset) % v.pageSize) (min (s.len - s.currentOffset)
        (v.pageSize - (s.addr + s.currentOffset) % v.pageSize))
      (crcBytes start (imageBytes v (s.half v s.flip) s.addr s.currentOffset)),
      s.currentOffset + min (s.len - s.currentOffset)
      (v.pageSize - (s.addr + s.currentOffset) % v.pageSize), ?_, ?_⟩
    · unfold multipageContinue
      rw [if_neg (by omega)]
      simp only [nextOperation, hr]
    · refine ⟨s.currentOffset, _, rfl, ?_, Nat.min_le_right _ _, rfl⟩
      simp only
      omega

/-- A part of a checksum is done. -/
theorem sums_done {start : UInt16} {op : Operation} (h : Sums v s start op)
    (hactive : s.active = true) (left : Page) :
    ({ s with op := none }.apply op .success left).operationDone v op .success =
      { s with op := none }.multipageContinue v
        (crcBytes start (imageBytes v (s.half v s.flip) s.addr s.currentOffset)) := by
  obtain ⟨m, n, hoff, -, hn, rfl⟩ := h
  rw [hoff, imageBytes_add _ hn, crcBytes_append]
  exact if_pos hactive

/-! ## Mounting -/

/-- The half that is tried first. -/
def first (s : ConfigStorageP) : Bool := decide (s.low.version < s.high.version)

/-- What a volume that is mounting has found out. -/
structure Mounting (v : Volume) (s : ConfigStorageP) : Prop where
  asks : s.request = .idle ∨
    (s.request = .read ∧ s.addr = 0 ∧ s.len = headerSize ∧
      (s.flip = false ∧ s.buf = .low ∨
        s.flip = true ∧ s.buf = .high ∧ s.low = s.header v false)) ∨
    (s.request = .crc ∧ s.addr = 2 ∧ s.len = volumeSize v - 2 ∧ s.buf = .baseCrc 0 ∧
      s.low = s.header v false ∧ s.high = s.header v true ∧
      (s.flip = s.first ∨ s.flip = !s.first ∧ ¬s.Valid v s.first))
  does : ∀ op, s.op = some op →
    (s.request = .read → op = .read (halfPage v s.flip 0) 0 headerSize ∧
      s.currentOffset = headerSize) ∧
    (s.request = .crc → Sums v s 0 op)

/-- How a mount ends. -/
def Mounted (v : Volume) (s : ConfigStorageP) : Prop :=
  s.request = .idle ∧ ((s.state = .clean ∧ s.Valid v s.flip ∧
    s.low.version = (s.header v s.flip).version ∧
    (s.Valid v (!s.flip) →
      (s.header v (!s.flip)).version ≤ (s.header v s.flip).version)) ∨
  (s.state = .invalid ∧ s.low.version = 0 ∧ ∀ half, ¬s.Valid v half))

theorem Mounting.granted (h : Mounting v s) (hm : s.state = .mount) (hbusy : s.request ≠ .idle)
    (hsize : headerSize ≤ volumeSize v) :
    let s' := { s with requested := false, granted := true }.resourceGranted v
    Mounting v s' ∧ s'.state = .mount ∧ s'.flash = s.flash ∧ s'.log = s.log := by
  obtain hidle | ⟨hr, haddr, hlen, hbuf⟩ | ⟨hr, haddr, hlen, hbuf, hlow, hhigh, hflip⟩ := h.asks
  · exact absurd hidle hbusy
  · have hgranted := (granted_eq (v := v) (s := s) (by simp [hr]) (by simp [hr])).trans
      (readHeader (v := v) (s := { s with
        requested := false, granted := true, active := true, currentOffset := 0 })
        hr haddr hlen rfl s.startCrc)
    rw [hgranted]
    refine ⟨⟨.inr (.inl ⟨hr, haddr, hlen, hbuf⟩), ?_⟩, hm, rfl, rfl⟩
    rintro op ⟨⟩
    refine ⟨fun _ => ⟨rfl, rfl⟩, fun hc => ?_⟩
    rw [show s.request = .crc from hc] at hr
    cases hr
  · let s₀ : ConfigStorageP :=
      { s with requested := false, granted := true, active := true, currentOffset := 0 }
    have hgranted : { s with requested := false, granted := true }.resourceGranted v =
        s₀.multipageContinue v 0 := by
      rw [granted_eq (by simp [hr]) (by simp [hr]), show s.startCrc = 0 by simp [startCrc, hbuf]]
    have hne : s₀.currentOffset ≠ s₀.len := by
      have : s₀.len = volumeSize v - 2 := hlen
      simp only [headerSize] at hsize
      rw [this]
      show 0 ≠ _
      omega
    obtain hend | ⟨op, n, heq, hsums⟩ :=
      sums_continue (v := v) (s := s₀) hr (Nat.zero_le _) 0
    · exact absurd hend.1 hne
    · rw [show s₀.multipageContinue v 0 = _ from heq] at hgranted
      rw [hgranted]
      refine ⟨⟨.inr (.inr ⟨hr, haddr, hlen, hbuf, hlow, hhigh, hflip⟩), ?_⟩, hm, rfl, rfl⟩
      rintro op' ⟨⟩
      refine ⟨fun hc => ?_, fun _ => hsums⟩
      rw [show s.request = .read from hc] at hr
      cases hr

/-- The next checksum, or the first. -/
theorem mounting_crc (hm : s.state = .mount) (hidle : s.request = .idle)
    (hsize : headerSize ≤ volumeSize v) (hop : s.op = none) (hlow : s.low = s.header v false)
    (hhigh : s.high = s.header v true)
    (hflip : s.flip = s.first ∨ s.flip = !s.first ∧ ¬s.Valid v s.first) :
    Mounting v (s.computeCrc v) ∧ (s.computeCrc v).state = .mount ∧
      (s.computeCrc v).flash = s.flash ∧ (s.computeCrc v).log = s.log := by
  have hsmall : volumeSize v < 2 ^ 32 := v.small
  have hwithout : sizeWithout v 2 = volumeSize v - 2 := by
    simp only [headerSize] at hsize
    unfold sizeWithout
    rw [show volumeSize v + 2 ^ 32 - 2 = volumeSize v - 2 + 2 ^ 32 by omega, Nat.add_mod_right,
      Nat.mod_eq_of_lt (by omega)]
  have hin : 2 + sizeWithout v 2 ≤ volumeSize v :=
    sizeWithout_le (Nat.le_trans (by decide) hsize)
  unfold computeCrc
  rw [newRequest_accepted hidle hin]
  refine ⟨⟨.inr (.inr ⟨rfl, rfl, hwithout, rfl, hlow, hhigh, hflip⟩), ?_⟩, hm, rfl, rfl⟩
  intro op h
  rw [show s.op = some op from h] at hop
  cases hop

/-- A header was read. -/
theorem mounting_read (hm : s.state = .mount) (hidle : s.request = .idle)
    (hsize : headerSize ≤ volumeSize v) (hop : s.op = none)
    (h : s.flip = false ∧ s.low = s.header v false ∨
      s.flip = true ∧ s.low = s.header v false ∧ s.high = s.header v true) :
    Mounting v (s.mountReadDone v .success) ∧ (s.mountReadDone v .success).state = .mount ∧
      (s.mountReadDone v .success).flash = s.flash ∧
      (s.mountReadDone v .success).log = s.log := by
  unfold ConfigStorageP.mountReadDone
  rw [if_neg (by simp)]
  rcases h with ⟨hflip, hlow⟩ | ⟨hflip, hlow, hhigh⟩
  · rw [if_pos (by simp [hflip])]
    have hacc : ({ s with flip := true } : ConfigStorageP).newRequest v .read 0 .high headerSize =
        _ := newRequest_accepted (show _ = _ from hidle)
      (show 0 + headerSize ≤ volumeSize v by omega)
    rw [hacc]
    refine ⟨⟨.inr (.inl ⟨rfl, rfl, rfl, .inr ⟨rfl, rfl, hlow⟩⟩), ?_⟩, hm, rfl, rfl⟩
    intro op h
    rw [show s.op = some op from h] at hop
    cases hop
  · rw [if_neg (by simp [hflip])]
    exact mounting_crc (s := { s with flip := s.low.version < s.high.version }) hm hidle hsize hop
      hlow hhigh (.inl rfl)

/-- The half that is tried first has the larger version. -/
theorem first_le (hlow : s.low = s.header v false) (hhigh : s.high = s.header v true) :
    (s.header v (!s.first)).version ≤ (s.header v s.first).version := by
  by_cases hlt : s.low.version < s.high.version
  · rw [show s.first = true from decide_eq_true hlt, Bool.not_true, ← hlow, ← hhigh]
    exact UInt32.le_of_lt hlt
  · rw [show s.first = false from decide_eq_false hlt, Bool.not_false, ← hlow, ← hhigh]
    exact UInt32.not_lt.1 hlt

/-- A checksum was computed. -/
theorem mounting_crcDone (hm : s.state = .mount) (hidle : s.request = .idle)
    (hsize : headerSize ≤ volumeSize v) (hop : s.op = none) (hlow : s.low = s.header v false)
    (hhigh : s.high = s.header v true)
    (hflip : s.flip = s.first ∨ s.flip = !s.first ∧ ¬s.Valid v s.first) :
    let s' := s.mountCrcDone v (crcBytes 0 (s.body v s.flip)) .success
    s'.flash = s.flash ∧
      (Mounting v s' ∧ s'.state = .mount ∧ s'.log = s.log ∨
        Mounted v s' ∧ s'.log = .mountDone .success :: s.log) := by
  intro s'
  have hheader : (if s.flip then s.high.crc else s.low.crc) = (s.header v s.flip).crc := by
    cases hf : s.flip <;> simp [hlow, hhigh]
  by_cases hvalid : s.Valid v s.flip
  · -- The half is mounted.
    have hdone : ∀ low : ConfigHeader, low.version = (s.header v s.flip).version →
        s' = { s with low := low, state := .clean }.signal (.mountDone .success) →
        s'.flash = s.flash ∧ (Mounting v s' ∧ s'.state = .mount ∧ s'.log = s.log ∨
          Mounted v s' ∧ s'.log = .mountDone .success :: s.log) := by
      intro low hversion hs'
      rw [hs']
      refine ⟨rfl, .inr ⟨⟨hidle, .inl ⟨rfl, hvalid, hversion, fun hother => ?_⟩⟩, rfl⟩⟩
      rcases hflip with hf | ⟨hf, hbad⟩
      · exact (hf ▸ first_le hlow hhigh : (s.header v (!s.flip)).version ≤ _)
      · refine absurd hother fun hother => hbad ?_
        rw [show s.first = !s.flip by rw [hf, Bool.not_not]]
        exact hother
    by_cases hf : s.flip = true
    · refine hdone { s.low with version := s.high.version } (by rw [hf, hhigh]) ?_
      simp only [s', ConfigStorageP.mountCrcDone, hheader]
      rw [if_pos ⟨trivial, hvalid.symm⟩, if_pos hf]
    · refine hdone s.low (by rw [Bool.eq_false_iff.2 hf, hlow]) ?_
      simp only [s', ConfigStorageP.mountCrcDone, hheader]
      rw [if_pos ⟨trivial, hvalid.symm⟩, if_neg hf]
  · have hs' : s' = if s.first = s.flip then s.flipHalf.computeCrc v else
        { s with state := .invalid, low := { s.low with version := 0 } }.signal
          (.mountDone .success) := by
      simp only [s', ConfigStorageP.mountCrcDone, hheader]
      rw [if_neg fun h => hvalid h.2.symm]
      rfl
    rw [hs']
    rcases hflip with hf | ⟨hf, hbad⟩
    · rw [if_pos hf.symm]
      have hcrc := mounting_crc (s := s.flipHalf) hm hidle hsize hop hlow hhigh
        (.inr ⟨congrArg (fun b => !b) hf, hf ▸ hvalid⟩)
      exact ⟨hcrc.2.2.1, .inl ⟨hcrc.1, hcrc.2.1, hcrc.2.2.2⟩⟩
    · rw [if_neg (by rw [hf]; simp)]
      refine ⟨rfl, .inr ⟨⟨hidle, .inr ⟨rfl, rfl, fun half => ?_⟩⟩, rfl⟩⟩
      by_cases hh : half = s.first
      · rw [hh]
        exact hbad
      · rw [show half = s.flip by rw [hf]; revert hh; cases half <;> cases s.first <;> simp]
        exact hvalid

theorem store_low (hb : s.buf = .low) (bytes : List UInt8) :
    s.store bytes = { s with low := .ofBytes bytes } := by
  simp only [store, hb]

theorem store_high (hb : s.buf = .high) (bytes : List UInt8) :
    s.store bytes = { s with high := .ofBytes bytes } := by
  simp only [store, hb]

/-- The read of a header is done. -/
theorem headerDone (hm : s.state = .mount) (hr : s.request = .read) (hactive : s.active = true)
    (hoff : s.currentOffset = s.len) (page offset n : Nat) (left : Page) :
    ({ s with op := none }.apply (.read page offset n) .success left).operationDone v
        (.read page offset n) .success =
      ({ s with op := none }.store (pageBytes (s.flash page) offset n)).released.mountReadDone v
        .success := by
  let s₁ := { s with op := none }.store (pageBytes (s.flash page) offset n)
  obtain ⟨hr₁, -, hm₁, hactive₁, hoff₁, hlen₁⟩ :=
    store_same { s with op := none } (pageBytes (s.flash page) offset n)
  have hcontinue : s₁.multipageContinue v 0 = s₁.endRequest v .success 0 :=
    if_pos (show s₁.len - s₁.currentOffset = 0 by
      rw [show s₁.len = s.len from hlen₁, show s₁.currentOffset = s.currentOffset from hoff₁]
      omega)
  have hend : s₁.endRequest v .success 0 = s₁.released.mountReadDone v .success := by
    rw [endRequest_eq, show s₁.request = .read from hr₁.trans hr]
    exact if_pos (show s₁.state = .mount from hm₁.trans hm)
  rw [← hend, ← hcontinue]
  exact if_pos (hactive₁.trans hactive)

/-- What a mount can come to with an operation. -/
def Mounts (v : Volume) (s s' : ConfigStorageP) : Prop :=
  s'.flash = s.flash ∧ (Mounting v s' ∧ s'.state = .mount ∧ s'.log = s.log ∨
    Mounted v s' ∧ s'.log = .mountDone .success :: s.log)

theorem Mounting.done (h : Mounting v s) (hm : s.state = .mount) (hbusy : s.request ≠ .idle)
    (hsize : headerSize ≤ volumeSize v) (hactive : s.active = true) {op : Operation}
    (hop : s.op = some op) (left : Page) :
    Mounts v s (({ s with op := none }.apply op .success left).operationDone v op .success) := by
  obtain ⟨hread, hcrc⟩ := h.does op hop
  obtain hidle | ⟨hr, haddr, hlen, hbuf⟩ | ⟨hr, haddr, hlen, hbuf, hlow, hhigh, hflip⟩ := h.asks
  · exact absurd hidle hbusy
  · obtain ⟨rfl, hoff⟩ := hread hr
    rw [headerDone hm hr hactive (hoff.trans hlen.symm)]
    have hheader : ConfigHeader.ofBytes (pageBytes (s.flash (halfPage v s.flip 0)) 0 headerSize) =
      s.header v s.flip := rfl
    rcases hbuf with ⟨hflip, hb⟩ | ⟨hflip, hb, hlow⟩
    · rw [store_low (s := { s with op := none }) hb, hheader]
      obtain ⟨hmount, hstate, hflash, hlog⟩ := mounting_read (v := v)
        (s := { s with op := none, low := s.header v s.flip }.released) hm rfl hsize rfl
        (.inl ⟨hflip, congrArg (s.header v) hflip⟩)
      exact ⟨hflash, .inl ⟨hmount, hstate, hlog⟩⟩
    · rw [store_high (s := { s with op := none }) hb, hheader]
      obtain ⟨hmount, hstate, hflash, hlog⟩ := mounting_read (v := v)
        (s := { s with op := none, high := s.header v s.flip }.released) hm rfl hsize rfl
        (.inr ⟨hflip, hlow, congrArg (s.header v) hflip⟩)
      exact ⟨hflash, .inl ⟨hmount, hstate, hlog⟩⟩
  · have hsums := hcrc hr
    obtain ⟨-, -, -, hle, -, -⟩ := id hsums
    rw [sums_done hsums hactive left]
    obtain ⟨-, heq⟩ | ⟨op', n', heq, hsums'⟩ :=
      sums_continue (v := v) (s := { s with op := none }) hr hle 0
    · let s₁ : ConfigStorageP := { s with op := none }
      have htotal : imageBytes v (s.half v s.flip) s.addr s.len = s.body v s.flip := by
        rw [haddr, hlen]
        rfl
      have hend : s₁.endRequest v .success (crcBytes 0 (s.body v s.flip)) =
          s₁.released.mountCrcDone v (crcBytes 0 (s.body v s.flip)) .success := by
        rw [endRequest_eq, show s₁.request = .crc from hr]
        exact if_pos hm
      rw [show s₁.multipageContinue v (crcBytes 0 (imageBytes v (s.half v s.flip) s.addr
        s.currentOffset)) = s₁.endRequest v .success (crcBytes 0 (imageBytes v (s.half v s.flip)
        s.addr s.len)) from heq, htotal, hend]
      exact mounting_crcDone (v := v) (s := s₁.released) hm rfl hsize rfl hlow hhigh hflip
    · let s₁ : ConfigStorageP := { s with op := none }
      rw [show s₁.multipageContinue v (crcBytes 0 (imageBytes v (s.half v s.flip) s.addr
        s.currentOffset)) = { s with op := some op', currentOffset := n' } from heq]
      refine ⟨rfl, .inl ⟨⟨.inr (.inr ⟨hr, haddr, hlen, hbuf, hlow, hhigh, hflip⟩), ?_⟩, hm, rfl⟩⟩
      rintro op'' ⟨⟩
      refine ⟨fun hc => ?_, fun _ => hsums'⟩
      rw [show s.request = .read from hc] at hr
      cases hr

/-! ## The client's requests -/

/-- A request of the client of a mounted volume, but for the commit of one that is not clean. -/
structure Client (s : ConfigStorageP) : Prop where
  mounted : s.state.mounted = true
  committing : s.committing = false
  request : s.request = .read ∧ s.buf = .user ∨ s.request = .write ∨
    s.request = .crc ∧ s.state = .clean

/-- What such a request keeps; `r` is what is asked for. -/
structure Quietly (r : Request) (s s' : ConfigStorageP) : Prop where
  low : s'.low = s.low
  committing : s'.committing = false
  flash : s'.flash = s.flash
  state : s'.state = s.state ∨ s'.state = .dirty
  log : s'.log = s.log ∨ ∃ c, s'.log = c :: s.log ∧ s'.request = .idle ∧
    ∀ result, c = .commitDone result → r = .crc
  crc : s'.request = .crc → r = .crc

namespace Client

variable (h : Client s)
include h

theorem endRequest (result : TinyError) (crc : UInt16) :
    Quietly s.request s (s.endRequest v result crc) := by
  have hstate : s.state ≠ .mount := by
    intro hm
    have := h.mounted
    rw [hm] at this
    cases this
  rw [endRequest_eq]
  rcases h.request with ⟨hr, -⟩ | hr | ⟨hr, hclean⟩ <;> rw [hr]
  · rw [show s.released.requestDone v .read result crc =
      s.released.signal (.readDone s.released.clientAddr s.released.got result) from if_neg hstate]
    exact ⟨rfl, h.committing, rfl, .inl rfl, .inr ⟨_, rfl, rfl, by rintro _ ⟨⟩⟩, by rintro ⟨⟩⟩
  · rw [show s.released.requestDone v .write result crc = s.released.writeWriteDone result from
      if_neg (by simp [released, h.committing])]
    exact ⟨rfl, h.committing, rfl, .inl rfl, .inr ⟨_, rfl, rfl, by rintro _ ⟨⟩⟩, by rintro ⟨⟩⟩
  · rw [show s.released.requestDone v .crc result crc = s.released.commitCrcDone v crc result from
      if_neg hstate]
    rw [show s.released.commitCrcDone v crc result = s.released.signal (.commitDone result) from
      if_pos hclean]
    exact ⟨rfl, h.committing, rfl, .inl rfl, .inr ⟨_, rfl, rfl, fun _ _ => rfl⟩, by rintro ⟨⟩⟩

theorem multipageContinue (crc : UInt16) : Quietly s.request s (s.multipageContinue v crc) := by
  unfold ConfigStorageP.multipageContinue
  split
  · exact h.endRequest .success crc
  · exact ⟨rfl, h.committing, rfl, .inl rfl, .inl rfl, id⟩

theorem startRequest : Quietly s.request s (s.startRequest v) := by
  rw [startRequest_eq (by rcases h.request with ⟨hr, -⟩ | hr | ⟨hr, -⟩ <;> simp [hr])]
  have h' : Client { s with currentOffset := 0 } := ⟨h.mounted, h.committing, h.request⟩
  have hq := h'.multipageContinue (v := v) s.startCrc
  exact ⟨hq.low, hq.committing, hq.flash, hq.state, hq.log, hq.crc⟩

theorem copyCopyPageDone (hr : s.request = .write) :
    Quietly s.request s (s.copyCopyPageDone v .success) := by
  by_cases hzero : s.nextPage = 0
  · have h' : Client { s with state := .dirty, copying := false, active := true } :=
      ⟨rfl, h.committing, .inr (.inl hr)⟩
    have hq := h'.startRequest (v := v)
    unfold ConfigStorageP.copyCopyPageDone
    rw [if_neg (by simp), if_pos hzero]
    exact ⟨hq.low, hq.committing, hq.flash, .inr (hq.state.elim id id), hq.log, hq.crc⟩
  · rw [copyCopyPageDone_next hzero]
    exact ⟨rfl, h.committing, rfl, .inl rfl, .inl rfl, id⟩

theorem granted : Quietly s.request s
    ({ s with requested := false, granted := true }.resourceGranted v) := by
  unfold resourceGranted
  by_cases hw : s.request = .write ∧ s.committing = false
  · rw [if_pos (show _ ∧ _ from hw)]
    dsimp only
    split
    · have h' : Client { s with
          requested := false, granted := true, active := true, flip := !s.flip } :=
        ⟨h.mounted, h.committing, .inr (.inl hw.1)⟩
      have hq := h'.startRequest (v := v)
      exact ⟨hq.low, hq.committing, hq.flash, hq.state, hq.log, hq.crc⟩
    · have h' : Client { s with
          requested := false, granted := true, active := true, flip := !s.flip, copying := true
          nextPage := v.npages } := ⟨h.mounted, h.committing, .inr (.inl hw.1)⟩
      have hq := h'.copyCopyPageDone (v := v) hw.1
      exact ⟨hq.low, hq.committing, hq.flash, hq.state, hq.log, hq.crc⟩
  · rw [if_neg (show ¬(_ ∧ _) from hw)]
    have h' : Client { s with requested := false, granted := true, active := true } :=
      ⟨h.mounted, h.committing, h.request⟩
    have hq := h'.startRequest (v := v)
    exact ⟨hq.low, hq.committing, hq.flash, hq.state, hq.log, hq.crc⟩

/-- An operation that succeeded; `s` is the volume after it. -/
theorem operationDone {op : Operation}
    (hcopy : ∀ source target, op = .copyPage source target → s.request = .write)
    (hread : ∀ page offset n, op = .read page offset n → s.request = .read) :
    Quietly s.request s (s.operationDone v op .success) := by
  have hsame : Quietly s.request s s := ⟨rfl, h.committing, rfl, .inl rfl, .inl rfl, id⟩
  have hnext : ∀ crc, Quietly s.request s
      (if s.active then s.multipageOpDone v .success crc else s) := by
    intro crc
    split
    · exact h.multipageContinue crc
    · exact hsame
  cases op with
  | copyPage source target =>
    unfold ConfigStorageP.operationDone
    dsimp only
    split
    · exact h.copyCopyPageDone (hcopy source target rfl)
    · exact hsame
  | write page offset data => exact hnext 0
  | computeCrc page offset n crc => exact hnext _
  | syncAll =>
    unfold ConfigStorageP.operationDone
    dsimp only
    split
    · exact h.endRequest .success 0
    · exact hsame
  | read page offset n =>
    have hr := hread page offset n rfl
    have hbuf : s.buf = .user := by
      rcases h.request with ⟨-, hb⟩ | hw | ⟨hc, -⟩
      · exact hb
      · cases hr.symm.trans hw
      · cases hr.symm.trans hc
    let s₁ : ConfigStorageP := { s with got := s.got ++ pageBytes (s.flash page) offset n }
    have hstore : s.store (pageBytes (s.flash page) offset n) = s₁ := by
      simp only [store, hbuf, s₁]
    have heq : s.operationDone v (.read page offset n) .success =
        if s₁.active then s₁.multipageContinue v 0 else s₁ := by
      rw [← hstore]
      rfl
    rw [heq]
    split
    · have h' : Client s₁ := ⟨h.mounted, h.committing, h.request⟩
      have hq := h'.multipageContinue (v := v) 0
      exact ⟨hq.low, hq.committing, hq.flash, hq.state, hq.log, hq.crc⟩
    · exact ⟨rfl, h.committing, rfl, .inl rfl, .inl rfl, id⟩

end Client

/-! ## Committing -/

/-- A commit of a volume that is not clean. -/
structure Committing (v : Volume) (s : ConfigStorageP) (crcOf : Option (List UInt8)) : Prop where
  committing : s.committing = true
  state : s.state = .dirty ∨ s.state = .invalid
  asks : (s.request = .crc ∧ s.addr = headerSize ∧ s.len = volumeSize v - headerSize ∧
      s.buf = .baseCrc (crcBytes 0 s.low.versionBytes)) ∨
    (s.request = .write ∧ s.addr = 0 ∧ s.len = headerSize ∧ s.buf = .low ∧
      s.low.crc = crcBytes 0 (s.committed v)) ∨
    (s.request = .sync ∧ s.low.crc = crcBytes 0 (s.committed v) ∧
      pageBytes (s.half v s.flip 0) 0 headerSize = s.low.bytes ∧ crcOf = some (s.committed v))
  does : ∀ op, s.op = some op →
    (s.request = .crc → Sums v s (crcBytes 0 s.low.versionBytes) op) ∧
    (s.request = .write → op = .write (halfPage v s.flip 0) 0 s.low.bytes ∧
      s.currentOffset = headerSize) ∧
    (s.request = .sync → op = .syncAll)

/-- The commit goes on, and the pages are what they were. -/
structure Continues (v : Volume) (crcOf : Option (List UInt8)) (s s' : ConfigStorageP) : Prop where
  committing : Committing v s' crcOf
  version : s'.low.version = s.low.version
  flip : s'.flip = s.flip
  state : s'.state = s.state
  log : s'.log = s.log
  flash : s'.flash = s.flash

theorem committed_crc (s : ConfigStorageP) : s.committed v = s.low.versionBytes ++
    imageBytes v (s.half v s.flip) headerSize (volumeSize v - headerSize) :=
  rfl

/-- The checksum of what is committed was computed. -/
theorem committing_crcDone {crcOf : Option (List UInt8)} (hc : s.committing = true)
    (hd : s.state = .dirty ∨ s.state = .invalid) (hidle : s.request = .idle) (hop : s.op = none)
    (hsize : headerSize ≤ volumeSize v) :
    Continues v crcOf s (s.commitCrcDone v (crcBytes 0 (s.committed v)) .success) := by
  have heq : s.commitCrcDone v (crcBytes 0 (s.committed v)) .success =
      { s with
        low := { s.low with crc := crcBytes 0 (s.committed v) }, request := .write, addr := 0
        buf := .low, len := headerSize, requested := true, got := [] } := by
    unfold commitCrcDone
    rw [if_neg (by rcases hd with hd | hd <;> simp [hd]), if_neg (by simp), newRequest_accepted]
    · exact hidle
    · omega
  rw [heq]
  refine ⟨⟨hc, hd, .inr (.inl ⟨rfl, rfl, rfl, rfl, rfl⟩), ?_⟩, rfl, rfl, rfl, rfl, rfl⟩
  intro op h
  rw [show s.op = some op from h] at hop
  cases hop

namespace Committing

variable {crcOf : Option (List UInt8)} (h : Committing v s crcOf)
include h

/-- The checksum goes on or is done. -/
theorem sum (hr : s.request = .crc) (haddr : s.addr = headerSize)
    (hlen : s.len = volumeSize v - headerSize)
    (hbuf : s.buf = .baseCrc (crcBytes 0 s.low.versionBytes)) (hop : s.op = none)
    (hle : s.currentOffset ≤ s.len) (hsize : headerSize ≤ volumeSize v) :
    Continues v crcOf s (s.multipageContinue v (crcBytes (crcBytes 0 s.low.versionBytes)
      (imageBytes v (s.half v s.flip) s.addr s.currentOffset))) := by
  obtain ⟨-, heq⟩ | ⟨op, n, heq, hsums⟩ :=
    sums_continue (v := v) hr hle (crcBytes 0 s.low.versionBytes)
  · have htotal : crcBytes (crcBytes 0 s.low.versionBytes)
        (imageBytes v (s.half v s.flip) s.addr s.len) = crcBytes 0 (s.committed v) := by
      rw [haddr, hlen, committed_crc, crcBytes_append]
    have hend : s.endRequest v .success (crcBytes 0 (s.committed v)) =
        s.released.commitCrcDone v (crcBytes 0 (s.released.committed v)) .success := by
      rw [endRequest_eq, hr]
      exact if_neg (by rcases h.state with hd | hd <;> simp [released, hd])
    rw [heq, htotal, hend]
    have hnext : Continues v crcOf s.released _ :=
      committing_crcDone (s := s.released) h.committing h.state rfl hop hsize
    exact ⟨hnext.committing, hnext.version, hnext.flip, hnext.state, hnext.log, hnext.flash⟩
  · rw [heq]
    refine ⟨⟨h.committing, h.state, .inl ⟨hr, haddr, hlen, hbuf⟩, ?_⟩, rfl, rfl, rfl, rfl, rfl⟩
    rintro op' ⟨⟩
    refine ⟨fun _ => hsums, fun hw => ?_, fun hs => ?_⟩
    · rw [show s.request = .write from hw] at hr
      cases hr
    · rw [show s.request = .sync from hs] at hr
      cases hr

theorem granted (hop : s.op = none) (hsize : headerSize ≤ volumeSize v) :
    Continues v crcOf s ({ s with requested := false, granted := true }.resourceGranted v) := by
  obtain ⟨hr, haddr, hlen, hbuf⟩ | ⟨hr, haddr, hlen, hbuf, hcrc⟩ | ⟨hr, hcrc, hheader, hover⟩ :=
    h.asks
  · have hstart : s.startCrc = crcBytes 0 s.low.versionBytes := by simp [startCrc, hbuf]
    have h' : Committing v { s with
        requested := false, granted := true, active := true, currentOffset := 0 } crcOf := by
      refine ⟨h.committing, h.state, .inl ⟨hr, haddr, hlen, hbuf⟩, ?_⟩
      intro op hsome
      rw [show s.op = some op from hsome] at hop
      cases hop
    rw [granted_eq (by simp [hr]) (by simp [hr]), hstart]
    have hnext := h'.sum hr haddr hlen hbuf hop (Nat.zero_le _) hsize
    exact ⟨hnext.committing, hnext.version, hnext.flip, hnext.state, hnext.log, hnext.flash⟩
  · have heq := (granted_eq (v := v) (s := s) (by simp [h.committing]) (by simp [hr])).trans
      (writeHeader (v := v) (s := { s with
        requested := false, granted := true, active := true, currentOffset := 0 })
        hr hbuf haddr hlen rfl s.startCrc)
    rw [heq]
    refine ⟨⟨h.committing, h.state, .inr (.inl ⟨hr, haddr, hlen, hbuf, hcrc⟩), ?_⟩,
      rfl, rfl, rfl, rfl, rfl⟩
    rintro op ⟨⟩
    refine ⟨fun hc => ?_, fun _ => ⟨rfl, rfl⟩, fun hs => ?_⟩
    · rw [show s.request = .crc from hc] at hr
      cases hr
    · rw [show s.request = .sync from hs] at hr
      cases hr
  · have heq : { s with requested := false, granted := true }.resourceGranted v = { s with
        requested := false, granted := true, active := true, op := some .syncAll } := by
      simp only [resourceGranted]
      rw [if_neg (by simp [hr])]
      simp only [startRequest, hr]
    rw [heq]
    refine ⟨⟨h.committing, h.state, .inr (.inr ⟨hr, hcrc, hheader, hover⟩), ?_⟩,
      rfl, rfl, rfl, rfl, rfl⟩
    rintro op ⟨⟩
    refine ⟨fun hc => ?_, fun hw => ?_, fun _ => rfl⟩
    · rw [show s.request = .crc from hc] at hr
      cases hr
    · rw [show s.request = .write from hw] at hr
      cases hr

theorem sumDone (hr : s.request = .crc) {op : Operation} (hop : s.op = some op)
    (hactive : s.active = true) (hsize : headerSize ≤ volumeSize v) (left : Page) :
    Continues v crcOf s
      (({ s with op := none }.apply op .success left).operationDone v op .success) := by
  have hsums := (h.does op hop).1 hr
  obtain ⟨-, -, -, hle, -, -⟩ := id hsums
  obtain ⟨-, haddr, hlen, hbuf⟩ | ⟨hw, -⟩ | ⟨hs, -⟩ := h.asks
  · have h' : Committing v { s with op := none } crcOf :=
      ⟨h.committing, h.state, .inl ⟨hr, haddr, hlen, hbuf⟩, nofun⟩
    rw [sums_done hsums hactive left]
    have hnext := h'.sum hr haddr hlen hbuf rfl hle hsize
    exact ⟨hnext.committing, hnext.version, hnext.flip, hnext.state, hnext.log, hnext.flash⟩
  · cases hr.symm.trans hw
  · cases hr.symm.trans hs

/-- The header is written. -/
theorem headerDone (hr : s.request = .write) {op : Operation} (hop : s.op = some op)
    (hactive : s.active = true) (left : Page) :
    let s' := ({ s with op := none }.apply op .success left).operationDone v op .success
    op = .write (halfPage v s.flip 0) 0 s.low.bytes ∧
    s'.flash = Function.update s.flash (halfPage v s.flip 0)
      (splicePage (s.flash (halfPage v s.flip 0)) 0 s.low.bytes) ∧
    s'.committed v = s.committed v ∧ Committing v s' (some (s.committed v)) ∧
    s'.low = s.low ∧ s'.flip = s.flip ∧ s'.state = s.state ∧ s'.log = s.log := by
  intro s'
  obtain ⟨rfl, hoff⟩ := (h.does op hop).2.1 hr
  obtain ⟨hc, -⟩ | ⟨-, -, hlen, -, hcrc⟩ | ⟨hs, -⟩ := h.asks
  · cases hr.symm.trans hc
  · let s₁ : ConfigStorageP := { s with
      op := none, flash := Function.update s.flash (halfPage v s.flip 0)
        (splicePage (s.flash (halfPage v s.flip 0)) 0 s.low.bytes) }
    have hend : s' = s₁.released.commitWriteDone v .success := by
      have hdone : s' = s₁.multipageContinue v 0 := if_pos hactive
      have hcontinue : s₁.multipageContinue v 0 = s₁.endRequest v .success 0 :=
        if_pos (show s.len - s.currentOffset = 0 by omega)
      rw [hdone, hcontinue, endRequest_eq, show s₁.request = .write from hr]
      exact if_pos h.committing
    have heq : s' = { s₁.released with
        request := .sync, addr := 0, buf := .null, len := 0, requested := true, got := [] } := by
      rw [hend]
      unfold commitWriteDone
      rw [if_neg (by simp), newRequest_accepted rfl (Nat.zero_le _)]
    have hfirst : s'.half v s.flip 0 = splicePage (s.half v s.flip 0) 0 s.low.bytes := by
      rw [heq]
      exact Function.update_self ..
    have hcommitted : s'.committed v = s.committed v := by
      have himage : imageBytes v (s'.half v s.flip) headerSize (volumeSize v - headerSize) =
          imageBytes v (s.half v s.flip) headerSize (volumeSize v - headerSize) := by
        refine imageBytes_header (show s.low.bytes.length = _ from rfl) hfirst (fun p hp => ?_) _
        rw [heq]
        exact Function.update_of_ne (fun h => hp (halfPage_inj h)) ..
      rw [heq] at himage ⊢
      exact congrArg (s.low.versionBytes ++ ·) himage
    refine ⟨rfl, by rw [heq]; rfl, hcommitted, ⟨?_, ?_, .inr (.inr ⟨?_, ?_, ?_, ?_⟩), ?_⟩, ?_⟩
    · rw [heq]
      exact h.committing
    · rw [heq]
      exact h.state
    · rw [heq]
    · rw [hcommitted, heq]
      exact hcrc
    · have hlow : s'.low = s.low := by rw [heq]; rfl
      have hflip : s'.flip = s.flip := by rw [heq]; rfl
      rw [hflip, hlow, hfirst]
      exact pageBytes_splice _ s.low.bytes
    · rw [hcommitted]
    · rw [heq]
      exact nofun
    · rw [heq]
      exact ⟨rfl, rfl, rfl, rfl⟩
  · cases hr.symm.trans hs

/-- Everything is on the flash. -/
theorem syncDone (hr : s.request = .sync) {op : Operation} (hop : s.op = some op)
    (hactive : s.active = true) (left : Page) :
    op = .syncAll ∧
    ({ s with op := none }.apply op .success left).operationDone v op .success =
      { { s with op := none }.released with committing := false, state := .clean }.signal
        (.commitDone .success) := by
  obtain rfl := (h.does op hop).2.2 hr
  refine ⟨rfl, ?_⟩
  let s₁ : ConfigStorageP := { s with op := none }
  have hdone : ({ s with op := none }.apply .syncAll .success left).operationDone v .syncAll
      .success = s₁.endRequest v .success 0 := if_pos hactive
  rw [hdone, endRequest_eq, show s₁.request = .sync from hr]
  rfl

end Committing

end ConfigStorageP

namespace ConfigPower

variable {w : ConfigPower} {kept : Option (Bool × (Nat → Page))}

/-! ## What happens to the pages -/

theorem Medium.congr (h : Medium v kept w) {c : ConfigStorageP} (hf : c.flash = w.c.flash) :
    Medium v kept { w with c := c } :=
  ⟨fun p => by
    rw [show ({ w with c := c } : ConfigPower).c.flash p = w.c.flash p from congrFun hf p]
    exact h.read p, h.good, h.fresh, h.stable, h.crcOf, h.known, h.unused, h.count, h.size⟩

theorem Settled.congr (h : Settled w) {c : ConfigStorageP} (hf : c.flash = w.c.flash) :
    Settled { w with c := c } :=
  ⟨fun p => by
    rw [show ({ w with c := c } : ConfigPower).c.flash p = w.c.flash p from congrFun hf p]
    exact h.medium p, h.begun⟩

theorem Detects.congr (h : Detects v w) {c : ConfigStorageP} (hf : c.flash = w.c.flash) :
    Detects v { w with c := c } := by
  intro half hvalid
  have hbody := ConfigStorageP.body_congr (v := v) hf half
  rw [show ({ w with c := c } : ConfigPower).c.body v half = w.c.body v half from hbody] at hvalid ⊢
  refine h half ?_
  rw [← ConfigStorageP.half_congr hf]
  exact hvalid

/-- A page that is not kept is written. -/
theorem Medium.wrote (h : Medium v kept w) {p : Nat} {page : Page} {crcOf : Option (List UInt8)}
    {c : ConfigStorageP} (hc : c.flash = Function.update w.c.flash p page)
    (hp : ∀ half image, kept = some (half, image) → ∀ q < v.npages, p ≠ halfPage v half q)
    (hgood : ∀ half, p = halfPage v half 0 → Good v w.cut w.begun kept ⟨page, crcOf⟩) :
    Medium v kept { w.wrote p page crcOf with c := c } := by
  have hother : ∀ q, q ≠ p → (w.wrote p page crcOf).medium q = w.medium q := fun q hq =>
    Function.update_of_ne hq ..
  have hself : (w.wrote p page crcOf).medium p = ⟨page, crcOf⟩ :: w.medium p :=
    Function.update_self ..
  refine ⟨fun q => ?_, fun half x hx => ?_, h.fresh, fun half image hk q hq x hx => ?_,
    fun half image hk x hx => ?_, h.known, h.unused, h.count, h.size⟩
  · by_cases hq : q = p
    · subst hq
      have hhead : (⟨c.flash q, (w.wrote q page crcOf).crcOf q⟩ : Stored) = ⟨page, crcOf⟩ := by
        rw [hc, Function.update_self]
        exact congrArg _ (Function.update_self ..)
      rw [show (_ : Stored) = _ from hhead]
      exact hself ▸ .head _
    · have hsame : (⟨c.flash q, (w.wrote p page crcOf).crcOf q⟩ : Stored) =
          ⟨w.c.flash q, w.crcOf q⟩ := by
        rw [hc, Function.update_of_ne hq]
        exact congrArg _ (Function.update_of_ne hq ..)
      rw [show (_ : Stored) = _ from hsame]
      exact hother q hq ▸ h.read q
  · by_cases hq : halfPage v half 0 = p
    · rw [show ({ w.wrote p page crcOf with c := c } : ConfigPower).medium (halfPage v half 0) =
        ⟨page, crcOf⟩ :: w.medium (halfPage v half 0) from hq ▸ hself] at hx
      rcases List.mem_cons.1 hx with rfl | hx
      · exact hgood half hq.symm
      · exact h.good half x hx
    · rw [show ({ w.wrote p page crcOf with c := c } : ConfigPower).medium (halfPage v half 0) =
        w.medium (halfPage v half 0) from hother _ hq] at hx
      exact h.good half x hx
  · rw [show ({ w.wrote p page crcOf with c := c } : ConfigPower).medium (halfPage v half q) =
      w.medium (halfPage v half q) from hother _ (hp half image hk q hq).symm] at hx
    exact h.stable half image hk q hq x hx
  · have hpos : 0 < v.npages :=
      Nat.pos_of_ne_zero (ConfigStorageP.npages_ne_zero (h.size (by simp [hk])))
    rw [show ({ w.wrote p page crcOf with c := c } : ConfigPower).medium (halfPage v half 0) =
      w.medium (halfPage v half 0) from hother _ (hp half image hk 0 hpos).symm] at hx
    exact h.crcOf half image hk x hx

/-- A commit begins. -/
theorem Medium.begins (h : Medium v kept w) (hnone : w.begun = none) {c : ConfigStorageP}
    (hf : c.flash = w.c.flash) {body : List UInt8}
    (hfresh : ∀ d, w.last = some d → bodyVersion d < bodyVersion body)
    (hcount : bodyVersion body ≤ w.commits + 1) :
    Medium v kept { w with c := c, commits := w.commits + 1, begun := some body } := by
  have hc := h.congr hf
  refine ⟨hc.read, fun half x hx => ⟨(h.good half x hx).header, fun b hb => ?_⟩,
    fun d hd b hb => ?_, h.stable, h.crcOf, h.known, h.unused, fun b hb => ?_, h.size⟩
  · rcases (h.good half x hx).known b hb with hcut | hbegun | hk
    · exact .inl hcut
    · rw [hnone] at hbegun
      cases hbegun
    · exact .inr (.inr hk)
  · rcases hb with hb | hb
    · exact h.fresh d hd b (.inl hb)
    · obtain rfl := Option.some.inj hb
      exact hfresh d hd
  · rcases hb with hb | hb | hb
    · exact Nat.le_succ_of_le (h.count b (.inl hb))
    · obtain rfl := Option.some.inj hb
      exact hcount
    · exact Nat.le_succ_of_le (h.count b (.inr (.inr hb)))

/-- A commit is asked for, and none begins. -/
theorem Medium.counted (h : Medium v kept w) (hnone : w.begun = none) {c : ConfigStorageP}
    (hf : c.flash = w.c.flash) :
    Medium v kept { w with c := c, commits := w.commits + 1, begun := none } := by
  refine ⟨(h.congr hf).read, fun half x hx => ?_, fun d hd b hb => ?_, h.stable, h.crcOf, h.known,
    h.unused, fun b hb => ?_, h.size⟩
  · rw [← hnone]
    exact h.good half x hx
  · rw [← hnone] at hb
    exact h.fresh d hd b hb
  · rw [← hnone] at hb
    exact Nat.le_succ_of_le (h.count b hb)

/-- Everything that was written is on the flash. -/
theorem Medium.synced (h : Medium v kept w) {c : ConfigStorageP} (hf : c.flash = w.c.flash)
    {half : Bool} (hbegun : w.begun = some (w.c.body v half))
    (hother : ∀ old image, kept = some (old, image) → half = (!old) ∧
      bodyVersion (keptBody v image) < bodyVersion (w.c.body v half))
    (hover : w.crcOf (halfPage v half 0) = some (w.c.body v half))
    (hsize : headerSize ≤ volumeSize v) :
    Medium v (some (half, w.c.half v half))
      { w with
        c := c, medium := fun p => [⟨c.flash p, w.crcOf p⟩], last := some (c.body v half)
        begun := none, cut := [] } := by
  have hbody : c.body v half = w.c.body v half := ConfigStorageP.body_congr hf half
  have hkept : keptBody v (w.c.half v half) = w.c.body v half := rfl
  refine ⟨fun p => .head _, fun half' x hx => ?_, fun d _ b hb => ?_, ?_, ?_, ?_, nofun, ?_,
    fun _ => hsize⟩
  · have hx := List.mem_singleton.1 hx
    rw [show c.flash (halfPage v half' 0) = w.c.flash (halfPage v half' 0) from
      congrFun hf _] at hx
    subst hx
    have hgood := h.good half' _ (h.read _)
    refine ⟨hgood.header, fun b hb => .inr (.inr ⟨_, _, rfl, ?_⟩)⟩
    rw [hkept]
    by_cases hhalf : half' = half
    · -- The half that is committed.
      subst hhalf
      exact .inl (Option.some.inj (hb.symm.trans hover))
    · cases hk : kept with
      | none =>
        rcases hgood.known b hb with hcut | hbegin | ⟨_, _, hk', -⟩
        · rw [(h.unused hk).2] at hcut
          cases hcut
        · exact .inl (Option.some.inj (hbegin.symm.trans hbegun))
        · cases hk.symm.trans hk'
      | some k =>
        -- The half that was kept.
        obtain ⟨old, image⟩ := k
        obtain ⟨hold, hlt⟩ := hother old image hk
        have heq : half' = old := by
          revert hhalf hold
          cases half' <;> cases half <;> cases old <;> simp
        subst heq
        have hb' := h.crcOf half' image hk _ (h.read _)
        rw [Option.some.inj (hb.symm.trans hb')]
        exact .inr hlt
  · rcases hb with hb | hb <;> cases hb
  · rintro half' image ⟨⟩ p - x hx
    rw [List.mem_singleton.1 hx]
    exact congrFun hf _
  · rintro half' image ⟨⟩ x hx
    rw [List.mem_singleton.1 hx]
    exact hover
  · rintro half' image ⟨⟩
    exact .inl (congrArg some hbody)
  · rintro b (hb | hb | ⟨half', image, ⟨⟩, rfl⟩)
    · cases hb
    · cases hb
    · exact h.count _ (.inr (.inl hbegun))

/-! ## The invariant -/

open ConfigStorageP (Tracks Mounting Committing Client Quietly Phase Matches)

/-- The version of what is kept. -/
def keptVersion (v : Volume) : Option (Bool × (Nat → Page)) → Nat
  | some k => bodyVersion (keptBody v k.2)
  | none => 0

/-- What a mounted volume knows of what is kept, and of its commit. -/
structure Runs (v : Volume) (kept : Option (Bool × (Nat → Page))) (w : ConfigPower) : Prop where
  version : w.c.committing = false → w.c.low.version.toNat = keptVersion v kept
  begun : w.c.committing = false → w.begun = none
  crc : w.c.committing = false → w.c.request = .crc → w.cut = []
  commits : w.c.committing = true → w.c.low.version.toNat = keptVersion v kept + 1 ∧
    w.begun = some (w.c.committed v) ∧ Committing v w.c (w.crcOf (halfPage v w.c.flip 0))

inductive Inv (v : Volume) (w : ConfigPower) : Prop
  | stopped {kept : Option (Bool × (Nat → Page))} (medium : Medium v kept w)
    (tracks : Tracks v none w.c) (state : w.c.state = .stopped) (settled : Settled w)
  | mounting {kept : Option (Bool × (Nat → Page))} (medium : Medium v kept w)
    (tracks : Tracks v none w.c) (state : w.c.state = .mount) (settled : Settled w)
    (detects : Detects v w) (mounts : Mounting v w.c)
  | mounted {kept : Option (Bool × (Nat → Page))} (medium : Medium v kept w)
    (tracks : Tracks v kept w.c) (state : w.c.state.mounted = true) (runs : Runs v kept w)

theorem inv_unused (flash : Nat → Page) : Inv v (ConfigPower.unused flash) :=
  .stopped (medium_unused flash) (ConfigStorageP.tracks_boot flash) rfl ⟨fun _ => rfl, rfl⟩

/-- What commits may be cut short and made. -/
def Careful (w : ConfigPower) : PowerEvent → Prop
  | .lost _ => ¬(w.c.state = .invalid ∧ w.begun.isSome = true)
  | .does .commit => w.c.state = .clean → w.cut = []
  | _ => True

instance (w : ConfigPower) : (e : PowerEvent) → Decidable (Careful w e)
  | .lost _ => inferInstanceAs (Decidable ¬_)
  | .does .commit => inferInstanceAs (Decidable (_ → _))
  | .does .mount | .does (.read ..) | .does (.write ..) | .does .granted | .does (.done ..) =>
    .isTrue trivial

theorem Inv.lost (h : Inv v w) {pick : Nat → Nat} (hc : Careful w (.lost pick)) :
    Inv v (w.lost pick) := by
  have hboot : ∀ kept, Medium v kept w → (kept = none → w.begun = none) → Inv v (w.lost pick) :=
    fun kept hm hb => .stopped (hm.lost hb pick) (ConfigStorageP.tracks_boot _) rfl
      (settled_lost pick)
  cases h with
  | stopped medium _ _ settled => exact hboot _ medium fun _ => settled.begun
  | mounting medium _ _ settled => exact hboot _ medium fun _ => settled.begun
  | @mounted kept medium tracks state runs =>
    refine hboot _ medium fun hk => ?_
    have hinvalid : w.c.state = .invalid := by
      have hbased := tracks.kept.based
      rw [hk] at hbased
      have hnot := mt hbased.2 (by simp)
      revert hnot state
      cases w.c.state <;> simp [ConfigState.mounted]
    exact Option.not_isSome_iff_eq_none.1 fun hb => hc ⟨hinvalid, hb⟩

/-! ## Events -/

theorem stored_record (w : ConfigPower) (c : ConfigStorageP) (o : Option Operation) :
    (w.stored c o).last = w.last ∧ (w.stored c o).begun = w.begun ∧ (w.stored c o).cut = w.cut ∧
      (w.stored c o).commits = w.commits := by
  cases o with
  | none => exact ⟨rfl, rfl, rfl, rfl⟩
  | some op => cases op <;> exact ⟨rfl, rfl, rfl, rfl⟩

theorem not_commits {old c : ConfigStorageP} (h : c.log = old.log) : ¬Commits old c := by
  intro hc
  rw [Commits, h] at hc
  exact absurd (congrArg List.length hc) (by simp)

theorem not_commits_cons {old c : ConfigStorageP} {x : ConfigSignal} (h : c.log = x :: old.log)
    (hx : x ≠ .commitDone .success) : ¬Commits old c := by
  intro hc
  rw [Commits, h] at hc
  exact hx (List.cons.inj hc).1

theorem after_eq {e : ConfigEvent} {c : ConfigStorageP} (he : ConfigWatch.isCommit e = false)
    (hc : ¬Commits w.c c) :
    w.after v e c = { w.stored c (if isDone e then w.c.op else none) with c := c } := by
  unfold ConfigPower.after
  rw [if_neg (by simp [he]), if_neg hc]

/-- The half that is read is what is kept. -/
theorem body_at_rest (hm : Medium v kept w) (ht : Tracks v kept w.c)
    (hr : w.c.request = .idle ∨ w.c.request = .read) {half : Bool} {image : Nat → Page}
    (hk : kept = some (half, image)) :
    w.c.flip = half ∧ w.c.body v w.c.flip = keptBody v image := by
  have hflip : w.c.flip = half :=
    (ConfigWatch.keeps_of_tracks (w := ⟨w.c, kept, true⟩) ht rfl).current half image hk hr
  exact ⟨hflip, by rw [hflip]; exact hm.body_eq hk⟩

/-- A request of the client goes on. -/
theorem Inv.client {e : ConfigEvent} {c s₁ : ConfigStorageP} (he : ConfigWatch.isCommit e = false)
    (ht : Tracks v (nextBase v w.c.state kept c) c) (hbased : Based kept w.c.state)
    (hmounted : w.c.state.mounted = true) (hr : Runs v kept w) (hclient : Client w.c)
    (hm : Medium v kept { w.stored c (if isDone e then w.c.op else none) with c := c })
    (hlow : s₁.low = w.c.low) (hlog : s₁.log = w.c.log) (hstate : s₁.state = w.c.state)
    (hq : Quietly w.c.request s₁ c) : Inv v (w.after v e c) := by
  let w₁ : ConfigPower := { w.stored c (if isDone e then w.c.op else none) with c := c }
  obtain ⟨hlast, hbegun, hcut, -⟩ := stored_record w c (if isDone e then w.c.op else none)
  have hmounted' : c.state.mounted = true := by
    rcases hq.state with hs | hs
    · rw [hs, hstate]
      exact hmounted
    · rw [hs]
      rfl
  have ht' : Tracks v kept c := by
    have hbase : nextBase v w.c.state kept c = kept := by
      rcases hq.state with hs | hs
      · exact nextBase_same hbased (hs.trans hstate)
      · exact nextBase_dirty hs
    rwa [hbase] at ht
  have hinv : Inv v w₁ := by
    refine .mounted hm ht' hmounted' ⟨fun _ => ?_, fun _ => ?_, fun _ hc => ?_, fun hc => ?_⟩
    · rw [show w₁.c.low = w.c.low from hq.low.trans hlow]
      exact hr.version hclient.committing
    · exact hbegun.trans (hr.begun hclient.committing)
    · exact hcut.trans (hr.crc hclient.committing (hq.crc hc))
    · cases hq.committing.symm.trans hc
  by_cases hcommits : Commits w.c c
  · -- The commit of a clean volume is done: it commits what is kept.
    have hcrc : w.c.request = .crc ∧ c.request = .idle := by
      rcases hq.log with hl | ⟨x, hl, hidle, hx⟩
      · exact absurd hcommits (not_commits (hl.trans hlog))
      · rw [Commits, hl, hlog] at hcommits
        exact ⟨hx _ (List.cons.inj hcommits).1, hidle⟩
    have hnone := hr.crc hclient.committing hcrc.1
    have hclean : w.c.state = .clean := by
      rcases hclient.request with ⟨h, -⟩ | h | ⟨-, h⟩
      · cases hcrc.1.symm.trans h
      · cases hcrc.1.symm.trans h
      · exact h
    obtain ⟨⟨half, image⟩, hk⟩ := Option.isSome_iff_exists.1 (hbased.2 (.inl hclean))
    have hbody := (body_at_rest (w := w₁) hm ht' (.inl hcrc.2) hk).2
    have hlast' : w₁.last = some (c.body v c.flip) := by
      rcases hm.known half image hk with hl | hc
      · exact hl.trans (congrArg some hbody.symm)
      · rw [show w₁.cut = [] from hcut.trans hnone] at hc
        cases hc
    have heq : w.after v e c =
        { w₁ with last := some (c.body v c.flip), begun := none, cut := [] } := by
      unfold ConfigPower.after
      rw [if_neg (by simp [he]), if_pos hcommits]
    have hsame : ({ w₁ with last := some (c.body v c.flip), begun := none, cut := [] } :
        ConfigPower) = w₁ := by
      rw [← hlast', ← show w₁.begun = none from hbegun.trans (hr.begun hclient.committing),
        ← show w₁.cut = [] from hcut.trans hnone]
    rw [heq, hsame]
    exact hinv
  · rw [after_eq he hcommits]
    exact hinv

theorem client_of_tracks {s : ConfigStorageP} (ht : Tracks v kept s) (hm : s.state.mounted = true)
    (hc : s.committing = false) (hbusy : s.request ≠ .idle) : Client s := by
  refine ⟨hm, hc, ?_⟩
  have ha := ht.allowed
  rw [hc] at ha
  have hmount : s.state ≠ .mount := by
    intro h
    rw [h] at hm
    cases hm
  cases hr : s.request with
  | idle => exact absurd hr hbusy
  | read =>
    rw [hr] at ha
    rcases ha.2 with ⟨h, -⟩ | ⟨-, hb⟩
    · exact absurd h hmount
    · exact .inl ⟨rfl, hb⟩
  | write => exact .inr (.inl rfl)
  | crc =>
    rw [hr] at ha
    exact .inr (.inr ⟨rfl, ha.resolve_left hmount⟩)
  | sync =>
    rw [hr] at ha
    cases ha.1

/-- A commit goes on without writing. -/
theorem Inv.continues {e : ConfigEvent} {c : ConfigStorageP} (he : ConfigWatch.isCommit e = false)
    (ht : Tracks v (nextBase v w.c.state kept c) c) (hm : Medium v kept w)
    (hbased : Based kept w.c.state) (hmounted : w.c.state.mounted = true) (hr : Runs v kept w)
    (hcommitting : w.c.committing = true)
    (hstored : w.stored c (if isDone e then w.c.op else none) = w)
    (hnext : ConfigStorageP.Continues v (w.crcOf (halfPage v w.c.flip 0)) w.c c) :
    Inv v (w.after v e c) := by
  obtain ⟨hversion, hbegun, -⟩ := hr.commits hcommitting
  rw [after_eq he (not_commits hnext.log), hstored]
  rw [nextBase_same hbased hnext.state] at ht
  have hcommitted : c.committed v = w.c.committed v := by
    have hbytes : c.low.versionBytes = w.c.low.versionBytes := by
      simp only [ConfigHeader.versionBytes, hnext.version]
    rw [ConfigStorageP.committed_crc, ConfigStorageP.committed_crc, hbytes, hnext.flip,
      ConfigStorageP.half_congr hnext.flash]
  refine .mounted (hm.congr hnext.flash) ht (by rw [hnext.state]; exact hmounted)
    ⟨fun h => ?_, fun h => ?_, fun h => ?_, fun _ => ⟨?_, ?_, ?_⟩⟩
  · cases hnext.committing.committing.symm.trans h
  · cases hnext.committing.committing.symm.trans h
  · cases hnext.committing.committing.symm.trans h
  · rw [show ({ w with c := c } : ConfigPower).c.low.version = w.c.low.version from hnext.version]
    exact hversion
  · rw [show ({ w with c := c } : ConfigPower).c.committed v = w.c.committed v from hcommitted]
    exact hbegun
  · have hcommits := hnext.committing
    rw [← hnext.flip] at hcommits
    exact hcommits

theorem Inv.granted (h : Inv v w) {c : ConfigStorageP} (hs : w.c.step v .granted = some c) :
    Inv v (w.after v .granted c) := by
  have hstep : ∀ base, Tracks v base w.c → Tracks v (nextBase v w.c.state base c) c :=
    fun base ht => ht.step (e := .granted) nofun hs
  simp only [ConfigStorageP.step, Option.ite_none_right_eq_some, Option.some.injEq] at hs
  obtain ⟨hreq, hc⟩ := hs
  have hwaits : ∀ base, Tracks v base w.c → w.c.request ≠ .idle ∧ w.c.op = none := by
    intro base ht
    cases ht.phase with
    | rests _ quiet => exact absurd (hreq.symm.trans quiet.requested) (by simp)
    | copies _ _ _ _ requested => exact absurd (hreq.symm.trans requested) (by simp)
    | works _ requested => exact absurd (hreq.symm.trans requested) (by simp)
    | waits hbusy _ _ _ _ hop => exact ⟨hbusy, hop⟩
  cases h with
  | stopped medium tracks state settled =>
    exfalso
    have ha := tracks.allowed
    obtain ⟨hbusy, -⟩ := hwaits _ tracks
    revert ha hbusy
    rw [state]
    cases w.c.request <;> cases w.c.committing <;> simp [ConfigStorageP.Allowed]
  | mounting medium tracks state settled detects mounts =>
    obtain ⟨hbusy, -⟩ := hwaits _ tracks
    obtain ⟨hmounts, hstate, hflash, hlog⟩ :=
      mounts.granted state hbusy (tracks.kept.fits (.inl hbusy))
    rw [hc] at hmounts hstate hflash hlog
    have ht := hstep _ tracks
    rw [nextBase_none (by simp [hstate])] at ht
    rw [after_eq rfl (not_commits hlog)]
    exact .mounting (medium.congr hflash) ht hstate (settled.congr hflash) (detects.congr hflash)
      hmounts
  | @mounted kept medium tracks state runs =>
    obtain ⟨hbusy, hop⟩ := hwaits _ tracks
    have ht := hstep _ tracks
    by_cases hcommitting : w.c.committing = true
    · have hnext := (runs.commits hcommitting).2.2.granted hop (tracks.kept.fits (.inl hbusy))
      rw [hc] at hnext
      exact .continues rfl ht medium tracks.kept.based state runs hcommitting rfl hnext
    · have hclient := client_of_tracks tracks state (by simpa using hcommitting) hbusy
      have hq := hclient.granted (v := v)
      rw [hc] at hq
      exact .client rfl ht tracks.kept.based state runs hclient (medium.congr hq.flash) rfl rfl rfl
        hq

/-- The volume is mounted. -/
theorem Inv.mountDone {c : ConfigStorageP} (hm : Medium v kept w)
    (ht : Tracks v (nextBase v w.c.state none c) c) (hstate : w.c.state = .mount)
    (hs : Settled w) (hd : Detects v w) (hsize : headerSize ≤ volumeSize v)
    (hflash : c.flash = w.c.flash) (hmounted : ConfigStorageP.Mounted v c) :
    Inv v { w with c := c } := by
  have hc := ht.committing hmounted.1
  have hcrc : c.request ≠ .crc := by simp [hmounted.1]
  rcases hmounted.2 with ⟨hclean, hvalid, hversion, htry⟩ | ⟨hinvalid, hversion, hbad⟩
  · rw [ConfigStorageP.valid_congr hflash] at hvalid htry
    rw [ConfigStorageP.header_congr hflash] at hversion htry
    rw [ConfigStorageP.header_congr hflash] at htry
    obtain ⟨hmedium, hkept⟩ := hm.accept hs hd hvalid hsize fun old image hk hne => by
      have hold : old = !c.flip := by
        revert hne
        cases old <;> cases c.flip <;> simp
      rw [hold]
      exact htry (hold ▸ (hm.valid_kept hk).1)
    have hbase : nextBase v w.c.state none c = some (c.flip, w.c.half v c.flip) := by
      rw [nextBase_clean hclean (by simp [hstate]), hflash]
      rfl
    rw [hbase] at ht
    refine .mounted (hmedium.congr hflash) ht (by rw [hclean]; rfl)
      ⟨fun _ => ?_, fun _ => hs.begun, fun _ h => absurd h hcrc, fun h => ?_⟩
    · rw [show ({ w with c := c } : ConfigPower).c.low.version = _ from hversion]
      exact hkept
    · cases hc.symm.trans h
  · have hnone : kept = none := by
      cases hk : kept with
      | none => rfl
      | some k =>
        refine absurd (hm.valid_kept (show kept = some (k.1, k.2) from hk)).1 ?_
        rw [← ConfigStorageP.valid_congr hflash]
        exact hbad k.1
    subst hnone
    rw [nextBase_none (by simp [hinvalid])] at ht
    refine .mounted (hm.congr hflash) ht (by rw [hinvalid]; rfl)
      ⟨fun _ => ?_, fun _ => hs.begun, fun _ h => absurd h hcrc, fun h => ?_⟩
    · rw [show ({ w with c := c } : ConfigPower).c.low.version = _ from hversion]
      rfl
    · cases hc.symm.trans h

/-- An operation of a mount is done. -/
theorem Inv.mountStep {c : ConfigStorageP} {op : Operation} {left : Page} (hm : Medium v kept w)
    (ht : Tracks v none w.c) (ht' : Tracks v (nextBase v w.c.state none c) c)
    (hstate : w.c.state = .mount) (hs : Settled w) (hd : Detects v w) (h : Mounting v w.c)
    (hop : w.c.op = some op)
    (hc : ({ w.c with op := none }.apply op .success left).operationDone v op .success = c) :
    Inv v (w.after v (.done .success left) c) := by
  have hworks : w.c.active = true ∧ w.c.request ≠ .idle := by
    cases ht.phase with
    | rests _ quiet => exact absurd (hop.symm.trans quiet.op) (by simp)
    | waits _ _ _ _ _ hnone => exact absurd (hop.symm.trans hnone) (by simp)
    | copies _ _ _ _ _ _ _ _ hclean => cases hstate.symm.trans hclean
    | works operation _ _ active _ _ _ does =>
      refine ⟨active, fun hidle => ?_⟩
      cases operation with
      | copyPage source target => exact does.elim
      | write page offset data => exact absurd (hidle.symm.trans does.1) (by simp)
      | read page offset n => exact absurd (hidle.symm.trans does.1) (by simp)
      | computeCrc page offset n crc => exact absurd (hidle.symm.trans does) (by simp)
      | syncAll => exact absurd (hidle.symm.trans does) (by simp)
  have hsize := ht.kept.fits (.inl hworks.2)
  have hstored : w.stored c (if isDone (.done .success left) then w.c.op else none) = w := by
    change w.stored c w.c.op = w
    rw [hop]
    rcases h.asks with hidle | ⟨hr, -⟩ | ⟨hr, -⟩
    · exact absurd hidle hworks.2
    · rw [((h.does op hop).1 hr).1]
      rfl
    · obtain ⟨_, _, -, -, -, rfl⟩ := (h.does op hop).2 hr
      rfl
  obtain ⟨hflash, hnext⟩ := h.done hstate hworks.2 hsize hworks.1 hop left
  rw [hc] at hflash hnext
  rcases hnext with ⟨hmounting, hstate', hlog⟩ | ⟨hmounted, hlog⟩
  · rw [nextBase_none (by simp [hstate'])] at ht'
    rw [after_eq rfl (not_commits hlog), hstored]
    exact .mounting (hm.congr hflash) ht' hstate' (hs.congr hflash) (hd.congr hflash) hmounting
  · rw [after_eq rfl (not_commits_cons hlog (by simp)), hstored]
    exact .mountDone hm ht' hstate hs hd hsize hflash hmounted

/-- An operation that changes a page of the half that is not kept. -/
theorem Medium.op (hm : Medium v kept w) (ht : Tracks v kept w.c) {op : Operation}
    (hop : w.c.op = some op) (hc : w.c.committing = false) {c : ConfigStorageP} (left : Page)
    (hflash : c.flash = ({ w.c with op := none }.apply op .success left).flash) :
    Medium v kept { w.stored c (some op) with c := c } := by
  have hspares : ∀ {half : Bool} {image : Nat → Page}, kept = some (half, image) →
      ConfigWatch.Spares v half (some op) := fun hk => hop ▸ ht.spares hk
  cases op with
  | copyPage source target =>
    cases ht.phase with
    | rests _ quiet => exact absurd (hop.symm.trans quiet.op) (by simp)
    | waits _ _ _ _ _ hnone => exact absurd (hop.symm.trans hnone) (by simp)
    | works operation _ _ _ _ op _ does =>
      obtain rfl := Option.some.inj (hop.symm.trans op)
      exact does.elim
    | copies source' target' hr _ _ hgranted _ _ hstate hnext _ hsource htarget op =>
      obtain ⟨rfl, rfl⟩ := Operation.copyPage.inj (Option.some.inj (hop.symm.trans op))
      have hpage : c.flash = Function.update w.c.flash target (w.c.flash source) := hflash
      have htarget' : c.flash target = w.c.flash source := by
        rw [hpage, Function.update_self]
      refine Medium.wrote hm (by rw [htarget']; exact hpage) (fun half image hk q hq =>
        hspares hk q hq) fun half hhalf => ?_
      rw [htarget']
      obtain ⟨⟨old, image⟩, hk⟩ := Option.isSome_iff_exists.1 (ht.kept.based.2 (.inl hstate))
      have hpos : 0 < v.npages := Nat.lt_of_le_of_lt (Nat.zero_le _) hnext
      -- The page of the header is copied, so that its source is the kept half's.
      have hflip : w.c.flip = !old := by
        have hold := ht.kept.half old image hk
        rwa [show w.c.writing = true by simp [ConfigStorageP.writing, hr, hgranted],
          Bool.xor_true] at hold
      have hzero : w.c.nextPage = 0 := by
        have heq : halfPage v w.c.flip w.c.nextPage = halfPage v half 0 := htarget.symm.trans hhalf
        by_cases hsame : half = w.c.flip
        · rw [hsame] at heq
          exact halfPage_inj heq
        · rw [show half = !w.c.flip by revert hsame; cases half <;> cases w.c.flip <;> simp] at heq
          exact absurd heq.symm (halfPage_ne _ hnext hpos)
      rw [hsource, hzero]
      exact hm.good _ _ (hm.read _)
  | write page offset data =>
    have hpage : c.flash =
        Function.update w.c.flash page (splicePage (w.c.flash page) offset data) := hflash
    have hpage' : c.flash page = splicePage (w.c.flash page) offset data := by
      rw [hpage, Function.update_self]
    refine Medium.wrote hm (by rw [hpage']; exact hpage) (fun half image hk q hq =>
      hspares hk q hq) fun half hhalf => ?_
    rw [if_neg (by simp [hc]), hpage']
    split
    · exact ⟨by rintro _ ⟨⟩, by rintro _ ⟨⟩⟩
    · next hoffset =>
      subst hhalf
      have hgood := hm.good half _ (hm.read _)
      refine ⟨fun body hb => ?_, hgood.known⟩
      rw [pageBytes_splice_before _ (by omega)]
      exact hgood.header body hb
  | read page offset n => exact hm.congr hflash
  | computeCrc page offset n crc => exact hm.congr hflash
  | syncAll =>
    exfalso
    cases ht.phase with
    | rests _ quiet => exact absurd (hop.symm.trans quiet.op) (by simp)
    | waits _ _ _ _ _ hnone => exact absurd (hop.symm.trans hnone) (by simp)
    | copies _ _ _ _ _ _ _ _ _ _ _ _ _ op => exact absurd (hop.symm.trans op) (by simp)
    | works operation _ _ _ _ op _ does =>
      obtain rfl := Option.some.inj (hop.symm.trans op)
      have hr : w.c.request = .sync := does
      have ha := ht.allowed
      rw [hr, hc] at ha
      cases ha.1

theorem bodyVersion_committed (s : ConfigStorageP) :
    bodyVersion (s.committed v) = s.low.version.toNat :=
  bodyVersion_append s.low _

/-- An operation of a commit is done. -/
theorem Inv.commitStep {c : ConfigStorageP} {op : Operation} {left : Page} (hm : Medium v kept w)
    (ht : Tracks v kept w.c) (ht' : Tracks v (nextBase v w.c.state kept c) c)
    (hmounted : w.c.state.mounted = true) (hr : Runs v kept w)
    (hcommitting : w.c.committing = true) (hop : w.c.op = some op)
    (hactive : w.c.active = true) (hbusy : w.c.request ≠ .idle)
    (hc : ({ w.c with op := none }.apply op .success left).operationDone v op .success = c) :
    Inv v (w.after v (.done .success left) c) := by
  obtain ⟨hversion, hbegun, h⟩ := hr.commits hcommitting
  have hsize := ht.kept.fits (.inl hbusy)
  have hspares : ∀ {half : Bool} {image : Nat → Page}, kept = some (half, image) →
      ConfigWatch.Spares v half (some op) := fun hk => hop ▸ ht.spares hk
  rcases h.asks with ⟨hreq, -⟩ | ⟨hreq, -, -, -, hcrc⟩ | ⟨hreq, hcrc, hheader, hover⟩
  · have hnext := h.sumDone hreq hop hactive hsize left
    rw [hc] at hnext
    refine .continues rfl ht' hm ht.kept.based hmounted hr hcommitting ?_ hnext
    change w.stored c w.c.op = w
    rw [hop]
    obtain ⟨_, _, -, -, -, rfl⟩ := (h.does op hop).1 hreq
    rfl
  · obtain ⟨rfl, hflash, hcommitted, hcommits, hlow, hflip, hstate, hlog⟩ :=
      h.headerDone hreq hop hactive left
    rw [hc] at hflash hcommitted hcommits hlow hflip hstate hlog
    let page := splicePage (w.c.flash (halfPage v w.c.flip 0)) 0 w.c.low.bytes
    have hpage : c.flash (halfPage v w.c.flip 0) = page := by
      rw [hflash, Function.update_self]
    have hstored : w.stored c (if isDone (.done .success left) then w.c.op else none) =
        w.wrote (halfPage v w.c.flip 0) page w.begun := by
      change w.stored c w.c.op = _
      rw [hop, ← hpage]
      simp only [ConfigPower.stored, if_pos hcommitting]
    rw [nextBase_same ht.kept.based hstate] at ht'
    rw [after_eq rfl (not_commits hlog), hstored]
    have hmedium : Medium v kept
        { w.wrote (halfPage v w.c.flip 0) page w.begun with c := c } := by
      refine hm.wrote hflash (fun half image hk q hq => hspares hk q hq) fun half _ => ?_
      rw [hbegun]
      refine ⟨fun body hb => ?_, fun body hb => .inr (.inl hb)⟩
      obtain rfl := Option.some.inj hb
      exact ⟨w.c.low, pageBytes_splice _ w.c.low.bytes, hcrc, _, ConfigStorageP.committed_crc w.c⟩
    refine .mounted hmedium ht' (by rw [hstate]; exact hmounted)
      ⟨fun h => ?_, fun h => ?_, fun h => ?_, fun _ => ⟨?_, ?_, ?_⟩⟩
    · cases hcommits.committing.symm.trans h
    · cases hcommits.committing.symm.trans h
    · cases hcommits.committing.symm.trans h
    · rw [show ({ w.wrote (halfPage v w.c.flip 0) page w.begun with c := c } :
        ConfigPower).c.low = w.c.low from hlow]
      exact hversion
    · exact hbegun.trans (congrArg some hcommitted.symm)
    · have hover' : (w.wrote (halfPage v w.c.flip 0) page w.begun).crcOf (halfPage v c.flip 0) =
          some (w.c.committed v) := by
        rw [hflip, ← hbegun]
        exact Function.update_self ..
      rw [← hover'] at hcommits
      exact hcommits
  · obtain ⟨rfl, heq⟩ := h.syncDone hreq hop hactive left
    rw [hc] at heq
    have hflash : c.flash = w.c.flash := by rw [heq]; rfl
    have hflip : c.flip = w.c.flip := by rw [heq]; rfl
    have hclean : c.state = .clean := by rw [heq]; rfl
    have hold : w.c.state ≠ .clean := by rcases h.state with hd | hd <;> simp [hd]
    have hbody : w.c.body v w.c.flip = w.c.committed v :=
      body_eq hsize hheader
    have hlt : ∀ old image, kept = some (old, image) → w.c.flip = (!old) ∧
        bodyVersion (keptBody v image) < bodyVersion (w.c.body v w.c.flip) := by
      intro old image hk
      have hhalf := ht.kept.half old image hk
      rw [show w.c.writing = true by simp [ConfigStorageP.writing, hcommitting], Bool.xor_true]
        at hhalf
      refine ⟨hhalf, ?_⟩
      rw [hbody, bodyVersion_committed, hversion, hk]
      exact Nat.lt_succ_self _
    have hmedium := hm.synced hflash
      (show w.begun = some (w.c.body v w.c.flip) by rw [hbody]; exact hbegun) hlt
      (by rw [hbody]; exact hover) hsize
    have hafter : w.after v (.done .success left) c =
        { w with
          c := c, medium := fun p => [⟨c.flash p, w.crcOf p⟩], last := some (c.body v c.flip)
          begun := none, cut := [] } := by
      have hcommits : Commits w.c c := by
        rw [Commits, heq]
        rfl
      have hstored : w.stored c (if isDone (.done .success left) then w.c.op else none) =
          { w with medium := fun p => [⟨c.flash p, w.crcOf p⟩] } := by
        change w.stored c w.c.op = _
        rw [hop]
        rfl
      unfold ConfigPower.after
      rw [if_neg (by simp [ConfigWatch.isCommit]), if_pos hcommits, hstored]
    have hbase : nextBase v w.c.state kept c = some (w.c.flip, w.c.half v w.c.flip) := by
      rw [nextBase_clean hclean hold, hflash, hflip]
      rfl
    rw [hbase] at ht'
    rw [hafter, hflip]
    have hnot : c.committing = false := by rw [heq]; rfl
    have hidle : c.request = .idle := by rw [heq]; rfl
    refine .mounted hmedium ht' (by rw [hclean]; rfl)
      ⟨fun _ => ?_, fun _ => rfl, fun _ _ => rfl, fun h => ?_⟩
    · have hlow : c.low = w.c.low := by rw [heq]; rfl
      rw [show ({ w with
        c := c, medium := fun p => [⟨c.flash p, w.crcOf p⟩], last := some (c.body v w.c.flip)
        begun := none, cut := [] } : ConfigPower).c.low = w.c.low from hlow]
      rw [← bodyVersion_committed (v := v) w.c, ← hbody]
      rfl
    · cases hnot.symm.trans h

theorem Inv.done (h : Inv v w) {left : Page} {c : ConfigStorageP}
    (hs : w.c.step v (.done .success left) = some c) :
    Inv v (w.after v (.done .success left) c) := by
  have hstep : ∀ base, Tracks v base w.c → Tracks v (nextBase v w.c.state base c) c :=
    fun base ht => ht.step (e := .done .success left) (by rintro ⟨⟩) hs
  simp only [ConfigStorageP.step, Option.map_eq_some_iff] at hs
  obtain ⟨op, hop, hc⟩ := hs
  cases h with
  | stopped medium tracks state settled =>
    exfalso
    have ha := tracks.allowed
    have hidle : w.c.request = .idle := by
      revert ha
      rw [state]
      cases w.c.request <;> cases w.c.committing <;> simp [ConfigStorageP.Allowed]
    exact absurd (hop.symm.trans (tracks.quiet hidle).op) (by simp)
  | mounting medium tracks state settled detects mounts =>
    exact .mountStep medium tracks (hstep _ tracks) state settled detects mounts hop hc
  | @mounted kept medium tracks state runs =>
    have hbusy : w.c.request ≠ .idle := fun hidle =>
      absurd (hop.symm.trans (tracks.quiet hidle).op) (by simp)
    by_cases hcommitting : w.c.committing = true
    · have hactive : w.c.active = true := by
        cases tracks.phase with
        | rests _ quiet => exact absurd (hop.symm.trans quiet.op) (by simp)
        | waits _ _ _ _ _ hnone => exact absurd (hop.symm.trans hnone) (by simp)
        | copies _ _ _ hnot => cases hcommitting.symm.trans hnot
        | works _ _ _ active => exact active
      exact .commitStep medium tracks (hstep _ tracks) state runs hcommitting hop hactive hbusy hc
    · have hnot : w.c.committing = false := by simpa using hcommitting
      have hclient := client_of_tracks tracks state hnot hbusy
      have hkind : (∀ source target, op = .copyPage source target → w.c.request = .write) ∧
          ∀ page offset n, op = .read page offset n → w.c.request = .read := by
        cases tracks.phase with
        | rests _ quiet => exact absurd (hop.symm.trans quiet.op) (by simp)
        | waits _ _ _ _ _ hnone => exact absurd (hop.symm.trans hnone) (by simp)
        | copies _ _ hwrite _ _ _ _ _ _ _ _ _ _ hcopy =>
          obtain rfl := Option.some.inj (hop.symm.trans hcopy)
          exact ⟨fun _ _ _ => hwrite, by rintro _ _ _ ⟨⟩⟩
        | works operation _ _ _ _ hop' _ does =>
          obtain rfl := Option.some.inj (hop.symm.trans hop')
          refine ⟨?_, ?_⟩
          · rintro source target rfl
            exact does.elim
          · rintro page offset n rfl
            exact does.1
      let s₁ := { w.c with op := none }.apply op .success left
      have hsame : s₁.low = w.c.low ∧ s₁.log = w.c.log ∧ s₁.state = w.c.state ∧
          s₁.request = w.c.request ∧ s₁.buf = w.c.buf ∧ s₁.committing = w.c.committing := by
        cases op <;> exact ⟨rfl, rfl, rfl, rfl, rfl, rfl⟩
      obtain ⟨hlow, hlog, hstate, hreq, hbuf, hcommits⟩ := hsame
      have hclient₁ : Client s₁ := by
        refine ⟨by rw [hstate]; exact state, hcommits.trans hnot, ?_⟩
        rw [hreq, hbuf, hstate]
        exact hclient.request
      have hq : ConfigStorageP.Quietly _ s₁ (s₁.operationDone v op .success) :=
        hclient₁.operationDone (fun source target h => hreq.trans (hkind.1 source target h))
          (fun page offset n h => hreq.trans (hkind.2 page offset n h))
      rw [show s₁.operationDone v op .success = c from hc, hreq] at hq
      have hmedium := medium.op tracks hop hnot left hq.flash
      refine .client rfl (hstep _ tracks) tracks.kept.based state runs hclient ?_ hlow hlog hstate
        hq
      rw [← hop] at hmedium
      exact hmedium

/-! ## The client's commands -/

theorem after_same {e : ConfigEvent} (he : ConfigWatch.isCommit e = false)
    (hd : isDone e = false) : w.after v e w.c = w := by
  rw [after_eq he (not_commits rfl), hd]
  rfl

theorem Inv.mount (h : Inv v w) (hd : Detects v w) {c : ConfigStorageP}
    (hs : w.c.step v .mount = some c) : Inv v (w.after v .mount c) := by
  have hstep : ∀ base, Tracks v base w.c → Tracks v (nextBase v w.c.state base c) c :=
    fun base ht => ht.step (e := .mount) nofun hs
  have hc : c = (w.c.mount v).2 := (Option.some.inj hs).symm
  by_cases hstopped : w.c.state = .stopped
  · cases h with
    | mounting _ _ state => cases hstopped.symm.trans state
    | mounted _ _ state =>
      rw [hstopped] at state
      cases state
    | stopped medium tracks state settled =>
      have hidle : w.c.request = .idle := by
        have ha := tracks.allowed
        revert ha
        rw [state]
        cases w.c.request <;> cases w.c.committing <;> simp [ConfigStorageP.Allowed]
      have hop := (tracks.quiet hidle).op
      let s₁ : ConfigStorageP := { w.c with state := .mount, flip := false }
      have heq : c = (s₁.newRequest v .read 0 .low headerSize).2 := by
        rw [hc]
        unfold ConfigStorageP.mount
        rw [if_neg (not_not.2 hstopped)]
      have hnext : Mounting v c ∧ c.state = .mount ∧ c.flash = w.c.flash ∧ c.log = w.c.log := by
        rw [heq]
        rcases s₁.newRequest_cases (v := v) .read 0 .low headerSize with ⟨_, -, h⟩ | ⟨-, -, h⟩
        · rw [h]
          refine ⟨⟨.inl hidle, fun op h => ?_⟩, rfl, rfl, rfl⟩
          cases hop.symm.trans (show w.c.op = some op from h)
        · rw [h]
          refine ⟨⟨.inr (.inl ⟨rfl, rfl, rfl, .inl ⟨rfl, rfl⟩⟩), fun op h => ?_⟩, rfl, rfl, rfl⟩
          cases hop.symm.trans (show w.c.op = some op from h)
      obtain ⟨hmounting, hmount, hflash, hlog⟩ := hnext
      have ht := hstep _ tracks
      rw [nextBase_none (by simp [hmount])] at ht
      rw [after_eq rfl (not_commits hlog)]
      exact .mounting (medium.congr hflash) ht hmount (settled.congr hflash) (hd.congr hflash)
        hmounting
  · have hsame : c = w.c := by
      rw [hc]
      unfold ConfigStorageP.mount
      rw [if_pos hstopped]
    rw [hsame, after_same rfl rfl]
    exact h

/-- A read or a write that is asked for. -/
theorem Inv.asks (h : Inv v w) (hidle : w.c.request = .idle) {e : ConfigEvent}
    (he : ConfigWatch.isCommit e = false) (hd : isDone e = false) {c : ConfigStorageP}
    (hstep : ∀ base, Tracks v base w.c → Tracks v (nextBase v w.c.state base c) c)
    (hc : c = w.c ∨ w.c.state.mounted = true ∧ ∃ r addr buf len, r ≠ .crc ∧
      c = (w.c.newRequest v r addr buf len).2) : Inv v (w.after v e c) := by
  rcases hc with rfl | ⟨hm, r, addr, buf, len, hr, hc⟩
  · rw [after_same he hd]
    exact h
  · rcases w.c.newRequest_cases (v := v) r addr buf len with ⟨_, -, heq⟩ | ⟨-, -, heq⟩
    · rw [hc, heq, after_same he hd]
      exact h
    · rw [heq] at hc
      cases h with
      | stopped _ _ state =>
        rw [state] at hm
        cases hm
      | mounting _ _ state =>
        rw [state] at hm
        cases hm
      | @mounted kept medium tracks state runs =>
        have ht := hstep _ tracks
        rw [nextBase_same tracks.kept.based (by rw [hc])] at ht
        rw [after_eq he (not_commits (by rw [hc])), hd]
        have hnot := tracks.committing hidle
        refine .mounted (medium.congr (by rw [hc])) ht (by rw [hc]; exact hm)
          ⟨fun _ => ?_, fun _ => runs.begun hnot, fun _ hcrc => ?_, fun hcommitting => ?_⟩
        · rw [show ({ w with c := c } : ConfigPower).c.low = w.c.low from by rw [hc]]
          exact runs.version hnot
        · rw [show c.request = r by rw [hc]] at hcrc
          exact absurd hcrc hr
        · rw [show c.committing = w.c.committing by rw [hc], hnot] at hcommitting
          cases hcommitting

theorem Inv.read (h : Inv v w) (hidle : w.c.request = .idle) {addr len : Nat} {c : ConfigStorageP}
    (hs : w.c.step v (.read addr len) = some c) : Inv v (w.after v (.read addr len) c) := by
  refine h.asks hidle rfl rfl (fun base ht => ht.step (e := .read addr len) nofun hs) ?_
  have hc : c = (w.c.read v addr len).2 := (Option.some.inj hs).symm
  unfold ConfigStorageP.read at hc
  split at hc
  · exact .inl hc
  · next hm =>
    split at hc
    · exact .inl hc
    · exact .inr ⟨by simpa using hm, _, _, _, _, by decide, hc⟩

theorem Inv.write (h : Inv v w) (hidle : w.c.request = .idle) {addr : Nat} {data : List UInt8}
    {c : ConfigStorageP} (hs : w.c.step v (.write addr data) = some c) :
    Inv v (w.after v (.write addr data) c) := by
  refine h.asks hidle rfl rfl (fun base ht => ht.step (e := .write addr data) nofun hs) ?_
  have hc : c = (w.c.write v addr data).2 := (Option.some.inj hs).symm
  unfold ConfigStorageP.write at hc
  split at hc
  · exact .inl hc
  · next hm => exact .inr ⟨by simpa using hm, _, _, _, _, by decide, hc⟩

theorem after_commit (c : ConfigStorageP) : w.after v .commit c = { w with
    c := c, commits := w.commits + 1
    begun := if c.committing then some (c.committed v) else none } := by
  unfold ConfigPower.after
  rw [if_pos (show ConfigWatch.isCommit .commit = true from rfl)]
  rfl

theorem Inv.commit (h : Inv v w) (hidle : w.c.request = .idle) (hcount : w.commits + 1 < 2 ^ 32)
    (hcareful : w.c.state = .clean → w.cut = []) {c : ConfigStorageP}
    (hs : w.c.step v .commit = some c) : Inv v (w.after v .commit c) := by
  have hstep : ∀ base, Tracks v base w.c → Tracks v (nextBase v w.c.state base c) c :=
    fun base ht => ht.step (e := .commit) (fun _ _ => hidle) hs
  have hc : c = (w.c.commit v).2 := (Option.some.inj hs).symm
  have hcounted : ∀ c' : ConfigStorageP, c'.committing = false → w.after v .commit c' =
      { w with c := c', commits := w.commits + 1, begun := none } := by
    intro c' hnot
    rw [after_commit, if_neg (by simp [hnot])]
  have hunmounted : w.c.state.mounted = false → c = w.c := by
    intro hm
    rw [hc]
    unfold ConfigStorageP.commit
    rw [if_pos hm]
  cases h with
  | stopped medium tracks state settled =>
    rw [hunmounted (by rw [state]; rfl), hcounted _ (tracks.committing hidle)]
    exact .stopped (medium.counted settled.begun rfl) tracks state ⟨settled.medium, rfl⟩
  | mounting medium tracks state settled detects mounts =>
    rw [hunmounted (by rw [state]; rfl), hcounted _ (tracks.committing hidle)]
    exact .mounting (medium.counted settled.begun rfl) tracks state ⟨settled.medium, rfl⟩ detects
      mounts
  | @mounted kept medium tracks state runs =>
    have hnot := tracks.committing hidle
    have hbegun := runs.begun hnot
    have ht := hstep _ tracks
    have hsize := tracks.kept.fits (.inr state)
    by_cases hclean : w.c.state = .clean
    · have hcommit : c = (w.c.newRequest v .crc 0 (.baseCrc 0) 1).2 := by
        rw [hc]
        unfold ConfigStorageP.commit
        rw [if_neg (by simp [state]), if_pos hclean]
      have hsame : c.low = w.c.low ∧ c.committing = false ∧ c.flash = w.c.flash ∧
          c.state = w.c.state := by
        rw [hcommit]
        rcases w.c.newRequest_cases (v := v) .crc 0 (.baseCrc 0) 1 with ⟨_, -, h⟩ | ⟨-, -, h⟩ <;>
          rw [h] <;> exact ⟨rfl, hnot, rfl, rfl⟩
      obtain ⟨hlow, hnot', hflash, hstate⟩ := hsame
      rw [nextBase_same tracks.kept.based hstate] at ht
      rw [hcounted c hnot']
      refine .mounted (medium.counted hbegun hflash) ht (by rw [hstate]; exact state)
        ⟨fun _ => ?_, fun _ => rfl, fun _ _ => hcareful hclean, fun h => ?_⟩
      · rw [show ({ w with c := c, commits := w.commits + 1, begun := none } : ConfigPower).c.low =
          w.c.low from hlow]
        exact runs.version hnot
      · cases hnot'.symm.trans h
    · have hd : w.c.state = .dirty ∨ w.c.state = .invalid := by
        revert state hclean
        cases w.c.state <;> simp [ConfigState.mounted]
      have heq := congrArg Prod.snd (ConfigStorageP.commit_accepted (v := v) hd hidle hsize)
      rw [← hc] at heq
      have hstate : c.state = w.c.state := by rw [heq]
      have hflash : c.flash = w.c.flash := by rw [heq]
      have hcommitting : c.committing = true := by rw [heq]
      -- The version is the next one.
      have hle : keptVersion v kept ≤ w.commits := by
        cases hk : kept with
        | none => exact Nat.zero_le _
        | some k => exact medium.count _ (.inr (.inr ⟨k.1, k.2, hk, rfl⟩))
      have hversion : c.low.version.toNat = keptVersion v kept + 1 := by
        rw [heq, ← runs.version hnot]
        have hlt : w.c.low.version.toNat + 1 < 2 ^ 32 := by
          rw [runs.version hnot]
          omega
        exact (UInt32.toNat_add ..).trans (Nat.mod_eq_of_lt hlt)
      have hafter : w.after v .commit c =
          { w with c := c, commits := w.commits + 1, begun := some (c.committed v) } := by
        rw [after_commit, if_pos hcommitting]
      have hfresh : ∀ d, w.last = some d → bodyVersion d < bodyVersion (c.committed v) := by
        intro d hlast
        rw [bodyVersion_committed, hversion]
        cases hk : kept with
        | none =>
          rw [(medium.unused hk).1] at hlast
          cases hlast
        | some k =>
          rcases medium.known k.1 k.2 hk with hkept | hkept
          · obtain rfl := Option.some.inj (hlast.symm.trans hkept)
            exact Nat.lt_succ_self _
          · exact Nat.lt_succ_of_lt (medium.fresh d hlast _ (.inl hkept))
      have hmedium := medium.begins hbegun hflash hfresh
        (by rw [bodyVersion_committed, hversion]; omega)
      rw [nextBase_same tracks.kept.based hstate] at ht
      rw [hafter]
      refine .mounted hmedium ht (by rw [hstate]; exact state)
        ⟨fun h => ?_, fun h => ?_, fun h => ?_, fun _ => ⟨hversion, rfl, hcommitting, ?_, ?_, ?_⟩⟩
      · cases hcommitting.symm.trans h
      · cases hcommitting.symm.trans h
      · cases hcommitting.symm.trans h
      · rw [show ({ w with c := c, commits := w.commits + 1, begun := some (c.committed v) } :
          ConfigPower).c.state = w.c.state from hstate]
        exact hd
      · have hsmall : volumeSize v < 2 ^ 32 := v.small
        have hwithout : ConfigStorageP.sizeWithout v headerSize = volumeSize v - headerSize := by
          unfold ConfigStorageP.sizeWithout
          rw [show volumeSize v + 2 ^ 32 - headerSize = volumeSize v - headerSize + 2 ^ 32 by omega,
            Nat.add_mod_right, Nat.mod_eq_of_lt (by omega)]
        refine .inl ⟨?_, ?_, ?_, ?_⟩ <;> simp only [heq]
        exact hwithout
      · intro op h
        have hop := (tracks.quiet hidle).op
        rw [show c.op = w.c.op by rw [heq]] at h
        cases hop.symm.trans h

/-! ## Runs -/

def isMount : PowerEvent → Bool
  | .does .mount => true
  | _ => false

def isCommit : PowerEvent → Bool
  | .does e => ConfigWatch.isCommit e
  | .lost _ => false

theorem Inv.step (h : Inv v w) {e : PowerEvent} {w' : ConfigPower}
    (hd : isMount e = true → Detects v w) (hn : isCommit e = true → w.commits + 1 < 2 ^ 32)
    (hc : Careful w e) (hs : w.step v e = some w') : Inv v w' := by
  cases e with
  | lost pick =>
    cases hs
    exact h.lost hc
  | does e =>
    simp only [ConfigPower.step, Option.ite_none_right_eq_some, Option.map_eq_some_iff] at hs
    obtain ⟨hworks, c, hstep, rfl⟩ := hs
    cases e with
    | mount => exact h.mount (hd rfl) hstep
    | read addr len => exact h.read hworks hstep
    | write addr data => exact h.write hworks hstep
    | commit => exact h.commit hworks (hn rfl) hc hstep
    | granted => exact h.granted hstep
    | done result left =>
      obtain rfl : result = .success := hworks
      exact h.done hstep

theorem commits_step {e : PowerEvent} {w' : ConfigPower} (hs : w.step v e = some w') :
    w.commits ≤ w'.commits ∧ (isCommit e = true → w.commits + 1 ≤ w'.commits) := by
  cases e with
  | lost pick =>
    cases hs
    exact ⟨Nat.le_refl _, nofun⟩
  | does e =>
    simp only [ConfigPower.step, Option.ite_none_right_eq_some, Option.map_eq_some_iff] at hs
    obtain ⟨-, c, -, rfl⟩ := hs
    by_cases he : ConfigWatch.isCommit e = true
    · have hcommits : (w.after v e c).commits = w.commits + 1 := by
        unfold ConfigPower.after
        rw [if_pos he]
      exact ⟨by omega, fun _ => Nat.le_of_eq hcommits.symm⟩
    · have hcommits : (w.after v e c).commits = w.commits := by
        unfold ConfigPower.after
        rw [if_neg he]
        obtain ⟨-, -, -, h⟩ := stored_record w c (if isDone e then w.c.op else none)
        split <;> exact h
      exact ⟨Nat.le_of_eq hcommits.symm, fun h => absurd h he⟩

theorem commits_run {h : List (ConfigPower × PowerEvent)} (hr : (machine v).Run h w) :
    ∀ p ∈ h, p.1.commits ≤ w.commits ∧ (isCommit p.2 = true → p.1.commits + 1 ≤ w.commits) := by
  induction hr with
  | init _ =>
    intro p hp
    cases hp
  | step hr hs ih =>
    obtain ⟨hle, hlt⟩ := commits_step hs
    intro p hp
    rcases List.mem_cons.1 hp with rfl | hp
    · exact ⟨hle, hlt⟩
    · obtain ⟨hle', hlt'⟩ := ih p hp
      exact ⟨Nat.le_trans hle' hle, fun h => Nat.le_trans (hlt' h) hle⟩

theorem survives_of_inv (h : Inv v w) : Survives v w := by
  cases h with
  | stopped _ tracks state =>
    refine ⟨fun hm => ?_, fun hd => ?_⟩
    · rw [state] at hm
      cases hm
    · rw [state] at hd
      rcases hd with hd | hd <;> cases hd
  | mounting _ tracks state =>
    refine ⟨fun hm => ?_, fun hd => ?_⟩
    · rw [state] at hm
      cases hm
    · rw [state] at hd
      rcases hd with hd | hd <;> cases hd
  | @mounted kept medium tracks state runs =>
    refine ⟨fun _ hr => ?_, fun hd hidle addr data rest hlog => ?_⟩
    · by_cases hinvalid : w.c.state = .invalid
      · have hnone : kept = none := by
          cases hk : kept with
          | none => rfl
          | some k =>
            have := tracks.kept.based.1 (by rw [hk]; rfl)
            rw [hinvalid] at this
            rcases this with h | h <;> cases h
        exact .inl ⟨(medium.unused hnone).1, hinvalid⟩
      · have hd : w.c.state = .clean ∨ w.c.state = .dirty := by
          revert state hinvalid
          cases w.c.state <;> simp [ConfigState.mounted]
        obtain ⟨⟨half, image⟩, hk⟩ := Option.isSome_iff_exists.1 (tracks.kept.based.2 hd)
        rw [(body_at_rest medium tracks hr hk).2]
        exact .inr ⟨hinvalid, medium.known half image hk⟩
    · obtain ⟨⟨half, image⟩, hk⟩ := Option.isSome_iff_exists.1 (tracks.kept.based.2 hd)
      obtain ⟨haddr, hdata, hlen⟩ := tracks.told hidle addr data .success rest hlog
      have hgot := tracks.kept.reads half image hk
      refine ⟨haddr, ?_⟩
      rw [hdata, hgot, ← hdata, hlen rfl]
      refine (imageBytes_congr tracks.kept.inside fun p hp => ?_).symm
      rw [(body_at_rest medium tracks (.inl hidle) hk).1]
      exact medium.flash_eq hk hp

/-- **What is committed survives power loss**, as long as no commit of a volume that is not valid is
cut short, and no commit of a clean volume is made after one that was. -/
theorem survives_of_careful {h : List (ConfigPower × PowerEvent)} (hr : (machine v).Run h w)
    (hcount : w.commits < 2 ^ 32) (hcrc : ∀ p ∈ h, isMount p.2 = true → Detects v p.1)
    (hcareful : ∀ p ∈ h, Careful p.1 p.2) : Survives v w ∧ ∀ p ∈ h, Survives v p.1 := by
  have hcommits := commits_run hr
  obtain ⟨hw, hh⟩ := hr.inv_of_steps (P := Inv v) (C := fun w e => Careful w e ∧
      (isMount e = true → Detects v w) ∧ (isCommit e = true → w.commits + 1 < 2 ^ 32))
    (by rintro _ ⟨flash, rfl⟩; exact inv_unused flash)
    (fun _ _ _ hi ⟨hc, hd, hn⟩ hs => hi.step hd hn hc hs)
    fun p hp => ⟨hcareful p hp, hcrc p hp, fun he =>
      Nat.lt_of_le_of_lt ((hcommits p hp).2 he) hcount⟩
  exact ⟨survives_of_inv hw, fun p hp => survives_of_inv (hh p hp)⟩

/-- Halves of two pages, with ten bytes for the client. -/
def twoPages : Volume := ⟨2, 3, ConfigWatch.onePage.large, by decide⟩

/-- Over erased pages. -/
theorem init_erased : (machine twoPages).init (unused fun _ _ => 255) := ⟨_, rfl⟩

/-- An event, and for each of the numbers a grant and as many operations. -/
def served (e : ConfigEvent) (ns : List Nat) : List PowerEvent :=
  .does e :: ns.flatMap fun n =>
    .does .granted :: List.replicate n (.does (.done .success fun _ => 0))

/-- The second commit is cut short when the page of its header is on the flash and the other is
not. -/
def cutShort : List PowerEvent :=
  served .mount [1, 1, 2, 2] ++ served (.write 2 [7]) [1] ++ served .commit [2, 1, 1] ++
  served (.write 6 [9]) [3] ++ served .commit [2, 1, 0] ++
  .lost (fun p => if p = 3 then 1 else 0) :: served .mount [1, 1, 2, 2] ++ served (.read 2 1) [1]

theorem survives_cutShort : ∃ (h : List (ConfigPower × PowerEvent)) (w : ConfigPower),
    (machine twoPages).Run h w ∧ w.c.log.head? = some (.readDone 2 [7] .success) ∧
    w.cut ≠ [] ∧ Survives twoPages w := by
  obtain ⟨h, w, hr, hp⟩ := Machine.exists_run_of_exec init_erased cutShort
    (fun h w => w.c.log.head? = some (.readDone 2 [7] .success) ∧ w.cut ≠ [] ∧
      w.commits < 2 ^ 32 ∧ (∀ p ∈ h, isMount p.2 = true → Detects twoPages p.1) ∧
      ∀ p ∈ h, Careful p.1 p.2) (by decide +kernel)
  obtain ⟨hlog, hcut, hcount, hcrc, hcareful⟩ := of_decide_eq_true hp
  exact ⟨h, w, hr, hlog, hcut, (survives_of_careful hr hcount hcrc hcareful).1⟩

/-- The first commit is cut short when the page of its header is on the flash and the other is not,
and so is a write after the second. -/
def cutBoth : List PowerEvent :=
  served .mount [1, 1, 2, 2] ++ served (.write 2 [7]) [1] ++ served .commit [2, 1, 0] ++
  .lost (fun p => if p = 0 then 0 else 1) ::
  served .mount [1, 1, 2, 2] ++ served (.write 0 [9]) [1] ++ served .commit [2, 1, 1] ++
  served (.write 2 [7]) [3] ++ .lost (fun p => if p = 0 then 1 else 0) ::
  served .mount [1, 1, 2]

/-- The volume is mounted with what the first commit did not finish: both have the same version. -/
theorem not_survives : ¬ ∀ h w, (machine twoPages).Run h w → w.commits < 2 ^ 32 →
    (∀ p ∈ h, isMount p.2 = true → Detects twoPages p.1) → Survives twoPages w := by
  intro hall
  obtain ⟨h, w, hr, hp⟩ := Machine.exists_run_of_exec init_erased cutBoth
    (fun h w => w.commits < 2 ^ 32 ∧ (∀ p ∈ h, isMount p.2 = true → Detects twoPages p.1) ∧
      w.c.state = .clean ∧ w.c.request = .idle ∧ w.cut = [] ∧
      w.last ≠ some (w.c.body twoPages w.c.flip)) (by decide +kernel)
  obtain ⟨hcount, hcrc, hstate, hrequest, hcut, hlast⟩ := of_decide_eq_true hp
  rcases (hall h w hr hcount hcrc).current (by rw [hstate]; rfl) (.inl hrequest) with
    ⟨-, h⟩ | ⟨-, h | h⟩
  · cases hstate.symm.trans h
  · exact hlast h
  · rw [hcut] at h
    cases h

end ConfigPower

end At45db
