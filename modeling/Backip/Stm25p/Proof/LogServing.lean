import Backip.Stm25p.Stm25pLogP

/-!
# Serving a request on the log component

What the functions of the component do for a client depends on little of the variables that are
there once: on two logs that agree on it they leave logs that agree (`Agrees`). Whatever they do,
the request is done, or `Sector` has something to do for it (`Leaves`).
-/

set_option autoImplicit false

namespace Stm25pLogP

variable {φ : Type} {chip : Chip φ}

namespace Log

variable {l l' : Log φ}

/-! ## Logs that agree -/

/-- The client's request is the same in `l'`, and the variables that go with it. -/
structure Same (l' l : Log φ) : Prop where
  client : l'.client = { l.client with state := l'.client.state }
  req : l'.client.state.req = l.client.state.req
  read : l.client.state.req = .read → l'.client.state.len = l.client.state.len ∧
    (l.client.resource = .granted → l'.vars.len = l.vars.len)
  seek : l.client.state.req = .seek → l'.client.state.cookie = l.client.state.cookie
  append : l.client.state.req = .append → l'.client.state.buf = l.client.state.buf ∧
    l'.client.state.len = l.client.state.len ∧
    (l.client.resource = .granted → l'.vars.recordsLost = l.vars.recordsLost)

/-- `l'` agrees with `l` on everything that the client's request depends on. -/
structure Agrees (l' l : Log φ) : Prop extends Same l' l where
  rwState : l.client.resource = .granted → l.client.state.req ≠ .erase →
    l'.vars.rwState = l.vars.rwState

namespace Same

theorem info (h : Same l' l) : l'.client.info = l.client.info := by
  rw [h.client]

theorem resource (h : Same l' l) : l'.client.resource = l.client.resource := by
  rw [h.client]

theorem op (h : Same l' l) : l'.client.op = l.client.op := by
  rw [h.client]

theorem flash (h : Same l' l) : l'.client.flash = l.client.flash := by
  rw [h.client]

theorem seen (h : Same l' l) : l'.client.seen = l.client.seen := by
  rw [h.client]

theorem issued (h : Same l' l) : l'.client.issued = l.client.issued := by
  rw [h.client]

theorem lastHeader (h : Same l' l) : l'.client.lastHeader = l.client.lastHeader := by
  rw [h.client]

/-- What such a log looks like. -/
theorem exists_eq (h : Same l' l) : ∃ vars state, l' = ⟨vars, { l.client with state }⟩ :=
  ⟨l'.vars, l'.client.state, congrArg (Log.mk l'.vars) h.client⟩

theorem setRwState (h : Same l' l) (rw' : RwState) :
    Agrees (l'.setRwState rw') (l.setRwState rw') :=
  ⟨⟨h.client, h.req, h.read, h.seek, h.append⟩, fun _ _ => rfl⟩

end Same

namespace Agrees

/-- A change of the client's other variables that is the same for both. -/
theorem update (h : Agrees l' l) (f : Client φ → Client φ)
    (hstate : ∀ c st, (f { c with state := st }) = { f c with state := st })
    (hkeep : ∀ c, (f c).state = c.state) (hres : ∀ c, (f c).resource = c.resource) :
    Agrees { l' with client := f l'.client } { l with client := f l.client } where
  client := by
    conv => lhs; rw [h.client]
    rw [hstate, hkeep]
  req := by rw [hkeep, hkeep, h.req]
  read := by
    rw [hkeep, hkeep, hres]
    exact h.read
  seek := by
    rw [hkeep, hkeep]
    exact h.seek
  append := by
    rw [hkeep, hkeep, hres]
    exact h.append
  rwState := by
    rw [hres, hkeep]
    exact h.rwState

theorem issue (h : Agrees l' l) (op : Op) : Agrees (l'.issue op) (l.issue op) :=
  h.update (fun c => { c with op := some op }) (fun _ _ => rfl) (fun _ => rfl) fun _ => rfl

theorem setInfo (h : Agrees l' l) (info : LogInfo) : Agrees (l'.setInfo info) (l.setInfo info) :=
  h.update (fun c => { c with info }) (fun _ _ => rfl) (fun _ => rfl) fun _ => rfl

theorem readHeader (h : Agrees l' l) (addr : UInt32) :
    Agrees (l'.readHeader chip addr) (l.readHeader chip addr) :=
  h.issue _

theorem readAt (h : Agrees l' l) (addr : UInt32) (target : Target) (len : UInt8) :
    Agrees (l'.readAt chip addr target len) (l.readAt chip addr target len) := by
  unfold Log.readAt
  rw [h.info]
  exact (h.setInfo _).issue _

/-! ## Serving a request -/

/-- An answer ends the request: nothing depends on its variables any more. -/
theorem done {vars vars' : Vars} {c c' : Client φ} (hc : c' = { c with state := c'.state })
    (hreq : c.state.req = .idle) (hreq' : c'.state.req = .idle) (hres : c.resource = .idle) :
    Agrees ⟨vars', c'⟩ ⟨vars, c⟩ := by
  refine ⟨⟨hc, hreq'.trans hreq.symm, ?_, ?_, ?_⟩, ?_⟩ <;> intro hc
  · cases hreq.symm.trans hc
  · cases hreq.symm.trans hc
  · cases hreq.symm.trans hc
  · cases hres.symm.trans hc

end Agrees

namespace Same

theorem signalDone (h : Same l' l) (hres : l.client.resource = .granted) (error : TinyError) :
    Agrees (l'.signalDone error) (l.signalDone error) := by
  obtain ⟨vars, state, rfl⟩ := h.exists_eq
  have hreq : state.req = l.client.state.req := h.req
  unfold Log.signalDone
  dsimp only
  rw [hreq]
  cases hr : l.client.state.req with
  | read =>
    obtain ⟨hlen, hleft⟩ := h.read hr
    refine Agrees.done ?_ rfl rfl rfl
    rw [hlen, hleft hres]
  | append =>
    obtain ⟨hbuf, hlen, hlost⟩ := h.append hr
    refine Agrees.done ?_ rfl rfl rfl
    rw [hbuf, hlen, hlost hres]
  | _ => exact Agrees.done rfl rfl rfl rfl

end Same

namespace Agrees

/-- The header matters only for a record that is resumed. -/
theorem continueReadOp (h : Agrees l' l) (hreq : l.client.state.req = .read)
    (hres : l.client.resource = .granted)
    (hheader : l.vars.rwState = .data → l.vars.len ≠ 0 →
      l.client.info.readAddr < l.client.info.writeAddr →
      (l'.vars.header = invalidHeader ↔ l.vars.header = invalidHeader)) :
    Agrees (l'.continueReadOp chip) (l.continueReadOp chip) := by
  obtain ⟨hslen, hlen⟩ := h.read hreq
  have hrw := h.rwState hres (by rw [hreq]; nofun)
  unfold Log.continueReadOp
  dsimp only
  rw [hlen hres, h.info, hrw, hslen]
  by_cases hdone : l.vars.len = 0 ∨ l.client.info.readAddr ≥ l.client.info.writeAddr
  · rw [if_pos hdone, if_pos hdone]
    exact h.signalDone hres _
  · rw [if_neg hdone, if_neg hdone]
    by_cases hdata : l.vars.rwState = .data
    · obtain ⟨hlen0, hlt⟩ := not_or.1 hdone
      rw [ge_iff_le, UInt32.not_le] at hlt
      rw [if_pos hdata, if_pos hdata]
      by_cases hinv : l.vars.header = invalidHeader
      · rw [if_pos ((hheader hdata hlen0 hlt).2 hinv), if_pos hinv]
        exact (h.setRwState _).readAt _ _ _
      · rw [if_neg (mt (hheader hdata hlen0 hlt).1 hinv), if_neg hinv]
        exact h.readAt _ _ _
    · rw [if_neg hdata, if_neg hdata]
      exact h.readAt _ _ _

theorem continueAppendOp (h : Agrees l' l) (hreq : l.client.state.req = .append)
    (hres : l.client.resource = .granted) :
    Agrees (l'.continueAppendOp chip) (l.continueAppendOp chip) := by
  obtain ⟨hbuf, hlen, -⟩ := h.append hreq
  have hrw := h.rwState hres (by rw [hreq]; nofun)
  have hlost : Agrees { l' with vars := { l'.vars with recordsLost := true } }
      { l with vars := { l.vars with recordsLost := true } } :=
    ⟨⟨h.client, h.req, h.read, h.seek,
      fun hr => ⟨(h.append hr).1, (h.append hr).2.1, fun _ => rfl⟩⟩, h.rwState⟩
  unfold Log.continueAppendOp
  dsimp only
  rw [h.info, hbuf, hlen]
  by_cases hsector : l.client.info.writeAddr &&& sectorMask = 0
  · rw [if_pos hsector, if_pos hsector]
    exact hlost.issue _
  · rw [if_neg hsector, if_neg hsector, hrw]
    split
    · exact h.issue _
    · split <;> exact h.issue _

end Agrees

namespace Same

/-- The seek ends here, or at a header that is read. -/
theorem seekRequest (h : Same l' l) (hreq : l.client.state.req = .seek)
    (hres : l.client.resource = .granted) :
    Agrees (l'.seek chip) (l.seek chip) := by
  have hcookie := h.seek hreq
  have hmoved : ∀ (cookie : UInt32) (info : LogInfo),
      Agrees { l' with
        vars := { l'.vars with rwState := .searchSeek }
        client := { l'.client with state := { l'.client.state with cookie }, info } }
      { l with
        vars := { l.vars with rwState := .searchSeek }
        client := { l.client with state := { l.client.state with cookie }, info } } := by
    intro cookie info
    refine ⟨⟨?_, h.req, h.read, fun _ => rfl, h.append⟩, fun _ _ => rfl⟩
    dsimp only
    rw [h.client]
  unfold Log.seek
  dsimp only
  rw [hcookie, h.info]
  split
  · split
    · exact ((hmoved _ _).setInfo _).readHeader _
    · exact (hmoved _ _).signalDone (by exact hres) _
  · split
    · exact ((hmoved _ _).setInfo _).readHeader _
    · exact (hmoved _ _).signalDone (by exact hres) _

/-- The header matters only for a record that is resumed. -/
theorem granted (h : Same l' l) (hres : l.client.resource = .granted)
    (hreq : l.client.state.req ≠ .idle)
    (hheader : l.client.state.req = .read → l.client.info.remaining ≠ 0 → l.vars.len ≠ 0 →
      l.client.info.readAddr < l.client.info.writeAddr →
      (l'.vars.header = invalidHeader ↔ l.vars.header = invalidHeader)) :
    Agrees (l'.granted chip) (l.granted chip) := by
  unfold Log.granted
  dsimp only
  rw [h.info, h.req]
  split
  · exact (h.setRwState _).issue _
  · cases hr : l.client.state.req with
    | idle => exact absurd hr hreq
    | read =>
      refine (h.setRwState _).continueReadOp hr hres fun hdata => hheader hr ?_
      intro hzero
      rw [hzero] at hdata
      cases hdata
    | seek => exact h.seekRequest hr hres
    | erase =>
      -- nothing is searched, so that the state of the search does not matter
      refine ⟨⟨?_, h.req, h.read, h.seek, h.append⟩, fun _ hne => absurd hr hne⟩
      have hissue : ∀ op, (l'.issue op).client =
          { (l.issue op).client with state := (l'.issue op).client.state } := by
        intro op
        unfold issue
        dsimp only
        rw [h.client]
      exact hissue _
    | append => exact (h.setRwState _).continueAppendOp hr hres
    | sync => exact h.signalDone hres _

end Same

/-! ## Operations that are done -/

namespace Agrees

theorem searchedBlock (h : Agrees l' l) (hres : l.client.resource = .granted)
    (hreq : l.client.state.req ≠ .idle) (haddr : l'.vars.addr = l.vars.addr) (addr : UInt32) :
    Agrees (l'.searchedBlock chip addr) (l.searchedBlock chip addr) := by
  have hfound : ∀ (more : Prop) [Decidable more] (info : LogInfo), Agrees
      (if more then (l'.setInfo info).issue (.read (addr + blockSize) .addr addrSize)
      else if info.readAddr = invalidAddress then
        (l'.setInfo { info with readAddr := 0, writeAddr := 0 }).granted chip
      else
        ((l'.setInfo { info with writeAddr := info.writeAddr + addrSize.toUInt32 }).setRwState
          .searchRecords).readHeader chip (info.writeAddr + addrSize.toUInt32))
      (if more then (l.setInfo info).issue (.read (addr + blockSize) .addr addrSize)
      else if info.readAddr = invalidAddress then
        (l.setInfo { info with readAddr := 0, writeAddr := 0 }).granted chip
      else
        ((l.setInfo { info with writeAddr := info.writeAddr + addrSize.toUInt32 }).setRwState
          .searchRecords).readHeader chip (info.writeAddr + addrSize.toUInt32)) := by
    intro more _ info
    split
    · exact (h.setInfo _).issue _
    · split
      · -- the log is empty, so that a read is done at once
        refine (h.setInfo _).granted hres hreq fun _ _ _ hlt => ?_
        exact absurd (show (0 : UInt32) < 0 from hlt) (by decide)
      · exact ((h.setInfo _).setRwState _).readHeader _
  unfold Log.searchedBlock
  dsimp only
  rw [h.info, haddr]
  exact hfound _ _

theorem searchedRecord (h : Agrees l' l) (hres : l.client.resource = .granted)
    (hreq : l.client.state.req ≠ .idle) (hheader : l'.vars.header = l.vars.header) :
    Agrees (l'.searchedRecord chip) (l.searchedRecord chip) := by
  unfold Log.searchedRecord
  dsimp only
  rw [h.info, hheader]
  split
  · exact (h.setInfo _).readHeader _
  · exact h.granted hres hreq fun _ _ _ _ => by rw [hheader]

theorem searchedSeek (h : Agrees l' l) (hreq : l.client.state.req = .seek)
    (hres : l.client.resource = .granted) (hheader : l'.vars.header = l.vars.header) (error : TinyError) :
    Agrees (l'.searchedSeek chip error) (l.searchedSeek chip error) := by
  unfold Log.searchedSeek
  dsimp only
  rw [h.info, hheader, h.seek hreq]
  split
  · exact (h.setInfo _).readHeader _
  · exact (h.setInfo _).signalDone (by exact hres) _

theorem readRecord (h : Agrees l' l) (hreq : l.client.state.req = .read)
    (hres : l.client.resource = .granted) (hheader : l'.vars.header = l.vars.header) :
    Agrees (l'.readRecord chip) (l.readRecord chip) := by
  unfold Log.readRecord
  dsimp only
  rw [h.info, hheader]
  split
  · exact (h.setInfo _).continueReadOp hreq hres fun _ _ _ => by
      change l'.vars.header = _ ↔ _
      rw [hheader]
      rfl
  · exact ((h.setInfo _).setRwState _).continueReadOp hreq hres fun _ _ _ => by
      change l'.vars.header = _ ↔ _
      rw [hheader]
      rfl

theorem readBytes (h : Agrees l' l) (hreq : l.client.state.req = .read)
    (hres : l.client.resource = .granted) (len : UInt8) :
    Agrees (l'.readBytes chip len) (l.readBytes chip len) := by
  unfold Log.readBytes
  dsimp only
  rw [h.info]
  refine continueReadOp ⟨⟨(h.setInfo _).client, h.req, fun hr => ⟨(h.read hr).1, ?_⟩, h.seek,
    h.append⟩, fun _ _ => rfl⟩ hreq hres nofun
  exact fun hg => congrArg (· - len) ((h.read hr).2 hg)

theorem eraseDone (h : Agrees l' l) (hres : l.client.resource = .granted) (error : TinyError) :
    Agrees (l'.eraseDone chip error) (l.eraseDone chip error) := by
  unfold Log.eraseDone
  dsimp only
  rw [h.info, h.req]
  split
  · exact (h.setInfo _).signalDone (by exact hres) _
  · refine issue ?_ _
    exact ⟨⟨(h.setInfo _).client, h.req, h.read, h.seek, h.append⟩, h.rwState⟩

theorem writeDone (h : Agrees l' l) (hreq : l.client.state.req = .append)
    (hres : l.client.resource = .granted) (len : UInt8) (error : TinyError) :
    Agrees (l'.writeDone chip len error) (l.writeDone chip len error) := by
  unfold Log.writeDone
  dsimp only
  rw [h.info]
  have hrw : ∀ info, (l'.setInfo info).vars.rwState = (l.setInfo info).vars.rwState := fun _ =>
    h.rwState hres (by rw [hreq]; nofun)
  rw [hrw]
  split
  · split
    · exact ((h.setInfo _).setRwState _).continueAppendOp hreq hres
    · exact (h.setInfo _).continueAppendOp hreq hres
  · exact (h.setInfo _).signalDone (by exact hres) _

theorem store (h : Agrees l' l) (target : Target) (bytes : List UInt8) :
    Agrees (Log.store target bytes l') (Log.store target bytes l) := by
  cases target with
  | addr => exact ⟨⟨h.client, h.req, h.read, h.seek, h.append⟩, h.rwState⟩
  | header =>
    have hc := h.update (fun c => { c with lastHeader := bytes.headD 0 }) (fun _ _ => rfl)
      (fun _ => rfl) fun _ => rfl
    exact ⟨⟨hc.client, hc.req, hc.read, hc.seek, hc.append⟩, hc.rwState⟩
  | buf offset =>
    exact h.update (fun c => { c with got := (offset, bytes) :: c.got }) (fun _ _ => rfl)
      (fun _ => rfl) fun _ => rfl

/-- What a read is for, with the variable it has just set. -/
theorem readDone (h : Agrees l' l) (hres : l.client.resource = .granted)
    (hreq : l.client.state.req ≠ .idle) (hne : l.client.state.req ≠ .erase)
    (hserves : l.vars.rwState = .searchBlocks ∧ l'.vars.addr = l.vars.addr ∨
      l.vars.rwState = .searchRecords ∧ l'.vars.header = l.vars.header ∨
      l.vars.rwState = .searchSeek ∧ l'.vars.header = l.vars.header ∧ l.client.state.req = .seek ∨
      l.vars.rwState = .header ∧ l'.vars.header = l.vars.header ∧ l.client.state.req = .read ∨
      l.vars.rwState = .data ∧ l.client.state.req = .read)
    (addr : UInt32) (len : UInt8) (error : TinyError) :
    Agrees (l'.readDone chip addr len error) (l.readDone chip addr len error) := by
  have hrw := h.rwState hres hne
  rcases hserves with ⟨hrw', ha⟩ | ⟨hrw', hh⟩ | ⟨hrw', hh, hr⟩ | ⟨hrw', hh, hr⟩ | ⟨hrw', hr⟩
  all_goals
    unfold Log.readDone
    rw [hrw, hrw']
  · exact h.searchedBlock hres hreq ha addr
  · exact h.searchedRecord hres hreq hh
  · exact h.searchedSeek hr hres hh error
  · exact h.readRecord hr hres hh
  · exact h.readBytes hr hres len

end Agrees

/-! ## A client on its own -/

/-- What there is to do for a client, while it holds the resource: the operation of `Sector`, with
where its bytes go and what they are for. -/
structure Waits (l : Log φ) (op : Op) : Prop where
  resource : l.client.resource = .granted
  serves : match op with
    | .read _ target _ => l.client.state.req ≠ .erase ∧
      (l.vars.rwState = .searchBlocks ∧ target = .addr ∨
      l.vars.rwState = .searchRecords ∧ target = .header ∨
      l.vars.rwState = .searchSeek ∧ target = .header ∧ l.client.state.req = .seek ∨
      l.vars.rwState = .header ∧ target = .header ∧ l.client.state.req = .read ∨
      l.vars.rwState = .data ∧ l.client.state.req = .read)
    | .write .. => l.client.state.req = .append
    | .erase .. => l.client.state.req = .erase ∨ l.client.state.req = .append

theorem Agrees.complete (h : Agrees l' l) {op : Op} (hw : l.Waits op)
    (hreq : l.client.state.req ≠ .idle) :
    Agrees (l'.complete chip op) (l.complete chip op) := by
  have hdone : ∀ flash : φ, Agrees { l' with client := { l'.client with flash, op := none } }
      { l with client := { l.client with flash, op := none } } := fun flash =>
    h.update (fun c => { c with flash, op := none }) (fun _ _ => rfl) (fun _ => rfl) fun _ => rfl
  cases op with
  | read addr target len =>
    unfold Log.complete
    dsimp only
    rw [h.flash]
    obtain ⟨hne, hserves⟩ := hw.serves
    refine ((hdone _).store target _).readDone ?_ ?_ ?_ ?_ _ _ _
    · cases target <;> exact hw.resource
    · cases target <;> exact hreq
    · cases target <;> exact hne
    · rcases hserves with ⟨hrw, rfl⟩ | ⟨hrw, rfl⟩ | ⟨hrw, rfl, hr⟩ | ⟨hrw, rfl, hr⟩ | ⟨hrw, hr⟩
      · exact .inl ⟨hrw, rfl⟩
      · exact .inr (.inl ⟨hrw, rfl⟩)
      · exact .inr (.inr (.inl ⟨hrw, rfl, hr⟩))
      · exact .inr (.inr (.inr (.inl ⟨hrw, rfl, hr⟩)))
      · refine .inr (.inr (.inr (.inr ?_)))
        cases target <;> exact ⟨hrw, hr⟩
  | write addr bytes len =>
    unfold Log.complete
    dsimp only
    rw [h.flash]
    exact (hdone _).writeDone hw.serves hw.resource _ _
  | erase sector numSectors =>
    unfold Log.complete
    dsimp only
    rw [h.flash]
    exact (hdone _).eraseDone hw.resource _

/-- `Sector` has something to do for the request. -/
def Busy (l : Log φ) : Prop :=
  ∃ op, l.client.op = some op ∧ l.Waits op ∧ l.client.state.req ≠ .idle

/-- The request is done, or `Sector` has something to do for it. -/
def Settled (l : Log φ) : Prop :=
  l.client.resource = .idle ∧ l.client.state.req = .idle ∧ l.client.op = none ∨ l.Busy

/-- The header is the last one that was read for the client. -/
def Synced (l : Log φ) : Prop := l.vars.header = l.client.lastHeader

/-- What serving a request leaves: it settles, and what the client was told stays. -/
structure Leaves (l m : Log φ) : Prop where
  settled : m.Settled
  synced : l.Synced → m.Synced
  seen : l.client.seen <:+ m.client.seen
  issued : m.client.issued = l.client.issued

namespace Leaves

theorem of_eq {m k : Log φ} (h : Leaves k m) (hsync : l.Synced → k.Synced)
    (hs : k.client.seen = l.client.seen) (hi : k.client.issued = l.client.issued) : Leaves l m :=
  ⟨h.settled, fun hl => h.synced (hsync hl), hs ▸ h.seen, h.issued.trans hi⟩

theorem setInfo {m : Log φ} {info : LogInfo} (h : Leaves (l.setInfo info) m) : Leaves l m :=
  h.of_eq (fun hl => hl) rfl rfl

theorem setRwState {m : Log φ} {rw : RwState} (h : Leaves (l.setRwState rw) m) : Leaves l m :=
  h.of_eq (fun hl => hl) rfl rfl

theorem signalDone (hop : l.client.op = none) (error : TinyError) :
    Leaves l (l.signalDone error) := by
  unfold Log.signalDone
  dsimp only
  split <;> exact ⟨.inl ⟨rfl, rfl, hop⟩, fun hl => hl, by simp, rfl⟩

theorem issue {op : Op} (hw : l.Waits op) (hreq : l.client.state.req ≠ .idle) :
    Leaves l (l.issue op) :=
  ⟨.inr ⟨op, rfl, ⟨hw.resource, hw.serves⟩, hreq⟩, fun hl => hl, List.suffix_rfl, rfl⟩

theorem readAt {addr : UInt32} {target : Target} {len : UInt8}
    (hw : ∀ addr, l.Waits (.read addr target len)) (hreq : l.client.state.req ≠ .idle) :
    Leaves l (l.readAt chip addr target len) := by
  unfold Log.readAt
  dsimp only
  exact setInfo (issue ⟨(hw 0).resource, (hw 0).serves⟩ hreq)

theorem continueReadOp (hop : l.client.op = none) (hres : l.client.resource = .granted)
    (hreq : l.client.state.req = .read) (hrw : l.vars.rwState = .header ∨ l.vars.rwState = .data) :
    Leaves l (l.continueReadOp chip) := by
  have hne : l.client.state.req ≠ .idle := by rw [hreq]; nofun
  have her : l.client.state.req ≠ .erase := by rw [hreq]; nofun
  unfold Log.continueReadOp
  dsimp only
  split
  · exact signalDone hop _
  · split
    next hdata =>
      split
      · refine setRwState (readAt (fun _ => ⟨hres, her, ?_⟩) hne)
        exact .inr (.inr (.inr (.inl ⟨rfl, rfl, hreq⟩)))
      · exact readAt (fun _ => ⟨hres, her, .inr (.inr (.inr (.inr ⟨hdata, hreq⟩)))⟩) hne
    next hdata =>
      exact readAt (fun _ => ⟨hres, her,
        .inr (.inr (.inr (.inl ⟨hrw.resolve_right hdata, rfl, hreq⟩)))⟩) hne

theorem continueAppendOp (hres : l.client.resource = .granted)
    (hreq : l.client.state.req = .append) : Leaves l (l.continueAppendOp chip) := by
  have hne : l.client.state.req ≠ .idle := by rw [hreq]; nofun
  unfold Log.continueAppendOp
  dsimp only
  split
  · exact of_eq (k := { l with vars := { l.vars with recordsLost := true } })
      (issue ⟨hres, .inr hreq⟩ hne) (fun hl => hl) rfl rfl
  · split
    · exact issue ⟨hres, hreq⟩ hne
    · split <;> exact issue ⟨hres, hreq⟩ hne

theorem seek (hop : l.client.op = none) (hres : l.client.resource = .granted)
    (hreq : l.client.state.req = .seek) : Leaves l (l.seek chip) := by
  have hne : l.client.state.req ≠ .idle := by rw [hreq]; nofun
  have her : l.client.state.req ≠ .erase := by rw [hreq]; nofun
  let moved (cookie readAddr : UInt32) : Log φ := { l with
    vars := { l.vars with rwState := .searchSeek }
    client := { l.client with
      state := { l.client.state with cookie }
      info := { l.client.info with readAddr, remaining := 0 } } }
  have hmoved : ∀ cookie readAddr : UInt32, Leaves l
      (if readAddr ≠ cookie then
        ((moved cookie readAddr).setInfo { (moved cookie readAddr).client.info with
          readAddr := readAddr + addrSize.toUInt32 }).readHeader chip (readAddr + addrSize.toUInt32)
      else (moved cookie readAddr).signalDone .success) := by
    intro cookie readAddr
    refine of_eq (k := moved cookie readAddr) ?_ (fun hl => hl) rfl rfl
    split
    · exact setInfo (issue ⟨hres, her, .inr (.inr (.inl ⟨rfl, rfl, hreq⟩))⟩ hne)
    · exact signalDone (l := moved cookie readAddr) hop _
  exact hmoved _ _

theorem granted (hop : l.client.op = none) (hres : l.client.resource = .granted)
    (hreq : l.client.state.req ≠ .idle) : Leaves l (l.granted chip) := by
  unfold Log.granted
  dsimp only
  split
  next hsearch => exact setRwState (issue ⟨hres, hsearch.2, .inl ⟨rfl, rfl⟩⟩ hreq)
  · cases hr : l.client.state.req with
    | idle => exact absurd hr hreq
    | read =>
      refine setRwState (continueReadOp hop hres hr ?_)
      change (if _ then _ else _) = _ ∨ (if _ then _ else _) = _
      split
      · exact .inr rfl
      · exact .inl rfl
    | seek => exact seek hop hres hr
    | erase => exact issue ⟨hres, .inl hr⟩ hreq
    | append => exact setRwState (continueAppendOp hres hr)
    | sync => exact signalDone hop _

theorem searchedBlock (hop : l.client.op = none) (hres : l.client.resource = .granted)
    (hreq : l.client.state.req ≠ .idle) (her : l.client.state.req ≠ .erase)
    (hrw : l.vars.rwState = .searchBlocks) (addr : UInt32) :
    Leaves l (l.searchedBlock chip addr) := by
  have hfound : ∀ (more : Prop) [Decidable more] (info : LogInfo), Leaves l
      (if more then (l.setInfo info).issue (.read (addr + blockSize) .addr addrSize)
      else if info.readAddr = invalidAddress then
        (l.setInfo { info with readAddr := 0, writeAddr := 0 }).granted chip
      else
        ((l.setInfo { info with writeAddr := info.writeAddr + addrSize.toUInt32 }).setRwState
          .searchRecords).readHeader chip (info.writeAddr + addrSize.toUInt32)) := by
    intro more _ info
    split
    · exact setInfo (issue ⟨hres, her, .inl ⟨hrw, rfl⟩⟩ hreq)
    · split
      · exact setInfo (granted hop hres hreq)
      · exact setInfo (setRwState (issue ⟨hres, her, .inr (.inl ⟨rfl, rfl⟩)⟩ hreq))
  unfold Log.searchedBlock
  dsimp only
  exact hfound _ _

theorem searchedRecord (hop : l.client.op = none) (hres : l.client.resource = .granted)
    (hreq : l.client.state.req ≠ .idle) (her : l.client.state.req ≠ .erase)
    (hrw : l.vars.rwState = .searchRecords) :
    Leaves l (l.searchedRecord chip) := by
  unfold Log.searchedRecord
  dsimp only
  split
  · exact setInfo (issue ⟨hres, her, .inr (.inl ⟨hrw, rfl⟩)⟩ hreq)
  · exact granted hop hres hreq

theorem searchedSeek (hop : l.client.op = none) (hres : l.client.resource = .granted)
    (hreq : l.client.state.req = .seek) (hrw : l.vars.rwState = .searchSeek) (error : TinyError) :
    Leaves l (l.searchedSeek chip error) := by
  have hne : l.client.state.req ≠ .idle := by rw [hreq]; nofun
  have her : l.client.state.req ≠ .erase := by rw [hreq]; nofun
  unfold Log.searchedSeek
  dsimp only
  split
  · exact setInfo (issue ⟨hres, her, .inr (.inr (.inl ⟨hrw, rfl, hreq⟩))⟩ hne)
  · exact setInfo (signalDone (by exact hop) _)

theorem readRecord (hop : l.client.op = none) (hres : l.client.resource = .granted)
    (hreq : l.client.state.req = .read) (hrw : l.vars.rwState = .header) :
    Leaves l (l.readRecord chip) := by
  unfold Log.readRecord
  dsimp only
  split
  · exact setInfo (continueReadOp hop hres hreq (.inl hrw))
  · exact setInfo (setRwState (continueReadOp hop hres hreq (.inr rfl)))

theorem readBytes (hop : l.client.op = none) (hres : l.client.resource = .granted)
    (hreq : l.client.state.req = .read) (len : UInt8) : Leaves l (l.readBytes chip len) := by
  unfold Log.readBytes
  dsimp only
  refine of_eq (continueReadOp (l := { l.setInfo _ with vars := { l.vars with
    len := l.vars.len - len, rwState := .header } }) hop hres hreq (.inl rfl)) (fun hl => hl) rfl rfl

theorem eraseDone (hop : l.client.op = none) (hres : l.client.resource = .granted)
    (hreq : l.client.state.req = .erase ∨ l.client.state.req = .append) (error : TinyError) :
    Leaves l (l.eraseDone chip error) := by
  unfold Log.eraseDone
  dsimp only
  split
  · exact setInfo (signalDone (by exact hop) _)
  next hne =>
    have happend := hreq.resolve_left hne
    refine of_eq (issue ⟨hres, happend⟩ ?_) (fun hl => hl) rfl rfl
    change l.client.state.req ≠ .idle
    rw [happend]
    nofun

theorem writeDone (hop : l.client.op = none) (hres : l.client.resource = .granted)
    (hreq : l.client.state.req = .append) (len : UInt8) (error : TinyError) :
    Leaves l (l.writeDone chip len error) := by
  unfold Log.writeDone
  dsimp only
  split
  · split
    · exact setInfo (setRwState (continueAppendOp hres hreq))
    · exact setInfo (continueAppendOp hres hreq)
  · exact setInfo (signalDone (by exact hop) _)

theorem store {m : Log φ} (target : Target) (bytes : List UInt8)
    (h : Leaves (Log.store target bytes l) m) : Leaves l m := by
  cases target with
  | addr => exact h.of_eq (fun hl => hl) rfl rfl
  | header => exact h.of_eq (fun _ => rfl) rfl rfl
  | buf offset => exact h.of_eq (fun hl => hl) rfl rfl

theorem readDone (hop : l.client.op = none) {addr : UInt32} {target : Target} {len : UInt8}
    (hw : l.Waits (.read addr target len)) (hreq : l.client.state.req ≠ .idle)
    (error : TinyError) : Leaves l (l.readDone chip addr len error) := by
  have hres := hw.resource
  unfold Log.readDone
  obtain ⟨her, hserves⟩ := hw.serves
  rcases hserves with ⟨hrw, -⟩ | ⟨hrw, -⟩ | ⟨hrw, -, hr⟩ | ⟨hrw, -, hr⟩ | ⟨hrw, hr⟩
  all_goals rw [hrw]
  · exact searchedBlock hop hres hreq her hrw addr
  · exact searchedRecord hop hres hreq her hrw
  · exact searchedSeek hop hres hr hrw error
  · exact readRecord hop hres hr hrw
  · exact readBytes hop hres hr len

theorem freed {m : Log φ} (flash : φ)
    (h : Leaves { l with client := { l.client with flash, op := none } } m) : Leaves l m :=
  h.of_eq (fun hl => hl) rfl rfl

/-- An operation that is done. -/
theorem complete {op : Op} (hw : l.Waits op) (hreq : l.client.state.req ≠ .idle) :
    Leaves l (l.complete chip op) := by
  cases op with
  | read addr target len =>
    refine freed (chip.read l.client.flash addr len).1
      (store target (chip.read l.client.flash addr len).2.1 ?_)
    cases target with
    | addr => exact readDone (by rfl) ⟨by exact hw.resource, by exact hw.serves⟩ (by exact hreq) _
    | header => exact readDone (by rfl) ⟨by exact hw.resource, by exact hw.serves⟩ (by exact hreq) _
    | buf offset =>
      exact readDone (by rfl) ⟨by exact hw.resource, by exact hw.serves⟩ (by exact hreq) _
  | write addr bytes len =>
    refine freed (chip.write l.client.flash addr bytes).1 ?_
    refine writeDone ?_ ?_ ?_ _ _
    · rfl
    · exact hw.resource
    · exact hw.serves
  | erase sector numSectors =>
    refine freed (chip.erase l.client.flash sector numSectors).1 ?_
    refine eraseDone ?_ ?_ ?_ _
    · rfl
    · exact hw.resource
    · exact hw.serves

end Leaves

end Log

end Stm25pLogP
