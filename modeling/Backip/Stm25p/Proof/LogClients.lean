import Backip.Lib.Inputs
import Backip.Stm25p.Proof.LogServing

/-!
# The clients of the log component

`undisturbed`: what a client is told, and its offsets then, are a function of the requests it got
accepted, in the runs in which the variables that are there once are left alone (`Meets`).

`solo` is the component with one client: it only waits for requests. A run with all clients is, for
one of them, a run of `solo` up to the variables its request does not depend on (`step_solo`).
-/

set_option autoImplicit false

namespace Stm25pLogP

variable {φ : Type} {chip : Chip φ}

namespace Log

variable {l l' : Log φ}

/-! ## Requests -/

/-- A request that is refused: the variables of the requests change, and the client's offsets may. -/
structure Refuses (l m : Log φ) : Prop where
  client : m.client = { l.client with info := m.client.info }
  rwState : m.vars.rwState = l.vars.rwState
  header : m.vars.header = l.vars.header

/-- A request that is accepted waits for the resource. -/
structure Accepts (l m : Log φ) : Prop where
  idle : l.client.state.req = .idle
  client : m.client =
    { l.client with info := m.client.info, state := m.client.state, resource := .requested, got := [] }
  req : m.client.state.req ≠ .idle
  read : m.client.state.req = .read → m.vars.len = m.client.state.len
  append : m.client.state.req = .append → m.vars.recordsLost = false
  rwState : m.vars.rwState = l.vars.rwState
  header : m.vars.header = l.vars.header

/-- What a command does with the client that called it. -/
def Handles (l : Log φ) (p : TinyError × Log φ) : Prop :=
  p.1 = .success ∧ l.Accepts p.2 ∨ p.1 ≠ .success ∧ l.Refuses p.2

theorem moveOn_eq (l : Log φ) (len : UInt32) :
    ∃ info, l.moveOn len = { l with client := { l.client with info } } := by
  unfold moveOn
  split
  · exact ⟨_, rfl⟩
  · exact ⟨l.client.info, rfl⟩

theorem newRequest_handles {m : Log φ}
    (hclient : m.client = { l.client with info := m.client.info }) (hne : m.vars.req.req ≠ .idle)
    (hread : m.vars.req.req = .read → m.vars.len = m.vars.req.len)
    (happend : m.vars.req.req = .append → m.vars.recordsLost = false)
    (hrw : m.vars.rwState = l.vars.rwState) (hheader : m.vars.header = l.vars.header) :
    l.Handles m.newRequest := by
  have hreq : m.client.state.req = l.client.state.req := by rw [hclient]
  unfold newRequest
  by_cases hidle : l.client.state.req = .idle
  · rw [if_neg (not_not.2 (hreq.trans hidle))]
    refine .inl ⟨rfl, hidle, ?_, hne, hread, happend, hrw, hheader⟩
    dsimp only
    rw [hclient]
  · rw [if_pos (hreq ▸ hidle)]
    exact .inr ⟨nofun, hclient, hrw, hheader⟩

theorem request_handles (chip : Chip φ) (r : Request) (l : Log φ) : l.Handles (l.request chip r) := by
  have hsame : l.Refuses l := ⟨rfl, rfl, rfl⟩
  cases r with
  | read len => exact newRequest_handles rfl nofun (fun _ => rfl) nofun rfl rfl
  | seek cookie =>
    unfold request
    dsimp only
    split
    · exact .inr ⟨nofun, hsame⟩
    · exact newRequest_handles rfl nofun nofun nofun rfl rfl
  | erase => exact newRequest_handles rfl nofun nofun nofun rfl rfl
  | append buf len =>
    obtain ⟨info, hmove⟩ := l.moveOn_eq len
    unfold request
    dsimp only
    rw [hmove]
    split
    · exact .inr ⟨nofun, hsame⟩
    · split
      · exact .inr ⟨nofun, rfl, rfl, rfl⟩
      · exact newRequest_handles rfl nofun nofun (fun _ => rfl) rfl rfl
  | sync => exact newRequest_handles rfl nofun nofun nofun rfl rfl

/-- Two commands do the same to two clients that agree. -/
def Alike (p p' : TinyError × Log φ) : Prop :=
  p'.1 = p.1 ∧ (p.1 = .success → Agrees p'.2 p.2)

theorem newRequest_alike {m m' : Log φ}
    (hclient : m'.client = { m.client with state := m'.client.state })
    (hidle : m.client.state.req = .idle) (hidle' : m'.client.state.req = .idle)
    (hreq : m'.vars.req.req = m.vars.req.req)
    (hread : m.vars.req.req = .read → m'.vars.req.len = m.vars.req.len)
    (hseek : m.vars.req.req = .seek → m'.vars.req.cookie = m.vars.req.cookie)
    (happend : m.vars.req.req = .append →
      m'.vars.req.buf = m.vars.req.buf ∧ m'.vars.req.len = m.vars.req.len) :
    Alike m.newRequest m'.newRequest := by
  unfold newRequest
  rw [if_neg (not_not.2 hidle), if_neg (not_not.2 hidle')]
  refine ⟨rfl, fun _ => ?_⟩
  refine ⟨⟨?_, hreq, fun hr => ⟨hread hr, nofun⟩, hseek,
    fun hr => ⟨(happend hr).1, (happend hr).2, nofun⟩⟩, nofun⟩
  dsimp only
  rw [hclient]

theorem Agrees.request (h : Agrees l' l) (hidle : l.client.state.req = .idle)
    (chip : Chip φ) (r : Request) :
    Alike (l.request chip r) (l'.request chip r) := by
  have hidle' : l'.client.state.req = .idle := h.req.trans hidle
  cases r with
  | read len => exact newRequest_alike h.client hidle hidle' rfl (fun _ => rfl) nofun nofun
  | seek cookie =>
    unfold Log.request
    dsimp only
    rw [h.info]
    split
    · exact ⟨rfl, nofun⟩
    · exact newRequest_alike h.client hidle hidle' rfl nofun (fun _ => rfl) nofun
  | erase => exact newRequest_alike h.client hidle hidle' rfl nofun nofun nofun
  | append buf len =>
    have hmove : Agrees (l'.moveOn len) (l.moveOn len) := by
      unfold moveOn bytesLeft
      rw [h.info]
      split
      · exact h.setInfo _
      · exact h
    have hfull : (l'.moveOn len).isFull chip = (l.moveOn len).isFull chip := by
      unfold isFull
      rw [hmove.info]
    have hmoved : (l.moveOn len).client.state.req = .idle := by
      obtain ⟨info, hmove⟩ := l.moveOn_eq len
      rw [hmove]
      exact hidle
    unfold Log.request
    dsimp only
    rw [hfull]
    split
    · exact ⟨rfl, nofun⟩
    · split
      · exact ⟨rfl, nofun⟩
      · exact newRequest_alike hmove.client hmoved (hmove.req.trans hmoved) rfl nofun nofun
          fun _ => ⟨rfl, rfl⟩
  | sync => exact newRequest_alike h.client hidle hidle' rfl nofun nofun nofun

/-! ## A client on its own -/

/-- The client's state between the steps, with the variables as its own steps leave them. -/
structure Good (l : Log φ) : Prop where
  phase : l.Settled ∨ l.client.resource = .requested ∧ l.client.op = none ∧
    l.client.state.req ≠ .idle ∧ (l.client.state.req = .read → l.vars.len = l.client.state.len) ∧
    (l.client.state.req = .append → l.vars.recordsLost = false)
  synced : l.Synced

theorem Good.idle (h : Good l) (hidle : l.client.state.req = .idle) :
    l.client.resource = .idle ∧ l.client.op = none := by
  rcases h.phase with (⟨hres, -, hop⟩ | ⟨_, -, -, hreq⟩) | ⟨-, -, hreq, -⟩
  · exact ⟨hres, hop⟩
  · exact absurd hidle hreq
  · exact absurd hidle hreq

end Log

/-- An accepted request is noted. -/
def note (r : Request) (l : Log φ) : Log φ :=
  { l with client := { l.client with issued := r :: l.client.issued } }

/-- The steps of a client on its own: a request is accepted, or what there is to do is done. -/
inductive Solo
  | accept (r : Request)
  | go
deriving DecidableEq

namespace Solo

/-- The requests. -/
def input : Solo → Option Request
  | .accept r => some r
  | .go => none

end Solo

/-- The component with one client. -/
def solo (chip : Chip φ) (l : Log φ) : Solo → Option (Log φ)
  | .accept r =>
    if l.client.state.req = .idle ∧ (l.request chip r).1 = .success then
      some (note r (l.request chip r).2)
    else none
  | .go =>
    if l.client.state.req = .idle then none
    else if l.client.resource = .requested then
      some (Log.granted chip { l with client := { l.client with resource := .granted } })
    else l.client.op.map fun op => l.complete chip op

theorem solo_accept {l l' : Log φ} {r : Request} (h : solo chip l (.accept r) = some l') :
    l.client.state.req = .idle ∧ (l.request chip r).1 = .success ∧
      l' = note r (l.request chip r).2 := by
  rw [solo] at h
  split at h
  next hok => exact ⟨hok.1, hok.2, (Option.some.inj h).symm⟩
  · cases h

theorem solo_go {l l' : Log φ} (h : solo chip l .go = some l') :
    l.client.state.req ≠ .idle ∧
      (l.client.resource = .requested ∧
          l' = Log.granted chip { l with client := { l.client with resource := .granted } } ∨
        l.client.resource ≠ .requested ∧ ∃ op, l.client.op = some op ∧ l' = l.complete chip op) := by
  rw [solo] at h
  split at h
  · cases h
  next hreq =>
    split at h
    next hres => exact ⟨hreq, .inl ⟨hres, (Option.some.inj h).symm⟩⟩
    next hres =>
      obtain ⟨op, hop, hl'⟩ := Option.map_eq_some_iff.1 h
      exact ⟨hreq, .inr ⟨hres, op, hop, hl'.symm⟩⟩

theorem solo_forced : Forced (solo chip) Solo.input where
  forced := by
    intro l e e' l₁ l₂ h h'
    cases e with
    | accept r =>
      cases e' with
      | accept r' => exact .inr ⟨rfl, rfl⟩
      | go => exact absurd (solo_accept h).1 (solo_go h').1
    | go =>
      cases e' with
      | accept r' => exact absurd (solo_accept h').1 (solo_go h).1
      | go => exact .inl rfl
  inj := by
    intro e e' r h h'
    cases e with
    | accept r' =>
      cases e' with
      | accept r'' => rw [Option.some.inj h, Option.some.inj h']
      | go => cases h'
    | go => cases h

/-- What a step of the client leaves. -/
structure Advances (l l' : Log φ) (e : Solo) : Prop where
  good : l'.Good
  seen : l.client.seen <:+ l'.client.seen
  issued : l'.client.issued = e.input.toList ++ l.client.issued

theorem solo_advances {l l' : Log φ} {e : Solo} (hgood : l.Good) (h : solo chip l e = some l') :
    Advances l l' e := by
  cases e with
  | accept r =>
    obtain ⟨hidle, hok, rfl⟩ := solo_accept h
    rcases Log.request_handles chip r l with ⟨-, ha⟩ | ⟨hne, -⟩
    · obtain ⟨-, hop⟩ := hgood.idle hidle
      have hres : (l.request chip r).2.client.resource = .requested := by rw [ha.client]
      have hop' : (l.request chip r).2.client.op = none := by
        rw [ha.client]
        exact hop
      have hlast : (l.request chip r).2.client.lastHeader = l.client.lastHeader := by rw [ha.client]
      have hseen : (l.request chip r).2.client.seen = l.client.seen := by rw [ha.client]
      have hissued : (l.request chip r).2.client.issued = l.client.issued := by rw [ha.client]
      refine ⟨⟨.inr ⟨hres, hop', ha.req, ha.read, ha.append⟩, ?_⟩, ?_, ?_⟩
      · exact ha.header.trans (hgood.synced.trans hlast.symm)
      · exact hseen ▸ List.suffix_rfl
      · exact congrArg (r :: ·) hissued
    · exact absurd hok hne
  | go =>
    obtain ⟨hreq, hgo⟩ := solo_go h
    have hof : ∀ l₁ : Log φ, l₁.Leaves l' → (l.Synced → l₁.Synced) →
        l₁.client.seen = l.client.seen → l₁.client.issued = l.client.issued → Advances l l' .go :=
      fun l₁ hm hsync hseen hissued =>
        ⟨⟨.inl hm.settled, hm.synced (hsync hgood.synced)⟩, hseen ▸ hm.seen, hm.issued.trans hissued⟩
    rcases hgood.phase with (⟨-, hidle, -⟩ | ⟨op, hop, hw, -⟩) | ⟨hres, hop, -⟩
    · exact absurd hidle hreq
    · rcases hgo with ⟨hres, -⟩ | ⟨-, op', hop', rfl⟩
      · exact absurd (hw.resource.symm.trans hres) nofun
      · obtain rfl := Option.some.inj (hop.symm.trans hop')
        exact hof l (Log.Leaves.complete hw hreq) (fun hl => hl) rfl rfl
    · rcases hgo with ⟨-, rfl⟩ | ⟨hne, -⟩
      · exact hof _ (Log.Leaves.granted (by exact hop) (by rfl) (by exact hreq)) (fun hl => hl) rfl rfl
      · exact absurd hres hne

theorem after_advances {es : List Solo} {l l' : Log φ} (hgood : l.Good)
    (h : after? (solo chip) l es = some l') :
    l'.Good ∧ l.client.seen <:+ l'.client.seen ∧
      l'.client.issued = (es.filterMap Solo.input).reverse ++ l.client.issued := by
  induction es generalizing l with
  | nil =>
    obtain rfl := Option.some.inj h
    exact ⟨hgood, List.suffix_rfl, rfl⟩
  | cons e es ih =>
    obtain ⟨l₁, h₁, h⟩ := Option.bind_eq_some_iff.1 h
    have ha := solo_advances hgood h₁
    obtain ⟨hgood', hseen, hissued⟩ := ih ha.good h
    refine ⟨hgood', ha.seen.trans hseen, hissued.trans ?_⟩
    rw [ha.issued]
    cases e with
    | accept r =>
      have hcons : (Solo.accept r :: es).filterMap Solo.input = r :: es.filterMap Solo.input := rfl
      rw [hcons, List.reverse_cons, List.append_assoc]
      rfl
    | go => rfl

/-- The client on its own is told what its requests ask for. -/
theorem solo_determined {es es' : List Solo} {l₀ l l' : Log φ} (hgood : l₀.Good)
    (h : after? (solo chip) l₀ es = some l) (h' : after? (solo chip) l₀ es' = some l')
    (hissued : l.client.issued = l'.client.issued) :
    (l.client.seen <:+ l'.client.seen ∨ l'.client.seen <:+ l.client.seen) ∧
      (l.client.state.req = .idle → l'.client.state.req = .idle →
        l.client.seen = l'.client.seen ∧ l.client.info = l'.client.info) := by
  obtain ⟨hgood₁, -, hi⟩ := after_advances hgood h
  obtain ⟨hgood₂, -, hi'⟩ := after_advances hgood h'
  have hinputs : es.filterMap Solo.input = es'.filterMap Solo.input := by
    have hrev := List.append_cancel_right (hi.symm.trans (hissued.trans hi'))
    exact List.reverse_injective hrev
  rcases solo_forced.prefix_of_inputs h h' hinputs with ⟨more, rfl⟩ | ⟨more, rfl⟩
  · obtain ⟨hseen, hidle⟩ := further hgood₁ h h' hissued
    exact ⟨.inl hseen, fun hreq _ => by rw [hidle hreq]; exact ⟨rfl, rfl⟩⟩
  · obtain ⟨hseen, hidle⟩ := further hgood₂ h' h hissued.symm
    exact ⟨.inr hseen, fun _ hreq => by rw [hidle hreq]; exact ⟨rfl, rfl⟩⟩
where
  /-- A run that is further on with no more requests. -/
  further {es more : List Solo} {l₀ l l' : Log φ} (hgood : l.Good)
      (h : after? (solo chip) l₀ es = some l) (h' : after? (solo chip) l₀ (es ++ more) = some l')
      (hissued : l.client.issued = l'.client.issued) :
      l.client.seen <:+ l'.client.seen ∧ (l.client.state.req = .idle → l' = l) := by
    rw [after?_append, h] at h'
    obtain ⟨-, hseen, hi⟩ := after_advances hgood h'
    refine ⟨hseen, fun hidle => ?_⟩
    cases more with
    | nil => exact (Option.some.inj h').symm
    | cons e more =>
      cases e with
      | accept r =>
        have hlen := congrArg List.length (hissued.trans hi)
        simp [Solo.input] at hlen
        omega
      | go =>
        change (solo chip l .go).bind _ = some l' at h'
        obtain ⟨l₁, he, -⟩ := Option.bind_eq_some_iff.1 h'
        exact absurd hidle (solo_go he).1

/-! ## All clients -/

namespace Log

variable {l : Log φ}

/-- A request changes none of the variables that are there once. -/
theorem newRequest_vars {m : Log φ} {α : Type} (get : Vars → α) {a : α} (h : get m.vars = a) :
    get m.newRequest.2.vars = a := by
  unfold newRequest
  split <;> exact h

/-- `m_len` after a command -/
theorem request_len (r : Request) (l : Log φ) :
    (l.request chip r).2.vars.len =
      match r with
      | .read len => len.toUInt8
      | _ => l.vars.len := by
  cases r with
  | read len => exact newRequest_vars Vars.len rfl
  | seek cookie =>
    unfold request
    dsimp only
    split
    · rfl
    · exact newRequest_vars Vars.len rfl
  | erase => exact newRequest_vars Vars.len rfl
  | append buf len =>
    obtain ⟨info, hmove⟩ := l.moveOn_eq len
    unfold request
    dsimp only
    rw [hmove]
    split
    · rfl
    · split
      · rfl
      · exact newRequest_vars Vars.len rfl
  | sync => exact newRequest_vars Vars.len rfl

/-- The append gets to the request. -/
def Fits (chip : Chip φ) (l : Log φ) (len : UInt32) : Prop :=
  len ≤ maxRecordSize ∧ (l.moveOn len).isFull chip = false

/-- `m_records_lost` after a command -/
theorem request_recordsLost (chip : Chip φ) (r : Request) (l : Log φ) :
    (l.request chip r).2.vars.recordsLost = l.vars.recordsLost ∨
      ∃ buf len, r = .append buf len ∧ l.Fits chip len ∧
        (l.request chip r).2.vars.recordsLost = false := by
  cases r with
  | read len => exact .inl (newRequest_vars Vars.recordsLost rfl)
  | seek cookie =>
    left
    unfold request
    dsimp only
    split
    · rfl
    · exact newRequest_vars Vars.recordsLost rfl
  | erase => exact .inl (newRequest_vars Vars.recordsLost rfl)
  | append buf len =>
    obtain ⟨info, hmove⟩ := l.moveOn_eq len
    by_cases hlen : len > maxRecordSize
    · left
      unfold request
      dsimp only
      rw [if_pos hlen]
    · by_cases hfull : (l.moveOn len).isFull chip = true
      · left
        unfold request
        dsimp only
        rw [if_neg hlen, if_pos hfull, hmove]
      · refine .inr ⟨buf, len, rfl, ⟨UInt32.not_lt.1 hlen, Bool.not_eq_true _ ▸ hfull⟩, ?_⟩
        unfold request
        dsimp only
        rw [if_neg hlen, if_neg hfull]
        exact newRequest_vars Vars.recordsLost rfl
  | sync => exact .inl (newRequest_vars Vars.recordsLost rfl)

/-- A refused request leaves its client alone, unless an append moves on to the next block. -/
theorem request_refused {r : Request} (h : (l.request chip r).1 ≠ .success)
    (hstay : ∀ buf len, r = .append buf len → len ≤ maxRecordSize →
      l.client.state.req ≠ .idle ∨ (l.moveOn len).isFull chip = true →
      headerSize.toUInt32 + len ≤ l.bytesLeft) :
    (l.request chip r).2.client = l.client := by
  have hrefused : ∀ m : Log φ, m.client = l.client → m.newRequest.1 ≠ .success →
      m.newRequest.2.client = l.client := by
    intro m hm hne
    unfold newRequest at hne ⊢
    split
    · exact hm
    next hidle =>
      rw [if_neg hidle] at hne
      exact absurd rfl hne
  cases r with
  | read len => exact hrefused _ rfl h
  | seek cookie =>
    unfold request at h ⊢
    dsimp only at h ⊢
    split
    · rfl
    next hle =>
      rw [if_neg hle] at h
      exact hrefused _ rfl h
  | erase => exact hrefused _ rfl h
  | append buf len =>
    unfold request at h ⊢
    dsimp only at h ⊢
    by_cases hlen : len > maxRecordSize
    · rw [if_pos hlen]
    · rw [if_neg hlen] at h ⊢
      have hmoved : l.client.state.req ≠ .idle ∨ (l.moveOn len).isFull chip = true →
          l.moveOn len = l := fun hbusy => by
        unfold moveOn
        rw [if_neg (UInt32.not_lt.2 (hstay buf len rfl (UInt32.not_lt.1 hlen) hbusy))]
      by_cases hfull : (l.moveOn len).isFull chip = true
      · rw [if_pos hfull, hmoved (.inr hfull)]
      · rw [if_neg hfull] at h ⊢
        by_cases hidle : l.client.state.req = .idle
        · obtain ⟨info, hmove⟩ := l.moveOn_eq len
          rw [hmove] at h
          unfold newRequest at h
          rw [if_neg (not_not.2 hidle)] at h
          exact absurd rfl h
        · rw [hmoved (.inl hidle)] at h ⊢
          exact hrefused _ rfl h
  | sync => exact hrefused _ rfl h

/-- A client without the resource does not depend on the variables of the one that has it. -/
theorem Agrees.vars {v v' : Vars} {c : Client φ} (h : Agrees ⟨v, c⟩ l)
    (hlen : c.resource = .granted → c.state.req = .read → v'.len = v.len)
    (hlost : c.resource = .granted → c.state.req = .append → v'.recordsLost = v.recordsLost)
    (hrw : c.resource = .granted → v'.rwState = v.rwState) : Agrees ⟨v', c⟩ l where
  client := h.client
  req := h.req
  read hr := ⟨(h.read hr).1, fun hg =>
    (hlen (h.resource.trans hg) (h.req.trans hr)).trans ((h.read hr).2 hg)⟩
  seek := h.seek
  append hr := ⟨(h.append hr).1, (h.append hr).2.1, fun hg =>
    (hlost (h.resource.trans hg) (h.req.trans hr)).trans ((h.append hr).2.2 hg)⟩
  rwState hg hne := (hrw (h.resource.trans hg)).trans (h.rwState hg hne)

/-- What is to be done depends on few variables. -/
theorem Busy.congr {l' : Log φ} (h : l.Busy) (hop : l'.client.op = l.client.op)
    (hres : l'.client.resource = l.client.resource)
    (hreq : l'.client.state.req = l.client.state.req) (hrw : l'.vars.rwState = l.vars.rwState) :
    l'.Busy := by
  obtain ⟨op, hop', hw, hne⟩ := h
  refine ⟨op, hop.trans hop', ⟨hres.trans hw.resource, ?_⟩, hreq ▸ hne⟩
  have hserves := hw.serves
  cases op with
  | read addr target len =>
    dsimp only
    rw [hreq, hrw]
    exact hserves
  | write addr bytes len => exact hreq.trans hserves
  | erase sector numSectors =>
    dsimp only
    rw [hreq]
    exact hserves

end Log

/-- A client without the resource waits for it, or has nothing to be done. -/
def Client.Parked (c : Client φ) : Prop :=
  c.op = none ∧
    (c.resource = .idle ∧ c.state.req = .idle ∨ c.resource = .requested ∧ c.state.req ≠ .idle)

theorem Client.Parked.congr {c c' : Client φ} (h : c.Parked) (hop : c'.op = c.op)
    (hres : c'.resource = c.resource) (hreq : c'.state.req = c.state.req) : c'.Parked := by
  unfold Parked
  rw [hop, hres, hreq]
  exact h

theorem Client.Parked.not_granted {c : Client φ} (h : c.Parked) : c.resource ≠ .granted := by
  rcases h.2 with ⟨hres, -⟩ | ⟨hres, -⟩ <;> rw [hres] <;> nofun

section

variable {ι : Type} [DecidableEq ι] {chips : ι → Chip φ}

namespace State

variable {s s' : State ι φ} {id : ι}

/-- `Sector` has something to do for the client with the resource, and for no other one. -/
structure Sound (s : State ι φ) : Prop where
  busy : ∀ i, s.holder = some i → (s.log i).Busy
  parked : ∀ i, s.holder ≠ some i → (s.clients i).Parked

theorem setLog_clients_ne {l : Log φ} {i : ι} (h : i ≠ id) :
    (s.setLog id l).clients i = s.clients i :=
  if_neg h

theorem log_setLog (l : Log φ) : (s.setLog id l).log id = l :=
  congrArg (Log.mk l.vars) (if_pos rfl)

theorem log_setLog_ne {l : Log φ} {i : ι} (h : i ≠ id) :
    (s.setLog id l).log i = ⟨l.vars, s.clients i⟩ :=
  congrArg (Log.mk l.vars) (if_neg h)

theorem Sound.serve (hparked : ∀ i, i ≠ id → (s.clients i).Parked) {l : Log φ} (hl : l.Settled) :
    (s.serve id l).Sound := by
  have hothers : ∀ i, i ≠ id → ((s.serve id l).clients i).Parked := fun i hi => by
    change ((s.setLog id l).clients i).Parked
    rw [setLog_clients_ne hi]
    exact hparked i hi
  rcases hl with ⟨hres, hreq, hop⟩ | hbusy
  · have hfree : (s.serve id l).holder = none := if_pos hres
    refine ⟨fun i hi => absurd (hfree.symm.trans hi) nofun, fun i _ => ?_⟩
    by_cases hi : i = id
    · subst hi
      change ((s.setLog i l).log i).client.Parked
      rw [log_setLog]
      exact ⟨hop, .inl ⟨hres, hreq⟩⟩
    · exact hothers i hi
  · have hheld : (s.serve id l).holder = some id := by
      obtain ⟨_, -, hw, -⟩ := hbusy
      have hne : l.client.resource ≠ .idle := by rw [hw.resource]; nofun
      exact if_neg hne
    refine ⟨fun i hi => ?_, fun i hi => ?_⟩
    · obtain rfl := Option.some.inj (hheld.symm.trans hi)
      change ((s.setLog _ l).log _).Busy
      rw [log_setLog]
      exact hbusy
    · exact hothers i fun h => hi (h ▸ hheld)

theorem Sound.request (h : s.Sound) (r : Request) : (s.request chips id r).2.Sound := by
  obtain ⟨m, hm⟩ : ∃ m, ((s.log id).request (chips id) r).2 = m := ⟨_, rfl⟩
  have hhandles := Log.request_handles (chips id) r (s.log id)
  unfold Log.Handles at hhandles
  rw [hm] at hhandles
  have hrw : m.vars.rwState = s.vars.rwState := by
    rcases hhandles with ⟨-, ha⟩ | ⟨-, hr⟩
    · exact ha.rwState
    · exact hr.rwState
  have hop : m.client.op = (s.clients id).op := by
    rcases hhandles with ⟨-, ha⟩ | ⟨-, hr⟩
    · rw [ha.client]
      rfl
    · rw [hr.client]
      rfl
  unfold State.request
  dsimp only
  rw [hm]
  refine ⟨fun i hi => ?_, fun i hi => ?_⟩
  · by_cases hid : i = id
    · subst hid
      rw [log_setLog]
      obtain ⟨-, -, -, hreq⟩ := h.busy i hi
      rcases hhandles with ⟨-, ha⟩ | ⟨-, hr⟩
      · exact absurd ha.idle hreq
      · have hres : m.client.resource = (s.clients i).resource := by
          rw [hr.client]
          rfl
        have hreq : m.client.state.req = (s.clients i).state.req := by
          rw [hr.client]
          rfl
        exact (h.busy i hi).congr hop hres hreq hrw
    · rw [log_setLog_ne hid]
      exact (h.busy i hi).congr rfl rfl rfl hrw
  · by_cases hid : i = id
    · subst hid
      rw [show ∀ l : Log φ, (s.setLog i l).clients i = l.client from fun l => if_pos rfl]
      rcases hhandles with ⟨-, ha⟩ | ⟨-, hr⟩
      · have hres : m.client.resource = .requested := by rw [ha.client]
        exact ⟨hop.trans (h.parked i hi).1, .inr ⟨hres, ha.req⟩⟩
      · have hres : m.client.resource = (s.clients i).resource := by
          rw [hr.client]
          rfl
        have hreq : m.client.state.req = (s.clients i).state.req := by
          rw [hr.client]
          rfl
        exact (h.parked i hi).congr hop hres hreq
    · rw [setLog_clients_ne hid]
      exact h.parked i hi

end State

/-- What a step does. -/
theorem step_cases {s s' : State ι φ} {e : Event ι} (h : step chips s e = some s') :
    (∃ id r, e = .request id r ∧ s' = (s.request chips id r).2) ∨
    (∃ id, e = .granted id ∧ (s.clients id).resource = .requested ∧ s.holder = none ∧
      s' = s.serve id (Log.granted (chips id)
        { s.log id with client := { s.clients id with resource := .granted } })) ∨
    (∃ id op, e = .sectorDone id ∧ (s.clients id).op = some op ∧
      s' = s.serve id ((s.log id).complete (chips id) op)) := by
  cases e with
  | request id r => exact .inl ⟨id, r, rfl, (Option.some.inj h).symm⟩
  | granted id =>
    simp only [step] at h
    split at h
    next hfree => exact .inr (.inl ⟨id, rfl, hfree.1, hfree.2, (Option.some.inj h).symm⟩)
    · cases h
  | sectorDone id =>
    obtain ⟨op, hop, hs'⟩ := Option.map_eq_some_iff.1 h
    exact .inr (.inr ⟨id, op, rfl, hop, hs'.symm⟩)

theorem sound (chips : ι → Chip φ) (flash : ι → φ) :
    (machine chips flash).Inductive State.Sound where
  init := by
    rintro s rfl
    exact ⟨nofun, fun _ _ => ⟨rfl, .inl ⟨rfl, rfl⟩⟩⟩
  step := by
    intro s e s' hs hstep
    rcases step_cases hstep with ⟨id, r, -, rfl⟩ | ⟨id, -, hres, hfree, rfl⟩ | ⟨id, op, -, hop, rfl⟩
    · exact hs.request r
    · have hparked : ∀ i, (s.clients i).Parked := fun i => hs.parked i (hfree ▸ nofun)
      obtain ⟨hop, hphase⟩ := hparked id
      have hreq : (s.clients id).state.req ≠ .idle := by
        rcases hphase with ⟨hidle, -⟩ | ⟨-, hreq⟩
        · exact absurd (hres.symm.trans hidle) nofun
        · exact hreq
      exact .serve (fun i _ => hparked i) (Log.Leaves.granted (by exact hop) (by rfl) hreq).settled
    · have hheld : s.holder = some id := by
        by_contra hne
        exact absurd ((hs.parked id hne).1.symm.trans hop) nofun
      obtain ⟨op', hop', hw, hreq⟩ := hs.busy id hheld
      obtain rfl := Option.some.inj (hop.symm.trans hop')
      refine .serve (fun i hi => hs.parked i ?_) (Log.Leaves.complete hw hreq).settled
      rw [hheld]
      exact fun h => hi (Option.some.inj h).symm

/-! ## One client among the others -/

/-- The step leaves the client `c` alone. A call of `Read.read` while a read of `c` is served finds
the length that is left to be read; one of `Write.append` that gets to the request, while an append
of `c` is served, finds no lost records. A refused append of `c` would have fitted into the block.
When `c` is granted the resource, its request finds the variables as it set them, and a record that
is resumed the last header that was read for `c`. -/
def Meets (chips : ι → Chip φ) (c : ι) (s : State ι φ) : Event ι → Prop
  | .request _ (.read len) =>
    (s.clients c).resource = .granted → (s.clients c).state.req = .read → len.toUInt8 = s.vars.len
  | .request id (.append _ len) =>
    ((s.clients c).resource = .granted → (s.clients c).state.req = .append →
      (s.log id).Fits (chips id) len → s.vars.recordsLost = false) ∧
    (id = c → len ≤ maxRecordSize →
      (s.clients c).state.req ≠ .idle ∨ ((s.log c).moveOn len).isFull (chips c) = true →
      headerSize.toUInt32 + len ≤ (s.log c).bytesLeft)
  | .granted id => id = c →
    ((s.clients c).state.req = .read → s.vars.len = (s.clients c).state.len) ∧
    ((s.clients c).state.req = .append → s.vars.recordsLost = false) ∧
    ((s.clients c).state.req = .read → (s.clients c).info.remaining ≠ 0 → s.vars.len ≠ 0 →
      (s.clients c).info.readAddr < (s.clients c).info.writeAddr →
      (s.vars.header = invalidHeader ↔ (s.clients c).lastHeader = invalidHeader))
  | _ => True

variable {s s' : State ι φ} {c : ι} {l : Log φ}

/-- What another client is served changes nothing for `c`. -/
theorem serve_agrees {id : ι} {m : Log φ} (hne : c ≠ id) (hsound : s.Sound) (hheld : s.holder ≠ some c)
    (h : Log.Agrees (s.log c) l) : Log.Agrees ((s.serve id m).log c) l := by
  have hlog : (s.serve id m).log c = ⟨m.vars, s.clients c⟩ := State.log_setLog_ne hne
  have hng := (hsound.parked c hheld).not_granted
  rw [hlog]
  exact h.vars (fun hg => absurd hg hng) (fun hg => absurd hg hng) fun hg => absurd hg hng

/-- A command that is refused, or that another client calls, changes nothing for `c`. -/
theorem request_agrees {id : ι} {r : Request} (hmeets : Meets chips c s (.request id r))
    (hother : c = id → ((s.log c).request (chips c) r).1 ≠ .success)
    (h : Log.Agrees (s.log c) l) : Log.Agrees ((s.request chips id r).2.log c) l := by
  obtain ⟨m, hm⟩ : ∃ m, ((s.log id).request (chips id) r).2 = m := ⟨_, rfl⟩
  have hvars : Log.Agrees ⟨m.vars, s.clients c⟩ l := by
    refine h.vars (fun hg hr => ?_) (fun hg hr => ?_) fun _ => ?_
    · rw [← hm, Log.request_len]
      cases r with
      | read len => exact hmeets hg hr
      | _ => rfl
    · rcases Log.request_recordsLost (chips id) r (s.log id) with hl | ⟨buf, len, rfl, hfit, hl⟩
      · rw [← hm, hl]
        rfl
      · rw [← hm, hl]
        exact (hmeets.1 hg hr hfit).symm
    · rw [← hm]
      rcases Log.request_handles (chips id) r (s.log id) with ⟨-, ha⟩ | ⟨-, hr⟩
      · exact ha.rwState
      · exact hr.rwState
  unfold State.request
  dsimp only
  rw [hm]
  by_cases hid : c = id
  · subst hid
    have hrefused := hother rfl
    have hclient : m.client = s.clients c := by
      rw [← hm]
      refine Log.request_refused hrefused ?_
      rintro buf len rfl
      exact hmeets.2 rfl
    rw [State.log_setLog, if_neg hrefused, hclient]
    exact hvars
  · rw [State.log_setLog_ne hid]
    exact hvars

/-- A step of all clients is one of the client on its own, or none. -/
theorem step_solo {e : Event ι} (hs : step chips s e = some s') (hsound : s.Sound)
    (hmeets : Meets chips c s e) (h : Log.Agrees (s.log c) l) (hgood : l.Good) :
    Log.Agrees (s'.log c) l ∨
      ∃ e' l', solo (chips c) l e' = some l' ∧ Log.Agrees (s'.log c) l' := by
  have hreq : (s.clients c).state.req = l.client.state.req := h.req
  have hres : (s.clients c).resource = l.client.resource := h.resource
  rcases step_cases hs with ⟨id, r, rfl, rfl⟩ | ⟨id, rfl, hrequested, hfree, rfl⟩ |
      ⟨id, op, rfl, hop, rfl⟩
  · by_cases haccept : c = id ∧ ((s.log c).request (chips c) r).1 = .success
    · obtain ⟨rfl, hok⟩ := haccept
      right
      rcases Log.request_handles (chips c) r (s.log c) with ⟨-, ha⟩ | ⟨hne, -⟩
      · have hidle : l.client.state.req = .idle := h.req.symm.trans ha.idle
        obtain ⟨hsame, hagree⟩ := h.request hidle (chips c) r
        rw [hok] at hsame
        refine ⟨.accept r, _, if_pos ⟨hidle, hsame.symm⟩, ?_⟩
        unfold State.request
        dsimp only
        rw [State.log_setLog, if_pos hok]
        have hnoted := (hagree hsame.symm).update (fun c => { c with issued := r :: c.issued })
          (fun _ _ => rfl) (fun _ => rfl) fun _ => rfl
        exact hnoted
      · exact absurd hok hne
    · exact .inl (request_agrees hmeets (fun hc hok => haccept ⟨hc, hok⟩) h)
  · by_cases hc : c = id
    · subst hc
      right
      rcases hgood.phase with (⟨hidle, -⟩ | ⟨_, -, hw, -⟩) | ⟨hwait, -, hne, hlen, hlost⟩
      · exact absurd (hrequested.symm.trans (hres.trans hidle)) nofun
      · exact absurd (hrequested.symm.trans (hres.trans hw.resource)) nofun
      · obtain ⟨hlen', hlost', hheader⟩ := hmeets rfl
        refine ⟨.go, Log.granted (chips c) { l with client := { l.client with resource := .granted } },
          ?_, ?_⟩
        · rw [solo, if_neg hne, if_pos hwait]
        · have hheader' : l.client.state.req = .read → l.client.info.remaining ≠ 0 → l.vars.len ≠ 0 →
              l.client.info.readAddr < l.client.info.writeAddr →
              (s.vars.header = invalidHeader ↔ l.vars.header = invalidHeader) := by
            intro hr hrem hlen0 hlt
            have hinfo : (s.clients c).info = l.client.info := h.info
            have hvlen : s.vars.len = l.vars.len :=
              (hlen' (hreq.trans hr)).trans ((h.read hr).1.trans (hlen hr).symm)
            have hlast : (s.clients c).lastHeader = l.client.lastHeader :=
              h.lastHeader
            rw [hheader (hreq.trans hr) (hinfo ▸ hrem) (hvlen ▸ hlen0) (hinfo ▸ hlt), hlast,
              hgood.synced]
          have hgranted : Log.Same
              { s.log c with client := { s.clients c with resource := .granted } }
              { l with client := { l.client with resource := .granted } } := by
            refine ⟨?_, hreq, fun hr => ⟨(h.read hr).1, fun _ => ?_⟩, h.seek,
              fun hr => ⟨(h.append hr).1, (h.append hr).2.1, fun _ => ?_⟩⟩
            · have hclient : s.clients c = { l.client with state := (s.clients c).state } := h.client
              dsimp only
              rw [hclient]
            · exact (hlen' (hreq.trans hr)).trans ((h.read hr).1.trans (hlen hr).symm)
            · exact (hlost' (hreq.trans hr)).trans (hlost hr).symm
          change Log.Agrees ((s.setLog c _).log c) _
          rw [State.log_setLog]
          exact hgranted.granted rfl hne hheader'
    · exact .inl (serve_agrees hc hsound (hfree ▸ nofun) h)
  · by_cases hc : c = id
    · subst hc
      right
      have hop' : l.client.op = some op := h.op.symm.trans hop
      rcases hgood.phase with (⟨-, -, hnone⟩ | ⟨op', hop'', hw, hne⟩) | ⟨-, hnone, -⟩
      · exact absurd (hop'.symm.trans hnone) nofun
      · obtain rfl := Option.some.inj (hop'.symm.trans hop'')
        refine ⟨.go, l.complete (chips c) op, ?_, ?_⟩
        · rw [solo, if_neg hne, if_neg (by rw [hw.resource]; nofun), hop']
          rfl
        · change Log.Agrees ((s.setLog c _).log c) _
          rw [State.log_setLog]
          exact h.complete hw hne
      · exact absurd (hop'.symm.trans hnone) nofun
    · have hheld : s.holder = some id := by
        by_contra hne
        exact absurd ((hsound.parked id hne).1.symm.trans hop) nofun
      refine .inl (serve_agrees hc hsound ?_ h)
      rw [hheld]
      exact fun h => hc (Option.some.inj h).symm

/-! ## Runs -/

/-- The client on its own, as `Init.init` leaves it. -/
def alone (flash : φ) : Log φ := { client := { flash } }

theorem alone_good (flash : φ) : (alone flash).Good :=
  ⟨.inl (.inl ⟨rfl, rfl, rfl⟩), rfl⟩

/-- A run of all clients is one of the client on its own. -/
theorem run_solo {flash : ι → φ} {h : List (State ι φ × Event ι)}
    (hr : (machine chips flash).Run h s) (hmeets : ∀ p ∈ h, Meets chips c p.1 p.2) :
    ∃ es l, after? (solo (chips c)) (alone (flash c)) es = some l ∧ Log.Agrees (s.log c) l := by
  induction hr with
  | init hs =>
    subst hs
    exact ⟨[], _, rfl, ⟨⟨rfl, rfl, nofun, nofun, nofun⟩, nofun⟩⟩
  | step hr hs ih =>
    obtain ⟨hm, hmeets⟩ := List.forall_mem_cons.1 hmeets
    obtain ⟨es, l, hes, hagree⟩ := ih hmeets
    obtain ⟨hgood, -, -⟩ := after_advances (alone_good _) hes
    rcases step_solo hs (hr.inv (sound chips flash)) hm hagree hgood with hsame | ⟨e, l', he, hl'⟩
    · exact ⟨es, l, hes, hsame⟩
    · refine ⟨es ++ [e], l', ?_, hl'⟩
      rw [after?_append, hes]
      change (after? (solo (chips c)) l [e]) = some l'
      rw [after?, he]
      rfl

/-- **Clients do not disturb each other**, in the runs that leave `c` alone: in two of them in which
`c` gets the same requests accepted, it is told the same with the same offsets, one of the runs being
further on; and when both have nothing left to do, `c` was told the same and has the same offsets. -/
theorem undisturbed {flash flash' : ι → φ} (hflash : flash c = flash' c)
    {h h' : List (State ι φ × Event ι)} (hr : (machine chips flash).Run h s)
    (hr' : (machine chips flash').Run h' s') (hmeets : ∀ p ∈ h, Meets chips c p.1 p.2)
    (hmeets' : ∀ p ∈ h', Meets chips c p.1 p.2)
    (hissued : (s.clients c).issued = (s'.clients c).issued) :
    ((s.clients c).seen <:+ (s'.clients c).seen ∨ (s'.clients c).seen <:+ (s.clients c).seen) ∧
      ((s.clients c).state.req = .idle → (s'.clients c).state.req = .idle →
        (s.clients c).seen = (s'.clients c).seen ∧ (s.clients c).info = (s'.clients c).info) := by
  obtain ⟨es, l, hes, hagree⟩ := run_solo hr hmeets
  obtain ⟨es', l', hes', hagree'⟩ := run_solo hr' hmeets'
  rw [← hflash] at hes'
  have hl : (s.clients c).seen = l.client.seen := hagree.seen
  have hl' : (s'.clients c).seen = l'.client.seen := hagree'.seen
  have hi : (s.clients c).issued = l.client.issued := hagree.issued
  have hi' : (s'.clients c).issued = l'.client.issued := hagree'.issued
  have hreq : (s.clients c).state.req = l.client.state.req := hagree.req
  have hreq' : (s'.clients c).state.req = l'.client.state.req := hagree'.req
  have hinfo : (s.clients c).info = l.client.info := hagree.info
  have hinfo' : (s'.clients c).info = l'.client.info := hagree'.info
  rw [hl, hl', hreq, hreq', hinfo, hinfo']
  exact solo_determined (alone_good _) hes hes' (hi.symm.trans (hissued.trans hi'))

end

/-- A volume of one sector whose operations do not fail. -/
def blank : Chip Unit where
  numSectors := 1
  circular := false
  read := fun _ _ _ => ((), [], .success)
  write := fun _ _ _ => ((), .success)
  erase := fun _ _ _ => ((), .success)

instance (c : Bool) (s : State Bool Unit) (e : Event Bool) :
    Decidable (Meets (fun _ => blank) c s e) := by
  cases e with
  | request id r => cases r <;> unfold Meets Log.Fits <;> infer_instance
  | granted id => unfold Meets; infer_instance
  | sectorDone id => unfold Meets; infer_instance

/-- The requests of the client `true` that are accepted, and the others' erase and read between. -/
theorem undisturbed_erase : ∃ (h h' : List (State Bool Unit × Event Bool)) (s s' : State Bool Unit),
    (machine (fun _ => blank) fun _ => ()).Run h s ∧ (machine (fun _ => blank) fun _ => ()).Run h' s' ∧
      (s.clients true).seen = (s'.clients true).seen ∧
      (s.clients true).seen = [(.readDone [] 0 .success, 0, 0), (.eraseDone .success, 0, 0)] := by
  obtain ⟨h, s, hr, hp⟩ := Machine.exists_run_of_exec
    (M := machine (fun _ : Bool => blank) fun _ => ()) (s := { clients := fun _ => { flash := () } }) rfl
    [.request true .erase, .granted true, .sectorDone true, .request true (.read 4), .granted true]
    (fun h s => (s.clients true).seen = [(.readDone [] 0 .success, 0, 0), (.eraseDone .success, 0, 0)] ∧
      (s.clients true).issued = [.read 4, .erase] ∧ (s.clients true).state.req = .idle ∧
      ∀ p ∈ h, Meets (fun _ => blank) true p.1 p.2) (by decide)
  obtain ⟨h', s', hr', hp'⟩ := Machine.exists_run_of_exec
    (M := machine (fun _ : Bool => blank) fun _ => ()) (s := { clients := fun _ => { flash := () } }) rfl
    [.request false .erase, .request true .erase, .granted false, .request true (.append [7] 1),
      .sectorDone false, .request false (.read 9), .granted false, .granted true, .sectorDone true,
      .request true (.read 4), .request false (.read 4), .granted true]
    (fun h s => (s.clients true).issued = [.read 4, .erase] ∧ (s.clients true).state.req = .idle ∧
      ∀ p ∈ h, Meets (fun _ => blank) true p.1 p.2) (by decide)
  obtain ⟨hseen, hissued, hidle, hmeets⟩ := of_decide_eq_true hp
  obtain ⟨hissued', hidle', hmeets'⟩ := of_decide_eq_true hp'
  have hsame := (undisturbed rfl hr hr' hmeets hmeets' (hissued.trans hissued'.symm)).2 hidle hidle'
  exact ⟨h, h', s, s', hr, hr', hsame.1, hseen⟩

/-- A refused read of no bytes makes a read of an empty log one of four bytes. -/
theorem not_undisturbed : ¬ ∀ (h h' : List (State Bool Unit × Event Bool)) (s s' : State Bool Unit),
    (machine (fun _ => blank) fun _ => ()).Run h s →
      (machine (fun _ => blank) fun _ => ()).Run h' s' →
      (s.clients true).issued = (s'.clients true).issued →
      (s.clients true).seen <:+ (s'.clients true).seen ∨
        (s'.clients true).seen <:+ (s.clients true).seen := by
  intro hall
  obtain ⟨h, s, hr, hp⟩ := Machine.exists_run_of_exec
    (M := machine (fun _ : Bool => blank) fun _ => ()) (s := { clients := fun _ => { flash := () } }) rfl
    [.request true .erase, .granted true, .sectorDone true, .request true (.read 4), .granted true]
    (fun _ s => (s.clients true).seen = [(.readDone [] 0 .success, 0, 0), (.eraseDone .success, 0, 0)] ∧
      (s.clients true).issued = [.read 4, .erase]) (by decide)
  obtain ⟨h', s', hr', hp'⟩ := Machine.exists_run_of_exec
    (M := machine (fun _ : Bool => blank) fun _ => ()) (s := { clients := fun _ => { flash := () } }) rfl
    [.request true .erase, .granted true, .sectorDone true, .request true (.read 4),
      .request true (.read 0), .granted true]
    (fun _ s => (s.clients true).seen = [(.readDone [] 4 .success, 0, 0), (.eraseDone .success, 0, 0)] ∧
      (s.clients true).issued = [.read 4, .erase]) (by decide)
  obtain ⟨hseen, hissued⟩ := of_decide_eq_true hp
  obtain ⟨hseen', hissued'⟩ := of_decide_eq_true hp'
  have hsuffix := hall h h' s s' hr hr' (hissued.trans hissued'.symm)
  rw [hseen, hseen'] at hsuffix
  exact absurd hsuffix (by decide)

end Stm25pLogP
