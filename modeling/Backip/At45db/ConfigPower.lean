import Backip.At45db.ConfigStorageP

/-!
# Power loss

`ConfigPower` is a volume with what its pages may be on the flash when the power is lost. Pages that
were written or copied get there one by one and in any order, so that each may be anything it was
since `syncAll` was done last; after it, all are what `At45db` reads. What the volume keeps in memory
is lost with the power, and it boots with the pages that are there.

The rest is a record. `crcOf` is what the checksum at the start of a page was computed over: a copy
has that of its source, and bytes that a client writes there are no checksum. `last` is what the
volume contained, from the version on, when a `commitDone(SUCCESS)` was signalled last, `begun` what
the commit under way commits, and `cut` what the commits after `last` would have committed that power
loss cut short.

The client calls while none of its requests is in progress, and the operations of `At45db` succeed.
-/

set_option autoImplicit false

namespace At45db

/-- A page on the flash, and what its checksum was computed over. -/
structure Stored where
  page : Page
  crcOf : Option (List UInt8)

structure ConfigPower where
  c : ConfigStorageP
  crcOf : Nat → Option (List UInt8)
  medium : Nat → List Stored
  last : Option (List UInt8)
  begun : Option (List UInt8)
  cut : List (List UInt8)
  commits : Nat

inductive PowerEvent
  | does (e : ConfigEvent)
  /-- The power is lost; each page is one of those it may be. -/
  | lost (pick : Nat → Nat)

/-- The pages of a half. -/
def ConfigStorageP.half (v : Volume) (s : ConfigStorageP) (half : Bool) (p : Nat) : Page :=
  s.flash (halfPage v half p)

/-- What the checksum of a half is computed over: the version and the contents. -/
def ConfigStorageP.body (v : Volume) (s : ConfigStorageP) (half : Bool) : List UInt8 :=
  imageBytes v (s.half v half) 2 (ConfigStorageP.volumeSize v - 2)

/-- What a commit that begins is going to commit. -/
def ConfigStorageP.committed (v : Volume) (s : ConfigStorageP) : List UInt8 :=
  s.low.versionBytes ++
    imageBytes v (s.half v s.flip) headerSize (ConfigStorageP.volumeSize v - headerSize)

namespace ConfigPower

/-- A request at a time, and no operation that fails. -/
def Works (s : ConfigStorageP) : ConfigEvent → Prop
  | .mount | .read .. | .write .. | .commit => s.request = .idle
  | .granted => True
  | .done result _ => result = .success

instance (s : ConfigStorageP) : (e : ConfigEvent) → Decidable (Works s e)
  | .mount => inferInstanceAs (Decidable (s.request = .idle))
  | .read .. => inferInstanceAs (Decidable (s.request = .idle))
  | .write .. => inferInstanceAs (Decidable (s.request = .idle))
  | .commit => inferInstanceAs (Decidable (s.request = .idle))
  | .granted => inferInstanceAs (Decidable True)
  | .done result _ => inferInstanceAs (Decidable (result = .success))

/-- The page that is written becomes one that may be on the flash. -/
def wrote (w : ConfigPower) (p : Nat) (page : Page) (crcOf : Option (List UInt8)) : ConfigPower :=
  { w with
    crcOf := Function.update w.crcOf p crcOf
    medium := Function.update w.medium p (⟨page, crcOf⟩ :: w.medium p) }

/-- What an operation does to the pages; `c` is the volume after it. -/
def stored (w : ConfigPower) (c : ConfigStorageP) : Option Operation → ConfigPower
  | some (.copyPage source target) => w.wrote target (c.flash target) (w.crcOf source)
  | some (.write page offset _) => w.wrote page (c.flash page) <|
    if w.c.committing then w.begun else if offset < headerSize then none else w.crcOf page
  | some .syncAll => { w with medium := fun p => [⟨c.flash p, w.crcOf p⟩] }
  | _ => w

/-- `commitDone(SUCCESS)` is signalled. -/
def Commits (old c : ConfigStorageP) : Prop := c.log = .commitDone .success :: old.log

instance (old c : ConfigStorageP) : Decidable (Commits old c) :=
  inferInstanceAs (Decidable (_ = _))

def isDone : ConfigEvent → Bool
  | .done .. => true
  | _ => false

/-- The record after an event. -/
def after (v : Volume) (w : ConfigPower) (e : ConfigEvent) (c : ConfigStorageP) : ConfigPower :=
  let w' := { w.stored c (if isDone e then w.c.op else none) with c := c }
  if ConfigWatch.isCommit e then
    { w' with
      commits := w.commits + 1
      begun := if c.committing then some (c.committed v) else none }
  else if Commits w.c c then { w' with last := some (c.body v c.flip), begun := none, cut := [] }
  else w'

/-- What a page is when the power is lost. -/
def left (w : ConfigPower) (pick : Nat → Nat) (p : Nat) : Stored :=
  (w.medium p).getD (pick p) ⟨w.c.flash p, w.crcOf p⟩

def lost (w : ConfigPower) (pick : Nat → Nat) : ConfigPower where
  c := .boot fun p => (w.left pick p).page
  crcOf p := (w.left pick p).crcOf
  medium p := [w.left pick p]
  last := w.last
  begun := none
  cut := w.begun.toList ++ w.cut
  commits := w.commits

def step (v : Volume) (w : ConfigPower) : PowerEvent → Option ConfigPower
  | .does e => if Works w.c e then (w.c.step v e).map (w.after v e) else none
  | .lost pick => some (w.lost pick)

/-- A volume that was never used, with any pages. -/
def unused (flash : Nat → Page) : ConfigPower where
  c := .boot flash
  crcOf _ := none
  medium p := [⟨flash p, none⟩]
  last := none
  begun := none
  cut := []
  commits := 0

def machine (v : Volume) : Machine ConfigPower PowerEvent where
  init w := ∃ flash, w = unused flash
  step := step v

/-- The checksum of a half is right only for what it was computed over. -/
def Detects (v : Volume) (w : ConfigPower) : Prop :=
  ∀ half, (ConfigHeader.ofBytes (ConfigStorageP.pageBytes (w.c.half v half 0) 0 headerSize)).crc =
      ConfigStorageP.crcBytes 0 (w.c.body v half) →
    w.crcOf (halfPage v half 0) = some (w.c.body v half)

instance (v : Volume) (w : ConfigPower) : Decidable (Detects v w) :=
  inferInstanceAs (Decidable (∀ _ : Bool, _ → _))

/-- What a client reads is what was committed last, or what a commit after it was cut short with. -/
structure Survives (v : Volume) (w : ConfigPower) : Prop where
  /-- At rest and while the client reads. -/
  current : w.c.state.mounted = true → w.c.request = .idle ∨ w.c.request = .read →
    w.last = none ∧ w.c.state = .invalid ∨
    w.c.state ≠ .invalid ∧
      (w.last = some (w.c.body v w.c.flip) ∨ w.c.body v w.c.flip ∈ w.cut)
  told : w.c.state = .clean ∨ w.c.state = .dirty → w.c.request = .idle → ∀ addr data rest,
    w.c.log = .readDone addr data .success :: rest →
      addr = w.c.clientAddr ∧ data = imageBytes v (w.c.half v w.c.flip) w.c.addr w.c.len

end ConfigPower

end At45db
