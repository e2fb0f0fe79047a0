import Backip.Lib.PartialMap
import Backip.System.AMQueueImplP

/-!
# The queue completes its packets, once and in turn

`Good` says of every state how the slots, the cancel bits, the tasks and `AMSend` go together, and
that whoever was served while a client waits is behind the client in turn (`toward`).
-/

set_option autoImplicit false

namespace AMQueueImplP

open PartialMap

variable {Msg : Type} {n : Nat} {q : Queue Msg} {c d : Nat}

/-! ## The turn -/

/-- How far it is from `d` up to the turn of `c`. -/
def toward (n c d : Nat) : Nat := if d ≤ c then c - d else c + n - d

theorem toward_self (n c : Nat) : toward n c c = 0 := by
  rw [toward, if_pos (Nat.le_refl c), Nat.sub_self]

theorem mod_of_lt_two {a : Nat} (h : a < 2 * n) : a % n = if a < n then a else a - n := by
  split
  · rename_i hlt
    exact Nat.mod_eq_of_lt hlt
  · rename_i hge
    rw [Nat.mod_eq_sub_mod (Nat.le_of_not_lt hge), Nat.mod_eq_of_lt (by omega)]

/-- The turn of `c` comes after `toward` rounds. -/
theorem add_toward (hc : c < n) (hd : d < n) : (d + toward n c d) % n = c := by
  have hlt : d + toward n c d < 2 * n := by
    rw [toward]
    split <;> omega
  rw [mod_of_lt_two hlt, toward]
  split <;> split <;> omega

theorem toward_add (hc : c < n) (hd : d < n) {k : Nat} (hk : k ≤ toward n c d) :
    toward n c ((d + k) % n) = toward n c d - k := by
  have hlt : d + k < 2 * n := by
    rw [toward] at hk
    split at hk <;> omega
  rw [mod_of_lt_two hlt]
  unfold toward at hk ⊢
  split at hk <;> split <;> split <;> omega

theorem seek_spec (hn : 0 < n) (rounds current : Nat) (hcur : current < n) :
    (∃ k, k < rounds ∧ seek n q rounds current = some ((current + k) % n) ∧
      waiting q ((current + k) % n) = true ∧
      ∀ i, i < k → waiting q ((current + i) % n) = false) ∨
    seek n q rounds current = none ∧ ∀ i, i < rounds → waiting q ((current + i) % n) = false := by
  induction rounds generalizing current with
  | zero => exact .inr ⟨rfl, nofun⟩
  | succ rounds ih =>
    have hmod : (current + 0) % n = current := Nat.mod_eq_of_lt hcur
    have hnext : ∀ k, ((current + 1) % n + k) % n = (current + (k + 1)) % n := fun k => by
      rw [Nat.mod_add_mod, Nat.add_assoc, Nat.add_comm 1]
    by_cases hwait : waiting q current = true
    · refine .inl ⟨0, Nat.succ_pos _, ?_, ?_, nofun⟩
      · rw [seek, if_pos hwait, hmod]
      · rw [hmod]
        exact hwait
    · have hseek : seek n q (rounds + 1) current = seek n q rounds ((current + 1) % n) :=
        if_neg hwait
      have hfirst : ∀ {j}, (∀ i, i < j → waiting q (((current + 1) % n + i) % n) = false) →
          ∀ i, i < j + 1 → waiting q ((current + i) % n) = false := by
        intro j hrest i hi
        cases i with
        | zero =>
          rw [hmod]
          exact Bool.eq_false_iff.2 hwait
        | succ i =>
          rw [← hnext]
          exact hrest i (Nat.lt_of_succ_lt_succ hi)
      rw [hseek]
      rcases ih ((current + 1) % n) (Nat.mod_lt _ hn) with ⟨k, hk, heq, hwaiting, hbefore⟩ | ⟨heq, hnone⟩
      · rw [hnext] at heq hwaiting
        exact .inl ⟨k + 1, Nat.succ_lt_succ hk, heq, hwaiting, hfirst hbefore⟩
      · exact .inr ⟨heq, hfirst hnone⟩

/-- **`nextPacket`** takes the first packet in turn, if one is waiting. -/
theorem nextPacket_spec (hn : n < 256) (hcur : q.current < n)
    (hidle : waiting q q.current = false) :
    (∃ r, r < n ∧ nextPacket n q = { q with current := r } ∧ waiting q r = true ∧
      ∀ c, c < n → waiting q c = true → toward n c r < toward n c q.current) ∨
    nextPacket n q = { q with current := n } ∧ ∀ c, c < n → waiting q c = false := by
  have hpos : 0 < n := Nat.zero_lt_of_lt hcur
  have hnobody : nobody n = n := Nat.mod_eq_of_lt hn
  have hnext : ∀ k, ((q.current + 1) % n + k) % n = (q.current + (k + 1)) % n := fun k => by
    rw [Nat.mod_add_mod, Nat.add_assoc, Nat.add_comm 1]
  -- the round in which it is the turn of a client that waits
  have hturn : ∀ c, c < n → waiting q c = true →
      0 < toward n c q.current ∧ toward n c q.current ≤ n := by
    intro c hc hwait
    have hne : c ≠ q.current := fun heq => by
      rw [heq, hidle] at hwait
      cases hwait
    rw [toward]
    split <;> omega
  unfold nextPacket
  rcases seek_spec (q := q) hpos n _ (Nat.mod_lt (q.current + 1) hpos) with
    ⟨k, hk, heq, hwait, hbefore⟩ | ⟨heq, hnone⟩
  · rw [hnext] at heq hwait
    left
    refine ⟨_, Nat.mod_lt _ hpos, by rw [heq]; rfl, hwait, fun c hc hc' => ?_⟩
    obtain ⟨hturn, -⟩ := hturn c hc hc'
    have hle : k + 1 ≤ toward n c q.current := by
      refine Nat.le_of_not_lt fun hlt => ?_
      have hfalse := hbefore (toward n c q.current - 1) (by omega)
      rw [hnext, Nat.sub_add_cancel hturn, add_toward hc hcur, hc'] at hfalse
      cases hfalse
    rw [toward_add hc hcur hle]
    omega
  · right
    refine ⟨by rw [heq, hnobody]; rfl, fun c hc => Bool.eq_false_iff.2 fun hc' => ?_⟩
    obtain ⟨hpos, hle⟩ := hturn c hc hc'
    have hfalse := hnone (toward n c q.current - 1) (by omega)
    rw [hnext, Nat.sub_add_cancel hpos, add_toward hc hcur, hc'] at hfalse
    cases hfalse

/-! ## The invariant -/

/-- The slots hold the packets that are owed, and the bits say which are cancelled. -/
structure Slots (n : Nat) (q : Queue Msg) (accepted : Nat → Option (Accepted Msg)) : Prop where
  queue : ∀ c, q.queue c = (accepted c).map Accepted.msg
  bound : ∀ c x, accepted c = some x → c < n
  mask : ∀ c, q.cancelMask.get c = (accepted c).any Accepted.cancelled

structure Good (n : Nat) (s : State Msg) : Prop extends Slots n s.impl s.accepted where
  current_le : s.impl.current ≤ n
  current : ∀ x, s.accepted s.impl.current = some x → x.cancelled = false
  /-- The current packet is with `AMSend`, or was refused. -/
  busy : s.impl.current < n → ∃ x, s.accepted s.impl.current = some x ∧
    (s.impl.outstanding = [x.msg] ∧ s.impl.errorPosted = false ∨
      s.impl.outstanding = [] ∧ s.impl.errorPosted = true)
  free : s.impl.current = n → s.impl.outstanding = [] ∧ s.impl.errorPosted = false ∧
    ∀ c x, s.accepted c = some x → x.cancelled = true
  /-- `CancelTask` will come to a cancelled packet. -/
  posted : ∀ c x, s.accepted c = some x → x.cancelled = true →
    s.impl.cancelPosted = true ∨ ∃ next, s.context = .cancelTask next ∧ next ≤ c
  fair : ∀ c x, s.accepted c = some x → x.cancelled = false → ∀ e, e < n → e ≠ c →
    x.served e ≤ 1 ∧ (1 ≤ x.served e → toward n c s.impl.current ≤ toward n c e)

variable {s : State Msg} {x : Accepted Msg} {answer err : TinyError}

variable {accepted : Nat → Option (Accepted Msg)} {q' : Queue Msg}

theorem Slots.serve (h : Slots n q accepted) (r : Nat) :
    Slots n q fun other => (accepted other).map (·.serve r) := by
  refine ⟨fun c => ?_, fun c y hy => ?_, fun c => ?_⟩
  · rw [h.queue, Option.map_map]
    rfl
  · obtain ⟨x, hx, -⟩ := Option.map_eq_some_iff.1 hy
    exact h.bound c x hx
  · rw [h.mask]
    cases accepted c <;> rfl

theorem Slots.remove (h : Slots n q accepted) (hq : q'.queue = Function.update q.queue d none)
    (hm : ∀ c, q'.cancelMask.get c = (!decide (c = d) && q.cancelMask.get c)) :
    Slots n q' (Function.update accepted d none) := by
  refine ⟨fun c => ?_, fun c y hy => ?_, fun c => ?_⟩
  · rw [hq]
    by_cases hc : c = d
    · subst hc
      rw [Function.update_self, Function.update_self]
      rfl
    · rw [Function.update_of_ne hc, Function.update_of_ne hc]
      exact h.queue c
  · by_cases hc : c = d
    · subst hc
      rw [Function.update_self] at hy
      cases hy
    · rw [Function.update_of_ne hc] at hy
      exact h.bound c y hy
  · rw [hm]
    by_cases hc : c = d
    · subst hc
      rw [Function.update_self, decide_eq_true rfl]
      rfl
    · rw [Function.update_of_ne hc, decide_eq_false hc]
      exact h.mask c

/-- A slot without a cancel bit is emptied. -/
theorem Slots.remove_current (h : Slots n q accepted) (hx : accepted d = some x)
    (hno : x.cancelled = false) (hq : q'.queue = Function.update q.queue d none)
    (hm : q'.cancelMask = q.cancelMask) : Slots n q' (Function.update accepted d none) := by
  refine h.remove hq fun c => ?_
  rw [hm]
  by_cases hc : c = d
  · subst hc
    rw [decide_eq_true rfl, h.mask, hx]
    exact hno
  · rw [decide_eq_false hc]
    rfl

theorem Slots.add (h : Slots n q accepted) (hd : d < n) (hnone : accepted d = none)
    (hno : x.cancelled = false) (hq : q'.queue = Function.update q.queue d (some x.msg))
    (hm : q'.cancelMask = q.cancelMask) : Slots n q' (Function.update accepted d (some x)) := by
  refine ⟨fun c => ?_, fun c y hy => ?_, fun c => ?_⟩
  · rw [hq]
    by_cases hc : c = d
    · subst hc
      rw [Function.update_self, Function.update_self]
      rfl
    · rw [Function.update_of_ne hc, Function.update_of_ne hc]
      exact h.queue c
  · by_cases hc : c = d
    · exact hc ▸ hd
    · rw [Function.update_of_ne hc] at hy
      exact h.bound c y hy
  · rw [hm, h.mask]
    by_cases hc : c = d
    · subst hc
      rw [Function.update_self, hnone]
      exact hno.symm
    · rw [Function.update_of_ne hc]

theorem good_boot (hn : n < 256) : Good n (boot n : State Msg) where
  current_le := Nat.le_of_eq (Nat.mod_eq_of_lt hn)
  queue _ := rfl
  bound := nofun
  mask c := ByteMask.get_zero c
  current := nofun
  busy hlt := absurd (show n % 256 < n from hlt) (by rw [Nat.mod_eq_of_lt hn]; exact Nat.lt_irrefl n)
  free _ := ⟨rfl, rfl, nofun⟩
  posted := nofun
  fair := nofun

theorem Good.get_of_cancelled (h : Good n s) (hx : s.accepted c = some x)
    (hyes : x.cancelled = true) : s.impl.cancelMask.get c = true := by
  rw [h.mask, hx]
  exact hyes

theorem Good.of_get (h : Good n s) (hget : s.impl.cancelMask.get c = true) :
    ∃ x, s.accepted c = some x ∧ x.cancelled = true := by
  rw [h.mask] at hget
  cases hx : s.accepted c with
  | none =>
    rw [hx] at hget
    cases hget
  | some x =>
    rw [hx] at hget
    exact ⟨x, rfl, hget⟩

theorem Good.waiting_of (h : Good n s) (hx : s.accepted c = some x) (hno : x.cancelled = false) :
    waiting s.impl c = true := by
  rw [waiting, h.queue, h.mask, hx]
  simp [hno]

theorem Good.of_waiting (h : Good n s) (hwait : waiting s.impl c = true) :
    ∃ x, s.accepted c = some x ∧ x.cancelled = false := by
  rw [waiting, h.queue, h.mask] at hwait
  cases hx : s.accepted c with
  | none =>
    rw [hx] at hwait
    cases hwait
  | some x =>
    rw [hx] at hwait
    exact ⟨x, rfl, by simpa using hwait⟩

/-- `tryToSend` hands over the next packet, if one is waiting. -/
theorem tryToSend_spec (hn : n < 256) (hcur : q.current < n)
    (hidle : waiting q q.current = false) (hnone : q.outstanding = [])
    (hposted : q.errorPosted = false) (answer : TinyError) :
    (∃ r msg, r < n ∧ waiting q r = true ∧ q.queue r = some msg ∧
      (∀ c, c < n → waiting q c = true → toward n c r < toward n c q.current) ∧
      ∃ outstanding errorPosted,
        (outstanding = [msg] ∧ errorPosted = false ∨ outstanding = [] ∧ errorPosted = true) ∧
        tryToSend n q answer = ⟨.success, some (r, some msg), none,
          { q with current := r, outstanding, errorPosted }⟩) ∨
    tryToSend n q answer = ⟨.success, none, none, { q with current := n }⟩ ∧
      ∀ c, c < n → waiting q c = false := by
  unfold tryToSend
  rcases nextPacket_spec hn hcur hidle with ⟨r, hr, heq, hwait, hturn⟩ | ⟨heq, hall⟩
  · left
    have hsome : (q.queue r).isSome = true := (Bool.and_eq_true_iff.1 hwait).1
    obtain ⟨msg, hmsg⟩ := Option.isSome_iff_exists.1 hsome
    refine ⟨r, msg, hr, hwait, hmsg, hturn, ?_⟩
    rw [heq]
    dsimp only
    rw [if_pos hr, hmsg]
    by_cases hanswer : answer = .success
    · refine ⟨[msg], false, .inl ⟨rfl, rfl⟩, ?_⟩
      rw [amSend, if_pos hanswer, if_neg (not_not_intro hanswer)]
      dsimp only
      rw [hnone, hposted]
      rfl
    · refine ⟨[], true, .inr ⟨rfl, rfl⟩, ?_⟩
      rw [amSend, if_neg hanswer, if_pos hanswer, ← hnone]
  · right
    rw [heq]
    exact ⟨if_neg (Nat.lt_irrefl n), hall⟩

/-- What a completed packet leaves of the others. -/
theorem map_serve {r : Nat} {y : Accepted Msg}
    (h : Function.update (fun other => (accepted other).map (·.serve r)) d none c = some y) :
    c ≠ d ∧ ∃ x, accepted c = some x ∧ y = x.serve r := by
  obtain ⟨hc, hmap⟩ := update_none_eq_some h
  obtain ⟨x, hx, rfl⟩ := Option.map_eq_some_iff.1 hmap
  exact ⟨hc, x, hx, rfl⟩

/-! ## The end of a packet -/

theorem Good.cancelPosted (h : Good n s) (hidle : s.context = .idle) (c : Nat) (y : Accepted Msg)
    (hy : s.accepted c = some y) (hyes : y.cancelled = true) : s.impl.cancelPosted = true := by
  refine (h.posted c y hy hyes).resolve_right fun ⟨next, hnext, _⟩ => ?_
  rw [hidle] at hnext
  cases hnext

/-- The current packet is completed, and that of `r` is with `AMSend`, or was refused. -/
theorem Good.done_next (h : Good n s) (hidle : s.context = .idle)
    (hx : s.accepted s.impl.current = some x) {r : Nat} {y : Accepted Msg}
    (hy : s.accepted r = some y) (hyno : y.cancelled = false) (hne : r ≠ s.impl.current)
    (hturn : ∀ c y, s.accepted c = some y → y.cancelled = false → c ≠ s.impl.current →
      toward n c r < toward n c s.impl.current)
    {outstanding : List Msg} {errorPosted : Bool}
    (hout : outstanding = [y.msg] ∧ errorPosted = false ∨ outstanding = [] ∧ errorPosted = true) :
    Good n
      ⟨{ s.impl with
          queue := Function.update s.impl.queue s.impl.current none
          current := r, outstanding, errorPosted }, .handler,
        Function.update (fun other => (s.accepted other).map (·.serve r)) s.impl.current none⟩ := by
  have hr : r < n := h.bound r y hy
  have hget : Function.update (fun other => (s.accepted other).map (·.serve r)) s.impl.current none
      r = some (y.serve r) := by
    rw [Function.update_of_ne hne, hy]
    rfl
  have hslots : Slots n { s.impl with
      queue := Function.update s.impl.queue s.impl.current none
      current := r, outstanding, errorPosted }
      (Function.update (fun other => (s.accepted other).map (·.serve r)) s.impl.current none) :=
    (h.serve r).remove_current (x := x.serve r) (by rw [hx]; rfl) (h.current x hx) rfl rfl
  refine ⟨hslots, Nat.le_of_lt hr, fun z hz => ?_, fun _ => ⟨_, hget, hout⟩, fun heq => ?_,
    fun c z hz hyes => ?_, fun c z hz hno e he hec => ?_⟩
  · obtain rfl := Option.some.inj (hget.symm.trans hz)
    exact hyno
  · exact absurd (show r = n from heq) (Nat.ne_of_lt hr)
  · obtain ⟨-, x', hx', rfl⟩ := map_serve hz
    exact .inl (h.cancelPosted hidle c x' hx' hyes)
  · obtain ⟨hc, x', hx', rfl⟩ := map_serve hz
    have hlt := hturn c x' hx' hno hc
    obtain ⟨hone, hbehind⟩ := h.fair c x' hx' hno e he hec
    change Function.update x'.served r (x'.served r + 1) e ≤ 1 ∧
      (1 ≤ Function.update x'.served r (x'.served r + 1) e → toward n c r ≤ toward n c e)
    by_cases her : e = r
    · subst her
      rw [Function.update_self]
      -- a client that has been served is not sooner in turn
      have hzero : x'.served e = 0 := Nat.eq_zero_of_not_pos fun hpos =>
        Nat.not_lt_of_le (hbehind hpos) hlt
      exact ⟨by omega, fun _ => Nat.le_refl _⟩
    · rw [Function.update_of_ne her]
      exact ⟨hone, fun hpos => Nat.le_trans (Nat.le_of_lt hlt) (hbehind hpos)⟩

/-- The current packet is completed, and none is waiting. -/
theorem Good.done_last (h : Good n s) (hidle : s.context = .idle) (hcur : s.impl.current < n)
    (hx : s.accepted s.impl.current = some x)
    (hall : ∀ c y, s.accepted c = some y → c ≠ s.impl.current → y.cancelled = true) :
    Good n
      ⟨{ s.impl with
          queue := Function.update s.impl.queue s.impl.current none
          current := n, outstanding := [], errorPosted := false }, .handler,
        Function.update s.accepted s.impl.current none⟩ := by
  have hslots : Slots n { s.impl with
      queue := Function.update s.impl.queue s.impl.current none
      current := n, outstanding := [], errorPosted := false }
      (Function.update s.accepted s.impl.current none) :=
    h.remove_current hx (h.current x hx) rfl rfl
  have hcancelled : ∀ c z, Function.update s.accepted s.impl.current none c = some z →
      z.cancelled = true := fun c z hz =>
    have ⟨hc, hz⟩ := update_none_eq_some hz
    hall c z hz hc
  refine ⟨hslots, Nat.le_refl n, fun z hz => ?_, fun hlt => absurd hlt (Nat.lt_irrefl n),
    fun _ => ⟨rfl, rfl, hcancelled⟩, fun c z hz hyes => ?_, fun c z hz hno => ?_⟩
  · exact absurd (hslots.bound n z hz) (Nat.lt_irrefl n)
  · exact .inl (h.cancelPosted hidle c z (update_none_eq_some hz).2 hyes)
  · rw [hcancelled c z hz] at hno
    cases hno

/-- What `sendDone` does, where `AMSend` is done with the current packet or has refused it. -/
structure Done (n : Nat) (s : State Msg) (x : Accepted Msg) (err : TinyError) (r : Result Msg) :
    Prop where
  signal : r.signal = some (s.impl.current, some x.msg, err)
  handed : ∀ c msg, r.handed = some (c, msg) → ∃ y, s.accepted c = some y ∧ y.cancelled = false
  good : Good n ⟨r.next, .handler, account s.accepted r⟩
  /-- It is sooner the turn of the packets that wait. -/
  turn : ∀ c y, s.accepted c = some y → y.cancelled = false → c ≠ s.impl.current →
    toward n c r.next.current < toward n c s.impl.current

/-- The queue without the current packet. -/
def emptied (q : Queue Msg) : Queue Msg :=
  { q with
    outstanding := [], errorPosted := false, queue := Function.update q.queue q.current none }

theorem emptied_queue (hc : c ≠ q.current) : (emptied q).queue c = q.queue c :=
  Function.update_of_ne hc _ _

theorem waiting_emptied_current (q : Queue Msg) : waiting (emptied q) q.current = false := by
  have hnone : (emptied q).queue q.current = none := Function.update_self _ _ _
  rw [waiting, hnone]
  rfl

theorem waiting_emptied (hc : c ≠ q.current) : waiting (emptied q) c = waiting q c := by
  rw [waiting, waiting, emptied_queue hc]
  rfl

theorem Good.sendDone (h : Good n s) (hn : n < 256) (hidle : s.context = .idle)
    (hcur : s.impl.current < n) (hx : s.accepted s.impl.current = some x)
    (err answer : TinyError) :
    Done n s x err (sendDone n { s.impl with outstanding := [], errorPosted := false }
      s.impl.current (some x.msg) err answer) := by
  have hwait : ∀ c y, s.accepted c = some y → y.cancelled = false → c ≠ s.impl.current →
      waiting (emptied s.impl) c = true := fun c y hy hno hc =>
    (waiting_emptied hc).trans (h.waiting_of hy hno)
  unfold AMQueueImplP.sendDone
  change Done n s x err
    { tryToSend n (emptied s.impl) answer with signal := some (s.impl.current, some x.msg, err) }
  rcases tryToSend_spec hn (show (emptied s.impl).current < n from hcur)
      (waiting_emptied_current s.impl) rfl rfl answer with
    ⟨r, msg, hr, hrwait, hrmsg, hturn, out, ep, hout, heq⟩ | ⟨heq, hall⟩
  · rw [heq]
    have hne : r ≠ s.impl.current := by
      rintro rfl
      rw [waiting_emptied_current] at hrwait
      cases hrwait
    rw [waiting_emptied hne] at hrwait
    obtain ⟨y, hy, hyno⟩ := h.of_waiting hrwait
    have hmsg : msg = y.msg := by
      rw [emptied_queue hne, h.queue, hy] at hrmsg
      exact (Option.some.inj hrmsg).symm
    have hturn' : ∀ c y, s.accepted c = some y → y.cancelled = false → c ≠ s.impl.current →
        toward n c r < toward n c s.impl.current := fun c y hy hno hc =>
      hturn c (h.bound c y hy) (hwait c y hy hno hc)
    refine ⟨rfl, fun c m hm => ?_, ?_, hturn'⟩
    · cases hm
      exact ⟨y, hy, hyno⟩
    · exact h.done_next hidle hx hy hyno hne hturn' (hmsg ▸ hout)
  · rw [heq]
    have hcancelled : ∀ c y, s.accepted c = some y → c ≠ s.impl.current → y.cancelled = true := by
      intro c y hy hc
      refine Bool.of_not_eq_false fun hno => ?_
      have hfalse := hall c (h.bound c y hy)
      rw [hwait c y hy hno hc] at hfalse
      cases hfalse
    refine ⟨rfl, nofun, h.done_last hidle hcur hx hcancelled, fun c y hy hno hc => ?_⟩
    rw [hcancelled c y hy hc] at hno
    cases hno

/-! ## `Send.send` and `Send.cancel` -/

theorem Good.none_of_queue (h : Good n s) (hq : ¬(s.impl.queue c).isSome = true) :
    s.accepted c = none := by
  rw [h.queue, Option.isSome_map] at hq
  exact Option.not_isSome_iff_eq_none.1 hq

/-- The packet is put into its slot, behind the current one. -/
theorem Good.send_queued (h : Good n s) {client : Nat} (hclient : client < n)
    (hnone : s.accepted client = none) (hcur : s.impl.current < n) (msg : Msg) :
    Good n
      ⟨{ s.impl with queue := Function.update s.impl.queue client (some msg) }, s.context,
        Function.update s.accepted client
          (some ⟨msg, false, fun other => if other = s.impl.current then 1 else 0⟩)⟩ := by
  have hslots : Slots n { s.impl with queue := Function.update s.impl.queue client (some msg) }
      (Function.update s.accepted client
        (some ⟨msg, false, fun other => if other = s.impl.current then 1 else 0⟩)) :=
    h.add hclient hnone rfl rfl rfl
  have hne : s.impl.current ≠ client := by
    rintro heq
    obtain ⟨x, hx, -⟩ := h.busy hcur
    rw [heq, hnone] at hx
    cases hx
  refine ⟨hslots, h.current_le, fun x hx => ?_, fun _ => ?_,
    fun heq => absurd (show s.impl.current = n from heq) (Nat.ne_of_lt hcur), fun c x hx hyes => ?_,
    fun c x hx hno e he hec => ?_⟩
  · exact h.current x ((Function.update_of_ne hne _ _).symm.trans hx)
  · obtain ⟨x, hx, hout⟩ := h.busy hcur
    exact ⟨x, (Function.update_of_ne hne _ _).trans hx, hout⟩
  · rcases update_some_eq_some hx with ⟨-, rfl⟩ | ⟨-, hx⟩
    · cases hyes
    · exact h.posted c x hx hyes
  · rcases update_some_eq_some hx with ⟨rfl, rfl⟩ | ⟨-, hx⟩
    · change (if e = s.impl.current then 1 else 0) ≤ 1 ∧
        (1 ≤ (if e = s.impl.current then 1 else 0) → _)
      split
      · rename_i heq
        exact ⟨Nat.le_refl 1, fun _ => heq ▸ Nat.le_refl _⟩
      · exact ⟨Nat.zero_le 1, fun hpos => absurd hpos (by decide)⟩
    · exact h.fair c x hx hno e he hec

/-- No packet waits but cancelled ones: `AMSend` takes the new one, `x`. -/
theorem Good.send_direct (h : Good n s) {client : Nat} (hclient : client < n)
    (hnone : s.accepted client = none) (hfree : s.impl.current = n) {x : Accepted Msg}
    (hno : x.cancelled = false) (hserved : ∀ e, e < n → x.served e = 0) :
    Good n
      ⟨{ s.impl with
          queue := Function.update s.impl.queue client (some x.msg)
          current := client, outstanding := [x.msg] }, s.context,
        fun other => (Function.update s.accepted client (some x) other).map (·.serve client)⟩ := by
  obtain ⟨-, hposted, hall⟩ := h.free hfree
  have hslots : Slots n { s.impl with
      queue := Function.update s.impl.queue client (some x.msg)
      current := client, outstanding := [x.msg] }
      (fun other => (Function.update s.accepted client (some x) other).map (·.serve client)) := by
    refine Slots.serve (h.add hclient hnone hno ?_ ?_) client <;> rfl
  have hget : (Function.update s.accepted client (some x) client).map (·.serve client) =
      some (x.serve client) := by
    rw [Function.update_self]
    rfl
  have hcases : ∀ c y, (Function.update s.accepted client (some x) c).map (·.serve client) = some y →
      c = client ∧ y = x.serve client ∨
      c ≠ client ∧ y.cancelled = true ∧ ∃ z, s.accepted c = some z ∧ z.cancelled = true := by
    intro c y hy
    by_cases hc : c = client
    · subst hc
      exact .inl ⟨rfl, Option.some.inj (hy.symm.trans hget)⟩
    · rw [Function.update_of_ne hc] at hy
      obtain ⟨z, hz, rfl⟩ := Option.map_eq_some_iff.1 hy
      exact .inr ⟨hc, hall c z hz, z, hz, hall c z hz⟩
  refine ⟨hslots, Nat.le_of_lt hclient, fun y hy => ?_, fun _ => ⟨_, hget, .inl ⟨rfl, hposted⟩⟩,
    fun heq => absurd (show client = n from heq) (Nat.ne_of_lt hclient), fun c y hy hyes => ?_,
    fun c y hy hyno e he hec => ?_⟩
  · obtain rfl := Option.some.inj (hget.symm.trans hy)
    exact hno
  · rcases hcases c y hy with ⟨-, rfl⟩ | ⟨-, -, z, hz, hzyes⟩
    · rw [show (x.serve client).cancelled = false from hno] at hyes
      cases hyes
    · exact h.posted c z hz hzyes
  · rcases hcases c y hy with ⟨rfl, rfl⟩ | ⟨-, hyyes, -⟩
    · refine ⟨?_, fun _ => ?_⟩
      · change Function.update x.served c (x.served c + 1) e ≤ 1
        rw [Function.update_of_ne hec, hserved e he]
        exact Nat.zero_le 1
      · change toward n c c ≤ _
        rw [toward_self]
        exact Nat.zero_le _
    · rw [hyyes] at hyno
      cases hyno

/-- No packet waits but cancelled ones, and `AMSend` refuses the new one. -/
theorem Good.send_refused (h : Good n s) (hfree : s.impl.current = n) (client : Nat) :
    Good n ⟨s.impl, s.context, fun other => (s.accepted other).map (·.serve client)⟩ := by
  obtain ⟨hout, hposted, hall⟩ := h.free hfree
  have hcases : ∀ c y, (s.accepted c).map (·.serve client) = some y →
      ∃ z, s.accepted c = some z ∧ z.cancelled = true ∧ y.cancelled = true := by
    intro c y hy
    obtain ⟨z, hz, rfl⟩ := Option.map_eq_some_iff.1 hy
    exact ⟨z, hz, hall c z hz, hall c z hz⟩
  refine ⟨h.serve client, h.current_le, fun y hy => ?_,
    fun hlt => absurd hfree (Nat.ne_of_lt hlt), fun _ => ⟨hout, hposted, fun c y hy => ?_⟩,
    fun c y hy _ => ?_, fun c y hy hno => ?_⟩
  · obtain ⟨z, hz, -⟩ := hcases _ y hy
    have hlt := h.bound _ z hz
    rw [hfree] at hlt
    exact absurd hlt (Nat.lt_irrefl n)
  · obtain ⟨-, -, -, hyes⟩ := hcases c y hy
    exact hyes
  · obtain ⟨z, hz, hzyes, -⟩ := hcases c y hy
    exact h.posted c z hz hzyes
  · obtain ⟨-, -, -, hyes⟩ := hcases c y hy
    rw [hyes] at hno
    cases hno

/-- A queued packet is cancelled. -/
theorem Good.cancel_queued (h : Good n s) {client : Nat} (hx : s.accepted client = some x)
    (hne : s.impl.current ≠ client) :
    Good n
      ⟨{ s.impl with cancelMask := s.impl.cancelMask.set client, cancelPosted := true }, s.context,
        Function.update s.accepted client (some { x with cancelled := true })⟩ := by
  have hslots : Slots n { s.impl with
      cancelMask := s.impl.cancelMask.set client, cancelPosted := true }
      (Function.update s.accepted client (some { x with cancelled := true })) := by
    refine ⟨fun c => ?_, fun c y hy => ?_, fun c => ?_⟩
    · by_cases hc : c = client
      · subst hc
        rw [Function.update_self, h.queue, hx]
        rfl
      · rw [Function.update_of_ne hc]
        exact h.queue c
    · rcases update_some_eq_some hy with ⟨rfl, -⟩ | ⟨-, hy⟩
      · exact h.bound c x hx
      · exact h.bound c y hy
    · rw [ByteMask.get_set]
      by_cases hc : c = client
      · subst hc
        rw [Function.update_self, decide_eq_true rfl]
        rfl
      · rw [Function.update_of_ne hc, decide_eq_false hc, Bool.false_or]
        exact h.mask c
  refine ⟨hslots, h.current_le, fun y hy => ?_, fun hlt => ?_, fun hfree => ?_,
    fun _ _ _ _ => .inl rfl, fun c y hy hno => ?_⟩
  · exact h.current y ((Function.update_of_ne hne _ _).symm.trans hy)
  · obtain ⟨y, hy, hout⟩ := h.busy hlt
    exact ⟨y, (Function.update_of_ne hne _ _).trans hy, hout⟩
  · obtain ⟨hout, hposted, hall⟩ := h.free hfree
    refine ⟨hout, hposted, fun c y hy => ?_⟩
    rcases update_some_eq_some hy with ⟨-, rfl⟩ | ⟨-, hy⟩
    · rfl
    · exact hall c y hy
  · rcases update_some_eq_some hy with ⟨-, rfl⟩ | ⟨-, hy⟩
    · cases hno
    · exact h.fair c y hy hno

/-! ## `CancelTask` -/

/-- The bit that `CancelTask` comes to. -/
theorem cancelLoop_spec (n : Nat) (q : Queue Msg) (next : Nat) :
    (∃ last, next ≤ last ∧ q.cancelMask.get last = true ∧
      (∀ c, next ≤ c → q.cancelMask.get c = true → last ≤ c) ∧
      cancelLoop n q next = ⟨.success, none, some (last, q.queue last, .ecancel),
        { q with
          queue := Function.update q.queue last none, cancelMask := q.cancelMask.clear last }⟩) ∨
    (∀ c, c < n → next ≤ c → q.cancelMask.get c = false) ∧
      cancelLoop n q next = ⟨.success, none, none, q⟩ := by
  unfold cancelLoop
  cases hfind : (List.range (8 * (n / 8 + 1))).find? fun last =>
      next ≤ last && q.cancelMask.get last with
  | some last =>
    obtain ⟨hlast, -, hfirst⟩ := List.find?_range_eq_some.1 hfind
    obtain ⟨hle, hbit⟩ := Bool.and_eq_true_iff.1 hlast
    refine .inl ⟨last, of_decide_eq_true hle, hbit, fun c hc hget => ?_, rfl⟩
    refine Nat.le_of_not_lt fun hlt => ?_
    have hfalse := hfirst c hlt
    rw [decide_eq_true hc, hget] at hfalse
    cases hfalse
  | none =>
    refine .inr ⟨fun c hc hle => Bool.eq_false_iff.2 fun hget => ?_, rfl⟩
    have hfalse := List.find?_range_eq_none.1 hfind c (by omega)
    rw [decide_eq_true hle, hget] at hfalse
    cases hfalse

/-- A part of `CancelTask`, where the bits up to `next` are done with or the task is posted again. -/
structure Cancelled (n : Nat) (s : State Msg) (r : Result Msg) : Prop where
  good : Good n ⟨r.next, cancelContext r, account s.accepted r⟩
  signal : ∀ c msg err, r.signal = some (c, msg, err) →
    ∃ y, s.accepted c = some y ∧ msg = some y.msg
  handed : r.handed = none

theorem Good.cancelLoop (h : Good n s) (next : Nat) (cancelPosted : Bool)
    (hposted : ∀ c y, s.accepted c = some y → y.cancelled = true → cancelPosted = true ∨ next ≤ c) :
    Cancelled n s (cancelLoop n { s.impl with cancelPosted } next) := by
  rcases cancelLoop_spec n { s.impl with cancelPosted } next with
    ⟨last, hle, hget, hfirst, heq⟩ | ⟨hnone, heq⟩
  · rw [heq]
    obtain ⟨x, hx, hyes⟩ := h.of_get hget
    have hne : s.impl.current ≠ last := by
      rintro rfl
      rw [h.current x hx] at hyes
      cases hyes
    have hslots : Slots n { s.impl with
        cancelPosted, queue := Function.update s.impl.queue last none,
        cancelMask := s.impl.cancelMask.clear last } (Function.update s.accepted last none) :=
      h.remove rfl fun c => ByteMask.get_clear _ _ _
    refine ⟨⟨hslots, h.current_le, fun y hy => ?_, fun hlt => ?_, fun hfree => ?_,
      fun c y hy hyes => ?_, fun c y hy hno => ?_⟩, fun c msg err hsig => ?_, rfl⟩
    · exact h.current y (update_none_eq_some hy).2
    · obtain ⟨y, hy, hout⟩ := h.busy hlt
      exact ⟨y, (Function.update_of_ne hne _ _).trans hy, hout⟩
    · obtain ⟨hout, herr, hall⟩ := h.free hfree
      exact ⟨hout, herr, fun c y hy => hall c y (update_none_eq_some hy).2⟩
    · obtain ⟨hc, hy⟩ := update_none_eq_some hy
      refine (hposted c y hy hyes).imp_right fun hle' => ⟨last + 1, rfl, ?_⟩
      exact Nat.lt_of_le_of_ne (hfirst c hle' (h.get_of_cancelled hy hyes)) (Ne.symm hc)
    · exact h.fair c y (update_none_eq_some hy).2 hno
    · cases hsig
      refine ⟨x, hx, ?_⟩
      change s.impl.queue last = _
      rw [h.queue, hx]
      rfl
  · rw [heq]
    refine ⟨⟨⟨h.queue, h.bound, h.mask⟩, h.current_le, h.current, h.busy, h.free,
      fun c y hy hyes => ?_, h.fair⟩, nofun, rfl⟩
    refine (hposted c y hy hyes).imp_right fun hle => ?_
    have hfalse := hnone c (h.bound c y hy) hle
    cases (h.get_of_cancelled hy hyes).symm.trans hfalse

/-! ## The steps -/

/-- What a step does: whom it completes, and whom it hands over. -/
structure Keeps (n : Nat) (s : State Msg) (e : Event Msg) (r : Result Msg × Context) : Prop where
  good : Good n ⟨r.1.next, r.2, account (accept s e r.1) r.1⟩
  signal : ∀ c msg err, r.1.signal = some (c, msg, err) →
    ∃ y, s.accepted c = some y ∧ msg = some y.msg
  handed : ∀ c msg, r.1.handed = some (c, msg) →
    ∀ y, s.accepted c = some y → y.cancelled = false

theorem Good.send (h : Good n s) (hn : n < 256) (client : Nat) (msg : Msg) (answer : TinyError) :
    Keeps n s (.send client msg answer) (send n s.impl client msg answer, s.context) ∧
      ((send n s.impl client msg answer).error = .success → s.accepted client = none) := by
  unfold AMQueueImplP.send
  by_cases hclient : n ≤ client
  · rw [if_pos hclient]
    exact ⟨⟨h, nofun, nofun⟩, nofun⟩
  rw [if_neg hclient]
  by_cases hsome : (s.impl.queue client).isSome = true
  · rw [if_pos hsome]
    exact ⟨⟨h, nofun, nofun⟩, nofun⟩
  rw [if_neg hsome]
  have hlt : client < n := Nat.lt_of_not_le hclient
  have hnone : s.accepted client = none := h.none_of_queue hsome
  dsimp only
  by_cases hcur : n ≤ s.impl.current
  · rw [if_pos hcur]
    have hfree : s.impl.current = n := Nat.le_antisymm h.current_le hcur
    obtain ⟨hout, -, -⟩ := h.free hfree
    by_cases hanswer : answer = .success
    · subst hanswer
      rw [if_neg (not_not_intro rfl), amSend, if_pos rfl]
      refine ⟨⟨?_, nofun, fun c m hm y hy => ?_⟩, fun _ => hnone⟩
      · have hgood := h.send_direct hlt hnone hfree
          (x := ⟨msg, false, fun other => if other = s.impl.current then 1 else 0⟩) rfl
          fun e he => if_neg (by omega)
        dsimp only
        rw [hout]
        exact hgood
      · cases hm
        rw [hnone] at hy
        cases hy
    · rw [if_pos hanswer, amSend, if_neg hanswer]
      refine ⟨⟨?_, nofun, fun c m hm y hy => ?_⟩, fun herr => absurd herr hanswer⟩
      · have hgood := h.send_refused hfree client
        have hqueue : Function.update (Function.update s.impl.queue client (some msg)) client none =
            s.impl.queue := by
          rw [Function.update_idem]
          refine Function.update_eq_self_iff.2 ?_
          rw [h.queue, hnone]
          rfl
        have hnobody : nobody n = s.impl.current := (Nat.mod_eq_of_lt hn).trans hfree.symm
        dsimp only
        rw [hqueue, hnobody, accept, if_neg hanswer]
        exact hgood
      · cases hm
        rw [hnone] at hy
        cases hy
  · rw [if_neg hcur]
    exact ⟨⟨h.send_queued hlt hnone (Nat.lt_of_not_le hcur) msg, nofun, nofun⟩, fun _ => hnone⟩

/-- `AMSend` has refused the current packet. -/
theorem Good.errorTask_eq (h : Good n s) (hx : s.accepted s.impl.current = some x)
    (hout : s.impl.outstanding = []) (answer : TinyError) :
    errorTask n s.impl answer =
      AMQueueImplP.sendDone n { s.impl with outstanding := [], errorPosted := false }
        s.impl.current (some x.msg) .fail answer := by
  have hqueue : s.impl.queue s.impl.current = some x.msg := by
    rw [h.queue, hx]
    rfl
  unfold errorTask
  dsimp only
  rw [hqueue, ← hout]

theorem Done.keeps {err : TinyError} {r : Result Msg} (h : Done n s x err r)
    (hx : s.accepted s.impl.current = some x) {e : Event Msg}
    (he : ∀ r, accept s e r = s.accepted) : Keeps n s e (r, doneContext r) := by
  refine ⟨?_, fun c msg err' hsig => ?_, fun c msg hhand y hy => ?_⟩
  · have hgood := h.good
    dsimp only
    rw [he, doneContext, h.signal]
    exact hgood
  · obtain ⟨rfl, rfl, -⟩ : s.impl.current = c ∧ some x.msg = msg ∧ err = err' := by
      simpa using h.signal.symm.trans hsig
    exact ⟨x, hx, rfl⟩
  · obtain ⟨z, hz, hno⟩ := h.handed c msg hhand
    obtain rfl := Option.some.inj (hz.symm.trans hy)
    exact hno

variable [DecidableEq Msg]

theorem Good.cancel (h : Good n s) (client : Nat) (msg : Msg) (answer : TinyError) :
    Keeps n s (.cancel client msg answer) (cancel n s.impl client msg answer, s.context) := by
  unfold AMQueueImplP.cancel
  by_cases hinvalid : n ≤ client ∨ s.impl.queue client = none ∨ s.impl.queue client ≠ some msg
  · rw [if_pos hinvalid]
    exact ⟨h, nofun, nofun⟩
  rw [if_neg hinvalid]
  by_cases hcur : s.impl.current = client
  · rw [if_pos hcur]
    refine ⟨?_, nofun, nofun⟩
    rw [accept, if_neg fun hboth => hboth.2 hcur]
    exact h
  · rw [if_neg hcur]
    refine ⟨?_, nofun, nofun⟩
    obtain ⟨x, hx⟩ : ∃ x, s.accepted client = some x := by
      cases hx : s.accepted client with
      | none =>
        refine absurd (.inr (.inl ?_)) hinvalid
        rw [h.queue, hx]
        rfl
      | some x => exact ⟨x, rfl⟩
    rw [accept, if_pos ⟨rfl, hcur⟩, hx]
    exact h.cancel_queued hx hcur

/-- `AMSend` is done with the current packet. -/
theorem Good.amSendDone_eq (h : Good n s) (hcur : s.impl.current < n)
    (hx : s.accepted s.impl.current = some x) (hout : s.impl.outstanding = [x.msg])
    (hno : s.impl.errorPosted = false) (err answer : TinyError) :
    amSendDone n s.impl x.msg err answer =
      AMQueueImplP.sendDone n { s.impl with outstanding := [], errorPosted := false }
        s.impl.current (some x.msg) err answer := by
  have hqueue : s.impl.queue s.impl.current = some x.msg := by
    rw [h.queue, hx]
    rfl
  unfold amSendDone
  dsimp only
  rw [if_neg (Nat.not_le_of_lt hcur), if_pos hqueue, hout, List.erase_cons_head, ← hno]

theorem Good.react (h : Good n s) (hn : n < 256) {e : Event Msg} {r : Result Msg × Context}
    (hst : react n s e = some r) : Keeps n s e r := by
  cases e with
  | send client msg answer =>
    obtain rfl := Option.some.inj hst
    exact (h.send hn client msg answer).1
  | cancel client msg answer =>
    obtain rfl := Option.some.inj hst
    exact h.cancel client msg answer
  | cancelTask =>
    simp only [AMQueueImplP.react] at hst
    split at hst
    · obtain rfl := Option.some.inj hst
      have hkeeps := h.cancelLoop 0 false fun _ _ _ _ =>
        .inr (Nat.zero_le _)
      exact ⟨hkeeps.good, hkeeps.signal, fun c m hm => by rw [hkeeps.handed] at hm; cases hm⟩
    · cases hst
  | errorTask answer =>
    simp only [AMQueueImplP.react] at hst
    split at hst
    · rename_i hposted
      obtain rfl := Option.some.inj hst
      have hlt : s.impl.current < n := Nat.lt_of_le_of_ne h.current_le fun hfree => by
        rw [(h.free hfree).2.1] at hposted
        cases hposted.2
      obtain ⟨x, hx, ⟨-, hno⟩ | ⟨hout, -⟩⟩ := h.busy hlt
      · rw [hno] at hposted
        cases hposted.2
      · rw [h.errorTask_eq hx hout]
        exact (h.sendDone hn hposted.1 hlt hx .fail answer).keeps hx fun _ => rfl
    · cases hst
  | amSendDone msg err answer =>
    simp only [AMQueueImplP.react] at hst
    split at hst
    · rename_i hmem
      obtain rfl := Option.some.inj hst
      have hlt : s.impl.current < n := Nat.lt_of_le_of_ne h.current_le fun hfree => by
        rw [(h.free hfree).1] at hmem
        cases hmem.2
      obtain ⟨x, hx, ⟨hout, hno⟩ | ⟨hout, -⟩⟩ := h.busy hlt
      · obtain rfl : msg = x.msg := List.mem_singleton.1 (hout ▸ hmem.2)
        rw [h.amSendDone_eq hlt hx hout hno]
        exact (h.sendDone hn hmem.1 hlt hx err answer).keeps hx fun _ => rfl
      · rw [hout] at hmem
        cases hmem.2
    · cases hst
  | handled =>
    simp only [AMQueueImplP.react] at hst
    split at hst
    · cases hst
    · rename_i hcontext
      obtain rfl := Option.some.inj hst
      refine ⟨⟨⟨h.queue, h.bound, h.mask⟩, h.current_le, h.current, h.busy, h.free,
        fun c y hy hyes => ?_, h.fair⟩, nofun, nofun⟩
      refine .inl ((h.posted c y hy hyes).resolve_right fun ⟨next, hnext, _⟩ => ?_)
      rw [hcontext] at hnext
      cases hnext
    · rename_i next hcontext
      obtain rfl := Option.some.inj hst
      have hkeeps := h.cancelLoop next s.impl.cancelPosted
        fun c y hy hyes => (h.posted c y hy hyes).imp_right fun ⟨k, hk, hle⟩ => by
          rw [hcontext] at hk
          cases hk
          exact hle
      exact ⟨hkeeps.good, hkeeps.signal, fun c m hm => by rw [hkeeps.handed] at hm; cases hm⟩

end AMQueueImplP
