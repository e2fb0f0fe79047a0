import Backip.Lib.PartialMap
import Backip.Timer.VirtualizeAlarmC

/-!
# What virtual alarms stand for

`Tracks` ties the wrapping `t0` and `dt` of an alarm to what the alarm is for: they lead to a time
that is not before its deadline, and shows the same. `rebase` keeps it, and keeps the time itself
where no round of the counter has gone by. `Good` holds in every run, `Exact` in the runs that meet
`Fits`.
-/

set_option autoImplicit false

namespace VirtualizeAlarmC

open PartialMap

variable {size n time : Nat} {p : Alarm} {base : Nat} {x : Started}

theorem round_pos (size : Nat) : 0 < round size := Nat.two_pow_pos _

/-! ## One alarm -/

/-- The alarm, counted from the time `base`. -/
structure Tracks (size : Nat) (p : Alarm) (base : Nat) (x : Started) (time : Nat) : Prop where
  t0 : base % round size = p.t0
  past : base ≤ time
  short : p.dt < round size
  due : x.deadline ≤ base + p.dt
  shown : (base + p.dt) % round size = x.deadline % round size

/-- From when `rebase` counts. -/
def rebased (size time base : Nat) (p : Alarm) : Nat :=
  if p.dt ≤ (time - base) % round size then base + p.dt else time

theorem Tracks.elapsed (h : Tracks size p base x time) :
    elapsed size (time % round size) p.t0 = (time - base) % round size := by
  rw [VirtualizeAlarmC.elapsed, ← h.t0]
  exact WrappingClock.elapsed_eq (round_pos size) h.past

theorem Tracks.rebase_of_due (h : Tracks size p base x time)
    (hdue : p.dt ≤ (time - base) % round size) :
    rebase size (time % round size) p = ⟨(p.t0 + p.dt) % round size, 0⟩ ∧
      rebased size time base p = base + p.dt := by
  have hrebased : rebased size time base p = base + p.dt := if_pos hdue
  rw [← h.elapsed] at hdue
  exact ⟨if_pos hdue, hrebased⟩

theorem Tracks.rebase_of_not_due (h : Tracks size p base x time)
    (hdue : ¬p.dt ≤ (time - base) % round size) :
    rebase size (time % round size) p =
        ⟨time % round size, p.dt - (time - base) % round size⟩ ∧
      rebased size time base p = time := by
  have hrebased : rebased size time base p = time := if_neg hdue
  rw [← h.elapsed] at hdue ⊢
  exact ⟨if_neg hdue, hrebased⟩

theorem Tracks.rebase (h : Tracks size p base x time) :
    Tracks size (rebase size (time % round size) p) (rebased size time base p) x time := by
  have hmod := Nat.mod_le (time - base) (round size)
  have hpast := h.past
  have hdeadline := h.due
  have hshort := h.short
  by_cases hdue : p.dt ≤ (time - base) % round size
  · obtain ⟨hp, hbase⟩ := h.rebase_of_due hdue
    rw [hp, hbase]
    refine ⟨?_, ?_, round_pos size, h.due, h.shown⟩
    · rw [← h.t0, Nat.mod_add_mod]
    · omega
  · obtain ⟨hp, hbase⟩ := h.rebase_of_not_due hdue
    rw [hp, hbase]
    refine ⟨rfl, Nat.le_refl _, Nat.lt_of_le_of_lt (Nat.sub_le _ _) h.short, ?_, ?_⟩
    · change x.deadline ≤ time + (p.dt - (time - base) % round size)
      omega
    · change (time + (p.dt - (time - base) % round size)) % round size = _
      have hdiv := Nat.div_add_mod (time - base) (round size)
      have hsum : time + (p.dt - (time - base) % round size) =
          base + p.dt + round size * ((time - base) / round size) := by
        omega
      rw [hsum, Nat.add_mul_mod_self_left, h.shown]

/-- An alarm that is not due counts from now. -/
theorem Tracks.rebased_eq (h : Tracks size p base x time) :
    (VirtualizeAlarmC.rebase size (time % round size) p).dt = 0 ∨
      rebased size time base p = time := by
  by_cases hdue : p.dt ≤ (time - base) % round size
  · exact .inl (congrArg Alarm.dt (h.rebase_of_due hdue).1)
  · exact .inr (h.rebase_of_not_due hdue).2

/-- Where no round has gone by, the alarm leads to the same time. -/
theorem Tracks.rebased_add (h : Tracks size p base x time)
    (hnear : p.dt = 0 ∨ time < base + round size) :
    rebased size time base p + (VirtualizeAlarmC.rebase size (time % round size) p).dt =
      base + p.dt := by
  have hpast := h.past
  by_cases hdue : p.dt ≤ (time - base) % round size
  · obtain ⟨hp, hbase⟩ := h.rebase_of_due hdue
    rw [hp, hbase]
    rfl
  · obtain ⟨hp, hbase⟩ := h.rebase_of_not_due hdue
    have hlt : time < base + round size := hnear.resolve_left fun hzero => by
      rw [hzero] at hdue
      exact hdue (Nat.zero_le _)
    have hmod : (time - base) % round size = time - base := Nat.mod_eq_of_lt (by omega)
    rw [hp, hbase]
    change time + (p.dt - (time - base) % round size) = base + p.dt
    omega

/-- The counter never shows more than what has gone by. -/
theorem Tracks.deadline_le (h : Tracks size p base x time)
    (hdue : p.dt ≤ VirtualizeAlarmC.elapsed size (time % round size) p.t0) :
    x.deadline ≤ time := by
  have hmod := Nat.mod_le (time - base) (round size)
  have hpast := h.past
  have hdeadline := h.due
  rw [h.elapsed] at hdue
  omega

theorem Tracks.later (h : Tracks size p base x time) {now : Nat} (hle : time ≤ now) :
    Tracks size p base x now :=
  ⟨h.t0, Nat.le_trans h.past hle, h.short, h.due, h.shown⟩

/-! ## `setNextAlarm` -/

variable {s : Alarms}

/-- What the loop has made of the alarms below `n`. -/
structure Scanned (size : Nat) (s : Alarms) (now n : Nat) (m : Scan) : Prop where
  alarm : ∀ id, m.alarm id =
    if id < n ∧ s.isset id = true then rebase size now (s.alarm id) else s.alarm id
  least : ∀ id, id < n → s.isset id = true → m.dt ≤ (rebase size now (s.alarm id)).dt
  isset : m.isset = true ∨ ∀ id, id < n → s.isset id = false
  dt : m.dt = round size - 1 ∨
    ∃ id, id < n ∧ s.isset id = true ∧ m.dt = (rebase size now (s.alarm id)).dt

theorem rebase_dt_le (size now : Nat) (p : Alarm) : (rebase size now p).dt ≤ p.dt := by
  unfold rebase
  dsimp only
  split
  · exact Nat.zero_le _
  · exact Nat.sub_le _ _

theorem Scanned.skip {now : Nat} {m : Scan} (h : Scanned size s now n m)
    (hset : s.isset n = false) : Scanned size s now (n + 1) m := by
  have hlt : ∀ id, id < n + 1 → s.isset id = true → id < n := fun id hid hisset =>
    (Nat.lt_succ_iff_lt_or_eq.1 hid).resolve_right fun heq => by
      rw [heq, hset] at hisset
      cases hisset
  refine ⟨fun id => ?_, fun id hid hisset => h.least id (hlt id hid hisset) hisset, ?_, ?_⟩
  · rw [h.alarm]
    refine if_congr (Iff.intro ?_ ?_) rfl rfl
    · exact fun ⟨hid, hisset⟩ => ⟨Nat.lt_succ_of_lt hid, hisset⟩
    · exact fun ⟨hid, hisset⟩ => ⟨hlt id hid hisset, hisset⟩
  · refine h.isset.imp_right fun hnone id hid => ?_
    rcases Nat.lt_succ_iff_lt_or_eq.1 hid with hid | rfl
    · exact hnone id hid
    · exact hset
  · exact h.dt.imp_right fun ⟨id, hid, hdt⟩ => ⟨id, Nat.lt_succ_of_lt hid, hdt⟩

theorem Scanned.look {now : Nat} {m : Scan} (h : Scanned size s now n m)
    (hset : s.isset n = true) (hshort : (s.alarm n).dt < round size) :
    Scanned size s now (n + 1)
      (if (rebase size now (m.alarm n)).dt ≤ m.dt then
        ⟨Function.update m.alarm n (rebase size now (m.alarm n)),
          (rebase size now (m.alarm n)).dt, true⟩
      else { m with alarm := Function.update m.alarm n (rebase size now (m.alarm n)) }) := by
  have hsame : m.alarm n = s.alarm n := by
    rw [h.alarm, if_neg (fun hlt => Nat.lt_irrefl _ hlt.1)]
  rw [hsame]
  have halarm : ∀ id, Function.update m.alarm n (rebase size now (s.alarm n)) id =
      if id < n + 1 ∧ s.isset id = true then rebase size now (s.alarm id) else s.alarm id := by
    intro id
    by_cases hid : id = n
    · subst hid
      rw [Function.update_self, if_pos ⟨Nat.lt_succ_self _, hset⟩]
    · rw [Function.update_of_ne hid, h.alarm]
      exact if_congr (and_congr_left fun _ => by omega) rfl rfl
  split
  · rename_i hless
    refine ⟨halarm, fun id hid hisset => ?_, .inl rfl, .inr ⟨n, Nat.lt_succ_self _, hset, rfl⟩⟩
    rcases Nat.lt_succ_iff_lt_or_eq.1 hid with hid | rfl
    · exact Nat.le_trans hless (h.least id hid hisset)
    · exact Nat.le_refl _
  · rename_i hmore
    have hdt : ∃ id, id < n ∧ s.isset id = true ∧ m.dt = (rebase size now (s.alarm id)).dt := by
      refine h.dt.resolve_left fun hmax => ?_
      have hle := rebase_dt_le size now (s.alarm n)
      omega
    obtain ⟨i, hi, hiset, hidt⟩ := hdt
    refine ⟨halarm, fun id hid hisset => ?_, .inl ?_, .inr ⟨i, Nat.lt_succ_of_lt hi, hiset, hidt⟩⟩
    · rcases Nat.lt_succ_iff_lt_or_eq.1 hid with hid | rfl
      · exact h.least id hid hisset
      · exact Nat.le_of_lt (Nat.lt_of_not_le hmore)
    · refine h.isset.resolve_right fun hnone => ?_
      rw [hnone i hi] at hiset
      cases hiset

theorem scanned (hshort : ∀ id, s.isset id = true → (s.alarm id).dt < round size) (now n : Nat) :
    Scanned size s now n (scan size s now (List.range n)) := by
  induction n with
  | zero => exact ⟨fun _ => rfl, nofun, .inr nofun, .inl rfl⟩
  | succ n ih =>
    have hfold : scan size s now (List.range (n + 1)) =
        let m := scan size s now (List.range n)
        if s.isset n then
          let p := rebase size now (m.alarm n)
          let alarm := Function.update m.alarm n p
          if p.dt ≤ m.dt then ⟨alarm, p.dt, true⟩ else { m with alarm }
        else m := by
      rw [scan, List.range_succ, List.foldl_append]
      rfl
    rw [hfold]
    generalize scan size s now (List.range n) = m at ih ⊢
    by_cases hset : s.isset n = true
    · dsimp only
      rw [if_pos hset]
      exact ih.look hset (hshort n hset)
    · dsimp only
      rw [if_neg hset]
      exact ih.skip (Bool.eq_false_iff.2 hset)

/-- What `setNextAlarm` makes of the alarms, and of `AlarmFrom`. -/
structure Next (size n : Nat) (s t : Alarms) : Prop where
  alarm : ∀ id, id < n → s.isset id = true →
    t.alarm id = rebase size (getNow size s) (s.alarm id)
  isset : t.isset = s.isset
  signaling : t.signaling = none
  time : t.time = s.time
  alarmFrom : (∃ a, t.alarmFrom = some a ∧ a.t0 = s.time ∧ a.dt ≤ round size / 2 ∧
      (∀ id, id < n → s.isset id = true → a.dt ≤ (t.alarm id).dt) ∧
      ((∀ id, id < n → s.isset id = true → 0 < (t.alarm id).dt) → 0 < a.dt)) ∨
    t.alarmFrom = none ∧ ∀ id, id < n → s.isset id = false

theorem two_mul_half (hsize : 0 < size) : 2 * (round size / 2) = round size ∧
    round size / 2 = 2 ^ (8 * size - 1) ∧ 2 ≤ round size / 2 := by
  obtain ⟨k, hk⟩ : ∃ k, 8 * size = k + 2 := ⟨8 * size - 2, by omega⟩
  have hpos : 0 < 2 ^ k := Nat.two_pow_pos k
  have hround : round size = 2 * (2 * 2 ^ k) := by
    rw [round, hk, Nat.pow_succ, Nat.pow_succ]
    omega
  have hhalf : 2 ^ (8 * size - 1) = 2 * 2 ^ k := by
    have hpred : 8 * size - 1 = k + 1 := by omega
    rw [hpred, Nat.pow_succ, Nat.mul_comm]
  omega

/-- "If dt is big, then wait half of dt." -/
theorem wait_spec (hsize : 0 < size) {dt : Nat} (hdt : dt < round size) :
    (if dt.testBit (8 * size - 1) then dt / 2 else dt) ≤ round size / 2 ∧
    (if dt.testBit (8 * size - 1) then dt / 2 else dt) ≤ dt ∧
    (0 < dt → 0 < if dt.testBit (8 * size - 1) then dt / 2 else dt) := by
  obtain ⟨htwo, hhalf, hge⟩ := two_mul_half hsize
  rw [Nat.testBit_eq_decide_div_mod_eq, ← hhalf]
  split
  · rename_i hbig
    have hone := of_decide_eq_true hbig
    have hle : round size / 2 ≤ dt := Nat.le_of_not_lt fun hlt => by
      rw [Nat.div_eq_of_lt hlt] at hone
      cases hone
    omega
  · rename_i hsmall
    have hlt : dt < round size / 2 := Nat.lt_of_not_le fun hle => hsmall (decide_eq_true (by
      have hdiv : dt / (round size / 2) = 1 :=
        Nat.div_eq_of_lt_le (by omega) (by omega)
      rw [hdiv]))
    omega

theorem next (hsize : 0 < size) (hsignaling : s.signaling = none)
    (hshort : ∀ id, s.isset id = true → (s.alarm id).dt < round size) :
    Next size n s (setNextAlarm size n s) := by
  have hm := scanned hshort (getNow size s) n
  have halarm : ∀ id, id < n → s.isset id = true →
      (scan size s (getNow size s) (List.range n)).alarm id =
        rebase size (getNow size s) (s.alarm id) :=
    fun id hid hset => (hm.alarm id).trans (if_pos ⟨hid, hset⟩)
  have hround := round_pos size
  unfold setNextAlarm
  dsimp only
  rw [if_pos hsignaling]
  generalize scan size s (getNow size s) (List.range n) = m at hm halarm ⊢
  have hdt : m.dt < round size := by
    rcases hm.dt with hmax | ⟨id, -, hset, hdt⟩
    · omega
    · rw [hdt]
      exact Nat.lt_of_le_of_lt (rebase_dt_le _ _ _) (hshort id hset)
  obtain ⟨hhalf, hle, hpos⟩ := wait_spec hsize hdt
  split
  · refine ⟨halarm, rfl, hsignaling, rfl, .inl ⟨_, rfl, rfl, hhalf, ?_, ?_⟩⟩
    · intro id hid hset
      have hleast := hm.least id hid hset
      change _ ≤ (m.alarm id).dt
      rw [halarm id hid hset]
      exact Nat.le_trans hle hleast
    · intro hall
      refine hpos ?_
      rcases hm.dt with hmax | ⟨id, hid, hset, hdt⟩
      · obtain ⟨htwo, -, hge⟩ := two_mul_half hsize
        omega
      · rw [hdt, ← halarm id hid hset]
        exact hall id hid hset
  · rename_i hunset
    exact ⟨halarm, rfl, hsignaling, rfl, .inr ⟨rfl, hm.isset.resolve_left hunset⟩⟩

/-! ## The invariants -/

/-- The alarms, each counted from a time of its own, stand for what they are for. -/
structure Tracked (size n : Nat) (s : State) (base : Nat → Nat) : Prop where
  running : ∀ id, s.impl.isset id = (s.started id).isSome
  bound : ∀ id x, s.started id = some x → id < n
  tracks : ∀ id x, s.started id = some x →
    Tracks size (s.impl.alarm id) (base id) x s.impl.time

structure Good (size n : Nat) (s : State) (base : Nat → Nat) : Prop
    extends Tracked size n s base where
  loop : ∀ l, s.impl.signaling = some l →
    l.id ≤ n ∧ (l.handling = true → l.id < n) ∧ s.impl.alarmFrom = none
  /-- `AlarmFrom` was started when the alarms that are not due were counted. -/
  idle : s.impl.signaling = none → ∀ id x, s.started id = some x →
    ∃ a, s.impl.alarmFrom = some a ∧ base id ≤ a.t0 ∧
      ((s.impl.alarm id).dt = 0 ∧ a.dt = 0 ∨ base id = a.t0 ∧ a.dt ≤ (s.impl.alarm id).dt)
  alarmFrom : ∀ a, s.impl.alarmFrom = some a → a.t0 ≤ s.impl.time ∧ a.dt ≤ round size / 2 ∧
    s.impl.time < a.t0 + a.dt + round size / 2

/-- The alarms lead to their deadlines, and not to later times. -/
structure Exact (size : Nat) (s : State) (base : Nat → Nat) : Prop where
  deadline : ∀ id x, s.started id = some x → base id + (s.impl.alarm id).dt = x.deadline
  idle : s.impl.signaling = none → ∀ id x, s.started id = some x → x.fresh = false
  fresh : ∀ id x, s.started id = some x → x.fresh = true → base id = x.t0
  stale : s.impl.signaling ≠ none → ∀ id x, s.started id = some x → x.fresh = false →
    (s.impl.alarm id).dt = 0 ∨ s.due ≤ base id + round size / 2

/-- `AlarmFrom.fired` ends less than half a round of the counter after `AlarmFrom` was due, and less
than a round after the `t0` of each alarm that its handlers have started. -/
def Fits (size n : Nat) (s : State) (e : Event) : Prop :=
  e.1 = .fromFiredDone → e.2 < s.due + round size / 2 ∧
    ∀ id < n, ∀ x ∈ s.started id, x.fresh = true → e.2 < x.t0 + round size

instance (size n : Nat) (s : State) (e : Event) : Decidable (Fits size n s e) :=
  inferInstanceAs (Decidable (_ → _ ∧ _))

variable {s s' : State} {base : Nat → Nat} {now : Nat} {e : Event}

theorem Tracked.short (h : Tracked size n s base) (id : Nat) (hset : s.impl.isset id = true) :
    (s.impl.alarm id).dt < round size := by
  rw [h.running] at hset
  obtain ⟨x, hx⟩ := Option.isSome_iff_exists.1 hset
  exact (h.tracks id x hx).short

/-- **`setNextAlarm`** counts the alarms from now, and starts `AlarmFrom` by the first of them. -/
theorem Tracked.setNextAlarm (h : Tracked size n s base) (hsize : 0 < size)
    (hsignaling : s.impl.signaling = none) :
    Good size n { s with impl := setNextAlarm size n s.impl }
      fun id => rebased size s.impl.time (base id) (s.impl.alarm id) := by
  have hnext : Next size n s.impl (VirtualizeAlarmC.setNextAlarm size n s.impl) :=
    next hsize hsignaling h.short
  generalize VirtualizeAlarmC.setNextAlarm size n s.impl = t at hnext
  have hset : ∀ id x, s.started id = some x → s.impl.isset id = true := fun id x hx => by
    rw [h.running, hx]
    rfl
  have hall : ∀ id x, s.started id = some x → t.alarm id =
      rebase size (s.impl.time % round size) (s.impl.alarm id) :=
    fun id x hx => hnext.alarm id (h.bound id x hx) (hset id x hx)
  refine ⟨⟨fun id => ?_, h.bound, fun id x hx => ?_⟩, fun l hl => ?_, fun _ id x hx => ?_, ?_⟩
  · exact (congrFun hnext.isset id).trans (h.running id)
  · change Tracks size (t.alarm id) _ x t.time
    rw [hall id x hx, hnext.time]
    exact (h.tracks id x hx).rebase
  · have hnone : t.signaling = some l := hl
    rw [hnext.signaling] at hnone
    cases hnone
  · rcases hnext.alarmFrom with ⟨a, ha, hat0, -, hle, -⟩ | ⟨-, hnone⟩
    · refine ⟨a, ha, hat0 ▸ (h.tracks id x hx).rebase.past, ?_⟩
      have hale := hle id (h.bound id x hx) (hset id x hx)
      change (t.alarm id).dt = 0 ∧ _ ∨ _ ∧ a.dt ≤ (t.alarm id).dt
      rcases (h.tracks id x hx).rebased_eq with hzero | hnow
      · rw [← hall id x hx] at hzero
        exact .inl ⟨hzero, Nat.eq_zero_of_le_zero (hzero ▸ hale)⟩
      · exact .inr ⟨hnow.trans hat0.symm, hale⟩
    · have hfalse := hnone id (h.bound id x hx)
      rw [hset id x hx] at hfalse
      cases hfalse
  · intro a ha
    obtain ⟨-, -, hge⟩ := two_mul_half hsize
    rcases hnext.alarmFrom with ⟨b, hb, hbt0, hhalf, -⟩ | ⟨hnone, -⟩
    · obtain rfl := Option.some.inj (ha.symm.trans hb)
      change a.t0 ≤ t.time ∧ _ ∧ t.time < _
      rw [hnext.time]
      omega
    · have ha : t.alarmFrom = some a := ha
      rw [hnone] at ha
      cases ha

theorem Good.at (h : Good size n s base) (hreach : s.impl.Reaches size now) :
    Good size n (s.at now) base :=
  ⟨⟨h.running, h.bound, fun id x hx => (h.tracks id x hx).later hreach.1⟩, h.loop, h.idle,
    fun a ha =>
      have ⟨ht0, hhalf, _⟩ := h.alarmFrom a ha
      ⟨Nat.le_trans ht0 hreach.1, hhalf, hreach.2 a ha⟩⟩

theorem Exact.at (h : Exact size s base) : Exact size (s.at now) base :=
  ⟨h.deadline, h.idle, h.fresh, h.stale⟩

/-- Outside of `AlarmFrom.fired`, less than a round has gone by since the alarms were counted. -/
theorem Good.near (h : Good size n s base) (hsize : 0 < size) (hsignaling : s.impl.signaling = none)
    (id : Nat) (x : Started) (hx : s.started id = some x) :
    (s.impl.alarm id).dt = 0 ∨ s.impl.time < base id + round size := by
  obtain ⟨a, ha, -, hcase⟩ := h.idle hsignaling id x hx
  obtain ⟨-, hhalf, hlate⟩ := h.alarmFrom a ha
  obtain ⟨htwo, -, -⟩ := two_mul_half hsize
  rcases hcase with ⟨hzero, -⟩ | ⟨hbase, -⟩
  · exact .inl hzero
  · right
    omega

/-- The alarms are exact after `setNextAlarm` where no round has gone by. -/
theorem Tracked.exact (h : Tracked size n s base) (hsize : 0 < size)
    (hsignaling : s.impl.signaling = none)
    (hdeadline : ∀ id x, s.started id = some x → base id + (s.impl.alarm id).dt = x.deadline)
    (hfresh : ∀ id x, s.started id = some x → x.fresh = false)
    (hnear : ∀ id x, s.started id = some x →
      (s.impl.alarm id).dt = 0 ∨ s.impl.time < base id + round size) :
    Exact size { s with impl := VirtualizeAlarmC.setNextAlarm size n s.impl }
      fun id => rebased size s.impl.time (base id) (s.impl.alarm id) := by
  have hnext : Next size n s.impl (VirtualizeAlarmC.setNextAlarm size n s.impl) :=
    next hsize hsignaling h.short
  generalize VirtualizeAlarmC.setNextAlarm size n s.impl = t at hnext
  refine ⟨fun id x hx => ?_, fun _ => hfresh, fun id x hx hyes => ?_, fun hsome => ?_⟩
  · have hset : s.impl.isset id = true := by
      rw [h.running, show s.started id = some x from hx]
      rfl
    change _ + (t.alarm id).dt = _
    rw [hnext.alarm id (h.bound id x hx) hset]
    exact ((h.tracks id x hx).rebased_add (hnear id x hx)).trans (hdeadline id x hx)
  · have hno := hfresh id x hx
    rw [hyes] at hno
    cases hno
  · exact absurd hnext.signaling hsome

/-! ## The steps -/

/-- What a step keeps: the alarms stand for what they are for, and they are `exact`. -/
def Keeps (size n : Nat) (exact : Prop) (s' : State) (base' : Nat → Nat) : Prop :=
  Good size n s' base' ∧ (exact → Exact size s' base')

/-- `startAt` up to `setNextAlarm`. -/
def State.start (size : Nat) (s : State) (id t0 dt : Nat) : State :=
  { s with
    impl := { s.impl with
      alarm := Function.update s.impl.alarm id ⟨t0 % round size, dt⟩
      isset := Function.update s.impl.isset id true }
    started := Function.update s.started id (some ⟨t0, dt, s.impl.signaling.isSome⟩) }

theorem Tracked.start (h : Tracked size n s base) {id t0 dt : Nat} (hid : id < n)
    (hpast : t0 ≤ s.impl.time) (hdt : s.impl.time + dt < t0 + round size) :
    Tracked size n (State.start size s id t0 dt) (Function.update base id t0) := by
  refine ⟨fun i => ?_, fun i x hx => ?_, fun i x hx => ?_⟩
  · change Function.update s.impl.isset id true i =
      (Function.update s.started id (some ⟨t0, dt, s.impl.signaling.isSome⟩) i).isSome
    by_cases hi : i = id
    · subst hi
      rw [Function.update_self, Function.update_self]
      rfl
    · rw [Function.update_of_ne hi, Function.update_of_ne hi]
      exact h.running i
  · rcases update_eq_some hx with ⟨rfl, -⟩ | ⟨-, hx⟩
    · exact hid
    · exact h.bound i x hx
  · change Tracks size (Function.update s.impl.alarm id ⟨t0 % round size, dt⟩ i) _ x s.impl.time
    rcases update_eq_some hx with ⟨rfl, heq⟩ | ⟨hi, hx⟩
    · obtain rfl := Option.some.inj heq
      rw [Function.update_self, Function.update_self]
      exact ⟨rfl, hpast, by change dt < round size; omega, Nat.le_refl _, rfl⟩
    · rw [Function.update_of_ne hi, Function.update_of_ne hi]
      exact h.tracks i x hx

theorem start_deadline (h : Exact size s base) {id t0 dt : Nat} (i : Nat) (x : Started)
    (hx : (State.start size s id t0 dt).started i = some x) :
    Function.update base id t0 i + ((State.start size s id t0 dt).impl.alarm i).dt =
      x.deadline := by
  change _ + (Function.update s.impl.alarm id ⟨t0 % round size, dt⟩ i).dt = _
  rcases update_eq_some hx with ⟨rfl, heq⟩ | ⟨hi, hx⟩
  · obtain rfl := Option.some.inj heq
    rw [Function.update_self, Function.update_self]
    rfl
  · rw [Function.update_of_ne hi, Function.update_of_ne hi]
    exact h.deadline i x hx

theorem Good.startAt (h : Good size n s base) (hsize : 0 < size) {id t0 dt : Nat} (hid : id < n)
    (hpast : t0 ≤ s.impl.time) (hdt : s.impl.time + dt < t0 + round size) :
    ∃ base', Keeps size n (Exact size s base)
      { s with
        impl := startAt size n s.impl id (t0 % round size) dt
        started := Function.update s.started id (some ⟨t0, dt, s.impl.signaling.isSome⟩) } base' := by
  have hstart := h.toTracked.start hid hpast hdt
  by_cases hsignaling : s.impl.signaling = none
  · refine ⟨_, hstart.setNextAlarm hsize hsignaling, fun hexact => ?_⟩
    refine hstart.exact hsize hsignaling (start_deadline hexact) ?_ ?_
    · intro i x hx
      rcases update_eq_some hx with ⟨-, hx⟩ | ⟨-, hx⟩
      · obtain rfl := Option.some.inj hx
        exact congrArg Option.isSome hsignaling
      · exact hexact.idle hsignaling i x hx
    · intro i x hx
      change (Function.update s.impl.alarm id ⟨t0 % round size, dt⟩ i).dt = 0 ∨
        s.impl.time < Function.update base id t0 i + round size
      rcases update_eq_some hx with ⟨rfl, -⟩ | ⟨hi, hx⟩
      · rw [Function.update_self, Function.update_self]
        right
        omega
      · rw [Function.update_of_ne hi, Function.update_of_ne hi]
        exact h.near hsize hsignaling i x hx
  · have hsame : VirtualizeAlarmC.startAt size n s.impl id (t0 % round size) dt =
        (State.start size s id t0 dt).impl := if_neg hsignaling
    rw [hsame]
    refine ⟨_, ⟨hstart, h.loop, fun hnone => absurd hnone hsignaling, h.alarmFrom⟩, fun hexact =>
      ⟨start_deadline hexact, fun hnone => absurd hnone hsignaling, fun i x hx hfresh => ?_,
        fun _ i x hx hfresh => ?_⟩⟩
    · rcases update_eq_some hx with ⟨rfl, heq⟩ | ⟨hi, hx⟩
      · obtain rfl := Option.some.inj heq
        exact Function.update_self _ _ _
      · rw [Function.update_of_ne hi]
        exact hexact.fresh i x hx hfresh
    · change (Function.update s.impl.alarm id ⟨t0 % round size, dt⟩ i).dt = 0 ∨
        s.due ≤ Function.update base id t0 i + round size / 2
      rcases update_eq_some hx with ⟨rfl, heq⟩ | ⟨hi, hx⟩
      · obtain rfl := Option.some.inj heq
        exact absurd (Option.not_isSome_iff_eq_none.1 (Bool.eq_false_iff.1 hfresh)) hsignaling
      · rw [Function.update_of_ne hi, Function.update_of_ne hi]
        exact hexact.stale hsignaling i x hx hfresh

/-- An alarm is unset, and stands for nothing. -/
theorem Tracked.unset (h : Tracked size n s base) (id : Nat) (signaling : Option Loop) :
    Tracked size n
      { s with
        impl := { s.impl with isset := Function.update s.impl.isset id false, signaling }
        started := Function.update s.started id none } base := by
  refine ⟨fun i => ?_, fun i x hx => ?_, fun i x hx => ?_⟩
  · change Function.update s.impl.isset id false i = (Function.update s.started id none i).isSome
    by_cases hi : i = id
    · subst hi
      rw [Function.update_self, Function.update_self]
      rfl
    · rw [Function.update_of_ne hi, Function.update_of_ne hi]
      exact h.running i
  · exact h.bound i x (update_none_eq_some hx).2
  · exact h.tracks i x (update_none_eq_some hx).2

/-- What holds of the alarms that are started holds after one of them has been unset. -/
theorem of_unset {id i : Nat} {x : Started} {P : Nat → Started → Prop}
    (h : ∀ i x, s.started i = some x → P i x)
    (hx : Function.update s.started id none i = some x) : P i x :=
  h i x (update_none_eq_some hx).2

theorem Good.stop (h : Good size n s base) (id : Nat) :
    Keeps size n (Exact size s base)
      { s with
        impl := stop s.impl id
        started := Function.update s.started id none } base :=
  ⟨⟨h.toTracked.unset id s.impl.signaling, h.loop,
    fun hnone _ _ hx => of_unset (h.idle hnone) hx, h.alarmFrom⟩, fun hexact =>
    ⟨fun _ _ hx => of_unset hexact.deadline hx, fun hnone _ _ hx => of_unset (hexact.idle hnone) hx,
      fun _ _ hx => of_unset hexact.fresh hx, fun hsome _ _ hx => of_unset (hexact.stale hsome) hx⟩⟩

theorem Good.fromFired (h : Good size n s base) {a : Alarm} (hsignaling : s.impl.signaling = none)
    (ha : s.impl.alarmFrom = some a) :
    Keeps size n (Exact size s base)
      { s with
        impl := { s.impl with alarmFrom := none, signaling := some ⟨0, false⟩ }
        due := a.t0 + a.dt } base := by
  refine ⟨⟨⟨h.running, h.bound, h.tracks⟩, fun l hl => ?_, nofun, nofun⟩, fun hexact =>
    ⟨hexact.deadline, nofun, hexact.fresh, fun _ id x hx _ => ?_⟩⟩
  · obtain rfl := Option.some.inj hl
    exact ⟨Nat.zero_le _, nofun, rfl⟩
  · obtain ⟨b, hb, -, hcase⟩ := h.idle hsignaling id x hx
    obtain rfl := Option.some.inj (ha.symm.trans hb)
    obtain ⟨-, hhalf, -⟩ := h.alarmFrom a ha
    refine hcase.imp (fun hzero => hzero.1) fun hbase => ?_
    change a.t0 + a.dt ≤ base id + round size / 2
    rw [hbase.1]
    exact Nat.add_le_add_left hhalf _

/-- The loop goes on. -/
theorem Good.loop_next (h : Good size n s base) {id : Nat} {handling : Bool} (hid : id < n)
    (hsignaling : s.impl.signaling = some ⟨id, handling⟩) :
    Keeps size n (Exact size s base)
      { s with impl := { s.impl with signaling := some ⟨(id + 1) % 256, false⟩ } } base := by
  obtain ⟨-, -, hnone⟩ := h.loop _ hsignaling
  refine ⟨⟨⟨h.running, h.bound, h.tracks⟩, fun l hl => ?_, nofun, h.alarmFrom⟩, fun hexact =>
    ⟨hexact.deadline, nofun, hexact.fresh, fun _ => hexact.stale ?_⟩⟩
  · obtain rfl := Option.some.inj hl
    exact ⟨Nat.le_trans (Nat.mod_le _ _) hid, nofun, hnone⟩
  · rw [hsignaling]
    nofun

/-- The alarm is due, as the counter shows it. -/
def Alarms.Due (size : Nat) (s : Alarms) (id : Nat) : Prop :=
  s.isset id = true ∧ (s.alarm id).dt ≤ elapsed size (getNow size s) (s.alarm id).t0

theorem iterate_of_due {s : Alarms} {id : Nat} (h : s.Due size id) :
    iterate size s id = (true, { s with
      isset := Function.update s.isset id false, signaling := some ⟨id, true⟩ }) :=
  if_pos (Bool.and_eq_true_iff.2 ⟨h.1, decide_eq_true h.2⟩)

theorem iterate_of_not_due {s : Alarms} {id : Nat} (h : ¬s.Due size id) :
    iterate size s id = (false, { s with signaling := some ⟨(id + 1) % 256, false⟩ }) :=
  if_neg fun hdue =>
    have ⟨hset, helapsed⟩ := Bool.and_eq_true_iff.1 hdue
    h ⟨hset, of_decide_eq_true helapsed⟩

theorem Good.iterate (h : Good size n s base) {id : Nat} (hid : id < n)
    (hsignaling : s.impl.signaling = some ⟨id, false⟩) :
    let r := iterate size s.impl id
    Keeps size n (Exact size s base)
      { s with
        impl := r.2
        started := if r.1 then Function.update s.started id none else s.started } base := by
  intro r
  obtain ⟨-, -, hnone⟩ := h.loop _ hsignaling
  by_cases hdue : s.impl.Due size id
  · have hr : r = (true, { s.impl with
        isset := Function.update s.impl.isset id false, signaling := some ⟨id, true⟩ }) :=
      iterate_of_due hdue
    rw [hr]
    refine ⟨⟨h.toTracked.unset id _, fun l hl => ?_, nofun, h.alarmFrom⟩, fun hexact =>
      ⟨fun _ _ hx => of_unset hexact.deadline hx, nofun, fun _ _ hx => of_unset hexact.fresh hx,
        fun _ _ _ hx => of_unset (hexact.stale ?_) hx⟩⟩
    · obtain rfl := Option.some.inj hl
      exact ⟨Nat.le_of_lt hid, fun _ => hid, hnone⟩
    · rw [hsignaling]
      nofun
  · have hr : r = (false, { s.impl with signaling := some ⟨(id + 1) % 256, false⟩ }) :=
      iterate_of_not_due hdue
    rw [hr]
    exact h.loop_next hid hsignaling

theorem Tracked.stale (h : Tracked size n s base) (signaling : Option Loop) :
    Tracked size n
      { s with
        impl := { s.impl with signaling }
        started := fun id => (s.started id).map fun x => { x with fresh := false } } base := by
  refine ⟨fun id => ?_, fun id x hx => ?_, fun id x hx => ?_⟩
  · change s.impl.isset id = ((s.started id).map _).isSome
    rw [Option.isSome_map]
    exact h.running id
  · obtain ⟨y, hy, -⟩ := Option.map_eq_some_iff.1 hx
    exact h.bound id y hy
  · obtain ⟨y, hy, rfl⟩ := Option.map_eq_some_iff.1 hx
    obtain ⟨ht0, hpast, hshort, hdue, hshown⟩ := h.tracks id y hy
    exact ⟨ht0, hpast, hshort, hdue, hshown⟩

theorem Good.fromFiredDone (h : Good size n s base) (hsize : 0 < size)
    (hsome : s.impl.signaling ≠ none) :
    Keeps size n (Exact size s base ∧ Fits size n s (.fromFiredDone, s.impl.time))
      { s with
        impl := setNextAlarm size n { s.impl with signaling := none }
        started := fun id => (s.started id).map fun x => { x with fresh := false } }
      (fun id => rebased size s.impl.time (base id) (s.impl.alarm id)) := by
  have hstale := h.toTracked.stale none
  refine ⟨hstale.setNextAlarm hsize rfl, fun ⟨hexact, hfits⟩ => ?_⟩
  obtain ⟨hlate, hfresh⟩ := hfits rfl
  obtain ⟨htwo, -, -⟩ := two_mul_half hsize
  refine hstale.exact hsize rfl ?_ ?_ ?_
  · intro id x hx
    obtain ⟨y, hy, rfl⟩ := Option.map_eq_some_iff.1 hx
    exact hexact.deadline id y hy
  · intro id x hx
    obtain ⟨y, -, rfl⟩ := Option.map_eq_some_iff.1 hx
    rfl
  · intro id x hx
    obtain ⟨y, hy, -⟩ := Option.map_eq_some_iff.1 hx
    change (s.impl.alarm id).dt = 0 ∨ s.impl.time < base id + round size
    by_cases hyes : y.fresh = true
    · rw [hexact.fresh id y hy hyes]
      exact .inr (hfresh id (h.bound id y hy) y hy hyes)
    · refine (hexact.stale hsome id y hy (Bool.eq_false_iff.2 hyes)).imp_right fun hdue => ?_
      change s.impl.time < s.due + round size / 2 at hlate
      omega

theorem Good.react (h : Good size n s base) (hsize : 0 < size) {e : Action}
    (hst : react size n s e = some s') :
    ∃ base', Keeps size n (Exact size s base ∧ Fits size n s (e, s.impl.time)) s' base' := by
  have hkeep : ∀ {base'}, Keeps size n (Exact size s base) s' base' →
      ∃ base', Keeps size n (Exact size s base ∧ Fits size n s (e, s.impl.time)) s' base' :=
    fun ⟨hgood, hexact⟩ => ⟨_, hgood, fun hboth => hexact hboth.1⟩
  cases e with
  | startAt id t0 dt =>
    simp only [VirtualizeAlarmC.react] at hst
    split at hst
    · rename_i hargs
      obtain ⟨hid, -, hpast, hdt⟩ := hargs
      obtain rfl := Option.some.inj hst
      obtain ⟨base', hkeeps⟩ := h.startAt hsize hid hpast hdt
      exact hkeep hkeeps
    · cases hst
  | stop id =>
    simp only [VirtualizeAlarmC.react] at hst
    split at hst
    · obtain rfl := Option.some.inj hst
      exact hkeep (h.stop id)
    · cases hst
  | fromFired =>
    simp only [VirtualizeAlarmC.react] at hst
    split at hst
    · rename_i hsignaling ha
      split at hst
      · obtain rfl := Option.some.inj hst
        exact hkeep (h.fromFired hsignaling ha)
      · cases hst
    · cases hst
  | iterate =>
    simp only [VirtualizeAlarmC.react] at hst
    split at hst
    · rename_i id hsignaling
      split at hst
      · rename_i hid
        obtain rfl := Option.some.inj hst
        exact hkeep (h.iterate hid hsignaling)
      · cases hst
    · cases hst
  | handled =>
    simp only [VirtualizeAlarmC.react] at hst
    split at hst
    · rename_i id hsignaling
      obtain rfl := Option.some.inj hst
      exact hkeep (h.loop_next ((h.loop _ hsignaling).2.1 rfl) hsignaling)
    · cases hst
  | fromFiredDone =>
    simp only [VirtualizeAlarmC.react] at hst
    split at hst
    · rename_i id hsignaling
      split at hst
      · obtain rfl := Option.some.inj hst
        exact ⟨_, h.fromFiredDone hsize (by rw [hsignaling]; nofun)⟩
      · cases hst
    · cases hst

theorem Good.step (h : Good size n s base) (hsize : 0 < size)
    (hst : (machine size n).step s e = some s') :
    ∃ base', Keeps size n (Exact size s base ∧ Fits size n s e) s' base' := by
  simp only [machine, VirtualizeAlarmC.step] at hst
  split at hst
  · rename_i hreach
    obtain ⟨base', hgood, hexact⟩ := (h.at hreach).react hsize hst
    exact ⟨base', hgood, fun hboth => hexact ⟨hboth.1.at, hboth.2⟩⟩
  · cases hst

theorem good_boot (time : Nat) : Good size n (boot time) fun _ => 0 :=
  ⟨⟨fun _ => rfl, nofun, nofun⟩, nofun, nofun, nofun⟩

theorem exact_boot (time : Nat) : Exact size (boot time) fun _ => 0 :=
  ⟨nofun, nofun, nofun, nofun⟩

theorem good_of_run (hsize : 0 < size) {h : List (State × Event)}
    (hr : (machine size n).Run h s) : ∃ base, Good size n s base := by
  refine hr.inv (P := fun s => ∃ base, Good size n s base) ⟨?_, ?_⟩
  · rintro s ⟨time, rfl⟩
    exact ⟨_, good_boot time⟩
  · intro s e s' ⟨base, hgood⟩ hst
    obtain ⟨base', hgood', -⟩ := hgood.step hsize hst
    exact ⟨base', hgood'⟩

theorem exact_of_run (hsize : 0 < size) {h : List (State × Event)}
    (hr : (machine size n).Run h s) (hfits : ∀ p ∈ h, Fits size n p.1 p.2) :
    ∃ base, Good size n s base ∧ Exact size s base := by
  refine (hr.inv_of_steps (P := fun s => ∃ base, Good size n s base ∧ Exact size s base)
    (C := Fits size n) ?_ ?_ hfits).1
  · rintro s ⟨time, rfl⟩
    exact ⟨_, good_boot time, exact_boot time⟩
  · intro s e s' ⟨base, hgood, hexact⟩ hfit hst
    obtain ⟨base', hgood', hexact'⟩ := hgood.step hsize hst
    exact ⟨base', hgood', hexact' ⟨hexact, hfit⟩⟩

/-! ## What holds in every state -/

/-- An alarm that fires was started, and its deadline has passed. -/
theorem Good.fires (h : Good size n s base) {id : Nat}
    (hsignaling : s.impl.signaling = some ⟨id, false⟩)
    (hst : (machine size n).step s (.iterate, now) = some s')
    (hfires : s'.impl.signaling = some ⟨id, true⟩) :
    (∃ x ∈ s.started id, x.deadline ≤ now) ∧ s'.started id = none := by
  simp only [machine, VirtualizeAlarmC.step] at hst
  split at hst
  · rename_i hreach
    have hiterate : (s.at now).impl.signaling = some ⟨id, false⟩ := hsignaling
    simp only [VirtualizeAlarmC.react, hiterate] at hst
    split at hst
    · obtain rfl := Option.some.inj hst
      by_cases hdue : (s.at now).impl.Due size id
      · rw [iterate_of_due hdue]
        obtain ⟨x, hx⟩ := Option.isSome_iff_exists.1 ((h.running id).symm.trans hdue.1)
        exact ⟨⟨x, hx, ((h.tracks id x hx).later hreach.1).deadline_le hdue.2⟩,
          Function.update_self _ _ _⟩
      · rw [iterate_of_not_due hdue] at hfires
        have hhandling := (Loop.mk.inj (Option.some.inj hfires)).2
        cases hhandling
    · cases hst
  · cases hst

theorem Good.getAlarm (h : Good size n s base) (id : Nat) (x : Started)
    (hx : s.started id = some x) : getAlarm size s.impl id = x.deadline % round size := by
  have htracks := h.tracks id x hx
  rw [VirtualizeAlarmC.getAlarm, ← htracks.t0, Nat.mod_add_mod]
  exact htracks.shown

/-- **`AlarmFrom` is due in time** where the alarms are exact. -/
theorem Good.inTime (h : Good size n s base) (hexact : Exact size s base) : InTime s := by
  intro hsignaling id x hx
  obtain ⟨a, ha, hpast, hcase⟩ := h.idle hsignaling id x hx
  refine ⟨a, ha, ?_⟩
  rw [← hexact.deadline id x hx]
  rcases hcase with ⟨hdt, hzero⟩ | ⟨hbase, hle⟩
  · rw [hdt]
    exact .inr ⟨hzero, hpast⟩
  · rw [hbase]
    exact .inl (Nat.add_le_add_left hle _)

end VirtualizeAlarmC
