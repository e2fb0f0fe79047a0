import Backip.Timer.TrickleTimerImplP

/-!
# Trickle intervals obey the algorithm

* `generateTime_spec`: while the modulus is not zero, `generateTime` puts the firing point into the
  second half of an interval that starts where the last one ends.
* `Good.step`: with parameters that are safe, every step obeys the algorithm.
* `obeys_iff`: exactly with such parameters.
-/

set_option autoImplicit false

namespace TrickleTimerImplP

variable {cfg : Config}

/-! ## `generateTime` -/

theorem shifted_le (cfg : Config) (p : UInt16) : shifted cfg p ≤ p.toNat * 512 := Nat.mod_le _ _

/-- The modulus is zero only in sixteen bits, at the multiples of 128. -/
theorem shifted_ne_zero_iff {p : UInt16} (hp : 1 ≤ p.toNat) :
    shifted cfg p ≠ 0 ↔ (cfg.int = .bits16 → p.toNat % 128 ≠ 0) := by
  have hlt := p.toNat_lt
  cases hint : cfg.int with
  | bits16 =>
    have hm : shifted cfg p = p.toNat * 512 % 65536 := by rw [shifted, hint]; rfl
    rw [hm]
    simp only [true_implies]
    omega
  | bits32 =>
    have hm : shifted cfg p = p.toNat * 512 % 4294967296 := by rw [shifted, hint]; rfl
    rw [hm]
    simp only [reduceCtorEq, false_implies, iff_true]
    omega

theorem doubled_toNat {t : Trickle} (h : t.period.toNat < 2 ^ 15) :
    (t.doubled cfg).toNat =
      if t.time ≠ 0 then min (2 * t.period.toNat) cfg.high.toNat else t.period.toNat := by
  have hmul : (t.period * 2).toNat = 2 * t.period.toNat := by
    rw [UInt16.toNat_mul]
    simp only [UInt16.reduceToNat]
    omega
  unfold Trickle.doubled
  dsimp only
  split
  · split
    next hgt =>
      rw [gt_iff_lt, UInt16.lt_iff_toNat_lt, hmul] at hgt
      omega
    next hle =>
      rw [gt_iff_lt, UInt16.lt_iff_toNat_lt, hmul] at hle
      rw [hmul]
      omega
  · rfl

theorem generateTime_isSome {t : Trickle} {rand : UInt16} :
    (t.generateTime cfg rand).isSome = true ↔ shifted cfg (t.doubled cfg) ≠ 0 := by
  unfold Trickle.generateTime
  dsimp only
  split <;> simp_all

theorem generateTime_period {t t' : Trickle} {rand : UInt16}
    (h : t.generateTime cfg rand = some t') : t'.period = t.doubled cfg := by
  unfold Trickle.generateTime at h
  dsimp only at h
  obtain ⟨-, ⟨⟩⟩ := Option.ite_none_left_eq_some.1 h
  rfl

/-- **The firing point is in the second half of an interval that starts after what is left of the
last one.** -/
theorem generateTime_spec {t t' : Trickle} {rand : UInt16}
    (h : t.generateTime cfg rand = some t') (hrem : t.remainder.toNat ≤ 2 ^ 25) :
    State.Begins t' t.remainder.toNat := by
  unfold Trickle.generateTime at h
  dsimp only at h
  obtain ⟨hne, ⟨⟩⟩ := Option.ite_none_left_eq_some.1 h
  have hp := (t.doubled cfg).toNat_lt
  have hr : rand.toNat % shifted cfg (t.doubled cfg) < shifted cfg (t.doubled cfg) :=
    Nat.mod_lt _ (Nat.pos_of_ne_zero hne)
  have hrand := Nat.mod_le rand.toNat (shifted cfg (t.doubled cfg))
  have hlt := rand.toNat_lt
  have hle := shifted_le cfg (t.doubled cfg)
  generalize hrv : rand.toNat % shifted cfg (t.doubled cfg) = r at *
  generalize hpd : t.doubled cfg = p at *
  have hval : (UInt16.ofNat r).toUInt32.toNat = r := by
    rw [UInt16.toNat_toUInt32, UInt16.toNat_ofNat']
    exact Nat.mod_eq_of_lt (by omega)
  have hhalf : (p.toUInt32 <<< UInt32.ofNat (scale - 1)).toNat = p.toNat * 512 := by
    rw [UInt32.toNat_shiftLeft, UInt16.toNat_toUInt32]
    change p.toNat <<< 9 % 2 ^ 32 = _
    rw [Nat.shiftLeft_eq]
    omega
  have hfull : (p.toUInt32 <<< UInt32.ofNat scale).toNat = p.toNat * 1024 := by
    rw [UInt32.toNat_shiftLeft, UInt16.toNat_toUInt32]
    change p.toNat <<< 10 % 2 ^ 32 = _
    rw [Nat.shiftLeft_eq]
    omega
  have hnew : (p.toUInt32 <<< UInt32.ofNat (scale - 1) + (UInt16.ofNat r).toUInt32).toNat =
      p.toNat * 512 + r := by
    rw [UInt32.toNat_add, hhalf, hval]
    omega
  refine ⟨p.toNat * 512 + r, ?_, ?_, ?_, ?_⟩
  · rw [UInt32.toNat_add, hnew]
    omega
  · dsimp only
    rw [UInt32.toNat_sub, hfull, hnew]
    change _ = p.toNat * 1024
    omega
  · change p.toNat * 1024 ≤ _
    omega
  · change _ < p.toNat * 1024
    omega

theorem State.Begins.remainder_le {t : Trickle} {left : Nat} (h : Begins t left) :
    t.remainder.toNat ≤ 2 ^ 25 := by
  obtain ⟨point, -, hsum, hhalf, -⟩ := h
  have hp := t.period.toNat_lt
  simp only [scale] at hsum hhalf
  omega

theorem State.Begins.time_ne {t : Trickle} {left : Nat} (h : Begins t left)
    (hp : 1 ≤ t.period.toNat) : t.time ≠ 0 := by
  obtain ⟨point, htime, -, hhalf, -⟩ := h
  intro h0
  rw [h0, UInt32.toNat_zero] at htime
  simp only [scale] at hhalf
  omega

namespace State

variable {s s' : State cfg} {e : Event cfg} {i j : cfg.Id} {elapsed : UInt32}

/-! ## `adjustTimer` -/

theorem adjusted_period (c : Bool) (t : Trickle) : (adjusted elapsed c t).period = t.period := by
  unfold adjusted
  repeat' split
  all_goals rfl

theorem adjusted_remainder (c : Bool) (t : Trickle) :
    (adjusted elapsed c t).remainder = t.remainder := by
  unfold adjusted
  repeat' split
  all_goals rfl

theorem adjusted_of_stopped {c : Bool} {t : Trickle} (h : t.time = 0) :
    adjusted elapsed c t = t :=
  if_pos h

theorem adjusted_of_changed {t : Trickle} : adjusted elapsed true t = t := by
  unfold adjusted
  split <;> rfl

@[simp] theorem adjustTimer_period :
    ((adjustTimer elapsed s).trickles i).period = (s.trickles i).period :=
  adjusted_period _ _

@[simp] theorem adjustTimer_remainder :
    ((adjustTimer elapsed s).trickles i).remainder = (s.trickles i).remainder :=
  adjusted_remainder _ _

theorem adjustTimer_of_changed (h : s.changed i = true) :
    (adjustTimer elapsed s).trickles i = s.trickles i := by
  change adjusted elapsed (s.changed i) (s.trickles i) = s.trickles i
  rw [h]
  exact adjusted_of_changed

@[simp] theorem adjustTimer_fault : (adjustTimer elapsed s).fault = s.fault := rfl

/-! ## `generate` -/

variable {t t' : Trickle} {rand : UInt16}

theorem generate_self (s : State cfg) (i : cfg.Id) (elapsed : UInt32)
    (h : t.generateTime cfg rand = some t') :
    (s.generate cfg i t rand elapsed).trickles i = t' := by
  rw [generate, h]
  dsimp only
  rw [adjustTimer_of_changed (Function.update_self ..)]
  exact Function.update_self ..

theorem generate_period_of_ne (hj : j ≠ i) :
    ((s.generate cfg i t rand elapsed).trickles j).period = (s.trickles j).period := by
  unfold generate
  split
  · rfl
  · rw [adjustTimer_period]
    dsimp only
    rw [Function.update_of_ne hj]

theorem generate_remainder_of_ne (hj : j ≠ i) :
    ((s.generate cfg i t rand elapsed).trickles j).remainder = (s.trickles j).remainder := by
  unfold generate
  split
  · rfl
  · rw [adjustTimer_remainder]
    dsimp only
    rw [Function.update_of_ne hj]

theorem generate_fault (h : t.generateTime cfg rand = some t') :
    (s.generate cfg i t rand elapsed).fault = s.fault := by
  rw [generate, h]
  rfl

/-! ## Every step obeys -/

/-- The periods are the ones a trickle gets to, and no interval has more left than its half. -/
structure Good (s : State cfg) : Prop where
  fault : s.fault = false
  reached : ∀ i, ∃ j, (s.trickles i).period.toNat = min (cfg.low.toNat * 2 ^ j) cfg.high.toNat
  remainder : ∀ i, (s.trickles i).remainder.toNat ≤ 2 ^ 25

theorem high_reached : ∃ j, cfg.high.toNat = min (cfg.low.toNat * 2 ^ j) cfg.high.toNat := by
  refine ⟨16, ?_⟩
  have := cfg.one_le_low
  have := cfg.high.toNat_lt
  omega

theorem low_reached : ∃ j, cfg.low.toNat = min (cfg.low.toNat * 2 ^ j) cfg.high.toNat := by
  refine ⟨0, ?_⟩
  have := cfg.low_le_high
  omega

theorem doubled_reached {p : Nat} (h : ∃ j, p = min (cfg.low.toNat * 2 ^ j) cfg.high.toNat) :
    ∃ j, min (2 * p) cfg.high.toNat = min (cfg.low.toNat * 2 ^ j) cfg.high.toNat := by
  obtain ⟨j, rfl⟩ := h
  refine ⟨j + 1, ?_⟩
  rw [Nat.pow_succ, ← Nat.mul_assoc]
  omega

theorem good_init : Good (init cfg) where
  fault := rfl
  reached _ := high_reached
  remainder _ := Nat.zero_le _

theorem Good.inRange (h : Good s) : s.InRange := by
  intro i
  obtain ⟨j, hj⟩ := h.reached i
  have hlow := cfg.low_le_high
  have hpow : cfg.low.toNat ≤ cfg.low.toNat * 2 ^ j :=
    Nat.le_mul_of_pos_right _ (Nat.two_pow_pos j)
  omega

/-- A step that obeys keeps what it needs. -/
theorem Obeys.good (h : Obeys s e s') (hg : Good s) : Good s' where
  fault := h.fault
  reached i := by
    rw [h.period i]
    have hi := hg.reached i
    cases e with
    | reset j _ _ =>
      simp only [State.period]
      split
      · exact low_reached
      · exact hi
    | stop j _ =>
      simp only [State.period]
      split
      · exact high_reached
      · exact hi
    | fired _ _ =>
      simp only [State.period]
      split
      · exact doubled_reached hi
      · exact hi
    | start _ _ _ => exact hi
    | incrementCounter _ => exact hi
    | timerTask => exact hi
  remainder i := by
    cases hl : s.left i e with
    | none =>
      rw [h.stays i hl]
      exact hg.remainder i
    | some l => exact (h.begins i l hl).remainder_le

/-- With safe parameters `generateTime` takes no remainder by zero. -/
theorem Config.Safe.generates (hsafe : cfg.Safe) {t : Trickle}
    (hp : ∃ j, (t.doubled cfg).toNat = min (cfg.low.toNat * 2 ^ j) cfg.high.toNat)
    (rand : UInt16) : ∃ t', t.generateTime cfg rand = some t' := by
  refine Option.isSome_iff_exists.1 (generateTime_isSome.2 ?_)
  obtain ⟨j, hj⟩ := hp
  have hone : 1 ≤ (t.doubled cfg).toNat := by
    have hlow := cfg.one_le_low
    have hhigh := cfg.low_le_high
    have hpow : cfg.low.toNat ≤ cfg.low.toNat * 2 ^ j :=
      Nat.le_mul_of_pos_right _ (Nat.two_pow_pos j)
    omega
  refine (shifted_ne_zero_iff hone).2 fun hint => ?_
  rw [hj]
  exact hsafe.2 hint j

/-- A trickle is started, or reset while it runs. -/
theorem obeys_generate (hsafe : cfg.Safe) (hg : Good s) {t : Trickle} (htime : t.time = 0)
    (hrem : t.remainder = 0)
    (hp : ∃ j, t.period.toNat = min (cfg.low.toNat * 2 ^ j) cfg.high.toNat)
    (hperiod : ∀ j, s.period j e = if j = i then t.period.toNat else (s.trickles j).period.toNat)
    (hleft : ∀ j, s.left j e = if j = i then some 0 else none) :
    Obeys s e (s.generate cfg i t rand elapsed) := by
  have hdoubled : t.doubled cfg = t.period := if_neg (not_not.2 htime)
  obtain ⟨t', ht'⟩ := Config.Safe.generates hsafe (hdoubled ▸ hp) rand
  have hself := generate_self s i elapsed ht'
  have hbegins := generateTime_spec ht' (by rw [hrem]; exact Nat.zero_le _)
  rw [hrem] at hbegins
  refine ⟨(generate_fault ht').trans hg.fault, ?_, ?_, ?_⟩
  · intro j
    rw [hperiod j]
    split
    next hj =>
      rw [hj, hself, generateTime_period ht', hdoubled]
    next hj =>
      rw [generate_period_of_ne hj]
  · intro j l hl
    rw [hleft j] at hl
    split at hl
    next hj =>
      cases hl
      rw [hj, hself]
      exact hbegins
    · cases hl
  · intro j hl
    rw [hleft j] at hl
    split at hl
    · cases hl
    next hj =>
      exact generate_remainder_of_ne hj

/-- A step after which every trickle has the remainder it had, and no interval begins. -/
theorem Obeys.of_stays (hfault : s'.fault = false)
    (hperiod : ∀ i, (s'.trickles i).period.toNat = s.period i e)
    (hrem : ∀ i, (s'.trickles i).remainder = (s.trickles i).remainder)
    (hleft : ∀ i, s.left i e = none) : Obeys s e s' where
  fault := hfault
  period := hperiod
  begins i l hl := by
    rw [hleft i] at hl
    cases hl
  stays i _ := hrem i

theorem update_remainder {t : Trickle} (h : t.remainder = (s.trickles i).remainder) :
    (Function.update s.trickles i t j).remainder = (s.trickles j).remainder := by
  by_cases hj : j = i
  · subst hj
    rw [Function.update_self, h]
  · rw [Function.update_of_ne hj]

theorem update_period {t : Trickle} : (Function.update s.trickles i t j).period.toNat =
    if i = j then t.period.toNat else (s.trickles j).period.toNat := by
  by_cases hj : i = j
  · subst hj
    rw [Function.update_self, if_pos rfl]
  · rw [Function.update_of_ne (Ne.symm hj), if_neg hj]

theorem next_of_ends {t' : Trickle} {rand : cfg.Id → UInt16} (hi : s.Ends i)
    (ht' : (s.trickles i).generateTime cfg (rand i) = some t') :
    s.next rand i = some { t' with count := 0 } := by
  rw [next, if_pos hi, ht']
  rfl

theorem next_of_not_ends (hi : ¬s.Ends i) (rand : cfg.Id → UInt16) :
    s.next rand i = some (s.trickles i) :=
  if_neg hi

theorem Good.fired (hsafe : cfg.Safe) (hg : Good s) (rand : cfg.Id → UInt16) :
    Obeys s (.fired rand elapsed) (s.fired rand elapsed) := by
  have hlt : ∀ i, (s.trickles i).period.toNat < 2 ^ 15 := fun i =>
    Nat.lt_of_le_of_lt (hg.inRange i).2 hsafe.1
  have hgen : ∀ i, s.Ends i → ∃ t', (s.trickles i).generateTime cfg (rand i) = some t' := by
    intro i hi
    refine Config.Safe.generates hsafe ?_ _
    rw [doubled_toNat (hlt i), if_pos hi.1]
    exact doubled_reached (hg.reached i)
  have hsome : ∀ i, (s.next rand i).isSome := by
    intro i
    by_cases hi : s.Ends i
    · obtain ⟨t', ht'⟩ := hgen i hi
      rw [next_of_ends hi ht']
      rfl
    · rw [next_of_not_ends hi]
      rfl
  have hnext : ∀ i, ¬s.Ends i → (s.next rand i).getD (s.trickles i) = s.trickles i := by
    intro i hi
    rw [next_of_not_ends hi]
    rfl
  have hends : ∀ i, s.Ends i → ∃ t', (s.trickles i).generateTime cfg (rand i) = some t' ∧
      (s.next rand i).getD (s.trickles i) = { t' with count := 0 } := by
    intro i hi
    obtain ⟨t', ht'⟩ := hgen i hi
    refine ⟨t', ht', ?_⟩
    rw [next_of_ends hi ht']
    rfl
  rw [State.fired, if_pos hsome]
  refine ⟨hg.fault, ?_, ?_, ?_⟩
  · intro i
    rw [adjustTimer_period]
    dsimp only [State.period]
    split
    next hi =>
      obtain ⟨t', ht', he⟩ := hends i hi
      rw [he]
      dsimp only
      rw [generateTime_period ht', doubled_toNat (hlt i), if_pos hi.1]
    next hi =>
      rw [hnext i hi]
  · intro i l hl
    dsimp only [State.left] at hl
    split at hl
    next hi =>
      cases hl
      obtain ⟨t', ht', he⟩ := hends i hi
      rw [adjustTimer_of_changed (by simp [hi])]
      dsimp only
      have hbegins := generateTime_spec ht' (hg.remainder i)
      rw [he]
      exact hbegins
    · cases hl
  · intro i hl
    dsimp only [State.left] at hl
    split at hl
    · cases hl
    next hi =>
      rw [adjustTimer_remainder]
      dsimp only
      rw [hnext i hi]

/-- **With safe parameters every step obeys the algorithm.** -/
theorem Good.step (hsafe : cfg.Safe) (hg : Good s) (hs : s.step e = some s') : Obeys s e s' := by
  obtain ⟨-, hs⟩ := Option.ite_none_left_eq_some.1 hs
  cases e with
  | start i rand elapsed =>
    cases hs
    by_cases ht : (s.trickles i).time = 0
    · have hstart : s.start i rand elapsed = s.generate cfg i
          { s.trickles i with time := 0, remainder := 0, count := 0 } rand elapsed :=
        if_neg (not_not.2 ht)
      rw [hstart]
      refine obeys_generate hsafe hg rfl rfl (hg.reached i) ?_ ?_
      · intro j
        dsimp only [State.period]
        split
        next hj => rw [hj]
        · rfl
      · intro j
        by_cases hj : j = i
        · subst hj
          simp [left, ht]
        · simp [left, hj, Ne.symm hj]
    · have hstart : s.start i rand elapsed = s := if_pos ht
      rw [hstart]
      refine .of_stays hg.fault (fun _ => rfl) (fun _ => rfl) fun j => if_neg ?_
      rintro ⟨rfl, h0⟩
      exact ht h0
  | stop i elapsed =>
    cases hs
    refine .of_stays hg.fault ?_ ?_ fun _ => rfl
    · intro j
      rw [stop, adjustTimer_period]
      exact update_period
    · intro j
      rw [stop, adjustTimer_remainder]
      exact update_remainder rfl
  | reset i rand elapsed =>
    cases hs
    by_cases ht : (s.trickles i).time = 0
    · rw [State.reset, if_neg (not_not.2 ht)]
      refine .of_stays hg.fault (fun j => update_period) (fun j => update_remainder rfl) ?_
      intro j
      refine if_neg ?_
      rintro ⟨rfl, h0⟩
      exact h0 ht
    · have hreset : s.reset i rand elapsed = s.generate cfg i { s.trickles i with
          period := cfg.low, count := 0, time := 0, remainder := 0 } rand elapsed := if_pos ht
      rw [hreset]
      refine obeys_generate hsafe hg rfl rfl low_reached ?_ ?_
      · intro j
        dsimp only [State.period]
        by_cases hj : j = i
        · rw [if_pos hj.symm, if_pos hj]
        · rw [if_neg (Ne.symm hj), if_neg hj]
      · intro j
        by_cases hj : j = i
        · subst hj
          simp [left, ht]
        · simp [left, hj, Ne.symm hj]
  | incrementCounter i =>
    cases hs
    refine .of_stays hg.fault ?_ (fun j => update_remainder rfl) fun _ => rfl
    intro j
    rw [incrementCounter]
    dsimp only [State.period]
    rw [update_period]
    split
    next hj => rw [hj]
    · rfl
  | fired rand elapsed =>
    obtain ⟨-, ⟨⟩⟩ := Option.ite_none_right_eq_some.1 hs
    exact hg.fired hsafe rand
  | timerTask =>
    cases hs
    have hsame : s.timerTask.trickles = s.trickles ∧ s.timerTask.fault = s.fault := by
      unfold timerTask
      split <;> exact ⟨rfl, rfl⟩
    refine .of_stays (hsame.2.trans hg.fault) ?_ ?_ fun _ => rfl
    · intro j
      rw [hsame.1]
      rfl
    · intro j
      rw [hsame.1]

theorem good_inductive (hsafe : cfg.Safe) : (machine cfg).Inductive Good where
  init := by
    rintro s rfl
    exact good_init
  step := by
    intro s e s' hg hs
    exact (hg.step hsafe hs).good hg

/-! ## One trickle running alone -/

/-- The first trickle. -/
def first (cfg : Config) : cfg.Id := ⟨0, cfg.count_pos⟩

/-- Only the first trickle runs, it is `t`, and the `Timer` runs for it. -/
structure Alone (s : State cfg) (t : Trickle) : Prop where
  self : s.trickles (first cfg) = t
  running : t.time ≠ 0
  timer : s.timer = some t.time
  others : ∀ j, j ≠ first cfg → (s.trickles j).time = 0
  fault : s.fault = false

theorem lower_self {acc : Option UInt32} {time : UInt32} (h : time ≠ 0)
    (hacc : acc = none ∨ acc = some time) : lower acc time = some time := by
  unfold lower
  rw [if_neg h]
  rcases hacc with rfl | rfl
  · rfl
  · simp only [ite_self]

/-- The pass of `lowest` over some of the trickles of which at most `i` runs. -/
theorem foldl_lower {f : cfg.Id → Trickle} (hi : (f i).time ≠ 0)
    (hf : ∀ j, j ≠ i → (f j).time = 0) (l : List cfg.Id) (acc : Option UInt32)
    (hacc : acc = none ∨ acc = some (f i).time) :
    l.foldl (fun lowest i => lower lowest (f i).time) acc =
      if i ∈ l then some (f i).time else acc := by
  induction l generalizing acc with
  | nil => rfl
  | cons j l ih =>
    rw [List.foldl_cons]
    by_cases hj : j = i
    · subst hj
      rw [lower_self hi hacc, ih _ (.inr rfl), if_pos (List.mem_cons_self ..), ite_self]
    · have hskip : lower acc (f j).time = acc := if_pos (hf j hj)
      rw [hskip, ih acc hacc]
      simp [Ne.symm hj]

theorem lowest_of_alone {f : cfg.Id → Trickle} (hi : (f i).time ≠ 0)
    (hf : ∀ j, j ≠ i → (f j).time = 0) : lowest f = some (f i).time :=
  (foldl_lower hi hf _ none (.inl rfl)).trans (if_pos (List.mem_finRange i))

theorem adjustTimer_alone (hrun : t.time ≠ 0) (hself : s.trickles (first cfg) = t)
    (hchanged : s.changed (first cfg) = true)
    (hothers : ∀ j, j ≠ first cfg → (s.trickles j).time = 0) (hfault : s.fault = false) :
    Alone (adjustTimer elapsed s) t := by
  have hme : (adjustTimer elapsed s).trickles (first cfg) = t :=
    (adjustTimer_of_changed hchanged).trans hself
  have hot : ∀ j, j ≠ first cfg → ((adjustTimer elapsed s).trickles j).time = 0 := by
    intro j hj
    have h0 := hothers j hj
    change (adjusted elapsed (s.changed j) (s.trickles j)).time = 0
    rw [adjusted_of_stopped h0, h0]
  refine ⟨hme, hrun, ?_, hot, hfault⟩
  have hlow := lowest_of_alone (f := (adjustTimer elapsed s).trickles) (i := first cfg)
    (by rw [hme]; exact hrun) hot
  rw [hme] at hlow
  exact hlow

theorem reachable_step (hr : (machine cfg).Reachable s) (hs : s.step e = some s') :
    (machine cfg).Reachable s' :=
  Machine.Reachable.step (e := e) hr hs

/-- What a lawful start of the first trickle leads to. -/
theorem start_alone (hr : (machine cfg).Reachable s)
    (hall : ∀ s, (machine cfg).Reachable s →
      s.InRange ∧ ∀ e s', s.step e = some s' → Obeys s e s')
    (hfault : s.fault = false) (hstop : ∀ j, (s.trickles j).time = 0) :
    ∃ s' t, (machine cfg).Reachable s' ∧ Alone s' t ∧
      t.period = (s.trickles (first cfg)).period ∧ shifted cfg t.period ≠ 0 := by
  have hstep : s.step (.start (first cfg) 0 0) = some (s.start (first cfg) 0 0) := by
    rw [State.step, if_neg (by rw [hfault]; exact Bool.false_ne_true)]
  have hr' := reachable_step hr hstep
  have hobeys := (hall s hr).2 _ _ hstep
  have hstart : s.start (first cfg) 0 0 = s.generate cfg (first cfg)
      { s.trickles (first cfg) with time := 0, remainder := 0, count := 0 } 0 0 :=
    if_neg (not_not.2 (hstop _))
  cases hg : ({ s.trickles (first cfg) with
      time := 0, remainder := 0, count := 0 } : Trickle).generateTime cfg 0 with
  | none =>
    have := hobeys.fault
    rw [hstart, generate, hg] at this
    cases this
  | some t =>
    have hperiod : t.period = (s.trickles (first cfg)).period :=
      (generateTime_period hg).trans (if_neg (not_not.2 rfl))
    have hone : 1 ≤ t.period.toNat := by
      rw [hperiod]
      exact Nat.le_trans cfg.one_le_low ((hall s hr).1 _).1
    have hrun := (generateTime_spec hg (Nat.zero_le _)).time_ne hone
    refine ⟨_, t, hr', ?_, hperiod, ?_⟩
    · rw [hstart, generate, hg]
      have hself : Function.update s.trickles (first cfg) t (first cfg) = t :=
        Function.update_self ..
      have hchanged : Function.update s.changed (first cfg) true (first cfg) = true :=
        Function.update_self ..
      refine adjustTimer_alone hrun hself hchanged ?_ hfault
      intro j hj
      dsimp only
      rw [Function.update_of_ne hj]
      exact hstop j
    · rw [generateTime_period hg]
      exact generateTime_isSome.1 (Option.isSome_iff_exists.2 ⟨t, hg⟩)

/-- What a lawful firing of a trickle that runs alone leads to. -/
theorem fired_alone (hr : (machine cfg).Reachable s)
    (hall : ∀ s, (machine cfg).Reachable s →
      s.InRange ∧ ∀ e s', s.step e = some s' → Obeys s e s')
    (ht : Alone s t) :
    ∃ s' t', (machine cfg).Reachable s' ∧ Alone s' t' ∧ t'.period = t.doubled cfg ∧
      t'.period.toNat = min (2 * t.period.toNat) cfg.high.toNat ∧ shifted cfg t'.period ≠ 0 := by
  have hends : s.Ends (first cfg) := by
    refine ⟨?_, ?_⟩
    · rw [ht.self]
      exact ht.running
    · rw [ht.self]
      exact ht.timer
  have hnot : ∀ j, j ≠ first cfg → ¬s.Ends j := fun j hj hj' => hj'.1 (ht.others j hj)
  have hstep : s.step (.fired (fun _ => 0) 0) = some (s.fired (fun _ => 0) 0) := by
    rw [State.step, if_neg (by rw [ht.fault]; exact Bool.false_ne_true)]
    exact if_pos (by rw [ht.timer]; rfl)
  have hr' := reachable_step hr hstep
  have hobeys := (hall s hr).2 _ _ hstep
  have hsome : ∀ i, (s.next (fun _ => 0) i).isSome := by
    by_contra hn
    have := hobeys.fault
    rw [State.fired, if_neg hn] at this
    cases this
  have hself := hsome (first cfg)
  rw [next, if_pos hends, Option.isSome_map, ht.self] at hself
  obtain ⟨t', ht'⟩ := Option.isSome_iff_exists.1 hself
  have hnext : (s.next (fun _ => 0) (first cfg)).getD (s.trickles (first cfg)) =
      { t' with count := 0 } := by
    rw [next, if_pos hends, ht.self, ht']
    rfl
  have hmin : t'.period.toNat = min (2 * t.period.toNat) cfg.high.toNat := by
    have hp := hobeys.period (first cfg)
    rw [State.fired, if_pos hsome, adjustTimer_period] at hp
    dsimp only [State.period] at hp
    rw [if_pos hends, hnext, ht.self] at hp
    exact hp
  have hone : 1 ≤ t'.period.toNat := by
    have hlow := ((hall s hr).1 (first cfg)).1
    have := cfg.one_le_low
    have := cfg.low_le_high
    rw [ht.self] at hlow
    omega
  have hrun : t'.time ≠ 0 := by
    have hb := hobeys.begins (first cfg) _ (if_pos hends)
    rw [State.fired, if_pos hsome, adjustTimer_of_changed (by simp [hends])] at hb
    dsimp only at hb
    rw [hnext] at hb
    exact hb.time_ne hone
  have hdoubled := generateTime_period ht'
  refine ⟨_, { t' with count := 0 }, hr', ?_, hdoubled, hmin, ?_⟩
  · rw [State.fired, if_pos hsome]
    refine adjustTimer_alone hrun hnext (by simp [hends]) ?_ ht.fault
    intro j hj
    dsimp only
    rw [next, if_neg (hnot j hj)]
    exact ht.others j hj
  · dsimp only
    rw [hdoubled]
    exact generateTime_isSome.1 (Option.isSome_iff_exists.2 ⟨t', ht'⟩)

/-- A lawful trickle gets to each period from the least to the greatest by doubling. -/
theorem reaches (hall : ∀ s, (machine cfg).Reachable s →
    s.InRange ∧ ∀ e s', s.step e = some s' → Obeys s e s') (j : Nat) :
    ∃ s t, (machine cfg).Reachable s ∧ Alone s t ∧
      t.period.toNat = min (cfg.low.toNat * 2 ^ j) cfg.high.toNat ∧ shifted cfg t.period ≠ 0 := by
  induction j with
  | zero =>
    have hinit : (machine cfg).Reachable (init cfg) := .init rfl
    have hstep : (init cfg).step (.reset (first cfg) 0 0) =
        some ((init cfg).reset (first cfg) 0 0) := rfl
    have htr : ∀ i, ((init cfg).reset (first cfg) 0 0).trickles i =
        Function.update (init cfg).trickles (first cfg)
          { (init cfg).trickles (first cfg) with period := cfg.low, count := 0 } i :=
      fun _ => rfl
    obtain ⟨s, t, hr, ht, hp, hsh⟩ := start_alone (reachable_step hinit hstep) hall rfl (by
      intro i
      rw [htr]
      by_cases hi : i = first cfg
      · subst hi
        rw [Function.update_self]
        rfl
      · rw [Function.update_of_ne hi]
        rfl)
    refine ⟨s, t, hr, ht, ?_, hsh⟩
    rw [hp, htr, Function.update_self]
    have := cfg.low_le_high
    dsimp only
    omega
  | succ j ih =>
    obtain ⟨s, t, hr, ht, hp, -⟩ := ih
    obtain ⟨s', t', hr', ht', -, hp', hsh⟩ := fired_alone hr hall ht
    refine ⟨s', t', hr', ht', ?_, hsh⟩
    rw [hp', hp, Nat.pow_succ, ← Nat.mul_assoc]
    omega

theorem safe_of_obeys (hall : ∀ s, (machine cfg).Reachable s →
    s.InRange ∧ ∀ e s', s.step e = some s' → Obeys s e s') : cfg.Safe := by
  constructor
  · -- Doubled in sixteen bits the greatest period comes out smaller.
    obtain ⟨s, t, hr, ht, hp, -⟩ := start_alone (.init rfl) hall rfl fun _ => rfl
    obtain ⟨s', t', hr', ht', hd, hmin, -⟩ := fired_alone hr hall ht
    have hperiod : t.period.toNat = cfg.high.toNat := congrArg UInt16.toNat hp
    have hlt := cfg.high.toNat_lt
    by_contra hge
    have hmul : (t.period * 2).toNat = 2 * t.period.toNat - 65536 := by
      rw [UInt16.toNat_mul]
      simp only [UInt16.reduceToNat]
      omega
    have hle : ¬t.period * 2 > cfg.high := by
      rw [gt_iff_lt, UInt16.lt_iff_toNat_lt, hmul]
      omega
    have hdoubled : t.doubled cfg = t.period * 2 := by
      unfold Trickle.doubled
      rw [if_pos ht.running]
      exact if_neg hle
    rw [hd, hdoubled, hmul] at hmin
    omega
  · intro hint j
    obtain ⟨s, t, hr, ht, hp, hsh⟩ := reaches hall j
    rw [← hp]
    refine (shifted_ne_zero_iff ?_).1 hsh hint
    have hlow := ((hall s hr).1 (first cfg)).1
    rw [ht.self] at hlow
    exact Nat.le_trans cfg.one_le_low hlow

/-- **The timers obey the Trickle algorithm exactly with parameters that are safe.** -/
theorem obeys_iff (cfg : Config) : (∀ s, (machine cfg).Reachable s →
    s.InRange ∧ ∀ e s', s.step e = some s' → Obeys s e s') ↔ cfg.Safe := by
  refine ⟨safe_of_obeys, fun hsafe s hr => ?_⟩
  have hg := hr.inv (good_inductive hsafe)
  exact ⟨hg.inRange, fun e s' hs => hg.step hsafe hs⟩

/-- One timer between 1 and 128 with an `int` of 16 bits. -/
def exampleConfig : Config where
  low := 1
  high := 128
  k := 1
  count := 1
  int := .bits16
  one_le_low := by decide
  low_le_high := by decide
  count_pos := by decide

/-- Started after `Init` the timer takes a remainder by zero: `128 << 9` is zero in 16 bits. -/
theorem not_obeys : ¬ ∀ (cfg : Config) (s : State cfg), (machine cfg).Reachable s →
    s.InRange ∧ ∀ e s', s.step e = some s' → Obeys s e s' := by
  intro hall
  have hobeys := (hall exampleConfig (init exampleConfig) (.init rfl)).2
    (.start ⟨0, by decide⟩ 7 0) _ rfl
  exact absurd hobeys.fault (by decide)

end State

end TrickleTimerImplP
