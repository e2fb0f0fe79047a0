import Backip.System.Types
import Mathlib.Data.Nat.Sqrt
import Mathlib.FieldTheory.Finite.Basic
import Mathlib.Tactic.Linarith

/-!
# The rate controller (`tos/lib/net/bcp/BcpRateControllerP.nc`)

`startAdmissionTimer` sets the mean of its timer from the fourth root of 50 times the backpressure,
which `fourthRoot` approaches in ten turns of Newton's iteration. Values are natural numbers, cut
where the code keeps or computes them in 16 or 32 bits; the constants are `int`s.

How close it comes: a turn takes a quarter off the estimate at most, unless the cube of the estimate
wraps to nearly nothing (`turn_ge`), which it does only for estimates below 4 (`cube_cases`). From the
guess 2 the first estimate is about a 32nd of the argument, cut to 16 bits: where it is large, ten turns
leave the estimate too large (`turns_ge`). The few arguments with a small first estimate are computed.
-/

set_option autoImplicit false

namespace BCP

/-- `retValCubed`. -/
def retValCubed (retVal : Nat) : Nat := retVal * retVal * retVal % 2 ^ 32

/-- One turn of `fourthRoot`; `none` is a division by zero. -/
def fourthRootTurn (w : IntWidth) (a retVal : Nat) : Option Nat :=
  if retValCubed retVal = 0 then none
  else some ((w.wrap (3 * retVal) + a / retValCubed retVal) % 2 ^ 32 / 4 % 2 ^ 16)

/-- The first `count` turns, from the guess 2. -/
def fourthRootTurns (w : IntWidth) (a : Nat) : Nat → Option Nat
  | 0 => some 2
  | count + 1 => (fourthRootTurns w a count).bind (fourthRootTurn w a)

/-- `fourthRoot`. -/
def fourthRoot (w : IntWidth) (a : Nat) : Option Nat := fourthRootTurns w a 10

/-- What `startAdmissionTimer` takes the root of. -/
def rootArgument (w : IntWidth) (backpressure : UInt16) : Nat := w.wrap (50 * backpressure.toNat)

/-- The mean `startAdmissionTimer` sets. -/
def newMean (w : IntWidth) (backpressure : UInt16) : Option Nat :=
  (fourthRoot w (rootArgument w backpressure)).map fun root => max (w.wrap (150 * root)) 100

/-! ## Cubes that wrap -/

/-- An odd number of 16 bits is a power of its cube. -/
theorem odd_eq_pow {r x : Nat} (hodd : r % 2 = 1) (hr : r < 2 ^ 16)
    (hx : x ≡ r ^ 3 [MOD 2 ^ 16]) : r = x ^ 10923 % 2 ^ 16 := by
  have hcoprime : r.Coprime (2 ^ 16) :=
    Nat.Coprime.pow_right _ (Nat.coprime_two_right.2 (Nat.odd_iff.2 hodd))
  have htotient : Nat.totient (2 ^ 16) = 32768 := by
    rw [Nat.totient_prime_pow Nat.prime_two (by decide)]
    norm_num
  have hone := Nat.ModEq.pow_totient hcoprime
  rw [htotient] at hone
  have hpow : x ^ 10923 ≡ r [MOD 2 ^ 16] := by
    calc x ^ 10923 ≡ (r ^ 3) ^ 10923 [MOD 2 ^ 16] := hx.pow 10923
      _ = r ^ 32768 * r := by rw [← pow_mul, ← pow_succ]
      _ ≡ 1 * r [MOD 2 ^ 16] := hone.mul_right r
      _ = r := one_mul r
  rw [hpow, Nat.mod_eq_of_lt hr]

theorem cube_odd : ∀ c < 50, c ^ 10923 % 2 ^ 16 ≤ 3 ∨ (c ^ 10923 % 2 ^ 16) ^ 3 % 2 ^ 32 ≠ c := by
  decide +kernel

theorem cube_even : ∀ c < 7, c ^ 10923 % 2 ^ 16 ≤ 1 ∨ (c ^ 10923 % 2 ^ 16) ^ 3 % 2 ^ 29 ≠ c := by
  decide +kernel

/-- A cube that leaves less than 50 is one of 1, 2 and 3, or leaves nothing. -/
theorem cube_cases {r : Nat} (hr : r < 2 ^ 16) (hc : retValCubed r < 50) :
    r ≤ 3 ∨ retValCubed r = 0 := by
  have hcube : retValCubed r = r ^ 3 % 2 ^ 32 := by rw [retValCubed, pow_three']
  rw [hcube] at hc ⊢
  rcases Nat.mod_two_eq_zero_or_one r with heven | hodd
  · obtain ⟨s, rfl⟩ := Nat.dvd_of_mod_eq_zero heven
    have hs : (2 * s) ^ 3 % 2 ^ 32 = 8 * (s ^ 3 % 2 ^ 29) := by
      rw [mul_pow, show (2 : Nat) ^ 32 = 2 ^ 3 * 2 ^ 29 by norm_num, Nat.mul_mod_mul_left]
      norm_num
    rw [hs] at hc ⊢
    rcases Nat.mod_two_eq_zero_or_one s with heven' | hodd'
    · obtain ⟨u, rfl⟩ := Nat.dvd_of_mod_eq_zero heven'
      have hu : (2 * u) ^ 3 % 2 ^ 29 = 8 * (u ^ 3 % 2 ^ 26) := by
        rw [mul_pow, show (2 : Nat) ^ 29 = 2 ^ 3 * 2 ^ 26 by norm_num, Nat.mul_mod_mul_left]
        norm_num
      omega
    · left
      have hroot : s = (s ^ 3 % 2 ^ 29) ^ 10923 % 2 ^ 16 :=
        odd_eq_pow hodd' (by omega) (Nat.mod_mod_of_dvd _ (by decide))
      rcases cube_even (s ^ 3 % 2 ^ 29) (by omega) with hsmall | hne
      · omega
      · rw [← hroot] at hne
        exact absurd rfl hne
  · have hroot : r = (r ^ 3 % 2 ^ 32) ^ 10923 % 2 ^ 16 :=
      odd_eq_pow hodd hr (Nat.mod_mod_of_dvd _ (by decide))
    rcases cube_odd (r ^ 3 % 2 ^ 32) hc with hsmall | hne
    · left
      omega
    · rw [← hroot] at hne
      exact absurd rfl hne

/-! ## Turns -/

/-- A turn takes a quarter off at most, and the estimate stays within 16 bits. -/
theorem turn_ge {a r r' : Nat} (ha : a ≤ 3276750) (hr : 3 < r) (hlt : r < 2 ^ 16)
    (h : fourthRootTurn .bits32 a r = some r') : 3 * r ≤ 4 * r' + 3 ∧ r' < 2 ^ 16 := by
  unfold fourthRootTurn at h
  split at h
  · cases h
  · rename_i hzero
    have hc : 50 ≤ retValCubed r := by
      by_contra hsmall
      rcases cube_cases hlt (by omega) with hle | hzero'
      · omega
      · exact hzero hzero'
    have hquot : a / retValCubed r ≤ 65535 :=
      (Nat.div_le_div_left hc (by decide)).trans (by omega)
    generalize a / retValCubed r = q at h hquot
    have hprod : 3 * r % 2 ^ 32 = 3 * r := Nat.mod_eq_of_lt (by omega)
    have hsum : (3 * r + q) % 2 ^ 32 = 3 * r + q := Nat.mod_eq_of_lt (by omega)
    have hcut : (3 * r + q) / 4 % 2 ^ 16 = (3 * r + q) / 4 := Nat.mod_eq_of_lt (by omega)
    simp only [IntWidth.wrap, IntWidth.modulus, hprod, hsum, hcut, Option.some.injEq] at h
    omega

/-- After `n + 1` turns the estimate is at least about `(3 / 4) ^ n` of the first. -/
theorem turns_ge {a r₁ : Nat} (ha : a ≤ 3276750) (hr₁ : 170 ≤ r₁) (hlt : r₁ < 2 ^ 16)
    (hfirst : fourthRootTurns .bits32 a 1 = some r₁) {n : Nat} (hn : n ≤ 9) {r : Nat}
    (h : fourthRootTurns .bits32 a (n + 1) = some r) :
    3 ^ n * (r₁ + 3) ≤ 4 ^ n * (r + 3) ∧ r < 2 ^ 16 := by
  induction n generalizing r with
  | zero =>
    cases hfirst.symm.trans h
    exact ⟨Nat.le_refl _, hlt⟩
  | succ n ih =>
    obtain ⟨r₀, hr₀, hturn⟩ := Option.bind_eq_some_iff.1 h
    obtain ⟨hge, hlt₀⟩ := ih (by omega) hr₀
    have hpow : 6 * 4 ^ n < 3 ^ n * 173 := by
      have : ∀ m < 9, 6 * 4 ^ m < 3 ^ m * 173 := by decide
      exact this n (by omega)
    have hlarge : 3 < r₀ := by
      by_contra hsmall
      have h1 : 4 ^ n * (r₀ + 3) ≤ 4 ^ n * 6 := Nat.mul_le_mul_left _ (by omega)
      have h2 : 3 ^ n * 173 ≤ 3 ^ n * (r₁ + 3) := Nat.mul_le_mul_left _ (by omega)
      omega
    obtain ⟨hnext, hlt'⟩ := turn_ge ha hlarge hlt₀ hturn
    refine ⟨?_, hlt'⟩
    calc 3 ^ (n + 1) * (r₁ + 3) = 3 * (3 ^ n * (r₁ + 3)) := by ring
      _ ≤ 3 * (4 ^ n * (r₀ + 3)) := Nat.mul_le_mul_left _ hge
      _ = 4 ^ n * (3 * r₀ + 9) := by ring
      _ ≤ 4 ^ n * (4 * (r + 3)) := Nat.mul_le_mul_left _ (by omega)
      _ = 4 ^ (n + 1) * (r + 3) := by ring

/-- The first estimate. -/
theorem first_turn (w : IntWidth) (a : Nat) :
    fourthRootTurns w a 1 = some ((6 + a / 8) % 2 ^ 32 / 4 % 2 ^ 16) := by
  cases w <;> rfl

/-- From a large first estimate the last one is too large. -/
theorem root_far {a r : Nat} (ha : a ≤ 3276750) (h : fourthRoot .bits32 a = some r)
    (hfirst : 5504 ≤ a ∧ a < 2097104 ∨ 2117136 ≤ a) : a < (r - 1) ^ 4 := by
  have hr₁ := first_turn .bits32 a
  generalize heq : (6 + a / 8) % 2 ^ 32 / 4 % 2 ^ 16 = r₁ at hr₁
  have hge := (turns_ge ha (by omega) (by omega) hr₁ (n := 9) (Nat.le_refl _) h).1
  norm_num at hge
  obtain ⟨x, rfl⟩ : ∃ x, r = x + 1 := ⟨r - 1, by omega⟩
  rw [Nat.add_sub_cancel]
  rcases hfirst with hfirst | hfirst
  · have hsum : (6 + a / 8) % 2 ^ 32 = 6 + a / 8 := Nat.mod_eq_of_lt (by omega)
    have hcut : (6 + a / 8) / 4 % 2 ^ 16 = (6 + a / 8) / 4 := Nat.mod_eq_of_lt (by omega)
    rw [hsum, hcut] at heq
    have hx : 10 ≤ x := by omega
    have hlt : a < 1000 * x := by omega
    have hcube : 1000 * x ≤ x ^ 4 := by
      calc 1000 * x = 10 ^ 3 * x := by norm_num
        _ ≤ x ^ 3 * x := Nat.mul_le_mul_right _ (Nat.pow_le_pow_left hx 3)
        _ = x ^ 4 := by ring
    exact Nat.lt_of_lt_of_le hlt hcube
  · have hx : 44 ≤ x := by omega
    calc a < 44 ^ 4 := by omega
      _ ≤ x ^ 4 := Nat.pow_le_pow_left hx 4

/-! ## An `int` of 16 bits -/

/-- For arguments of 16 bits the two platforms compute the same. -/
theorem turn_bits16 {a r : Nat} (ha : a < 2 ^ 16) (hr : r < 21846) :
    fourthRootTurn .bits16 a r = fourthRootTurn .bits32 a r ∧
      ∀ r', fourthRootTurn .bits32 a r = some r' → r' < 21846 := by
  have hwrap : ∀ w : IntWidth, w.wrap (3 * r) = 3 * r := fun w => by
    cases w <;> exact Nat.mod_eq_of_lt (by simp only [IntWidth.modulus]; omega)
  unfold fourthRootTurn
  rw [hwrap, hwrap]
  refine ⟨rfl, fun r' h => ?_⟩
  split at h
  · cases h
  · rename_i hzero
    have hquot : 3 * r + a / retValCubed r < 87384 := by
      by_cases hsmall : r ≤ 3
      · have := Nat.div_le_self a (retValCubed r)
        omega
      · have hc : 50 ≤ retValCubed r := by
          by_contra hlt
          exact (cube_cases (by omega) (by omega)).elim hsmall hzero
        have hdiv : a / retValCubed r ≤ a / 50 := Nat.div_le_div_left hc (by decide)
        omega
    generalize 3 * r + a / retValCubed r = sum at h hquot
    have hlt : sum % 2 ^ 32 = sum := Nat.mod_eq_of_lt (by omega)
    have hcut : sum / 4 % 2 ^ 16 = sum / 4 := Nat.mod_eq_of_lt (by omega)
    rw [hlt, hcut, Option.some.injEq] at h
    omega

theorem turns_bits16 {a : Nat} (ha : a < 2 ^ 16) (n : Nat) :
    fourthRootTurns .bits16 a n = fourthRootTurns .bits32 a n ∧
      ∀ r, fourthRootTurns .bits32 a n = some r → r < 21846 := by
  induction n with
  | zero =>
    refine ⟨rfl, fun r h => ?_⟩
    cases h
    decide
  | succ n ih =>
    obtain ⟨hsame, hlt⟩ := ih
    rw [fourthRootTurns, fourthRootTurns, hsame]
    cases hr : fourthRootTurns .bits32 a n with
    | none => exact ⟨rfl, nofun⟩
    | some r => exact turn_bits16 ha (hlt r hr)

/-! ## The integer part of the fourth root -/

/-- The integer part of the fourth root. -/
def fourthRootFloor (a : Nat) : Nat := Nat.sqrt (Nat.sqrt a)

theorem le_fourthRootFloor {a k : Nat} : k ≤ fourthRootFloor a ↔ k ^ 4 ≤ a := by
  rw [fourthRootFloor, Nat.le_sqrt', Nat.le_sqrt', ← pow_mul]

/-- `fourthRoot` returns a value within 1 of it. -/
def RootNear (w : IntWidth) (a : Nat) : Prop :=
  ∃ r, fourthRoot w a = some r ∧ r ≤ fourthRootFloor a + 1 ∧ fourthRootFloor a ≤ r + 1

/-- The arguments for which it does. -/
def InReach (a : Nat) : Prop :=
  1 ≤ a ∧ a ≤ 12 ∨ 16 ≤ a ∧ a ≤ 79 ∨ 81 ≤ a ∧ a ≤ 3992 ∨ 4096 ≤ a ∧ a ≤ 4399 ∨
    2097488 ≤ a ∧ a ≤ 2111375

/-- `RootNear`, computed without the root. -/
def rootNear (w : IntWidth) (a : Nat) : Bool :=
  match fourthRoot w a with
  | none => false
  | some r => Nat.ble ((r - 1) ^ 4) a && Nat.ble (a + 1) ((r + 2) ^ 4)

theorem rootNear_iff (w : IntWidth) (a : Nat) : RootNear w a ↔ rootNear w a = true := by
  unfold RootNear rootNear
  cases fourthRoot w a with
  | none => simp
  | some r =>
    have hlow : r ≤ fourthRootFloor a + 1 ↔ (r - 1) ^ 4 ≤ a := by
      rw [← le_fourthRootFloor]
      omega
    have hhigh : fourthRootFloor a ≤ r + 1 ↔ a < (r + 2) ^ 4 := by
      rw [← Nat.not_le, ← le_fourthRootFloor]
      omega
    simp [hlow, hhigh]

instance : DecidablePred InReach := fun a => by
  unfold InReach
  infer_instance

/-- The arguments with a small first estimate. -/
theorem reach_small : ∀ i < 43, ∀ j < 64,
    rootNear .bits32 (2 * (64 * i + j)) = decide (InReach (2 * (64 * i + j))) := by
  decide +kernel

/-- Those whose first estimate is small because it is cut. -/
theorem reach_cut : ∀ i < 401,
    rootNear .bits32 (50 * (41942 + i)) = decide (InReach (50 * (41942 + i))) := by
  decide +kernel

theorem not_rootNear_of_far {a : Nat} (ha : a ≤ 3276750)
    (hfirst : 5504 ≤ a ∧ a < 2097104 ∨ 2117136 ≤ a) : ¬RootNear .bits32 a := by
  rintro ⟨r, hr, hle, -⟩
  have hfar := root_far ha hr hfirst
  rw [← Nat.not_le, ← le_fourthRootFloor] at hfar
  omega

/-- **`fourthRoot` is within 1 of the fourth root exactly for the arguments in reach**, of those that
`startAdmissionTimer` forms. -/
theorem fourthRoot_near_iff (w : IntWidth) (backpressure : UInt16) :
    RootNear w (rootArgument w backpressure) ↔ InReach (rootArgument w backpressure) := by
  have hbp := backpressure.toNat_lt
  have hsmall : ∀ a, a < 5504 → a % 2 = 0 → (RootNear .bits32 a ↔ InReach a) := by
    intro a ha heven
    have hcheck := reach_small (a / 2 / 64) (by omega) (a / 2 % 64) (by omega)
    rw [show 2 * (64 * (a / 2 / 64) + a / 2 % 64) = a by omega] at hcheck
    rw [rootNear_iff, hcheck, decide_eq_true_iff]
  have hfar : ∀ a, a ≤ 3276750 → (5504 ≤ a ∧ a < 2097104 ∨ 2117136 ≤ a) →
      (RootNear .bits32 a ↔ InReach a) := by
    intro a ha hfirst
    refine iff_of_false (not_rootNear_of_far ha hfirst) ?_
    unfold InReach
    omega
  cases w with
  | bits16 =>
    have ha : rootArgument .bits16 backpressure < 2 ^ 16 := Nat.mod_lt _ (by decide)
    have heven : rootArgument .bits16 backpressure % 2 = 0 := by
      simp only [rootArgument, IntWidth.wrap, IntWidth.modulus]
      omega
    generalize rootArgument .bits16 backpressure = a at ha heven
    have hsame : RootNear .bits16 a ↔ RootNear .bits32 a := by
      rw [RootNear, RootNear, fourthRoot, fourthRoot, (turns_bits16 ha 10).1]
    rw [hsame]
    by_cases hlt : a < 5504
    · exact hsmall a hlt heven
    · exact hfar a (by omega) (.inl (by omega))
  | bits32 =>
    have ha : rootArgument .bits32 backpressure = 50 * backpressure.toNat :=
      Nat.mod_eq_of_lt (by simp only [IntWidth.modulus]; omega)
    rw [ha]
    generalize backpressure.toNat = bp at hbp
    by_cases hlt : 50 * bp < 5504
    · exact hsmall _ hlt (by omega)
    by_cases hcut : 2097104 ≤ 50 * bp ∧ 50 * bp < 2117136
    · have hcheck := reach_cut (bp - 41942) (by omega)
      rw [show 41942 + (bp - 41942) = bp by omega] at hcheck
      rw [rootNear_iff, hcheck, decide_eq_true_iff]
    · exact hfar _ (by omega) (by omega)

/-- With nothing queued the estimate falls from 2 to 1 to 0, and the code divides by zero. -/
theorem fourthRoot_zero : fourthRoot .bits16 (rootArgument .bits16 0) = none ∧
    ¬RootNear .bits16 (rootArgument .bits16 0) := by
  have hzero : fourthRoot .bits16 (rootArgument .bits16 0) = none := by decide
  refine ⟨hzero, ?_⟩
  rintro ⟨r, hr, -⟩
  rw [hzero] at hr
  cases hr

end BCP
