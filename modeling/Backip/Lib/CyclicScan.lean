import Mathlib.Data.Nat.Notation

/-!
# Cyclic scans

`scan N p last` looks for a place below `N` with the property `p`, from the one behind `last` on,
around, and ends with `last` itself. `ahead N last x` is how many places are looked at before `x`.

`scan_spec`: within `N` turns a scan ends, with the place least far ahead that has the property, or
with none if no place has it. `ahead_advance` says how far the other places are ahead of the place
found: those in front of it come last now, and the others keep their order.
-/

set_option autoImplicit false

namespace CyclicScan

/-- How many places there are between `last` and `x`. -/
def ahead (N last x : Nat) : Nat := if last < x then x - last - 1 else x + N - last - 1

/-- The scan at the place `i`; the first number bounds its turns. -/
def scan (N : Nat) (p : Nat → Bool) (last : Nat) : Nat → Nat → Option (Option Nat)
  | 0, _ => none
  | fuel + 1, i =>
    let i := if i = N then 0 else i
    if p i then some (some i)
    else if i = last then some none
    else scan N p last fuel (i + 1)

variable {N last x y i fuel : Nat} {p : Nat → Bool}

theorem ahead_lt (hlast : last < N) (hx : x < N) : ahead N last x < N := by
  rw [ahead]
  split <;> omega

theorem ahead_inj (hlast : last < N) (hx : x < N) (hy : y < N)
    (h : ahead N last x = ahead N last y) : x = y := by
  rw [ahead, ahead] at h
  split at h <;> split at h <;> omega

theorem ahead_self (hlast : last < N) : ahead N last last = N - 1 := by
  rw [ahead, if_neg (Nat.lt_irrefl _)]
  omega

/-- The place behind a place other than `last`. -/
theorem ahead_succ (hlast : last < N) (hx : x < N) (hne : x ≠ last) :
    ahead N last (if x + 1 = N then 0 else x + 1) = ahead N last x + 1 := by
  rw [ahead, ahead]
  split <;> split <;> split <;> omega

/-- From `x` on: a place behind `x` is ahead by as much less, and one in front of `x` is ahead of no
place behind it. -/
theorem ahead_advance (hlast : last < N) (hx : x < N) (hy : y < N)
    (h : ahead N last x < ahead N last y) :
    ahead N x y + ahead N last x + 1 = ahead N last y := by
  rw [ahead, ahead] at h
  rw [ahead, ahead, ahead]
  split at h <;> split at h <;> split <;> omega

/-- What a scan finds. -/
def Finds (N : Nat) (p : Nat → Bool) (last : Nat) : Option Nat → Prop
  | none => ∀ y < N, p y = false
  | some x => x < N ∧ p x = true ∧ ∀ y < N, p y = true → ahead N last x ≤ ahead N last y

/-- From a place on in front of which no place has the property. -/
theorem scan_finds (hlast : last < N) {i : Nat} (hi : i ≤ N)
    (hnone : ∀ y < N, ahead N last y < ahead N last (if i = N then 0 else i) → p y = false)
    (hfuel : N ≤ fuel + ahead N last (if i = N then 0 else i)) :
    ∃ r, scan N p last fuel i = some r ∧ Finds N p last r := by
  induction fuel generalizing i with
  | zero =>
    have hlt := ahead_lt hlast (x := if i = N then 0 else i) (by split <;> omega)
    omega
  | succ fuel ih =>
    rw [scan]
    have hj : (if i = N then 0 else i) < N := by split <;> omega
    generalize (if i = N then 0 else i) = j at hj hnone hfuel ⊢
    by_cases hp : p j = true
    · rw [if_pos hp]
      refine ⟨some j, rfl, hj, hp, fun y hy hpy => Nat.le_of_not_lt fun hlt => ?_⟩
      cases (hnone y hy hlt).symm.trans hpy
    · rw [if_neg hp]
      have hupto : ∀ y < N, ahead N last y < ahead N last j + 1 → p y = false := by
        intro y hy hlt
        by_cases heq : ahead N last y = ahead N last j
        · rw [ahead_inj hlast hy hj heq]
          exact Bool.eq_false_iff.2 hp
        · exact hnone y hy (by omega)
      by_cases hend : j = last
      · rw [if_pos hend]
        refine ⟨none, rfl, fun y hy => hupto y hy ?_⟩
        have hlt := ahead_lt hlast hy
        rw [hend, ahead_self hlast]
        omega
      · rw [if_neg hend]
        refine ih (by omega) ?_ ?_ <;> rw [ahead_succ hlast hj hend]
        · exact hupto
        · omega

/-- **A scan ends**, with the place least far ahead. -/
theorem scan_spec (hlast : last < N) :
    ∃ r, scan N p last N (last + 1) = some r ∧ Finds N p last r := by
  refine scan_finds hlast hlast (fun y _ h => ?_) (Nat.le_add_right _ _)
  have hfirst : ahead N last (if last + 1 = N then 0 else last + 1) = 0 := by
    rw [ahead]
    split <;> split <;> omega
  omega

/-- More turns change nothing. -/
theorem scan_mono {r : Option Nat} {fuel' : Nat} (h : scan N p last fuel i = some r)
    (hle : fuel ≤ fuel') : scan N p last fuel' i = some r := by
  induction fuel generalizing i fuel' with
  | zero => cases h
  | succ fuel ih =>
    obtain ⟨k, rfl⟩ := Nat.exists_eq_add_of_le' hle
    rw [scan] at h
    rw [Nat.add_succ, scan]
    generalize (if i = N then 0 else i) = j at h ⊢
    by_cases hp : p j = true
    · rw [if_pos hp] at h ⊢
      exact h
    · rw [if_neg hp] at h ⊢
      by_cases hend : j = last
      · rw [if_pos hend] at h ⊢
        exact h
      · rw [if_neg hend] at h ⊢
        exact ih h (Nat.le_add_left _ _)

end CyclicScan
