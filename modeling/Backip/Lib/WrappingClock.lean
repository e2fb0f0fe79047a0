import Mathlib.Algebra.Group.Nat.Defs

/-!
# Clocks that wrap

A clock shows the time modulo `M`. What two readings say about the time between them: their
difference modulo `M` is that time modulo `M` (`elapsed_eq`), so it is never more, and
it is that time where less than `M` has gone by (`elapsed_of_lt`).

A clock of `2 ^ f` with the number of its rounds is a clock on which the time is known further
(`widen`).
-/

set_option autoImplicit false

namespace WrappingClock

variable {M t now : Nat}

/-- The time from the reading `t` to the reading `now`. -/
def elapsed (M now t : Nat) : Nat := (now + M - t) % M

theorem elapsed_eq (hM : 0 < M) (h : t ≤ now) : elapsed M (now % M) (t % M) = (now - t) % M := by
  unfold elapsed
  have hlt := Nat.mod_lt t hM
  have hnow := Nat.div_add_mod now M
  have ht := Nat.div_add_mod t M
  have hle : t / M ≤ now / M := Nat.div_le_div_right h
  obtain ⟨d, hd⟩ := Nat.exists_eq_add_of_le hle
  have hmul : M * (now / M) = M * (t / M) + M * d := by rw [hd, Nat.mul_add]
  rcases Nat.le_total (t % M) (now % M) with hcase | hcase
  · have hsub : now - t = now % M - t % M + M * d := by omega
    have hadd : now % M + M - t % M = now % M - t % M + M := by omega
    rw [hsub, hadd, Nat.add_mod_right, Nat.add_mul_mod_self_left]
  · cases d with
    | zero =>
      have heq : now = t := by omega
      rw [heq, Nat.sub_self, Nat.add_sub_cancel_left, Nat.mod_self, Nat.zero_mod]
    | succ d =>
      have hsucc : M * (d + 1) = M * d + M := Nat.mul_succ M d
      have hsub : now - t = now % M + M - t % M + M * d := by omega
      rw [hsub, Nat.add_mul_mod_self_left]

theorem elapsed_of_lt (h : t ≤ now) (hlt : now - t < M) :
    elapsed M (now % M) (t % M) = now - t := by
  rw [elapsed_eq (Nat.zero_lt_of_lt hlt) h, Nat.mod_eq_of_lt hlt]

/-- A reading of 32 bits is never further in the past than the time it was taken. -/
theorem toNat_sub_le (h : t ≤ now) : (UInt32.ofNat now - .ofNat t).toNat ≤ now - t := by
  rw [← UInt32.ofNat_sub h, UInt32.toNat_ofNat']
  exact Nat.mod_le _ _

/-- Whole rounds above the time of the current one. -/
theorem high_or_low {p l : Nat} (hl : l < 2 ^ p) (x k u : Nat) :
    x % (2 ^ k * u) * 2 ^ p % (2 ^ p * 2 ^ k) ||| l = (2 ^ p * x + l) % (2 ^ p * 2 ^ k) := by
  have hhigh : x % (2 ^ k * u) * 2 ^ p % (2 ^ p * 2 ^ k) = 2 ^ p * (x % 2 ^ k) := by
    rw [Nat.mul_comm (x % (2 ^ k * u)), Nat.mul_mod_mul_left, Nat.mod_mul_right_mod]
  rw [hhigh, ← Nat.two_pow_add_eq_or_of_lt hl, Nat.mod_mul, Nat.mul_add_mod, Nat.mod_eq_of_lt hl,
    Nat.mul_add_div (Nat.two_pow_pos p), Nat.div_eq_of_lt hl, Nat.add_zero, Nat.add_comm]

/-- The rounds of a clock of `f` bits, of which `u` bits are known, above what it shows without its
last `s` bits. -/
theorem widen {f s t u : Nat} (hs : s ≤ f) (hwider : f ≤ t + s) (hupper : t + s ≤ f + u)
    (now : Nat) :
    now / 2 ^ f % 2 ^ u * 2 ^ (f - s) % 2 ^ t ||| now % 2 ^ f / 2 ^ s = now / 2 ^ s % 2 ^ t := by
  obtain ⟨p, rfl⟩ := Nat.exists_eq_add_of_le hs
  obtain ⟨k, rfl⟩ : ∃ k, t = p + k := Nat.exists_eq_add_of_le (by omega)
  obtain ⟨r, rfl⟩ : ∃ r, u = k + r := Nat.exists_eq_add_of_le (by omega)
  have hlow : now % 2 ^ (s + p) / 2 ^ s = now / 2 ^ s % 2 ^ p := by
    rw [Nat.pow_add, Nat.mod_mul_right_div_self]
  have hhigh : now / 2 ^ (s + p) = now / 2 ^ s / 2 ^ p := by
    rw [Nat.pow_add, Nat.div_div_eq_div_mul]
  rw [hlow, hhigh, Nat.add_sub_cancel_left, Nat.pow_add 2 k, Nat.pow_add 2 p,
    high_or_low (Nat.mod_lt _ (Nat.two_pow_pos p)), Nat.div_add_mod]

end WrappingClock
