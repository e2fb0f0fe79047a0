import Mathlib.Logic.Function.Basic

/-!
# Bits in an array of bytes

`ByteMask` is an array of bytes that holds a bit for each number: bit `c % 8` of the byte `c / 8`.
`get_set` and `get_clear` are its rules.
-/

set_option autoImplicit false

abbrev ByteMask : Type := Nat → BitVec 8

namespace ByteMask

variable (m : ByteMask) (b c : Nat)

/-- The byte of the bit `c` with that bit alone. -/
def bit : BitVec 8 := 1#8 <<< (c % 8)

def get : Bool := m (c / 8) &&& bit c ≠ 0#8

def set : ByteMask := Function.update m (c / 8) (m (c / 8) ||| bit c)

def clear : ByteMask := Function.update m (c / 8) (m (c / 8) &&& ~~~bit c)

theorem getLsbD_bit (i : Nat) : (bit c).getLsbD i = decide (i = c % 8) := by
  have hlt : c % 8 < 8 := Nat.mod_lt _ (by decide)
  rw [bit, BitVec.getLsbD_shiftLeft, BitVec.getLsbD_one]
  by_cases hi : i = c % 8
  · subst hi
    simp [hlt]
  · simp only [hi, decide_false]
    by_cases hge : i < c % 8
    · simp [hge]
    · have hne : i - c % 8 ≠ 0 := by omega
      simp [hne]

theorem get_eq : m.get c = (m (c / 8)).getLsbD (c % 8) := by
  have hlt : c % 8 < 8 := Nat.mod_lt _ (by decide)
  cases hbit : (m (c / 8)).getLsbD (c % 8) with
  | true =>
    refine decide_eq_true fun hzero => ?_
    have hsame := congrArg (fun v : BitVec 8 => v.getLsbD (c % 8)) hzero
    simp [getLsbD_bit, hbit] at hsame
  | false =>
    refine decide_eq_false (not_not_intro (BitVec.eq_of_getLsbD_eq fun i _ => ?_))
    rw [BitVec.getLsbD_and, getLsbD_bit, BitVec.getLsbD_zero]
    by_cases hi : i = c % 8
    · rw [hi, hbit, Bool.false_and]
    · rw [decide_eq_false hi, Bool.and_false]

theorem eq_of_div_mod {b c : Nat} (hdiv : b / 8 = c / 8) (hmod : b % 8 = c % 8) : b = c := by
  omega

theorem get_set : (m.set c).get b = (decide (b = c) || m.get b) := by
  rw [get_eq, get_eq, set]
  by_cases hdiv : b / 8 = c / 8
  · rw [hdiv, Function.update_self, BitVec.getLsbD_or, getLsbD_bit, Bool.or_comm]
    congr 1
    exact decide_eq_decide.2 ⟨eq_of_div_mod hdiv, fun heq => heq ▸ rfl⟩
  · rw [Function.update_of_ne hdiv, decide_eq_false (fun heq => hdiv (congrArg (· / 8) heq)), Bool.false_or]

theorem get_clear : (m.clear c).get b = (!decide (b = c) && m.get b) := by
  have hlt : b % 8 < 8 := Nat.mod_lt _ (by decide)
  rw [get_eq, get_eq, clear]
  by_cases hdiv : b / 8 = c / 8
  · rw [hdiv, Function.update_self, BitVec.getLsbD_and, BitVec.getLsbD_not, getLsbD_bit,
      decide_eq_true hlt, Bool.true_and, Bool.and_comm]
    congr 2
    exact decide_eq_decide.2 ⟨eq_of_div_mod hdiv, fun heq => heq ▸ rfl⟩
  · rw [Function.update_of_ne hdiv, decide_eq_false (fun heq => hdiv (congrArg (· / 8) heq)), Bool.not_false,
      Bool.true_and]

theorem get_zero : get (fun _ => 0#8) c = false := by
  rw [get_eq, BitVec.getLsbD_zero]

end ByteMask
