import Mathlib.Data.List.Induction
import Mathlib.Order.Lattice

/-!
# Scanning for the first maximum

`Argmax.scan w l b` scans `l` from the left and keeps the index and the weight of the heaviest
element seen, a later one only if it is strictly heavier. Started with no index and a threshold it
finds the first of the heaviest elements above the threshold (`scan_cases`): every other element is
outranked by it.
-/

set_option autoImplicit false

namespace Argmax

variable {α β : Type} [LinearOrder β] (w : α → β)

/-- One element, at index `i`. -/
def turn (b : Option Nat × β) (i : Nat) (x : α) : Option Nat × β :=
  if b.2 < w x then (some i, w x) else b

/-- The scan of a list whose first element has index `i`. -/
def scan : List α → Nat → Option Nat × β → Option Nat × β
  | [], _, b => b
  | x :: l, i, b => scan l (i + 1) (turn w b i x)

theorem scan_snoc (l : List α) (x : α) (i : Nat) (b : Option Nat × β) :
    scan w (l ++ [x]) i b = turn w (scan w l i b) (i + l.length) x := by
  induction l generalizing i b with
  | nil => rfl
  | cons y l ih =>
    rw [List.cons_append, scan, ih, scan, List.length_cons, Nat.add_right_comm, Nat.add_assoc]

/-- The element at `i` is heavier than the one at `j`, or as heavy and comes first. -/
def Outranks (l : List α) (i j : Nat) : Prop :=
  ∃ x y, l[i]? = some x ∧ l[j]? = some y ∧ (w y < w x ∨ w y = w x ∧ i < j)

variable {w}

theorem Outranks.append {l : List α} {i j : Nat} (h : Outranks w l i j) (l' : List α) :
    Outranks w (l ++ l') i j := by
  obtain ⟨x, y, hx, hy, hw⟩ := h
  have hold {k : Nat} {z : α} (hz : l[k]? = some z) : (l ++ l')[k]? = some z :=
    (List.getElem?_append_left (List.getElem?_eq_some_iff.1 hz).1).trans hz
  exact ⟨x, y, hold hx, hold hy, hw⟩

theorem Outranks.asymm {l : List α} {i j : Nat} (h : Outranks w l i j) : ¬ Outranks w l j i := by
  obtain ⟨x, y, hx, hy, hw⟩ := h
  rintro ⟨y', x', hy', hx', hw'⟩
  cases hx.symm.trans hx'
  cases hy.symm.trans hy'
  rcases hw with hw | ⟨he, hij⟩
  · rcases hw' with hw' | ⟨he', _⟩
    · exact lt_asymm hw hw'
    · exact ne_of_gt hw he'
  · rcases hw' with hw' | ⟨_, hji⟩
    · exact ne_of_gt hw' he
    · exact Nat.lt_asymm hij hji

/-- A scan keeps its threshold, or finds an element above it that outranks all others. -/
theorem scan_cases (l : List α) (lo : β) :
    scan w l 0 (none, lo) = (none, lo) ∧ (∀ x ∈ l, w x ≤ lo) ∨
      ∃ i x, l[i]? = some x ∧ scan w l 0 (none, lo) = (some i, w x) ∧ lo < w x ∧
        ∀ j, j ≠ i → j < l.length → Outranks w l i j := by
  induction l using List.reverseRecOn with
  | nil => exact .inl ⟨rfl, by simp⟩
  | append_singleton l y ih =>
    rw [scan_snoc, Nat.zero_add]
    have hy : (l ++ [y])[l.length]? = some y := by simp
    rcases ih with ⟨hs, hle⟩ | ⟨i, x, hx, hs, hlo, hall⟩
    · rw [hs, turn]
      by_cases hlt : lo < w y
      · refine .inr ⟨l.length, y, hy, if_pos hlt, hlt, ?_⟩
        intro j hj hjl
        rw [List.length_append, List.length_singleton] at hjl
        have hj' : j < l.length := by omega
        refine ⟨y, l[j], hy, ?_, .inl (lt_of_le_of_lt (hle _ (List.getElem_mem hj')) hlt)⟩
        rw [List.getElem?_append_left hj', List.getElem?_eq_getElem hj']
      · refine .inl ⟨if_neg hlt, ?_⟩
        intro x hx
        rcases List.mem_append.1 hx with hx | hx
        · exact hle x hx
        · rw [List.mem_singleton.1 hx]
          exact not_lt.1 hlt
    · have hil : i < l.length := (List.getElem?_eq_some_iff.1 hx).1
      have hx' : (l ++ [y])[i]? = some x := by rw [List.getElem?_append_left hil, hx]
      rw [hs, turn]
      by_cases hlt : w x < w y
      · refine .inr ⟨l.length, y, hy, if_pos hlt, lt_trans hlo hlt, ?_⟩
        intro j hj hjl
        rw [List.length_append, List.length_singleton] at hjl
        have hj' : j < l.length := by omega
        by_cases hji : j = i
        · exact ⟨y, x, hy, hji ▸ hx', .inl hlt⟩
        · -- what the old best outranks is not heavier than it
          obtain ⟨x', z, hx2, hz, hw⟩ := hall j hji hj'
          cases hx.symm.trans hx2
          have hzx : w z ≤ w x := hw.elim le_of_lt fun h => le_of_eq h.1
          refine ⟨y, z, hy, ?_, .inl (lt_of_le_of_lt hzx hlt)⟩
          rw [List.getElem?_append_left hj', hz]
      · refine .inr ⟨i, x, hx', if_neg hlt, hlo, ?_⟩
        intro j hj hjl
        rw [List.length_append, List.length_singleton] at hjl
        by_cases hjy : j = l.length
        · subst hjy
          refine ⟨x, y, hx', hy, ?_⟩
          rcases lt_or_eq_of_le (not_lt.1 hlt) with h | h
          · exact .inl h
          · exact .inr ⟨h, hil⟩
        · exact (hall j hj (by omega)).append [y]

end Argmax
