import Mathlib.Data.List.DropRight
import Mathlib.Data.List.Dedup

/-!
# The most recent keys

`recent n keys` are the last `n` of the different keys of a list, in the order in which each of them
comes last. `recent_concat` is the step of a cache that keeps them: a key that it has moves to the end,
and another one goes there, in the place of the first if the cache is full.
-/

set_option autoImplicit false

namespace Recency

variable {α : Type}

theorem rtake_append {l₁ l₂ : List α} {m : Nat} (h : l₂.length = m) : (l₁ ++ l₂).rtake m = l₂ := by
  rw [List.rtake, List.length_append, h, Nat.add_sub_cancel, List.drop_left]

theorem rtake_of_le {l : List α} {m : Nat} (h : l.length ≤ m) : l.rtake m = l := by
  rw [List.rtake, Nat.sub_eq_zero_of_le h, List.drop_zero]

variable [DecidableEq α] {n : Nat} {keys : List α} {k : α}

def recent (n : Nat) (keys : List α) : List α := keys.dedup.rtake n

theorem recent_nil (n : Nat) : recent n ([] : List α) = [] := by
  rw [recent, List.dedup_nil, List.rtake_nil]

theorem dedup_concat (keys : List α) (k : α) : (keys ++ [k]).dedup = keys.dedup.erase k ++ [k] := by
  induction keys with
  | nil => simp
  | cons a keys ih =>
    rw [List.cons_append]
    by_cases ha : a ∈ keys
    · rw [List.dedup_cons_of_mem (List.mem_append_left _ ha), List.dedup_cons_of_mem ha, ih]
    · rw [List.dedup_cons_of_notMem ha]
      by_cases hak : a = k
      · subst hak
        rw [List.dedup_cons_of_mem (by simp), ih, List.erase_cons_head,
          List.erase_of_not_mem (mt List.mem_dedup.1 ha)]
      · have hmem : a ∉ keys ++ [k] := by simp [ha, hak]
        rw [List.dedup_cons_of_notMem hmem, ih, List.erase_cons_tail (by simpa using hak),
          List.cons_append]

/-- What there is besides the last `n` keys. -/
theorem exists_dedup (n : Nat) (keys : List α) : ∃ old, keys.dedup = old ++ recent n keys ∧
    (old = [] ∧ (recent n keys).length ≤ n ∨ (recent n keys).length = n) := by
  refine ⟨_, (List.take_append_drop (keys.dedup.length - n) _).symm, ?_⟩
  have hlen : (recent n keys).length = keys.dedup.length - (keys.dedup.length - n) := by
    rw [recent, List.rtake, List.length_drop]
  by_cases hle : keys.dedup.length ≤ n
  · refine .inl ⟨?_, by omega⟩
    rw [Nat.sub_eq_zero_of_le hle, List.take_zero]
  · exact .inr (by omega)

/-- **One more key.** -/
theorem recent_concat (hn : 0 < n) (keys : List α) (k : α) :
    recent n (keys ++ [k]) =
      (if k ∈ recent n keys then (recent n keys).erase k
        else if (recent n keys).length < n then recent n keys else (recent n keys).tail) ++ [k] := by
  obtain ⟨m, rfl⟩ := Nat.exists_eq_succ_of_ne_zero (Nat.pos_iff_ne_zero.1 hn)
  obtain ⟨old, hd, hlen⟩ := exists_dedup m.succ keys
  have hnodup : (old ++ recent m.succ keys).Nodup := hd ▸ List.nodup_dedup keys
  rw [show recent m.succ (keys ++ [k]) = (keys ++ [k]).dedup.rtake (m + 1) from rfl, dedup_concat,
    List.rtake_concat_succ, hd]
  generalize recent m.succ keys = l at hlen hnodup ⊢
  congr 1
  by_cases hk : k ∈ l
  · have hold : k ∉ old := fun h => (List.nodup_append.1 hnodup).2.2 k h k hk rfl
    have herase := List.length_erase_of_mem hk
    rw [if_pos hk, List.erase_append_right _ hold]
    rcases hlen with ⟨rfl, hle⟩ | heq
    · exact rtake_of_le (by rw [List.nil_append]; omega)
    · exact rtake_append (by omega)
  · rw [if_neg hk]
    rcases hlen with ⟨rfl, hle⟩ | heq
    · rw [List.nil_append, List.erase_of_not_mem hk]
      split
      · exact rtake_of_le (by omega)
      · next hfull =>
        cases l with
        | nil => exact rtake_of_le (Nat.zero_le _)
        | cons a l =>
          rw [List.length_cons] at hle hfull
          exact (rtake_append (by omega) : ([a] ++ l).rtake m = l)
    · rw [if_neg (by omega)]
      cases l with
      | nil => cases heq
      | cons a l =>
        rw [List.length_cons] at heq
        have hsplit : (old ++ a :: l).erase k = (if k ∈ old then old.erase k else old) ++ [a] ++ l := by
          split
          · rw [List.erase_append_left _ ‹_›]
            simp
          · rw [List.erase_append_right _ ‹_›, List.erase_of_not_mem hk]
            simp
        rw [hsplit]
        exact rtake_append (by omega)

end Recency
