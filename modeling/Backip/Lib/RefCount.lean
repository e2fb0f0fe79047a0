import Mathlib.Data.List.Count
import Mathlib.Data.List.Perm.Basic
import Mathlib.Data.List.Perm.Subperm
import Mathlib.Logic.Function.Basic

/-!
# Counted references

A pool hands out objects that are shared: each counts the references to it and goes back to the
pool with the last one. `RefCount free count refs` says that the counts are right for the
references `refs` (an object as often as it is referred to) and that no free object is referred to.

The rules are `get` (a free object, with one reference), `share`, `drop_shared` and `drop_last`.
`Accounted` adds that of the objects `objs` none is lost: what is not free is referred to; it has
the same rules.
-/

set_option autoImplicit false

variable {α : Type} [DecidableEq α]

structure RefCount (free : List α) (count : α → Nat) (refs : List α) : Prop where
  nodup : free.Nodup
  fresh : ∀ a ∈ free, a ∉ refs
  count_eq : ∀ a, a ∉ free → count a = refs.count a

namespace RefCount

variable {free : List α} {count count' : α → Nat} {refs refs' : List α} {a : α}

theorem not_mem_free (h : RefCount free count refs) (ha : a ∈ refs) : a ∉ free :=
  fun hf => h.fresh a hf ha

theorem perm (h : RefCount free count refs) (hp : refs.Perm refs') : RefCount free count refs' where
  nodup := h.nodup
  fresh b hb := fun hr => h.fresh b hb (hp.mem_iff.2 hr)
  count_eq b hb := (h.count_eq b hb).trans (hp.count_eq b)

theorem congr (h : RefCount free count refs) (hc : ∀ b, count' b = count b) :
    RefCount free count' refs where
  nodup := h.nodup
  fresh := h.fresh
  count_eq b hb := (hc b).trans (h.count_eq b hb)

theorem get (h : RefCount (a :: free) count refs) (ha : count' a = 1)
    (hc : ∀ b ≠ a, count' b = count b) : RefCount free count' (a :: refs) := by
  obtain ⟨hnd, hfresh, hcount⟩ := h
  obtain ⟨hna, hnd'⟩ := List.nodup_cons.1 hnd
  refine ⟨hnd', ?_, ?_⟩
  · intro b hb hmem
    rcases List.mem_cons.1 hmem with rfl | hmem
    · exact hna hb
    · exact hfresh b (.tail _ hb) hmem
  · intro b hb
    by_cases hba : b = a
    · subst hba
      rw [ha, List.count_cons_self, List.count_eq_zero.2 (hfresh b (.head _))]
    · rw [hc b hba, List.count_cons_of_ne (Ne.symm hba)]
      exact hcount b fun hmem => (List.mem_cons.1 hmem).elim hba hb

theorem share (h : RefCount free count refs) (hmem : a ∈ refs) (ha : count' a = count a + 1)
    (hc : ∀ b ≠ a, count' b = count b) : RefCount free count' (a :: refs) where
  nodup := h.nodup
  fresh b hb hr := by
    rcases List.mem_cons.1 hr with rfl | hr
    · exact h.fresh b hb hmem
    · exact h.fresh b hb hr
  count_eq b hb := by
    by_cases hba : b = a
    · subst hba
      rw [ha, List.count_cons_self, h.count_eq b hb]
    · rw [hc b hba, List.count_cons_of_ne (Ne.symm hba), h.count_eq b hb]

/-- The counts when a reference is dropped. -/
theorem count_drop (h : RefCount free count (a :: refs)) (ha : count' a = count a - 1)
    (hc : ∀ b ≠ a, count' b = count b) {b : α} (hb : b ∉ free) : count' b = refs.count b := by
  by_cases hba : b = a
  · subst hba
    rw [ha, h.count_eq b hb, List.count_cons_self, Nat.add_sub_cancel]
  · rw [hc b hba, h.count_eq b hb, List.count_cons_of_ne (Ne.symm hba)]

/-- A reference is dropped and others remain. -/
theorem drop_shared (h : RefCount free count (a :: refs)) (ha : count' a = count a - 1)
    (hc : ∀ b ≠ a, count' b = count b) : RefCount free count' refs where
  nodup := h.nodup
  fresh b hb hr := h.fresh b hb (.tail _ hr)
  count_eq _ hb := h.count_drop ha hc hb

/-- The last reference is dropped: the object is free again. -/
theorem drop_last (h : RefCount free count (a :: refs)) (ha : count' a = count a - 1)
    (hc : ∀ b ≠ a, count' b = count b) (hzero : count' a = 0) :
    RefCount (free ++ [a]) count' refs := by
  have hna := h.not_mem_free (.head _)
  have hno : a ∉ refs := by
    rw [← List.count_eq_zero, ← h.count_drop ha hc hna, hzero]
  refine ⟨?_, ?_, ?_⟩
  · exact (List.perm_append_singleton a free).nodup_iff.2 (List.nodup_cons.2 ⟨hna, h.nodup⟩)
  · intro b hb hr
    rcases List.mem_append.1 hb with hb | hb
    · exact h.fresh b hb (.tail _ hr)
    · exact hno (List.mem_singleton.1 hb ▸ hr)
  · intro b hb
    exact h.count_drop ha hc fun hmem => hb (List.mem_append_left _ hmem)

end RefCount

/-- The references to the objects `objs` are counted, and what nothing refers to is free. -/
structure Accounted (objs free : List α) (count : α → Nat) (refs : List α) : Prop
    extends RefCount free count refs where
  subset : ∀ a ∈ free, a ∈ objs
  refs_subset : ∀ a ∈ refs, a ∈ objs
  cover : ∀ a ∈ objs, a ∉ free → a ∈ refs
  zero : ∀ a ∈ free, count a = 0

namespace Accounted

variable {objs free : List α} {count count' : α → Nat} {refs refs' : List α} {a : α}

/-- A count is that of the references. -/
theorem eq_count (h : Accounted objs free count refs) (a : α) : count a = refs.count a := by
  by_cases ha : a ∈ free
  · rw [h.zero a ha, List.count_eq_zero.2 (h.fresh a ha)]
  · exact h.count_eq a ha

/-- With an object that is in use, there are fewer free ones than objects. -/
theorem length_lt (h : Accounted objs free count refs) (hr : a ∈ refs) :
    free.length < objs.length := by
  have hnodup : (a :: free).Nodup := List.nodup_cons.2 ⟨h.not_mem_free hr, h.nodup⟩
  exact (List.subperm_of_subset hnodup (List.cons_subset.2 ⟨h.refs_subset a hr, h.subset⟩)).length_le

/-- An object is free exactly if its count is 0. -/
theorem mem_free_iff (h : Accounted objs free count refs) (ha : a ∈ objs) :
    a ∈ free ↔ count a = 0 := by
  refine ⟨h.zero a, fun hzero => ?_⟩
  rw [h.eq_count, List.count_eq_zero] at hzero
  exact Classical.not_not.1 fun hf => hzero (h.cover a ha hf)

theorem perm (h : Accounted objs free count refs) (hp : refs.Perm refs') :
    Accounted objs free count refs' where
  toRefCount := h.toRefCount.perm hp
  subset := h.subset
  refs_subset b hb := h.refs_subset b (hp.mem_iff.2 hb)
  cover b hb hf := hp.mem_iff.1 (h.cover b hb hf)
  zero := h.zero

theorem congr (h : Accounted objs free count refs) (hc : ∀ b, count' b = count b) :
    Accounted objs free count' refs where
  toRefCount := h.toRefCount.congr hc
  subset := h.subset
  refs_subset := h.refs_subset
  cover := h.cover
  zero b hb := (hc b).trans (h.zero b hb)

theorem get (h : Accounted objs (a :: free) count refs) (ha : count' a = 1)
    (hc : ∀ b ≠ a, count' b = count b) : Accounted objs free count' (a :: refs) where
  toRefCount := h.toRefCount.get ha hc
  subset b hb := h.subset b (.tail _ hb)
  refs_subset := List.forall_mem_cons.2 ⟨h.subset a (.head _), h.refs_subset⟩
  cover b hb hf := by
    by_cases hba : b = a
    · exact hba ▸ .head _
    · exact .tail _ (h.cover b hb fun hmem => (List.mem_cons.1 hmem).elim hba hf)
  zero b hb := by
    have hba : b ≠ a := fun hba => (List.nodup_cons.1 h.nodup).1 (hba ▸ hb)
    exact (hc b hba).trans (h.zero b (.tail _ hb))

theorem share (h : Accounted objs free count refs) (hmem : a ∈ refs) (ha : count' a = count a + 1)
    (hc : ∀ b ≠ a, count' b = count b) : Accounted objs free count' (a :: refs) where
  toRefCount := h.toRefCount.share hmem ha hc
  subset := h.subset
  refs_subset := List.forall_mem_cons.2 ⟨h.refs_subset a hmem, h.refs_subset⟩
  cover b hb hf := .tail _ (h.cover b hb hf)
  zero b hb := by
    have hba : b ≠ a := fun hba => h.fresh b hb (hba ▸ hmem)
    exact (hc b hba).trans (h.zero b hb)

/-- More references to an object. -/
theorem share_many (h : Accounted objs free count refs) (hmem : a ∈ refs) (k : Nat)
    (ha : count' a = count a + k) (hc : ∀ b ≠ a, count' b = count b) :
    Accounted objs free count' (refs ++ List.replicate k a) := by
  induction k generalizing count' with
  | zero =>
    rw [List.replicate_zero, List.append_nil]
    refine h.congr fun b => ?_
    by_cases hba : b = a
    · exact hba ▸ ha
    · exact hc b hba
  | succ k ih =>
    have hk : Accounted objs free (Function.update count a (count a + k))
        (refs ++ List.replicate k a) :=
      ih (Function.update_self ..) fun b hb => Function.update_of_ne hb ..
    have hstep : Accounted objs free count' (a :: (refs ++ List.replicate k a)) := by
      refine hk.share (List.mem_append_left _ hmem) ?_ ?_
      · rw [Function.update_self, ha, Nat.add_assoc]
      · intro b hb
        rw [Function.update_of_ne hb, hc b hb]
    rw [List.replicate_succ]
    exact hstep.perm List.perm_middle.symm

theorem drop_shared (h : Accounted objs free count (a :: refs)) (ha : count' a = count a - 1)
    (hc : ∀ b ≠ a, count' b = count b) (hpos : count' a ≠ 0) :
    Accounted objs free count' refs where
  toRefCount := h.toRefCount.drop_shared ha hc
  subset := h.subset
  refs_subset b hb := h.refs_subset b (.tail _ hb)
  cover b hb hf := by
    rcases List.mem_cons.1 (h.cover b hb hf) with rfl | hmem
    · rw [h.count_drop ha hc hf] at hpos
      exact List.count_pos_iff.1 (Nat.pos_of_ne_zero hpos)
    · exact hmem
  zero b hb := by
    have hba : b ≠ a := fun hba => h.fresh b hb (hba ▸ .head _)
    exact (hc b hba).trans (h.zero b hb)

theorem drop_last (h : Accounted objs free count (a :: refs)) (ha : count' a = count a - 1)
    (hc : ∀ b ≠ a, count' b = count b) (hzero : count' a = 0) :
    Accounted objs (free ++ [a]) count' refs where
  toRefCount := h.toRefCount.drop_last ha hc hzero
  refs_subset b hb := h.refs_subset b (.tail _ hb)
  subset b hb := by
    rcases List.mem_append.1 hb with hb | hb
    · exact h.subset b hb
    · exact List.mem_singleton.1 hb ▸ h.refs_subset a (.head _)
  cover b hb hf := by
    have hb' := h.cover b hb fun hmem => hf (List.mem_append_left _ hmem)
    refine (List.mem_cons.1 hb').resolve_left fun hba => ?_
    exact hf (List.mem_append_right _ (hba ▸ List.mem_singleton_self _))
  zero b hb := by
    rcases List.mem_append.1 hb with hb | hb
    · have hba : b ≠ a := fun hba => h.fresh b hb (hba ▸ .head _)
      exact (hc b hba).trans (h.zero b hb)
    · exact List.mem_singleton.1 hb ▸ hzero

end Accounted
