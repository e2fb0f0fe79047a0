import Backip.Lib.Blocks
import Backip.System.FragmentPoolImplP
import Mathlib

/-!
# The slots of a fragment pool

* `slotsOf base bs`: the slots of a region from `base` on that is tiled by the blocks `bs`.
* `longest_spec`, `merge_spec`, `release_spec`, `freeze_spec`: what the commands do to the blocks.
* `fragments_kept`: the invariants of every run.
-/

set_option autoImplicit false

namespace FragmentPoolImplP

open Blocks

variable {p base size : Nat} {b : Block} {pre post bs : List Block} {slots X Y R U : List Slot}

/-! ## Slots of blocks -/

def slotOf (p : Nat) (b : Block) : Slot := ⟨p, if b.free then b.len else -b.len⟩

def slotsOf : Nat → List Block → List Slot
  | _, [] => []
  | p, b :: bs => slotOf p b :: slotsOf (p + b.len) bs

theorem slotsOf_append (p : Nat) (xs ys : List Block) :
    slotsOf p (xs ++ ys) = slotsOf p xs ++ slotsOf (p + total xs) ys := by
  induction xs generalizing p with
  | nil => simp [slotsOf]
  | cons x xs ih => simp [slotsOf, ih, Nat.add_assoc]

@[simp] theorem length_slotsOf (p : Nat) (bs : List Block) : (slotsOf p bs).length = bs.length := by
  induction bs generalizing p with
  | nil => rfl
  | cons b bs ih => simp [slotsOf, ih]

theorem mem_slotsOf {s : Slot} : s ∈ slotsOf p bs ↔ ∃ o b, At p bs o b ∧ s = slotOf o b := by
  induction bs generalizing p with
  | nil => simp [slotsOf]
  | cons b bs ih =>
    simp only [slotsOf, List.mem_cons, ih, at_cons]
    constructor
    · rintro (rfl | ⟨o, c, h, rfl⟩)
      · exact ⟨p, b, .inl ⟨rfl, rfl⟩, rfl⟩
      · exact ⟨o, c, .inr h, rfl⟩
    · rintro ⟨o, c, ⟨rfl, rfl⟩ | h, rfl⟩
      · exact .inl rfl
      · exact .inr ⟨o, c, h, rfl⟩

theorem slotOf_length_ne (hb : 0 < b.len) : (slotOf p b).length ≠ 0 := by
  unfold slotOf
  dsimp only
  split <;> omega

theorem slotOf_free_iff (hb : 0 < b.len) : 0 < (slotOf p b).length ↔ b.free = true := by
  unfold slotOf
  dsimp only
  split
  · rename_i hf
    exact iff_of_true (by omega) hf
  · rename_i hf
    exact iff_of_false (by omega) hf

theorem slotsOf_length_ne (p : Nat) (hpos : ∀ b ∈ bs, 0 < b.len) : ∀ s ∈ slotsOf p bs, s.length ≠ 0 := by
  intro s hs
  obtain ⟨o, b, hb, rfl⟩ := mem_slotsOf.1 hs
  exact slotOf_length_ne (hpos b (at_mem hb))

/-! ## Lists -/

theorem getD_mid {α : Type} (xs ys : List α) (x d : α) : (xs ++ x :: ys).getD xs.length d = x := by
  simp [List.getD]

theorem getD_mem {α : Type} {l : List α} {i : Nat} (d : α) (h : i < l.length) : l.getD i d ∈ l := by
  rw [List.getD, List.getElem?_eq_getElem h]
  exact List.getElem_mem h

theorem set_mid {α : Type} (xs ys : List α) (x y : α) :
    (xs ++ x :: ys).set xs.length y = xs ++ y :: ys := by
  simp

theorem modify_mid {α : Type} (xs ys : List α) (x : α) (f : α → α) :
    (xs ++ x :: ys).modify xs.length f = xs ++ f x :: ys := by
  induction xs with
  | nil => rfl
  | cons a xs ih => exact congrArg (a :: ·) ih

/-! ## The loops -/

theorem longest_spec (l : List Slot) (k : Nat) (bsp : Option Nat) (n : Int) :
    (longest l k bsp n = bsp ∧ ∀ s ∈ l, 0 < s.length → s.length < n) ∨
    ∃ xs s ys, l = xs ++ s :: ys ∧ longest l k bsp n = some (k + xs.length) ∧ 0 < s.length ∧
      n ≤ s.length ∧ ∀ t ∈ l, 0 < t.length → t.length ≤ s.length := by
  induction l generalizing k bsp n with
  | nil => exact .inl ⟨rfl, nofun⟩
  | cons s l ih =>
    unfold longest
    split
    · rename_i hs
      obtain ⟨heq, hlt⟩ | ⟨xs, t, ys, rfl, heq, hpos, hle, hmax⟩ := ih (k + 1) (some k) s.length
      · refine .inr ⟨[], s, l, rfl, heq, hs.1, hs.2, ?_⟩
        simp only [List.forall_mem_cons]
        exact ⟨fun _ => Int.le_refl _, fun t ht h => Int.le_of_lt (hlt t ht h)⟩
      · refine .inr ⟨s :: xs, t, ys, rfl, ?_, hpos, Int.le_trans hs.2 hle, ?_⟩
        · rw [heq, List.length_cons, Nat.add_assoc, Nat.add_comm 1]
        · exact List.forall_mem_cons.2 ⟨fun _ => hle, hmax⟩
    · rename_i hs
      obtain ⟨heq, hlt⟩ | ⟨xs, t, ys, rfl, heq, hpos, hle, hmax⟩ := ih (k + 1) bsp n
      · exact .inl ⟨heq, List.forall_mem_cons.2 ⟨fun h => by omega, hlt⟩⟩
      · refine .inr ⟨s :: xs, t, ys, rfl, ?_, hpos, hle, ?_⟩
        · rw [heq, List.length_cons, Nat.add_assoc, Nat.add_comm 1]
        · exact List.forall_mem_cons.2 ⟨fun h => by omega, hmax⟩

/-- The slots `R` in use move down over `Y`. -/
theorem moveDown_spec {freed : Nat} (hY : Y.length = freed) (hfreed : 0 < freed)
    (hR : ∀ s ∈ R, s.length ≠ 0) (hU : ∀ s ∈ U, s.length = 0) :
    ∃ G, moveDown freed (R.length + U.length) (X.length + freed) (X ++ (Y ++ (R ++ U))) =
      (X.length + freed + R.length, X ++ (R ++ (G ++ U))) ∧ G.length = freed := by
  induction R generalizing X Y with
  | nil =>
    obtain ⟨y, Y, rfl⟩ := List.exists_cons_of_length_pos (hY ▸ hfreed)
    cases U with
    | nil => exact ⟨y :: Y, by simp [moveDown], hY⟩
    | cons u U =>
      have hu : u.length = 0 := hU u (.head _)
      refine ⟨u :: Y, ?_, hY⟩
      have hget : (X ++ (y :: Y ++ ([] ++ u :: U))).getD (X.length + freed) default = u := by
        have := getD_mid (X ++ y :: Y) U u default
        rwa [List.length_append, hY, List.append_assoc] at this
      have hset : (X ++ (y :: Y ++ ([] ++ u :: U))).set (X.length + freed - freed) u =
          X ++ (u :: Y ++ u :: U) := by
        rw [Nat.add_sub_cancel]
        exact set_mid X _ y u
      rw [List.length_nil, Nat.zero_add, List.length_cons, moveDown]
      rw [hget, hset, if_pos hu]
      rfl
  | cons r R ih =>
    obtain ⟨y, Y, rfl⟩ := List.exists_cons_of_length_pos (hY ▸ hfreed)
    have hr : r.length ≠ 0 := hR r (.head _)
    have hget : (X ++ (y :: Y ++ (r :: R ++ U))).getD (X.length + freed) default = r := by
      have := getD_mid (X ++ y :: Y) (R ++ U) r default
      rwa [List.length_append, hY, List.append_assoc] at this
    have hset : (X ++ (y :: Y ++ (r :: R ++ U))).set (X.length + freed - freed) r =
        (X ++ [r]) ++ ((Y ++ [r]) ++ (R ++ U)) := by
      rw [Nat.add_sub_cancel]
      refine (set_mid X _ y r).trans ?_
      simp
    obtain ⟨G, hG, hlen⟩ := ih (X := X ++ [r]) (Y := Y ++ [r])
      (by rw [← hY]; simp) fun s hs => hR s (.tail _ hs)
    refine ⟨G, ?_, hlen⟩
    rw [List.length_cons, Nat.add_right_comm, moveDown]
    rw [hget, hset, if_neg hr]
    rw [List.length_append, List.length_singleton] at hG
    rw [Nat.add_right_comm X.length freed 1, hG, Prod.mk.injEq]
    exact ⟨by omega, by simp only [List.append_assoc, List.cons_append, List.nil_append]⟩

theorem clear_spec (G : List Slot) : clear G.length X.length (X ++ (G ++ U)) =
    X ++ (G.map (fun s => { s with length := 0 }) ++ U) := by
  induction G generalizing X with
  | nil => rfl
  | cons g G ih =>
    rw [List.length_cons, clear, List.cons_append, modify_mid]
    have := ih (X := X ++ [{ g with length := 0 }])
    rw [List.length_append, List.length_singleton, List.append_assoc, List.append_assoc] at this
    exact this

/-- The slots `Y` are joined to the one before them. -/
theorem merge_spec (s : Slot) (hR : ∀ s ∈ R, s.length ≠ 0) (hU : ∀ s ∈ U, s.length = 0) :
    ∃ U', merge (X ++ s :: (Y ++ (R ++ U))) X.length (X.length + Y.length) =
      X ++ { s with length := s.length + (Y.map Slot.length).sum } :: (R ++ U') ∧
      (∀ s ∈ U', s.length = 0) ∧ U'.length = Y.length + U.length := by
  cases Y with
  | nil =>
    refine ⟨U, ?_, hU, by simp⟩
    simp [merge]
  | cons y Y =>
    have hdrop : ((X ++ s :: (y :: Y ++ (R ++ U))).drop (X.length + 1)).take (y :: Y).length =
        y :: Y := by
      rw [← List.drop_drop, List.drop_left, List.drop_one, List.tail_cons, List.take_left]
    obtain ⟨s', hs'⟩ : ∃ s', ({ s with length := s.length + ((y :: Y).map Slot.length).sum } : Slot) =
        s' := ⟨_, rfl⟩
    obtain ⟨G, hG, hlen⟩ := moveDown_spec (X := X ++ [s']) (Y := y :: Y) rfl
      (Nat.succ_pos Y.length) hR hU
    have hclear := clear_spec (X := X ++ [s'] ++ R) (U := U) G
    have hfuel : (X ++ s' :: (y :: Y ++ (R ++ U))).length - (X.length + (y :: Y).length + 1) =
        R.length + U.length := by
      simp only [List.length_append, List.length_cons]
      omega
    have hstart : X.length + (y :: Y).length + 1 = (X ++ [s']).length + (y :: Y).length := by
      rw [List.length_append, List.length_singleton, Nat.add_right_comm]
    have hstop : (X ++ [s']).length + (y :: Y).length + R.length - (y :: Y).length =
        (X ++ [s'] ++ R).length := by
      simp only [List.length_append]
      omega
    refine ⟨G.map (fun s => { s with length := 0 }) ++ U, ?_, ?_, ?_⟩
    · unfold merge
      rw [if_pos (by simp)]
      dsimp only
      rw [Nat.add_sub_cancel_left, hdrop, modify_mid, hs', hfuel, hstart]
      rw [List.append_assoc] at hG
      rw [show X ++ s' :: (y :: Y ++ (R ++ U)) = X ++ ([s'] ++ (y :: Y ++ (R ++ U))) from rfl, hG,
        hstop, ← hlen]
      simp only [List.append_assoc, List.cons_append, List.nil_append] at hclear ⊢
      exact hclear
    · intro t ht
      rcases List.mem_append.1 ht with ht | ht
      · obtain ⟨g, -, rfl⟩ := List.mem_map.1 ht
        rfl
      · exact hU t ht
    · rw [List.length_append, List.length_map, hlen]

/-! ## release -/

/-- A fragment in use is found by its start. -/
theorem findIdx_slotsOf (hpos : ∀ a ∈ pre, 0 < a.len) (s : Slot) (hs : s.start = (p + total pre : Nat))
    (rest : List Slot) : (slotsOf p pre ++ s :: rest).findIdx
      (fun t => t.start = ((p + total pre : Nat) : Int)) = pre.length := by
  induction pre generalizing p with
  | nil =>
    rw [slotsOf, List.nil_append, List.findIdx_cons]
    simp [hs]
  | cons a pre ih =>
    have ha := hpos a (.head _)
    have hne : ¬ ((slotOf p a).start = ((p + total (a :: pre) : Nat) : Int)) := by
      simp only [slotOf, total_cons, Int.natCast_inj]
      omega
    have hnext : p + total (a :: pre) = p + a.len + total pre := by
      rw [total_cons]
      omega
    rw [slotsOf, List.cons_append, List.findIdx_cons, decide_eq_false hne, cond_false, hnext,
      ih (fun x hx => hpos x (.tail _ hx)) (by rw [hs, hnext]), List.length_cons]

/-- The slot behind a fragment that is given back, if it is free. -/
theorem next_slots (hpos : ∀ a ∈ post, 0 < a.len) (hU : ∀ s ∈ U, s.length = 0) (n : Nat)
    (X : List Slot) (s : Slot) : ∃ Y n' post',
    slotsOf (p + n) post = Y ++ slotsOf (p + n') post' ∧ n + (Y.map Slot.length).sum = n' ∧
    (if X.length + 1 < (X ++ s :: (slotsOf (p + n) post ++ U)).length ∧
        0 < ((X ++ s :: (slotsOf (p + n) post ++ U)).getD (X.length + 1) default).length then
      X.length + 1 else X.length) = X.length + Y.length ∧
    (∀ pre, Blocks.release pre n post = joinPrev pre n' post') ∧ ∀ a ∈ post', 0 < a.len := by
  have hget : ∀ t rest, (X ++ s :: t :: rest).getD (X.length + 1) default = t := by
    intro t rest
    have := getD_mid (X ++ [s]) rest t default
    rwa [List.length_append, List.append_assoc] at this
  cases post with
  | nil =>
    refine ⟨[], n, [], rfl, by simp, if_neg ?_, fun _ => rfl, by rintro _ ⟨⟩⟩
    rintro ⟨hlt, hlen⟩
    cases U with
    | nil => simp [slotsOf] at hlt
    | cons u U =>
      rw [slotsOf, List.nil_append, hget, hU u (.head _)] at hlen
      exact absurd hlen (by decide)
  | cons c post =>
    have hc := hpos c (.head _)
    have hrest : ∀ a ∈ post, 0 < a.len := fun a ha => hpos a (.tail _ ha)
    rw [slotsOf, List.cons_append, hget]
    cases hf : c.free with
    | true =>
      refine ⟨[slotOf (p + n) c], n + c.len, post, by rw [Nat.add_assoc]; rfl, ?_, if_pos ?_, ?_,
        hrest⟩
      · simp [slotOf, hf]
      · exact ⟨by simp, (slotOf_free_iff hc).2 hf⟩
      · intro pre
        rw [Blocks.release, if_pos hf]
    | false =>
      refine ⟨[], n, c :: post, rfl, by simp, if_neg fun h => ?_, fun pre => ?_, hpos⟩
      · rw [(slotOf_free_iff hc).1 h.2] at hf
        cases hf
      · rw [Blocks.release, if_neg (by rw [hf]; rintro ⟨⟩)]

/-- The slots before a fragment that is given back: the last one is joined if it is free. -/
theorem prev_slots (base : Nat) (hpos : ∀ a ∈ pre, 0 < a.len) (n : Nat) : ∃ X t Z,
    slotsOf base pre ++ [slotOf (base + total pre) ⟨n, true⟩] = X ++ t :: Z ∧
    (∀ rest, (if 0 < pre.length ∧ 0 < ((slotsOf base pre ++
        slotOf (base + total pre) ⟨n, true⟩ :: rest).getD (pre.length - 1) default).length then
      pre.length - 1 else pre.length) = X.length) ∧
    pre.length = X.length + Z.length ∧
    ∀ (n' : Nat) post', slotsOf base (joinPrev pre n' post') =
      X ++ ⟨t.start, t.length + (Z.map Slot.length).sum + (n' - n)⟩ ::
        slotsOf (base + total pre + n') post' := by
  have hkept : ∀ n' post', joinPrev pre n' post' = pre ++ ⟨n', true⟩ :: post' →
      slotsOf base (joinPrev pre n' post') = slotsOf base pre ++
        ⟨(base + total pre : Nat), (n : Int) + (([] : List Slot).map Slot.length).sum + (n' - n)⟩ ::
          slotsOf (base + total pre + n') post' := by
    intro n' post' h
    rw [h, slotsOf_append, slotsOf, slotOf]
    simp only [if_true, List.map_nil, List.sum_nil]
    congr 3
    omega
  obtain rfl | ⟨pre, a, rfl⟩ := pre.eq_nil_or_concat'
  · exact ⟨[], _, [], rfl, fun _ => rfl, rfl, fun n' post' => hkept n' post' rfl⟩
  · have ha := hpos a (by simp)
    have hprev : ∀ s rest, (slotsOf base (pre ++ [a]) ++ s :: rest).getD
        ((pre ++ [a]).length - 1) default = slotOf (base + total pre) a := by
      intro s rest
      simp [slotsOf_append, slotsOf]
    have hlen : (pre ++ [a]).length = pre.length + 1 := by simp
    cases hf : a.free with
    | true =>
      refine ⟨slotsOf base pre, slotOf (base + total pre) a,
        [slotOf (base + total (pre ++ [a])) ⟨n, true⟩], ?_, fun rest => ?_, ?_, fun n' post' => ?_⟩
      · simp [slotsOf_append, slotsOf]
      · rw [hprev, if_pos ⟨by rw [hlen]; exact Nat.succ_pos _, (slotOf_free_iff ha).2 hf⟩, hlen,
          length_slotsOf, Nat.add_sub_cancel]
      · rw [hlen, length_slotsOf, List.length_singleton]
      · rw [joinPrev_snoc, if_pos hf, slotsOf_append, slotsOf]
        simp only [slotOf, hf, if_true, List.map_cons, List.map_nil, List.sum_cons, List.sum_nil,
          total_append, total_cons, total_nil]
        congr 3
        · omega
        · omega
    | false =>
      refine ⟨slotsOf base (pre ++ [a]), slotOf (base + total (pre ++ [a])) ⟨n, true⟩, [], rfl,
        fun rest => ?_, by simp, fun n' post' => hkept n' post' ?_⟩
      · rw [hprev, if_neg fun h => ?_, length_slotsOf]
        rw [(slotOf_free_iff ha).1 h.2] at hf
        cases hf
      · rw [joinPrev_snoc, if_neg (by rw [hf]; nofun), List.append_assoc]
        rfl

theorem release_spec (base : Nat) {n : Nat} (hpos : ∀ a ∈ pre ++ ⟨n, false⟩ :: post, 0 < a.len)
    (hU : ∀ s ∈ U, s.length = 0) : ∃ merged U',
    release (slotsOf base (pre ++ ⟨n, false⟩ :: post) ++ U) ((base + total pre : Nat) : Int) =
      ⟨.success, some merged, slotsOf base (Blocks.release pre n post) ++ U'⟩ ∧
    (∀ s ∈ U', s.length = 0) ∧
    (slotsOf base (Blocks.release pre n post) ++ U').length =
      (slotsOf base (pre ++ ⟨n, false⟩ :: post) ++ U).length := by
  simp only [List.forall_mem_append, List.forall_mem_cons] at hpos
  obtain ⟨hpre, hn, hpost⟩ := hpos
  have hlayout : ∀ f, slotsOf base (pre ++ ⟨n, f⟩ :: post) ++ U = slotsOf base pre ++
      slotOf (base + total pre) ⟨n, f⟩ :: (slotsOf (base + total pre + n) post ++ U) := by
    intro f
    rw [slotsOf_append, slotsOf, List.append_assoc, List.cons_append]
  obtain ⟨q, hq⟩ : ∃ q, base + total pre = q := ⟨_, rfl⟩
  obtain ⟨s, hs⟩ : ∃ s, slotOf q ⟨n, true⟩ = s := ⟨_, rfl⟩
  have hidx := findIdx_slotsOf (p := base) hpre (slotOf q ⟨n, false⟩) (by rw [hq]; rfl)
    (slotsOf (q + n) post ++ U)
  obtain ⟨Y, n', post', hY, hsum, hasp, hrel, hpost'⟩ :=
    next_slots (p := q) hpost hU n (slotsOf base pre) s
  have hR := slotsOf_length_ne (q + n') hpost'
  rw [hlayout, hq]
  rw [hq] at hidx
  unfold release
  rw [length_slotsOf] at hasp
  dsimp only
  rw [hidx]
  have hne : pre.length ≠
      (slotsOf base pre ++ slotOf q ⟨n, false⟩ :: (slotsOf (q + n) post ++ U)).length := by
    simp only [List.length_append, List.length_cons, length_slotsOf]
    omega
  have hget := getD_mid (slotsOf base pre) (slotsOf (q + n) post ++ U) (slotOf q ⟨n, false⟩) default
  have hset := set_mid (slotsOf base pre) (slotsOf (q + n) post ++ U) (slotOf q ⟨n, false⟩) s
  rw [length_slotsOf] at hget hset
  have hs' : ({ slotOf q ⟨n, false⟩ with length := -(slotOf q ⟨n, false⟩).length } : Slot) = s := by
    rw [← hs]
    simp [slotOf]
  have hneg : ¬ (0 : Int) ≤ (slotOf q ⟨n, false⟩).length := by
    have hn : 0 < n := hn
    simp only [slotOf, Bool.false_eq_true, if_false]
    omega
  rw [if_neg hne, hget, if_neg hneg, hs', hset, hasp, hY, List.append_assoc, hrel]
  obtain ⟨X, t, Z, hX, hbsp, hcount, hjoin⟩ := prev_slots base hpre n
  rw [hq, hs] at hX hbsp
  rw [hq] at hjoin
  have hslots : slotsOf base pre ++ s :: (Y ++ (slotsOf (q + n') post' ++ U)) =
      X ++ t :: ((Z ++ Y) ++ (slotsOf (q + n') post' ++ U)) := by
    have := congrArg (· ++ (Y ++ (slotsOf (q + n') post' ++ U))) hX
    simpa using this
  obtain ⟨U', hmerge, hU', hlen⟩ := merge_spec (X := X) (Y := Z ++ Y) t hR hU
  have hend : pre.length + Y.length = X.length + (Z ++ Y).length := by
    rw [List.length_append, hcount, Nat.add_assoc]
  have hmerged : ({ t with length := t.length + ((Z ++ Y).map Slot.length).sum } : Slot) =
      ⟨t.start, t.length + (Z.map Slot.length).sum + (n' - n)⟩ := by
    simp only [List.map_append, List.sum_append]
    congr 1
    omega
  rw [hbsp, hend, hslots, hmerge, hmerged, hjoin, getD_mid]
  refine ⟨_, U', by rw [List.append_assoc, List.cons_append], hU', ?_⟩
  have hcount' := congrArg List.length hslots
  simp only [List.length_append, List.length_cons, length_slotsOf] at hcount' hlen ⊢
  have hYlen := congrArg List.length hY
  simp only [List.length_append, length_slotsOf] at hYlen
  omega

/-! ## freeze -/

theorem firstUnused_spec (lo : Nat) {P : List Slot} (hlo : lo ≤ P.length)
    (hP : ∀ s ∈ P, s.length ≠ 0) (hU : ∀ s ∈ U, s.length = 0) {k : Nat} (hk : k ≤ U.length) :
    firstUnused (P ++ U) lo (P.length + k) = P.length := by
  induction k with
  | zero =>
    obtain rfl | ⟨P, x, rfl⟩ := P.eq_nil_or_concat'
    · rfl
    · have hx : ((P ++ [x] ++ U).getD P.length default).length ≠ 0 := by
        rw [List.append_assoc, List.singleton_append, getD_mid]
        exact hP x (by simp)
      rw [List.length_append, List.length_singleton, Nat.add_zero, firstUnused, if_neg fun h => hx h.2]
  | succ k ih =>
    have hmem : (P ++ U).getD (P.length + k) default ∈ U := by
      have hget : (P ++ U)[P.length + k]? = some U[k] := by
        rw [List.getElem?_append_right (Nat.le_add_right _ _), Nat.add_sub_cancel_left,
          List.getElem?_eq_getElem]
      rw [List.getD, hget]
      exact List.getElem_mem _
    rw [← Nat.add_assoc, firstUnused, if_pos ⟨by omega, hU _ hmem⟩, ih (by omega)]

/-- The fragment's end becomes a free fragment, with a slot of its own. -/
theorem carve_spec {m k : Nat} (t : Slot) (rest : List Slot) :
    carve (slotsOf base pre ++ slotOf (base + total pre) ⟨m + k, false⟩ :: t :: rest) pre.length k =
      slotsOf base (pre ++ [⟨m, false⟩, ⟨k, true⟩]) ++ rest := by
  have hget := getD_mid (slotsOf base pre) (t :: rest)
    (slotOf (base + total pre) ⟨m + k, false⟩) default
  have hset := fun s => set_mid (slotsOf base pre) (t :: rest)
    (slotOf (base + total pre) ⟨m + k, false⟩) s
  rw [length_slotsOf] at hget hset
  have hset' : ∀ (s s' : Slot), (slotsOf base pre ++ s :: t :: rest).set (pre.length + 1) s' =
      slotsOf base pre ++ s :: s' :: rest := by
    intro s s'
    simp
  unfold carve
  dsimp only
  rw [hget, hset, hset', slotsOf_append, List.append_assoc]
  simp only [slotsOf, slotOf, Bool.false_eq_true, if_false, if_true, List.cons_append,
    List.nil_append]
  congr 4
  · omega
  · omega

theorem moveUp_spec {A R : List Slot} (s u : Slot) (hR : R ≠ []) :
    moveUp (A ++ s :: (R ++ u :: U)) (A.length + 1) (A.length + 1 + R.length) =
      A ++ s :: R.head hR :: (R ++ U) := by
  obtain ⟨r, R, rfl⟩ := List.exists_cons_of_ne_nil hR
  have htake : (A ++ s :: (r :: R ++ u :: U)).take (A.length + 1 + 1) = A ++ [s, r] := by
    rw [show A ++ s :: (r :: R ++ u :: U) = (A ++ [s, r]) ++ (R ++ u :: U) by simp,
      show A.length + 1 + 1 = (A ++ [s, r]).length by simp, List.take_left]
  have hdrop : (A ++ s :: (r :: R ++ u :: U)).drop (A.length + 1) = r :: R ++ u :: U := by
    rw [← List.drop_drop, List.drop_left]
    rfl
  have htail : (A ++ s :: (r :: R ++ u :: U)).drop (A.length + 1 + (r :: R).length + 1) = U := by
    rw [Nat.add_assoc, ← List.drop_drop, hdrop, ← List.drop_drop, List.drop_left]
    rfl
  unfold moveUp
  rw [htake, hdrop, htail, Nat.add_sub_cancel_left, List.take_left]
  simp

/-- What `freeze` does to a fragment of `n` bytes: it stays as it is, or becomes one of `m` bytes, and
the other ones are given back. -/
def Frozen (pre post : List Block) (n : Nat) (bs : List Block) (least : Nat) : Prop :=
  bs = pre ++ ⟨n, false⟩ :: post ∨ ∃ m k, m + k = n ∧ 0 < k ∧ least ≤ m ∧
    bs = Blocks.release (pre ++ [⟨m, false⟩]) k post

theorem freeze_spec (base : Nat) {n least : Nat} (hpos : ∀ a ∈ pre ++ ⟨n, false⟩ :: post, 0 < a.len)
    (hU : ∀ s ∈ U, s.length = 0) (hleast : 0 < least) (hle : least ≤ n) :
    ∃ available bs U', freeze (slotsOf base (pre ++ ⟨n, false⟩ :: post) ++ U)
        ((base + total pre : Nat) : Int) ((base + total pre + least : Nat) : Int) =
      ⟨.success, available, slotsOf base bs ++ U'⟩ ∧ (∀ s ∈ U', s.length = 0) ∧
    (slotsOf base bs ++ U').length = (slotsOf base (pre ++ ⟨n, false⟩ :: post) ++ U).length ∧
    Frozen pre post n bs least := by
  simp only [List.forall_mem_append, List.forall_mem_cons] at hpos
  obtain ⟨hpre, hn, hpost⟩ := hpos
  have hn : 0 < n := hn
  obtain ⟨q, hq⟩ : ∃ q, base + total pre = q := ⟨_, rfl⟩
  obtain ⟨rest, hrest⟩ : ∃ rest, slotsOf (q + n) post ++ U = rest := ⟨_, rfl⟩
  have hlayout : slotsOf base (pre ++ ⟨n, false⟩ :: post) ++ U =
      slotsOf base pre ++ slotOf q ⟨n, false⟩ :: rest := by
    rw [slotsOf_append, slotsOf, List.append_assoc, List.cons_append, hq, ← hrest]
  have hidx := findIdx_slotsOf (p := base) hpre (slotOf q ⟨n, false⟩) (by rw [hq]; rfl) rest
  rw [hq] at hidx
  have hne : pre.length ≠ (slotsOf base pre ++ slotOf q ⟨n, false⟩ :: rest).length := by
    simp only [List.length_append, List.length_cons, length_slotsOf]
    omega
  have hget := getD_mid (slotsOf base pre) rest (slotOf q ⟨n, false⟩) default
  rw [length_slotsOf] at hget
  have hlen : (slotOf q ⟨n, false⟩).length = -n := rfl
  have hstart : (slotOf q ⟨n, false⟩).start = q := rfl
  obtain ⟨f, hf⟩ : ∃ f, (n - least) / 2 * 2 = f := ⟨_, rfl⟩
  have hparity : (if ((q : Int) - -n - ((q + least : Nat) : Int)) % 2 = 1 then
      (q : Int) - -n - ((q + least : Nat) : Int) - 1 else (q : Int) - -n - ((q + least : Nat) : Int)) =
      f := by
    split <;> omega
  have hsame : Frozen pre post n (pre ++ ⟨n, false⟩ :: post) least := .inl rfl
  unfold freeze
  dsimp only
  rw [hq, hlayout, hidx, if_neg hne, hget, hlen, hstart, hparity, if_neg (by omega),
    if_neg (by omega)]
  split
  · exact ⟨none, _, U, by rw [hlayout], hU, by rw [hlayout], hsame⟩
  · rename_i hcut
    rw [not_or] at hcut
    obtain ⟨m, hm⟩ : ∃ m, m + f = n := ⟨n - f, by omega⟩
    have hfpos : 0 < f := by omega
    have hcarve : ∀ t rest', carve (slotsOf base pre ++ slotOf q ⟨n, false⟩ :: t :: rest') pre.length
        f = slotsOf base (pre ++ [⟨m, false⟩, ⟨f, true⟩]) ++ rest' := by
      intro t rest'
      rw [← hm, ← hq]
      exact carve_spec t rest'
    have hfrozen : ∀ bs, bs = Blocks.release (pre ++ [⟨m, false⟩]) f post →
        Frozen pre post n bs least := fun bs hbs => .inr ⟨m, f, hm, hfpos, by omega, hbs⟩
    have hnext : ∀ t rest', (slotsOf base pre ++ slotOf q ⟨n, false⟩ :: t :: rest').getD
        (pre.length + 1) default = t := by
      intro t rest'
      simp [List.getD]
    have hset : ∀ s t s' t' rest', ((slotsOf base pre ++ s :: t :: rest').set pre.length s').set
        (pre.length + 1) t' = slotsOf base pre ++ s' :: t' :: rest' := by
      intro s t s' t' rest'
      simp
    cases post with
    | nil =>
      cases U with
      | nil =>
        rw [← hrest] at hcut
        simp [slotsOf] at hcut
      | cons u U =>
        obtain rfl : u :: U = rest := hrest
        have hu : u.length = 0 := hU u (.head _)
        rw [hnext, hu, if_neg (by decide), if_neg (by decide), hcarve]
        refine ⟨_, pre ++ [⟨m, false⟩, ⟨f, true⟩], U, rfl, fun s hs => hU s (.tail _ hs), ?_,
          hfrozen _ ?_⟩
        · simp only [List.length_append, List.length_cons, List.length_nil, length_slotsOf]
          omega
        · rw [Blocks.release, joinPrev_snoc, if_neg Bool.false_ne_true]
    | cons c post =>
      have hc := hpost c (.head _)
      have hrelease : Blocks.release (pre ++ [⟨m, false⟩]) f (c :: post) =
          pre ++ ⟨m, false⟩ :: (if c.free then ⟨f + c.len, true⟩ :: post
            else ⟨f, true⟩ :: c :: post) := by
        rw [Blocks.release]
        split
        · rw [joinPrev_snoc, if_neg Bool.false_ne_true]
        · rw [joinPrev_snoc, if_neg Bool.false_ne_true]
      obtain rfl : slotOf (q + n) c :: (slotsOf (q + n + c.len) post ++ U) = rest := hrest
      rw [hnext]
      cases hfree : c.free with
      | true =>
        rw [hfree, if_pos rfl] at hrelease
        rw [if_pos ((slotOf_free_iff hc).2 hfree), hset]
        have hm' : (⟨q, -n + f⟩ : Slot) = slotOf q ⟨m, false⟩ := by
          simp only [slotOf, Bool.false_eq_true, if_false, Slot.mk.injEq, true_and]
          omega
        have hf' : (⟨(slotOf (q + n) c).start - f, (slotOf (q + n) c).length + f⟩ : Slot) =
            slotOf (q + m) ⟨f + c.len, true⟩ := by
          simp only [slotOf, hfree, if_true, Slot.mk.injEq]
          omega
        have hpost' : slotsOf (q + n + c.len) post = slotsOf (q + m + (f + c.len)) post := by
          rw [show q + m + (f + c.len) = q + n + c.len by omega]
        rw [hm', hf', hpost']
        refine ⟨some ((slotOf (q + n) c).length + f),
          pre ++ ⟨m, false⟩ :: ⟨f + c.len, true⟩ :: post, U, ?_, hU, ?_, hfrozen _ hrelease.symm⟩
        · rw [slotsOf_append, List.append_assoc, slotsOf, slotsOf, List.cons_append,
            List.cons_append, hq]
        · simp only [List.length_append, List.length_cons, length_slotsOf]
          omega
      | false =>
        rw [hfree, if_neg Bool.false_ne_true] at hrelease
        have hneg : (slotOf (q + n) c).length < 0 := by
          simp only [slotOf, hfree, Bool.false_eq_true, if_false]
          omega
        rw [if_neg (by omega), if_pos hneg]
        have hbs : ∀ a ∈ pre ++ ⟨n, false⟩ :: c :: post, 0 < a.len :=
          List.forall_mem_append.2 ⟨hpre, List.forall_mem_cons.2 ⟨hn, hpost⟩⟩
        split
        · exact ⟨none, _, U, by rw [hlayout], hU, by rw [hlayout], hsame⟩
        · rename_i hlast
          -- The last slot is not in use, so there is one to shift into.
          cases U with
          | nil =>
            refine absurd ?_ hlast
            have hall := slotsOf_length_ne base hbs
            rw [← List.append_nil (slotsOf base _), hlayout] at hall
            refine hall _ ?_
            exact getD_mem _ (by simp)
          | cons u U =>
            obtain ⟨R, hR⟩ : ∃ R, slotOf (q + n) c :: slotsOf (q + n + c.len) post = R := ⟨_, rfl⟩
            have hall := slotsOf_length_ne base hbs
            rw [slotsOf_append, slotsOf, hq] at hall
            have hfirst := firstUnused_spec (pre.length + 2)
              (P := slotsOf base pre ++ slotOf q ⟨n, false⟩ :: R) (U := u :: U) (k := (u :: U).length)
              (by rw [← hR]; simp only [List.length_append, List.length_cons, length_slotsOf]; omega)
              (by rw [← hR]; exact hall) hU (Nat.le_refl _)
            have hlist : slotsOf base pre ++ slotOf q ⟨n, false⟩ ::
                (slotOf (q + n) c :: (slotsOf (q + n + c.len) post ++ u :: U)) =
                slotsOf base pre ++ slotOf q ⟨n, false⟩ :: (R ++ u :: U) := by
              rw [← hR, List.cons_append]
            have hend : (slotsOf base pre ++ slotOf q ⟨n, false⟩ :: R).length =
                (slotsOf base pre).length + 1 + R.length := by
              simp only [List.length_append, List.length_cons]
              omega
            have hmove := moveUp_spec (A := slotsOf base pre) (R := R) (U := U)
              (slotOf q ⟨n, false⟩) u (by rw [← hR]; rintro ⟨⟩)
            rw [← List.length_append, List.append_assoc, List.cons_append, hend] at hfirst
            rw [length_slotsOf] at hfirst hmove
            rw [hlist, hfirst, hmove, hcarve]
            refine ⟨some f, pre ++ ⟨m, false⟩ :: ⟨f, true⟩ :: c :: post, U, ?_,
              fun s hs => hU s (.tail _ hs), ?_, hfrozen _ hrelease.symm⟩
            · rw [← hR]
              simp only [slotsOf_append, slotsOf, List.append_assoc, List.cons_append,
                List.nil_append, hq, show q + m + f = q + n by omega]
            · rw [← hR]
              simp only [List.length_append, List.length_cons, length_slotsOf]
              omega

/-! ## The invariant -/

/-- A slot in use is that of a block. -/
theorem slot_split {xs ys : List Slot} {s : Slot} (h : slotsOf p bs ++ U = xs ++ s :: ys)
    (hs : s.length ≠ 0) (hU : ∀ s ∈ U, s.length = 0) : ∃ pre b post, bs = pre ++ b :: post ∧
      xs = slotsOf p pre ∧ s = slotOf (p + total pre) b ∧
      ys = slotsOf (p + total pre + b.len) post ++ U := by
  induction bs generalizing p xs with
  | nil =>
    rw [slotsOf, List.nil_append] at h
    exact absurd (hU s (by rw [h]; simp)) hs
  | cons b bs ih =>
    rw [slotsOf, List.cons_append] at h
    cases xs with
    | nil =>
      obtain ⟨rfl, rfl⟩ := List.cons.inj h
      exact ⟨[], b, bs, rfl, rfl, rfl, rfl⟩
    | cons x xs =>
      obtain ⟨rfl, hrest⟩ := List.cons.inj h
      obtain ⟨pre, b', post, rfl, rfl, rfl, rfl⟩ := ih hrest
      exact ⟨b :: pre, b', post, rfl, rfl, by rw [total_cons, Nat.add_assoc],
        by rw [total_cons, Nat.add_assoc p]⟩

structure Good (base size slotCount : Nat) (bs : List Block) (U : List Slot) (p : Pool) : Prop where
  slots : p.slots = slotsOf base bs ++ U
  unused : ∀ s ∈ U, s.length = 0
  tiled : Tiled 1 size bs
  count : p.slots.length = slotCount
  covered : ∀ f ∈ p.held, ∃ q b, f.start = ((q : Nat) : Int) ∧ UsedAt base bs q b ∧
    f.start < f.fin ∧ f.fin ≤ q + b.len
  holder : ∀ q b, UsedAt base bs q b → (q : Int) ∈ p.held.map Held.start
  nodup : (p.held.map Held.start).Nodup

variable {slotCount : Nat} {t : Pool}

theorem good_start (hcount : 0 < slotCount) : ∃ bs U, Good base size slotCount bs U
    { slots := initializePool base size slotCount, held := [] } := by
  obtain ⟨n, rfl⟩ := Nat.exists_eq_add_of_lt hcount
  have hslots : initializePool base size (0 + n + 1) =
      ⟨base, size⟩ :: List.replicate (0 + n) ⟨0, 0⟩ := by
    rw [initializePool, List.replicate_succ, List.set_cons_zero]
  have hlen : (initializePool base size (0 + n + 1)).length = 0 + n + 1 := by
    rw [hslots]
    simp
  cases size with
  | zero =>
    refine ⟨[], initializePool base 0 (0 + n + 1), rfl, ?_, ⟨rfl, nofun, nofun, .nil⟩, hlen, nofun,
      fun q b hb => absurd hb usedAt_nil, .nil⟩
    rw [hslots]
    simp
  | succ k =>
    refine ⟨[⟨k + 1, true⟩], List.replicate (0 + n) ⟨0, 0⟩, hslots, ?_,
      ⟨rfl, ?_, fun _ _ => Nat.one_dvd _, .singleton _⟩, hlen, nofun, fun q b hb => ?_, .nil⟩
    · simp
    · simp
    · rw [usedAt_true] at hb
      exact absurd hb usedAt_nil

theorem Good.pos (h : Good base size slotCount bs U t) : ∀ b ∈ bs, 0 < b.len := h.tiled.pos

/-- The fragment that is handed out. -/
theorem Good.request (h : Good base size slotCount bs U t) (minimumSize : Nat) :
    ((request t.slots minimumSize).1 = .error .enomem ∧
      (request t.slots minimumSize).2 = t.slots ∧
      ∀ s ∈ t.slots, 0 < s.length → s.length < minimumSize) ∨
    ∃ s ∈ t.slots, 0 < s.length ∧ minimumSize ≤ s.length ∧
      (∀ s' ∈ t.slots, 0 < s'.length → s'.length ≤ s.length) ∧
      (request t.slots minimumSize).1 = .ok (s.start, s.start + s.length) ∧
      ∃ bs', Good base size slotCount bs' U
        { slots := (request t.slots minimumSize).2
          held := ⟨s.start, s.start + s.length⟩ :: t.held } := by
  unfold FragmentPoolImplP.request
  obtain ⟨heq, hlt⟩ | ⟨xs, s, ys, hl, heq, hpos, hle, hmax⟩ :=
    longest_spec t.slots 0 none minimumSize
  · rw [heq]
    exact .inl ⟨rfl, rfl, hlt⟩
  · have hget := getD_mid xs ys s default
    have hset := set_mid xs ys s { s with length := -s.length }
    rw [← hl] at hget hset
    rw [Nat.zero_add] at heq
    rw [heq]
    dsimp only
    rw [hget, hset]
    refine .inr ⟨s, by rw [hl]; simp, hpos, hle, hmax, rfl, ?_⟩
    obtain ⟨pre, b, post, rfl, rfl, rfl, rfl⟩ :=
      slot_split (h.slots.symm.trans hl) (by omega) h.unused
    have hb := h.pos b (by simp)
    have hf := (slotOf_free_iff hb).1 hpos
    have hneg : ({ slotOf (base + total pre) b with
        length := -(slotOf (base + total pre) b).length } : Slot) =
        slotOf (base + total pre) ⟨b.len, false⟩ := by
      simp only [slotOf, hf, if_true, Bool.false_eq_true, if_false]
    have hused : ∀ o c, UsedAt base (pre ++ ⟨b.len, false⟩ :: post) o c ↔
        UsedAt base (pre ++ b :: post) o c ∨ (o = base + total pre ∧ c = ⟨b.len, false⟩) := by
      intro o c
      rw [usedAt_append, usedAt_append, usedAt_free_cons hf, usedAt_cons]
      simp only [and_true]
      tauto
    have hlast : (slotOf (base + total pre) b).start + (slotOf (base + total pre) b).length =
        ((base + total pre : Nat) : Int) + b.len := by
      simp only [slotOf, hf, if_true]
    refine ⟨pre ++ ⟨b.len, false⟩ :: post, ?_, h.unused, h.tiled.take, ?_, ?_, ?_, ?_⟩
    · rw [hneg, slotsOf_append, slotsOf, List.append_assoc, List.cons_append]
    · rw [← h.count, hl]
      simp
    · intro f hf'
      rcases List.mem_cons.1 hf' with rfl | hf'
      · refine ⟨base + total pre, ⟨b.len, false⟩, rfl, (hused _ _).2 (.inr ⟨rfl, rfl⟩), ?_, ?_⟩
        · change (slotOf (base + total pre) b).start < _
          rw [hlast]
          exact Int.lt_add_of_pos_right _ (Int.natCast_pos.2 hb)
        · exact Int.le_of_eq hlast
      · obtain ⟨q, c, hq, hu, hlt⟩ := h.covered f hf'
        exact ⟨q, c, hq, (hused _ _).2 (.inl hu), hlt⟩
    · intro q c hu
      rcases (hused q c).1 hu with hu | ⟨rfl, -⟩
      · exact .tail _ (h.holder q c hu)
      · exact .head _
    · refine List.nodup_cons.2 ⟨fun hmem => ?_, h.nodup⟩
      obtain ⟨f, hf', hstart⟩ := List.mem_map.1 hmem
      obtain ⟨q, c, hq, hu, -⟩ := h.covered f hf'
      obtain rfl : q = base + total pre := by
        have : ((q : Nat) : Int) = ((base + total pre : Nat) : Int) := hq.symm.trans hstart
        omega
      have hat : At base (pre ++ b :: post) (base + total pre) b :=
        at_append.2 (.inr (.inl ⟨rfl, rfl⟩))
      have hfalse := hu.2
      rw [← at_unique h.pos hat hu.1, hf] at hfalse
      cases hfalse

/-- The client's fragment that starts at `q`. -/
theorem Good.find (h : Good base size slotCount bs U t) {start : Int}
    (hmem : start ∈ t.held.map Held.start) : ∃ pre n post, bs = pre ++ ⟨n, false⟩ :: post ∧
      start = ((base + total pre : Nat) : Int) := by
  obtain ⟨f, hf, rfl⟩ := List.mem_map.1 hmem
  obtain ⟨q, ⟨n, free⟩, hq, ⟨hat, hfree⟩, -⟩ := h.covered f hf
  obtain ⟨pre, post, rfl, rfl⟩ := at_split hat
  obtain rfl : free = false := hfree
  exact ⟨pre, n, post, rfl, hq⟩

theorem mem_others {start : Int} {f : Held} : f ∈ t.others start ↔ f ∈ t.held ∧ f.start ≠ start := by
  simp [Pool.others]

theorem mem_map_others {start x : Int} : x ∈ (t.others start).map Held.start ↔
    x ∈ t.held.map Held.start ∧ x ≠ start := by
  simp only [List.mem_map, mem_others]
  constructor
  · rintro ⟨f, ⟨hf, hne⟩, rfl⟩
    exact ⟨⟨f, hf, rfl⟩, hne⟩
  · rintro ⟨⟨f, hf, rfl⟩, hne⟩
    exact ⟨f, ⟨hf, hne⟩, rfl⟩

theorem nodup_others {start : Int} (h : (t.held.map Held.start).Nodup) :
    ((t.others start).map Held.start).Nodup :=
  h.sublist (List.filter_sublist.map _)

/-- A fragment is given back. -/
theorem Good.release (h : Good base size slotCount bs U t) {start : Int}
    (hmem : start ∈ t.held.map Held.start) : ∃ bs' U', Good base size slotCount bs' U'
      { slots := (FragmentPoolImplP.release t.slots start).slots, held := t.others start } := by
  obtain ⟨pre, n, post, rfl, rfl⟩ := h.find hmem
  obtain ⟨merged, U', heq, hU', hlen⟩ := release_spec base h.pos h.unused
  have hused := fun o c => usedAt_release_iff (p := base) (o := o) (c := c) h.pos
  rw [h.slots, heq]
  refine ⟨Blocks.release pre n post, U', rfl, hU', h.tiled.release, ?_, fun f hf => ?_,
    fun q b hb => ?_, nodup_others h.nodup⟩
  · rw [hlen, ← h.slots]
    exact h.count
  · obtain ⟨hf, hne⟩ := mem_others.1 hf
    obtain ⟨q, b, hq, hu, hlt⟩ := h.covered f hf
    refine ⟨q, b, hq, (hused q b).2 ⟨hu, fun he => hne ?_⟩, hlt⟩
    rw [hq, he]
  · obtain ⟨hu, hne⟩ := (hused q b).1 hb
    exact mem_map_others.2 ⟨h.holder q b hu, fun he => hne (by omega)⟩

/-- A frozen fragment keeps its start and as many bytes as it has to; the other fragments in use stay
as they are. -/
theorem Frozen.used (base : Nat) {n least : Nat} {bs' : List Block} (hf : Frozen pre post n bs' least)
    (hle : least ≤ n) (hleast : 0 < least) (ht : Tiled 1 size (pre ++ ⟨n, false⟩ :: post)) :
    Tiled 1 size bs' ∧ (∃ m, least ≤ m ∧ UsedAt base bs' (base + total pre) ⟨m, false⟩) ∧
    ∀ o c, o ≠ base + total pre →
      (UsedAt base bs' o c ↔ UsedAt base (pre ++ ⟨n, false⟩ :: post) o c) := by
  obtain rfl | ⟨m, k, rfl, hk, hm, rfl⟩ := hf
  · exact ⟨ht, ⟨n, hle, usedAt_append.2 (.inr (usedAt_cons.2 (.inl ⟨rfl, rfl, rfl⟩)))⟩,
      fun _ _ _ => Iff.rfl⟩
  · have hcut := ht.cut (by omega) hk (Nat.one_dvd m) (Nat.one_dvd k)
    rw [show pre ++ ⟨m, false⟩ :: ⟨k, false⟩ :: post = (pre ++ [⟨m, false⟩]) ++ ⟨k, false⟩ :: post by
      simp] at hcut
    have hused := fun o c => usedAt_release_iff (p := base) (o := o) (c := c) hcut.pos
    have htotal : base + total (pre ++ [⟨m, false⟩]) = base + total pre + m := by
      simp only [total_append, total_cons, total_nil]
      omega
    refine ⟨hcut.release, ⟨m, hm, ?_⟩, fun o c hne => ?_⟩
    · refine (hused _ _).2 ⟨?_, by rw [htotal]; omega⟩
      rw [List.append_assoc]
      exact usedAt_append.2 (.inr (usedAt_cons.2 (.inl ⟨rfl, rfl, rfl⟩)))
    · rw [hused, List.append_assoc, List.singleton_append, usedAt_append, usedAt_append, usedAt_cons,
        usedAt_cons, usedAt_cons, htotal]
      have hpre : UsedAt base pre o c → o < base + total pre := by
        intro hu
        have hlen := ht.pos c (List.mem_append_left _ (at_mem hu.1))
        have := (at_bounds hu.1).2
        omega
      have hpost : UsedAt (base + total pre + m + k) post o c → base + total pre + m + k ≤ o :=
        fun hu => (at_bounds hu.1).1
      rw [show base + total pre + (m + k) = base + total pre + m + k by omega]
      constructor
      · rintro ⟨hu | ⟨ho, -⟩ | ⟨ho, -⟩ | hu, hne'⟩
        · exact .inl hu
        · exact absurd ho hne
        · exact absurd ho hne'
        · exact .inr (.inr hu)
      · rintro (hu | ⟨ho, -⟩ | hu)
        · have := hpre hu
          exact ⟨.inl hu, by omega⟩
        · exact absurd ho hne
        · have := hpost hu
          exact ⟨.inr (.inr (.inr hu)), by omega⟩

/-- A fragment is frozen up to `fin`. -/
theorem Good.freeze (h : Good base size slotCount bs U t) {start fin : Int}
    (hmem : start ∈ t.held.map Held.start) (hin : t.Inside start fin) (hne : start ≠ fin) :
    ∃ bs' U', Good base size slotCount bs' U'
      { slots := (FragmentPoolImplP.freeze t.slots start fin).slots
        held := ⟨start, fin⟩ :: t.others start } := by
  obtain ⟨pre, n, post, rfl, rfl⟩ := h.find hmem
  obtain ⟨s, hs, hstart, hneg, hle, hfin⟩ := hin
  have hat : At base (pre ++ ⟨n, false⟩ :: post) (base + total pre) ⟨n, false⟩ :=
    at_append.2 (.inr (.inl ⟨rfl, rfl⟩))
  have hlen : s.length = -n := by
    rw [h.slots] at hs
    rcases List.mem_append.1 hs with hs | hs
    · obtain ⟨o, b, hb, rfl⟩ := mem_slotsOf.1 hs
      obtain rfl : o = base + total pre := Int.natCast_inj.1 hstart
      rw [← at_unique h.pos hat hb]
      rfl
    · rw [h.unused s hs] at hneg
      exact absurd hneg (by decide)
  obtain ⟨least, hleast⟩ : ∃ least : Nat, fin = ((base + total pre + least : Nat) : Int) :=
    ⟨(fin - ((base + total pre : Nat) : Int)).toNat, by omega⟩
  subst hleast
  have hpos : 0 < least := by omega
  have hn : least ≤ n := by omega
  obtain ⟨available, bs', U', heq, hU', hcount, hfrozen⟩ :=
    freeze_spec base h.pos h.unused hpos hn
  obtain ⟨htiled, ⟨m, hm, hq⟩, hused⟩ := hfrozen.used base hn hpos h.tiled
  rw [h.slots, heq]
  refine ⟨bs', U', rfl, hU', htiled, ?_, fun f hf => ?_, fun q b hb => ?_, ?_⟩
  · rw [hcount, ← h.slots]
    exact h.count
  · rcases List.mem_cons.1 hf with rfl | hf
    · exact ⟨_, _, rfl, hq, by change ((base + total pre : Nat) : Int) < ((_ : Nat) : Int); omega,
        by change ((_ : Nat) : Int) ≤ ((base + total pre : Nat) : Int) + (m : Int); omega⟩
    · obtain ⟨hf, hne'⟩ := mem_others.1 hf
      obtain ⟨q, b, hq', hu, hlt⟩ := h.covered f hf
      exact ⟨q, b, hq', (hused q b fun he => hne' (by rw [hq', he])).2 hu, hlt⟩
  · by_cases he : q = base + total pre
    · subst he
      exact .head _
    · exact .tail _ (mem_map_others.2 ⟨h.holder q b ((hused q b he).1 hb), by omega⟩)
  · exact List.nodup_cons.2 ⟨fun hm => (mem_map_others.1 hm).2 rfl, nodup_others h.nodup⟩

/-- A fragment that is frozen at its start is released. -/
theorem Good.freeze_self (h : Good base size slotCount bs U t) {start : Int}
    (hmem : start ∈ t.held.map Held.start) : FragmentPoolImplP.freeze t.slots start start =
      FragmentPoolImplP.release t.slots start := by
  obtain ⟨pre, n, post, rfl, rfl⟩ := h.find hmem
  obtain ⟨rest, hrest⟩ : ∃ rest, slotsOf (base + total pre + n) post ++ U = rest := ⟨_, rfl⟩
  have hpre : ∀ a ∈ pre, 0 < a.len := fun a ha => h.pos a (List.mem_append_left _ ha)
  have hidx := findIdx_slotsOf (p := base) hpre (slotOf (base + total pre) ⟨n, false⟩) rfl rest
  have hlayout : slotsOf base (pre ++ ⟨n, false⟩ :: post) ++ U =
      slotsOf base pre ++ slotOf (base + total pre) ⟨n, false⟩ :: rest := by
    rw [slotsOf_append, slotsOf, List.append_assoc, List.cons_append, hrest]
  have hget := getD_mid (slotsOf base pre) rest (slotOf (base + total pre) ⟨n, false⟩) default
  rw [length_slotsOf] at hget
  have hne : pre.length ≠
      (slotsOf base pre ++ slotOf (base + total pre) ⟨n, false⟩ :: rest).length := by
    simp only [List.length_append, List.length_cons, length_slotsOf]
    omega
  have hstart : (slotOf (base + total pre) ⟨n, false⟩).start = ((base + total pre : Nat) : Int) := rfl
  have hlen : (slotOf (base + total pre) ⟨n, false⟩).length = -n := rfl
  rw [h.slots]
  unfold FragmentPoolImplP.freeze
  dsimp only
  rw [hlayout, hidx, if_neg hne, hget, hstart, hlen, if_neg (by omega), if_pos rfl]

theorem Good.step (h : Good base size slotCount bs U t) {e : Event} {t' : Pool}
    (hs : t.step e = some t') : ∃ bs' U', Good base size slotCount bs' U' t' := by
  cases e with
  | request minimumSize =>
    obtain ⟨herr, hslots, -⟩ | ⟨s, -, -, -, -, hok, bs', hgood⟩ := h.request minimumSize
    · simp only [Pool.step, herr, Option.some.injEq] at hs
      subst hs
      rw [hslots]
      exact ⟨bs, U, h⟩
    · simp only [Pool.step, hok, Option.some.injEq] at hs
      subst hs
      exact ⟨bs', U, hgood⟩
  | freeze start fin =>
    obtain ⟨⟨hmem, hin⟩, hs⟩ := Option.ite_none_right_eq_some.1 hs
    obtain rfl := Option.some.inj hs
    by_cases he : start = fin
    · rw [if_pos he]
      rw [← he, h.freeze_self hmem]
      exact h.release hmem
    · rw [if_neg he]
      exact h.freeze hmem hin he
  | release start =>
    obtain ⟨hmem, hs⟩ := Option.ite_none_right_eq_some.1 hs
    obtain rfl := Option.some.inj hs
    exact h.release hmem

/-! ## Integrity -/

/-- The slots lie one behind the other, from `p` to `fin`. -/
def Consecutive : Int → Int → List Slot → Prop
  | p, fin, [] => p = fin
  | p, fin, s :: slots => s.start = p ∧ Consecutive (p + s.length.natAbs) fin slots

theorem consecutive_slotsOf (p : Nat) (bs : List Block) :
    Consecutive p ((p + total bs : Nat) : Int) (slotsOf p bs) := by
  induction bs generalizing p with
  | nil => rfl
  | cons b bs ih =>
    have habs : (slotOf p b).length.natAbs = b.len := by
      simp only [slotOf]
      split
      · exact Int.natAbs_natCast b.len
      · rw [Int.natAbs_neg, Int.natAbs_natCast]
    refine ⟨rfl, ?_⟩
    rw [habs, total_cons, ← Nat.add_assoc]
    exact ih (p + b.len)

theorem apart_slotsOf (p : Nat) (hpos : ∀ b ∈ bs, 0 < b.len) (hc : bs.IsChain Apart) :
    (slotsOf p bs).IsChain fun s t => ¬ (0 < s.length ∧ 0 < t.length) := by
  induction bs generalizing p with
  | nil => exact .nil
  | cons b bs ih =>
    cases bs with
    | nil => exact .singleton _
    | cons c bs =>
      obtain ⟨hbc, hrest⟩ := List.isChain_cons_cons.1 hc
      refine List.isChain_cons_cons.2 ⟨fun hst => hbc ?_, ih _ (fun x hx => hpos x (.tail _ hx)) hrest⟩
      exact ⟨(slotOf_free_iff (hpos b (.head _))).1 hst.1,
        (slotOf_free_iff (hpos c (.tail _ (.head _)))).1 hst.2⟩

/-- What the pool promises its clients. -/
structure Integral (base size slotCount : Nat) (t : Pool) : Prop where
  /-- The slots in use come first and tile the pool, and no two neighbours are both free. -/
  tiles : ∃ used unused, t.slots = used ++ unused ∧ (∀ s ∈ used, s.length ≠ 0) ∧
    (∀ s ∈ unused, s.length = 0) ∧ Consecutive base ((base + size : Nat) : Int) used ∧
    used.IsChain fun s t => ¬ (0 < s.length ∧ 0 < t.length)
  disjoint : t.held.Pairwise fun f g => f.fin ≤ g.start ∨ g.fin ≤ f.start
  /-- What a client holds, up to the end that it has frozen, lies in a fragment in use. -/
  covered : ∀ f ∈ t.held, ∃ s ∈ t.slots, s.start = f.start ∧ s.length < 0 ∧ f.start < f.fin ∧
    f.fin ≤ s.start - s.length
  /-- Without a fragment in use the pool is one free fragment. -/
  whole : t.held = [] →
    t.slots.map Slot.length = (initializePool base size slotCount).map Slot.length ∧
    (0 < size → t.slots.head? = some ⟨base, size⟩)
  /-- `request` takes a largest free fragment, or fails where none is large enough. -/
  requests : ∀ minimumSize,
    ((request t.slots minimumSize).1 = .error .enomem ∧
      ∀ s ∈ t.slots, 0 < s.length → s.length < minimumSize) ∨
    ∃ s ∈ t.slots, 0 < s.length ∧ minimumSize ≤ s.length ∧
      (∀ s' ∈ t.slots, 0 < s'.length → s'.length ≤ s.length) ∧
      (request t.slots minimumSize).1 = .ok (s.start, s.start + s.length)

theorem Good.integral (h : Good base size slotCount bs U t) : Integral base size slotCount t where
  tiles := ⟨slotsOf base bs, U, h.slots, slotsOf_length_ne base h.pos, h.unused,
    by rw [← h.tiled.total_eq]; exact consecutive_slotsOf base bs,
    apart_slotsOf base h.pos h.tiled.apart⟩
  disjoint := by
    have hne := h.nodup
    rw [List.Nodup, List.pairwise_map] at hne
    refine hne.imp_of_mem ?_
    intro f g hf hg hfg
    obtain ⟨q, b, hq, hb, -, hle⟩ := h.covered f hf
    obtain ⟨q', c, hq', hc, -, hle'⟩ := h.covered g hg
    rcases Nat.lt_trichotomy q q' with hlt | rfl | hlt
    · have := at_disjoint hb.1 hc.1 hlt
      omega
    · exact absurd (hq.trans hq'.symm) hfg
    · have := at_disjoint hc.1 hb.1 hlt
      omega
  covered f hf := by
    obtain ⟨q, b, hq, hb, hlt, hle⟩ := h.covered f hf
    have hpos := h.pos b (at_mem hb.1)
    have hlen : (slotOf q b).length = -b.len := by
      simp only [slotOf, hb.2, Bool.false_eq_true, if_false]
    refine ⟨slotOf q b, ?_, hq.symm, ?_, hlt, ?_⟩
    · rw [h.slots]
      exact List.mem_append_left _ (mem_slotsOf.2 ⟨q, b, hb.1, rfl⟩)
    · omega
    · rw [hlen]
      change f.fin ≤ (q : Int) - -b.len
      omega
  whole hheld := by
    have hfree : ∀ b ∈ bs, b.free = true := by
      intro b hb
      obtain ⟨q, hq⟩ := at_of_mem (p := base) hb
      cases hf : b.free with
      | true => rfl
      | false =>
        have := h.holder q b ⟨hq, hf⟩
        rw [hheld] at this
        cases this
    have hcount := h.count
    have hzero : ∀ {n : Nat}, U.length = n → U.map Slot.length = List.replicate n 0 := by
      rintro n rfl
      exact List.map_eq_replicate_iff.2 h.unused
    obtain rfl | hsize := Nat.eq_zero_or_pos size
    · have hbs : bs = [] := by
        have := length_le_total h.pos
        rw [h.tiled.total_eq] at this
        exact List.eq_nil_of_length_eq_zero (Nat.le_zero.1 this)
      rw [h.slots, hbs, slotsOf, List.nil_append] at hcount ⊢
      refine ⟨?_, nofun⟩
      rw [hzero hcount, initializePool]
      cases slotCount with
      | zero => rfl
      | succ n => simp [List.replicate_succ]
    · have hbs := h.tiled.all_free hsize hfree
      rw [h.slots, hbs] at hcount ⊢
      refine ⟨?_, fun _ => rfl⟩
      cases slotCount with
      | zero => simp [slotsOf] at hcount
      | succ n =>
        have hU : U.length = n := by
          simp only [slotsOf, List.length_append, List.length_singleton] at hcount
          omega
        simp [slotsOf, slotOf, initializePool, List.replicate_succ, hzero hU]
  requests minimumSize := by
    obtain ⟨herr, -, hlt⟩ | ⟨s, hs, hpos, hle, hmax, hok, -⟩ := h.request minimumSize
    · exact .inl ⟨herr, hlt⟩
    · exact .inr ⟨s, hs, hpos, hle, hmax, hok⟩

/-- A command that returns an error leaves the slots as they are. -/
structure Unchanged (slots : List Slot) : Prop where
  request : ∀ minimumSize error, (request slots minimumSize).1 = .error error →
    (FragmentPoolImplP.request slots minimumSize).2 = slots
  release : ∀ start, (release slots start).result ≠ .success →
    (FragmentPoolImplP.release slots start).slots = slots
  freeze : ∀ start fin, (freeze slots start fin).result ≠ .success →
    (FragmentPoolImplP.freeze slots start fin).slots = slots

theorem unchanged (slots : List Slot) : Unchanged slots := by
  have hrelease : ∀ start, (release slots start).result ≠ .success →
      (release slots start).slots = slots := by
    intro start h
    unfold release at h ⊢
    dsimp only at h ⊢
    split
    · rfl
    · split
      · rfl
      · rename_i h₁ h₂
        rw [if_neg h₁, if_neg h₂] at h
        exact absurd rfl h
  refine ⟨fun minimumSize error h => ?_, hrelease, fun start fin h => ?_⟩
  · unfold request at h ⊢
    split at h
    · rfl
    · cases h
  · unfold freeze at h ⊢
    dsimp only at h ⊢
    split
    · rfl
    · rename_i h₁
      rw [if_neg h₁] at h
      split
      · rfl
      · rename_i h₂
        rw [if_neg h₂] at h
        split
        · rename_i h₃
          rw [if_pos h₃] at h
          exact hrelease start h
        · rename_i h₃
          rw [if_neg h₃] at h
          refine absurd ?_ h
          repeat' split
          all_goals rfl

/-- **Integrity of the pool**, for every size, every number of slots and every run. -/
theorem fragments_kept (hcount : 0 < slotCount) {h : List (Pool × Event)}
    (hr : (Pool.machine base size slotCount).Run h t) :
    Integral base size slotCount t ∧ Unchanged t.slots := by
  have hgood : (Pool.machine base size slotCount).Inductive fun p =>
      ∃ bs U, Good base size slotCount bs U p := by
    refine ⟨fun p hp => ?_, fun p e p' hp hs => ?_⟩
    · cases hp
      exact good_start hcount
    · obtain ⟨bs, U, hp⟩ := hp
      exact hp.step hs
  obtain ⟨bs, U, ht⟩ := hr.inv hgood
  exact ⟨ht.integral, unchanged _⟩

/-- Three fragments, of which the first one was released. -/
theorem fragments_kept_three : ∃ h t, (Pool.machine 100 64 4).Run h t ∧
    t.slots.map Slot.length = [8, -22, -34, 0] ∧ Integral 100 64 4 t ∧ Unchanged t.slots := by
  obtain ⟨h, t, hr, ht⟩ := Machine.exists_run_of_exec (M := Pool.machine 100 64 4)
    (s := { slots := initializePool 100 64 4, held := [] }) rfl
    [.request 10, .freeze 100 108, .request 10, .freeze 108 130, .request 1, .release 100]
    (fun _ t => decide (t.slots.map Slot.length = [8, -22, -34, 0])) (by decide)
  exact ⟨h, t, hr, of_decide_eq_true ht, fragments_kept (by decide) hr⟩

end FragmentPoolImplP
