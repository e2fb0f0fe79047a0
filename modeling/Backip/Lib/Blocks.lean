import Mathlib.Algebra.GroupWithZero.Nat
import Mathlib.Data.List.Basic
import Mathlib.Data.List.Chain

/-!
# Regions tiled by blocks

An allocator with boundary tags divides a region into blocks that lie one behind the other, each
free or in use. `At p bs o b`: of the blocks `bs`, laid out from `p` on, `b` starts at `o`.
`Tiled align size bs`: the blocks fill `size` bytes, none is empty, their lengths are multiples of
`align`, and no two neighbours are both free.

The rules are `Tiled.split` (a part of a free block is taken) and `Tiled.release` (a block is
given back and joined to its free neighbours), each with what it does to the blocks in use
(`usedAt_split`, `usedAt_release`). `Tagged view p bs` connects the blocks with a memory: `view`
reads the tag at an offset.
-/

set_option autoImplicit false

structure Block where
  len : Nat
  free : Bool
deriving DecidableEq, Repr

namespace Blocks

variable {p o o' : Nat} {b c : Block} {bs xs ys pre post : List Block}

def total (bs : List Block) : Nat := (bs.map Block.len).sum

@[simp] theorem total_nil : total [] = 0 := rfl

@[simp] theorem total_cons : total (b :: bs) = b.len + total bs := rfl

@[simp] theorem total_append : total (xs ++ ys) = total xs + total ys := by
  simp [total]

/-! ## Offsets -/

def At : Nat → List Block → Nat → Block → Prop
  | _, [], _, _ => False
  | p, b :: bs, o, c => (o = p ∧ c = b) ∨ At (p + b.len) bs o c

@[simp] theorem at_nil : ¬ At p [] o c := id

@[simp] theorem at_cons : At p (b :: bs) o c ↔ (o = p ∧ c = b) ∨ At (p + b.len) bs o c := Iff.rfl

theorem at_append : At p (xs ++ ys) o c ↔ At p xs o c ∨ At (p + total xs) ys o c := by
  induction xs generalizing p with
  | nil => simp
  | cons x xs ih => simp [ih, Nat.add_assoc, or_assoc]

theorem at_mem (h : At p bs o c) : c ∈ bs := by
  induction bs generalizing p with
  | nil => cases h
  | cons b bs ih =>
    rcases h with ⟨-, rfl⟩ | h
    · exact .head _
    · exact .tail _ (ih h)

theorem at_of_mem (h : c ∈ bs) : ∃ o, At p bs o c := by
  induction bs generalizing p with
  | nil => cases h
  | cons b bs ih =>
    rcases List.mem_cons.1 h with rfl | h
    · exact ⟨p, .inl ⟨rfl, rfl⟩⟩
    · exact (ih h).imp fun _ h => .inr h

theorem at_split (h : At p bs o c) : ∃ pre post, bs = pre ++ c :: post ∧ o = p + total pre := by
  induction bs generalizing p with
  | nil => cases h
  | cons b bs ih =>
    rcases h with ⟨rfl, rfl⟩ | h
    · exact ⟨[], bs, rfl, rfl⟩
    · obtain ⟨pre, post, rfl, rfl⟩ := ih h
      exact ⟨b :: pre, post, rfl, by rw [total_cons, Nat.add_assoc]⟩

theorem at_bounds (h : At p bs o c) : p ≤ o ∧ o + c.len ≤ p + total bs := by
  induction bs generalizing p with
  | nil => cases h
  | cons b bs ih =>
    rcases h with ⟨rfl, rfl⟩ | h
    · simp
    · have := ih h
      simp only [total_cons]
      omega

/-- Of two blocks the one that starts first ends before the other starts. -/
theorem at_disjoint (h : At p bs o b) (h' : At p bs o' c) (hlt : o < o') : o + b.len ≤ o' := by
  induction bs generalizing p with
  | nil => cases h
  | cons a bs ih =>
    rcases h with ⟨rfl, rfl⟩ | h <;> rcases h' with ⟨rfl, rfl⟩ | h'
    · omega
    · exact (at_bounds h').1
    · have := (at_bounds h).1
      omega
    · exact ih h h'

theorem at_unique (hpos : ∀ a ∈ bs, 0 < a.len) (h : At p bs o b) (h' : At p bs o c) : b = c := by
  induction bs generalizing p with
  | nil => cases h
  | cons a bs ih =>
    have ha := hpos a (.head _)
    rcases h with ⟨ho, rfl⟩ | h <;> rcases h' with ⟨ho', rfl⟩ | h'
    · rfl
    · have := (at_bounds h').1
      omega
    · have := (at_bounds h).1
      omega
    · exact ih (fun x hx => hpos x (.tail _ hx)) h h'

theorem length_le_total (hpos : ∀ a ∈ bs, 0 < a.len) : bs.length ≤ total bs := by
  induction bs with
  | nil => exact Nat.le_refl 0
  | cons a bs ih =>
    have ha := hpos a (.head _)
    have := ih fun x hx => hpos x (.tail _ hx)
    simp only [List.length_cons, total_cons]
    omega

/-- A block in use starts at `o`. -/
def UsedAt (p : Nat) (bs : List Block) (o : Nat) (b : Block) : Prop := At p bs o b ∧ b.free = false

@[simp] theorem usedAt_nil : ¬ UsedAt p [] o c := fun h => h.1

theorem usedAt_append : UsedAt p (xs ++ ys) o c ↔
    UsedAt p xs o c ∨ UsedAt (p + total xs) ys o c := by
  simp [UsedAt, at_append, or_and_right]

theorem usedAt_cons : UsedAt p (b :: bs) o c ↔
    (o = p ∧ c = b ∧ b.free = false) ∨ UsedAt (p + b.len) bs o c := by
  simp only [UsedAt, at_cons, or_and_right]
  constructor
  · rintro (⟨⟨ho, rfl⟩, hf⟩ | h)
    · exact .inl ⟨ho, rfl, hf⟩
    · exact .inr h
  · rintro (⟨ho, rfl, hf⟩ | h)
    · exact .inl ⟨⟨ho, rfl⟩, hf⟩
    · exact .inr h

/-- Free blocks are only passed over. -/
theorem usedAt_free_cons (hb : b.free = true) :
    UsedAt p (b :: bs) o c ↔ UsedAt (p + b.len) bs o c := by
  simp [usedAt_cons, hb]

theorem usedAt_true {n : Nat} : UsedAt p (⟨n, true⟩ :: bs) o c ↔ UsedAt (p + n) bs o c :=
  usedAt_free_cons rfl

/-! ## Tilings -/

/-- `a` and the block behind it are not both free. -/
def Apart (a b : Block) : Prop := ¬ (a.free = true ∧ b.free = true)

structure Tiled (align size : Nat) (bs : List Block) : Prop where
  total_eq : total bs = size
  pos : ∀ b ∈ bs, 0 < b.len
  aligned : ∀ b ∈ bs, align ∣ b.len
  apart : bs.IsChain Apart

variable {align size : Nat}

/-- Without a block in use the region is one free block. -/
theorem Tiled.all_free (h : Tiled align size bs) (hs : 0 < size)
    (hf : ∀ b ∈ bs, b.free = true) : bs = [⟨size, true⟩] := by
  obtain ⟨ht, -, -, hc⟩ := h
  match bs, ht, hc, hf with
  | [], ht, _, _ =>
    simp only [total_nil] at ht
    omega
  | [⟨n, f⟩], ht, _, hf =>
    have hf' : f = true := hf ⟨n, f⟩ (.head _)
    simp only [total_cons, total_nil, Nat.add_zero] at ht
    rw [ht, hf']
  | a :: b :: _, _, hc, hf =>
    exact absurd ⟨hf a (.head _), hf b (.tail _ (.head _))⟩ (List.isChain_cons_cons.1 hc).1

/-- The front of a free block is taken. -/
theorem Tiled.split {m n : Nat} (h : Tiled align size (pre ++ b :: post)) (hb : b.free = true)
    (hlen : m + n = b.len) (hm : 0 < m) (hn : 0 < n) (hma : align ∣ m) (hna : align ∣ n) :
    Tiled align size (pre ++ ⟨m, false⟩ :: ⟨n, true⟩ :: post) := by
  obtain ⟨ht, hpos, hal, hc⟩ := h
  refine ⟨?_, ?_, ?_, ?_⟩
  · simp only [total_append, total_cons] at ht ⊢
    omega
  · simp only [List.forall_mem_append, List.forall_mem_cons] at hpos ⊢
    exact ⟨hpos.1, hm, hn, hpos.2.2⟩
  · simp only [List.forall_mem_append, List.forall_mem_cons] at hal ⊢
    exact ⟨hal.1, hma, hna, hal.2.2⟩
  · obtain ⟨hpre, hrest, -⟩ := List.isChain_append.1 hc
    refine List.isChain_append.2 ⟨hpre, ?_, ?_⟩
    · refine List.isChain_cons_cons.2 ⟨by simp [Apart], ?_⟩
      cases post with
      | nil => exact .singleton _
      | cons a post =>
        obtain ⟨hba, hpost⟩ := List.isChain_cons_cons.1 hrest
        exact List.isChain_cons_cons.2 ⟨fun hab => hba ⟨hb, hab.2⟩, hpost⟩
    · rintro x - y hy
      simp only [List.head?_cons, Option.mem_def, Option.some.injEq] at hy
      subst hy
      simp [Apart]

/-- A free block is taken as a whole. -/
theorem Tiled.take (h : Tiled align size (pre ++ b :: post)) :
    Tiled align size (pre ++ ⟨b.len, false⟩ :: post) := by
  obtain ⟨ht, hpos, hal, hc⟩ := h
  refine ⟨?_, ?_, ?_, ?_⟩
  · simpa only [total_append, total_cons] using ht
  · simpa only [List.forall_mem_append, List.forall_mem_cons] using hpos
  · simpa only [List.forall_mem_append, List.forall_mem_cons] using hal
  · obtain ⟨hpre, hrest, -⟩ := List.isChain_append.1 hc
    refine List.isChain_append.2 ⟨hpre, ?_, ?_⟩
    · cases post with
      | nil => exact .singleton _
      | cons a post =>
        exact List.isChain_cons_cons.2 ⟨by simp [Apart], (List.isChain_cons_cons.1 hrest).2⟩
    · rintro x - y hy
      obtain rfl : Block.mk b.len false = y := by simpa using hy
      simp [Apart]

/-- A block in use becomes two. -/
theorem Tiled.cut {m n : Nat} (h : Tiled align size (pre ++ ⟨m + n, false⟩ :: post)) (hm : 0 < m)
    (hn : 0 < n) (hma : align ∣ m) (hna : align ∣ n) :
    Tiled align size (pre ++ ⟨m, false⟩ :: ⟨n, false⟩ :: post) := by
  obtain ⟨ht, hpos, hal, hc⟩ := h
  refine ⟨?_, ?_, ?_, ?_⟩
  · simp only [total_append, total_cons] at ht ⊢
    omega
  · simp only [List.forall_mem_append, List.forall_mem_cons] at hpos ⊢
    exact ⟨hpos.1, hm, hn, hpos.2.2⟩
  · simp only [List.forall_mem_append, List.forall_mem_cons] at hal ⊢
    exact ⟨hal.1, hma, hna, hal.2.2⟩
  · obtain ⟨hpre, hrest, -⟩ := List.isChain_append.1 hc
    refine List.isChain_append.2 ⟨hpre, List.isChain_cons_cons.2 ⟨by simp [Apart], ?_⟩, ?_⟩
    · cases post with
      | nil => exact .singleton _
      | cons a post =>
        exact List.isChain_cons_cons.2 ⟨by simp [Apart], (List.isChain_cons_cons.1 hrest).2⟩
    · rintro x - y hy
      obtain rfl : Block.mk m false = y := by simpa using hy
      simp [Apart]

theorem usedAt_split {m n : Nat} (hb : b.free = true) (hlen : m + n = b.len) :
    UsedAt p (pre ++ ⟨m, false⟩ :: ⟨n, true⟩ :: post) o c ↔
      UsedAt p (pre ++ b :: post) o c ∨ (o = p + total pre ∧ c = ⟨m, false⟩) := by
  rw [usedAt_append, usedAt_append, usedAt_free_cons hb, usedAt_cons, usedAt_true,
    show p + total pre + m + n = p + total pre + b.len by omega]
  constructor
  · rintro (h | ⟨ho, hc, -⟩ | h)
    · exact .inl (.inl h)
    · exact .inr ⟨ho, hc⟩
    · exact .inl (.inr h)
  · rintro ((h | h) | ⟨ho, hc⟩)
    · exact .inl h
    · exact .inr (.inr h)
    · exact .inr (.inl ⟨ho, hc, rfl⟩)

/-! ## Giving a block back -/

/-- A free block of `n` bytes behind `pre`, joined to the last of these if it is free. -/
def joinPrev (pre : List Block) (n : Nat) (post : List Block) : List Block :=
  match pre with
  | [] => ⟨n, true⟩ :: post
  | [a] => if a.free then ⟨a.len + n, true⟩ :: post else a :: ⟨n, true⟩ :: post
  | a :: a' :: pre => a :: joinPrev (a' :: pre) n post

/-- A block of `n` bytes between `pre` and `post` is given back. -/
def release (pre : List Block) (n : Nat) (post : List Block) : List Block :=
  match post with
  | [] => joinPrev pre n []
  | c :: post' => if c.free then joinPrev pre (n + c.len) post' else joinPrev pre n (c :: post')

theorem joinPrev_snoc {a : Block} {n : Nat} : joinPrev (pre ++ [a]) n post =
    if a.free then pre ++ ⟨a.len + n, true⟩ :: post else pre ++ a :: ⟨n, true⟩ :: post := by
  induction pre with
  | nil => rfl
  | cons x pre ih =>
    cases pre with
    | nil => simp only [List.nil_append, List.cons_append, joinPrev] at ih ⊢; split <;> rfl
    | cons y pre =>
      simp only [List.cons_append, joinPrev] at ih ⊢
      rw [ih]
      split <;> rfl

/-- The blocks in use are those of before, without the one given back. -/
theorem usedAt_joinPrev {n : Nat} : UsedAt p (joinPrev pre n post) o c ↔
    UsedAt p pre o c ∨ UsedAt (p + total pre + n) post o c := by
  obtain rfl | ⟨pre, a, rfl⟩ := pre.eq_nil_or_concat'
  · rw [joinPrev, usedAt_true]
    simp
  · rw [joinPrev_snoc, usedAt_append]
    split
    · rename_i ha
      rw [usedAt_append, usedAt_true, usedAt_free_cons ha]
      simp [Nat.add_assoc]
    · rw [usedAt_append, usedAt_cons (b := a), usedAt_cons (b := a), usedAt_true]
      simp [Nat.add_assoc, or_assoc]

theorem usedAt_release {n : Nat} : UsedAt p (release pre n post) o c ↔
    UsedAt p pre o c ∨ UsedAt (p + total pre + n) post o c := by
  unfold release
  split
  · exact usedAt_joinPrev
  · split
    · rename_i hc
      rw [usedAt_joinPrev, usedAt_free_cons hc, Nat.add_assoc _ n]
    · exact usedAt_joinPrev

/-- Giving a block back leaves the other blocks in use where they are. -/
theorem usedAt_release_iff (hpos : ∀ a ∈ pre ++ b :: post, 0 < a.len) :
    UsedAt p (release pre b.len post) o c ↔
      UsedAt p (pre ++ b :: post) o c ∧ o ≠ p + total pre := by
  have hb : 0 < b.len := hpos b (List.mem_append.2 (.inr (.head _)))
  have hpre : ∀ a ∈ pre, 0 < a.len := fun a ha => hpos a (List.mem_append.2 (.inl ha))
  rw [usedAt_release, usedAt_append, usedAt_cons]
  constructor
  · rintro (h | h)
    · have hlen := hpre c (at_mem h.1)
      have := (at_bounds h.1).2
      exact ⟨.inl h, by omega⟩
    · have := (at_bounds h.1).1
      exact ⟨.inr (.inr h), by omega⟩
  · rintro ⟨h | ⟨ho, -⟩ | h, hne⟩
    · exact .inl h
    · exact absurd ho hne
    · exact .inr h

theorem total_joinPrev {n : Nat} : total (joinPrev pre n post) = total pre + n + total post := by
  obtain rfl | ⟨pre, a, rfl⟩ := pre.eq_nil_or_concat'
  · simp [joinPrev]
  · rw [joinPrev_snoc]
    split <;> simp <;> omega

/-- What holds of all lengths and of the sums of two of them still holds of all lengths. -/
theorem joinPrev_len {n : Nat} {Q : Nat → Prop} (hadd : ∀ i j, Q i → Q j → Q (i + j))
    (hpre : ∀ a ∈ pre, Q a.len) (hn : Q n) (hpost : ∀ a ∈ post, Q a.len) :
    ∀ a ∈ joinPrev pre n post, Q a.len := by
  obtain rfl | ⟨pre, x, rfl⟩ := pre.eq_nil_or_concat'
  · simp only [joinPrev, List.forall_mem_cons]
    exact ⟨hn, hpost⟩
  · rw [joinPrev_snoc]
    simp only [List.forall_mem_append, List.forall_mem_singleton] at hpre
    split
    · simp only [List.forall_mem_append, List.forall_mem_cons]
      exact ⟨hpre.1, hadd _ _ hpre.2 hn, hpost⟩
    · simp only [List.forall_mem_append, List.forall_mem_cons]
      exact ⟨hpre.1, hpre.2, hn, hpost⟩

theorem joinPrev_apart {n : Nat} (hpre : pre.IsChain Apart) (hpost : post.IsChain Apart)
    (hhead : ∀ c ∈ post.head?, c.free = false) : (joinPrev pre n post).IsChain Apart := by
  have hfront (k : Nat) : (Block.mk k true :: post).IsChain Apart := by
    cases post with
    | nil => exact .singleton _
    | cons c post => exact List.isChain_cons_cons.2 ⟨by simp [Apart, hhead c rfl], hpost⟩
  obtain rfl | ⟨pre, x, rfl⟩ := pre.eq_nil_or_concat'
  · exact hfront n
  · rw [joinPrev_snoc]
    obtain ⟨hpre', -, hlast⟩ := List.isChain_append.1 hpre
    split
    · rename_i hx
      refine List.isChain_append.2 ⟨hpre', hfront _, ?_⟩
      rintro y hy z hz
      obtain rfl : Block.mk (x.len + n) true = z := by simpa using hz
      exact fun h => hlast y hy x rfl ⟨h.1, hx⟩
    · rename_i hx
      refine List.isChain_append.2 ⟨hpre', List.isChain_cons_cons.2 ⟨fun h => hx h.1, hfront n⟩, ?_⟩
      rintro y hy z hz
      obtain rfl : x = z := by simpa using hz
      exact hlast y hy x rfl

/-- A block is given back: it is joined to its free neighbours. -/
theorem Tiled.release (h : Tiled align size (pre ++ b :: post)) :
    Tiled align size (release pre b.len post) := by
  obtain ⟨ht, hpos, hal, hc⟩ := h
  simp only [total_append, total_cons] at ht
  simp only [List.forall_mem_append, List.forall_mem_cons] at hpos hal
  obtain ⟨hpre, hrest, -⟩ := List.isChain_append.1 hc
  have hpost := hrest.tail
  have hposAdd : ∀ i j : Nat, 0 < i → 0 < j → 0 < i + j := fun _ _ hi _ => Nat.add_pos_left hi _
  have halAdd : ∀ i j : Nat, align ∣ i → align ∣ j → align ∣ i + j := fun _ _ => Nat.dvd_add
  cases post with
  | nil =>
    exact ⟨by rw [Blocks.release, total_joinPrev, ← ht, Nat.add_assoc],
      joinPrev_len hposAdd hpos.1 hpos.2.1 hpos.2.2, joinPrev_len halAdd hal.1 hal.2.1 hal.2.2,
      joinPrev_apart hpre hpost (by simp)⟩
  | cons c post =>
    simp only [List.forall_mem_cons, total_cons] at hpos hal ht
    obtain ⟨hppos, hbpos, hcpos, hspos⟩ := hpos
    obtain ⟨hpal, hbal, hcal, hsal⟩ := hal
    simp only [Blocks.release]
    split
    · rename_i hcf
      refine ⟨by rw [total_joinPrev, ← ht]; omega,
        joinPrev_len hposAdd hppos (hposAdd _ _ hbpos hcpos) hspos,
        joinPrev_len halAdd hpal (halAdd _ _ hbal hcal) hsal,
        joinPrev_apart hpre hpost.tail ?_⟩
      intro d hd
      cases post with
      | nil => cases hd
      | cons e post =>
        obtain rfl : e = d := by simpa using hd
        exact Bool.eq_false_iff.2 fun he => (List.isChain_cons_cons.1 hpost).1 ⟨hcf, he⟩
    · rename_i hcf
      refine ⟨by rw [total_joinPrev, total_cons, ← ht]; omega,
        joinPrev_len hposAdd hppos hbpos (List.forall_mem_cons.2 ⟨hcpos, hspos⟩),
        joinPrev_len halAdd hpal hbal (List.forall_mem_cons.2 ⟨hcal, hsal⟩),
        joinPrev_apart hpre hpost ?_⟩
      intro d hd
      obtain rfl : c = d := by simpa using hd
      exact Bool.eq_false_iff.2 hcf

/-! ## Tags -/

/-- `view` reads the tag at an offset: at each block's start it is the block's. -/
def Tagged (view : Nat → Block) (p : Nat) (bs : List Block) : Prop :=
  ∀ o b, At p bs o b → view o = b

variable {view view' : Nat → Block}

theorem tagged_cons : Tagged view p (b :: bs) ↔ view p = b ∧ Tagged view (p + b.len) bs := by
  constructor
  · intro h
    exact ⟨h p b (.inl ⟨rfl, rfl⟩), fun o c hc => h o c (.inr hc)⟩
  · rintro ⟨hp, h⟩ o c (⟨rfl, rfl⟩ | hc)
    · exact hp
    · exact h o c hc

theorem tagged_append : Tagged view p (xs ++ ys) ↔
    Tagged view p xs ∧ Tagged view (p + total xs) ys := by
  constructor
  · intro h
    exact ⟨fun o c hc => h o c (at_append.2 (.inl hc)), fun o c hc => h o c (at_append.2 (.inr hc))⟩
  · rintro ⟨hx, hy⟩ o c hc
    exact (at_append.1 hc).elim (hx o c) (hy o c)

theorem tagged_nil : Tagged view p [] := fun _ _ h => h.elim

theorem Tagged.congr (h : Tagged view p bs) (he : ∀ o b, At p bs o b → view' o = view o) :
    Tagged view' p bs := fun o b hb => (he o b hb).trans (h o b hb)

end Blocks
