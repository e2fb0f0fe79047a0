import Mathlib.Logic.Function.Basic
import Mathlib.Tactic.ByContra

/-!
# Queues linked through a table

A queue of distinct identifiers that needs one cell for each of them: `next a` is the identifier
behind `a`. The sentinel `no` stands for the end of the queue, and for not being queued at all.

`Represents no q l` says that the links `q` hold the list `l`. The operations from the links alone
are those of the list: `waiting_iff` (membership), `Represents.push` (an identifier that is not
queued goes to the end), `Represents.pop_cons` and `Represents.pop_nil` (the first one comes out).
-/

set_option autoImplicit false

structure LinkedQueue (α : Type) where
  head : α
  tail : α
  next : α → α

namespace LinkedQueue

variable {α : Type} [DecidableEq α]

/-! ## The operations -/

def empty (no : α) : LinkedQueue α := ⟨no, no, fun _ => no⟩

/-- Whether `a` is queued: something is behind it, or it is the last one. -/
def waiting (no : α) (q : LinkedQueue α) (a : α) : Bool := q.next a ≠ no ∨ q.tail = a

def push (no : α) (q : LinkedQueue α) (a : α) : LinkedQueue α :=
  if q.head = no then { q with head := a, tail := a }
  else { q with next := Function.update q.next q.tail a, tail := a }

/-- Takes the first identifier out (`no`: there is none). -/
def pop (no : α) (q : LinkedQueue α) : α × LinkedQueue α :=
  if q.head ≠ no then
    let head := q.next q.head
    (q.head,
      { head := head
        tail := if head = no then no else q.tail
        next := Function.update q.next q.head no })
  else (no, q)

/-! ## The list -/

/-- From `a` on the links lead through the list, and end. -/
def Linked (no : α) (next : α → α) : α → List α → Prop
  | a, [] => a = no
  | a, b :: l => a = b ∧ b ≠ no ∧ Linked no next (next b) l

/-- The links hold the list. -/
structure Represents (no : α) (q : LinkedQueue α) (l : List α) : Prop where
  linked : Linked no q.next q.head l
  tail : q.tail = l.getLast?.getD no
  nodup : l.Nodup
  off : ∀ a, a ∉ l → q.next a = no

variable {no a b t : α} {next next' : α → α} {q : LinkedQueue α} {l : List α}

theorem represents_empty (no : α) : Represents no (empty no) [] :=
  ⟨rfl, rfl, .nil, fun _ _ => rfl⟩

theorem Linked.congr (h : Linked no next b l) (heq : ∀ a ∈ l, next' a = next a) :
    Linked no next' b l := by
  induction l generalizing b with
  | nil => exact h
  | cons c l ih =>
    obtain ⟨hb, hc, hl⟩ := h
    refine ⟨hb, hc, ?_⟩
    rw [heq c (.head _)]
    exact ih hl fun a ha => heq a (.tail _ ha)

theorem Linked.ne_no (h : Linked no next b l) (ha : a ∈ l) : a ≠ no := by
  induction l generalizing b with
  | nil => cases ha
  | cons c l ih =>
    rcases List.mem_cons.1 ha with rfl | ha
    · exact h.2.1
    · exact ih h.2.2 ha

/-- Behind an identifier of the list is another one, or it is the last. -/
theorem Linked.next_or_last (h : Linked no next b l) (ha : a ∈ l) :
    next a ≠ no ∨ l.getLast? = some a := by
  induction l generalizing b with
  | nil => cases ha
  | cons c l ih =>
    obtain ⟨-, -, hl⟩ := h
    cases l with
    | nil =>
      obtain rfl := List.mem_singleton.1 ha
      exact .inr rfl
    | cons d l =>
      rcases List.mem_cons.1 ha with rfl | ha
      · left
        rw [hl.1]
        exact hl.2.1
      · rw [List.getLast?_cons_cons]
        exact ih hl ha

theorem Represents.head_eq_no (h : Represents no q l) : q.head = no ↔ l = [] := by
  cases l with
  | nil => exact iff_of_true h.linked rfl
  | cons a l =>
    obtain ⟨ha, hno, -⟩ := h.linked
    rw [ha]
    exact iff_of_false hno nofun

/-- **Membership from the links.** -/
theorem Represents.waiting_iff (h : Represents no q l) (ha : a ≠ no) :
    waiting no q a = true ↔ a ∈ l := by
  simp only [waiting, decide_eq_true_eq]
  constructor
  · rintro (hnext | htail)
    · by_contra hmem
      exact hnext (h.off a hmem)
    · rw [h.tail] at htail
      cases hlast : l.getLast? with
      | none =>
        rw [hlast] at htail
        exact absurd htail.symm ha
      | some t =>
        rw [hlast] at htail
        obtain rfl : t = a := htail
        exact List.mem_of_getLast? hlast
  · intro hmem
    refine (h.linked.next_or_last hmem).imp_right fun hlast => ?_
    rw [h.tail, hlast]
    rfl

/-! ## Push -/

theorem Linked.snoc (h : Linked no next b l) (hlast : l.getLast? = some t) (hnodup : l.Nodup)
    (ha : a ≠ no) (hmem : a ∉ l) (hnext : next a = no) :
    Linked no (Function.update next t a) b (l ++ [a]) := by
  induction l generalizing b with
  | nil => cases hlast
  | cons c l ih =>
    obtain ⟨hb, hc, hl⟩ := h
    refine ⟨hb, hc, ?_⟩
    cases l with
    | nil =>
      obtain rfl : c = t := Option.some.inj hlast
      rw [Function.update_self]
      refine ⟨rfl, ha, ?_⟩
      have hac : a ≠ c := fun h => hmem (List.mem_singleton.2 h)
      rw [Function.update_of_ne hac]
      exact hnext
    | cons d l =>
      rw [List.getLast?_cons_cons] at hlast
      have hct : c ≠ t := fun h => (List.nodup_cons.1 hnodup).1 (h ▸ List.mem_of_getLast? hlast)
      rw [Function.update_of_ne hct]
      exact ih hl hlast (List.nodup_cons.1 hnodup).2 fun h => hmem (.tail _ h)

/-- **Push**: an identifier that is not queued goes to the end. -/
theorem Represents.push (h : Represents no q l) (ha : a ≠ no) (hmem : a ∉ l) :
    Represents no (q.push no a) (l ++ [a]) := by
  have hnodup : (l ++ [a]).Nodup := by
    refine List.nodup_append.2 ⟨h.nodup, by simp, fun b hb c hc hbc => ?_⟩
    obtain rfl := List.mem_singleton.1 hc
    exact hmem (hbc ▸ hb)
  unfold LinkedQueue.push
  split
  · rename_i hhead
    obtain rfl := h.head_eq_no.1 hhead
    exact ⟨⟨rfl, ha, h.off a hmem⟩, rfl, hnodup, fun b _ => h.off b nofun⟩
  · rename_i hhead
    obtain ⟨t, ht⟩ : ∃ t, l.getLast? = some t := by
      cases hlast : l.getLast? with
      | none => exact absurd (h.head_eq_no.2 (List.getLast?_eq_none_iff.1 hlast)) hhead
      | some t => exact ⟨t, rfl⟩
    have htail : q.tail = t := by
      rw [h.tail, ht]
      rfl
    rw [htail]
    refine ⟨h.linked.snoc ht h.nodup ha hmem (h.off a hmem), by simp, hnodup, fun b hb => ?_⟩
    have hbt : b ≠ t := fun hbt =>
      hb (List.mem_append_left _ (hbt ▸ List.mem_of_getLast? ht))
    dsimp only
    rw [Function.update_of_ne hbt]
    exact h.off b fun hbl => hb (List.mem_append_left _ hbl)

/-! ## Pop -/

/-- **Pop** from a queue that holds something. -/
theorem Represents.pop_cons (h : Represents no q (a :: l)) :
    (q.pop no).1 = a ∧ Represents no (q.pop no).2 l := by
  obtain ⟨hhead, ha, hl⟩ := h.linked
  obtain ⟨hmem, hnodup⟩ := List.nodup_cons.1 h.nodup
  unfold pop
  rw [if_pos (by rw [hhead]; exact ha), hhead]
  refine ⟨rfl, ?_, ?_, hnodup, fun b hb => ?_⟩
  · refine hl.congr fun b hb => ?_
    have hba : b ≠ a := fun h => hmem (h ▸ hb)
    exact Function.update_of_ne hba ..
  · dsimp only
    cases l with
    | nil => exact if_pos hl
    | cons c l =>
      rw [if_neg (by rw [hl.1]; exact hl.2.1), h.tail, List.getLast?_cons_cons]
  · by_cases hba : b = a
    · rw [hba]
      exact Function.update_self ..
    · dsimp only
      rw [Function.update_of_ne hba]
      exact h.off b fun hbl => (List.mem_cons.1 hbl).elim hba hb

/-- Pop from an empty queue. -/
theorem Represents.pop_nil (h : Represents no q []) : q.pop no = (no, q) :=
  if_neg (not_not_intro h.linked)

end LinkedQueue
