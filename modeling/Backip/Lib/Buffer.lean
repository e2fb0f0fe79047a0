import Backip.Lib.Splice
import Mathlib.Data.List.GetD

/-!
# Checked copies between buffers

A parser reads a buffer from the front (`next`, `take`) and writes another (`write`); it stops when
it would read or write outside one of them (`outOfBounds`) or gives up (`rejected`). The rules
`next_cons`, `take_append` and `write_append` run it over buffers whose parts are known.
-/

set_option autoImplicit false

/-- Why a parser stops. -/
inductive Stop
  | outOfBounds
  | rejected
deriving DecidableEq, Repr

/-- Can be evaluated: what a parser returns on a given input. -/
instance {α : Type} [DecidableEq α] : DecidableEq (Except Stop α)
  | .ok a, .ok b => decidable_of_iff (a = b) ⟨congrArg _, Except.ok.inj⟩
  | .error a, .error b => decidable_of_iff (a = b) ⟨congrArg _, Except.error.inj⟩
  | .ok _, .error _ => isFalse nofun
  | .error _, .ok _ => isFalse nofun

namespace Buffer

variable {α : Type}

/-- The first element and the rest. -/
def next : List α → Except Stop (α × List α)
  | [] => .error .outOfBounds
  | a :: l => .ok (a, l)

/-- The first `n` elements and the rest. -/
def take (n : Nat) (l : List α) : Except Stop (List α × List α) :=
  if n ≤ l.length then .ok (l.take n, l.drop n) else .error .outOfBounds

/-- Overwrites the elements from `off` on. -/
def write (l : List α) (off : Nat) (xs : List α) : Except Stop (List α) :=
  if off + xs.length ≤ l.length then .ok (splice l off xs) else .error .outOfBounds

theorem bind_eq_ok {α β ε : Type} {x : Except ε α} {f : α → Except ε β} {b : β} :
    (x >>= f) = .ok b ↔ ∃ a, x = .ok a ∧ f a = .ok b := by
  cases x with
  | error e => exact ⟨nofun, fun ⟨a, h, _⟩ => by cases h⟩
  | ok a => exact ⟨fun h => ⟨a, rfl, h⟩, fun ⟨a', h, hf⟩ => by cases h; exact hf⟩

@[simp] theorem ok_bind {α β ε : Type} (a : α) (f : α → Except ε β) :
    (Except.ok a >>= f) = f a := rfl

theorem length_next {l l' : List α} {a : α} (h : next l = .ok (a, l')) : l'.length < l.length := by
  cases l with
  | nil => cases h
  | cons b l =>
    cases h
    exact Nat.lt_succ_self _

theorem length_take {n : Nat} {l xs l' : List α} (h : take n l = .ok (xs, l')) :
    l'.length ≤ l.length := by
  unfold take at h
  split at h
  · cases h
    rw [List.length_drop]
    exact Nat.sub_le _ _
  · cases h

@[simp] theorem next_cons (a : α) (l : List α) : next (a :: l) = .ok (a, l) := rfl

theorem take_append {n : Nat} {xs : List α} (h : xs.length = n) (l : List α) :
    take n (xs ++ l) = .ok (xs, l) := by
  subst h
  rw [take, if_pos (by simp), List.take_left, List.drop_left]

theorem write_eq {l : List α} {off : Nat} {xs : List α} (h : off + xs.length ≤ l.length) :
    write l off xs = .ok (splice l off xs) :=
  if_pos h

theorem length_write {l l' xs : List α} {off : Nat} (h : write l off xs = .ok l') :
    l'.length = l.length ∧ off + xs.length ≤ l.length := by
  unfold write at h
  split at h
  · rename_i hfit
    cases h
    exact ⟨length_splice hfit, hfit⟩
  · cases h

/-- What a write does not reach stays. -/
theorem getElem?_write {l l' xs : List α} {off i : Nat} (h : write l off xs = .ok l')
    (hi : i < off ∨ off + xs.length ≤ i) : l'[i]? = l[i]? := by
  unfold write at h
  split at h
  · rename_i hfit
    cases h
    have hhead : (l.take off).length = off := by
      rw [List.length_take]
      omega
    rcases hi with hi | hi
    · rw [splice, List.append_assoc, List.getElem?_append_left (by omega),
        List.getElem?_take_of_lt hi]
    · have hend : (l.take off ++ xs).length = off + xs.length := by
        rw [List.length_append, hhead]
      rw [splice, List.getElem?_append_right (by omega), List.getElem?_drop, hend]
      exact congrArg (l[·]?) (by omega)
  · cases h

theorem getD_splice_singleton {l : List α} {off : Nat} (a d : α) (h : off < l.length) :
    (splice l off [a]).getD off d = a := by
  have hhead : (l.take off).length = off := by
    rw [List.length_take]
    omega
  rw [splice, List.append_assoc, List.getD_append_right _ _ _ _ (by omega), hhead, Nat.sub_self]
  rfl

theorem write_error {l : List α} {off : Nat} {xs : List α} (h : l.length < off + xs.length) :
    write l off xs = .error .outOfBounds :=
  if_neg (by omega)

theorem take_eq {n : Nat} {l : List α} (h : n ≤ l.length) : take n l = .ok (l.take n, l.drop n) :=
  if_pos h

theorem take_error {n : Nat} {l : List α} (h : l.length < n) :
    take n l = .error .outOfBounds :=
  if_neg (by omega)

/-- A write into the part `old`. -/
theorem write_part (pre old xs post : List α) {off k : Nat} (hoff : off = pre.length + k)
    (hfit : k + xs.length ≤ old.length) :
    write (pre ++ (old ++ post)) off xs = .ok (pre ++ (splice old k xs ++ post)) := by
  subst hoff
  have hlen : pre.length + k + xs.length ≤ (pre ++ (old ++ post)).length := by
    simp only [List.length_append]
    omega
  rw [write_eq hlen, splice_append_right (Nat.le_add_right _ _), Nat.add_sub_cancel_left,
    splice_append_left hfit]

/-- The write that replaces the part `old`. -/
theorem write_append (pre old new post : List α) {off : Nat} (hoff : off = pre.length)
    (hlen : new.length = old.length) :
    write (pre ++ (old ++ post)) off new = .ok (pre ++ (new ++ post)) := by
  have hnew : splice old 0 new = new := by simp [splice, hlen]
  rw [write_part pre old new post (k := 0) hoff (by omega), hnew]

/-! ## Bounds -/

/-- The parser does not leave its buffers. -/
def InBounds {β : Type} (r : Except Stop β) : Prop := r ≠ .error .outOfBounds

/-- The step reads the first `k` elements of `l`, if there are as many, and what it makes of them
meets `Q`. -/
structure Takes {β : Type} (Q : β → Prop) (k : Nat) (l : List α) (r : Except Stop (β × List α)) :
    Prop where
  ok : k ≤ l.length → ∃ b, Q b ∧ r = .ok (b, l.drop k)
  error : l.length < k → r = .error .outOfBounds

variable {β γ : Type} {Q : β → Prop} {Q' : γ → Prop} {k j : Nat} {l : List α}

@[simp] theorem inBounds_ok (b : β) : InBounds (.ok b) := nofun

@[simp] theorem inBounds_rejected : InBounds (.error .rejected : Except Stop β) := nofun

@[simp] theorem not_inBounds_outOfBounds : ¬ InBounds (.error .outOfBounds : Except Stop β) :=
  fun h => h rfl

@[simp] theorem error_bind (e : Stop) (f : β → Except Stop γ) :
    ((Except.error e : Except Stop β) >>= f) = .error e := rfl

theorem inBounds_bind_ok {x : Except Stop β} {f : β → γ} :
    InBounds (x >>= fun b => .ok (f b)) ↔ InBounds x := by
  cases x with
  | error e => cases e <;> simp
  | ok b => simp

theorem Takes.of_ok {b : β} (hb : Q b) : Takes Q 0 l (.ok (b, l)) :=
  ⟨fun _ => ⟨b, hb, rfl⟩, nofun⟩

theorem Takes.next : Takes (fun _ : α => True) 1 l (next l) := by
  cases l with
  | nil => exact ⟨nofun, fun _ => rfl⟩
  | cons a l => exact ⟨fun _ => ⟨a, trivial, rfl⟩, fun h => absurd h (by simp)⟩

theorem Takes.take : Takes (fun xs : List α => xs.length = k) k l (take k l) := by
  refine ⟨fun h => ⟨l.take k, ?_, if_pos h⟩, fun h => if_neg (by omega)⟩
  rw [List.length_take]
  omega

/-- One step after the other. -/
theorem Takes.bind {r : Except Stop (β × List α)} {g : β × List α → Except Stop (γ × List α)}
    (h : Takes Q k l r) (hg : ∀ b, Q b → Takes Q' j (l.drop k) (g (b, l.drop k))) :
    Takes Q' (k + j) l (r >>= g) := by
  constructor
  · intro hkj
    obtain ⟨b, hb, hr⟩ := h.ok (by omega)
    obtain ⟨c, hc, hr'⟩ := (hg b hb).ok (by rw [List.length_drop]; omega)
    exact ⟨c, hc, by rw [hr, ok_bind, hr', List.drop_drop]⟩
  · intro hkj
    by_cases hk : k ≤ l.length
    · obtain ⟨b, hb, hr⟩ := h.ok hk
      rw [hr, ok_bind, (hg b hb).error (by rw [List.length_drop]; omega)]
    · rw [h.error (by omega), error_bind]

/-- A parser that starts with a step. -/
theorem Takes.inBounds {r : Except Stop (β × List α)} {g : β × List α → Except Stop γ} {P : Prop}
    (h : Takes Q k l r) (hg : ∀ b, Q b → (InBounds (g (b, l.drop k)) ↔ P)) :
    InBounds (r >>= g) ↔ k ≤ l.length ∧ P := by
  by_cases hk : k ≤ l.length
  · obtain ⟨b, hb, hr⟩ := h.ok hk
    rw [hr, ok_bind, hg b hb, and_iff_right hk]
  · rw [h.error (by omega), error_bind]
    simp [hk]

/-- A parser that starts with a write. -/
theorem inBounds_splice {off n : Nat} {xs : List α} {g : List α → Except Stop γ} {P : Prop}
    (hn : off + xs.length = n) (hg : n ≤ l.length → (InBounds (g (splice l off xs)) ↔ P)) :
    InBounds (write l off xs >>= g) ↔ n ≤ l.length ∧ P := by
  subst hn
  by_cases h : off + xs.length ≤ l.length
  · rw [write_eq h, ok_bind, hg h, and_iff_right h]
  · rw [write, if_neg h, error_bind]
    simp [h]

theorem inBounds_write {off n : Nat} {xs : List α} {g : List α → Except Stop γ} {P : Prop}
    (hn : off + xs.length = n) (hg : ∀ l', l'.length = l.length → (InBounds (g l') ↔ P)) :
    InBounds (write l off xs >>= g) ↔ n ≤ l.length ∧ P :=
  inBounds_splice hn fun h => hg _ (length_splice (by omega))

theorem InBounds.write {off : Nat} {xs : List α} {g : List α → Except Stop γ}
    (h : InBounds (write l off xs >>= g)) :
    off + xs.length ≤ l.length ∧ InBounds (g (splice l off xs)) :=
  (inBounds_splice rfl fun _ => Iff.rfl).1 h

theorem InBounds.next {g : α × List α → Except Stop γ} (h : InBounds (next l >>= g)) :
    ∃ a l', l = a :: l' ∧ InBounds (g (a, l')) := by
  cases l with
  | nil => exact absurd h (not_inBounds_outOfBounds (β := γ))
  | cons a l' => exact ⟨a, l', rfl, h⟩

theorem InBounds.take {n : Nat} {g : List α × List α → Except Stop γ}
    (h : InBounds (take n l >>= g)) : n ≤ l.length ∧ InBounds (g (l.take n, l.drop n)) := by
  by_cases hn : n ≤ l.length
  · rw [take_eq hn, ok_bind] at h
    exact ⟨hn, h⟩
  · rw [take_error (by omega), error_bind] at h
    exact absurd h not_inBounds_outOfBounds

/-- A write that the rest of the parser needs anyway. -/
theorem inBounds_write_of_imp {off : Nat} {xs : List α} {g : List α → Except Stop γ} {P : Prop}
    (hfit : P → off + xs.length ≤ l.length)
    (hg : ∀ l', l'.length = l.length → (InBounds (g l') ↔ P)) :
    InBounds (write l off xs >>= g) ↔ P :=
  (inBounds_write rfl hg).trans (and_iff_right_of_imp hfit)

end Buffer
