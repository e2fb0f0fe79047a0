/-!
# Byte stuffing

A frame is delimited by a flag. A flag in the contents, and the escape symbol itself, are sent as
the escape symbol and a masked symbol (`stuff`).

`Unstuffs.foldl_stuffAll`: a receiver that gets the symbol out of both forms reads the stuffed
contents as the contents.
-/

set_option autoImplicit false

structure Stuffing (α : Type) where
  flag : α
  esc : α
  mask : α → α

namespace Stuffing

variable {α σ : Type} [DecidableEq α] (S : Stuffing α)

/-- The symbols that do not stand for themselves. -/
def Reserved (b : α) : Prop := b = S.flag ∨ b = S.esc

instance (b : α) : Decidable (S.Reserved b) := inferInstanceAs (Decidable (_ ∨ _))

def stuff (b : α) : List α := if S.Reserved b then [S.esc, S.mask b] else [b]

def stuffAll (l : List α) : List α := l.flatMap S.stuff

@[simp] theorem stuffAll_nil : S.stuffAll [] = [] := rfl

@[simp] theorem stuffAll_cons (b : α) (l : List α) :
    S.stuffAll (b :: l) = S.stuff b ++ S.stuffAll l := rfl

theorem stuffAll_append (l l' : List α) :
    S.stuffAll (l ++ l') = S.stuffAll l ++ S.stuffAll l' := List.flatMap_append

theorem stuff_of_reserved {S : Stuffing α} {b : α} (h : S.Reserved b) :
    S.stuff b = [S.esc, S.mask b] := if_pos h

theorem stuff_of_not_reserved {S : Stuffing α} {b : α} (h : ¬ S.Reserved b) :
    S.stuff b = [b] := if_neg h

/-- The receiver `feed`, in the states `Clear` between two symbols of the contents, takes the symbol
`b` out of `stuff b` and does `data` with it. -/
structure Unstuffs (S : Stuffing α) (feed data : σ → α → σ) (Clear : σ → Prop) : Prop where
  plain : ∀ s b, Clear s → ¬ S.Reserved b → feed s b = data s b
  masked : ∀ s b, Clear s → S.Reserved b → feed (feed s S.esc) (S.mask b) = data s b
  clear : ∀ s b, Clear s → Clear (data s b)

variable {S} {feed data : σ → α → σ} {Clear : σ → Prop} {s : σ}

theorem Unstuffs.foldl_stuff (h : Unstuffs S feed data Clear) (hs : Clear s) (b : α) :
    (S.stuff b).foldl feed s = data s b := by
  by_cases hb : S.Reserved b
  · rw [stuff_of_reserved hb]
    exact h.masked s b hs hb
  · rw [stuff_of_not_reserved hb]
    exact h.plain s b hs hb

/-- **The stuffed contents are read as the contents.** -/
theorem Unstuffs.foldl_stuffAll (h : Unstuffs S feed data Clear) (hs : Clear s) (l : List α) :
    (S.stuffAll l).foldl feed s = l.foldl data s := by
  induction l generalizing s with
  | nil => rfl
  | cons b l ih =>
    rw [stuffAll_cons, List.foldl_append, h.foldl_stuff hs, ih (h.clear s b hs), List.foldl_cons]

/-- Where masked symbols are not flags, there is no flag in the stuffed contents. -/
theorem flag_notMem_stuffAll (hesc : S.esc ≠ S.flag) (hmask : ∀ b, S.Reserved b → S.mask b ≠ S.flag)
    (l : List α) : S.flag ∉ S.stuffAll l := by
  intro h
  obtain ⟨b, -, hb⟩ := List.mem_flatMap.1 h
  by_cases hres : S.Reserved b
  · rw [stuff_of_reserved hres] at hb
    rcases List.mem_cons.1 hb with hb | hb
    · exact hesc hb.symm
    · exact hmask b hres (List.mem_singleton.1 hb).symm
  · rw [stuff_of_not_reserved hres] at hb
    exact hres (.inl (List.mem_singleton.1 hb).symm)

end Stuffing
