/-!
# Overwriting a part of a list

`splice l off xs` is `l` with the elements from `off` on overwritten by `xs`: what a copy of bytes
into a buffer leaves. `splice_append_left`, `splice_append_right` and `splice_append` say how a
splice falls on a list cut in two, `splice_cons_drop` that rewriting elements that are there already
changes only the first, `splice_splice_append` and `splice_append_splice` that splices side by side
are one.

`Circular.view l h` is the circular list `l` from index `h` on. A part of the view is one part of the
list or two: `view_splice_inside`, `view_splice_wrapped` and `view_splice_across` say which splices of
the list are a splice of the view, `view_read_inside`, `view_read_wrapped` and `view_read_across`
where a part of it is read, and `view_advance` what moving the head does.
-/

set_option autoImplicit false

variable {α : Type}

def splice (l : List α) (off : Nat) (xs : List α) : List α :=
  l.take off ++ xs ++ l.drop (off + xs.length)

@[simp] theorem splice_nil (l : List α) (off : Nat) : splice l off [] = l := by
  simp [splice]

theorem length_splice {l : List α} {off : Nat} {xs : List α} (h : off + xs.length ≤ l.length) :
    (splice l off xs).length = l.length := by
  simp only [splice, List.length_append, List.length_take, List.length_drop]
  omega

/-- A splice of the last elements. -/
theorem splice_of_end {l : List α} {off : Nat} {xs : List α} (h : off + xs.length = l.length) :
    splice l off xs = l.take off ++ xs := by
  rw [splice, h, List.drop_length, List.append_nil]

/-- A splice that ends in the first part. -/
theorem splice_append_left {l : List α} {off : Nat} {xs : List α}
    (h : off + xs.length ≤ l.length) (l' : List α) :
    splice (l ++ l') off xs = splice l off xs ++ l' := by
  rw [splice, splice, List.take_append_of_le_length (by omega), List.drop_append_of_le_length h,
    List.append_assoc (_ ++ _)]

/-- A splice that starts in the second part. -/
theorem splice_append_right {l : List α} {off : Nat} (h : l.length ≤ off) (l' xs : List α) :
    splice (l ++ l') off xs = l ++ splice l' (off - l.length) xs := by
  have hend : off + xs.length - l.length = off - l.length + xs.length := by omega
  rw [splice, splice, List.take_append, List.drop_append, List.take_of_length_le h,
    List.drop_eq_nil_of_le (by omega), hend, List.nil_append, List.append_assoc, List.append_assoc,
    List.append_assoc]

/-- A splice across the cut. -/
theorem splice_append {l : List α} {off n : Nat} {xs : List α} (hoff : off + n = l.length)
    (hn : n ≤ xs.length) (l' : List α) :
    splice (l ++ l') off xs = splice l off (xs.take n) ++ splice l' 0 (xs.drop n) := by
  have hend : off + (xs.take n).length = l.length := by rw [List.length_take]; omega
  have hrest : off + xs.length - l.length = 0 + (xs.drop n).length := by
    rw [List.length_drop]; omega
  rw [splice, splice, splice, List.take_append_of_le_length (by omega), List.drop_append,
    List.drop_eq_nil_of_le (by omega), hrest, hend, List.drop_length, List.take_zero,
    List.nil_append, List.nil_append, List.append_nil, List.append_assoc, List.append_assoc,
    ← List.append_assoc (xs.take n), List.take_append_drop]

/-- Rewriting elements that are there already changes only the first. -/
theorem splice_cons_drop {l : List α} {off : Nat} (x : α) (n : Nat) (h : off < l.length) :
    splice l off (x :: (l.drop (off + 1)).take n) = l.set off x := by
  rw [List.set_eq_take_append_cons_drop, if_pos h, splice, List.append_assoc, List.cons_append]
  have hend : off + (x :: (l.drop (off + 1)).take n).length =
      off + 1 + ((l.drop (off + 1)).take n).length := by
    rw [List.length_cons, Nat.add_right_comm, ← Nat.add_assoc]
  have hdrop (k : Nat) : l.drop (off + 1 + k) = (l.drop (off + 1)).drop k := List.drop_drop.symm
  rw [hend, hdrop]
  generalize l.drop (off + 1) = r
  rw [List.length_take]
  rcases Nat.le_total n r.length with hn | hn
  · rw [Nat.min_eq_left hn, List.take_append_drop]
  · rw [Nat.min_eq_right hn, List.take_of_length_le hn, List.drop_length, List.append_nil]

/-! ## Splices in sequence -/

theorem set_eq_splice {l : List α} {off : Nat} (h : off < l.length) (x : α) :
    l.set off x = splice l off [x] := by
  rw [List.set_eq_take_append_cons_drop, if_pos h, splice, List.append_assoc]
  rfl

/-- A splice right behind another one. -/
theorem splice_splice_append {l : List α} {off : Nat} (hoff : off ≤ l.length) (xs ys : List α) :
    splice (splice l off xs) (off + xs.length) ys = splice l off (xs ++ ys) := by
  have hlen : (l.take off ++ xs).length = off + xs.length := by
    rw [List.length_append, List.length_take, Nat.min_eq_left hoff]
  rw [splice, splice, splice, ← hlen, List.take_left, List.drop_append, hlen,
    List.drop_eq_nil_of_le (by omega), List.nil_append, List.drop_drop, List.length_append,
    Nat.add_sub_cancel_left, ← List.append_assoc, Nat.add_assoc, List.append_assoc]

/-- A splice right in front of another one. -/
theorem splice_append_splice {l : List α} {off : Nat} (xs ys : List α)
    (h : off + xs.length ≤ l.length) :
    splice (splice l (off + xs.length) ys) off xs = splice l off (xs ++ ys) := by
  have hlen : (l.take (off + xs.length)).length = off + xs.length := by
    rw [List.length_take, Nat.min_eq_left h]
  have hdrop : (splice l (off + xs.length) ys).drop (off + xs.length) =
      ys ++ l.drop (off + (xs ++ ys).length) := by
    rw [splice, List.append_assoc, List.drop_left' hlen, List.length_append, Nat.add_assoc]
  have htake : (splice l (off + xs.length) ys).take off = l.take off := by
    rw [splice, List.append_assoc, List.take_append_of_le_length (by omega), List.take_take,
      Nat.min_eq_left (Nat.le_add_right _ _)]
  rw [splice, htake, hdrop, splice, List.append_assoc, List.append_assoc, List.append_assoc]

/-! ## Reading a splice back -/

section Read

variable {l xs : List α} {off : Nat}

/-- What is in front of it stays. -/
theorem take_splice (hoff : off ≤ l.length) {n : Nat} (hn : n ≤ off) (xs : List α) :
    (splice l off xs).take n = l.take n := by
  rw [splice, List.append_assoc, List.take_append_of_le_length (by rw [List.length_take]; omega),
    List.take_take, Nat.min_eq_left hn]

/-- What was written is read. -/
theorem take_drop_splice (hoff : off ≤ l.length) :
    ((splice l off xs).drop off).take xs.length = xs := by
  rw [splice, List.append_assoc, List.drop_left' (by rw [List.length_take]; omega), List.take_left]

theorem getD_splice (hoff : off ≤ l.length) {k : Nat} (hk : k < xs.length) (d : α) :
    (splice l off xs).getD (off + k) d = xs.getD k d := by
  have htake : (l.take off).length = off := by rw [List.length_take, Nat.min_eq_left hoff]
  rw [splice, List.append_assoc, List.getD_eq_getElem?_getD,
    List.getElem?_append_right (by omega), htake, Nat.add_sub_cancel_left,
    List.getElem?_append_left hk, List.getD_eq_getElem?_getD]

/-- Writing what is there already changes nothing. -/
theorem splice_self (h : (l.drop off).take xs.length = xs) : splice l off xs = l := by
  calc splice l off xs
      = l.take off ++ (xs ++ (l.drop off).drop xs.length) := by
        rw [splice, List.append_assoc, List.drop_drop]
    _ = l.take off ++ l.drop off := by
        rw [show xs ++ (l.drop off).drop xs.length =
          (l.drop off).take xs.length ++ (l.drop off).drop xs.length by rw [h],
          List.take_append_drop]
    _ = l := List.take_append_drop off l

theorem splice_splice_self (hoff : off ≤ l.length) :
    splice (splice l off xs) off xs = splice l off xs :=
  splice_self (take_drop_splice hoff)

/-- A splice is still there after another one behind it. -/
theorem splice_splice_right {off' : Nat} {xs' : List α} (hle : off + xs.length ≤ off')
    (hlen : off' ≤ (splice l off xs).length) (hoff : off ≤ l.length) :
    splice (splice (splice l off xs) off' xs') off xs = splice (splice l off xs) off' xs' := by
  apply splice_self
  rw [List.take_drop, take_splice hlen hle, ← List.take_drop, take_drop_splice hoff]

end Read

/-! ## A list seen from a head -/

namespace Circular

variable {α : Type}

def view (l : List α) (h : Nat) : List α := l.drop h ++ l.take h

theorem length_view {l : List α} {h : Nat} (hh : h ≤ l.length) : (view l h).length = l.length := by
  rw [view, List.length_append, List.length_drop, List.length_take]
  omega

theorem view_append (a b : List α) : view (a ++ b) a.length = b ++ a := by
  rw [view, List.drop_left, List.take_left]

/-- A list cut at the head. -/
theorem exists_cut {l : List α} {h : Nat} (hh : h ≤ l.length) :
    ∃ a b, l = a ++ b ∧ h = a.length :=
  ⟨l.take h, l.drop h, (List.take_append_drop h l).symm, by rw [List.length_take]; omega⟩

/-- A splice that ends before the end of the list. -/
theorem view_splice_inside {l xs : List α} {h k : Nat} (hfit : h + k + xs.length ≤ l.length) :
    view (splice l (h + k) xs) h = splice (view l h) k xs := by
  obtain ⟨a, b, rfl, rfl⟩ := exists_cut (show h ≤ l.length by omega)
  rw [List.length_append] at hfit
  rw [splice_append_right (Nat.le_add_right _ _), Nat.add_sub_cancel_left, view_append, view_append,
    splice_append_left (by omega)]

/-- A splice that starts behind it. -/
theorem view_splice_wrapped {l xs : List α} {h k : Nat} (hh : h ≤ l.length)
    (hwrap : l.length ≤ h + k) (hfit : k + xs.length ≤ l.length) :
    view (splice l (h + k - l.length) xs) h = splice (view l h) k xs := by
  obtain ⟨a, b, rfl, rfl⟩ := exists_cut hh
  rw [List.length_append] at hwrap hfit
  have hoff : a.length + k - (a ++ b).length = k - b.length := by
    rw [List.length_append]
    omega
  have hlen : (splice a (k - b.length) xs).length = a.length := length_splice (by omega)
  rw [hoff, splice_append_left (by omega), view_append, splice_append_right (by omega)]
  conv => lhs; rw [← hlen]
  rw [view_append]

/-- A splice across the end, in two parts. -/
theorem view_splice_across {l xs : List α} {h k : Nat} (hh : h ≤ l.length)
    (hin : h + k ≤ l.length) (hout : l.length ≤ h + k + xs.length)
    (hfit : k + xs.length ≤ l.length) :
    view (splice (splice l (h + k) (xs.take (l.length - (h + k)))) 0
      (xs.drop (l.length - (h + k)))) h = splice (view l h) k xs := by
  obtain ⟨a, b, rfl, rfl⟩ := exists_cut hh
  rw [List.length_append] at hin hout hfit
  have hn : (a ++ b).length - (a.length + k) = b.length - k := by
    rw [List.length_append]
    omega
  have hdrop : (xs.drop (b.length - k)).length = xs.length - (b.length - k) := List.length_drop
  have hlen : (splice a 0 (xs.drop (b.length - k))).length = a.length := length_splice (by omega)
  rw [hn, splice_append_right (Nat.le_add_right _ _), Nat.add_sub_cancel_left,
    splice_append_left (by omega), view_append,
    splice_append (show k + (b.length - k) = b.length by omega) (by omega)]
  conv => lhs; rw [← hlen]
  rw [view_append]

/-! ## Reading -/

theorem view_read_inside {l : List α} {h k n : Nat} (hfit : h + k + n ≤ l.length) :
    (l.drop (h + k)).take n = ((view l h).drop k).take n := by
  obtain ⟨a, b, rfl, rfl⟩ := exists_cut (show h ≤ l.length by omega)
  rw [List.length_append] at hfit
  rw [view_append, ← List.drop_drop, List.drop_left, List.drop_append_of_le_length (by omega),
    List.take_append_of_le_length (by rw [List.length_drop]; omega)]

theorem view_read_wrapped {l : List α} {h k n : Nat} (hh : h ≤ l.length)
    (hwrap : l.length ≤ h + k) (hfit : k + n ≤ l.length) :
    (l.drop (h + k - l.length)).take n = ((view l h).drop k).take n := by
  obtain ⟨a, b, rfl, rfl⟩ := exists_cut hh
  rw [List.length_append] at hwrap hfit
  have hoff : a.length + k - (a ++ b).length = k - b.length := by
    rw [List.length_append]
    omega
  have hview : (b ++ a).drop k = a.drop (k - b.length) := by
    rw [List.drop_append, List.drop_eq_nil_of_le (by omega), List.nil_append]
  rw [hoff, view_append, hview, List.drop_append_of_le_length (by omega),
    List.take_append_of_le_length (by rw [List.length_drop]; omega)]

theorem view_read_across {l : List α} {h k n : Nat} (hh : h ≤ l.length) (hin : h + k ≤ l.length)
    (hout : l.length ≤ h + k + n) (hfit : k + n ≤ l.length) :
    (l.drop (h + k)).take (l.length - (h + k)) ++ l.take (n - (l.length - (h + k))) =
      ((view l h).drop k).take n := by
  obtain ⟨a, b, rfl, rfl⟩ := exists_cut hh
  rw [List.length_append] at hin hout hfit
  have hn : (a ++ b).length - (a.length + k) = b.length - k := by
    rw [List.length_append]
    omega
  have hlen : (b.drop k).length = b.length - k := List.length_drop
  have hview : ((b ++ a).drop k).take n = b.drop k ++ a.take (n - (b.length - k)) := by
    rw [List.drop_append_of_le_length (by omega), List.take_append, hlen,
      List.take_of_length_le (by omega)]
  rw [hn, view_append, hview, ← List.drop_drop, List.drop_left,
    List.take_of_length_le (by omega), List.take_append_of_le_length (by omega)]

/-! ## Moving the head -/

theorem view_advance {l : List α} {h j h' : Nat} (hh : h ≤ l.length) (hj : j ≤ l.length)
    (hh' : h' = if h + j ≤ l.length then h + j else h + j - l.length) :
    view l h' = view (view l h) j := by
  obtain ⟨a, b, rfl, rfl⟩ := exists_cut hh
  rw [List.length_append] at hj hh'
  rw [view_append]
  split at hh'
  · obtain ⟨c, d, rfl, rfl⟩ := exists_cut (show j ≤ b.length by omega)
    rw [List.append_assoc, view_append, hh', ← List.length_append, ← List.append_assoc, view_append]
    simp
  · obtain ⟨c, d, rfl, hc⟩ := exists_cut (show j - b.length ≤ a.length by omega)
    have hleft : h' = c.length := by
      simp only [List.length_append] at hh' hj ⊢
      omega
    have hright : j = (b ++ c).length := by
      rw [List.length_append]
      omega
    rw [hleft, hright, List.append_assoc, view_append, ← List.append_assoc b, view_append]
    simp

end Circular
