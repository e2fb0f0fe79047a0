import Backip.System.Iovec

/-!
# Reading and writing through a chain (`iov_read`, `iov_update`)

`iovUpdate` is `iov_update` with what it returns. Both functions come to the right bytes wherever
the chain is cut and wherever the request ends; `iov_update` does not count what it writes, and
looks for the buffer at `offset` in a chain that may end before (`scatterGather_iff`).
-/

set_option autoImplicit false

namespace IpIovec

/-- The second loop of `iov_update`, with `written`. -/
def updateFrom (written : Nat) : Nat → List UInt8 → IpIovec → Nat × IpIovec
  | _, _, [] => (written, [])
  | offset, buf, c :: iov =>
    if written < buf.length then
      let writelen := min (c.length - offset) buf.length
      let (rv, iov') := updateFrom written 0 (buf.drop writelen) iov
      (rv, splice c offset (buf.take writelen) :: iov')
    else (written, c :: iov)

/-- `iov_update`: what it returns, and the chain (`none`: a chunk past the end is looked at). -/
def iovUpdate (buf : List UInt8) : Nat → IpIovec → Option (Nat × IpIovec)
  | _, [] => none
  | offset, c :: iov =>
    if c.length ≤ offset then
      (iovUpdate buf (offset - c.length) iov).map fun (rv, iov') => (rv, c :: iov')
    else some (updateFrom 0 offset buf (c :: iov))

theorem updateFrom_zero (iov : IpIovec) (offset : Nat) (buf : List UInt8) :
    updateFrom 0 offset buf iov = (0, updateWrite offset buf iov) := by
  induction iov generalizing offset buf with
  | nil => rfl
  | cons c iov ih =>
    rw [updateFrom, updateWrite]
    split
    · dsimp only
      rw [ih]
    · rfl

/-- `iov_update` writes what the model of its bytes does, and returns 0. -/
theorem iovUpdate_eq (iov : IpIovec) (offset : Nat) (buf : List UInt8) :
    iovUpdate buf offset iov = (update offset buf iov).map ((0, ·)) := by
  induction iov generalizing offset with
  | nil => rfl
  | cons c iov ih =>
    rw [iovUpdate, update]
    split
    · rw [ih, Option.map_map, Option.map_map]
      rfl
    · rw [updateFrom_zero]
      rfl

/-! ## Requests that run past the end -/

theorem updateWrite_nil (iov : IpIovec) (offset : Nat) : updateWrite offset [] iov = iov := by
  cases iov with
  | nil => rfl
  | cons c iov => exact if_neg (Nat.lt_irrefl 0)

/-- What does not fit is not written. -/
theorem updateWrite_take (iov : IpIovec) (offset : Nat) (buf : List UInt8)
    (hhead : ∀ c ∈ iov.head?, offset ≤ c.length) :
    updateWrite offset buf iov =
      updateWrite offset (buf.take (iov.flatten.length - offset)) iov := by
  induction iov generalizing offset buf with
  | nil => rfl
  | cons c iov ih =>
    have hoff : offset ≤ c.length := hhead c rfl
    have htail : iov.flatten.length = (c :: iov).flatten.length - offset - (c.length - offset) := by
      rw [List.flatten_cons, List.length_append]
      omega
    have hroom : c.length - offset ≤ (c :: iov).flatten.length - offset := by
      rw [List.flatten_cons, List.length_append]
      omega
    generalize (c :: iov).flatten.length - offset = n at htail hroom
    rcases Nat.eq_zero_or_pos n with rfl | hn
    · -- the chain is full here: nothing is written to the rest of it
      have hrest : iov.flatten.length = 0 := by omega
      rw [List.take_zero, updateWrite_nil, updateWrite]
      split
      · have hfull : min (c.length - offset) buf.length = 0 := by omega
        dsimp only
        rw [hfull, List.take_zero, splice_nil, List.drop_zero, ih 0 buf (by simp), hrest,
          Nat.zero_sub, List.take_zero, updateWrite_nil]
      · rfl
    · have hlen : (buf.take n).length = min n buf.length := List.length_take
      have hwrite : min (c.length - offset) (buf.take n).length =
          min (c.length - offset) buf.length := by omega
      by_cases hbuf : 0 < buf.length
      · rw [updateWrite, updateWrite, if_pos hbuf, if_pos (by omega)]
        dsimp only
        have htake : (buf.take n).take (min (c.length - offset) buf.length) =
            buf.take (min (c.length - offset) buf.length) := by
          rw [List.take_take, Nat.min_eq_left (by omega)]
        rw [hwrite, htake, List.drop_take]
        congr 1
        rcases Nat.le_total buf.length (c.length - offset) with hle | hle
        · rw [Nat.min_eq_right hle, List.drop_length, List.take_nil]
        · rw [Nat.min_eq_left hle, ← htail, ih 0 _ (by simp), Nat.sub_zero]
      · obtain rfl : buf = [] := List.length_eq_zero_iff.1 (Nat.eq_zero_of_not_pos hbuf)
        rw [List.take_nil]

theorem update_take (iov : IpIovec) (offset : Nat) (buf : List UInt8) :
    update offset buf iov = update offset (buf.take (iov.flatten.length - offset)) iov := by
  induction iov generalizing offset with
  | nil => rfl
  | cons c iov ih =>
    rw [update, update]
    by_cases hle : c.length ≤ offset
    · have hrest : (c :: iov).flatten.length - offset =
          iov.flatten.length - (offset - c.length) := by
        rw [List.flatten_cons, List.length_append]
        omega
      rw [if_pos hle, if_pos hle, ih, hrest]
    · rw [if_neg hle, if_neg hle, updateWrite_take (c :: iov) offset buf]
      rintro c' hc'
      obtain rfl : c = c' := by simpa using hc'
      exact Nat.le_of_not_le hle

/-! ## What the functions are for -/

/-- `iov_read` returns what is there of the request, and copies those bytes. -/
def Reads (iov : IpIovec) (offset len : Nat) : Prop :=
  (iov.read offset len).length = min len (iov.len - offset) ∧
    iov.read offset len = (iov.flatten.drop offset).take len

/-- A chain with the bytes from `offset` on overwritten, cut as before. -/
def Overwritten (iov : IpIovec) (offset : Nat) (buf : List UInt8) (iov' : IpIovec) : Prop :=
  iov'.flatten = splice iov.flatten offset (buf.take (iov.len - offset)) ∧
    iov'.map List.length = iov.map List.length

theorem reads (iov : IpIovec) (offset len : Nat) : iov.Reads offset len := by
  refine ⟨?_, read_eq iov offset len⟩
  rw [read_eq, List.length_take, List.length_drop, len_eq]

theorem update_of_le {iov : IpIovec} {offset : Nat} (h : iov.len ≤ offset) (buf : List UInt8) :
    update offset buf iov = none := by
  induction iov generalizing offset with
  | nil => rfl
  | cons c iov ih =>
    rw [len] at h
    rw [update, if_pos (by omega), ih (by omega)]
    rfl

/-- Where there is a byte at `offset`, the right bytes are overwritten. -/
theorem exists_overwritten {iov : IpIovec} {offset : Nat} (h : offset < iov.len)
    (buf : List UInt8) :
    ∃ iov', update offset buf iov = some iov' ∧ iov.Overwritten offset buf iov' := by
  have hlen := iov.len_eq
  obtain ⟨iov', hupdate, hbytes, hcut⟩ := exists_update iov offset
    (buf.take (iov.flatten.length - offset)) (by omega) (by rw [List.length_take]; omega)
  exact ⟨iov', by rw [update_take, hupdate], by rw [hbytes, hlen], hcut⟩

/-- **Access through a chain**: reading is right; a write comes to the right bytes, and to none past
the end, exactly when there is a byte at `offset`; and returns how many it wrote exactly when it
is also to write none. -/
theorem scatterGather_iff (iov : IpIovec) (offset : Nat) (buf : List UInt8) :
    (∀ len, iov.Reads offset len) ∧
    ((∃ rv iov', iovUpdate buf offset iov = some (rv, iov') ∧
      iov.Overwritten offset buf iov') ↔ offset < iov.len) ∧
    ((∃ rv iov', iovUpdate buf offset iov = some (rv, iov') ∧
      iov.Overwritten offset buf iov' ∧ rv = min buf.length (iov.len - offset)) ↔
      offset < iov.len ∧ buf = []) := by
  rw [iovUpdate_eq]
  rcases Nat.lt_or_ge offset iov.len with hlt | hle
  · obtain ⟨iov', hupdate, hover⟩ := exists_overwritten hlt buf
    rw [hupdate]
    refine ⟨iov.reads offset, iff_of_true ⟨0, iov', rfl, hover⟩ hlt, ?_⟩
    constructor
    · rintro ⟨rv, iov'', hsome, -, hrv⟩
      simp only [Option.map_some, Option.some.injEq, Prod.mk.injEq] at hsome
      refine ⟨hlt, List.length_eq_zero_iff.1 ?_⟩
      omega
    · rintro ⟨-, rfl⟩
      exact ⟨0, iov', rfl, hover, (Nat.zero_min _).symm⟩
  · rw [update_of_le hle]
    refine ⟨iov.reads offset, iff_of_false ?_ (Nat.not_lt.2 hle), iff_of_false ?_ ?_⟩
    · rintro ⟨rv, iov', hsome, -⟩
      cases hsome
    · rintro ⟨rv, iov', hsome, -⟩
      cases hsome
    · exact fun h => absurd h.1 (Nat.not_lt.2 hle)

/-- One byte is written to a chain of two chunks. -/
theorem written_uncounted : iovUpdate [9] 2 [[1, 2], [3]] = some (0, [[1, 2], [9]]) ∧
    iovUpdate [9] 3 [[1, 2], [3]] = none := by
  decide

end IpIovec
