import Backip.Lib.Splice

/-!
# Chains of buffers (`support/sdk/c/blip/lib6lowpan/iovec.c`)

A packet's payload is a chain of buffers. `IpIovec.read` and `IpIovec.update` walk the chain as
`iov_read` and `iov_update` do; `IpIovec.read_eq` and `IpIovec.exists_update` say what they do to
the bytes of the chain, wherever it is cut.
-/

set_option autoImplicit false

/-- `struct ip_iovec`: the buffers of a chain, in order. -/
abbrev IpIovec := List (List UInt8)

namespace IpIovec

/-- `iov_len`. -/
def len : IpIovec → Nat
  | [] => 0
  | c :: iov => c.length + len iov

/-- The first loop of `iov_read`: `cur_offset` and the rest of the chain it stops at. -/
def readSkip (offset : Nat) : Nat → IpIovec → Nat × IpIovec
  | cur, [] => (cur, [])
  | cur, c :: iov =>
    if cur + c.length ≤ offset then readSkip offset (cur + c.length) iov else (cur, c :: iov)

/-- The second loop of `iov_read`: the bytes copied. -/
def readCopy : Nat → Nat → Nat → IpIovec → List UInt8
  | _, _, _, [] => []
  | cur, offset, len, c :: iov =>
    if 0 < len then
      let start := offset - cur
      let lenHere := min (c.length - start) len
      (c.drop start).take lenHere ++
        readCopy (cur + start + lenHere) (offset + lenHere) (len - lenHere) iov
    else []

/-- `iov_read`: the bytes read, as many as it returns. -/
def read (iov : IpIovec) (offset len : Nat) : List UInt8 :=
  let (cur, iov) := readSkip offset 0 iov
  readCopy cur offset len iov

/-- The second loop of `iov_update`. -/
def updateWrite : Nat → List UInt8 → IpIovec → IpIovec
  | _, _, [] => []
  | offset, buf, c :: iov =>
    if 0 < buf.length then
      let writelen := min (c.length - offset) buf.length
      splice c offset (buf.take writelen) :: updateWrite 0 (buf.drop writelen) iov
    else c :: iov

/-- `iov_update` (`none`: its first loop runs off the chain). Nothing counts `written`: it returns
0. -/
def update : Nat → List UInt8 → IpIovec → Option IpIovec
  | _, _, [] => none
  | offset, buf, c :: iov =>
    if c.length ≤ offset then (update (offset - c.length) buf iov).map (c :: ·)
    else some (updateWrite offset buf (c :: iov))

/-! ## The bytes of a chain -/

theorem len_eq (iov : IpIovec) : iov.len = iov.flatten.length := by
  induction iov with
  | nil => rfl
  | cons c iov ih => rw [len, ih, List.flatten_cons, List.length_append]

theorem readCopy_eq {iov : IpIovec} {cur offset : Nat} (hcur : cur ≤ offset)
    (hhead : ∀ c ∈ iov.head?, offset - cur ≤ c.length) (len : Nat) :
    readCopy cur offset len iov = (iov.flatten.drop (offset - cur)).take len := by
  induction iov generalizing cur offset len with
  | nil => simp [readCopy]
  | cons c iov ih =>
    have hstart : offset - cur ≤ c.length := hhead c rfl
    rw [List.flatten_cons, List.drop_append_of_le_length hstart, List.take_append,
      List.length_drop, readCopy]
    by_cases hlen : 0 < len
    · have hsub : len - min (c.length - (offset - cur)) len =
          len - (c.length - (offset - cur)) := by omega
      have hcur' : cur + (offset - cur) + min (c.length - (offset - cur)) len =
          offset + min (c.length - (offset - cur)) len := by omega
      rw [if_pos hlen]
      dsimp only
      -- the copy goes on at the start of the next buffer
      rw [hcur', hsub, ih (Nat.le_refl _) (by simp), Nat.sub_self, List.drop_zero,
        ← List.length_drop, Nat.min_comm, ← List.take_eq_take_min]
    · rw [if_neg hlen, Nat.eq_zero_of_not_pos hlen]
      simp

theorem readSkip_spec {offset : Nat} (iov : IpIovec) {cur : Nat} (hcur : cur ≤ offset) :
    (readSkip offset cur iov).1 ≤ offset ∧
      (∀ c ∈ (readSkip offset cur iov).2.head?,
        offset - (readSkip offset cur iov).1 ≤ c.length) ∧
      (readSkip offset cur iov).2.flatten.drop (offset - (readSkip offset cur iov).1) =
        iov.flatten.drop (offset - cur) := by
  induction iov generalizing cur with
  | nil => simp [readSkip, hcur]
  | cons c iov ih =>
    unfold readSkip
    split
    · rename_i hle
      obtain ⟨h1, h2, h3⟩ := ih hle
      refine ⟨h1, h2, h3.trans ?_⟩
      have hc : c.drop (offset - cur) = [] := List.drop_eq_nil_of_le (by omega)
      rw [List.flatten_cons, List.drop_append, hc, List.nil_append, Nat.sub_sub]
    · rename_i hlt
      refine ⟨hcur, ?_, rfl⟩
      intro c' hc'
      obtain rfl : c = c' := by simpa using hc'
      omega

/-- **`iov_read` reads the bytes from `offset` on**, however they are cut into buffers. -/
theorem read_eq (iov : IpIovec) (offset len : Nat) :
    iov.read offset len = (iov.flatten.drop offset).take len := by
  obtain ⟨h1, h2, h3⟩ := readSkip_spec iov (Nat.zero_le offset)
  rw [show iov.read offset len = readCopy (readSkip offset 0 iov).1 offset len
    (readSkip offset 0 iov).2 from rfl, readCopy_eq h1 h2, h3, Nat.sub_zero]

theorem read_two {iov : IpIovec} {pre rest : List UInt8} {a b : UInt8}
    (h : iov.flatten = pre ++ a :: b :: rest) : iov.read pre.length 2 = [a, b] := by
  rw [read_eq, h, List.drop_left]
  rfl

/-- What is read is there. -/
theorem le_len_of_read {iov : IpIovec} {offset n : Nat} {bytes : List UInt8}
    (h : iov.read offset n = bytes) (hpos : 0 < bytes.length) :
    offset + bytes.length ≤ iov.len := by
  have hlen := congrArg List.length h
  rw [read_eq, List.length_take, List.length_drop] at hlen
  rw [len_eq]
  omega

theorem updateWrite_spec (iov : IpIovec) (offset : Nat) (buf : List UInt8)
    (hhead : ∀ c ∈ iov.head?, offset ≤ c.length)
    (hfit : offset + buf.length ≤ iov.flatten.length) :
    (updateWrite offset buf iov).flatten = splice iov.flatten offset buf ∧
      (updateWrite offset buf iov).map List.length = iov.map List.length := by
  induction iov generalizing offset buf with
  | nil =>
    have hnil : buf = [] := List.length_eq_zero_iff.1 (Nat.le_zero.1 (Nat.le_of_add_left_le hfit))
    simp [updateWrite, hnil]
  | cons c iov ih =>
    have hoff : offset ≤ c.length := hhead c rfl
    unfold updateWrite
    by_cases hlen : 0 < buf.length
    · rw [if_pos hlen]
      dsimp only
      rw [List.flatten_cons, List.length_append] at hfit
      rcases Nat.le_total buf.length (c.length - offset) with hle | hle
      · -- the buffer takes all of it
        obtain ⟨ih1, ih2⟩ := ih 0 (buf.drop buf.length) (by simp) (by simp)
        rw [Nat.min_eq_right hle, List.take_length, List.flatten_cons, List.flatten_cons,
          List.map_cons, List.map_cons, ih1, ih2, List.drop_length, splice_nil,
          splice_append_left (by omega), length_splice (by omega)]
        exact ⟨rfl, rfl⟩
      · obtain ⟨ih1, ih2⟩ := ih 0 (buf.drop (c.length - offset)) (by simp)
          (by rw [List.length_drop]; omega)
        have htake : (buf.take (c.length - offset)).length = c.length - offset := by
          rw [List.length_take]; omega
        rw [Nat.min_eq_left hle, List.flatten_cons, List.flatten_cons, List.map_cons,
          List.map_cons, ih1, ih2, splice_append (n := c.length - offset) (by omega) hle,
          length_splice (by omega)]
        exact ⟨rfl, rfl⟩
    · obtain rfl : buf = [] := List.length_eq_zero_iff.1 (Nat.eq_zero_of_not_pos hlen)
      rw [if_neg hlen, splice_nil]
      exact ⟨rfl, rfl⟩

/-- **`iov_update` overwrites the bytes from `offset` on** and leaves the buffers as long as they
are. -/
theorem exists_update (iov : IpIovec) (offset : Nat) (buf : List UInt8)
    (hlt : offset < iov.flatten.length) (hfit : offset + buf.length ≤ iov.flatten.length) :
    ∃ iov', update offset buf iov = some iov' ∧
      iov'.flatten = splice iov.flatten offset buf ∧
      iov'.map List.length = iov.map List.length := by
  induction iov generalizing offset with
  | nil => cases hlt
  | cons c iov ih =>
    rw [List.flatten_cons, List.length_append] at hlt hfit
    unfold update
    by_cases hle : c.length ≤ offset
    · obtain ⟨iov', h1, h2, h3⟩ := ih (offset - c.length) (by omega) (by omega)
      refine ⟨c :: iov', by rw [if_pos hle, h1]; rfl, ?_, ?_⟩
      · rw [List.flatten_cons, List.flatten_cons, h2, splice_append_right hle]
      · rw [List.map_cons, List.map_cons, h3]
    · rw [if_neg hle]
      obtain ⟨h1, h2⟩ := updateWrite_spec (c :: iov) offset buf
        (fun c' hc' => by obtain rfl : c = c' := by simpa using hc'
                          omega)
        (by rw [List.flatten_cons, List.length_append]; exact hfit)
      exact ⟨_, rfl, h1, h2⟩

end IpIovec
