import Backip.Lib.OnesComplement
import Backip.System.IPPacket

/-!
# Checksums (`support/sdk/c/blip/lib6lowpan/in_cksum.c`)

`inCksum` adds the words of each chunk in 32 bits and folds the carries in at the end;
`inCksum_eq` says what that is. An `int` of the mote has 16 bits.
-/

set_option autoImplicit false

open OnesComplement

/-- The loop of `in_cksum` over a chunk. -/
def cksumChunk (sum : UInt32) : List UInt8 → UInt32
  | [] => sum
  | [a] => sum + (ntohs a 0).toUInt32
  | a :: b :: w => cksumChunk (sum + (ntohs a b).toUInt32) w

/-- The sum over a chain. -/
def cksumSum (vec : IpIovec) : UInt32 := vec.foldl cksumChunk 0

theorem toNat_fold (sum : UInt32) :
    ((sum &&& (0xffff : UInt32)) + (sum >>> 16)).toNat = endAround 65535 sum.toNat := by
  have hlt := sum.toNat_lt
  have hlow : (sum &&& (0xffff : UInt32)).toNat = sum.toNat % 65536 := by
    rw [UInt32.toNat_and]
    exact Nat.and_two_pow_sub_one_eq_mod sum.toNat 16
  have hhigh : (sum >>> 16).toNat = sum.toNat / 65536 := by
    rw [UInt32.toNat_shiftRight, show (16 : UInt32).toNat % 32 = 16 from rfl,
      Nat.shiftRight_eq_div_pow]
  rw [UInt32.toNat_add, hlow, hhigh, endAround]
  omega

/-- The loop that folds the carries. -/
def cksumFold (sum : UInt32) : UInt32 :=
  if 0xffff < sum then cksumFold ((sum &&& (0xffff : UInt32)) + (sum >>> 16)) else sum
termination_by sum.toNat
decreasing_by
  rename_i h
  rw [UInt32.lt_iff_toNat_lt, show (0xffff : UInt32).toNat = 65535 from rfl] at h
  rw [toNat_fold, endAround]
  omega

/-- `in_cksum`. -/
def inCksum (vec : IpIovec) : UInt16 := ~~~(cksumFold (cksumSum vec)).toUInt16

/-- `msg_cksum`. -/
def msgCksum (iph : Ip6Hdr) (data : IpIovec) (nxtHdr : UInt8) : UInt16 :=
  let hdr := (UInt32.ofNat data.len).netBytes ++ nxtHdr.toUInt32.netBytes
  inCksum (iph.src.toList :: iph.dst.toList :: hdr :: data)

/-! ## The sum -/

/-- Every chunk with a byte behind it has even length. -/
def EvenChunks : IpIovec → Prop
  | [] => True
  | c :: vec => (vec.flatten = [] ∨ c.length % 2 = 0) ∧ EvenChunks vec

theorem cksumChunk_append (sum : UInt32) {l : List UInt8} (heven : l.length % 2 = 0)
    (l' : List UInt8) : cksumChunk sum (l ++ l') = cksumChunk (cksumChunk sum l) l' := by
  induction sum, l using cksumChunk.induct with
  | case1 sum => rfl
  | case2 sum a => simp at heven
  | case3 sum a b w ih =>
    rw [List.length_cons, List.length_cons] at heven
    rw [List.cons_append, List.cons_append, cksumChunk, cksumChunk, ih (by omega)]

theorem foldl_cksumChunk_nil {vec : IpIovec} (h : vec.flatten = []) (sum : UInt32) :
    vec.foldl cksumChunk sum = sum := by
  induction vec generalizing sum with
  | nil => rfl
  | cons c vec ih =>
    rw [List.flatten_cons, List.append_eq_nil_iff] at h
    rw [List.foldl_cons, h.1, ih h.2]
    rfl

/-- Cutting bytes into even chunks does not change their sum. -/
theorem foldl_cksumChunk {vec : IpIovec} (heven : EvenChunks vec) (sum : UInt32) :
    vec.foldl cksumChunk sum = cksumChunk sum vec.flatten := by
  induction vec generalizing sum with
  | nil => rfl
  | cons c vec ih =>
    obtain ⟨hc | hc, hvec⟩ := heven
    · rw [List.foldl_cons, foldl_cksumChunk_nil hc, List.flatten_cons, hc, List.append_nil]
    · rw [List.foldl_cons, ih hvec, List.flatten_cons, cksumChunk_append sum hc]

theorem toNat_cksumChunk (sum : UInt32) (bytes : List UInt8) :
    (cksumChunk sum bytes).toNat = (sum.toNat + (netWords bytes).sum) % 2 ^ 32 := by
  have hword (a b : UInt8) : (ntohs a b).toUInt32.toNat = a.toNat * 256 + b.toNat := by
    rw [UInt16.toNat_toUInt32, toNat_ntohs]
  induction sum, bytes using cksumChunk.induct with
  | case1 sum =>
    have hlt := sum.toNat_lt
    rw [cksumChunk, netWords, List.sum_nil]
    omega
  | case2 sum a =>
    rw [cksumChunk, netWords, List.sum_singleton, UInt32.toNat_add, hword,
      show (0 : UInt8).toNat = 0 from rfl, Nat.add_zero]
  | case3 sum a b w ih =>
    rw [cksumChunk, ih, netWords, List.sum_cons, UInt32.toNat_add, hword]
    omega

theorem toNat_cksumFold (sum : UInt32) : (cksumFold sum).toNat = residue 65535 sum.toNat := by
  induction sum using cksumFold.induct with
  | case1 sum h ih => rw [cksumFold, if_pos h, ih, toNat_fold, residue_endAround]
  | case2 sum h =>
    rw [UInt32.lt_iff_toNat_lt, show (0xffff : UInt32).toNat = 65535 from rfl] at h
    rw [cksumFold, if_neg (by rwa [UInt32.lt_iff_toNat_lt]), residue_of_le (by omega)]

/-- **`in_cksum` of a chain with even chunks**: the checksum of what is left of the sum of its words
in 32 bits. -/
theorem inCksum_eq {vec : IpIovec} (heven : EvenChunks vec) :
    (inCksum vec).toNat = 65535 - residue 65535 ((netWords vec.flatten).sum % 2 ^ 32) := by
  have hres := residue_le (m := 65535) (by decide) ((netWords vec.flatten).sum % 2 ^ 32)
  have hsum : (cksumFold (cksumSum vec)).toNat =
      residue 65535 ((netWords vec.flatten).sum % 2 ^ 32) := by
    rw [toNat_cksumFold, cksumSum, foldl_cksumChunk heven, toNat_cksumChunk]
    rw [show (0 : UInt32).toNat = 0 from rfl, Nat.zero_add]
  rw [inCksum, UInt16.toNat_not, UInt32.toNat_toUInt16, hsum, Nat.mod_eq_of_lt (by omega)]
  rfl
