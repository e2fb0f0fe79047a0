import Backip.Blip.ForwardingEngine

/-!
# Addresses as text (`support/sdk/c/blip/lib6lowpan/utility.c`)

`inetNtop6` writes an address and `inetPton6` reads one. A string is the list of its characters,
without the 0 behind them; `none` stands for behaviour that the source leaves undefined: an access
outside the buffer or the address, or a shift by the width of an `int`.
-/

set_option autoImplicit false

namespace Blip

/-- `s6_addr16`, in host order. -/
def In6Addr.words (a : In6Addr) : List UInt16 := .ofFn (In6Addr.word a)

/-- `dest->s6_addr16[block] = htons(cur)`. -/
def In6Addr.setWord (a : In6Addr) (block : UInt8) (cur : UInt16) : Option In6Addr :=
  if h : block.toNat < 8 then
    some ((a.set (2 * block.toNat) (cur >>> 8).toUInt8).set (2 * block.toNat + 1) cur.toUInt8)
  else none

abbrev colon : UInt8 := ':'.toUInt8

/-- `TO_CHAR`. -/
def toChar (x : UInt16) : UInt8 :=
  if x < 10 then '0'.toUInt8 + x.toUInt8 else 'a'.toUInt8 + (x - 10).toUInt8

/-- `CHAR_VAL` of a `char`, as far as it is stored in 16 bits. -/
def charVal (c : UInt8) : UInt16 :=
  if '0'.toUInt8 ≤ c ∧ c ≤ '9'.toUInt8 then (c - '0'.toUInt8).toUInt16
  else if 'A'.toUInt8 ≤ c ∧ c ≤ 'F'.toUInt8 then (c - 'A'.toUInt8).toUInt16 + 10
  else .ofInt (c.toInt8.toInt - 'a'.toNat + 10)

/-! ## `inet_pton6` -/

/-- Where the loop from the front stops. -/
inductive Front
  | returned (dest : In6Addr)
  | stopped (dest : In6Addr)

/-- The loop from the front, where `p` is the rest of the string. -/
def frontLoop : List UInt8 → In6Addr → UInt8 → UInt16 → Option Front
  | [], dest, _, _ => some (.stopped dest)
  | c :: p, dest, block, cur =>
    let field : Option (In6Addr × UInt8 × UInt16) :=
      if c ≠ colon then some (dest, block, cur <<< 4 ||| charVal c)
      else (dest.setWord block cur).map fun dest => (dest, block + 1, 0)
    field.bind fun (dest, block, cur) =>
      match p with
      | [] => (dest.setWord block cur).map .returned
      | c' :: _ =>
        if c = colon ∧ c' = colon then some (.stopped dest) else frontLoop p dest block cur

/-- The loop from the end. The characters from `p` to the first are listed, the last first; it
does not look at the first of the string. -/
def backLoop : List UInt8 → In6Addr → UInt8 → UInt16 → UInt8 → Option In6Addr
  | [], dest, _, _, _ | [_], dest, _, _, _ => some dest
  | c :: c' :: p, dest, block, cur, shift =>
    let field : Option (In6Addr × UInt8 × UInt16 × UInt8) :=
      if c ≠ colon then
        if shift < 16 then
          some (dest, block, cur ||| charVal c <<< shift.toUInt16, shift + 4)
        else none
      else (dest.setWord block cur).map fun dest => (dest, block - 1, 0, 0)
    field.bind fun (dest, block, cur, shift) =>
      if c = colon ∧ c' = colon then some dest else backLoop (c' :: p) dest block cur shift

/-- `inet_pton6` of a string and an address that are there. -/
def inetPton6 (addr : List UInt8) : Option In6Addr :=
  (frontLoop addr (.replicate 16 0) 0 0).bind fun
    | .returned dest => some dest
    | .stopped dest => backLoop addr.reverse dest 7 0 0

/-! ## `inet_ntop6` -/

/-- Characters that are written behind others in a buffer of `cnt` bytes. -/
def putText (cnt : Nat) (buf text : List UInt8) : Option (List UInt8) :=
  if buf.length + text.length ≤ cnt then some (buf ++ text) else none

/-- The digits of a block. -/
def blockText (block : UInt16) (compressed : Nat) : List UInt8 :=
  [4, 8, 12, 16].filterMap fun i : UInt16 =>
    if (0xffff >>> i.toNat : Nat) < block.toNat ∨ (compressed = 2 ∧ i = 16) then
      some (toChar ((block >>> (16 - i)) &&& 0xf))
    else none

/-- The loop over the blocks that are left, and what follows it. -/
def ntopLoop (cnt : Nat) : List UInt16 → Nat → List UInt8 → Option (List UInt8)
  | [], compressed, buf => if compressed = 1 then putText cnt buf [colon] else some buf
  | block :: rest, compressed, buf =>
    if cnt < buf.length + 8 then some buf
    else
      (putText cnt buf (blockText block compressed)).bind fun buf =>
      let zero : Option (Nat × List UInt8) :=
        if block = 0 ∧ compressed = 0 then (putText cnt buf [colon]).map (compressed + 1, ·)
        else some (compressed, buf)
      zero.bind fun (compressed, buf) =>
      let compressed := if block ≠ 0 ∧ compressed = 1 then compressed + 1 else compressed
      let next := if rest ≠ [] ∧ compressed ≠ 1 then putText cnt buf [colon] else some buf
      next.bind fun buf => ntopLoop cnt rest compressed buf

/-- `inet_ntop6`: the characters that it writes, the last of which is 0, and what it returns. -/
def inetNtop6 (addr : In6Addr) (cnt : Nat) : Option (List UInt8 × Nat) :=
  (ntopLoop cnt addr.words 0 []).bind fun buf =>
    (putText cnt buf [0]).map fun buf => (buf, buf.length)

end Blip
