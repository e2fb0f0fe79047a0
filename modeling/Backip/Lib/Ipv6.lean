/-!
# The headers of an IPv6 payload (RFC 2460, section 4)

`Ipv6.Payload nxt bytes`: bytes that follow an IPv6 header whose next-header field is `nxt` begin
with well-formed extension headers, of which only the first can be a hop-by-hop header.
`Payload.hop_of_not_hop` is the rule for putting one in front.
-/

set_option autoImplicit false

namespace Ipv6

/-- The options of a hop-by-hop header: single bytes of padding, or a type, a length and as many
bytes of data. -/
inductive Options : List UInt8 → Prop
  | nil : Options []
  | pad1 {l : List UInt8} (h : Options l) : Options (0 :: l)
  | tlv {type len : UInt8} {data l : List UInt8} (htype : type ≠ 0)
      (hlen : data.length = len.toNat) (h : Options l) : Options (type :: len :: (data ++ l))

/-- An option with a type, a length and data. -/
structure Tlv where
  type : UInt8
  data : List UInt8
  short : data.length < 256

def Tlv.bytes (t : Tlv) : List UInt8 := t.type :: UInt8.ofNat t.data.length :: t.data

/-- An option: a single byte of padding, or one with a type. -/
inductive Opt
  | pad1
  | tlv (t : Tlv) (htype : t.type ≠ 0)

namespace Opt

def bytes : Opt → List UInt8
  | pad1 => [0]
  | tlv t _ => t.bytes

/-- `Pad1` and `PadN`. -/
def isPad : Opt → Bool
  | pad1 => true
  | tlv t _ => t.type == 1

def len (o : Opt) : Nat := o.bytes.length

theorem len_pos (o : Opt) : 0 < o.len := by
  cases o with
  | pad1 => exact Nat.zero_lt_one
  | tlv t htype => exact Nat.succ_pos _

end Opt

/-- The length of options up to the padding at their end. -/
def contentLen : List Opt → Nat
  | [] => 0
  | o :: os => if contentLen os = 0 ∧ o.isPad then 0 else o.len + contentLen os

/-- Where the last option starts. -/
def lastStart : List Opt → Nat
  | [] => 0
  | [_] => 0
  | o :: os => o.len + lastStart os

theorem contentLen_le (os : List Opt) : contentLen os ≤ (os.flatMap Opt.bytes).length := by
  induction os with
  | nil => exact Nat.le_refl 0
  | cons o os ih =>
    rw [contentLen, List.flatMap_cons, List.length_append]
    split
    · exact Nat.zero_le _
    · exact Nat.add_le_add_left ih _

/-- An option in front moves the end of the options, or starts it. -/
theorem end_cons (o : Opt) (os : List Opt) (start fallback : Nat) :
    (if contentLen os = 0 then (if o.isPad then fallback else start + o.len)
      else start + o.len + contentLen os) =
      if contentLen (o :: os) = 0 then fallback else start + contentLen (o :: os) := by
  have hpos := o.len_pos
  rw [contentLen]
  generalize contentLen os = c
  by_cases hc : c = 0
  · cases hpad : o.isPad
    · simp [hc]
      omega
    · simp [hc]
  · have hsum : ¬(o.len + c = 0) := by omega
    simp [hc, hsum]
    omega

theorem lastStart_lt {os : List Opt} (hne : os ≠ []) :
    lastStart os < (os.flatMap Opt.bytes).length := by
  induction os with
  | nil => exact absurd rfl hne
  | cons o os ih =>
    rw [List.flatMap_cons, List.length_append]
    cases os with
    | nil => exact Nat.lt_of_lt_of_le o.len_pos (Nat.le_add_right _ _)
    | cons o' os => exact Nat.add_lt_add_left (ih (by simp)) _

/-! ## Searching the options -/

def Opt.type : Opt → UInt8
  | pad1 => 0
  | tlv t _ => t.type

/-- Where the options start, from `off`. -/
def starts (off : Nat) : List Opt → List Nat
  | [] => []
  | o :: os => off :: starts (off + o.len) os

/-- Where the first option of a type starts. -/
def firstStart (type : UInt8) (off : Nat) : List Opt → Option Nat
  | [] => none
  | o :: os => if o.type = type then some off else firstStart type (off + o.len) os

/-- Where the options start up to the first of a type. -/
def startsUpTo (type : UInt8) (off : Nat) : List Opt → List Nat
  | [] => []
  | o :: os => off :: if o.type = type then [] else startsUpTo type (off + o.len) os

/-- The extension headers that can stand after the first header: routing, destination options,
mobility. What follows a fragment header is not looked into. -/
def extensions : List UInt8 := [43, 60, 135]

inductive Headers : UInt8 → List UInt8 → Prop
  | upper {nxt : UInt8} {l : List UInt8} (hhop : nxt ≠ 0) (hext : nxt ∉ extensions) :
      Headers nxt l
  | ext {nxt nxt' len : UInt8} {body rest : List UInt8} (hext : nxt ∈ extensions)
      (hlen : body.length = 8 * len.toNat + 6) (h : Headers nxt' rest) :
      Headers nxt (nxt' :: len :: (body ++ rest))

inductive Payload : UInt8 → List UInt8 → Prop
  | hop {nxt len : UInt8} {options rest : List UInt8}
      (hlen : options.length = 8 * len.toNat + 6) (hopts : Options options)
      (h : Headers nxt rest) : Payload 0 (nxt :: len :: (options ++ rest))
  | noHop {nxt : UInt8} {l : List UInt8} (h : Headers nxt l) : Payload nxt l

/-- A hop-by-hop header can be put in front of a payload that has none. -/
theorem Payload.hop_of_not_hop {nxt len : UInt8} {options rest : List UInt8}
    (h : Payload nxt rest) (hhop : nxt ≠ 0) (hlen : options.length = 8 * len.toNat + 6)
    (hopts : Options options) : Payload 0 (nxt :: len :: (options ++ rest)) := by
  cases h with
  | hop => exact absurd rfl hhop
  | noHop h => exact .hop hlen hopts h

end Ipv6
