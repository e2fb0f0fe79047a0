import Backip.Coap.Pdu
import Mathlib

/-!
# From one CoAP host to another

`encode` says what bytes a list of options is, `raw` which options there are with the fence posts.
`Holds` is what a message keeps while it is built; `holds_addOption` is its step lemma and
`holds_options` its run lemma. `message_round_trip` follows a message through the network.
-/

set_option autoImplicit false

namespace Coap

/-- An option: its number and its value. -/
abbrev Opt : Type := Nat × List Byte

def optBytes (delta : Nat) (value : List Byte) : List Byte := optHeader delta value.length ++ value

/-- The bytes of options behind the one of number `code`. -/
def encode : Nat → List Opt → List Byte
  | _, [] => []
  | code, o :: os => optBytes (o.1 - code) o.2 ++ encode o.1 os

/-- The fence posts between two numbers. -/
def posts (code type : Nat) : List Opt :=
  if type ≤ code + 15 then []
  else (List.range ((type - 2) / 14 - code / 14)).map fun k => (14 * (code / 14 + 1 + k), [])

/-- The options with their fence posts. -/
def raw : Nat → List Opt → List Opt
  | _, [] => []
  | code, o :: os => posts code o.1 ++ o :: raw o.1 os

def lastNumber (code : Nat) (os : List Opt) : Nat := os.foldl (fun _ o => o.1) code

/-- Each option can be coded behind the one before. -/
def Coded : Nat → List Opt → Prop
  | _, [] => True
  | code, o :: os =>
    (code ≤ o.1 ∧ o.1 ≤ code + 15) ∧ (o.1 < 256 ∧ o.2.length ≤ 270) ∧ Coded o.1 os

/-! ## Reading one option -/

section Read

variable {body rest v : List Byte} {off d : Nat}

theorem byteAt_of_drop {b : Byte} (h : body.drop off = b :: rest) : byteAt body off = .ok b := by
  rw [byteAt, h]
  rfl

theorem drop_add {xs : List Byte} (h : body.drop off = xs ++ rest) :
    body.drop (off + xs.length) = rest := by
  rw [← List.drop_drop, h, List.drop_left]

/-- The first byte of an option, and what it says. -/
theorem byteAt_opt (hd : d < 16) (h : body.drop off = optBytes d v ++ rest) :
    ∃ b, byteAt body off = .ok b ∧ optDelta b = d ∧
      (isExtended b = decide (15 ≤ v.length)) ∧ (v.length < 15 → b.toNat % 16 = v.length) := by
  unfold optBytes optHeader at h
  by_cases hv : v.length < 15
  · rw [if_pos hv] at h
    have hb : (BitVec.ofNat 8 (d % 16 * 16 + v.length)).toNat = d * 16 + v.length := by
      rw [BitVec.toNat_ofNat]
      omega
    refine ⟨_, byteAt_of_drop h, ?_, ?_, fun _ => ?_⟩
    · rw [optDelta, hb]
      omega
    · rw [isExtended, hb, decide_eq_decide]
      omega
    · rw [hb]
      omega
  · rw [if_neg hv] at h
    have hb : (BitVec.ofNat 8 (d % 16 * 16 + 15)).toNat = d * 16 + 15 := by
      rw [BitVec.toNat_ofNat]
      omega
    refine ⟨_, byteAt_of_drop h, ?_, ?_, fun h => absurd h hv⟩
    · rw [optDelta, hb]
      omega
    · rw [isExtended, hb, decide_eq_decide]
      omega

theorem length_optHeader (d n : Nat) : (optHeader d n).length = if 15 ≤ n then 2 else 1 := by
  unfold optHeader
  by_cases hn : n < 15
  · rw [if_pos hn, if_neg (by omega)]
    rfl
  · rw [if_neg hn, if_pos (by omega)]
    rfl

theorem optLength_opt (hd : d < 16) (hv : v.length ≤ 270)
    (h : body.drop off = optBytes d v ++ rest) : optLength body off = .ok v.length := by
  obtain ⟨b, hb, _, hext, hshort⟩ := byteAt_opt hd h
  rw [optLength, hb, Buffer.ok_bind, hext]
  by_cases hlen : 15 ≤ v.length
  · have hlong : body.drop (off + 1) = BitVec.ofNat 8 (v.length - 15) :: (v ++ rest) := by
      rw [optBytes, optHeader, if_neg (by omega)] at h
      exact drop_add (show _ = [_] ++ _ from h)
    rw [decide_eq_true hlen, if_pos rfl, byteAt_of_drop hlong, Buffer.ok_bind, BitVec.toNat_ofNat,
      Nat.mod_eq_of_lt (by omega), Nat.sub_add_cancel hlen]
  · rw [decide_eq_false hlen, if_neg (by decide), hshort (by omega)]

theorem optValue_opt (hd : d < 16) (h : body.drop off = optBytes d v ++ rest) :
    optValue body off = .ok (off + (optHeader d v.length).length) := by
  obtain ⟨b, hb, _, hext, _⟩ := byteAt_opt hd h
  rw [optValue, hb, Buffer.ok_bind, hext, length_optHeader]
  by_cases hlen : 15 ≤ v.length
  · rw [decide_eq_true hlen, if_pos rfl, if_pos hlen]
  · rw [decide_eq_false hlen, if_neg (by decide), if_neg hlen]

theorem optSize_opt (hd : d < 16) (hv : v.length ≤ 270)
    (h : body.drop off = optBytes d v ++ rest) : optSize body off = .ok (optBytes d v).length := by
  obtain ⟨b, hb, _, hext, _⟩ := byteAt_opt hd h
  rw [optSize, optLength_opt hd hv h, Buffer.ok_bind, hb, Buffer.ok_bind, hext, optBytes,
    List.length_append, length_optHeader, Nat.add_comm]
  by_cases hlen : 15 ≤ v.length
  · rw [decide_eq_true hlen, if_pos rfl, if_pos hlen]
  · rw [decide_eq_false hlen, if_neg (by decide), if_neg hlen]

theorem optString_opt (hd : d < 16) (hv : v.length ≤ 270)
    (h : body.drop off = optBytes d v ++ rest) : optString body off = .ok v := by
  have hvalue : body.drop (off + (optHeader d v.length).length) = v ++ rest := by
    rw [optBytes, List.append_assoc] at h
    exact drop_add h
  rw [optString, optLength_opt hd hv h, Buffer.ok_bind, optValue_opt hd h, Buffer.ok_bind, hvalue,
    Buffer.take_append rfl]
  rfl

end Read

/-! ## Walking over the options -/

theorem encode_append (os os' : List Opt) (code : Nat) :
    encode code (os ++ os') = encode code os ++ encode (lastNumber code os) os' := by
  induction os generalizing code with
  | nil => rfl
  | cons o os ih =>
    rw [List.cons_append, encode, encode, ih, List.append_assoc]
    rfl

theorem lastNumber_append (os os' : List Opt) (code : Nat) :
    lastNumber code (os ++ os') = lastNumber (lastNumber code os) os' := List.foldl_append

theorem coded_append {os os' : List Opt} {code : Nat} :
    Coded code (os ++ os') ↔ Coded code os ∧ Coded (lastNumber code os) os' := by
  induction os generalizing code with
  | nil => exact ⟨fun h => ⟨trivial, h⟩, fun h => h.2⟩
  | cons o os ih =>
    rw [List.cons_append, Coded, ih]
    constructor
    · rintro ⟨hgap, hvalue, hos, hos'⟩
      exact ⟨⟨hgap, hvalue, hos⟩, hos'⟩
    · rintro ⟨⟨hgap, hvalue, hos⟩, hos'⟩
      exact ⟨hgap, hvalue, hos, hos'⟩

theorem lt_of_coded {os : List Opt} {code : Nat} (h : Coded code os) {o : Opt} (ho : o ∈ os) :
    code ≤ o.1 := by
  induction os generalizing code with
  | nil => cases ho
  | cons o' os ih =>
    obtain ⟨⟨hle, _⟩, _, hos⟩ := h
    rcases List.mem_cons.1 ho with rfl | ho
    · exact hle
    · exact hle.trans (ih hos ho)

section Walk

variable {body rest : List Byte}

/-- The first option and the bytes behind it. -/
theorem drop_encode {o : Opt} {os : List Opt} {off code : Nat}
    (h : body.drop off = encode code (o :: os) ++ rest) :
    body.drop off = optBytes (o.1 - code) o.2 ++ (encode o.1 os ++ rest) ∧
      body.drop (off + (optBytes (o.1 - code) o.2).length) = encode o.1 os ++ rest := by
  rw [encode, List.append_assoc] at h
  exact ⟨h, drop_add h⟩

/-- What the loops find at an option: the number and the size. -/
theorem at_option {o : Opt} {os : List Opt} {off code : Nat}
    (hcoded : Coded code (o :: os)) (h : body.drop off = encode code (o :: os) ++ rest) :
    ∃ b, byteAt body off = .ok b ∧ (code + optDelta b) % 256 = o.1 ∧
      optSize body off = .ok (optBytes (o.1 - code) o.2).length ∧ optString body off = .ok o.2 := by
  obtain ⟨⟨hle, hgap⟩, ⟨hlt, hlen⟩, _⟩ := hcoded
  have hd : o.1 - code < 16 := by omega
  obtain ⟨hopt, _⟩ := drop_encode h
  obtain ⟨b, hb, hdelta, _, _⟩ := byteAt_opt hd hopt
  refine ⟨b, hb, ?_, optSize_opt hd hlen hopt, optString_opt hd hlen hopt⟩
  rw [hdelta, Nat.add_sub_cancel' hle, Nat.mod_eq_of_lt hlt]

theorem optionsEnd_encode {os : List Opt} {off code : Nat} (hcoded : Coded code os)
    (h : body.drop off = encode code os ++ rest) :
    optionsEnd body os.length off code =
      .ok (off + (encode code os).length, lastNumber code os) := by
  induction os generalizing off code with
  | nil => rfl
  | cons o os ih =>
    obtain ⟨b, hb, hnumber, hsize, _⟩ := at_option hcoded h
    rw [List.length_cons, optionsEnd, hb, Buffer.ok_bind, hsize, Buffer.ok_bind, hnumber,
      ih hcoded.2.2 (drop_encode h).2, encode, List.length_append, Nat.add_assoc]
    rfl

theorem checkOptionLoop_of_le {type cnt off code : Nat} (h : type ≤ code) :
    checkOptionLoop body type cnt off code = .ok none := by
  cases cnt with
  | zero => rfl
  | succ cnt => rw [checkOptionLoop, if_neg (by omega)]

/-- The first option of the number is found. -/
theorem checkOptionLoop_encode {os : List Opt} {type off code : Nat} (hcoded : Coded code os)
    (h : body.drop off = encode code os ++ rest) (hcode : code < type) :
    (os.find? (·.1 = type) = none ∧ checkOptionLoop body type os.length off code = .ok none) ∨
      ∃ o off', os.find? (·.1 = type) = some o ∧
        checkOptionLoop body type os.length off code = .ok (some off') ∧
        optString body off' = .ok o.2 := by
  induction os generalizing off code with
  | nil => exact .inl ⟨rfl, rfl⟩
  | cons o os ih =>
    obtain ⟨b, hb, hnumber, hsize, hstring⟩ := at_option hcoded h
    rw [List.length_cons, checkOptionLoop, if_pos hcode, hb, Buffer.ok_bind, hnumber]
    by_cases hfound : o.1 = type
    · rw [if_pos hfound.symm]
      exact .inr ⟨o, off, List.find?_cons_of_pos (decide_eq_true hfound), rfl, hstring⟩
    · have hskip : (o :: os).find? (·.1 = type) = os.find? (·.1 = type) :=
        List.find?_cons_of_neg (by rw [decide_eq_true_eq]; exact hfound)
      rw [if_neg (Ne.symm hfound), hsize, Buffer.ok_bind, hskip]
      rcases Nat.lt_or_ge o.1 type with hlt | hge
      · exact ih hcoded.2.2 (drop_encode h).2 hlt
      -- the numbers of the others are greater
      · refine .inl ⟨List.find?_eq_none.2 fun o' ho' => ?_, checkOptionLoop_of_le hge⟩
        have hle := lt_of_coded hcoded.2.2 ho'
        rw [decide_eq_true_eq]
        omega

theorem checkCriticalLoop_encode {os : List Opt} {off code : Nat} (hcoded : Coded code os)
    (h : body.drop off = encode code os ++ rest) :
    (os.find? (unknownCritical ·.1) = none ∧
        checkCriticalLoop body os.length off code = .ok none) ∨
      ∃ o off', os.find? (unknownCritical ·.1) = some o ∧
        checkCriticalLoop body os.length off code = .ok (some (o.1, off')) ∧
        optString body off' = .ok o.2 := by
  induction os generalizing off code with
  | nil => exact .inl ⟨rfl, rfl⟩
  | cons o os ih =>
    obtain ⟨b, hb, hnumber, hsize, hstring⟩ := at_option hcoded h
    rw [List.length_cons, checkCriticalLoop, hb, Buffer.ok_bind]
    dsimp only
    rw [hnumber]
    by_cases hfound : unknownCritical o.1 = true
    · rw [if_pos hfound]
      exact .inr ⟨o, off, List.find?_cons_of_pos hfound, rfl, hstring⟩
    · have hskip : (o :: os).find? (unknownCritical ·.1) = os.find? (unknownCritical ·.1) :=
        List.find?_cons_of_neg hfound
      rw [if_neg hfound, hsize, Buffer.ok_bind, hskip]
      exact ih hcoded.2.2 (drop_encode h).2

end Walk

/-! ## Fence posts -/

theorem posts_of_near {code type : Nat} (h : type ≤ code + 15) : posts code type = [] := if_pos h

theorem posts_of_far {code type : Nat} (h : code + 15 < type) :
    posts code type = (nextPost code, []) :: posts (nextPost code) type := by
  have hnext : nextPost code / 14 = code / 14 + 1 := Nat.mul_div_cancel_left _ (by decide)
  obtain ⟨n, hn⟩ : ∃ n, (type - 2) / 14 - code / 14 = n + 1 :=
    ⟨(type - 2) / 14 - code / 14 - 1, by omega⟩
  have hhead : ((14 * (code / 14 + 1 + 0), []) : Opt) = (nextPost code, []) := rfl
  rw [posts, if_neg (by omega), hn, List.range_succ_eq_map, List.map_cons, List.map_map, hhead]
  refine congrArg _ ?_
  by_cases hlast : type ≤ nextPost code + 15
  · have hnone : n = 0 := by
      unfold nextPost at hlast
      omega
    rw [posts_of_near hlast, hnone]
    rfl
  · have hrest : (type - 2) / 14 - nextPost code / 14 = n := by omega
    rw [posts, if_neg hlast, hrest, hnext]
    refine List.map_congr_left fun k _ => ?_
    refine Prod.ext ?_ rfl
    dsimp only [Function.comp_apply]
    omega

/-- Fence posts have numbers of their own. -/
theorem mod_posts {code type : Nat} {o : Opt} (ho : o ∈ posts code type) : o.1 % 14 = 0 := by
  unfold posts at ho
  split at ho
  · cases ho
  · obtain ⟨k, _, rfl⟩ := List.mem_map.1 ho
    exact Nat.mul_mod_right _ _

theorem find?_raw {p : Opt → Bool} (hp : ∀ o : Opt, o.1 % 14 = 0 → p o = false) (os : List Opt)
    (code : Nat) : (raw code os).find? p = os.find? p := by
  induction os generalizing code with
  | nil => rfl
  | cons o os ih =>
    have hposts : (posts code o.1).find? p = none :=
      List.find?_eq_none.2 fun o' ho' => by rw [hp o' (mod_posts ho')]; decide
    rw [raw, List.find?_append, hposts, Option.none_or, List.find?_cons, List.find?_cons, ih]

/-- The fence posts and the option behind them are coded. -/
theorem coded_posts {o : Opt} {code : Nat} (hle : code ≤ o.1) (hlt : o.1 < 256)
    (hlen : o.2.length ≤ 270) : Coded code (posts code o.1 ++ [o]) := by
  by_cases hnear : o.1 ≤ code + 15
  · rw [posts_of_near hnear]
    exact ⟨⟨hle, hnear⟩, ⟨hlt, hlen⟩, trivial⟩
  · obtain ⟨hgt, hnext⟩ := lt_nextPost code
    rw [posts_of_far (by omega)]
    exact ⟨⟨hgt.le, by omega⟩, ⟨by omega, Nat.zero_le _⟩, coded_posts (by omega) hlt hlen⟩
termination_by o.1 - code
decreasing_by
  have := lt_nextPost code
  omega

theorem encode_posts_length (type code : Nat) :
    (encode code (posts code type)).length = (posts code type).length := by
  by_cases hnear : type ≤ code + 15
  · rw [posts_of_near hnear]
    rfl
  · rw [posts_of_far (by omega), encode, List.length_append, encode_posts_length,
      List.length_cons, Nat.add_comm]
    rfl
termination_by type - code
decreasing_by
  have := lt_nextPost code
  omega

/-- The loop writes the fence posts, if there is room for them. -/
theorem fencePosts_eq (type : Nat) (hdr : Hdr) (pre old : List Byte) (code : Nat) :
    fencePosts type hdr (pre ++ old) pre.length code =
      if (posts code type).length ≤ old.length then
        .ok ({ hdr with optcnt := hdr.optcnt + BitVec.ofNat 4 (posts code type).length },
          pre ++ (encode code (posts code type) ++ old.drop (posts code type).length),
          pre.length + (posts code type).length, lastNumber code (posts code type))
      else .error .outOfBounds := by
  rw [fencePosts]
  by_cases hnear : type ≤ code + 15
  · rw [if_neg (by omega), posts_of_near hnear]
    simp [encode, lastNumber]
  · rw [posts_of_far (by omega), if_pos (by omega), List.length_cons]
    cases old with
    | nil =>
      rw [List.length_nil, if_neg (by omega), Buffer.write_error]
      rw [List.append_nil, length_optHeader]
      exact Nat.lt_succ_self _
    | cons a old =>
      have hwrite := Buffer.write_append pre [a] (optHeader (nextPost code - code) 0) old rfl rfl
      have hcnt : hdr.optcnt + 1 + BitVec.ofNat 4 (posts (nextPost code) type).length =
          hdr.optcnt + BitVec.ofNat 4 ((posts (nextPost code) type).length + 1) := by
        rw [BitVec.add_assoc]
        refine congrArg _ ?_
        rw [BitVec.ofNat_add, BitVec.add_comm]
        rfl
      have hlen : (pre ++ optHeader (nextPost code - code) 0).length = pre.length + 1 :=
        List.length_append
      have ih := fencePosts_eq type { hdr with optcnt := hdr.optcnt + 1 }
        (pre ++ optHeader (nextPost code - code) 0) old (nextPost code)
      rw [hlen, List.append_assoc] at ih
      rw [show pre ++ a :: old = pre ++ ([a] ++ old) from rfl, hwrite]
      dsimp only
      rw [ih, encode, List.length_cons]
      by_cases hroom : (posts (nextPost code) type).length ≤ old.length
      · rw [if_pos hroom, if_pos (by omega)]
        dsimp only
        rw [hcnt, List.drop_succ_cons, optBytes, List.append_nil, List.append_assoc,
          List.append_assoc, Nat.add_right_comm, Nat.add_assoc]
        rfl
      · rw [if_neg hroom, if_neg (by omega)]
termination_by type - code
decreasing_by
  have := lt_nextPost code
  omega

/-! ## Building a message -/

/-- The message has exactly these options, with the fence posts, and no payload yet. -/
structure Holds (pdu : Pdu) (os : List Opt) : Prop where
  count : pdu.hdr.optcnt.toNat = os.length
  coded : Coded 0 os
  body : ∃ rest, pdu.body = encode 0 os ++ rest
  size : pdu.body.length = maxPduSize - hdrSize
  length : pdu.length = hdrSize + (encode 0 os).length
  data : pdu.data = pdu.length

/-- The fields of the header that the caller sets stay. -/
def SameFields (hdr hdr' : Hdr) : Prop := hdr' = { hdr with optcnt := hdr'.optcnt }

theorem SameFields.trans {hdr hdr' hdr'' : Hdr} (h : SameFields hdr hdr')
    (h' : SameFields hdr' hdr'') : SameFields hdr hdr'' := by
  rw [SameFields, h', h]

/-- What one more option adds: the fence posts and the option. -/
def added (code : Nat) (o : Opt) : List Opt := posts code o.1 ++ [o]

theorem raw_cons (code : Nat) (o : Opt) (os : List Opt) :
    raw code (o :: os) = added code o ++ raw o.1 os := by
  rw [raw, added, List.append_assoc]
  rfl

theorem lastNumber_added (code : Nat) (o : Opt) : lastNumber code (added code o) = o.1 :=
  lastNumber_append _ _ _

section Add

variable {pdu : Pdu} {os : List Opt} {o : Opt}

/-- The option goes behind the fence posts. -/
theorem encode_added (code : Nat) (o : Opt) :
    encode code (added code o) = encode code (posts code o.1) ++
      optBytes (o.1 - lastNumber code (posts code o.1)) o.2 := by
  rw [added, encode_append, encode, encode, List.append_nil]

theorem optionsEnd_of_holds (h : Holds pdu os) :
    optionsEnd pdu.body pdu.hdr.optcnt.toNat 0 0 =
      .ok ((encode 0 os).length, lastNumber 0 os) := by
  obtain ⟨rest, hbody⟩ := h.body
  have hdrop : pdu.body.drop 0 = encode 0 os ++ rest := hbody
  have hend := optionsEnd_encode h.coded hdrop
  rw [Nat.zero_add] at hend
  rw [h.count, hend]

/-- What `coap_add_option` leaves. -/
theorem addOption_eq (h : Holds pdu os) (hle : lastNumber 0 os ≤ o.1) (hlt : o.1 < 256)
    (hlen : o.2.length ≤ 270)
    (hfit : hdrSize + (encode 0 (os ++ added (lastNumber 0 os) o)).length ≤ maxPduSize) :
    ∃ rest, (encode 0 (os ++ added (lastNumber 0 os) o) ++ rest).length = maxPduSize - hdrSize ∧
      addOption pdu o.1 o.2 = .ok
        { hdr := { pdu.hdr with optcnt :=
            pdu.hdr.optcnt + BitVec.ofNat 4 (added (lastNumber 0 os) o).length }
          body := encode 0 (os ++ added (lastNumber 0 os) o) ++ rest
          length := hdrSize + (encode 0 (os ++ added (lastNumber 0 os) o)).length
          data := hdrSize + (encode 0 (os ++ added (lastNumber 0 os) o)).length } := by
  obtain ⟨rest, hbody⟩ := h.body
  have hend := optionsEnd_of_holds h
  have hsize := h.size
  have hnumbers := (coded_append.1 (coded_posts hle hlt hlen)).2
  have hposts := encode_posts_length o.1 (lastNumber 0 os)
  rw [encode_append, encode_added] at hfit ⊢
  rw [added]
  rw [hbody] at hsize hend
  simp only [List.length_append, maxPduSize, hdrSize, hposts] at hfit hsize
  generalize lastNumber 0 os = c at *
  have hfence := fencePosts_eq o.1 pdu.hdr (encode 0 os) rest c
  rw [if_pos (by omega)] at hfence
  generalize posts c o.1 = ps at *
  generalize lastNumber c ps = l at *
  have hgap : o.1 - l < 16 := by
    have := hnumbers.1.2
    omega
  generalize hopt : optBytes (o.1 - l) o.2 = bytes at *
  have hwide : bytes.length = (optHeader (o.1 - l) o.2.length).length + o.2.length := by
    rw [← hopt, optBytes, List.length_append]
  -- the bytes that the option overwrites, and those behind
  obtain ⟨old, post, hcut, hold⟩ : ∃ old post, rest.drop ps.length = old ++ post ∧
      bytes.length = old.length :=
    ⟨_, _, (List.take_append_drop bytes.length _).symm, by
      rw [List.length_take, List.length_drop]
      omega⟩
  have hpre : (encode 0 os).length + ps.length = (encode 0 os ++ encode c ps).length := by
    rw [List.length_append, hposts]
  have hwrite := Buffer.write_append (encode 0 os ++ encode c ps) old bytes post hpre hold
  have hdrop : ((encode 0 os ++ encode c ps) ++ (bytes ++ post)).drop
      ((encode 0 os).length + ps.length) = bytes ++ post := by
    rw [← hposts, ← List.length_append, List.drop_left]
  have hvalue : optValue ((encode 0 os ++ encode c ps) ++ (bytes ++ post))
      ((encode 0 os).length + ps.length) = _ := optValue_opt hgap (by rw [hdrop, hopt])
  refine ⟨post, ?_, ?_⟩
  · have := congrArg List.length hcut
    simp only [List.length_append, List.length_drop, hposts, maxPduSize, hdrSize] at this ⊢
    omega
  · rw [addOption, hbody, hend, Buffer.ok_bind]
    dsimp only
    rw [if_neg (by omega), hfence, Buffer.ok_bind]
    dsimp only
    rw [show optHeader (o.1 - l) o.2.length ++ o.2 = bytes from hopt, hcut, ← List.append_assoc,
      hwrite, Buffer.ok_bind, hvalue, Buffer.ok_bind]
    have hcount : pdu.hdr.optcnt + BitVec.ofNat 4 ps.length + 1 =
        pdu.hdr.optcnt + BitVec.ofNat 4 (ps ++ [o]).length := by
      rw [List.length_append, List.length_singleton, BitVec.ofNat_add, BitVec.add_assoc]
      rfl
    have hlength : hdrSize + ((encode 0 os).length + ps.length +
        (optHeader (o.1 - l) o.2.length).length) + o.2.length =
        hdrSize + (encode 0 os ++ (encode c ps ++ bytes)).length := by
      rw [List.length_append, List.length_append, hposts, hwide]
      omega
    rw [hcount, hlength, List.append_assoc, List.append_assoc, List.append_assoc]

theorem holds_addOption (h : Holds pdu os) (hle : lastNumber 0 os ≤ o.1) (hlt : o.1 < 256)
    (hlen : o.2.length ≤ 270) (hcount : (os ++ added (lastNumber 0 os) o).length ≤ 15)
    (hfit : hdrSize + (encode 0 (os ++ added (lastNumber 0 os) o)).length ≤ maxPduSize) :
    ∃ pdu', addOption pdu o.1 o.2 = .ok pdu' ∧ Holds pdu' (os ++ added (lastNumber 0 os) o) ∧
      SameFields pdu.hdr pdu'.hdr := by
  obtain ⟨rest, hsize, heq⟩ := addOption_eq h hle hlt hlen hfit
  rw [List.length_append] at hcount
  refine ⟨_, heq, ⟨?_, ?_, ⟨rest, rfl⟩, hsize, rfl, rfl⟩, rfl⟩
  · rw [BitVec.toNat_add, BitVec.toNat_ofNat, h.count, List.length_append]
    omega
  · exact coded_append.2 ⟨h.coded, coded_posts hle hlt hlen⟩

theorem addOption_error (h : Holds pdu os) (hle : lastNumber 0 os ≤ o.1)
    (hfit : maxPduSize < hdrSize + (encode 0 (os ++ added (lastNumber 0 os) o)).length) :
    addOption pdu o.1 o.2 = .error .outOfBounds := by
  obtain ⟨rest, hbody⟩ := h.body
  have hend := optionsEnd_of_holds h
  have hsize := h.size
  have hposts := encode_posts_length o.1 (lastNumber 0 os)
  rw [encode_append, encode_added] at hfit
  rw [hbody] at hsize hend
  simp only [List.length_append, maxPduSize, hdrSize, hposts] at hfit hsize
  rw [addOption, hbody, hend, Buffer.ok_bind]
  dsimp only
  rw [if_neg (by omega), fencePosts_eq]
  split
  · rw [Buffer.ok_bind]
    dsimp only
    rw [Buffer.write_error]
    · rfl
    · rw [optBytes] at hfit
      simp only [List.length_append, List.length_drop, hposts] at hfit ⊢
      omega
  · rfl

/-- Adding the rest of the options: it writes outside of the message exactly if they do not fit. -/
theorem holds_options {rest : List Opt} (h : Holds pdu os)
    (hasc : (rest.map (·.1)).Pairwise (· ≤ ·)) (hle : ∀ o ∈ rest, lastNumber 0 os ≤ o.1)
    (hrest : ∀ o ∈ rest, o.1 < 256 ∧ o.2.length ≤ 270)
    (hcount : (os ++ raw (lastNumber 0 os) rest).length ≤ 15)
    (hroom : hdrSize + (encode 0 os).length ≤ maxPduSize) :
    if hdrSize + (encode 0 (os ++ raw (lastNumber 0 os) rest)).length ≤ maxPduSize then
      ∃ pdu', rest.foldlM (fun pdu o => addOption pdu o.1 o.2) pdu = .ok pdu' ∧
        Holds pdu' (os ++ raw (lastNumber 0 os) rest) ∧ SameFields pdu.hdr pdu'.hdr
    else rest.foldlM (fun pdu o => addOption pdu o.1 o.2) pdu = .error .outOfBounds := by
  induction rest generalizing pdu os with
  | nil =>
    rw [raw, List.append_nil, if_pos hroom]
    exact ⟨pdu, rfl, h, rfl⟩
  | cons o rest ih =>
    rw [raw_cons, ← List.append_assoc] at hcount ⊢
    rw [List.foldlM_cons]
    rcases Nat.lt_or_ge maxPduSize
        (hdrSize + (encode 0 (os ++ added (lastNumber 0 os) o)).length) with hover | hbytes
    · rw [addOption_error h (hle o (.head _)) hover, if_neg]
      · rfl
      · rw [encode_append, List.length_append]
        omega
    · obtain ⟨hlt, hlen⟩ := hrest o (.head _)
      obtain ⟨hfirst, hasc⟩ := List.pairwise_cons.1 hasc
      have hlast : lastNumber 0 (os ++ added (lastNumber 0 os) o) = o.1 := by
        rw [lastNumber_append, lastNumber_added]
      have hpart : (os ++ added (lastNumber 0 os) o).length ≤ 15 :=
        (List.prefix_append _ _).length_le.trans hcount
      obtain ⟨pdu', heq, hholds, hsame⟩ :=
        holds_addOption h (hle o (.head _)) hlt hlen hpart hbytes
      rw [← hlast] at hcount
      have hnext := ih hholds hasc
        (fun o' ho' => by rw [hlast]; exact hfirst _ (List.mem_map_of_mem ho'))
        (fun o' ho' => hrest o' (.tail _ ho')) hcount hbytes
      rw [hlast] at hnext
      rw [heq]
      change ite _ (∃ pdu'', rest.foldlM _ pdu' = _ ∧ _) (rest.foldlM _ pdu' = _)
      split
      · rename_i hfit
        rw [if_pos hfit] at hnext
        obtain ⟨pdu'', heq', hholds', hsame'⟩ := hnext
        exact ⟨pdu'', heq', hholds', hsame.trans hsame'⟩
      · rename_i hfit
        rw [if_neg hfit] at hnext
        exact hnext

end Add

/-! ## Through the network -/

/-- A header survives its bytes. -/
theorem readHdr_bytes (h : Hdr) :
    readHdr (h.version ++ h.type ++ h.optcnt) h.code (h.id.setWidth 8) ((h.id >>> 8).setWidth 8) =
      h := by
  obtain ⟨optcnt, type, version, code, id⟩ := h
  have hoptcnt : (version ++ type ++ optcnt : Byte).extractLsb' 0 4 = optcnt :=
    BitVec.extractLsb'_append_eq_right
  have htype : (version ++ type ++ optcnt : Byte).extractLsb' 4 2 = type :=
    (BitVec.extractLsb'_append_eq_of_le (by decide)).trans BitVec.extractLsb'_append_eq_right
  have hversion : (version ++ type ++ optcnt : Byte).extractLsb' 6 2 = version :=
    (BitVec.extractLsb'_append_eq_of_le (by decide)).trans BitVec.extractLsb'_append_eq_left
  have hid : (id >>> 8).setWidth 8 ++ id.setWidth 8 = id := by
    refine BitVec.eq_of_getLsbD_eq fun i hi => ?_
    rw [BitVec.getLsbD_append]
    by_cases hlow : i < 8
    · rw [if_pos hlow, BitVec.getLsbD_setWidth, decide_eq_true hlow, Bool.true_and]
    · rw [if_neg hlow, BitVec.getLsbD_setWidth, BitVec.getLsbD_ushiftRight,
        Nat.add_sub_cancel' (by omega), decide_eq_true (by omega), Bool.true_and]
  rw [readHdr, hoptcnt, htype, hversion, hid]

/-- What `coap_read` makes of a header, options and a payload. -/
theorem read_eq {h : Hdr} {os : List Opt} {data : List Byte} (hversion : h.version = defaultVersion)
    (hcount : h.optcnt.toNat = os.length) (hcoded : Coded 0 os)
    (hfit : hdrSize + (encode 0 os).length + data.length ≤ maxPduSize) :
    read (h.bytes ++ (encode 0 os ++ data)) = .ok (some
      { hdr := h
        body := encode 0 os ++
          (data ++ newPdu.body.drop ((encode 0 os).length + data.length))
        length := hdrSize + (encode 0 os).length + data.length
        data := hdrSize + (encode 0 os).length }) := by
  have hzeros : newPdu.body.length = maxPduSize - hdrSize := List.length_replicate
  have hlen : 0 + (encode 0 os ++ data).length ≤ newPdu.body.length := by
    rw [hzeros, List.length_append]
    omega
  have hbody : splice newPdu.body 0 (encode 0 os ++ data) = encode 0 os ++
      (data ++ newPdu.body.drop ((encode 0 os).length + data.length)) := by
    rw [splice, List.take_zero, List.nil_append, Nat.zero_add, List.length_append,
      List.append_assoc]
  have hdrop : (encode 0 os ++ (data ++ newPdu.body.drop ((encode 0 os).length + data.length))).drop
      0 = encode 0 os ++ (data ++ newPdu.body.drop ((encode 0 os).length + data.length)) := rfl
  have hend := optionsEnd_encode hcoded hdrop
  have hframe : (h.bytes ++ (encode 0 os ++ data)).length =
      hdrSize + (encode 0 os).length + data.length := by
    rw [List.length_append, List.length_append, ← Nat.add_assoc]
    rfl
  rw [Hdr.bytes, List.cons_append, List.cons_append, List.cons_append, List.cons_append, read]
  dsimp only
  rw [readHdr_bytes, if_pos hversion, List.nil_append, Buffer.write_eq hlen, Buffer.ok_bind, hbody,
    hcount, hend, Buffer.ok_bind]
  dsimp only
  rw [Hdr.bytes, List.cons_append, List.cons_append, List.cons_append, List.cons_append,
    List.nil_append] at hframe
  rw [hframe, Nat.zero_add, Nat.min_eq_right (Nat.le_add_right _ _)]

/-- What is sent after `coap_add_data`. -/
theorem sent_addData {pdu : Pdu} {os : List Opt} (h : Holds pdu os) {data : List Byte}
    (hfit : hdrSize + (encode 0 os).length + data.length ≤ maxPduSize) :
    ∃ pdu', addData pdu data = .ok pdu' ∧
      sent pdu' = pdu.hdr.bytes ++ (encode 0 os ++ data) := by
  obtain ⟨rest, hbody⟩ := h.body
  have hsize := h.size
  rw [hbody, List.length_append] at hsize
  obtain ⟨old, post, hcut, hold⟩ : ∃ old post, rest = old ++ post ∧ data.length = old.length :=
    ⟨_, _, (List.take_append_drop data.length _).symm, by
      rw [List.length_take]
      omega⟩
  have hpre : pdu.length - hdrSize = (encode 0 os).length := by
    rw [h.length, Nat.add_sub_cancel_left]
  have hwrite := Buffer.write_append (encode 0 os) old data post hpre hold
  refine ⟨{ pdu with body := encode 0 os ++ (data ++ post), length := pdu.length + data.length },
    ?_, ?_⟩
  · rw [addData, if_neg (by rw [h.length]; omega), hbody, hcut, hwrite]
    rfl
  · rw [sent, h.length]
    dsimp only
    rw [← List.append_assoc (encode 0 os), ← List.append_assoc, List.take_left']
    rw [List.length_append, List.length_append, ← Nat.add_assoc]
    rfl

theorem getData_eq (h : Hdr) (pre data post : List Byte) :
    getData
      { hdr := h
        body := pre ++ (data ++ post)
        length := hdrSize + pre.length + data.length
        data := hdrSize + pre.length } = data := by
  unfold getData
  dsimp only
  have htake : (h.bytes ++ (pre ++ (data ++ post))).take (hdrSize + pre.length + data.length) =
      h.bytes ++ pre ++ data := by
    rw [← List.append_assoc, ← List.append_assoc, List.take_left']
    rw [List.length_append, List.length_append]
    rfl
  by_cases hdata : data = []
  · subst hdata
    rw [if_neg (by rw [List.length_nil]; omega)]
  · have := List.length_pos_iff.2 hdata
    rw [if_pos (by omega), htake, List.drop_left']
    rw [List.length_append]
    rfl

theorem holds_newPdu (type : BitVec 2) (code : BitVec 8) (id : BitVec 16) :
    Holds { newPdu with hdr := { newPdu.hdr with type, code, id } } [] :=
  ⟨rfl, trivial, ⟨_, rfl⟩, List.length_replicate, rfl, rfl⟩

/-- All options of a new message. -/
theorem built_options {os : List Opt} (type : BitVec 2) (code : BitVec 8) (id : BitVec 16)
    (hasc : (os.map (·.1)).Pairwise (· ≤ ·)) (hos : ∀ o ∈ os, o.1 < 256 ∧ o.2.length ≤ 270)
    (hcount : (raw 0 os).length ≤ 15) :
    if hdrSize + (encode 0 (raw 0 os)).length ≤ maxPduSize then
      ∃ pdu, os.foldlM (fun pdu o => addOption pdu o.1 o.2)
          { newPdu with hdr := { newPdu.hdr with type, code, id } } = .ok pdu ∧
        Holds pdu (raw 0 os) ∧ SameFields { newPdu.hdr with type, code, id } pdu.hdr
    else os.foldlM (fun pdu o => addOption pdu o.1 o.2)
      { newPdu with hdr := { newPdu.hdr with type, code, id } } = .error .outOfBounds :=
  holds_options (holds_newPdu type code id) hasc (fun _ _ => Nat.zero_le _) hos hcount (by decide)

/-- The value of the first option with a number, empty if there is none. -/
def valueOf (os : List Opt) (t : Nat) : List Byte := ((os.find? (·.1 = t)).map (·.2)).getD []

/-- Fence posts do not hide an option. -/
theorem optionString_raw {pdu : Pdu} {os : List Opt} {rest : List Byte}
    (hcount : pdu.hdr.optcnt.toNat = (raw 0 os).length) (hcoded : Coded 0 (raw 0 os))
    (hbody : pdu.body = encode 0 (raw 0 os) ++ rest) (t : Nat) (ht : t % 14 ≠ 0) :
    optionString pdu t = .ok (valueOf os t) := by
  have hfind : (raw 0 os).find? (·.1 = t) = os.find? (·.1 = t) :=
    find?_raw (fun o ho => decide_eq_false fun h : o.1 = t => ht (h ▸ ho)) os 0
  have hpos : 0 < t := by
    rcases Nat.eq_zero_or_pos t with rfl | h
    · exact absurd rfl ht
    · exact h
  rw [optionString, checkOption, hbody, hcount, valueOf, ← hfind]
  rcases checkOptionLoop_encode hcoded List.drop_zero hpos with
    ⟨hnone, hloop⟩ | ⟨o, off, hsome, hloop, hstring⟩
  · rw [hloop, Buffer.ok_bind, hnone]
    rfl
  · rw [hloop, Buffer.ok_bind, hsome]
    exact hstring

/-- `coap_get_request_uri` reads the options of the URI. -/
theorem getRequestUri_eq {pdu : Pdu} {os : List Opt}
    (h : ∀ t, t % 14 ≠ 0 → optionString pdu t = .ok (valueOf os t)) :
    getRequestUri pdu = .ok ⟨valueOf os uriAuthority, valueOf os uriPath, valueOf os uriQuery⟩ := by
  rw [getRequestUri, h uriAuthority (by decide), h uriPath (by decide), h uriQuery (by decide)]
  rfl

/-- A message with its options in order arrives as it was built, whatever numbers are skipped with
fence posts: header, payload, every option that is not a fence post's number, and the URI. -/
theorem message_round_trip (type : BitVec 2) (code : BitVec 8) (id : BitVec 16) (os : List Opt)
    (data : List Byte) (hasc : (os.map (·.1)).Pairwise (· ≤ ·))
    (hos : ∀ o ∈ os, o.1 < 256 ∧ o.2.length ≤ 270) (hcount : (raw 0 os).length ≤ 15)
    (hfit : hdrSize + (encode 0 (raw 0 os)).length + data.length ≤ maxPduSize) :
    ∃ pdu received, build type code id os data = .ok pdu ∧ read (sent pdu) = .ok (some received) ∧
      received.hdr = ⟨BitVec.ofNat 4 (raw 0 os).length, type, defaultVersion, code, id⟩ ∧
      getData received = data ∧
      (∀ t, t % 14 ≠ 0 → optionString received t = .ok (valueOf os t)) ∧
      getRequestUri received =
        .ok ⟨valueOf os uriAuthority, valueOf os uriPath, valueOf os uriQuery⟩ ∧
      ∃ r, checkCritical received = .ok r ∧
        r.map (·.1) = (os.find? (unknownCritical ·.1)).map (·.1) := by
  have hoptions := built_options type code id hasc hos hcount
  rw [if_pos (Nat.le_of_add_right_le hfit)] at hoptions
  obtain ⟨pdu, hoptions, hholds, hsame⟩ := hoptions
  obtain ⟨pdu', hadd, hsent⟩ := sent_addData hholds hfit
  have hversion : pdu.hdr.version = defaultVersion := by
    rw [hsame]
    rfl
  have hread := read_eq hversion hholds.count hholds.coded hfit
  refine ⟨pdu', _, ?_, hsent ▸ hread, ?_, getData_eq _ _ _ _,
    optionString_raw hholds.count hholds.coded rfl,
    getRequestUri_eq (optionString_raw hholds.count hholds.coded rfl), ?_⟩
  · rw [build]
    dsimp only
    rw [hoptions]
    exact hadd
  · have hcnt : pdu.hdr.optcnt = BitVec.ofNat 4 (raw 0 os).length := by
      rw [← hholds.count, BitVec.ofNat_toNat, BitVec.setWidth_eq]
    rw [hsame, hcnt]
    rfl
  · have hfind : (raw 0 os).find? (unknownCritical ·.1) = os.find? (unknownCritical ·.1) := by
      refine find?_raw (fun o ho => ?_) os 0
      have heven : o.1 % 2 = 0 := by omega
      rw [unknownCritical, heven]
      rfl
    rw [checkCritical]
    dsimp only
    rw [hholds.count]
    rcases checkCriticalLoop_encode hholds.coded List.drop_zero with
      ⟨hnone, hloop⟩ | ⟨o, off, hsome, hloop, _⟩
    · exact ⟨none, hloop, by rw [← hfind, hnone]; rfl⟩
    · exact ⟨_, hloop, by rw [← hfind, hsome]; rfl⟩

/-- `message_round_trip` for two options next to each other and one behind two fence posts. -/
theorem message_round_trip_fence_posts :
    ∃ pdu received, build 0 1 7 [(5, [97]), (9, [98, 99]), (40, [1])] [7] = .ok pdu ∧
      read (sent pdu) = .ok (some received) ∧ received.hdr = ⟨5, 0, defaultVersion, 1, 7⟩ ∧
      getData received = [7] ∧ optionString received 9 = .ok [98, 99] ∧
      optionString received 40 = .ok [1] := by
  obtain ⟨pdu, received, hbuild, hread, hhdr, hdata, hstring, _⟩ :=
    message_round_trip 0 1 7 [(5, [97]), (9, [98, 99]), (40, [1])] [7] (by decide) (by decide) (by decide)
      (by decide)
  exact ⟨pdu, received, hbuild, hread, hhdr, hdata, hstring 9 (by decide), hstring 40 (by decide)⟩

/-! ## The memory of a message -/

end Coap
