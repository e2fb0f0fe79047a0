import Backip.Lowpan.Proof.Chain

/-!
# Walking the options of a header (`IPPacket.findTLV`, `__ipnh_real_length`)

`findTlvVisits` and `ipnhVisits` are the offsets that the two loops come to. The compressor steps
over a `Pad1` as one byte; `findTLV` takes the byte behind it for a length. `findTlv_iff` says when
`findTLV` still goes from option to option.
-/

set_option autoImplicit false

open Ipv6

/-! ## `__ipnh_real_length` -/

namespace Lowpan

/-- The offsets that the loop of `__ipnh_real_length` comes to. -/
def ipnhVisits (pkt : IpIovec) (limit offset : Nat) : List Nat :=
  if limit ≤ offset then []
  else
    offset :: match pkt.read offset 2 with
      | [type, len] =>
        if type = ipv6TlvPad1 then ipnhVisits pkt limit (offset + 1)
        else ipnhVisits pkt limit (offset + 2 + len.toNat)
      | _ => []
termination_by limit - offset

theorem ipnhVisits_option {pkt : IpIovec} {limit : Nat} (pre : List UInt8) (o : Opt)
    {tail : List UInt8} (hflat : pkt.flatten = pre ++ (o.bytes ++ tail))
    (hlt : pre.length < limit) (hread : 2 ≤ o.len + tail.length) :
    ipnhVisits pkt limit pre.length =
      pre.length :: ipnhVisits pkt limit (pre.length + o.len) := by
  rw [ipnhVisits, if_neg (by omega)]
  cases o with
  | pad1 =>
    cases tail with
    | nil => exact absurd hread (by decide)
    | cons b tail =>
      rw [IpIovec.read_two hflat]
      rfl
  | tlv t htype =>
    have hlen : (UInt8.ofNat t.data.length).toNat = t.data.length :=
      UInt8.toNat_ofNat_of_lt' t.short
    have hopt : (Opt.tlv t htype).len = 2 + t.data.length := by
      simp only [Opt.len, Opt.bytes, Tlv.bytes, List.length_cons]
      omega
    rw [IpIovec.read_two hflat, hopt, ← Nat.add_assoc]
    simp only [if_neg htype, hlen]

/-- A loop that ends where the options end came to each of them. -/
theorem ipnhVisits_of_end {pkt : IpIovec} {limit : Nat} (pre : List UInt8) {os : List Opt}
    {rest : List UInt8} {endOffset endOffset' : Nat}
    (hflat : pkt.flatten = pre ++ (os.flatMap Opt.bytes ++ rest))
    (hend : ipnhLoop pkt limit pre.length endOffset =
      some (pre.length + (os.flatMap Opt.bytes).length, endOffset'))
    (hlimit : limit ≤ pre.length + (os.flatMap Opt.bytes).length) :
    ipnhVisits pkt limit pre.length = starts pre.length os := by
  induction os generalizing pre endOffset with
  | nil =>
    rw [ipnhVisits, if_pos (by simpa using hlimit)]
    rfl
  | cons o os ih =>
    have hpos := o.len_pos
    have hlen : o.bytes.length = o.len := rfl
    have hpre : (pre ++ o.bytes).length = pre.length + o.len := List.length_append
    rw [List.flatMap_cons, List.append_assoc] at hflat
    rw [List.flatMap_cons, List.length_append] at hend hlimit
    have hlt : pre.length < limit := by
      by_contra hle
      rw [ipnhLoop, if_pos (by omega)] at hend
      simp only [Option.some.injEq, Prod.mk.injEq] at hend
      omega
    have hread : 2 ≤ o.len + (os.flatMap Opt.bytes ++ rest).length := by
      by_contra hshort
      rw [ipnhLoop_short pre endOffset hflat hlt (by rw [List.length_append]; omega)] at hend
      cases hend
    rw [ipnhLoop_option pre o endOffset hflat hlt hread] at hend
    rw [ipnhVisits_option pre o hflat hlt hread, starts, ← hpre,
      ih (pre ++ o.bytes) (by rw [hflat, List.append_assoc])
        (by rw [hend, hpre, hlen, Nat.add_assoc]) (by omega)]

end Lowpan

/-! ## `findTLV` -/

namespace IPPacket

/-- The offsets that the loop of `findTLV` comes to. -/
def findTlvLoopVisits (header : IpIovec) (extOffset : Nat) (len type : UInt8) (off : Nat) :
    List Nat :=
  if off - extOffset < (len.toNat + 1) * 8 then
    off :: match header.read off 2 with
      | [t, l] =>
        if t = type then []
        else findTlvLoopVisits header extOffset len type (off + (2 + l.toNat))
      | _ => []
  else []
termination_by extOffset + (len.toNat + 1) * 8 - off

def findTlvVisits (header : IpIovec) (extOffset : Nat) (type : UInt8) : List Nat :=
  match header.read extOffset 2 with
  | [_, len] => findTlvLoopVisits header extOffset len type (extOffset + 2)
  | _ => []

/-- A `Pad1` that is reached is the option looked for, with a byte behind it, or the last. -/
def PadsLast (type : UInt8) (os : List Opt) (rest : List UInt8) : Prop :=
  ∀ before after, os = before ++ .pad1 :: after → (∀ o ∈ before, o.type ≠ type) →
    if type = 0 then after ≠ [] ∨ rest ≠ [] else after = []

variable {header : IpIovec} {extOffset : Nat} {len type : UInt8} {os : List Opt}
  {rest : List UInt8}

theorem padsLast_nil : PadsLast type [] rest := by
  intro before after h
  cases before <;> cases h

theorem padsLast_pad1 : PadsLast type (.pad1 :: os) rest ↔
    if type = 0 then os ≠ [] ∨ rest ≠ [] else os = [] := by
  constructor
  · intro h
    exact h [] os rfl (fun o ho => absurd ho List.not_mem_nil)
  · intro h before after heq hbefore
    cases before with
    | nil =>
      cases heq
      exact h
    | cons o before =>
      obtain ⟨rfl, rfl⟩ := List.cons.inj heq
      have htype : ¬ type = 0 := fun h0 => hbefore _ List.mem_cons_self h0.symm
      rw [if_neg htype] at h
      exact absurd h (by simp)

theorem padsLast_tlv (t : Tlv) (htype : t.type ≠ 0) :
    PadsLast type (.tlv t htype :: os) rest ↔ (t.type ≠ type → PadsLast type os rest) := by
  constructor
  · intro h hne before after heq hbefore
    refine h (.tlv t htype :: before) after (by rw [heq]; rfl) ?_
    rintro o ho
    rcases List.mem_cons.1 ho with rfl | ho
    · exact hne
    · exact hbefore o ho
  · intro h before after heq hbefore
    cases before with
    | nil => cases heq
    | cons o before =>
      obtain ⟨rfl, rfl⟩ := List.cons.inj heq
      exact h (hbefore _ List.mem_cons_self) before after rfl
        (fun o ho => hbefore o (List.mem_cons_of_mem _ ho))

/-- One turn of the loop at a readable option. -/
theorem findTlvLoop_two (type : UInt8) {pre tail : List UInt8} {t l : UInt8}
    (hflat : header.flatten = pre ++ t :: l :: tail)
    (hin : pre.length - extOffset < (len.toNat + 1) * 8) :
    findTlvLoop header extOffset len type pre.length =
        (if t = type then some pre.length
          else findTlvLoop header extOffset len type (pre.length + (2 + l.toNat))) ∧
      findTlvLoopVisits header extOffset len type pre.length =
        pre.length :: if t = type then []
          else findTlvLoopVisits header extOffset len type (pre.length + (2 + l.toNat)) := by
  rw [findTlvLoop, findTlvLoopVisits, if_pos hin, if_pos hin, IpIovec.read_two hflat]
  exact ⟨rfl, rfl⟩

/-- The loop ends where no two bytes are left. -/
theorem findTlvLoop_short (type : UInt8) {pre tail : List UInt8} (hflat : header.flatten = pre ++ tail)
    (hshort : tail.length < 2) (hin : pre.length - extOffset < (len.toNat + 1) * 8) :
    findTlvLoop header extOffset len type pre.length = none ∧
      findTlvLoopVisits header extOffset len type pre.length = [pre.length] := by
  rw [findTlvLoop, findTlvLoopVisits, if_pos hin, if_pos hin, IpIovec.read_eq, hflat,
    List.drop_left]
  obtain _ | ⟨b, _ | ⟨b', tail⟩⟩ := tail
  · exact ⟨rfl, rfl⟩
  · exact ⟨rfl, rfl⟩
  · simp only [List.length_cons] at hshort
    omega

/-- The loop is over behind the header. -/
theorem findTlvLoop_out (header : IpIovec) (type : UInt8) {off : Nat} (hout : (len.toNat + 1) * 8 ≤ off - extOffset) :
    findTlvLoop header extOffset len type off = none ∧
      findTlvLoopVisits header extOffset len type off = [] := by
  rw [findTlvLoop, findTlvLoopVisits, if_neg (by omega), if_neg (by omega)]
  exact ⟨rfl, rfl⟩

/-- What the loop comes to from inside the header starts with where it is. -/
theorem findTlvLoopVisits_head {off off' : Nat} {offs : List Nat}
    (h : findTlvLoopVisits header extOffset len type off = off' :: offs) : off' = off := by
  rw [findTlvLoopVisits] at h
  split at h
  · exact (List.cons.inj h).1.symm
  · cases h

/-- The loop at a `Pad1`: what follows decides whether it goes on at an option. -/
theorem findTlvLoop_pad1 (pre : List UInt8)
    (hflat : header.flatten = pre ++ 0 :: (os.flatMap Opt.bytes ++ rest))
    (hfill : pre.length + 1 + (os.flatMap Opt.bytes).length = extOffset + (len.toNat + 1) * 8)
    (hext : extOffset ≤ pre.length) :
    (findTlvLoop header extOffset len type pre.length =
        firstStart type pre.length (.pad1 :: os) ∧
      findTlvLoopVisits header extOffset len type pre.length =
        startsUpTo type pre.length (.pad1 :: os)) ↔
      if type = 0 then os ≠ [] ∨ rest ≠ [] else os = [] := by
  have hin : pre.length - extOffset < (len.toNat + 1) * 8 := by omega
  have hnil : os.flatMap Opt.bytes ++ rest = [] ↔ os = [] ∧ rest = [] := by
    constructor
    · intro h
      obtain ⟨hos, hrest⟩ := List.append_eq_nil_iff.1 h
      refine ⟨?_, hrest⟩
      by_contra hne
      exact absurd (Lowpan.optsLen_pos hne) (by simp [hos])
    · rintro ⟨rfl, rfl⟩
      rfl
  rw [firstStart, startsUpTo, Opt.type]
  cases htail : os.flatMap Opt.bytes ++ rest with
  | nil =>
    obtain ⟨rfl, rfl⟩ := hnil.1 htail
    obtain ⟨hloop, hvisits⟩ := findTlvLoop_short type hflat (by simp) hin
    rw [hloop, hvisits]
    by_cases h0 : type = 0
    · simp [h0]
    · simp [h0, Ne.symm h0, firstStart, startsUpTo]
  | cons b tail =>
    rw [htail] at hflat
    obtain ⟨hloop, hvisits⟩ := findTlvLoop_two type hflat hin
    rw [hloop, hvisits]
    by_cases h0 : type = 0
    · have hsome : os ≠ [] ∨ rest ≠ [] := by
        by_contra hnone
        rw [not_or, not_not, not_not] at hnone
        cases htail.symm.trans (hnil.2 hnone)
      simp [h0, hsome]
    · rw [if_neg (Ne.symm h0), if_neg (Ne.symm h0), if_neg (Ne.symm h0), if_neg (Ne.symm h0),
        if_neg h0]
      cases os with
      | nil =>
        rw [List.flatMap_nil, List.length_nil] at hfill
        obtain ⟨hloop', hvisits'⟩ := findTlvLoop_out header type
          (show (len.toNat + 1) * 8 ≤ pre.length + (2 + b.toNat) - extOffset by omega)
        rw [hloop', hvisits']
        exact iff_of_true ⟨rfl, rfl⟩ rfl
      | cons o os =>
        -- the option behind the `Pad1` is not come to
        refine iff_of_false (fun h => ?_) (List.cons_ne_nil o os)
        have hnext := findTlvLoopVisits_head (List.cons.inj h.2).2
        have hone : Opt.len .pad1 = 1 := rfl
        omega

/-- **The loop from an option on**, by induction on the options. -/
theorem findTlvLoop_iff (pre : List UInt8)
    (hflat : header.flatten = pre ++ (os.flatMap Opt.bytes ++ rest))
    (hfill : pre.length + (os.flatMap Opt.bytes).length = extOffset + (len.toNat + 1) * 8)
    (hext : extOffset ≤ pre.length) :
    (findTlvLoop header extOffset len type pre.length = firstStart type pre.length os ∧
      findTlvLoopVisits header extOffset len type pre.length = startsUpTo type pre.length os) ↔
      PadsLast type os rest := by
  induction os generalizing pre with
  | nil =>
    rw [List.flatMap_nil, List.length_nil] at hfill
    exact iff_of_true (findTlvLoop_out header type (by omega)) padsLast_nil
  | cons o os ih =>
    have hpos := o.len_pos
    have hlen : o.bytes.length = o.len := rfl
    rw [List.flatMap_cons, List.append_assoc] at hflat
    rw [List.flatMap_cons, List.length_append] at hfill
    have hin : pre.length - extOffset < (len.toNat + 1) * 8 := by omega
    cases o with
    | tlv t htype =>
      have hopt : (Opt.tlv t htype).len = 2 + t.data.length := by
        simp only [Opt.len, Opt.bytes, Tlv.bytes, List.length_cons]
        omega
      have hdata : (UInt8.ofNat t.data.length).toNat = t.data.length :=
        UInt8.toNat_ofNat_of_lt' t.short
      have hpre : (pre ++ (Opt.tlv t htype).bytes).length = pre.length + (2 + t.data.length) := by
        rw [List.length_append, hlen, hopt]
      obtain ⟨hloop, hvisits⟩ := findTlvLoop_two type hflat hin
      rw [hloop, hvisits, hdata, padsLast_tlv, firstStart, startsUpTo, Opt.type, hopt]
      by_cases hfound : t.type = type
      · simp [hfound]
      · simp only [hfound, if_false, List.cons.injEq, true_and, ne_eq, not_false_eq_true,
          forall_const]
        rw [← hpre]
        exact ih (pre ++ (Opt.tlv t htype).bytes) (by rw [hflat, List.append_assoc])
          (by rw [hpre]; omega) (by rw [hpre]; omega)
    | pad1 =>
      rw [padsLast_pad1]
      exact findTlvLoop_pad1 pre hflat (by rw [← hfill, Nat.add_assoc]; rfl) hext

/-- **The two walkers agree**, in a header at `pre.length` that the options fill: where the
compressor gets to the end of them it came to each, and `findTLV` comes to those up to the first of
its type, and finds that, exactly when no `Pad1` stands in its way. -/
theorem findTlv_iff (pre : List UInt8) {nxt : UInt8}
    (hfill : (os.flatMap Opt.bytes).length = 8 * len.toNat + 6)
    (hflat : header.flatten = pre ++ nxt :: len :: (os.flatMap Opt.bytes ++ rest)) :
    (∀ stop endOffset, Lowpan.ipnhLoop header (Lowpan.extLen len) (pre.length + 2)
        (pre.length + 2) = some (stop, endOffset) → stop - pre.length = Lowpan.extLen len →
      Lowpan.ipnhVisits header (Lowpan.extLen len) (pre.length + 2) =
        starts (pre.length + 2) os) ∧
    ((findTlv header pre.length type = firstStart type (pre.length + 2) os ∧
      findTlvVisits header pre.length type = startsUpTo type (pre.length + 2) os) ↔
      PadsLast type os rest) := by
  have hpre : (pre ++ [nxt, len]).length = pre.length + 2 := List.length_append
  have hflat' : header.flatten = (pre ++ [nxt, len]) ++ (os.flatMap Opt.bytes ++ rest) := by
    rw [hflat, List.append_assoc]
    rfl
  constructor
  · intro stop endOffset hloop hstop
    rw [Lowpan.extLen] at hstop
    rw [← hpre] at hloop ⊢
    rw [show stop = (pre ++ [nxt, len]).length + (os.flatMap Opt.bytes).length by omega] at hloop
    exact Lowpan.ipnhVisits_of_end _ hflat' hloop (by rw [hpre, Lowpan.extLen]; omega)
  · rw [findTlv, findTlvVisits, IpIovec.read_two hflat]
    dsimp only
    rw [← hpre]
    exact findTlvLoop_iff _ hflat' (by omega) (by omega)

/-- An option of type 5. -/
def exampleOpt : Opt := .tlv ⟨5, [1, 2, 3], by decide⟩ (by decide)

theorem findTlv_iff_pad_behind : findTlv [[17, 0, 5, 3, 1, 2, 3, 0]] 0 5 = some 2 :=
  ((@findTlv_iff [[17, 0, 5, 3, 1, 2, 3, 0]] 0 5 [exampleOpt, .pad1] [] [] 17 (by decide)
    (by decide)).2.2 ((padsLast_tlv _ _).2 (fun hne => absurd rfl hne))).1

/-- The same option behind a `Pad1`. -/
theorem option_behind_pad1_missed :
    [17, 0, 0, 5, 3, 1, 2, 3] = 17 :: 0 :: [.pad1, exampleOpt].flatMap Opt.bytes ∧
      firstStart 5 2 [.pad1, exampleOpt] = some 3 ∧
      Lowpan.ipnhVisits [[17, 0, 0, 5, 3, 1, 2, 3]] 8 2 = [2, 3] ∧
      findTlv [[17, 0, 0, 5, 3, 1, 2, 3]] 0 5 = none := by
  refine ⟨by decide, by decide, ?_, ?_⟩
  · simp [Lowpan.ipnhVisits, IpIovec.read_eq]
    decide
  · simp [findTlv, findTlvLoop, IpIovec.read_eq]

end IPPacket
