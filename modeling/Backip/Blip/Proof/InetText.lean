import Backip.Blip.InetText
import Backip.Lib.Splice

/-!
# Reading back the text of an address

`Digits w ds`: the characters `ds` are the digits of the block `w`, from either end. A loop over
them leaves `w` (`frontLoop_field`, `backLoop_field`), and a loop over such fields and the colons
between them the blocks (`frontLoop_fields`, `backLoop_fields`). `round_trip_iff` says for which
addresses `inetPton6` reads what `inetNtop6` writes.
-/

set_option autoImplicit false

namespace Blip

/-! ## Digits -/

theorem toChar_spec {x : UInt16} (hx : x.toNat < 16) :
    charVal (toChar x) = x ∧ toChar x ≠ colon ∧ toChar x ≠ 0 := by
  have hall : ∀ n < 16, charVal (toChar (.ofNat n)) = .ofNat n ∧ toChar (.ofNat n) ≠ colon ∧
      toChar (.ofNat n) ≠ 0 := by decide
  have h := hall x.toNat hx
  rwa [UInt16.ofNat_toNat] at h

/-- The digit of `w` from bit `s` on. -/
def digitAt (w s : UInt16) : UInt16 := (w >>> s) &&& 0xf

theorem toNat_digitAt (w : UInt16) {s : UInt16} (hs : s.toNat < 16) :
    (digitAt w s).toNat = w.toNat / 2 ^ s.toNat % 16 := by
  rw [digitAt, UInt16.toNat_and, UInt16.toNat_shiftRight, Nat.mod_eq_of_lt hs,
    Nat.shiftRight_eq_div_pow]
  exact Nat.and_two_pow_sub_one_eq_mod _ 4

theorem charVal_digitAt (w : UInt16) {s : UInt16} (hs : s.toNat < 16) :
    charVal (toChar (digitAt w s)) = digitAt w s := by
  refine (toChar_spec ?_).1
  rw [toNat_digitAt w hs]
  exact Nat.mod_lt _ (by decide)

/-- The value of digits, from the front. -/
def frontVal (cur : UInt16) (ds : List UInt8) : UInt16 :=
  ds.foldl (fun cur c => cur <<< 4 ||| charVal c) cur

/-- The value of digits from the end, the last first. -/
def backVal : UInt16 → UInt8 → List UInt8 → UInt16
  | cur, _, [] => cur
  | cur, shift, c :: ds => backVal (cur ||| charVal c <<< shift.toUInt16) (shift + 4) ds

/-- One digit more, from the front. -/
theorem frontVal_digitAt {w cur s : UInt16} (hs : s.toNat ≤ 12)
    (hcur : cur.toNat = w.toNat / 2 ^ (s.toNat + 4)) :
    (cur <<< 4 ||| charVal (toChar (digitAt w s))).toNat = w.toNat / 2 ^ s.toNat := by
  have hw := w.toNat_lt
  have hdigit := toNat_digitAt w (show s.toNat < 16 by omega)
  have hlt : cur.toNat < 2 ^ 12 := by
    rw [hcur, Nat.div_lt_iff_lt_mul (Nat.two_pow_pos _), ← Nat.pow_add]
    exact Nat.lt_of_lt_of_le hw (Nat.pow_le_pow_right (by decide) (by omega))
  have hshift : (cur <<< 4).toNat = cur.toNat <<< 4 := by
    rw [UInt16.toNat_shiftLeft, show (4 : UInt16).toNat % 16 = 4 from rfl]
    exact Nat.mod_eq_of_lt (by rw [Nat.shiftLeft_eq]; omega)
  rw [charVal_digitAt w (by omega), UInt16.toNat_or, hshift,
    ← Nat.shiftLeft_add_eq_or_of_lt (by rw [hdigit]; omega), Nat.shiftLeft_eq, hdigit, hcur,
    Nat.pow_add, ← Nat.div_div_eq_div_mul]
  exact Nat.div_add_mod' _ _

/-- One digit more, from the end. -/
theorem backVal_digitAt {w cur s : UInt16} (hs : s.toNat ≤ 12)
    (hcur : cur.toNat = w.toNat % 2 ^ s.toNat) :
    (cur ||| charVal (toChar (digitAt w s)) <<< s).toNat = w.toNat % 2 ^ (s.toNat + 4) := by
  have hdigit := toNat_digitAt w (show s.toNat < 16 by omega)
  have hlt : cur.toNat < 2 ^ s.toNat := hcur ▸ Nat.mod_lt _ (Nat.two_pow_pos _)
  have hshift : (digitAt w s <<< s).toNat = (digitAt w s).toNat <<< s.toNat := by
    rw [UInt16.toNat_shiftLeft, Nat.mod_eq_of_lt (show s.toNat < 16 by omega)]
    apply Nat.mod_eq_of_lt
    rw [Nat.shiftLeft_eq]
    calc (digitAt w s).toNat * 2 ^ s.toNat
        ≤ 15 * 2 ^ 12 := Nat.mul_le_mul (by omega) (Nat.pow_le_pow_right (by decide) hs)
      _ < 2 ^ 16 := by decide
  rw [charVal_digitAt w (by omega), UInt16.toNat_or, hshift, Nat.or_comm,
    ← Nat.shiftLeft_add_eq_or_of_lt hlt, Nat.shiftLeft_eq, hdigit, hcur, Nat.pow_add,
    Nat.mod_mul, Nat.add_comm, Nat.mul_comm]

/-- How many digits a block has, without leading zeros. -/
def hexLen (w : UInt16) : Nat :=
  if w.toNat < 0x10 then 1 else if w.toNat < 0x100 then 2 else if w.toNat < 0x1000 then 3 else 4

theorem hexLen_bounds (w : UInt16) : 1 ≤ hexLen w ∧ hexLen w ≤ 4 := by
  unfold hexLen
  split_ifs <;> omega

/-- The characters `ds` are the digits of `w`. -/
structure Digits (w : UInt16) (ds : List UInt8) : Prop where
  length : ds.length = hexLen w
  front : frontVal 0 ds = w
  back : backVal 0 0 ds.reverse = w
  chars : ∀ d ∈ ds, d ≠ colon ∧ d ≠ 0

theorem blockText_eq {w : UInt16} {compressed : Nat} (h : w ≠ 0 ∨ compressed = 2) :
    blockText w compressed =
      ([12, 8, 4, 0].map fun s => toChar (digitAt w s)).drop (4 - hexLen w) := by
  have hlast : 0 < w.toNat ∨ compressed = 2 :=
    h.imp_left fun hw => Nat.pos_of_ne_zero fun h0 => hw (UInt16.toNat_inj.1 h0)
  simp only [blockText, List.filterMap_cons, List.filterMap_nil, hexLen, digitAt,
    show (0xffff >>> (4 : UInt16).toNat : Nat) = 0xfff from rfl,
    show (0xffff >>> (8 : UInt16).toNat : Nat) = 0xff from rfl,
    show (0xffff >>> (12 : UInt16).toNat : Nat) = 0xf from rfl,
    show (0xffff >>> (16 : UInt16).toNat : Nat) = 0 from rfl]
  by_cases h1 : w.toNat < 0x10
  · simp [h1, hlast, show ¬0xfff < w.toNat by omega, show ¬0xff < w.toNat by omega,
      show ¬0xf < w.toNat by omega]
  by_cases h2 : w.toNat < 0x100
  · simp [h1, h2, hlast, show ¬0xfff < w.toNat by omega, show ¬0xff < w.toNat by omega,
      show 0xf < w.toNat by omega]
  by_cases h3 : w.toNat < 0x1000
  · simp [h1, h2, h3, hlast, show ¬0xfff < w.toNat by omega, show 0xff < w.toNat by omega,
      show 0xf < w.toNat by omega]
  · simp [h1, h2, h3, hlast, show 0xfff < w.toNat by omega, show 0xff < w.toNat by omega,
      show 0xf < w.toNat by omega]

theorem digits {w : UInt16} {compressed : Nat} (h : w ≠ 0 ∨ compressed = 2) :
    Digits w (blockText w compressed) := by
  have hw := w.toNat_lt
  have hbounds := hexLen_bounds w
  have hchars : ∀ s ∈ [(12 : UInt16), 8, 4, 0],
      toChar (digitAt w s) ≠ colon ∧ toChar (digitAt w s) ≠ 0 := by
    intro s hs
    refine (toChar_spec ?_).2
    have hlt : s.toNat < 16 := by
      simp only [List.mem_cons, List.not_mem_nil, or_false] at hs
      rcases hs with rfl | rfl | rfl | rfl <;> decide
    rw [toNat_digitAt w hlt]
    exact Nat.mod_lt _ (by decide)
  have hend {cur : UInt16} (hcur : cur.toNat = w.toNat / 2 ^ (0 : UInt16).toNat) : cur = w :=
    UInt16.toNat_inj.1 (hcur.trans (Nat.div_one _))
  have hback {cur : UInt16} {n : Nat} (hn : w.toNat < 2 ^ n) (hcur : cur.toNat = w.toNat % 2 ^ n) :
      cur = w := UInt16.toNat_inj.1 (hcur.trans (Nat.mod_eq_of_lt hn))
  have h0 : (0 : UInt16).toNat = w.toNat % 2 ^ (0 : UInt16).toNat := (Nat.mod_one _).symm
  rw [blockText_eq h]
  refine ⟨?_, ?_, ?_, ?_⟩
  · rw [List.length_drop, List.length_map]
    exact Nat.sub_sub_self hbounds.2
  · unfold hexLen
    split_ifs with h1 h2 h3
    · exact hend (frontVal_digitAt (s := 0) (by decide) (Nat.div_eq_of_lt h1).symm)
    · exact hend (frontVal_digitAt (s := 0) (by decide) (frontVal_digitAt (s := 4) (by decide)
        (Nat.div_eq_of_lt h2).symm))
    · exact hend (frontVal_digitAt (s := 0) (by decide) (frontVal_digitAt (s := 4) (by decide)
        (frontVal_digitAt (s := 8) (by decide) (Nat.div_eq_of_lt h3).symm)))
    · exact hend (frontVal_digitAt (s := 0) (by decide) (frontVal_digitAt (s := 4) (by decide)
        (frontVal_digitAt (s := 8) (by decide) (frontVal_digitAt (s := 12) (by decide)
          (Nat.div_eq_of_lt hw).symm))))
  · unfold hexLen
    split_ifs with h1 h2 h3
    · exact hback h1 (backVal_digitAt (s := 0) (by decide) h0)
    · exact hback h2 (backVal_digitAt (s := 4) (by decide) (backVal_digitAt (s := 0) (by decide)
        h0))
    · exact hback h3 (backVal_digitAt (s := 8) (by decide) (backVal_digitAt (s := 4) (by decide)
        (backVal_digitAt (s := 0) (by decide) h0)))
    · exact hback hw (backVal_digitAt (s := 12) (by decide) (backVal_digitAt (s := 8) (by decide)
        (backVal_digitAt (s := 4) (by decide) (backVal_digitAt (s := 0) (by decide) h0))))
  · intro d hd
    obtain ⟨s, hs, rfl⟩ := List.mem_map.1 (List.mem_of_mem_drop hd)
    exact hchars s hs

/-! ## Blocks -/

namespace In6Addr

@[simp] theorem length_words (a : In6Addr) : a.words.length = 8 := List.length_ofFn

theorem words_setWord (a : In6Addr) {block : UInt8} (h : block.toNat < 8) (cur : UInt16) :
    ∃ a', a.setWord block cur = some a' ∧ a'.words = a.words.set block.toNat cur := by
  refine ⟨_, dif_pos h, ?_⟩
  apply List.ext_getElem
  · rw [List.length_set, length_words, length_words]
  intro i hi _
  rw [length_words] at hi
  rw [List.getElem_set]
  simp only [words, List.getElem_ofFn, word]
  by_cases hsame : block.toNat = i
  · subst hsame
    rw [if_pos rfl, Vector.getElem_set_ne _ _ (by omega), Vector.getElem_set_self,
      Vector.getElem_set_self]
    exact ntohs_netBytes cur
  · rw [if_neg hsame, Vector.getElem_set_ne _ _ (by omega), Vector.getElem_set_ne _ _ (by omega),
      Vector.getElem_set_ne _ _ (by omega), Vector.getElem_set_ne _ _ (by omega)]

theorem words_inj {a b : In6Addr} (h : a.words = b.words) : a = b := by
  have hword : ∀ i : Fin 8, a[2 * i.val] = b[2 * i.val] ∧ a[2 * i.val + 1] = b[2 * i.val + 1] := by
    intro i
    exact ntohs_eq_iff.1 (congrFun (List.ofFn_injective h) i)
  apply Vector.ext
  intro i hi
  have hsplit : i = 2 * (i / 2) ∨ i = 2 * (i / 2) + 1 := by omega
  obtain ⟨heven, hodd⟩ := hword ⟨i / 2, by omega⟩
  rcases hsplit with hi' | hi'
  · simpa only [← hi'] using heven
  · simpa only [← hi'] using hodd

end In6Addr

/-! ## The loops over a field -/

section Field

variable {dest : In6Addr} {block : UInt8} {cur : UInt16} {ds p : List UInt8}

theorem frontLoop_field (hds : ∀ d ∈ ds, d ≠ colon) (hp : p ≠ []) :
    frontLoop (ds ++ p) dest block cur = frontLoop p dest block (frontVal cur ds) := by
  induction ds generalizing cur with
  | nil => rfl
  | cons d ds ih =>
    obtain ⟨hd, hds⟩ := List.forall_mem_cons.1 hds
    obtain ⟨c, q, hq⟩ := List.exists_cons_of_ne_nil (List.append_ne_nil_of_right_ne_nil ds hp)
    have hstep := @ih (cur <<< 4 ||| charVal d) hds
    rw [hq] at hstep
    rw [List.cons_append, hq, frontLoop, if_pos hd, Option.bind_some]
    dsimp only
    rw [if_neg (fun h => hd h.1), hstep]
    rfl

theorem frontLoop_last (hne : ds ≠ []) (hds : ∀ d ∈ ds, d ≠ colon) :
    frontLoop ds dest block cur = (dest.setWord block (frontVal cur ds)).map .returned := by
  obtain ⟨init, d, rfl⟩ : ∃ init d, ds = init ++ [d] :=
    ⟨ds.dropLast, ds.getLast hne, (List.dropLast_append_getLast hne).symm⟩
  have hd : d ≠ colon := hds d (by simp)
  rw [frontLoop_field (fun d hd => hds d (by simp [hd])) (by simp), frontLoop, if_pos hd,
    Option.bind_some, frontVal, frontVal, List.foldl_append]
  rfl

theorem frontLoop_colon {c : UInt8} (hc : c ≠ colon) :
    frontLoop (colon :: c :: p) dest block cur =
      (dest.setWord block cur).bind fun dest => frontLoop (c :: p) dest (block + 1) 0 := by
  rw [frontLoop, if_neg (fun h => h rfl), Option.bind_map]
  congr 1
  funext dest
  exact if_neg fun h => hc h.2

theorem frontLoop_colons :
    frontLoop (colon :: colon :: p) dest block cur = (dest.setWord block cur).map .stopped := by
  rw [frontLoop, if_neg (fun h => h rfl), Option.bind_map]
  cases dest.setWord block cur with
  | none => rfl
  | some dest => rfl

theorem backLoop_field {c : UInt8} {shift : UInt8} (hds : ∀ d ∈ ds, d ≠ colon)
    (hshift : shift.toNat + 4 * ds.length ≤ 16) :
    ∃ shift', backLoop (ds ++ c :: p) dest block cur shift =
      backLoop (c :: p) dest block (backVal cur shift ds) shift' := by
  induction ds generalizing cur shift with
  | nil => exact ⟨shift, rfl⟩
  | cons d ds ih =>
    obtain ⟨hd, hds⟩ := List.forall_mem_cons.1 hds
    obtain ⟨c', q, hq⟩ := List.exists_cons_of_ne_nil
      (List.append_ne_nil_of_right_ne_nil ds (List.cons_ne_nil c p))
    rw [List.length_cons] at hshift
    have hlt : shift < 16 := UInt8.lt_iff_toNat_lt.2 (by
      rw [show (16 : UInt8).toNat = 16 from rfl]
      omega)
    have hnext : (shift + 4).toNat = shift.toNat + 4 := by
      rw [UInt8.toNat_add, show (4 : UInt8).toNat = 4 from rfl]
      omega
    obtain ⟨shift', hstep⟩ := @ih (cur ||| charVal d <<< shift.toUInt16) (shift + 4) hds
      (by rw [hnext]; omega)
    refine ⟨shift', ?_⟩
    rw [hq] at hstep
    rw [List.cons_append, hq, backLoop, if_pos hd, if_pos hlt, Option.bind_some]
    dsimp only
    rw [if_neg (fun h => hd h.1), hstep]
    rfl

theorem backLoop_colon {c shift : UInt8} (hc : c ≠ colon) :
    backLoop (colon :: c :: p) dest block cur shift =
      (dest.setWord block cur).bind fun dest => backLoop (c :: p) dest (block - 1) 0 0 := by
  rw [backLoop, if_neg (fun h => h rfl), Option.bind_map]
  congr 1
  funext dest
  exact if_neg fun h => hc h.2

theorem backLoop_colons {shift : UInt8} :
    backLoop (colon :: colon :: p) dest block cur shift = dest.setWord block cur := by
  rw [backLoop, if_neg (fun h => h rfl), Option.bind_map]
  cases dest.setWord block cur with
  | none => rfl
  | some dest => rfl

end Field

/-! ## The loops over several fields -/

/-- Blocks, each in front of a colon. -/
def before (ws : List UInt16) : List UInt8 := ws.flatMap fun w => blockText w 2 ++ [colon]

/-- Blocks, each behind a colon. -/
def behind (ws : List UInt16) : List UInt8 := ws.flatMap fun w => colon :: blockText w 2

theorem before_cons (w : UInt16) (ws : List UInt16) :
    before (w :: ws) = blockText w 2 ++ behind ws ++ [colon] := by
  induction ws generalizing w with
  | nil => simp [before, behind]
  | cons w' ws ih =>
    have hstep : before (w :: w' :: ws) = blockText w 2 ++ [colon] ++ before (w' :: ws) := rfl
    rw [hstep, ih]
    simp [behind]

/-- The text of a block has a first character, which is a digit. -/
theorem exists_cons_blockText (w : UInt16) (p : List UInt8) :
    ∃ c q, blockText w 2 ++ p = c :: q ∧ c ≠ colon := by
  have hd := digits (w := w) (.inr rfl)
  have hne : blockText w 2 ≠ [] := by
    intro h
    have hlen := hd.length
    rw [h] at hlen
    exact absurd hlen.symm (Nat.ne_of_gt (hexLen_bounds w).1)
  obtain ⟨c, q, hq⟩ := List.exists_cons_of_ne_nil hne
  exact ⟨c, q ++ p, by rw [hq]; rfl, (hd.chars c (by rw [hq]; exact .head _)).1⟩

theorem frontLoop_blockText {dest : In6Addr} {block : UInt8} (w : UInt16) {p : List UInt8}
    (hp : p ≠ []) : frontLoop (blockText w 2 ++ p) dest block 0 = frontLoop p dest block w := by
  have hd := digits (w := w) (.inr rfl)
  rw [frontLoop_field (fun d hd' => (hd.chars d hd').1) hp, hd.front]

/-- The block behind others that were set. -/
theorem In6Addr.setWord_behind {dest : In6Addr} {l init : List UInt16} {k : Nat} {block : UInt8}
    (hl : l.length = 8) (hwords : dest.words = splice l k init)
    (hblock : block.toNat = k + init.length) (h : block.toNat < 8) (cur : UInt16) :
    ∃ dest', dest.setWord block cur = some dest' ∧ dest'.words = splice l k (init ++ [cur]) := by
  obtain ⟨dest', hset, hwords'⟩ := words_setWord dest h cur
  refine ⟨dest', hset, ?_⟩
  rw [hwords', set_eq_splice (by rw [length_words]; exact h), hwords, hblock,
    splice_splice_append (by omega)]

theorem toNat_next {block : UInt8} (h : block.toNat < 8) : (block + 1).toNat = block.toNat + 1 := by
  rw [UInt8.toNat_add, show (1 : UInt8).toNat = 1 from rfl]
  omega

theorem frontLoop_behind {dest : In6Addr} {block : UInt8} {l init : List UInt16} {k : Nat}
    (cur : UInt16) (hl : l.length = 8) (hwords : dest.words = splice l k init)
    (hblock : block.toNat = k + init.length) (ws : List UInt16) {p : List UInt8} (hp : p ≠ [])
    (h : block.toNat + ws.length ≤ 8) :
    ∃ init' last dest' block', init ++ cur :: ws = init' ++ [last] ∧
      block'.toNat = k + init'.length ∧ In6Addr.words dest' = splice l k init' ∧
      frontLoop (behind ws ++ p) dest block cur = frontLoop p dest' block' last := by
  induction ws generalizing dest block init cur with
  | nil => exact ⟨init, cur, dest, block, rfl, hblock, hwords, rfl⟩
  | cons w ws ih =>
    rw [List.length_cons] at h
    obtain ⟨c, q, hq, hc⟩ := exists_cons_blockText w (behind ws ++ p)
    obtain ⟨dest₁, hset, hwords₁⟩ := In6Addr.setWord_behind hl hwords hblock (by omega) cur
    have hnext := toNat_next (show block.toNat < 8 by omega)
    obtain ⟨init', last, dest', block', hws, hblock', hwords', hloop⟩ := ih w hwords₁
      (by rw [hnext, hblock, List.length_append]; rfl) (by omega)
    refine ⟨init', last, dest', block', by rw [← hws]; simp, hblock', hwords', ?_⟩
    have htext : behind (w :: ws) ++ p = colon :: (blockText w 2 ++ (behind ws ++ p)) := by
      simp [behind]
    rw [htext, hq, frontLoop_colon hc, hset, Option.bind_some, ← hq,
      frontLoop_blockText w (List.append_ne_nil_of_right_ne_nil _ hp), hloop]

/-! ## Where the loops end -/

section End

variable (dest : In6Addr) (block : UInt8) (cur : UInt16) {ws : List UInt16}

/-- At the end of the string. -/
theorem frontLoop_end (hws : ws ≠ []) (h : block.toNat + ws.length < 8) :
    ∃ dest', frontLoop (behind ws) dest block cur = some (.returned dest') ∧
      In6Addr.words dest' = splice dest.words block.toNat (cur :: ws) := by
  obtain ⟨ws, w, rfl⟩ : ∃ init w, ws = init ++ [w] :=
    ⟨ws.dropLast, ws.getLast hws, (List.dropLast_append_getLast hws).symm⟩
  rw [List.length_append, List.length_singleton] at h
  have hlast : behind (ws ++ [w]) = behind ws ++ (colon :: blockText w 2) := by
    simp [behind]
  obtain ⟨init, last, dest₁, block₁, hinit, hblock₁, hwords₁, hloop⟩ :=
    frontLoop_behind cur dest.length_words (splice_nil dest.words block.toNat).symm rfl ws
      (List.cons_ne_nil colon (blockText w 2)) (by omega)
  have hcount := congrArg List.length hinit
  simp only [List.nil_append, List.length_cons, List.length_append, List.length_nil] at hcount
  have hd := digits (w := w) (.inr rfl)
  obtain ⟨c, q, hq, hc⟩ := exists_cons_blockText w []
  rw [List.append_nil] at hq
  obtain ⟨dest₂, hset₂, hwords₂⟩ := In6Addr.setWord_behind dest.length_words hwords₁ hblock₁
    (by omega) last
  have hnext := toNat_next (show block₁.toNat < 8 by omega)
  obtain ⟨dest₃, hset₃, hwords₃⟩ := In6Addr.setWord_behind dest.length_words hwords₂
    (hnext.trans (by rw [List.length_append, hblock₁]; rfl)) (by omega) w
  refine ⟨dest₃, ?_, ?_⟩
  · rw [hlast, hloop, hq, frontLoop_colon hc, hset₂, Option.bind_some, ← hq,
      frontLoop_last (by rw [hq]; exact List.cons_ne_nil _ _) (fun d hd' => (hd.chars d hd').1),
      hd.front, hset₃]
    rfl
  · rw [hwords₃, ← hinit]
    rfl

/-- Behind a last colon: the block behind it is 0. -/
theorem frontLoop_cut (h : block.toNat + ws.length < 7) :
    ∃ dest', frontLoop (behind ws ++ [colon]) dest block cur = some (.returned dest') ∧
      In6Addr.words dest' = splice dest.words block.toNat (cur :: ws ++ [0]) := by
  obtain ⟨init, last, dest₁, block₁, hinit, hblock₁, hwords₁, hloop⟩ :=
    frontLoop_behind cur dest.length_words (splice_nil dest.words block.toNat).symm rfl ws
      (List.cons_ne_nil colon []) (by omega)
  have hcount := congrArg List.length hinit
  simp only [List.nil_append, List.length_cons, List.length_append, List.length_nil] at hcount
  obtain ⟨dest₂, hset₂, hwords₂⟩ := In6Addr.setWord_behind dest.length_words hwords₁ hblock₁
    (by omega) last
  have hnext := toNat_next (show block₁.toNat < 8 by omega)
  obtain ⟨dest₃, hset₃, hwords₃⟩ := In6Addr.setWord_behind dest.length_words hwords₂
    (hnext.trans (by rw [List.length_append, hblock₁]; rfl)) (by omega) 0
  refine ⟨dest₃, ?_, ?_⟩
  · rw [hloop, frontLoop, if_neg (fun h => h rfl), hset₂, Option.map_some, Option.bind_some]
    dsimp only
    rw [hset₃]
    rfl
  · rw [hwords₃, ← hinit]
    rfl

/-- At two colons. -/
theorem frontLoop_stop (h : block.toNat + ws.length < 8) (q : List UInt8) :
    ∃ dest', frontLoop (behind ws ++ colon :: colon :: q) dest block cur =
        some (.stopped dest') ∧
      In6Addr.words dest' = splice dest.words block.toNat (cur :: ws) := by
  obtain ⟨init, last, dest₁, block₁, hinit, hblock₁, hwords₁, hloop⟩ :=
    frontLoop_behind cur dest.length_words (splice_nil dest.words block.toNat).symm rfl ws
      (List.cons_ne_nil colon (colon :: q)) (by omega)
  have hcount := congrArg List.length hinit
  simp only [List.nil_append, List.length_cons, List.length_append, List.length_nil] at hcount
  obtain ⟨dest₂, hset₂, hwords₂⟩ := In6Addr.setWord_behind dest.length_words hwords₁ hblock₁
    (by omega) last
  refine ⟨dest₂, by rw [hloop, frontLoop_colons, hset₂]; rfl, ?_⟩
  rw [hwords₂, ← hinit]
  rfl

theorem exists_cons_reverse_behind (hws : ws ≠ []) :
    ∃ c q, (behind ws).reverse = c :: q ∧ c ≠ colon := by
  obtain ⟨ws, w, rfl⟩ : ∃ init w, ws = init ++ [w] :=
    ⟨ws.dropLast, ws.getLast hws, (List.dropLast_append_getLast hws).symm⟩
  obtain ⟨c, q, hq⟩ : ∃ c q, (blockText w 2).reverse = c :: q := by
    obtain ⟨c, q, hq, -⟩ := exists_cons_blockText w []
    refine List.exists_cons_of_ne_nil fun h => ?_
    rw [List.append_nil, List.reverse_eq_nil_iff.1 h] at hq
    cases hq
  refine ⟨c, q ++ colon :: (behind ws).reverse, by simp [behind, hq], ?_⟩
  have hmem : c ∈ blockText w 2 := List.mem_reverse.1 (by rw [hq]; exact .head _)
  exact ((digits (.inr rfl)).chars c hmem).1

/-- The loop from the end stops at two colons too. -/
theorem backLoop_stop (hws : ws ≠ []) (hblock : block.toNat < 8)
    (h : ws.length ≤ block.toNat + 1) (r : List UInt8) :
    ∃ dest', backLoop ((behind ws).reverse ++ colon :: r) dest block 0 0 = some dest' ∧
      In6Addr.words dest' = splice dest.words (block.toNat + 1 - ws.length) ws := by
  induction ws using List.reverseRecOn generalizing dest block with
  | nil => exact absurd rfl hws
  | append_singleton ws w ih =>
    rw [List.length_append, List.length_singleton] at h ⊢
    have hd := digits (w := w) (.inr rfl)
    have htext : (behind (ws ++ [w])).reverse ++ colon :: r =
        (blockText w 2).reverse ++ colon :: ((behind ws).reverse ++ colon :: r) := by
      simp [behind]
    have hlen : (0 : UInt8).toNat + 4 * (blockText w 2).reverse.length ≤ 16 := by
      have hle := (hexLen_bounds w).2
      rw [List.length_reverse, hd.length, show (0 : UInt8).toNat = 0 from rfl]
      omega
    obtain ⟨shift', hfield⟩ : ∃ shift', backLoop _ dest block 0 0 =
        backLoop _ dest block _ shift' :=
      backLoop_field (fun d hd' => (hd.chars d (List.mem_reverse.1 hd')).1) hlen
    obtain ⟨dest₁, hset, hwords⟩ := In6Addr.words_setWord dest hblock w
    rw [htext, hfield, hd.back]
    by_cases hfirst : ws = []
    · subst hfirst
      refine ⟨dest₁, (by exact backLoop_colons.trans hset), ?_⟩
      rw [hwords, set_eq_splice (by rw [In6Addr.length_words]; exact hblock)]
      rfl
    · have hpos := List.length_pos_iff.2 hfirst
      have hprev : (block - 1).toNat = block.toNat - 1 := by
        rw [UInt8.toNat_sub_of_le _ _ (UInt8.le_iff_toNat_le.2 (by
          rw [show (1 : UInt8).toNat = 1 from rfl]
          omega))]
        rfl
      obtain ⟨c, q, hq, hc⟩ := exists_cons_reverse_behind hfirst
      obtain ⟨dest', hloop, hwords'⟩ := ih dest₁ (block - 1) hfirst (by omega)
        (by omega)
      refine ⟨dest', ?_, ?_⟩
      · rw [hq] at hloop ⊢
        rw [List.cons_append, backLoop_colon hc, hset, Option.bind_some]
        exact hloop
      · have hoff : block.toNat - 1 + 1 - ws.length = block.toNat - ws.length := by omega
        have hoff' : block.toNat + 1 - (ws.length + 1) = block.toNat - ws.length := by omega
        have happend :
            splice (splice dest.words (block.toNat - ws.length + ws.length) [w]) _ ws = _ :=
          splice_append_splice ws [w] (by rw [In6Addr.length_words]; omega)
        rw [Nat.sub_add_cancel (by omega)] at happend
        rw [hwords', hwords, hprev, hoff, hoff',
          set_eq_splice (by rw [In6Addr.length_words]; exact hblock)]
        exact happend

end End

/-! ## What is written -/

section Write

variable {cnt : Nat} {buf : List UInt8}

theorem putText_eq {text : List UInt8} (h : buf.length + text.length ≤ cnt) :
    putText cnt buf text = some (buf ++ text) := if_pos h

theorem length_blockText (w : UInt16) : (blockText w 2).length = hexLen w :=
  (digits (.inr rfl)).length

theorem blockText_of_ne {w : UInt16} (hw : w ≠ 0) (compressed : Nat) :
    blockText w compressed = blockText w 2 := by
  rw [blockText_eq (.inl hw), blockText_eq (.inr rfl)]

theorem length_before (ws : List UInt16) :
    (before ws).length = (ws.map fun w => hexLen w + 1).sum := by
  rw [before, List.length_flatMap]
  simp [length_blockText]

/-- A block other than 0. -/
theorem ntopLoop_digits {w : UInt16} {rest : List UInt16} {compressed : Nat}
    (hw : compressed < 2 ∧ w ≠ 0 ∨ compressed = 2) (h : buf.length + 8 ≤ cnt) :
    ntopLoop cnt (w :: rest) compressed buf =
      ntopLoop cnt rest (if compressed = 0 then 0 else 2)
        (buf ++ blockText w 2 ++ if rest = [] then [] else [colon]) := by
  have hlen := (hexLen_bounds w).2
  have hput : putText cnt buf (blockText w 2) = some (buf ++ blockText w 2) :=
    putText_eq (by rw [length_blockText]; omega)
  have hput' : putText cnt (buf ++ blockText w 2) [colon] =
      some (buf ++ blockText w 2 ++ [colon]) :=
    putText_eq (by rw [List.length_append, length_blockText, List.length_singleton]; omega)
  have hroom : ¬cnt < buf.length + 8 := by omega
  rcases hw with ⟨hsmall, hw⟩ | rfl
  · have htext := blockText_of_ne hw compressed
    rcases (by omega : compressed = 0 ∨ compressed = 1) with rfl | rfl
    · by_cases hrest : rest = []
      · simp [ntopLoop, hroom, htext, hput, hw, hrest]
      · simp [ntopLoop, hroom, htext, hput, hput', hw, hrest]
    · by_cases hrest : rest = []
      · simp [ntopLoop, hroom, htext, hput, hw, hrest]
      · simp [ntopLoop, hroom, htext, hput, hput', hw, hrest]
  · by_cases hrest : rest = []
    · simp [ntopLoop, hroom, hput, hrest]
    · simp [ntopLoop, hroom, hput, hput', hrest]

/-- The first block of the run of zeros. -/
theorem ntopLoop_zero {rest : List UInt16} (h : buf.length + 8 ≤ cnt) :
    ntopLoop cnt (0 :: rest) 0 buf = ntopLoop cnt rest 1 (buf ++ [colon]) := by
  have hnone : blockText 0 0 = [] := by decide
  have hput : putText cnt buf [] = some (buf ++ []) := putText_eq (by rw [List.length_nil]; omega)
  have hput' : putText cnt buf [colon] = some (buf ++ [colon]) :=
    putText_eq (by rw [List.length_singleton]; omega)
  have hroom : ¬cnt < buf.length + 8 := by omega
  simp [ntopLoop, hroom, hnone, hput, hput']

/-- The others are not written. -/
theorem ntopLoop_zeros {n : Nat} {rest : List UInt16} (h : n = 0 ∨ buf.length + 8 ≤ cnt) :
    ntopLoop cnt (List.replicate n 0 ++ rest) 1 buf = ntopLoop cnt rest 1 buf := by
  induction n with
  | zero => rfl
  | succ n ih =>
    have hroom : buf.length + 8 ≤ cnt := h.resolve_left (Nat.succ_ne_zero n)
    have hnone : blockText 0 1 = [] := by decide
    have hput : putText cnt buf [] = some (buf ++ []) :=
      putText_eq (by rw [List.length_nil]; omega)
    have hroom' : ¬cnt < buf.length + 8 := by omega
    rw [List.replicate_succ, List.cons_append, ← ih (.inr hroom)]
    simp [ntopLoop, hroom', hnone, hput]

/-- The blocks in front of the run. -/
theorem ntopLoop_before {ws rest : List UInt16} (hws : ∀ w ∈ ws, w ≠ 0) (hrest : rest ≠ [])
    (h : buf.length + 5 * ws.length + 3 ≤ cnt) :
    ntopLoop cnt (ws ++ rest) 0 buf = ntopLoop cnt rest 0 (buf ++ before ws) := by
  induction ws generalizing buf with
  | nil => rw [before, List.flatMap_nil, List.append_nil, List.nil_append]
  | cons w ws ih =>
    obtain ⟨hw, hws⟩ := List.forall_mem_cons.1 hws
    have hlen := (hexLen_bounds w).2
    rw [List.length_cons] at h
    rw [List.cons_append, ntopLoop_digits (.inl ⟨by decide, hw⟩) (by omega), if_pos rfl,
      if_neg (List.append_ne_nil_of_right_ne_nil ws hrest), ih hws (by
        rw [List.length_append, List.length_append, length_blockText, List.length_singleton]
        omega)]
    simp [before]

/-- The blocks behind the run. -/
theorem ntopLoop_behind {w : UInt16} {ws : List UInt16} {compressed : Nat}
    (hw : compressed = 1 ∧ w ≠ 0 ∨ compressed = 2) (h : buf.length + 5 * ws.length + 8 ≤ cnt) :
    ntopLoop cnt (w :: ws) compressed buf = some (buf ++ blockText w 2 ++ behind ws) := by
  have hlen := (hexLen_bounds w).2
  have hrun : ¬compressed = 0 := by omega
  induction ws generalizing w compressed buf with
  | nil =>
    rw [ntopLoop_digits (hw.imp_left fun hw => ⟨by omega, hw.2⟩) (by omega), if_neg hrun,
      if_pos rfl, ntopLoop, if_neg (by decide)]
    simp [behind]
  | cons w' ws ih =>
    rw [List.length_cons] at h
    rw [ntopLoop_digits (hw.imp_left fun hw => ⟨by omega, hw.2⟩) (by omega), if_neg hrun,
      if_neg (List.cons_ne_nil _ _), ih (.inr rfl) (by
        rw [List.length_append, List.length_append, length_blockText, List.length_singleton]
        omega) (hexLen_bounds w').2 (by decide)]
    simp [behind]

/-- The last block, where there is no run. -/
theorem ntopLoop_last {w : UInt16} (hw : w ≠ 0) :
    ntopLoop cnt [w] 0 buf =
      some (if cnt < buf.length + 8 then buf else buf ++ blockText w 2) := by
  by_cases hcut : cnt < buf.length + 8
  · rw [ntopLoop, if_pos hcut, if_pos hcut]
  · rw [ntopLoop_digits (.inl ⟨by decide, hw⟩) (by omega), if_pos rfl, if_pos rfl, if_neg hcut,
      ntopLoop, if_neg (by decide), List.append_nil]

end Write

/-! ## What is read -/

/-- The address 0. -/
def zeroAddr : In6Addr := .replicate 16 0

theorem words_zeroAddr : zeroAddr.words = List.replicate 8 0 := by decide

theorem zero_toNat : (0 : UInt8).toNat = 0 := rfl

/-- A string with no two colons in a row. -/
theorem inetPton6_returned {text : List UInt8} {a : In6Addr}
    (h : frontLoop text zeroAddr 0 0 = some (.returned a)) : inetPton6 text = some a := by
  rw [inetPton6, show Vector.replicate 16 0 = zeroAddr from rfl, h]
  rfl

theorem inetPton6_stopped {text : List UInt8} {a : In6Addr}
    (h : frontLoop text zeroAddr 0 0 = some (.stopped a)) :
    inetPton6 text = backLoop text.reverse a 7 0 0 := by
  rw [inetPton6, show Vector.replicate 16 0 = zeroAddr from rfl, h]
  rfl

/-- All blocks are there. -/
theorem inetPton6_all {ws : List UInt16} {w : UInt16} (h : ws.length = 7) :
    ∃ a, inetPton6 (before ws ++ blockText w 2) = some a ∧ In6Addr.words a = ws ++ [w] := by
  obtain _ | ⟨w₀, ws⟩ := ws
  · cases h
  rw [List.length_cons] at h
  have htext : before (w₀ :: ws) ++ blockText w 2 = blockText w₀ 2 ++ behind (ws ++ [w]) := by
    rw [before_cons]
    simp [behind]
  obtain ⟨a, hloop, hwords⟩ := frontLoop_end zeroAddr 0 w₀
    (List.append_ne_nil_of_right_ne_nil ws (List.cons_ne_nil w []))
    (by rw [zero_toNat, List.length_append, List.length_singleton]; omega)
  refine ⟨a, inetPton6_returned ?_, ?_⟩
  · rw [htext, frontLoop_blockText _ (by simp [behind]), hloop]
  · rw [hwords, words_zeroAddr, zero_toNat, splice_of_end]
    · rfl
    · simp
      omega

/-- The last block is cut off. -/
theorem inetPton6_cut {ws : List UInt16} (h : ws.length = 7) :
    ∃ a, inetPton6 (before ws) = some a ∧ In6Addr.words a = ws ++ [0] := by
  obtain _ | ⟨w₀, ws⟩ := ws
  · cases h
  rw [List.length_cons] at h
  obtain ⟨a, hloop, hwords⟩ := frontLoop_cut zeroAddr 0 w₀
    (show (0 : UInt8).toNat + ws.length < 7 by rw [zero_toNat]; omega)
  refine ⟨a, inetPton6_returned ?_, ?_⟩
  · rw [before_cons, List.append_assoc, frontLoop_blockText _ (by simp), hloop]
  · rw [hwords, words_zeroAddr, zero_toNat, splice_of_end]
    · rfl
    · simp
      omega

/-- Blocks in front of two colons. -/
theorem frontLoop_run {ws : List UInt16} (hws : ws ≠ []) (h : ws.length < 8) (q : List UInt8) :
    ∃ a, frontLoop (before ws ++ colon :: q) zeroAddr 0 0 = some (.stopped a) ∧
      In6Addr.words a = ws ++ List.replicate (8 - ws.length) 0 := by
  obtain ⟨w₀, ws, rfl⟩ := List.exists_cons_of_ne_nil hws
  rw [List.length_cons] at h
  obtain ⟨a, hloop, hwords⟩ := frontLoop_stop zeroAddr 0 w₀
    (show (0 : UInt8).toNat + ws.length < 8 by rw [zero_toNat]; omega) q
  refine ⟨a, ?_, ?_⟩
  · have htext : before (w₀ :: ws) ++ colon :: q =
        blockText w₀ 2 ++ (behind ws ++ colon :: colon :: q) := by
      rw [before_cons]
      simp
    rw [htext, frontLoop_blockText _ (by simp), hloop]
  · rw [hwords, words_zeroAddr, zero_toNat, splice, List.take_zero, List.nil_append,
      List.drop_replicate, Nat.zero_add]

theorem set_last_zero {ws : List UInt16} (h : ws.length < 8) :
    (ws ++ List.replicate (8 - ws.length) 0).set 7 0 = ws ++ List.replicate (8 - ws.length) 0 := by
  rw [List.set_append_right _ _ (by omega), List.set_replicate_self]

/-- The blocks behind the run are 0. -/
theorem inetPton6_end {ws : List UInt16} (h : ws.length < 8) :
    ∃ a, inetPton6 (before ws ++ [colon, colon]) = some a ∧
      In6Addr.words a = ws ++ List.replicate (8 - ws.length) 0 := by
  obtain ⟨a, hfront, hwords⟩ : ∃ a, frontLoop (before ws ++ [colon, colon]) zeroAddr 0 0 =
      some (.stopped a) ∧ In6Addr.words a = ws ++ List.replicate (8 - ws.length) 0 := by
    by_cases hws : ws = []
    · subst hws
      obtain ⟨a, hset, hwords⟩ := In6Addr.words_setWord zeroAddr
        (show (0 : UInt8).toNat < 8 by decide) 0
      refine ⟨a, ?_, hwords.trans (by rw [words_zeroAddr]; rfl)⟩
      rw [show before [] ++ [colon, colon] = [colon, colon] from rfl, frontLoop_colons, hset]
      rfl
    · exact frontLoop_run hws h [colon]
  obtain ⟨a', hset, hwords'⟩ := In6Addr.words_setWord a (show (7 : UInt8).toNat < 8 by decide) 0
  refine ⟨a', ?_, ?_⟩
  · rw [inetPton6_stopped hfront, List.reverse_append]
    exact backLoop_colons.trans hset
  · rw [hwords', hwords]
    exact set_last_zero h

/-- There are blocks on both sides of the run. -/
theorem inetPton6_middle {ws ws' : List UInt16} (hws : ws ≠ []) (hws' : ws' ≠ [])
    (h : ws.length + ws'.length < 8) :
    ∃ a, inetPton6 (before ws ++ behind ws') = some a ∧
      In6Addr.words a = ws ++ List.replicate (8 - ws.length - ws'.length) 0 ++ ws' := by
  obtain ⟨q, hq⟩ : ∃ q, behind ws' = colon :: q := by
    obtain ⟨w, ws', rfl⟩ := List.exists_cons_of_ne_nil hws'
    exact ⟨_, rfl⟩
  obtain ⟨r, hr⟩ : ∃ r, (before ws).reverse = colon :: r := by
    obtain ⟨w, ws, rfl⟩ := List.exists_cons_of_ne_nil hws
    exact ⟨_, by rw [before_cons, List.reverse_append]; rfl⟩
  obtain ⟨a, hfront, hwords⟩ := frontLoop_run hws (by omega) q
  obtain ⟨a', hback, hwords'⟩ := backLoop_stop a 7 hws' (by decide)
    (by rw [show (7 : UInt8).toNat = 7 from rfl]; omega) r
  refine ⟨a', ?_, ?_⟩
  · rw [inetPton6_stopped (hq ▸ hfront), List.reverse_append, hr]
    exact hback
  · have hoff : (7 : UInt8).toNat + 1 - ws'.length = ws.length + (8 - ws.length - ws'.length) := by
      rw [show (7 : UInt8).toNat = 7 from rfl]
      omega
    rw [hwords', hwords, hoff, splice_of_end, List.take_length_add_append, List.take_replicate,
      Nat.min_eq_left (Nat.sub_le _ _)]
    rw [List.length_append, List.length_replicate]
    omega

/-- A run in front of all blocks is read as one block. -/
theorem inetPton6_start {ws : List UInt16} (hws : ws ≠ []) (h : ws.length < 8) :
    ∃ a, inetPton6 (behind ws) = some a ∧
      In6Addr.words a = 0 :: ws ++ List.replicate (7 - ws.length) 0 := by
  obtain ⟨a, hloop, hwords⟩ := frontLoop_end zeroAddr 0 0 hws
    (by rw [zero_toNat]; omega)
  refine ⟨a, inetPton6_returned hloop, ?_⟩
  rw [hwords, words_zeroAddr, zero_toNat, splice, List.take_zero, List.nil_append,
    List.drop_replicate, List.length_cons]
  congr 2
  omega

/-! ## There and back -/

/-- `inetNtop6` ends its string within the buffer, and `inetPton6` of it gives the address back. -/
def RoundTrips (a : In6Addr) (cnt : Nat) : Prop :=
  ∃ text, inetNtop6 a cnt = some (text ++ [0], text.length + 1) ∧ (∀ c ∈ text, c ≠ 0) ∧
    inetPton6 text = some a

theorem before_chars (ws : List UInt16) : ∀ c ∈ before ws, c ≠ 0 := by
  intro c hc
  obtain ⟨w, -, hc⟩ := List.mem_flatMap.1 hc
  rcases List.mem_append.1 hc with hc | hc
  · exact ((digits (.inr rfl)).chars c hc).2
  · rw [List.mem_singleton.1 hc]
    decide

theorem behind_chars (ws : List UInt16) : ∀ c ∈ behind ws, c ≠ 0 := by
  intro c hc
  obtain ⟨w, -, hc⟩ := List.mem_flatMap.1 hc
  rcases List.mem_cons.1 hc with rfl | hc
  · decide
  · exact ((digits (.inr rfl)).chars c hc).2

/-- What the address is read back from, and as what. -/
theorem roundTrips_iff_words {a : In6Addr} {cnt : Nat} {text : List UInt8} {ws : List UInt16}
    (hwrite : ntopLoop cnt a.words 0 [] = some text) (hroom : text.length < cnt)
    (hchars : ∀ c ∈ text, c ≠ 0)
    (hread : ∃ b, inetPton6 text = some b ∧ In6Addr.words b = ws) :
    RoundTrips a cnt ↔ ws = a.words := by
  obtain ⟨b, hb, rfl⟩ := hread
  have hput : putText cnt text [0] = some (text ++ [0]) := putText_eq hroom
  have htext : inetNtop6 a cnt = some (text ++ [0], text.length + 1) := by
    rw [inetNtop6, hwrite, Option.bind_some, hput, Option.map_some, List.length_append]
    rfl
  constructor
  · rintro ⟨text', htext', -, hread'⟩
    rw [htext, Option.some.injEq, Prod.mk.injEq, List.append_left_inj] at htext'
    obtain ⟨rfl, -⟩ := htext'
    rw [Option.some.inj (hb.symm.trans hread')]
  · intro hsame
    exact ⟨text, htext, hchars, hb.trans (congrArg some (In6Addr.words_inj hsame))⟩

/-- A run of zeros and what is behind it. -/
theorem exists_zeros (ws : List UInt16) :
    ∃ n post, ws = List.replicate n 0 ++ post ∧ ∀ w ws', post = w :: ws' → w ≠ 0 := by
  induction ws with
  | nil => exact ⟨0, [], rfl, nofun⟩
  | cons w ws ih =>
    by_cases hw : w = 0
    · obtain ⟨n, post, rfl, hpost⟩ := ih
      exact ⟨n + 1, post, by rw [hw, List.replicate_succ, List.cons_append], hpost⟩
    · refine ⟨0, w :: ws, rfl, ?_⟩
      rintro _ _ h
      cases h
      exact hw

/-- The first run of zeros. -/
theorem exists_zero_run (ws : List UInt16) : (∀ w ∈ ws, w ≠ 0) ∨ ∃ pre n post,
    ws = pre ++ 0 :: (List.replicate n 0 ++ post) ∧ (∀ w ∈ pre, w ≠ 0) ∧
      ∀ w ws', post = w :: ws' → w ≠ 0 := by
  induction ws with
  | nil => exact .inl (List.forall_mem_nil _)
  | cons w ws ih =>
    by_cases hw : w = 0
    · obtain ⟨n, post, rfl, hpost⟩ := exists_zeros ws
      exact .inr ⟨[], n, post, by rw [hw, List.nil_append], List.forall_mem_nil _, hpost⟩
    · rcases ih with hws | ⟨pre, n, post, rfl, hpre, hpost⟩
      · exact .inl (List.forall_mem_cons.2 ⟨hw, hws⟩)
      · exact .inr ⟨w :: pre, n, post, rfl, List.forall_mem_cons.2 ⟨hw, hpre⟩, hpost⟩

theorem length_before_le (ws : List UInt16) : (before ws).length ≤ 5 * ws.length := by
  induction ws with
  | nil => exact Nat.zero_le _
  | cons w ws ih =>
    have hlen := (hexLen_bounds w).2
    rw [length_before] at ih ⊢
    rw [List.map_cons, List.sum_cons, List.length_cons]
    omega

section Trip

variable {a : In6Addr} {cnt : Nat} (hcnt : 40 ≤ cnt)

include hcnt

/-- No block is 0. -/
theorem roundTrips_full {ws : List UInt16} {w : UInt16} (h : a.words = ws ++ [w])
    (hws : ∀ w ∈ ws, w ≠ 0) (hw : w ≠ 0) :
    RoundTrips a cnt ↔ (ws.map hexLen).sum + 15 ≤ cnt := by
  have hlen := congrArg List.length h
  rw [In6Addr.length_words, List.length_append, List.length_singleton] at hlen
  have hle := length_before_le ws
  have hwlen := (hexLen_bounds w).2
  have hsum : (before ws).length = (ws.map hexLen).sum + ws.length := by
    rw [length_before, List.sum_map_add]
    simp
  have hwrite : ntopLoop cnt a.words 0 [] = some (if cnt < (before ws).length + 8 then before ws
      else before ws ++ blockText w 2) := by
    rw [h, ntopLoop_before hws (List.cons_ne_nil w []) (by rw [List.length_nil]; omega),
      List.nil_append, ntopLoop_last hw]
  split at hwrite
  · rename_i hcut
    rw [roundTrips_iff_words hwrite (by omega) (before_chars ws) (inetPton6_cut (by omega)), h,
      List.append_right_inj]
    refine iff_of_false (fun h0 => hw (List.cons.inj h0).1.symm) ?_
    omega
  · rename_i hroom
    have hchars : ∀ c ∈ before ws ++ blockText w 2, c ≠ 0 := by
      intro c hc
      rcases List.mem_append.1 hc with hc | hc
      · exact before_chars ws c hc
      · exact ((digits (.inr rfl)).chars c hc).2
    rw [roundTrips_iff_words hwrite (by rw [List.length_append, length_blockText]; omega) hchars
      (inetPton6_all (by omega))]
    refine iff_of_true h.symm ?_
    omega

/-- The blocks from the first 0 on are 0. -/
theorem roundTrips_end {ws : List UInt16} {n : Nat}
    (h : a.words = ws ++ 0 :: List.replicate n 0) (hws : ∀ w ∈ ws, w ≠ 0) : RoundTrips a cnt := by
  have hlen := congrArg List.length h
  rw [In6Addr.length_words, List.length_append, List.length_cons, List.length_replicate] at hlen
  have hle := length_before_le ws
  have hbefore : ntopLoop cnt a.words 0 [] =
      ntopLoop cnt (0 :: List.replicate n 0) 0 (before ws) := by
    rw [h, ntopLoop_before hws (List.cons_ne_nil _ _) (by rw [List.length_nil]; omega),
      List.nil_append]
  by_cases hcut : cnt < (before ws).length + 8
  · have hn : n = 0 := by omega
    rw [hn, List.replicate_zero, ntopLoop, if_pos hcut] at hbefore
    rw [roundTrips_iff_words hbefore (by omega) (before_chars ws) (inetPton6_cut (by omega)), h, hn,
      List.replicate_zero]
  · have hwrite : ntopLoop cnt a.words 0 [] = some (before ws ++ [colon, colon]) := by
      have hzeros : ntopLoop cnt (List.replicate n 0 ++ []) 1 (before ws ++ [colon]) = _ :=
        ntopLoop_zeros (by
          rw [List.length_append, List.length_singleton]
          omega)
      rw [List.append_nil] at hzeros
      rw [hbefore, ntopLoop_zero (by omega), hzeros, ntopLoop, if_pos rfl,
        putText_eq (by rw [List.length_append, List.length_singleton]; omega), List.append_assoc]
      rfl
    have hchars : ∀ c ∈ before ws ++ [colon, colon], c ≠ 0 := by
      intro c hc
      rcases List.mem_append.1 hc with hc | hc
      · exact before_chars ws c hc
      · simp only [List.mem_cons, List.not_mem_nil, or_false, or_self] at hc
        rw [hc]
        decide
    rw [roundTrips_iff_words hwrite (by rw [List.length_append]; simp; omega) hchars
      (inetPton6_end (by omega)), h, ← List.replicate_succ]
    congr 2
    omega

/-- There are blocks behind the first run. -/
theorem roundTrips_run {ws ws' : List UInt16} {n : Nat} {w : UInt16}
    (h : a.words = ws ++ 0 :: (List.replicate n 0 ++ w :: ws')) (hws : ∀ w ∈ ws, w ≠ 0)
    (hw : w ≠ 0) : RoundTrips a cnt ↔ (ws = [] → n = 0) := by
  have hlen := congrArg List.length h
  simp only [In6Addr.length_words, List.length_append, List.length_cons, List.length_replicate]
    at hlen
  have hle := length_before_le ws
  have hbehind : behind (w :: ws') = colon :: blockText w 2 ++ behind ws' := rfl
  have hwrite : ntopLoop cnt a.words 0 [] = some (before ws ++ behind (w :: ws')) := by
    rw [h, ntopLoop_before hws (List.cons_ne_nil _ _) (by rw [List.length_nil]; omega),
      List.nil_append, ntopLoop_zero (by omega),
      ntopLoop_zeros (by rw [List.length_append, List.length_singleton]; omega),
      ntopLoop_behind (.inl ⟨rfl, hw⟩) (by rw [List.length_append, List.length_singleton]; omega),
      hbehind]
    simp
  have hroom : (before ws ++ behind (w :: ws')).length < cnt := by
    have hsame := congrArg List.length (before_cons w ws')
    have hle' := length_before_le (w :: ws')
    simp only [List.length_append, List.length_cons, List.length_nil, hbehind] at hsame hle' ⊢
    omega
  have hchars : ∀ c ∈ before ws ++ behind (w :: ws'), c ≠ 0 := by
    intro c hc
    exact (List.mem_append.1 hc).elim (before_chars ws c) (behind_chars _ c)
  by_cases hfirst : ws = []
  · subst hfirst
    rw [List.length_nil] at hlen
    rw [roundTrips_iff_words hwrite hroom hchars
      (inetPton6_start (List.cons_ne_nil w ws') (by rw [List.length_cons]; omega)), h]
    rw [List.nil_append, List.cons_append, List.cons.injEq]
    constructor
    · rintro ⟨-, hsame⟩ -
      cases n with
      | zero => rfl
      | succ n =>
        rw [List.replicate_succ, List.cons_append, List.cons_append] at hsame
        exact absurd (List.cons.inj hsame).1 hw
    · intro hn
      rw [hn rfl] at hlen ⊢
      have hnone : 7 - (w :: ws').length = 0 := by
        rw [List.length_cons]
        omega
      rw [hnone]
      simp
  · rw [roundTrips_iff_words hwrite hroom hchars (inetPton6_middle hfirst (List.cons_ne_nil w ws')
      (by rw [List.length_cons]; omega)), h]
    have hrun : 8 - ws.length - (w :: ws').length = n + 1 := by
      rw [List.length_cons]
      omega
    refine iff_of_true ?_ (fun hnil => absurd hnil hfirst)
    rw [hrun, List.replicate_succ]
    simp

end Trip

theorem In6Addr.words_getElem? (a : In6Addr) (i : Fin 8) : a.words[i.val]? = some (a.word i) := by
  rw [words, List.getElem?_ofFn, dif_pos i.isLt]

theorem sum_hexLen_le (ws : List UInt16) : (ws.map hexLen).sum ≤ 4 * ws.length := by
  induction ws with
  | nil => exact Nat.zero_le _
  | cons w ws ih =>
    have hlen := (hexLen_bounds w).2
    rw [List.map_cons, List.sum_cons, List.length_cons]
    omega

/-- A block that is 0 leaves room for the others. -/
theorem sum_hexLen_run {ws : List UInt16} (h : ws.length < 7) (ws' : List UInt16) :
    (((ws ++ 0 :: ws').take 7).map hexLen).sum ≤ 25 := by
  have hfront := sum_hexLen_le ws
  have hback := sum_hexLen_le (ws'.take (6 - ws.length))
  have hzero : hexLen 0 = 1 := by decide
  have hsplit : 7 - ws.length = 6 - ws.length + 1 := by omega
  rw [List.length_take] at hback
  rw [List.take_append, List.take_of_length_le (by omega), hsplit, List.take_succ_cons,
    List.map_append, List.sum_append, List.map_cons, List.sum_cons, hzero]
  omega

/-- The first two blocks, where some block is 0. -/
theorem starts_iff {a : In6Addr} {ws ws' : List UInt16} {n : Nat} {w : UInt16}
    (h : a.words = ws ++ 0 :: (List.replicate n 0 ++ w :: ws')) (hws : ∀ w ∈ ws, w ≠ 0)
    (hw : w ≠ 0) :
    (a.word 0 = 0 → a.word 1 = 0 → a = .replicate 16 0) ↔ (ws = [] → n = 0) := by
  have hfirst := a.words_getElem? 0
  have hsecond := a.words_getElem? 1
  rw [h] at hfirst hsecond
  cases ws with
  | cons w₀ ws =>
    have hne := hws w₀ (.head _)
    refine iff_of_true (fun h0 => absurd ((Option.some.inj hfirst).trans h0) hne) nofun
  | nil =>
    cases n with
    | zero =>
      refine iff_of_true (fun _ h1 => absurd ((Option.some.inj hsecond).trans h1) hw) fun _ => rfl
    | succ n =>
      refine iff_of_false (fun hall => ?_) fun hn => absurd (hn rfl) (Nat.succ_ne_zero n)
      have hzero := hall (Option.some.inj hfirst).symm (Option.some.inj hsecond).symm
      have hmem : w ∈ a.words := by
        rw [h]
        simp
      rw [hzero, show Vector.replicate 16 0 = zeroAddr from rfl, words_zeroAddr] at hmem
      exact hw (List.eq_of_mem_replicate hmem)

/-- **An address is read back** exactly when it is 0 or does not start with two blocks that are 0,
and its last block is 0 or the text of the others leaves eight bytes for it. -/
theorem round_trip_iff (a : In6Addr) {cnt : Nat} (hcnt : 40 ≤ cnt) :
    RoundTrips a cnt ↔
      (a.word 0 = 0 → a.word 1 = 0 → a = .replicate 16 0) ∧
        (a.word 7 = 0 ∨ ((a.words.take 7).map hexLen).sum + 15 ≤ cnt) := by
  have hlen := a.length_words
  rcases exists_zero_run a.words with hws | ⟨ws, n, post, h, hws, hpost⟩
  · have hmem : ∀ i, a.word i ≠ 0 := fun i => hws _ (List.mem_ofFn.2 ⟨i, rfl⟩)
    have hlast : a.words = a.words.take 7 ++ [a.word 7] := by
      have hend := a.words_getElem? 7
      rw [show (7 : Fin 8).val = 7 from rfl] at hend
      calc a.words = a.words.take (7 + 1) := (List.take_of_length_le (by rw [hlen])).symm
        _ = a.words.take 7 ++ [a.word 7] := by rw [List.take_add_one, hend]; rfl
    rw [roundTrips_full hcnt hlast (fun w hw => hws w (List.mem_of_mem_take hw)) (hmem 7),
      or_iff_right (hmem 7)]
    exact (and_iff_right fun h0 => absurd h0 (hmem 0)).symm
  · rw [h] at hlen
    simp only [List.length_append, List.length_cons, List.length_replicate] at hlen
    cases post with
    | nil =>
      rw [List.append_nil] at h
      rw [List.length_nil] at hlen
      refine iff_of_true (roundTrips_end hcnt h hws) ⟨?_, .inl ?_⟩
      · intro h0 _
        have hfirst := a.words_getElem? 0
        rw [h] at hfirst
        cases ws with
        | cons w₀ ws => exact absurd ((Option.some.inj hfirst).trans h0) (hws w₀ (.head _))
        | nil =>
          apply In6Addr.words_inj
          rw [h, show Vector.replicate 16 0 = zeroAddr from rfl, words_zeroAddr, List.nil_append,
            ← List.replicate_succ]
          congr 1
          rw [List.length_nil] at hlen
          omega
      · have hend := a.words_getElem? 7
        rw [h, ← List.replicate_succ, List.getElem?_append_right (by
          rw [show (7 : Fin 8).val = 7 from rfl]
          omega), List.getElem?_replicate] at hend
        split at hend
        · exact (Option.some.inj hend).symm
        · cases hend
    | cons w ws' =>
      have hw := hpost w ws' rfl
      rw [List.length_cons] at hlen
      have hroom := sum_hexLen_run (show ws.length < 7 by omega) (List.replicate n 0 ++ w :: ws')
      rw [← h] at hroom
      rw [roundTrips_run hcnt h hws hw, starts_iff h hws hw]
      exact (and_iff_left (.inr (by omega))).symm

/-- An address with the given blocks. -/
def exampleAddress (words : Fin 8 → UInt16) : In6Addr :=
  .ofFn fun i =>
    let w := words ⟨i.val / 2, by omega⟩
    if i.val % 2 = 0 then (w >>> 8).toUInt8 else w.toUInt8

/-- The link-local address `fe80::1`. -/
def linkLocal : In6Addr := exampleAddress ![0xfe80, 0, 0, 0, 0, 0, 0, 1]

theorem round_trip_linkLocal : RoundTrips linkLocal 40 :=
  (round_trip_iff linkLocal (Nat.le_refl 40)).2 ⟨by decide, .inr (by decide)⟩

/-- The loopback address, written as `:1`. -/
def loopback : In6Addr := exampleAddress ![0, 0, 0, 0, 0, 0, 0, 1]

/-- An address without a digit that is 0. -/
def fullAddress : In6Addr :=
  exampleAddress ![0x1111, 0x2222, 0x3333, 0x4444, 0x5555, 0x6666, 0x7777, 0x8888]

/-- **Two addresses that are not read back**: the first block of `:1` is read as 0 and the second
as 1, and of the full address the last block is cut off. -/
theorem misread : ¬RoundTrips loopback 40 ∧ ¬RoundTrips fullAddress 40 := by
  constructor
  · rintro ⟨text, hwrite, -, hread⟩
    have htext : (inetNtop6 loopback 40).map (·.1.dropLast) = some [colon, '1'.toUInt8] := by
      decide
    rw [hwrite, Option.map_some, List.dropLast_concat, Option.some.injEq] at htext
    subst htext
    exact absurd hread (by decide)
  · rintro ⟨text, hwrite, -, hread⟩
    have htext : ((inetNtop6 fullAddress 40).map (·.1.dropLast)).bind inetPton6 ≠
        some fullAddress := by
      decide
    rw [hwrite, Option.map_some, List.dropLast_concat] at htext
    exact htext hread

end Blip
