import Backip.Blip.RoutingTable

/-!
# The longest prefix comes first

`RoutingTable.Ordered t valid rest`: the entries `valid` stand in front of the others, sorted by the
length of their prefixes, with keys that `last_key` has passed. `addRoute_ordered` and
`delRoute_ordered` keep it, and `lookupRoute_spec` is the search it allows.
-/

set_option autoImplicit false

namespace Blip

namespace RoutingTable

variable {size : Nat}

/-- The invariant. A key of any entry lies below `last_key`, also one that is left over. -/
structure Ordered (t : RoutingTable size) (valid rest : List RouteEntry) : Prop where
  table : t.table = valid ++ rest
  valid_valid : ∀ e ∈ valid, e.valid = true
  rest_invalid : ∀ e ∈ rest, e.valid = false
  sorted : valid.Pairwise fun a b => b.prefixlen ≤ a.prefixlen
  nodup : (valid.map (·.key)).Nodup
  key_lt : ∀ e ∈ t.table, e.key < t.lastKey

theorem init_ordered (size : Nat) : (init size).Ordered [] (List.replicate size .zero) where
  table := rfl
  valid_valid := nofun
  rest_invalid e he := by rw [List.eq_of_mem_replicate he]; rfl
  sorted := .nil
  nodup := .nil
  key_lt e he := by rw [List.eq_of_mem_replicate he]; exact Int.zero_lt_one

theorem Ordered.mem_valid {t : RoutingTable size} {valid rest : List RouteEntry}
    (h : t.Ordered valid rest) {e : RouteEntry} (he : e ∈ t.table) (hv : e.valid = true) :
    e ∈ valid := by
  rw [h.table, List.mem_append] at he
  refine he.resolve_right fun hr => ?_
  rw [h.rest_invalid e hr] at hv
  cases hv

/-- Where the valid entries stand. -/
theorem Ordered.valid_iff {t : RoutingTable size} {valid rest : List RouteEntry}
    (h : t.Ordered valid rest) {i : Nat} {e : RouteEntry} (he : t.table[i]? = some e) :
    e.valid = true ↔ i < valid.length := by
  rw [h.table] at he
  by_cases hi : i < valid.length
  · rw [List.getElem?_append_left hi] at he
    exact iff_of_true (h.valid_valid e (List.mem_of_getElem? he)) hi
  · rw [List.getElem?_append_right (by omega)] at he
    have hinv := h.rest_invalid e (List.mem_of_getElem? he)
    exact iff_of_false (by rw [hinv]; decide) hi

end RoutingTable

/-! ## Looking up -/

/-- An address begins with the prefix of an entry. -/
def RouteEntry.Covers (e : RouteEntry) (dst : In6Addr) : Prop :=
  dst.toList.take (e.prefixlen / 8) = e.pfx.toList.take (e.prefixlen / 8)

theorem RouteEntry.isMatch_iff (dst : In6Addr) (e : RouteEntry) :
    e.isMatch dst 128 = true ↔ e.valid = true ∧ e.Covers dst := by
  have hmin : (dst.toList.take (min 128 e.prefixlen / 8) =
      e.pfx.toList.take (min 128 e.prefixlen / 8)) ↔ e.Covers dst := by
    by_cases hlong : e.prefixlen ≤ 128
    · rw [Nat.min_eq_right hlong, Covers]
    · have h16 : 16 ≤ e.prefixlen / 8 := by omega
      have hcut : min 128 e.prefixlen / 8 = 16 := by rw [Nat.min_eq_left (by omega)]
      have hall {n : Nat} (hn : 16 ≤ n) (a : In6Addr) : a.toList.take n = a.toList :=
        List.take_of_length_le (by simpa using hn)
      rw [hcut, Covers, hall h16, hall h16, hall (Nat.le_refl _), hall (Nat.le_refl _)]
  have hzero : e.prefixlen = 0 → e.Covers dst := fun h0 => by
    rw [Covers, h0]
    rfl
  simp only [isMatch, samePrefix, Bool.and_eq_true, Bool.or_eq_true, beq_iff_eq, bne_iff_ne, hmin]
  constructor
  · rintro ⟨hv, h0 | ⟨hc, -⟩⟩
    · exact ⟨hv, hzero h0⟩
    · exact ⟨hv, hc⟩
  · rintro ⟨hv, hc⟩
    exact ⟨hv, .inr ⟨hc, by decide⟩⟩

namespace RoutingTable

variable {size : Nat}

/-- What `lookupRoute` finds. -/
def LongestMatch (t : RoutingTable size) (dst : In6Addr) : Option Nat → Prop
  | none => ∀ e ∈ t.table, e.valid = true → ¬e.Covers dst
  | some i => ∃ e, t.table[i]? = some e ∧ e.valid = true ∧ e.Covers dst ∧
      ∀ e' ∈ t.table, e'.valid = true → e'.Covers dst → e'.prefixlen ≤ e.prefixlen

/-- **The first match is the longest.** -/
theorem Ordered.longestMatch {t : RoutingTable size} {valid rest : List RouteEntry}
    (h : t.Ordered valid rest) (dst : In6Addr) : t.LongestMatch dst (t.lookupRoute dst 128) := by
  cases hlookup : t.lookupRoute dst 128 with
  | none =>
    intro e he hv hc
    have hnone := List.findIdx?_eq_none_iff.1 hlookup e he
    rw [(RouteEntry.isMatch_iff dst e).2 ⟨hv, hc⟩] at hnone
    cases hnone
  | some i =>
    obtain ⟨hi, hmatch, hbefore⟩ := List.findIdx?_eq_some_iff_getElem.1 hlookup
    obtain ⟨hv, hc⟩ := (RouteEntry.isMatch_iff dst _).1 hmatch
    refine ⟨_, List.getElem?_eq_getElem hi, hv, hc, ?_⟩
    intro e' he' hv' hc'
    obtain ⟨j, hj, rfl⟩ := List.mem_iff_getElem.1 he'
    have hiv := (h.valid_iff (List.getElem?_eq_getElem hi)).1 hv
    have hjv := (h.valid_iff (List.getElem?_eq_getElem hj)).1 hv'
    rcases Nat.lt_trichotomy j i with hlt | rfl | hlt
    · exact absurd ((RouteEntry.isMatch_iff dst _).2 ⟨hv', hc'⟩) (hbefore j hlt)
    · exact Nat.le_refl _
    · have hsorted := List.pairwise_iff_getElem.1 h.sorted i j hiv hjv hlt
      simpa only [h.table, List.getElem_append_left hiv, List.getElem_append_left hjv] using hsorted

end RoutingTable

/-! ## The entry of a prefix -/

/-- A valid entry for a prefix and its length. -/
def RouteEntry.isFor (pfx : In6Addr) (bits : Nat) (e : RouteEntry) : Bool :=
  e.valid && (e.prefixlen == bits && samePrefix (bits / 8) pfx e.pfx)

/-- A valid entry with a longer prefix that begins with this one: the search finds it first. -/
def RouteEntry.hides (pfx : In6Addr) (bits : Nat) (e : RouteEntry) : Bool :=
  e.valid && (decide (bits < e.prefixlen) && (bits != 0 && samePrefix (bits / 8) pfx e.pfx))

namespace RouteEntry

variable {pfx : In6Addr} {bits : Nat} {e : RouteEntry}

@[simp] theorem samePrefix_zero (a b : In6Addr) : samePrefix 0 a b = true := by
  simp [samePrefix]

theorem isMatch_of_isFor (h : e.isFor pfx bits = true) : e.isMatch pfx bits = true := by
  simp only [isFor, Bool.and_eq_true, beq_iff_eq] at h
  obtain ⟨hv, rfl, hsame⟩ := h
  by_cases h0 : e.prefixlen = 0 <;> simp [isMatch, hv, h0, hsame]

theorem isFor_of_isMatch (h : e.isMatch pfx bits = true) (hlen : e.prefixlen = bits) :
    e.isFor pfx bits = true := by
  subst hlen
  simp only [isMatch, Nat.min_self, Bool.and_eq_true, Bool.or_eq_true, beq_iff_eq] at h
  obtain ⟨hv, h0 | ⟨hsame, -⟩⟩ := h
  · simp [isFor, hv, h0]
  · simp [isFor, hv, hsame]

theorem hides_of_isMatch (h : e.isMatch pfx bits = true) (hlen : bits < e.prefixlen) :
    e.hides pfx bits = true := by
  have h0 : e.prefixlen ≠ 0 := by omega
  simp only [isMatch, Nat.min_eq_left (Nat.le_of_lt hlen), Bool.and_eq_true, Bool.or_eq_true,
    beq_iff_eq, h0, false_or] at h
  simp [hides, h, hlen]

theorem isMatch_of_hides (h : e.hides pfx bits = true) :
    e.isMatch pfx bits = true ∧ bits < e.prefixlen := by
  simp only [hides, Bool.and_eq_true, decide_eq_true_eq] at h
  obtain ⟨hv, hlt, hne, hsame⟩ := h
  exact ⟨by simp [isMatch, hv, Nat.min_eq_left (Nat.le_of_lt hlt), hsame, hne], hlt⟩

@[simp] theorem fill_key (e : RouteEntry) (pfx : In6Addr) (bits : Nat) (nextHop : Option In6Addr)
    (ifindex : UInt8) : (e.fill pfx bits nextHop ifindex).key = e.key := by
  simp only [fill]

@[simp] theorem fill_valid (e : RouteEntry) (pfx : In6Addr) (bits : Nat)
    (nextHop : Option In6Addr) (ifindex : UInt8) :
    (e.fill pfx bits nextHop ifindex).valid = e.valid := by
  simp only [fill]

theorem isFor_fill (hv : e.valid = true) (nextHop : Option In6Addr) (ifindex : UInt8) :
    (e.fill pfx bits nextHop ifindex).isFor pfx bits = true := by
  have hcopy : samePrefix (bits / 8) pfx (copyPrefix (bits / 8) e.pfx pfx) = true := by
    rw [samePrefix, beq_iff_eq]
    refine List.ext_getElem (by simp) fun i hi hi' => ?_
    rw [List.length_take] at hi
    simp [copyPrefix, show i < bits / 8 by omega]
  simp [isFor, fill, hv, hcopy]

end RouteEntry

namespace RoutingTable

variable {size : Nat} {t : RoutingTable size} {valid rest : List RouteEntry}

/-! ## Adding a route -/

theorem allocKey_eq {table : List RouteEntry} {key : Int} (h : ∀ e ∈ table, e.key < key) :
    allocKey table key = key := by
  have hfree : ¬keyInUse table key = true := by
    simp only [keyInUse, List.any_eq_true, Bool.and_eq_true, beq_iff_eq, not_exists, not_and]
    intro e he _ heq
    have hlt := h e he
    omega
  rw [allocKey, dif_neg hfree]

/-- Moving the entries from `b` on down. -/
theorem shiftDown_valid {as bs : List RouteEntry} {b : RouteEntry} (hb : b.valid = true) :
    shiftDown (as ++ b :: bs) as.length = as ++ b :: (b :: bs).dropLast := by
  have hget : (as ++ b :: bs).getD as.length .zero = b := by
    rw [List.getD_eq_getElem?_getD, List.getElem?_append_right (Nat.le_refl _), Nat.sub_self]
    rfl
  have hlen : (as ++ b :: bs).length - as.length - 1 = bs.length := by
    rw [List.length_append, List.length_cons]
    omega
  have htail : (b :: bs).take bs.length = (b :: bs).dropLast := by
    rw [List.dropLast_eq_take]
    rfl
  have hshape : as ++ b :: bs = (as ++ [b]) ++ bs := by simp
  rw [shiftDown, hget, if_pos hb, List.drop_left, hlen, htail]
  conv => lhs; rw [hshape]
  rw [splice_append_right (by simp), show as.length + 1 - (as ++ [b]).length = 0 by simp, splice,
    List.take_zero, List.nil_append]
  simp

theorem shiftDown_invalid {as bs : List RouteEntry} {b : RouteEntry} (hb : b.valid = false) :
    shiftDown (as ++ b :: bs) as.length = as ++ b :: bs := by
  have hget : (as ++ b :: bs).getD as.length .zero = b := by
    rw [List.getD_eq_getElem?_getD, List.getElem?_append_right (Nat.le_refl _), Nat.sub_self]
    rfl
  rw [shiftDown, hget, if_neg (by rw [hb]; decide)]

theorem slot_eq {as bs : List RouteEntry} {b : RouteEntry} {pfxlen : Nat}
    (has : ∀ a ∈ as, a.valid = true ∧ pfxlen ≤ a.prefixlen)
    (hb : b.valid = true → b.prefixlen < pfxlen) :
    slot (as ++ b :: bs) pfxlen = some as.length := by
  have hskip : as.findIdx? (fun e => !e.valid || decide (e.prefixlen < pfxlen)) = none := by
    rw [List.findIdx?_eq_none_iff]
    intro a ha
    obtain ⟨hv, hle⟩ := has a ha
    simp [hv, hle]
  have htake : (!b.valid || decide (b.prefixlen < pfxlen)) = true := by
    cases hv : b.valid with
    | false => rfl
    | true => simpa using hb hv
  rw [slot, List.findIdx?_append, hskip, List.findIdx?_cons, if_pos htake]
  simp

theorem set_append (as bs : List RouteEntry) (b b' : RouteEntry) :
    (as ++ b :: bs).set as.length b' = as ++ b' :: bs := by
  simp

theorem getD_append (as bs : List RouteEntry) (b : RouteEntry) :
    (as ++ b :: bs).getD as.length .zero = b := by
  rw [List.getD_eq_getElem?_getD, List.getElem?_append_right (Nat.le_refl _), Nat.sub_self]
  rfl

theorem allocEntry_of_slot {t : RoutingTable size} {pfxlen : Nat} {as l : List RouteEntry}
    {b : RouteEntry} (hlast : (t.table.getD (size - 1) .zero).valid = false)
    (hslot : slot t.table pfxlen = some as.length)
    (hshift : shiftDown t.table as.length = as ++ b :: l)
    (hkeys : ∀ e ∈ as ++ b :: l, e.key < t.lastKey) :
    (t.allocEntry pfxlen).1 = some as.length ∧
      (t.allocEntry pfxlen).2.table = as ++ { b with valid := true, key := t.lastKey } :: l ∧
      (t.allocEntry pfxlen).2.lastKey = t.lastKey + 1 := by
  have hkey : allocKey (as ++ { b with valid := true } :: l) t.lastKey = t.lastKey := by
    refine allocKey_eq fun e he => ?_
    rcases List.mem_append.1 he with he | he
    · exact hkeys e (List.mem_append_left _ he)
    · rcases List.mem_cons.1 he with rfl | he
      · exact hkeys b (by simp)
      · exact hkeys e (by simp [he])
  unfold allocEntry
  rw [if_neg (by rw [hlast]; decide), hslot]
  dsimp only
  rw [hshift, getD_append, set_append, set_append, hkey]
  exact ⟨rfl, rfl, rfl⟩

/-- The last entry is valid only in a full table. -/
theorem Ordered.last_invalid {t : RoutingTable size} {valid rest : List RouteEntry}
    (h : t.Ordered valid rest) (hrest : rest ≠ []) :
    (t.table.getD (size - 1) .zero).valid = false := by
  have hpos := List.length_pos_iff.2 hrest
  have hlen := t.length_table
  rw [h.table, List.length_append] at hlen
  have hlt : size - 1 < t.table.length := by
    rw [t.length_table]
    omega
  have hget := List.getElem?_eq_getElem hlt
  have hiff := h.valid_iff hget
  rw [List.getD_eq_getElem?_getD, hget, Option.getD_some]
  exact Bool.eq_false_iff.2 fun hv => by
    have hbefore := hiff.1 hv
    omega

/-- Where a sorted table is cut for a new prefix. -/
theorem exists_cut {valid : List RouteEntry}
    (h : valid.Pairwise fun a b => b.prefixlen ≤ a.prefixlen) (pfxlen : Nat) :
    ∃ as bs : List RouteEntry, valid = as ++ bs ∧ (∀ a ∈ as, pfxlen ≤ a.prefixlen) ∧
      ∀ b ∈ bs, b.prefixlen < pfxlen := by
  induction valid with
  | nil => exact ⟨[], [], rfl, nofun, nofun⟩
  | cons v valid ih =>
    obtain ⟨hv, hrest⟩ := List.pairwise_cons.1 h
    by_cases hle : pfxlen ≤ v.prefixlen
    · obtain ⟨as, bs, rfl, has, hbs⟩ := ih hrest
      refine ⟨v :: as, bs, rfl, ?_, hbs⟩
      intro a ha
      rcases List.mem_cons.1 ha with rfl | ha
      · exact hle
      · exact has a ha
    · refine ⟨[], v :: valid, rfl, nofun, ?_⟩
      intro b hb
      rcases List.mem_cons.1 hb with rfl | hb
      · omega
      · have hle' := hv b hb
        omega

/-- **A new entry stands where the sorted table has a place for it.** -/
theorem Ordered.allocEntry {t : RoutingTable size} {valid rest : List RouteEntry}
    (h : t.Ordered valid rest) (hrest : rest ≠ []) (pfxlen : Nat) :
    ∃ (as bs rest' : List RouteEntry) (e : RouteEntry), valid = as ++ bs ∧
      (∀ a ∈ as, pfxlen ≤ a.prefixlen) ∧ (∀ b ∈ bs, b.prefixlen < pfxlen) ∧
      (∀ r ∈ rest', r ∈ rest) ∧ e.valid = true ∧ e.key = t.lastKey ∧
      (t.allocEntry pfxlen).1 = some as.length ∧
      (t.allocEntry pfxlen).2.table = as ++ e :: (bs ++ rest') ∧
      (t.allocEntry pfxlen).2.lastKey = t.lastKey + 1 := by
  have hlast := h.last_invalid hrest
  obtain ⟨as, bs, hcut, has, hbs⟩ : ∃ as bs : List RouteEntry, valid = as ++ bs ∧
      (∀ a ∈ as, pfxlen ≤ a.prefixlen) ∧ ∀ b ∈ bs, b.prefixlen < pfxlen :=
    exists_cut h.sorted pfxlen
  have has' : ∀ a ∈ as, a.valid = true ∧ pfxlen ≤ a.prefixlen := fun a ha =>
    ⟨h.valid_valid a (by rw [hcut]; exact List.mem_append_left _ ha), has a ha⟩
  cases bs with
  | nil =>
    rw [List.append_nil] at hcut
    subst hcut
    match rest, hrest with
    | r :: rest, _ =>
      have hr := h.rest_invalid r (by simp)
      have htable := h.table
      obtain ⟨h1, h2, h3⟩ := allocEntry_of_slot (b := r) (l := rest) hlast
        (show slot t.table pfxlen = _ by rw [htable]; exact slot_eq has' (by rw [hr]; nofun))
        (by rw [htable]; exact shiftDown_invalid hr) (by rw [← htable]; exact h.key_lt)
      exact ⟨valid, [], rest, _, (List.append_nil _).symm, has, nofun,
        fun r hr => List.mem_cons_of_mem _ hr, rfl, rfl, h1, h2, h3⟩
  | cons b bs =>
    have hb : b.valid = true := h.valid_valid b (by rw [hcut]; simp)
    have htable : t.table = as ++ b :: (bs ++ rest) := by
      rw [h.table, hcut]
      simp
    have hshift : shiftDown t.table as.length = as ++ b :: (b :: bs ++ rest.dropLast) := by
      rw [htable, shiftDown_valid hb, ← List.cons_append, List.dropLast_append_of_ne_nil hrest]
    obtain ⟨h1, h2, h3⟩ := allocEntry_of_slot hlast
      (by rw [htable]; exact slot_eq has' fun _ => hbs b (by simp)) hshift (by
        intro e he
        refine h.key_lt e ?_
        rw [htable]
        have hdrop (r : RouteEntry) (hr : r ∈ rest.dropLast) : r ∈ rest :=
          (List.dropLast_sublist rest).subset hr
        simp only [List.mem_append, List.mem_cons] at he ⊢
        grind)
    exact ⟨as, b :: bs, rest.dropLast, _, hcut, has, hbs,
      fun r hr => (List.dropLast_sublist rest).subset hr, rfl, rfl, h1, h2, h3⟩

theorem Ordered.allocEntry_full {t : RoutingTable size} {valid : List RouteEntry}
    (h : t.Ordered valid []) (pfxlen : Nat) : t.allocEntry pfxlen = (none, t) := by
  have htable : t.table = valid := by
    rw [h.table, List.append_nil]
  unfold RoutingTable.allocEntry
  by_cases hpos : 0 < size
  · have hlt : size - 1 < t.table.length := by
      rw [t.length_table]
      omega
    have hget := List.getElem?_eq_getElem hlt
    have hv := (h.valid_iff hget).2 (by rw [← htable]; exact hlt)
    rw [List.getD_eq_getElem?_getD, hget, Option.getD_some, if_pos hv]
  · have hnil : t.table = [] := List.eq_nil_of_length_eq_zero (by rw [t.length_table]; omega)
    have hslot : slot t.table pfxlen = none := by
      rw [slot, hnil]
      rfl
    split
    · rfl
    · rw [hslot]

/-- Overwriting a valid entry whose prefix length stays. -/
theorem Ordered.set {t t' : RoutingTable size} {valid rest : List RouteEntry}
    (h : t.Ordered valid rest) {i : Nat} {e : RouteEntry} (e' : RouteEntry)
    (he : t.table[i]? = some e) (hv : e.valid = true) (hv' : e'.valid = true) (hkey : e'.key = e.key)
    (hlen : e'.prefixlen = e.prefixlen) (htable : t'.table = t.table.set i e')
    (hlast : t'.lastKey = t.lastKey) : t'.Ordered (valid.set i e') rest := by
  have hi := (h.valid_iff he).1 hv
  obtain ⟨as, bs, hcut, rfl⟩ : ∃ as bs, valid = as ++ e :: bs ∧ i = as.length := by
    rw [h.table, List.getElem?_append_left hi, List.getElem?_eq_getElem hi] at he
    refine ⟨valid.take i, valid.drop (i + 1), ?_, by rw [List.length_take]; omega⟩
    rw [← Option.some.inj he, ← List.drop_eq_getElem_cons hi, List.take_append_drop]
  subst hcut
  have hmem (x : RouteEntry) (hx : x ∈ as ∨ x ∈ bs) : x ∈ as ++ e :: bs := by
    simp only [List.mem_append, List.mem_cons]
    exact hx.imp_right .inr
  rw [set_append]
  refine ⟨?_, ?_, h.rest_invalid, ?_, ?_, ?_⟩
  · rw [htable, h.table]
    simp
  · intro x hx
    simp only [List.mem_append, List.mem_cons] at hx
    rcases hx with hx | rfl | hx
    · exact h.valid_valid x (hmem x (.inl hx))
    · exact hv'
    · exact h.valid_valid x (hmem x (.inr hx))
  · have hsorted := h.sorted
    simp only [List.pairwise_append, List.pairwise_cons, List.forall_mem_cons, hlen] at hsorted ⊢
    exact hsorted
  · have hnodup := h.nodup
    simp only [List.map_append, List.map_cons, hkey] at hnodup ⊢
    exact hnodup
  · intro x hx
    rw [htable] at hx
    rw [hlast]
    rcases List.mem_or_eq_of_mem_set hx with hx | rfl
    · exact h.key_lt x hx
    · rw [hkey]
      exact h.key_lt e (List.mem_of_getElem? he)

/-- A new entry between those with longer and those with shorter prefixes. -/
theorem Ordered.insert {t t' : RoutingTable size} {as bs rest rest' : List RouteEntry}
    (h : t.Ordered (as ++ bs) rest) {e : RouteEntry}
    (has : ∀ a ∈ as, e.prefixlen ≤ a.prefixlen) (hbs : ∀ b ∈ bs, b.prefixlen < e.prefixlen)
    (hrest : ∀ r ∈ rest', r ∈ rest) (hv : e.valid = true) (hkey : e.key = t.lastKey)
    (htable : t'.table = as ++ e :: (bs ++ rest')) (hlast : t'.lastKey = t.lastKey + 1) :
    t'.Ordered (as ++ e :: bs) rest' := by
  have hmem (x : RouteEntry) (hx : x ∈ as ∨ x ∈ bs ∨ x ∈ rest') : x.key < t.lastKey := by
    refine h.key_lt x ?_
    rw [h.table]
    simp only [List.mem_append]
    rcases hx with hx | hx | hx
    · exact .inl (.inl hx)
    · exact .inl (.inr hx)
    · exact .inr (hrest x hx)
  have hsorted := List.pairwise_append.1 h.sorted
  refine ⟨by rw [htable]; simp, ?_, fun r hr => h.rest_invalid r (hrest r hr), ?_, ?_, ?_⟩
  · intro x hx
    simp only [List.mem_append, List.mem_cons] at hx
    rcases hx with hx | rfl | hx
    · exact h.valid_valid x (List.mem_append_left _ hx)
    · exact hv
    · exact h.valid_valid x (List.mem_append_right _ hx)
  · rw [List.pairwise_append, List.pairwise_cons]
    refine ⟨hsorted.1, ⟨fun b hb => Nat.le_of_lt (hbs b hb), hsorted.2.1⟩, ?_⟩
    intro a ha b hb
    rcases List.mem_cons.1 hb with rfl | hb
    · exact has a ha
    · exact hsorted.2.2 a ha b hb
  · have hnodup := h.nodup
    have hnew : ∀ x ∈ as ++ bs, x.key ≠ e.key := by
      intro x hx
      have hlt := hmem x ((List.mem_append.1 hx).imp_right .inl)
      omega
    rw [List.map_append] at hnodup
    rw [List.map_append, List.map_cons, List.perm_middle.nodup_iff, List.nodup_cons,
      ← List.map_append]
    refine ⟨?_, by rwa [List.map_append]⟩
    intro hin
    obtain ⟨x, hx, hxe⟩ := List.mem_map.1 hin
    exact hnew x hx hxe
  · intro x hx
    rw [htable] at hx
    rw [hlast]
    simp only [List.mem_append, List.mem_cons] at hx
    rcases hx with hx | rfl | hx | hx
    · have hlt := hmem x (.inl hx)
      omega
    · omega
    · have hlt := hmem x (.inr (.inl hx))
      omega
    · have hlt := hmem x (.inr (.inr hx))
      omega

theorem lookupRoute_eq {pfx : In6Addr} {bits : Nat} {as l : List RouteEntry} {e : RouteEntry}
    (htable : t.table = as ++ e :: l) (has : ∀ a ∈ as, a.isMatch pfx bits = false)
    (he : e.isMatch pfx bits = true) : t.lookupRoute pfx bits = some as.length := by
  have hskip : as.findIdx? (RouteEntry.isMatch pfx bits) = none :=
    List.findIdx?_eq_none_iff.2 has
  rw [lookupRoute, htable, List.findIdx?_append, hskip, List.findIdx?_cons, if_pos he]
  simp

/-- The entry that `addRoute` takes: the one there is, unless it is hidden, or a new one. -/
theorem Ordered.entryFor_cases (h : t.Ordered valid rest) (pfx : In6Addr) (bits : Nat) :
    (∃ as e bs, valid = as ++ e :: bs ∧ e.isFor pfx bits = true ∧
      (∀ b ∈ valid, b.hides pfx bits = false) ∧
      t.entryFor pfx bits = ((some as.length, t), false)) ∨
    (∀ e ∈ valid, e.isFor pfx bits = true → ∃ b ∈ valid, b.hides pfx bits = true) ∧
      t.entryFor pfx bits = (t.allocEntry bits, bits == 0) := by
  by_cases hmatch : ∃ e ∈ valid, e.isMatch pfx bits = true
  · obtain ⟨e, hfind⟩ := Option.isSome_iff_exists.1 (List.find?_isSome.2 hmatch)
    obtain ⟨he, as, bs, rfl, has⟩ := List.find?_eq_some_iff_append.1 hfind
    have has : ∀ a ∈ as, a.isMatch pfx bits = false := fun a ha => by simpa using has a ha
    have hlookup : t.lookupRoute pfx bits = some as.length :=
      lookupRoute_eq (l := bs ++ rest) (by rw [h.table]; simp) has he
    have hget : t.table.getD as.length .zero = e := by
      rw [h.table, List.append_assoc, List.cons_append, getD_append]
    have hsorted := h.sorted
    simp only [List.pairwise_append, List.pairwise_cons, List.forall_mem_cons] at hsorted
    by_cases hlen : e.prefixlen = bits
    · refine .inl ⟨as, e, bs, rfl, RouteEntry.isFor_of_isMatch he hlen, fun b hb => ?_, ?_⟩
      · refine Bool.eq_false_iff.2 fun hhides => ?_
        obtain ⟨hbmatch, hlt⟩ := RouteEntry.isMatch_of_hides hhides
        simp only [List.mem_append, List.mem_cons] at hb
        rcases hb with hb | rfl | hb
        · rw [has b hb] at hbmatch
          cases hbmatch
        · omega
        · have := hsorted.2.1.1 b hb
          omega
      · simp only [entryFor, hlookup, hget, hlen, ne_eq, not_true_eq_false, if_false]
    · refine .inr ⟨fun e' he' hfor => ⟨e, by simp, ?_⟩, ?_⟩
      · have hlen' : e'.prefixlen = bits := by
          simp only [RouteEntry.isFor, Bool.and_eq_true, beq_iff_eq] at hfor
          exact hfor.2.1
        refine RouteEntry.hides_of_isMatch he ?_
        simp only [List.mem_append, List.mem_cons] at he'
        rcases he' with he' | rfl | he'
        · cases (has e' he').symm.trans (RouteEntry.isMatch_of_isFor hfor)
        · exact absurd hlen' hlen
        · have := hsorted.2.1.1 e' he'
          omega
      · simp only [entryFor, hlookup, hget, hlen, ne_eq, not_false_eq_true, if_true]
  · have hnone : ∀ e ∈ valid, e.isMatch pfx bits = false := by simpa using hmatch
    refine .inr ⟨fun e he hfor => ?_, ?_⟩
    · cases (hnone e he).symm.trans (RouteEntry.isMatch_of_isFor hfor)
    · have hlookup : t.lookupRoute pfx bits = none := by
        refine List.findIdx?_eq_none_iff.2 fun e he => ?_
        rw [h.table, List.mem_append] at he
        rcases he with he | he
        · exact hnone e he
        · simp [RouteEntry.isMatch, h.rest_invalid e he]
      rw [entryFor, hlookup]

/-- **What adding a route does.** The entry that is there is filled in, a new one stands where the
table has a place for it, or the table is full. -/
theorem Ordered.addRoute_cases (h : t.Ordered valid rest) (pfx : In6Addr) {bits : Nat}
    (hbits : bits % 8 = 0) (hle : bits ≤ 128) (nextHop : Option In6Addr) (ifindex : UInt8) :
    (∃ (as bs : List RouteEntry) (e : RouteEntry), valid = as ++ e :: bs ∧
      e.isFor pfx bits = true ∧ (∀ b ∈ valid, b.hides pfx bits = false) ∧
      (t.addRoute pfx bits nextHop ifindex).1 = (e.key, false) ∧
      (t.addRoute pfx bits nextHop ifindex).2.lastKey = t.lastKey ∧
      (t.addRoute pfx bits nextHop ifindex).2.Ordered
        (as ++ e.fill pfx bits nextHop ifindex :: bs) rest) ∨
    (∀ e ∈ valid, e.isFor pfx bits = true → ∃ b ∈ valid, b.hides pfx bits = true) ∧
      ((∃ (as bs rest' : List RouteEntry) (e : RouteEntry), valid = as ++ bs ∧ rest ≠ [] ∧
        (∀ r ∈ rest', r ∈ rest) ∧ e.valid = true ∧ e.key = t.lastKey ∧
        (t.addRoute pfx bits nextHop ifindex).1 = (t.lastKey, bits == 0) ∧
        (t.addRoute pfx bits nextHop ifindex).2.lastKey = t.lastKey + 1 ∧
        (t.addRoute pfx bits nextHop ifindex).2.Ordered
          (as ++ e.fill pfx bits nextHop ifindex :: bs) rest') ∨
      rest = [] ∧ t.addRoute pfx bits nextHop ifindex = ((routeInvalKey, bits == 0), t)) := by
  have hin : ¬(bits % 8 ≠ 0 ∨ 128 < bits) := by omega
  rcases h.entryFor_cases pfx bits with ⟨as, e, bs, rfl, hfor, hhides, hentry⟩ | ⟨hhidden, hentry⟩
  · have htable : t.table = as ++ e :: (bs ++ rest) := by
      rw [h.table]
      simp
    have hget : t.table.getD as.length .zero = e := by rw [htable, getD_append]
    have hadd : t.addRoute pfx bits nextHop ifindex =
        ((e.key, false), t.fillAt as.length pfx bits nextHop ifindex) := by
      simp only [RoutingTable.addRoute, if_neg hin, hentry, hget]
    simp only [RouteEntry.isFor, Bool.and_eq_true, beq_iff_eq] at hfor
    refine .inl ⟨as, bs, e, rfl, by simpa [RouteEntry.isFor] using hfor, hhides, ?_⟩
    rw [hadd]
    refine ⟨rfl, rfl, ?_⟩
    have hold : t.table[as.length]? = some e := by simp [htable]
    have hv := (e.fill_valid pfx bits nextHop ifindex).trans hfor.1
    have hset := h.set (e.fill pfx bits nextHop ifindex) hold hfor.1 hv (e.fill_key ..)
      hfor.2.1.symm
      (show (t.fillAt as.length pfx bits nextHop ifindex).table = _ by rw [fillAt_table, hget]) rfl
    rwa [set_append] at hset
  · refine .inr ⟨hhidden, ?_⟩
    by_cases hrest : rest = []
    · subst hrest
      refine .inr ⟨rfl, ?_⟩
      simp only [RoutingTable.addRoute, if_neg hin, hentry, h.allocEntry_full]
    · obtain ⟨as, bs, rest', e, rfl, has, hbs, hsub, hv, hkey, hslot, htable, hlast⟩ :=
        h.allocEntry hrest bits
      have hadd : t.addRoute pfx bits nextHop ifindex = ((e.key, bits == 0),
          (t.allocEntry bits).2.fillAt as.length pfx bits nextHop ifindex) := by
        rw [RoutingTable.addRoute, if_neg hin, hentry, show t.allocEntry bits =
          (some as.length, (t.allocEntry bits).2) from Prod.ext hslot rfl]
        dsimp only
        rw [htable, getD_append]
      refine .inl ⟨as, bs, rest', e, rfl, hrest, hsub, hv, hkey, ?_⟩
      rw [hadd]
      refine ⟨by rw [hkey], hlast, ?_⟩
      have hkey' : (e.fill pfx bits nextHop ifindex).key = t.lastKey := by
        rw [RouteEntry.fill_key, hkey]
      have hv' := (e.fill_valid pfx bits nextHop ifindex).trans hv
      refine h.insert has hbs hsub hv' hkey' ?_ hlast
      rw [fillAt_table, htable, getD_append, set_append]

theorem addRoute_unaligned (t : RoutingTable size) (pfx : In6Addr) {bits : Nat}
    (h : bits % 8 ≠ 0 ∨ 128 < bits) (nextHop : Option In6Addr) (ifindex : UInt8) :
    t.addRoute pfx bits nextHop ifindex = ((routeInvalKey, false), t) := by
  rw [RoutingTable.addRoute, if_pos h]

/-- **`addRoute` keeps the order.** -/
theorem Ordered.addRoute (h : t.Ordered valid rest) (pfx : In6Addr) (bits : Nat)
    (nextHop : Option In6Addr) (ifindex : UInt8) :
    ∃ valid' rest', (t.addRoute pfx bits nextHop ifindex).2.Ordered valid' rest' := by
  by_cases hin : bits % 8 ≠ 0 ∨ 128 < bits
  · rw [addRoute_unaligned t pfx hin]
    exact ⟨valid, rest, h⟩
  · have hbits : bits % 8 = 0 := by omega
    have hle : bits ≤ 128 := by omega
    rcases h.addRoute_cases pfx hbits hle nextHop ifindex with
      ⟨_, _, _, -, -, -, -, -, hord⟩ | ⟨-, ⟨_, _, _, _, -, -, -, -, -, -, -, hord⟩ | ⟨-, hfull⟩⟩
    · exact ⟨_, _, hord⟩
    · exact ⟨_, _, hord⟩
    · rw [hfull]
      exact ⟨valid, rest, h⟩

/-! ## Deleting a route -/

/-- Moving the entries below `e` up leaves a copy of the last one. -/
theorem shiftUp_append (as : List RouteEntry) (e : RouteEntry) (bs : List RouteEntry) :
    shiftUp (as ++ e :: bs) as.length = as ++ bs ++ [(e :: bs).getLast (List.cons_ne_nil e bs)] := by
  have hdrop : (as ++ e :: bs).drop (as.length + 1) = bs := by
    rw [show as ++ e :: bs = (as ++ [e]) ++ bs by simp,
      show as.length + 1 = (as ++ [e]).length by simp, List.drop_left]
  have hlast : (e :: bs).drop bs.length = [(e :: bs).getLast (List.cons_ne_nil e bs)] := by
    induction bs generalizing e with
    | nil => rfl
    | cons b bs ih => simpa using ih b
  rw [shiftUp, hdrop, splice_append_right (Nat.le_refl _), Nat.sub_self, splice, List.take_zero,
    List.nil_append, Nat.zero_add, hlast, List.append_assoc]

/-- **What deleting a route does.** Nothing if no entry has the key; else the first one that has it
disappears, valid or not. -/
theorem delRoute_cases (t : RoutingTable size) (key : Int) :
    (∀ e ∈ t.table, e.key ≠ key) ∧ t.delRoute key = ((false, false), t) ∨
    ∃ as e bs x, t.table = as ++ e :: bs ∧ (∀ a ∈ as, a.key ≠ key) ∧ e.key = key ∧ x ∈ t.table ∧
      (t.delRoute key).1 = (true, e.prefixlen == 0) ∧
      (t.delRoute key).2.table = as ++ bs ++ [{ x with valid := false }] ∧
      (t.delRoute key).2.lastKey = t.lastKey := by
  unfold RoutingTable.delRoute
  split
  · rename_i hnone
    exact .inl ⟨by simpa using hnone, rfl⟩
  · rename_i i hfind
    obtain ⟨hi, hkey, hfirst⟩ := List.findIdx?_eq_some_iff_getElem.1 hfind
    refine .inr ⟨t.table.take i, t.table[i], t.table.drop (i + 1),
      (t.table[i] :: t.table.drop (i + 1)).getLast (List.cons_ne_nil _ _), ?_, ?_, by simpa using hkey,
      ?_, ?_, ?_, rfl⟩
    · rw [← List.drop_eq_getElem_cons hi, List.take_append_drop]
    · intro a ha
      obtain ⟨j, hj, rfl⟩ := List.mem_take_iff_getElem.1 ha
      simpa using hfirst j (by omega)
    · have hlast := List.getLast_mem (List.cons_ne_nil t.table[i] (t.table.drop (i + 1)))
      rcases List.mem_cons.1 hlast with heq | hmem
      · rw [heq]
        exact List.getElem_mem hi
      · exact List.mem_of_mem_drop hmem
    · rw [List.getD_eq_getElem?_getD, List.getElem?_eq_getElem hi, Option.getD_some]
    · have hcut : t.table = t.table.take i ++ t.table[i] :: t.table.drop (i + 1) := by
        rw [← List.drop_eq_getElem_cons hi, List.take_append_drop]
      have hlen : i = (t.table.take i).length := by rw [List.length_take]; omega
      have hshift := shiftUp_append (t.table.take i) t.table[i] (t.table.drop (i + 1))
      rw [← hcut, ← hlen] at hshift
      have hsize : size - 1 = (t.table.take i ++ t.table.drop (i + 1)).length := by
        have hlength := t.length_table
        rw [List.length_append, List.length_take, List.length_drop]
        omega
      rw [removeAt_table, hshift, hsize, getD_append, set_append]

/-- What is left of a table without an entry that is valid, or without one that is not. -/
theorem Ordered.remove {t' : RoutingTable size} (h : t.Ordered valid rest)
    {as bs : List RouteEntry} {e x : RouteEntry} (hcut : t.table = as ++ e :: bs) (hx : x ∈ t.table)
    (htable : t'.table = as ++ bs ++ [{ x with valid := false }]) (hlast : t'.lastKey = t.lastKey) :
    (∃ bs' rest', valid = as ++ e :: bs' ∧ t'.Ordered (as ++ bs') rest') ∨
      e ∈ rest ∧ ∃ rest', t'.Ordered valid rest' := by
  have hkeys : ∀ r ∈ t'.table, r.key < t'.lastKey := by
    intro r hr
    rw [htable] at hr
    rw [hlast]
    simp only [List.mem_append, List.mem_cons, List.not_mem_nil, or_false] at hr
    rcases hr with (hr | hr) | rfl
    · exact h.key_lt r (by rw [hcut]; simp [hr])
    · exact h.key_lt r (by rw [hcut]; simp [hr])
    · exact h.key_lt x hx
  rcases List.append_eq_append_iff.1 (h.table.symm.trans hcut) with
    ⟨as', rfl, hrest⟩ | ⟨bs', hvalid, hbs⟩
  · -- the entry is not valid
    refine .inr ⟨by rw [hrest]; simp, as' ++ bs ++ [{ x with valid := false }], ?_, h.valid_valid,
      ?_, h.sorted, h.nodup, hkeys⟩
    · rw [htable]
      simp
    · intro r hr
      simp only [List.mem_append, List.mem_cons, List.not_mem_nil, or_false] at hr
      rcases hr with (hr | hr) | rfl
      · exact h.rest_invalid r (by rw [hrest]; simp [hr])
      · exact h.rest_invalid r (by rw [hrest]; simp [hr])
      · rfl
  · cases bs' with
    | nil =>
      rw [List.nil_append] at hbs
      refine .inr ⟨by rw [← hbs]; simp, bs ++ [{ x with valid := false }], ?_, h.valid_valid, ?_,
        h.sorted, h.nodup, hkeys⟩
      · rw [htable, hvalid]
        simp
      · intro r hr
        simp only [List.mem_append, List.mem_cons, List.not_mem_nil, or_false] at hr
        rcases hr with hr | rfl
        · exact h.rest_invalid r (by rw [← hbs]; simp [hr])
        · rfl
    | cons b bs' =>
      obtain ⟨rfl, rfl⟩ := List.cons.inj hbs
      have hsub : (as ++ bs').Sublist valid := by
        rw [hvalid]
        exact (List.Sublist.refl as).append (List.sublist_cons_self _ _)
      refine .inl ⟨bs', rest ++ [{ x with valid := false }], hvalid, ?_,
        fun r hr => h.valid_valid r (hsub.subset hr), ?_, h.sorted.sublist hsub,
        h.nodup.sublist (hsub.map _), hkeys⟩
      · rw [htable]
        simp
      · intro r hr
        simp only [List.mem_append, List.mem_cons, List.not_mem_nil, or_false] at hr
        rcases hr with hr | rfl
        · exact h.rest_invalid r hr
        · rfl

/-- **`delRoute` keeps the order.** -/
theorem Ordered.delRoute (h : t.Ordered valid rest) (key : Int) :
    ∃ valid' rest', (t.delRoute key).2.Ordered valid' rest' := by
  rcases t.delRoute_cases key with ⟨-, hnone⟩ | ⟨as, e, bs, x, hcut, -, -, hx, -, htable, hlast⟩
  · rw [hnone]
    exact ⟨valid, rest, h⟩
  · rcases h.remove hcut hx htable hlast with ⟨_, _, -, hord⟩ | ⟨-, _, hord⟩
    · exact ⟨_, _, hord⟩
    · exact ⟨_, _, hord⟩

/-! ## Runs -/

theorem exists_ordered {h : List (RoutingTable size × Event)} {t : RoutingTable size}
    (hr : (machine size).Run h t) : ∃ valid rest, t.Ordered valid rest := by
  induction hr with
  | init hi =>
    obtain rfl : _ = init size := hi
    exact ⟨_, _, init_ordered size⟩
  | @step h t t' e _ hs ih =>
    obtain ⟨valid, rest, hord⟩ := ih
    obtain rfl := Option.some.inj hs
    cases e with
    | addRoute pfx bits nextHop ifindex => exact hord.addRoute pfx bits nextHop ifindex
    | delRoute key => exact hord.delRoute key

theorem Ordered.lastKey_addRoute {t : RoutingTable size} {valid rest : List RouteEntry}
    (h : t.Ordered valid rest) (pfx : In6Addr) (bits : Nat) (nextHop : Option In6Addr)
    (ifindex : UInt8) : (t.addRoute pfx bits nextHop ifindex).2.lastKey ≤ t.lastKey + 1 := by
  have halloc : (t.allocEntry bits).2.lastKey ≤ t.lastKey + 1 := by
    by_cases hrest : rest = []
    · subst hrest
      rw [h.allocEntry_full bits]
      exact Int.le_add_one (Int.le_refl _)
    · obtain ⟨_, _, _, _, -, -, -, -, -, -, -, -, hlast⟩ := h.allocEntry hrest bits
      exact Int.le_of_eq hlast
  have hentry : (t.entryFor pfx bits).1.2.lastKey ≤ t.lastKey + 1 := by
    unfold entryFor
    split
    · split
      · exact halloc
      · exact Int.le_add_one (Int.le_refl _)
    · exact halloc
  unfold RoutingTable.addRoute
  split
  · exact Int.le_add_one (Int.le_refl _)
  · split
    · rename_i heq
      rwa [heq] at hentry
    · rename_i heq
      rwa [heq] at hentry

/-- `last_key` counts the routes that were added, so that it does not wrap in fewer than 2^15 of
them. -/
theorem last_key_le {h : List (RoutingTable size × Event)} {t : RoutingTable size}
    (hr : (machine size).Run h t) :
    t.lastKey ≤ 1 + h.countP fun p => p.2 matches .addRoute .. := by
  induction hr with
  | init hi =>
    obtain rfl : _ = init size := hi
    exact Int.le_refl _
  | @step h t t' e hr hs ih =>
    obtain ⟨valid, rest, hord⟩ := exists_ordered hr
    obtain rfl := Option.some.inj hs
    rw [List.countP_cons]
    cases e with
    | addRoute pfx bits nextHop ifindex =>
      have hadd := hord.lastKey_addRoute pfx bits nextHop ifindex
      simp only [step, if_true]
      omega
    | delRoute key =>
      have hdel : (t.delRoute key).2.lastKey = t.lastKey := by
        unfold RoutingTable.delRoute
        split <;> rfl
      simp only [step, hdel]
      omega

/-- **Longest-prefix routing.** After any calls the valid entries stand in front, sorted by the
length of their prefixes and with different keys, and looking up an address finds the valid entry
with the longest prefix of it, or none exactly when there is none. -/
theorem routing_finds_longest {h : List (RoutingTable size × Event)} {t : RoutingTable size}
    (hr : (machine size).Run h t) :
    (∃ valid rest, t.table = valid ++ rest ∧ (∀ e ∈ valid, e.valid = true) ∧
      (∀ e ∈ rest, e.valid = false) ∧
      valid.Pairwise (fun a b => b.prefixlen ≤ a.prefixlen) ∧ (valid.map (·.key)).Nodup) ∧
    ∀ dst, t.LongestMatch dst (t.lookupRoute dst 128) := by
  obtain ⟨valid, rest, hord⟩ := exists_ordered hr
  exact ⟨⟨valid, rest, hord.table, hord.valid_valid, hord.rest_invalid, hord.sorted, hord.nodup⟩,
    hord.longestMatch⟩

/-- Two routes, the longer one added last, and one of them deleted. -/
theorem routing_finds_longest_two : ∃ h t, (machine 3).Run h t ∧ h.length = 3 ∧
    ∀ dst, t.LongestMatch dst (t.lookupRoute dst 128) := by
  obtain ⟨h, t, hr, hlen⟩ := Machine.exists_run_of_exec (M := machine 3) rfl
    [.addRoute (Vector.replicate 16 1) 0 none 1, .addRoute (Vector.replicate 16 1) 64 none 1,
      .delRoute 1] (fun h _ => h.length == 3) (by decide)
  exact ⟨h, t, hr, beq_iff_eq.1 hlen, (routing_finds_longest hr).2⟩

end RoutingTable

end Blip
