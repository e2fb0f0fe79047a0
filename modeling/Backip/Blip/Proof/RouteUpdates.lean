import Backip.Blip.Proof.Routes

/-!
# Adding and deleting a route

`Upserts` says that adding a route replaces the one there is for the prefix and its length, or adds
one, and nothing else. It does not when the search for it finds an entry with a longer prefix, and
when there is no room for a default route (`Careful`, `adds_right_iff`).

`Deletes` says that deleting a key removes the route that has it, and nothing else. Entries that are
not valid have keys too: deleting one of those is reported as a success (`deletes_right_iff`).
-/

set_option autoImplicit false

namespace Blip

namespace RouteEntry

variable {pfx : In6Addr} {bits : Nat} {e f : RouteEntry}

theorem isFor_iff : e.isFor pfx bits = true ↔ e.valid = true ∧ e.prefixlen = bits ∧
    pfx.toList.take (bits / 8) = e.pfx.toList.take (bits / 8) := by
  simp [isFor, samePrefix]

/-- The entries for the prefix of an entry are those for which it is itself. -/
theorem isFor_of (h : e.isFor pfx bits = true) (b : RouteEntry) :
    b.isFor e.pfx e.prefixlen = b.isFor pfx bits := by
  obtain ⟨-, rfl, hsame⟩ := isFor_iff.1 h
  simp [isFor, samePrefix, hsame]

theorem isFor_congr (he : e.isFor pfx bits = true) (hf : f.isFor pfx bits = true) (pfx' : In6Addr)
    (bits' : Nat) : e.isFor pfx' bits' = f.isFor pfx' bits' := by
  rw [isFor_iff] at he hf
  obtain ⟨hv, rfl, he⟩ := he
  obtain ⟨hv', hlen, hf⟩ := hf
  by_cases hbits : e.prefixlen = bits'
  · subst hbits
    simp [isFor, samePrefix, hv, hv', hlen, ← he, ← hf]
  · simp [isFor, hlen, beq_eq_false_iff_ne.2 hbits]

theorem isFor_symm (hv : e.valid = true) (hf : f.isFor pfx bits = true)
    (h : f.isFor e.pfx e.prefixlen = true) : e.isFor pfx bits = true := by
  rw [isFor_iff] at hf h ⊢
  obtain ⟨-, rfl, hf⟩ := hf
  obtain ⟨-, hlen, h⟩ := h
  exact ⟨hv, hlen.symm, by rw [hf, hlen, h]⟩

/-- What is left in the entry of a route that was added. -/
structure Stored (pfx : In6Addr) (bits : Nat) (nextHop : Option In6Addr) (ifindex : UInt8)
    (e : RouteEntry) : Prop where
  isFor : e.isFor pfx bits = true
  ifindex : e.ifindex = ifindex
  nextHop : ∀ a, nextHop = some a → e.nextHop = a

theorem stored_fill (hv : e.valid = true) (nextHop : Option In6Addr) (ifindex : UInt8) :
    (e.fill pfx bits nextHop ifindex).Stored pfx bits nextHop ifindex :=
  ⟨isFor_fill hv nextHop ifindex, rfl, by rintro a rfl; rfl⟩

end RouteEntry

namespace RoutingTable

variable {size : Nat} {t : RoutingTable size} {valid rest : List RouteEntry}

/-- The routes. -/
def routes (t : RoutingTable size) : List RouteEntry := t.table.filter (·.valid)

theorem Ordered.routes_eq (h : t.Ordered valid rest) : t.routes = valid := by
  rw [routes, h.table, List.filter_append, List.filter_eq_self.2 h.valid_valid,
    List.filter_eq_nil_iff.2 (by simpa using h.rest_invalid), List.append_nil]

theorem Ordered.mem_isFor (h : t.Ordered valid rest) {pfx : In6Addr} {bits : Nat} {e : RouteEntry}
    (he : e ∈ t.table) (hfor : e.isFor pfx bits = true) : e ∈ valid :=
  h.mem_valid he (RouteEntry.isFor_iff.1 hfor).1

/-! ## Adding a route -/

/-- `addRoute` replaces the route there is, or adds one. -/
structure Upserts (t : RoutingTable size) (pfx : In6Addr) (bits : Nat) (nextHop : Option In6Addr)
    (ifindex : UInt8) : Prop where
  once : (t.addRoute pfx bits nextHop ifindex).2.table.countP (·.isFor pfx bits) ≤ 1
  inPlace : ∀ i e, t.table[i]? = some e → e.isFor pfx bits = true →
    (t.addRoute pfx bits nextHop ifindex).1.1 = e.key ∧
    ∃ e', e'.key = e.key ∧ e'.Stored pfx bits nextHop ifindex ∧
      (t.addRoute pfx bits nextHop ifindex).2.table = t.table.set i e'
  others : (t.addRoute pfx bits nextHop ifindex).2.routes.filter (!·.isFor pfx bits) =
    t.routes.filter (!·.isFor pfx bits)
  added : (t.addRoute pfx bits nextHop ifindex).1.1 ≠ routeInvalKey →
    ∃ e ∈ (t.addRoute pfx bits nextHop ifindex).2.table,
      e.key = (t.addRoute pfx bits nextHop ifindex).1.1 ∧ e.Stored pfx bits nextHop ifindex
  refused : (t.addRoute pfx bits nextHop ifindex).1.1 = routeInvalKey →
    (t.addRoute pfx bits nextHop ifindex).2 = t ∧
    (t.addRoute pfx bits nextHop ifindex).1.2 = false

/-- The route there is is not hidden, and there is room for a default route. -/
structure Careful (t : RoutingTable size) (pfx : In6Addr) (bits : Nat) : Prop where
  plain : (∃ e ∈ t.table, e.isFor pfx bits = true) → ∀ b ∈ t.table, b.hides pfx bits = false
  room : bits = 0 → (∃ e ∈ t.table, e.isFor pfx bits = true) ∨ ∃ e ∈ t.table, e.valid = false

instance (t : RoutingTable size) (pfx : In6Addr) (bits : Nat) : Decidable (t.Careful pfx bits) :=
  decidable_of_iff (((∃ e ∈ t.table, e.isFor pfx bits = true) →
      ∀ b ∈ t.table, b.hides pfx bits = false) ∧
    (bits = 0 → (∃ e ∈ t.table, e.isFor pfx bits = true) ∨ ∃ e ∈ t.table, e.valid = false))
    ⟨fun h => ⟨h.1, h.2⟩, fun h => ⟨h.plain, h.room⟩⟩

/-- The invariant of runs whose routes are added with care: no two routes for one prefix and
length. -/
structure Distinct (t : RoutingTable size) (valid rest : List RouteEntry) : Prop
    extends t.Ordered valid rest where
  key_nonneg : ∀ e ∈ t.table, 0 ≤ e.key
  lastKey_pos : 0 < t.lastKey
  distinct : valid.Pairwise fun a b => b.isFor a.pfx a.prefixlen = false

theorem init_distinct (size : Nat) : (init size).Distinct [] (List.replicate size .zero) where
  toOrdered := init_ordered size
  key_nonneg e he := by rw [List.eq_of_mem_replicate he]; exact Int.le_refl 0
  lastKey_pos := Int.one_pos
  distinct := .nil

/-- An entry for a prefix is the only one. -/
theorem isFor_unique {as bs : List RouteEntry} {e : RouteEntry} {pfx : In6Addr} {bits : Nat}
    (h : (as ++ e :: bs).Pairwise fun a b => b.isFor a.pfx a.prefixlen = false)
    (he : e.isFor pfx bits = true) :
    (∀ a ∈ as, a.isFor pfx bits = false) ∧ ∀ b ∈ bs, b.isFor pfx bits = false := by
  rw [List.pairwise_append, List.pairwise_cons] at h
  refine ⟨fun a ha => Bool.eq_false_iff.2 fun hfor => ?_, fun b hb => ?_⟩
  · have := h.2.2 a ha e (.head _)
    rw [RouteEntry.isFor_of hfor, he] at this
    cases this
  · rw [← RouteEntry.isFor_of he]
    exact h.2.1.1 b hb

theorem Distinct.once (h : t.Distinct valid rest) (pfx : In6Addr) (bits : Nat) :
    t.table.countP (·.isFor pfx bits) ≤ 1 := by
  have hrest : rest.countP (·.isFor pfx bits) = 0 := by
    rw [List.countP_eq_zero]
    intro e he
    simp [RouteEntry.isFor, h.rest_invalid e he]
  rw [h.table, List.countP_append, hrest, Nat.add_zero]
  by_cases hex : ∃ e ∈ valid, e.isFor pfx bits = true
  · obtain ⟨e, he, hfor⟩ := hex
    obtain ⟨as, bs, rfl⟩ := List.append_of_mem he
    obtain ⟨has, hbs⟩ := isFor_unique h.distinct hfor
    have hcount : (as ++ e :: bs).countP (·.isFor pfx bits) =
        as.countP (·.isFor pfx bits) + (bs.countP (·.isFor pfx bits) + 1) := by
      rw [List.countP_append, List.countP_cons, if_pos hfor]
    have has0 : as.countP (·.isFor pfx bits) = 0 := List.countP_eq_zero.2 (by simpa using has)
    have hbs0 : bs.countP (·.isFor pfx bits) = 0 := List.countP_eq_zero.2 (by simpa using hbs)
    omega
  · rw [List.countP_eq_zero.2 fun e he hfor => hex ⟨e, he, hfor⟩]
    exact Nat.zero_le 1

/-- The routes after `e` was put in the place of `e₀`. -/
theorem Distinct.replace {t' : RoutingTable size} {as bs : List RouteEntry} {e₀ e : RouteEntry}
    {pfx : In6Addr} {bits : Nat} (h : t.Distinct (as ++ e₀ :: bs) rest)
    (he₀ : e₀.isFor pfx bits = true) (he : e.isFor pfx bits = true) (hkey : e.key = e₀.key)
    (hlast : t'.lastKey = t.lastKey) (hord : t'.Ordered (as ++ e :: bs) rest) :
    t'.Distinct (as ++ e :: bs) rest where
  toOrdered := hord
  key_nonneg x hx := by
    have hold := h.key_nonneg
    rw [h.table] at hold
    rw [hord.table] at hx
    simp only [List.mem_append, List.mem_cons] at hx hold
    rcases hx with (hx | rfl | hx) | hx
    · exact hold x (.inl (.inl hx))
    · rw [hkey]
      exact hold e₀ (.inl (.inr (.inl rfl)))
    · exact hold x (.inl (.inr (.inr hx)))
    · exact hold x (.inr hx)
  lastKey_pos := by rw [hlast]; exact h.lastKey_pos
  distinct := by
    have hold := h.distinct
    rw [List.pairwise_append, List.pairwise_cons] at hold ⊢
    refine ⟨hold.1, ⟨fun b hb => ?_, hold.2.1.2⟩, fun a ha b hb => ?_⟩
    · rw [RouteEntry.isFor_of he, ← RouteEntry.isFor_of he₀]
      exact hold.2.1.1 b hb
    · rcases List.mem_cons.1 hb with rfl | hb
      · rw [RouteEntry.isFor_congr he he₀]
        exact hold.2.2 a ha e₀ (.head _)
      · exact hold.2.2 a ha b (.tail _ hb)

/-- The routes with a new one. -/
theorem Distinct.insert {t' : RoutingTable size} {as bs rest' : List RouteEntry} {e : RouteEntry}
    {pfx : In6Addr} {bits : Nat} (h : t.Distinct (as ++ bs) rest)
    (hnone : ∀ a ∈ as ++ bs, a.isFor pfx bits = false) (he : e.isFor pfx bits = true)
    (hkey : e.key = t.lastKey) (hsub : ∀ r ∈ rest', r ∈ rest) (hlast : t'.lastKey = t.lastKey + 1)
    (hord : t'.Ordered (as ++ e :: bs) rest') : t'.Distinct (as ++ e :: bs) rest' where
  toOrdered := hord
  key_nonneg x hx := by
    have hold := h.key_nonneg
    have hpos := h.lastKey_pos
    rw [h.table] at hold
    rw [hord.table] at hx
    simp only [List.mem_append, List.mem_cons] at hx hold
    rcases hx with (hx | rfl | hx) | hx
    · exact hold x (.inl (.inl hx))
    · omega
    · exact hold x (.inl (.inr hx))
    · exact hold x (.inr (hsub x hx))
  lastKey_pos := by have := h.lastKey_pos; omega
  distinct := by
    have hold := h.distinct
    rw [List.pairwise_append] at hold
    rw [List.pairwise_append, List.pairwise_cons]
    refine ⟨hold.1, ⟨fun b hb => ?_, hold.2.1⟩, fun a ha b hb => ?_⟩
    · rw [RouteEntry.isFor_of he]
      exact hnone b (List.mem_append_right _ hb)
    · rcases List.mem_cons.1 hb with rfl | hb
      · refine Bool.eq_false_iff.2 fun hfor => ?_
        have hva := h.valid_valid a (List.mem_append_left _ ha)
        have hin := RouteEntry.isFor_symm hva he hfor
        rw [hnone a (List.mem_append_left _ ha)] at hin
        cases hin
      · exact hold.2.2 a ha b hb

section Adding

variable {pfx : In6Addr} {bits : Nat} (h : t.Distinct valid rest) (hbits : bits % 8 = 0)
  (hle : bits ≤ 128) (nextHop : Option In6Addr) (ifindex : UInt8)

include h hbits hle

/-- With care, a route is replaced or added, and the routes stay distinct. -/
theorem Distinct.addRoute (hc : t.Careful pfx bits) :
    t.Upserts pfx bits nextHop ifindex ∧
      ∃ valid' rest', (t.addRoute pfx bits nextHop ifindex).2.Distinct valid' rest' := by
  rcases h.addRoute_cases pfx hbits hle nextHop ifindex with
    ⟨as, bs, e, rfl, hfor, -, hret, hlast, hord⟩ | ⟨hhidden, hnew⟩
  · -- The route there is is filled in.
    have hfill : (e.fill pfx bits nextHop ifindex).Stored pfx bits nextHop ifindex :=
      RouteEntry.stored_fill (RouteEntry.isFor_iff.1 hfor).1 nextHop ifindex
    have hdistinct := h.replace hfor hfill.isFor (e.fill_key ..) hlast hord
    obtain ⟨has, hbs⟩ := isFor_unique h.distinct hfor
    refine ⟨⟨hdistinct.once pfx bits, fun i e' hi hfor' => ?_, ?_, fun _ => ?_, fun hno => ?_⟩, _, _,
      hdistinct⟩
    · have hmem := h.mem_isFor (List.mem_of_getElem? hi) hfor'
      have hlt := (h.valid_iff hi).1 (RouteEntry.isFor_iff.1 hfor').1
      have hat : i = as.length := by
        rw [h.table, List.getElem?_append_left hlt] at hi
        rcases Nat.lt_trichotomy i as.length with hcmp | hcmp | hcmp
        · rw [List.getElem?_append_left hcmp] at hi
          rw [has e' (List.mem_of_getElem? hi)] at hfor'
          cases hfor'
        · exact hcmp
        · rw [List.getElem?_append_right (Nat.le_of_lt hcmp),
            show i - as.length = (i - as.length - 1) + 1 by omega, List.getElem?_cons_succ] at hi
          rw [hbs e' (List.mem_of_getElem? hi)] at hfor'
          cases hfor'
      subst hat
      obtain rfl : e = e' := by simpa [h.table] using hi
      refine ⟨by rw [hret], e.fill pfx bits nextHop ifindex, e.fill_key .., hfill, ?_⟩
      rw [hord.table, h.table]
      simp
    · rw [hdistinct.routes_eq, h.routes_eq]
      simp [hfor, hfill.isFor]
    · exact ⟨_, by rw [hord.table]; simp, by rw [hret, e.fill_key], hfill⟩
    · rw [hret] at hno
      have hnonneg := h.key_nonneg e (by rw [h.table]; simp)
      have heq : e.key = -1 := hno
      omega
  · -- There is none.
    have hnone : ∀ a ∈ valid, a.isFor pfx bits = false := by
      refine fun a ha => Bool.eq_false_iff.2 fun hfor => ?_
      have hmem : ∀ b ∈ valid, b ∈ t.table := fun b hb => by
        rw [h.table]
        exact List.mem_append_left _ hb
      obtain ⟨b, hb, hhides⟩ := hhidden a ha hfor
      rw [hc.plain ⟨a, hmem a ha, hfor⟩ b (hmem b hb)] at hhides
      cases hhides
    have hvacuous : ∀ {i : Nat} {e : RouteEntry}, t.table[i]? = some e →
        ¬e.isFor pfx bits = true := fun hi hfor => by
      rw [hnone _ (h.mem_isFor (List.mem_of_getElem? hi) hfor)] at hfor
      cases hfor
    rcases hnew with ⟨as, bs, rest', e, rfl, -, hsub, hv, hkey, hret, hlast, hord⟩ | ⟨rfl, heq⟩
    · have hfill : (e.fill pfx bits nextHop ifindex).Stored pfx bits nextHop ifindex :=
        RouteEntry.stored_fill hv nextHop ifindex
      have hkey' : (e.fill pfx bits nextHop ifindex).key = t.lastKey := by
        rw [RouteEntry.fill_key, hkey]
      have hdistinct := h.insert hnone hfill.isFor hkey' hsub hlast hord
      refine ⟨⟨hdistinct.once pfx bits, fun i e hi hfor => absurd hfor (hvacuous hi), ?_,
        fun _ => ?_, fun hno => ?_⟩, _, _, hdistinct⟩
      · rw [hdistinct.routes_eq, h.routes_eq]
        simp [hfill.isFor]
      · exact ⟨_, by rw [hord.table]; simp, by rw [hret]; exact hkey', hfill⟩
      · rw [hret] at hno
        have hpos := h.lastKey_pos
        have heq : t.lastKey = -1 := hno
        omega
    · have h0 : bits ≠ 0 := by
        rintro rfl
        rcases hc.room rfl with ⟨e, he, hfor⟩ | ⟨e, he, hinv⟩
        · rw [hnone e (h.mem_isFor he hfor)] at hfor
          cases hfor
        · rw [h.table, List.append_nil] at he
          rw [h.valid_valid e he] at hinv
          cases hinv
      rw [heq]
      refine ⟨⟨?_, fun i e hi hfor => absurd hfor (hvacuous hi), ?_, ?_, ?_⟩, _, _, h⟩ <;> rw [heq]
      · exact h.once pfx bits
      · exact fun hno => absurd rfl hno
      · exact fun _ => ⟨rfl, by simpa using h0⟩

/-- Without care it is not. -/
theorem Distinct.careful (hu : t.Upserts pfx bits nextHop ifindex) : t.Careful pfx bits := by
  have hin : ∀ e ∈ t.table, e.isFor pfx bits = true →
      (t.addRoute pfx bits nextHop ifindex).1.1 = e.key := fun e he hfor => by
    obtain ⟨i, hi⟩ := List.mem_iff_getElem?.1 he
    exact (hu.inPlace i e hi hfor).1
  rcases h.addRoute_cases pfx hbits hle nextHop ifindex with
    ⟨as, bs, e, rfl, hfor, hhides, -⟩ |
    ⟨-, ⟨as, bs, rest', e, rfl, hrest, -, -, -, hret, -⟩ | ⟨rfl, heq⟩⟩
  · refine ⟨fun _ b hb => Bool.eq_false_iff.2 fun hb' => ?_, fun _ => .inl ⟨e, ?_, hfor⟩⟩
    · have hv : b.valid = true := by
        simp only [RouteEntry.hides, Bool.and_eq_true] at hb'
        exact hb'.1
      rw [hhides b (h.mem_valid hb hv)] at hb'
      cases hb'
    · rw [h.table]
      simp
  · refine ⟨?_, fun _ => .inr ?_⟩
    · rintro ⟨e, he, hfor⟩
      have hlt := h.key_lt e he
      have hkey := hin e he hfor
      rw [hret] at hkey
      omega
    · obtain ⟨r, hr⟩ := List.exists_mem_of_ne_nil rest hrest
      exact ⟨r, by rw [h.table]; exact List.mem_append_right _ hr, h.rest_invalid r hr⟩
  · refine ⟨?_, fun h0 => ?_⟩
    · rintro ⟨e, he, hfor⟩
      have hnonneg := h.key_nonneg e he
      have hkey := hin e he hfor
      rw [heq] at hkey
      have : (-1 : Int) = e.key := hkey
      omega
    · have hno := (hu.refused (by rw [heq])).2
      rw [heq, h0] at hno
      cases hno

end Adding

/-! ## Deleting a route -/

/-- `delRoute` removes the route with a key, and nothing else. -/
structure Deletes (t : RoutingTable size) (key : Int) : Prop where
  found : ∀ as e bs, t.routes = as ++ e :: bs → e.key = key →
    (t.delRoute key).1 = (true, e.prefixlen == 0) ∧ (t.delRoute key).2.routes = as ++ bs
  missing : (∀ e ∈ t.routes, e.key ≠ key) → t.delRoute key = ((false, false), t)

/-- The first element with a property is where two cuts agree. -/
theorem cut_unique {as bs as' bs' : List RouteEntry} {e e' : RouteEntry} {key : Int}
    (h : as ++ e :: bs = as' ++ e' :: bs') (has : ∀ a ∈ as, a.key ≠ key) (he : e.key = key)
    (has' : ∀ a ∈ as', a.key ≠ key) (he' : e'.key = key) : as = as' ∧ e = e' ∧ bs = bs' := by
  rcases List.append_eq_append_iff.1 h with ⟨l, rfl, hl⟩ | ⟨l, rfl, hl⟩
  · cases l with
    | nil => exact ⟨by simp, (List.cons.inj hl).1, (List.cons.inj hl).2⟩
    | cons x l =>
      obtain ⟨rfl, -⟩ := List.cons.inj hl
      exact absurd he (has' e (by simp))
  · cases l with
    | nil => exact ⟨by simp, (List.cons.inj hl).1.symm, (List.cons.inj hl).2.symm⟩
    | cons x l =>
      obtain ⟨rfl, -⟩ := List.cons.inj hl
      exact absurd he' (has e' (by simp))

theorem Ordered.deletes (h : t.Ordered valid rest) {key : Int}
    (hkey : (∃ e ∈ t.table, e.valid = true ∧ e.key = key) ∨ ∀ e ∈ t.table, e.key ≠ key) :
    t.Deletes key := by
  have hmem : ∀ e ∈ valid, e ∈ t.table := fun e he => by
    rw [h.table]
    exact List.mem_append_left _ he
  refine ⟨fun as e bs hcut he => ?_, fun hnone => ?_⟩
  · rw [h.routes_eq] at hcut
    have htable : t.table = as ++ e :: (bs ++ rest) := by
      rw [h.table, hcut]
      simp
    have has : ∀ a ∈ as, a.key ≠ key := by
      have hnodup := h.nodup
      rw [hcut, List.map_append, List.nodup_append] at hnodup
      exact fun a ha heq => hnodup.2.2 a.key (List.mem_map_of_mem ha) e.key (by simp)
        (heq.trans he.symm)
    rcases t.delRoute_cases key with
      ⟨hno, -⟩ | ⟨as', e', bs', x, hcut', has', he', hx, hret, hleft, hlast⟩
    · exact absurd he (hno e (by rw [htable]; simp))
    · obtain ⟨rfl, rfl, -⟩ := cut_unique (htable.symm.trans hcut') has he has' he'
      rcases h.remove hcut' hx hleft hlast with ⟨bs₁, _, hvalid, hord⟩ | ⟨hrest, -⟩
      · obtain ⟨-, -, rfl⟩ := cut_unique (hcut.symm.trans hvalid) has he has he
        exact ⟨hret, hord.routes_eq⟩
      · have hv := h.valid_valid e (by rw [hcut]; simp)
        rw [h.rest_invalid e hrest] at hv
        cases hv
  · rw [h.routes_eq] at hnone
    rcases hkey with ⟨e, he, hv, hek⟩ | hno
    · exact absurd hek (hnone e (h.mem_valid he hv))
    · rcases t.delRoute_cases key with ⟨-, heq⟩ | ⟨as, e, bs, x, hcut, -, hek, -⟩
      · exact heq
      · exact absurd hek (hno e (by rw [hcut]; simp))

theorem Ordered.key_of_deletes (h : t.Ordered valid rest) {key : Int} (hd : t.Deletes key) :
    (∃ e ∈ t.table, e.valid = true ∧ e.key = key) ∨ ∀ e ∈ t.table, e.key ≠ key := by
  by_cases hvalid : ∃ e ∈ t.table, e.valid = true ∧ e.key = key
  · exact .inl hvalid
  · refine .inr fun e he hek => ?_
    have hmissing := hd.missing fun e' he' hek' => by
      rw [h.routes_eq] at he'
      have hmem : e' ∈ t.table := by
        rw [h.table]
        exact List.mem_append_left _ he'
      exact hvalid ⟨e', hmem, h.valid_valid e' he', hek'⟩
    rcases t.delRoute_cases key with ⟨hno, -⟩ | ⟨as, e', bs, x, -, -, -, -, hret, -⟩
    · exact hno e he hek
    · rw [hmissing] at hret
      cases hret

/-! ## Runs -/

/-- What an event is to do, and with what care. -/
def Event.Upserts (t : RoutingTable size) : Event → Prop
  | .addRoute pfx bits nextHop ifindex =>
    bits % 8 = 0 → bits ≤ 128 → t.Upserts pfx bits nextHop ifindex
  | .delRoute _ => True

def Event.Careful (t : RoutingTable size) : Event → Prop
  | .addRoute pfx bits _ _ => bits % 8 = 0 → bits ≤ 128 → t.Careful pfx bits
  | .delRoute _ => True

instance (t : RoutingTable size) : (e : Event) → Decidable (e.Careful t)
  | .addRoute .. => inferInstanceAs (Decidable (_ → _))
  | .delRoute _ => .isTrue trivial

theorem Distinct.delRoute (h : t.Distinct valid rest) (key : Int) :
    ∃ valid' rest', (t.delRoute key).2.Distinct valid' rest' := by
  rcases t.delRoute_cases key with ⟨-, hnone⟩ | ⟨as, e, bs, x, hcut, -, -, hx, -, htable, hlast⟩
  · rw [hnone]
    exact ⟨valid, rest, h⟩
  · have hkeys : ∀ r ∈ (t.delRoute key).2.table, 0 ≤ r.key := by
      intro r hr
      rw [htable] at hr
      simp only [List.mem_append, List.mem_cons, List.not_mem_nil, or_false] at hr
      rcases hr with (hr | hr) | rfl
      · exact h.key_nonneg r (by rw [hcut]; simp [hr])
      · exact h.key_nonneg r (by rw [hcut]; simp [hr])
      · exact h.key_nonneg x hx
    have hpos : 0 < (t.delRoute key).2.lastKey := by rw [hlast]; exact h.lastKey_pos
    rcases h.remove hcut hx htable hlast with ⟨bs', rest', rfl, hord⟩ | ⟨-, rest', hord⟩
    · exact ⟨as ++ bs', rest', hord, hkeys, hpos,
        h.distinct.sublist ((List.Sublist.refl as).append (List.sublist_cons_self _ _))⟩
    · exact ⟨valid, rest', hord, hkeys, hpos, h.distinct⟩

theorem Distinct.step (h : t.Distinct valid rest) {e : Event} (hc : e.Careful t) :
    ∃ valid' rest', (t.step e).Distinct valid' rest' := by
  cases e with
  | addRoute pfx bits nextHop ifindex =>
    by_cases hin : bits % 8 ≠ 0 ∨ 128 < bits
    · rw [RoutingTable.step, addRoute_unaligned t pfx hin]
      exact ⟨valid, rest, h⟩
    · exact (h.addRoute (by omega) (by omega) nextHop ifindex (hc (by omega) (by omega))).2
  | delRoute key => exact h.delRoute key

theorem Distinct.upserts_iff (h : t.Distinct valid rest) (e : Event) :
    e.Upserts t ↔ e.Careful t := by
  cases e with
  | addRoute pfx bits nextHop ifindex =>
    exact ⟨fun hu hbits hle => h.careful hbits hle nextHop ifindex (hu hbits hle),
      fun hc hbits hle => (h.addRoute hbits hle nextHop ifindex (hc hbits hle)).1⟩
  | delRoute key => exact Iff.rfl

/-- **Adding a route is an upsert**, each time it is in a run, if and only if no route to be replaced
is hidden by a longer prefix, and there is room for each new default route. -/
theorem adds_right_iff {h : List (RoutingTable size × Event)} {t : RoutingTable size}
    (hr : (machine size).Run h t) : (∀ p ∈ h, p.2.Upserts p.1) ↔ ∀ p ∈ h, p.2.Careful p.1 := by
  refine hr.forall_steps_iff (J := fun t => ∃ valid rest, t.Distinct valid rest)
    (R := fun t e => e.Upserts t) (C := fun t e => e.Careful t) ?_ ?_ ?_
  · rintro _ rfl
    exact ⟨_, _, init_distinct size⟩
  · rintro t e t' ⟨valid, rest, h⟩ hc hs
    obtain rfl := Option.some.inj hs
    exact h.step hc
  · rintro t e t' ⟨valid, rest, h⟩ -
    exact h.upserts_iff e

/-- A default route and a longer one, each added twice. -/
theorem adds_right_twice : ∃ h t, (machine 3).Run h t ∧ h.length = 4 ∧ t.routes.length = 2 ∧
    ∀ p ∈ h, p.2.Upserts p.1 := by
  obtain ⟨h, t, hr, hp⟩ := Machine.exists_run_of_exec (M := machine 3) rfl
    [.addRoute (Vector.replicate 16 1) 0 none 1, .addRoute (Vector.replicate 16 1) 64 none 1,
      .addRoute (Vector.replicate 16 2) 0 none 2, .addRoute (Vector.replicate 16 1) 64 none 2]
    (fun h t => h.length = 4 ∧ t.routes.length = 2 ∧ ∀ p ∈ h, p.2.Careful p.1) (by decide)
  obtain ⟨hlen, hroutes, hc⟩ := of_decide_eq_true hp
  exact ⟨h, t, hr, hlen, hroutes, (adds_right_iff hr).2 hc⟩

/-- A route that a longer one hides is added a second time, next to the first. -/
theorem adds_wrong : ¬∀ h t, (machine 3).Run h t → ∀ p ∈ h, p.2.Upserts p.1 := by
  intro hall
  obtain ⟨h, t, hr, hp⟩ := Machine.exists_run_of_exec (M := machine 3) rfl
    [.addRoute (Vector.replicate 16 1) 64 none 1, .addRoute (Vector.replicate 16 1) 128 none 1,
      .addRoute (Vector.replicate 16 1) 64 none 2]
    (fun h _ => h.any fun p => match p.2 with
      | .addRoute pfx bits nextHop ifindex => bits == 64 &&
        decide (1 < (p.1.addRoute pfx bits nextHop ifindex).2.table.countP (·.isFor pfx bits))
      | .delRoute _ => false) (by decide)
  obtain ⟨⟨t', e⟩, hmem, htwice⟩ := List.any_eq_true.1 hp
  have hup := hall h t hr _ hmem
  cases e with
  | addRoute pfx bits nextHop ifindex =>
    simp only [Bool.and_eq_true, beq_iff_eq, decide_eq_true_eq] at htwice
    obtain ⟨rfl, htwice⟩ := htwice
    exact absurd (hup rfl (by decide)).once (Nat.not_le.2 htwice)
  | delRoute key => cases htwice

/-- **Deleting a key removes its route and nothing else**, in every state reached, if and only if a
valid entry has the key or no entry has it. -/
theorem deletes_right_iff {h : List (RoutingTable size × Event)} {t : RoutingTable size}
    (hr : (machine size).Run h t) (key : Int) :
    t.Deletes key ↔
      (∃ e ∈ t.table, e.valid = true ∧ e.key = key) ∨ ∀ e ∈ t.table, e.key ≠ key := by
  obtain ⟨valid, rest, hord⟩ := exists_ordered hr
  exact ⟨hord.key_of_deletes, hord.deletes⟩

/-- The default route of two routes is deleted. -/
theorem deletes_right_default : ∃ h t, (machine 3).Run h t ∧ h.length = 2 ∧ t.Deletes 1 := by
  obtain ⟨h, t, hr, hp⟩ := Machine.exists_run_of_exec (M := machine 3) rfl
    [.addRoute (Vector.replicate 16 1) 0 none 1, .addRoute (Vector.replicate 16 1) 64 none 1]
    (fun h t => h.length = 2 ∧ ∃ e ∈ t.table, e.valid = true ∧ e.key = 1) (by decide +kernel)
  obtain ⟨hlen, hkey⟩ := of_decide_eq_true hp
  exact ⟨h, t, hr, hlen, (deletes_right_iff hr 1).2 (.inl hkey)⟩

/-- The key of the entries of a new table is deleted, and a default route with it. -/
theorem deletes_wrong : ¬∀ h t, (machine 2).Run h t → ∀ key, t.Deletes key := by
  intro hall
  have hmissing := (hall [] (init 2) (.init rfl) 0).missing (by decide)
  have hret : ((init 2).delRoute 0).1 = (true, true) := by decide
  rw [hmissing] at hret
  cases hret

end RoutingTable

end Blip
