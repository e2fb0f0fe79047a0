import Mathlib.Data.List.Count
import Mathlib.Data.List.Perm.Basic
import Mathlib.Logic.Function.Basic

/-!
# Objects and their buffers

Two pools hand out objects and buffers in pairs: every object in use has a buffer of its own, the
one `buf` points it to. `Custody objs bufs buf free freeBuf held` says that nothing is lost and
nothing is in two places: the objects `objs` are the free and the held ones, and the buffers `bufs`
are the free ones and those of the held objects, each counted as often as it occurs.

The rules are the ways custody moves: `perm` and `perm_free` (the held objects, the free buffers in
another order), `congr` (`buf` changed away from the held objects), `release` and `take`.
-/

set_option autoImplicit false

variable {α β : Type}

structure Custody (objs : List α) (bufs : List β) (buf : α → β) (free : List α)
    (freeBuf : List β) (held : List α) : Prop where
  objs_perm : (free ++ held).Perm objs
  bufs_perm : (freeBuf ++ held.map buf).Perm bufs

namespace Custody

variable {objs : List α} {bufs : List β} {buf buf' : α → β} {free : List α} {freeBuf : List β}
  {held held' : List α}

theorem length_free (h : Custody objs bufs buf free freeBuf held) :
    free.length + held.length = objs.length := by
  rw [← List.length_append]
  exact h.objs_perm.length_eq

theorem length_freeBuf (h : Custody objs bufs buf free freeBuf held) :
    freeBuf.length + held.length = bufs.length := by
  have := h.bufs_perm.length_eq
  rwa [List.length_append, List.length_map] at this

theorem nodup (h : Custody objs bufs buf free freeBuf held) (ho : objs.Nodup) :
    (free ++ held).Nodup :=
  h.objs_perm.nodup_iff.2 ho

theorem nodup_held (h : Custody objs bufs buf free freeBuf held) (ho : objs.Nodup) : held.Nodup :=
  (List.nodup_append.1 (h.nodup ho)).2.1

/-- A free object is not held. -/
theorem not_mem_held {x : α} (h : Custody objs bufs buf free freeBuf held) (ho : objs.Nodup)
    (hx : x ∈ free) : x ∉ held :=
  fun hh => (List.nodup_append.1 (h.nodup ho)).2.2 x hx x hh rfl

/-- A free buffer belongs to no held object. -/
theorem not_mem_held_map {b : β} (h : Custody objs bufs buf free freeBuf held) (hb : bufs.Nodup)
    (hx : b ∈ freeBuf) : b ∉ held.map buf :=
  fun hh => (List.nodup_append.1 (h.bufs_perm.nodup_iff.2 hb)).2.2 b hx b hh rfl

theorem freeBuf_subset {b : β} (h : Custody objs bufs buf free freeBuf held) (hb : b ∈ freeBuf) :
    b ∈ bufs :=
  h.bufs_perm.subset (List.mem_append_left _ hb)

theorem perm (h : Custody objs bufs buf free freeBuf held) (hp : held.Perm held') :
    Custody objs bufs buf free freeBuf held' :=
  ⟨(hp.symm.append_left _).trans h.objs_perm, ((hp.symm.map _).append_left _).trans h.bufs_perm⟩

theorem perm_free {freeBuf' : List β} (h : Custody objs bufs buf free freeBuf held)
    (hp : freeBuf.Perm freeBuf') : Custody objs bufs buf free freeBuf' held :=
  ⟨h.objs_perm, (hp.symm.append_right _).trans h.bufs_perm⟩

theorem congr (h : Custody objs bufs buf free freeBuf held) (hb : ∀ x ∈ held, buf' x = buf x) :
    Custody objs bufs buf' free freeBuf held :=
  ⟨h.objs_perm, by rw [List.map_congr_left hb]; exact h.bufs_perm⟩

/-- A held object goes back to its pool, and its buffer to the other. -/
theorem release {x : α} (h : Custody objs bufs buf free freeBuf (x :: held)) :
    Custody objs bufs buf (free ++ [x]) (freeBuf ++ [buf x]) held := by
  obtain ⟨h1, h2⟩ := h
  constructor
  · simpa using h1
  · simpa using h2

/-- A free object and a free buffer are taken and joined. -/
theorem take [DecidableEq α] {x : α} {b : β}
    (h : Custody objs bufs buf (x :: free) (b :: freeBuf) held) (ho : objs.Nodup)
    (hb : buf' x = b) (hne : ∀ y ≠ x, buf' y = buf y) :
    Custody objs bufs buf' free freeBuf (x :: held) := by
  have hx : x ∉ held := h.not_mem_held ho (.head _)
  obtain ⟨h1, h2⟩ := h.congr fun y hy => hne y fun e => hx (e ▸ hy)
  refine ⟨List.perm_middle.trans h1, ?_⟩
  rw [List.map_cons, hb]
  exact List.perm_middle.trans h2

/-- A free object and a free buffer go back as they came. -/
theorem rotate {x : α} {b : β} (h : Custody objs bufs buf (x :: free) (b :: freeBuf) held) :
    Custody objs bufs buf (free ++ [x]) (freeBuf ++ [b]) held :=
  ⟨((List.perm_append_singleton x free).append_right _).trans h.objs_perm,
    ((List.perm_append_singleton b freeBuf).append_right _).trans h.bufs_perm⟩

end Custody
