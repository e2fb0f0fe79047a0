import Backip.Cc2420.UniqueReceiveP
import Mathlib.Data.List.Basic

/-!
# Which frames are filtered as duplicates

* `filters`: a frame that repeats the one before it never goes to `Receive`; no source has two
  elements in any state exactly if no frame looks for an element under the number 255, which stands
  for none (`Locatable`); and only repeats are filtered when no frame finds the element of another
  source with its key and DSN (`OwnMatch`).
-/

set_option autoImplicit false

namespace UniqueReceiveP

/-! ## Keys -/

theorem Frame.key_of_source {f g : Frame} (h : f.source = g.source) :
    f.getSourceKey = g.getSourceKey :=
  congrArg (List.foldl (fun key (b : UInt8) => key + b.toUInt16) 0) h

theorem foldl_key_le (l : List UInt8) (key : UInt16) (h : key.toNat + 255 * l.length < 65536) :
    (l.foldl (fun key b => key + b.toUInt16) key).toNat ≤ key.toNat + 255 * l.length := by
  induction l generalizing key with
  | nil => exact Nat.le_refl _
  | cons b l ih =>
    rw [List.length_cons] at h ⊢
    have hb := b.toNat_lt
    have hadd : (key + b.toUInt16).toNat = key.toNat + b.toNat := by
      rw [UInt16.toNat_add, UInt8.toNat_toUInt16]
      exact Nat.mod_eq_of_lt (by omega)
    rw [List.foldl_cons]
    refine Nat.le_trans (ih (key + b.toUInt16) ?_) ?_ <;> omega

theorem addrLen_le (mode : UInt16) : addrLen mode ≤ 8 := by
  unfold addrLen
  split <;> omega

/-- The bytes of an address add up to less than the key of an unused element. -/
theorem Frame.key_ne (f : Frame) : f.getSourceKey ≠ noSource := by
  intro he
  have hlen : f.source.length ≤ 8 :=
    Nat.le_trans (List.length_take_le _ _) (addrLen_le _)
  have hle := foldl_key_le f.source 0 (by rw [UInt16.toNat_zero]; omega)
  have hkey : (f.source.foldl (fun key (b : UInt8) => key + b.toUInt16) 0).toNat = 65535 :=
    congrArg UInt16.toNat he
  rw [hkey, UInt16.toNat_zero] at hle
  omega

/-! ## `hasSeen` -/

theorem hasSeenFrom_fst (src : UInt16) (dsn : UInt8) (es : List Entry) (i : Nat) (r : UInt8) :
    (State.hasSeenFrom src dsn es i r).1 = true ↔ ∃ e ∈ es, e.source = src ∧ e.dsn = dsn := by
  induction es generalizing i r with
  | nil => simp [State.hasSeenFrom]
  | cons e es ih =>
    unfold State.hasSeenFrom
    split
    next hs =>
      split
      next hd =>
        exact iff_of_true rfl ⟨e, .head _, hs, hd⟩
      next hd =>
        rw [ih]
        simp [hd]
    next hs =>
      rw [ih]
      simp [hs]

/-- Unless it ends early, the loop finds the number of an element of the source, if there is one. -/
theorem hasSeenFrom_snd {src : UInt16} {dsn : UInt8} {es : List Entry} {i : Nat} {r : UInt8}
    (h : (State.hasSeenFrom src dsn es i r).1 = false) :
    ((State.hasSeenFrom src dsn es i r).2 = r ∧ ∀ e ∈ es, e.source ≠ src) ∨
    ∃ k e, es[k]? = some e ∧ e.source = src ∧
      (State.hasSeenFrom src dsn es i r).2 = UInt8.ofNat (i + k) := by
  induction es generalizing i r with
  | nil => exact .inl ⟨rfl, nofun⟩
  | cons e es ih =>
    unfold State.hasSeenFrom at h ⊢
    split at h
    next hs =>
      split at h
      · cases h
      next hd =>
        rw [if_pos hs, if_neg hd]
        rcases ih h with ⟨hr, -⟩ | ⟨k, e', hk, he, hr⟩
        · exact .inr ⟨0, e, rfl, hs, hr⟩
        · refine .inr ⟨k + 1, e', hk, he, hr.trans ?_⟩
          rw [Nat.add_assoc, Nat.add_comm 1 k]
    next hs =>
      rw [if_neg hs]
      rcases ih h with ⟨hr, hes⟩ | ⟨k, e', hk, he, hr⟩
      · exact .inl ⟨hr, List.forall_mem_cons.2 ⟨hs, hes⟩⟩
      · refine .inr ⟨k + 1, e', hk, he, hr.trans ?_⟩
        rw [Nat.add_assoc, Nat.add_comm 1 k]

namespace State

variable {size : Nat} {s : State} {f : Frame}

theorem seen_iff : s.Seen f ↔
    ∃ e ∈ s.receivedMessages, e.source = f.getSourceKey ∧ e.dsn = f.dsn :=
  hasSeenFrom_fst ..

/-- The state between `hasSeen` and `insert`. -/
def searched (s : State) (f : Frame) : State := (s.hasSeen f.getSourceKey f.dsn).2

@[simp] theorem searched_receivedMessages :
    (s.searched f).receivedMessages = s.receivedMessages :=
  rfl

@[simp] theorem searched_writeIndex : (s.searched f).writeIndex = s.writeIndex := rfl

theorem receive_of_seen (h : s.Seen f) : s.receive size f = s.searched f := if_pos h

theorem receive_of_not_seen (h : ¬s.Seen f) : s.receive size f = (s.searched f).insert size f :=
  if_neg h

/-- Where a frame that is not a duplicate is written: at the next element if its source has none,
else at that element, unless its number is that of no element. -/
theorem element_searched (h : ¬s.Seen f) :
    ((s.searched f).element = s.writeIndex ∧
      ∀ e ∈ s.receivedMessages, e.source ≠ f.getSourceKey) ∨
    ∃ (k : Nat) (e : Entry), s.receivedMessages[k]? = some e ∧ e.source = f.getSourceKey ∧
      (s.searched f).element =
        if UInt8.ofNat k = invalidElement then s.writeIndex else UInt8.ofNat k := by
  have hfst : (hasSeenFrom f.getSourceKey f.dsn s.receivedMessages 0 invalidElement).1 = false :=
    Bool.eq_false_iff.2 h
  rcases hasSeenFrom_snd hfst with ⟨hr, hes⟩ | ⟨k, e, hk, he, hr⟩
  · have hrec : (s.searched f).recycleSourceElement = invalidElement := hr
    exact .inl ⟨if_pos (.inl hrec), hes⟩
  · rw [Nat.zero_add] at hr
    have hrec : (s.searched f).recycleSourceElement = UInt8.ofNat k := hr
    refine .inr ⟨k, e, hk, he, ?_⟩
    rw [element, hrec, searched_writeIndex]
    by_cases hw : s.writeIndex = UInt8.ofNat k
    · simp [hw]
    · simp [hw]

/-! ## Invariant -/

structure Good (size : Nat) (s : State) : Prop where
  length : s.receivedMessages.length = size
  index : s.writeIndex.toNat < size
  /-- The write index does not reach the elements from 256 on. -/
  beyond : ∀ i e, 256 ≤ i → s.receivedMessages[i]? = some e → e.source = noSource
  writer : ∀ e ∈ s.receivedMessages, ∀ w ∈ e.writer, e.source = w.getSourceKey ∧ e.dsn = w.dsn
  unused : ∀ e ∈ s.receivedMessages, e.writer = none → e.source = noSource

theorem good_init (hsize : 1 ≤ size) : Good size (init size) where
  length := List.length_replicate
  index := hsize
  beyond i e _ h := by rw [List.eq_of_mem_replicate (List.mem_of_getElem? h)]
  writer e h := by
    rw [List.eq_of_mem_replicate h]
    nofun
  unused e h _ := by rw [List.eq_of_mem_replicate h]

/-- An element in use has a number below 256. -/
theorem Good.lt_of_key (h : Good size s) {k : Nat} {e : Entry}
    (hk : s.receivedMessages[k]? = some e) (he : e.source = f.getSourceKey) : k < 256 := by
  by_contra hlt
  exact f.key_ne (he.symm.trans (h.beyond k e (Nat.not_lt.1 hlt) hk))

theorem toNat_ofNat_of_lt {k : Nat} (h : k < 256) : (UInt8.ofNat k).toNat = k := by
  rw [UInt8.toNat_ofNat']
  exact Nat.mod_eq_of_lt h

theorem Good.element_lt (h : Good size s) (hns : ¬s.Seen f) :
    (s.searched f).element.toNat < s.receivedMessages.length := by
  rw [h.length]
  rcases element_searched hns with ⟨he, -⟩ | ⟨k, e, hk, he, hel⟩
  · rw [he]
    exact h.index
  · rw [hel]
    split
    · exact h.index
    · rw [toNat_ofNat_of_lt (h.lt_of_key hk he), ← h.length]
      exact (List.getElem?_eq_some_iff.1 hk).1

theorem Good.receive (h : Good size s) : Good size (s.receive size f) := by
  by_cases hs : s.Seen f
  · rw [receive_of_seen hs]
    exact ⟨h.length, h.index, h.beyond, h.writer, h.unused⟩
  · rw [receive_of_not_seen hs]
    have hmem : ∀ e ∈ ((s.searched f).insert size f).receivedMessages,
        e ∈ s.receivedMessages ∨ e = ⟨f.getSourceKey, f.dsn, some f⟩ :=
      fun e he => List.mem_or_eq_of_mem_set he
    refine ⟨?_, ?_, ?_, ?_, ?_⟩
    · exact List.length_set.trans h.length
    · dsimp only [insert]
      split
      · have hmod := Nat.mod_lt ((s.writeIndex + 1).toNat) (Nat.zero_lt_of_lt h.index)
        have hle := Nat.mod_le (s.writeIndex + 1).toNat size
        have hlt := (s.writeIndex + 1).toNat_lt
        rw [searched_writeIndex, toNat_ofNat_of_lt (by omega)]
        exact hmod
      · exact h.index
    · intro i e hi he
      have hne : (s.searched f).element.toNat ≠ i := by
        have := (s.searched f).element.toNat_lt
        omega
      rw [insert, List.getElem?_set_ne hne] at he
      exact h.beyond i e hi he
    · intro e he
      rcases hmem e he with he | rfl
      · exact h.writer e he
      · rintro w ⟨⟩
        exact ⟨rfl, rfl⟩
    · intro e he hw
      rcases hmem e he with he | rfl
      · exact h.unused e he hw
      · cases hw

theorem good_inductive (hsize : 1 ≤ size) : (machine size).Inductive (Good size) where
  init := by
    rintro s rfl
    exact good_init hsize
  step := by
    rintro s f s' h ⟨⟩
    exact h.receive

/-! ## One element for each source -/

theorem oneEntry_insert (h : Good size s) (hone : s.OneEntry) (hns : ¬s.Seen f) :
    ((s.searched f).insert size f).OneEntry ↔
      ∀ (k : Nat) (e : Entry), s.receivedMessages[k]? = some e → e.source = f.getSourceKey →
        k = (s.searched f).element.toNat := by
  have hlt := h.element_lt hns
  have hself : ((s.searched f).insert size f).receivedMessages[(s.searched f).element.toNat]? =
      some ⟨f.getSourceKey, f.dsn, some f⟩ :=
    List.getElem?_set_self hlt
  have hother : ∀ k, (s.searched f).element.toNat ≠ k →
      ((s.searched f).insert size f).receivedMessages[k]? = s.receivedMessages[k]? :=
    fun k hk => List.getElem?_set_ne hk
  constructor
  · intro hone' k e hk he
    by_contra hne
    exact hne (hone' f k _ e _ ((hother k (Ne.symm hne)).trans hk) hself he rfl)
  · intro hall g i j e e' hi hj he he'
    by_cases hgf : g.getSourceKey = f.getSourceKey
    · have hat : ∀ k x, ((s.searched f).insert size f).receivedMessages[k]? = some x →
          x.source = g.getSourceKey → k = (s.searched f).element.toNat := by
        intro k x hk hx
        by_contra hne
        exact hne (hall k x ((hother k (Ne.symm hne)).symm.trans hk) (hx.trans hgf))
      exact (hat i e hi he).trans (hat j e' hj he').symm
    · have hat : ∀ (k : Nat) (x : Entry),
          ((s.searched f).insert size f).receivedMessages[k]? = some x →
          x.source = g.getSourceKey → s.receivedMessages[k]? = some x := by
        intro k x hk hx
        by_cases hke : (s.searched f).element.toNat = k
        · rw [← hke, hself] at hk
          cases hk
          exact absurd hx.symm hgf
        · exact (hother k hke).symm.trans hk
      exact hone g i j e e' (hat i e hi he) (hat j e' hj he') he he'

theorem oneEntry_receive (h : Good size s) (hone : s.OneEntry) :
    (s.receive size f).OneEntry ↔ s.Locatable f := by
  by_cases hs : s.Seen f
  · rw [receive_of_seen hs]
    refine iff_of_true hone ?_
    intro e he hkey
    obtain ⟨e', hmem, hkey', hdsn⟩ := seen_iff.1 hs
    obtain ⟨j, hj⟩ := List.getElem?_of_mem hmem
    have hij := hone f _ j e e' he hj hkey hkey'
    subst hij
    cases he.symm.trans hj
    exact .inl hdsn
  · rw [receive_of_not_seen hs, oneEntry_insert h hone hs]
    rcases element_searched hs with ⟨-, hnone⟩ | ⟨k, e, hk, he, hel⟩
    · exact iff_of_true (fun k e hk he => absurd he (hnone e (List.mem_of_getElem? hk)))
        fun e hk he => absurd he (hnone e (List.mem_of_getElem? hk))
    · have hk256 := h.lt_of_key hk he
      have hdsn : e.dsn ≠ f.dsn := fun hd => hs (seen_iff.2 ⟨e, List.mem_of_getElem? hk, he, hd⟩)
      have hall : (∀ (k' : Nat) (e' : Entry), s.receivedMessages[k']? = some e' →
          e'.source = f.getSourceKey → k' = (s.searched f).element.toNat) ↔ k = (s.searched f).element.toNat := by
        constructor
        · intro hall
          exact hall k e hk he
        · intro hkel k' e' hk' he'
          exact (hone f k' k e' e hk' hk he' he).trans hkel
      rw [hall, hel]
      split
      next hinv =>
        -- The element's number is the one that stands for none.
        have hk255 : k = invalidElement.toNat := by
          rw [← hinv, toNat_ofNat_of_lt hk256]
        rw [hk255] at hk ⊢
        constructor
        · intro hw e' he' _
          exact .inr (UInt8.toNat_inj.1 hw).symm
        · intro hloc
          rcases hloc e hk he with hd | hw
          · exact absurd hd hdsn
          · rw [hw]
      next hinv =>
        refine iff_of_true (toNat_ofNat_of_lt hk256).symm ?_
        intro e' he' hkey'
        have hij := hone f _ k e' e he' hk hkey' he
        exact absurd (UInt8.toNat_inj.1 ((toNat_ofNat_of_lt hk256).trans hij.symm)) hinv

theorem oneEntry_init : (init size).OneEntry := by
  intro f i j e e' hi _ he _
  rw [List.eq_of_mem_replicate (List.mem_of_getElem? hi)] at he
  exact absurd he.symm f.key_ne

/-! ## Repeats -/

/-- A frame that was just received is in the history. -/
theorem Good.seen_again (h : Good size s) {g : Frame} (hsrc : g.source = f.source)
    (hdsn : g.dsn = f.dsn) : (s.receive size f).Seen g := by
  have hkey := Frame.key_of_source hsrc
  refine seen_iff.2 ?_
  rw [hkey, hdsn]
  by_cases hs : s.Seen f
  · rw [receive_of_seen hs]
    exact seen_iff.1 hs
  · rw [receive_of_not_seen hs]
    exact ⟨_, List.mem_set (h.element_lt hs) _, rfl, rfl⟩

variable {h : List (State × Frame)}

theorem dropsRepeats (hsize : 1 ≤ size) (hr : (machine size).Run h s) : DropsRepeats h := by
  rintro h₁ ⟨s₁, f⟩ ⟨s₂, g⟩ h₂ rfl hsrc hdsn
  have hr₁ := hr.before
  cases hr₁ with
  | step hr₂ hs =>
    cases hs
    exact (hr₂.inv (good_inductive hsize)).seen_again hsrc hdsn

/-- What is in the history went to `Receive`. -/
theorem writer_passed (hr : (machine size).Run h s) :
    ∀ e ∈ s.receivedMessages, ∀ w ∈ e.writer, ∃ q ∈ h, ¬q.1.Seen q.2 ∧ q.2 = w := by
  induction hr with
  | init hi =>
    cases hi
    intro e he
    rw [List.eq_of_mem_replicate he]
    nofun
  | @step h s s' f hr hs ih =>
    cases hs
    have hold : ∀ e ∈ s.receivedMessages, ∀ w ∈ e.writer,
        ∃ q ∈ (s, f) :: h, ¬q.1.Seen q.2 ∧ q.2 = w := by
      intro e he w hw
      obtain ⟨q, hq, hp⟩ := ih e he w hw
      exact ⟨q, .tail _ hq, hp⟩
    by_cases hseen : s.Seen f
    · rw [receive_of_seen hseen]
      exact hold
    · rw [receive_of_not_seen hseen]
      intro e he
      rcases List.mem_or_eq_of_mem_set he with he | rfl
      · exact hold e he
      · rintro w ⟨⟩
        exact ⟨(s, f), .head _, hseen, rfl⟩

theorem onlyRepeats (hsize : 1 ≤ size) (hr : (machine size).Run h s)
    (hown : ∀ p ∈ h, p.1.OwnMatch p.2) : OnlyRepeats h := by
  rintro h₁ ⟨s₁, f⟩ h₂ rfl hseen
  have hr₁ := hr.before
  have hown₁ := hown (s₁, f) (by simp)
  obtain ⟨e, he, hkey, hdsn⟩ := seen_iff.1 hseen
  have hg := hr₁.inv (good_inductive hsize)
  cases hw : e.writer with
  | none => exact absurd (hkey.symm.trans (hg.unused e he hw)) f.key_ne
  | some w =>
    obtain ⟨q, hq, hpass, rfl⟩ := writer_passed hr₁ e he w hw
    exact ⟨q, hq, hpass, hown₁ e he hkey hdsn _ hw, (hg.writer e he _ hw).2.symm.trans hdsn⟩

/-- **What the filter drops.** -/
theorem filters (hsize : 1 ≤ size) (hr : (machine size).Run h s) :
    DropsRepeats h ∧ ((∀ p ∈ h, p.1.OwnMatch p.2) → OnlyRepeats h) ∧
    ((s.OneEntry ∧ ∀ p ∈ h, p.1.OneEntry) ↔ ∀ p ∈ h, p.1.Locatable p.2) := by
  refine ⟨dropsRepeats hsize hr, onlyRepeats hsize hr, ?_⟩
  refine hr.forall_iff (good_inductive hsize) ?_ ?_
  · rintro s rfl
    exact oneEntry_init
  · rintro s f s' hg hone ⟨⟩
    exact oneEntry_receive hg hone

/-- A frame from the short address `a` to the short address 0. -/
def shortFrame (a : UInt8 × UInt8) (dsn : UInt8) : Frame where
  fcf := 0x8841
  dsn := dsn
  dest := [0, 0, a.1, a.2]
  modes := by decide
  addressed := Nat.le_refl 4

/-- A frame that arrives twice. -/
theorem filters_twice : ∃ h s, (machine 2).Run h s ∧ h.length = 2 ∧ DropsRepeats h ∧
    OnlyRepeats h ∧ s.OneEntry := by
  let f := shortFrame (1, 2) 5
  have hr : (machine 2).Run [((init 2).receive 2 f, f), (init 2, f)]
      (((init 2).receive 2 f).receive 2 f) := .step (.step (.init rfl) rfl) rfl
  obtain ⟨hdrop, honly, hone⟩ := filters (by decide) hr
  exact ⟨_, _, hr, rfl, hdrop, honly (by decide), (hone.2 (by decide)).1⟩

/-- The addresses `01 02` and `02 01` have one key: the first frame from the second of them goes to
`DuplicateReceive`. -/
theorem not_filters : ¬ ∀ size, 1 ≤ size → ∀ h s, (machine size).Run h s →
    OnlyRepeats h ∧ DropsRepeats h ∧ s.OneEntry := by
  intro hall
  let f := shortFrame (1, 2) 5
  let g := shortFrame (2, 1) 5
  have hr : (machine 20).Run [((init 20).receive 20 f, g), (init 20, f)]
      (((init 20).receive 20 f).receive 20 g) := .step (.step (.init rfl) rfl) rfl
  obtain ⟨q, hq, -, hsrc, -⟩ := (hall 20 (by decide) _ _ hr).1 [(init 20, f)] _ [] rfl (by decide)
  cases List.mem_singleton.1 hq
  exact absurd hsrc (by decide)

end State

end UniqueReceiveP
