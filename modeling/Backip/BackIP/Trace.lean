import Backip.BackIP.Queueing

/-!
# Reading the record of calls

What the statements about runs count in `Queueing.calls`, the last call first:

* `accepted`, `delivered`, `nulls`, `discards`: the data messages a queue has taken, delivered,
  replaced by null packets and turned into virtual ones,
* `unanswered`: the message whose `Send.send` was accepted and has had no `sendDone` yet,
* `attempts`: the addresses a packet was sent to since its last charge.
-/

set_option autoImplicit false

namespace BackIP

namespace Call

/-- A data message accepted by `Send.send`. -/
def isAccepted : Call → Bool
  | .send _ bypass ret => !bypass && decide (ret = .success)
  | _ => false

def isDelivered : Call → Bool
  | .delivered .. => true
  | _ => false

def isDiscard : Call → Bool
  | .discard _ => true
  | _ => false

def isNull : Call → Bool
  | .sendNull => true
  | _ => false

def isGiveUp : Call → Bool
  | .giveUp .. => true
  | _ => false

attribute [simp] isAccepted isDelivered isDiscard isNull

end Call

def accepted (calls : List Call) : Nat := calls.countP Call.isAccepted
def delivered (calls : List Call) : Nat := calls.countP Call.isDelivered
def discards (calls : List Call) : Nat := calls.countP Call.isDiscard
def nulls (calls : List Call) : Nat := calls.countP Call.isNull

section Counts

variable (c : Call) (calls : List Call)

@[simp] theorem accepted_cons : accepted (c :: calls) = accepted calls + c.isAccepted.toNat := by
  rw [accepted, List.countP_cons, accepted]
  cases c.isAccepted <;> rfl

@[simp] theorem delivered_cons :
    delivered (c :: calls) = delivered calls + c.isDelivered.toNat := by
  rw [delivered, List.countP_cons, delivered]
  cases c.isDelivered <;> rfl

@[simp] theorem discards_cons : discards (c :: calls) = discards calls + c.isDiscard.toNat := by
  rw [discards, List.countP_cons, discards]
  cases c.isDiscard <;> rfl

@[simp] theorem nulls_cons : nulls (c :: calls) = nulls calls + c.isNull.toNat := by
  rw [nulls, List.countP_cons, nulls]
  cases c.isNull <;> rfl

theorem nulls_append (calls' : List Call) : nulls (calls' ++ calls) = nulls calls' + nulls calls :=
  List.countP_append

end Counts

/-- The calls made between two states of a run, the last one first. -/
def newCalls (q q' : Queueing) : List Call := q'.calls.take (q'.calls.length - q.calls.length)

theorem newCalls_eq {q q' : Queueing} {l : List Call} (h : q'.calls = l ++ q.calls) :
    newCalls q q' = l := by
  rw [newCalls, h, List.length_append, Nat.add_sub_cancel, List.take_left]

/-- The message whose `Send.send` was accepted last, if no `sendDone` for it followed. -/
def unanswered : List Call → Option MsgPtr
  | [] => none
  | .send msg _ ret :: calls => if ret = .success then some msg else unanswered calls
  | .sendDone msg _ :: calls => if unanswered calls = some msg then none else unanswered calls
  | _ :: calls => unanswered calls

/-- The calls the layer above sees. -/
def Call.seen : Call → Bool
  | .send .. | .sendDone .. => true
  | _ => false

theorem unanswered_unseen {c : Call} (hc : c.seen = false) (calls : List Call) :
    unanswered (c :: calls) = unanswered calls := by
  cases c with
  | send msg bypass ret => cases hc
  | sendDone msg error => cases hc
  | _ => rfl

/-- Each `sendDone` answers the one message that is waiting for it, a message of the layer above,
and `Send.send` is called only when none is. -/
structure OnceEach (calls : List Call) : Prop where
  done : ∀ msg error before, .sendDone msg error :: before <:+ calls →
    unanswered before = some msg ∧ ∃ i, msg = .frag i
  send : ∀ msg bypass ret before, .send msg bypass ret :: before <:+ calls →
    unanswered before = none

namespace OnceEach

variable {calls : List Call}

theorem nil : OnceEach [] where
  done _ _ _ h := by cases List.suffix_nil.1 h
  send _ _ _ _ h := by cases List.suffix_nil.1 h

theorem unseen {c : Call} (hc : c.seen = false) (h : OnceEach calls) : OnceEach (c :: calls) where
  done msg error before hs := by
    rcases List.suffix_cons_iff.1 hs with he | hs
    · cases he; cases hc
    · exact h.done _ _ _ hs
  send msg bypass ret before hs := by
    rcases List.suffix_cons_iff.1 hs with he | hs
    · cases he; cases hc
    · exact h.send _ _ _ _ hs

theorem cons_send {msg : MsgPtr} {bypass : Bool} {ret : TinyError} (hu : unanswered calls = none)
    (h : OnceEach calls) : OnceEach (.send msg bypass ret :: calls) where
  done msg error before hs := by
    rcases List.suffix_cons_iff.1 hs with he | hs
    · cases he
    · exact h.done _ _ _ hs
  send msg bypass ret before hs := by
    rcases List.suffix_cons_iff.1 hs with he | hs
    · cases he; exact hu
    · exact h.send _ _ _ _ hs

theorem cons_done {i : Nat} {error : TinyError} (hu : unanswered calls = some (.frag i))
    (h : OnceEach calls) : OnceEach (.sendDone (.frag i) error :: calls) where
  done msg error before hs := by
    rcases List.suffix_cons_iff.1 hs with he | hs
    · cases he; exact ⟨hu, i, rfl⟩
    · exact h.done _ _ _ hs
  send msg bypass ret before hs := by
    rcases List.suffix_cons_iff.1 hs with he | hs
    · cases he
    · exact h.send _ _ _ _ hs

theorem tail {c : Call} (h : OnceEach (c :: calls)) : OnceEach calls where
  done _ _ _ hs := h.done _ _ _ (hs.trans (List.suffix_cons _ _))
  send _ _ _ _ hs := h.send _ _ _ _ (hs.trans (List.suffix_cons _ _))

end OnceEach

/-- The first call in `after` that the layer above sees. -/
def firstSeen : List Call → Option Call
  | [] => none
  | c :: after => (firstSeen after).or (if c.seen then some c else none)

theorem unanswered_of_firstSeen_none {after : List Call} (calls : List Call)
    (h : firstSeen after = none) : unanswered (after ++ calls) = unanswered calls := by
  induction after with
  | nil => rfl
  | cons c after ih =>
    simp only [firstSeen, Option.or_eq_none_iff, ite_eq_right_iff, reduceCtorEq, imp_false,
      Bool.not_eq_true] at h
    exact (unanswered_unseen h.2 _).trans (ih h.1)

/-- What the layer above sees next: the answer to the message that is waiting for it, else its own
next `Send.send`. -/
theorem OnceEach.firstSeen_eq {after calls : List Call} {c : Call} (h : OnceEach (after ++ calls))
    (hc : firstSeen after = some c) :
    (∃ msg error, c = .sendDone msg error ∧ unanswered calls = some msg) ∨
      (∃ msg bypass ret, c = .send msg bypass ret) ∧ unanswered calls = none := by
  induction after with
  | nil => cases hc
  | cons a after ih =>
    cases ha : firstSeen after with
    | some c' =>
      rw [firstSeen, ha] at hc
      cases hc
      exact ih h.tail ha
    | none =>
      rw [firstSeen, ha] at hc
      have hu := unanswered_of_firstSeen_none calls ha
      cases a with
      | send msg bypass ret =>
        cases hc
        exact .inr ⟨⟨_, _, _, rfl⟩, hu.symm.trans (h.send _ _ _ _ List.suffix_rfl)⟩
      | sendDone msg error =>
        cases hc
        exact .inl ⟨_, _, rfl, hu.symm.trans (h.done _ _ _ List.suffix_rfl).1⟩
      | _ => cases hc

/-! ## Attempts -/

/-- The addresses the packet in `q` was sent to since it came or was last charged for, the last
attempt first. -/
def attempts (q : QePtr) : List Call → List LlAddr
  | [] => []
  | .subSendData q' dst _ _ ret :: calls =>
    if q' = q ∧ ret = .success then dst :: attempts q calls else attempts q calls
  | .enqueue q' :: calls | .delivered q' _ _ _ :: calls | .giveUp q' _ _ :: calls =>
    if q' = q then [] else attempts q calls
  | _ :: calls => attempts q calls

/-- Each charge so far was for attempts that went to the neighbour charged: on delivery for just as
many, on giving up for `MAX_RETX_ATTEMPTS`. -/
structure ChargedRight (calls : List Call) : Prop where
  delivered : ∀ q n c txTime before, .delivered q n c txTime :: before <:+ calls →
    attempts q before = List.replicate c n
  giveUp : ∀ q n c before, .giveUp q n c :: before <:+ calls →
    attempts q before = List.replicate maxRetxAttempts n

namespace ChargedRight

variable {calls : List Call}

theorem nil : ChargedRight [] where
  delivered _ _ _ _ _ h := by cases List.suffix_nil.1 h
  giveUp _ _ _ _ h := by cases List.suffix_nil.1 h

/-- A call that charges nobody. -/
theorem cons {c : Call} (hd : c.isDelivered = false) (hg : c.isGiveUp = false)
    (h : ChargedRight calls) : ChargedRight (c :: calls) where
  delivered q n k txTime before hs := by
    rcases List.suffix_cons_iff.1 hs with he | hs
    · cases he; cases hd
    · exact h.delivered _ _ _ _ _ hs
  giveUp q n k before hs := by
    rcases List.suffix_cons_iff.1 hs with he | hs
    · cases he; cases hg
    · exact h.giveUp _ _ _ _ hs

theorem cons_delivered {q : QePtr} {n : LlAddr} {c txTime : Nat} (h : ChargedRight calls)
    (ha : attempts q calls = List.replicate c n) :
    ChargedRight (.delivered q n c txTime :: calls) where
  delivered q n k txTime before hs := by
    rcases List.suffix_cons_iff.1 hs with he | hs
    · cases he; exact ha
    · exact h.delivered _ _ _ _ _ hs
  giveUp q n k before hs := by
    rcases List.suffix_cons_iff.1 hs with he | hs
    · cases he
    · exact h.giveUp _ _ _ _ hs

theorem cons_giveUp {q : QePtr} {n : LlAddr} {c : Nat} (h : ChargedRight calls)
    (ha : attempts q calls = List.replicate maxRetxAttempts n) :
    ChargedRight (.giveUp q n c :: calls) where
  delivered q n k txTime before hs := by
    rcases List.suffix_cons_iff.1 hs with he | hs
    · cases he
    · exact h.delivered _ _ _ _ _ hs
  giveUp q n k before hs := by
    rcases List.suffix_cons_iff.1 hs with he | hs
    · cases he; exact ha
    · exact h.giveUp _ _ _ _ hs

end ChargedRight

end BackIP
