/-
A broadcast channel of bounded capacity: one log of messages, and receivers that read it each from a position of its
own. The channel retains the last `capacity` messages. A receiver whose next message has been overwritten is told once
that it has lagged, and goes on with the oldest message retained. A send is lost where nobody holds a receiver.
-/
import Zohar.Lib.OrdMap

namespace Zohar.Lib

/-- `sent` are all messages that a send has put into the channel; `receivers` are those alive, each with the position of
the message that it reads next. -/
structure Broadcast (ι α : Type) [LinearOrder ι] where
  capacity : Nat
  sent : List α
  receivers : OrdMap ι Nat

/-- What `recv` answers. -/
inductive Received (α : Type) where
  | message (value : α)
  | lagged (missed : Nat)
  deriving DecidableEq, Repr

namespace Broadcast

variable {ι α : Type} [LinearOrder ι]

/-- A new channel, whose first receiver has been dropped. -/
def channel (capacity : Nat) : Broadcast ι α := ⟨capacity, [], .empty⟩

/-- A new receiver reads what is sent from now on. -/
def subscribe (b : Broadcast ι α) (i : ι) : Broadcast ι α := { b with receivers := b.receivers.insert i b.sent.length }

def drop (b : Broadcast ι α) (i : ι) : Broadcast ι α := { b with receivers := b.receivers.erase i }

/-- It fails where there is no receiver. -/
def send (b : Broadcast ι α) (value : α) : Bool × Broadcast ι α :=
  if b.receivers.entries.isEmpty then (false, b) else (true, { b with sent := b.sent ++ [value] })

/-- `none` while there is nothing to read. -/
def recv (b : Broadcast ι α) (i : ι) : Option (Received α × Broadcast ι α) :=
  (b.receivers.get? i).bind fun next =>
    if next + b.capacity < b.sent.length then
      some (.lagged (b.sent.length - b.capacity - next),
        { b with receivers := b.receivers.insert i (b.sent.length - b.capacity) })
    else
      b.sent[next]?.map fun value => (.message value, { b with receivers := b.receivers.insert i (next + 1) })

/-- What was sent and the receiver has not read, overwritten messages among it. -/
def unread (b : Broadcast ι α) (i : ι) : List α :=
  match b.receivers.get? i with
  | some next => b.sent.drop next
  | none => []

/-- No message that the receiver has not read is overwritten. -/
def WithinCapacity (b : Broadcast ι α) (i : ι) : Prop := (b.unread i).length ≤ b.capacity

instance (b : Broadcast ι α) (i : ι) : Decidable (b.WithinCapacity i) := inferInstanceAs (Decidable (_ ≤ _))

@[simp] theorem subscribe_capacity (b : Broadcast ι α) (i : ι) : (b.subscribe i).capacity = b.capacity := rfl
@[simp] theorem subscribe_sent (b : Broadcast ι α) (i : ι) : (b.subscribe i).sent = b.sent := rfl
@[simp] theorem drop_capacity (b : Broadcast ι α) (i : ι) : (b.drop i).capacity = b.capacity := rfl
@[simp] theorem drop_sent (b : Broadcast ι α) (i : ι) : (b.drop i).sent = b.sent := rfl

@[simp] theorem get?_subscribe_self (b : Broadcast ι α) (i : ι) :
    (b.subscribe i).receivers.get? i = some b.sent.length := by
  unfold subscribe
  rw [OrdMap.get?_insert, if_pos rfl]

@[simp] theorem get?_drop_self (b : Broadcast ι α) (i : ι) : (b.drop i).receivers.get? i = none := by
  unfold drop
  rw [OrdMap.get?_erase, if_pos rfl]

@[simp] theorem unread_subscribe (b : Broadcast ι α) (i : ι) : (b.subscribe i).unread i = [] := by
  unfold unread
  rw [get?_subscribe_self]
  exact List.drop_length

theorem unread_of_get?_none {b : Broadcast ι α} {i : ι} (h : b.receivers.get? i = none) : b.unread i = [] := by
  unfold unread
  rw [h]

/-! ## Sending -/

@[simp] theorem send_capacity (b : Broadcast ι α) (value : α) : (b.send value).2.capacity = b.capacity := by
  unfold send
  split <;> rfl

@[simp] theorem send_receivers (b : Broadcast ι α) (value : α) : (b.send value).2.receivers = b.receivers := by
  unfold send
  split <;> rfl

theorem send_of_receiver {b : Broadcast ι α} {i : ι} (h : (b.receivers.get? i).isSome) (value : α) :
    b.send value = (true, { b with sent := b.sent ++ [value] }) := by
  unfold send
  rw [if_neg]
  intro he
  obtain ⟨next, hi⟩ := Option.isSome_iff_exists.1 h
  rw [OrdMap.get?_eq_some_iff, List.isEmpty_iff.1 he] at hi
  cases hi

theorem send_of_no_receiver {b : Broadcast ι α} (h : ∀ i, b.receivers.get? i = none) (value : α) :
    b.send value = (false, b) := by
  unfold send
  rw [if_pos]
  rw [List.isEmpty_iff, List.eq_nil_iff_forall_not_mem]
  rintro ⟨i, next⟩ hi
  have := OrdMap.get?_eq_some_iff.2 hi
  rw [h i] at this
  cases this

/-- A receiver never stands past the end of the log. -/
def Placed (b : Broadcast ι α) : Prop := ∀ i next, b.receivers.get? i = some next → next ≤ b.sent.length

theorem placed_channel (capacity : Nat) : (channel capacity : Broadcast ι α).Placed := by
  intro i next h
  cases h

theorem Placed.subscribe {b : Broadcast ι α} (h : b.Placed) (i : ι) : (b.subscribe i).Placed := by
  intro j next hj
  unfold Broadcast.subscribe at hj
  rw [OrdMap.get?_insert] at hj
  split at hj
  · cases hj
    exact le_refl _
  · exact h j next hj

theorem Placed.drop {b : Broadcast ι α} (h : b.Placed) (i : ι) : (b.drop i).Placed := by
  intro j next hj
  unfold Broadcast.drop at hj
  rw [OrdMap.get?_erase] at hj
  split at hj
  · cases hj
  · exact h j next hj

theorem Placed.send {b : Broadcast ι α} (h : b.Placed) (value : α) : (b.send value).2.Placed := by
  intro j next hj
  rw [send_receivers] at hj
  have hle := h j next hj
  unfold Broadcast.send
  split
  · exact hle
  · rw [List.length_append]
    exact hle.trans (Nat.le_add_right _ _)

/-- A message sent is what its receivers read last. -/
theorem unread_send {b : Broadcast ι α} (hb : b.Placed) {i : ι} (h : (b.receivers.get? i).isSome) (value : α) :
    (b.send value).2.unread i = b.unread i ++ [value] := by
  obtain ⟨next, hi⟩ := Option.isSome_iff_exists.1 h
  rw [send_of_receiver h]
  unfold unread
  dsimp only
  rw [hi]
  exact List.drop_append_of_le_length (hb i next hi)

/-! ## Receiving -/

/-- What a receive does: it takes the first message unread, or tells of the lag and skips what was overwritten. -/
inductive Receives (b : Broadcast ι α) (i : ι) : Received α → Broadcast ι α → Prop
  | message (next : Nat) (value : α) (rest : List α) (hi : b.receivers.get? i = some next)
    (hw : b.WithinCapacity i) (hu : b.unread i = value :: rest) :
    Receives b i (.message value) { b with receivers := b.receivers.insert i (next + 1) }
  | lagged (next : Nat) (hi : b.receivers.get? i = some next) (hw : ¬ b.WithinCapacity i) :
    Receives b i (.lagged (b.sent.length - b.capacity - next))
      { b with receivers := b.receivers.insert i (b.sent.length - b.capacity) }

theorem withinCapacity_iff {b : Broadcast ι α} {i : ι} {next : Nat} (hi : b.receivers.get? i = some next) :
    b.WithinCapacity i ↔ ¬ next + b.capacity < b.sent.length := by
  unfold WithinCapacity unread
  rw [hi]
  dsimp only
  rw [List.length_drop]
  omega

theorem receives_of_recv {b b' : Broadcast ι α} {i : ι} {r : Received α} (h : b.recv i = some (r, b')) :
    b.Receives i r b' := by
  obtain ⟨next, hi, h⟩ := Option.bind_eq_some_iff.1 h
  split at h
  · rename_i hlag
    cases h
    exact .lagged next hi fun hw => (withinCapacity_iff hi).1 hw hlag
  · rename_i hlag
    obtain ⟨value, hv, h⟩ := Option.map_eq_some_iff.1 h
    cases h
    obtain ⟨hlt, hget⟩ := List.getElem?_eq_some_iff.1 hv
    refine .message next value (b.sent.drop (next + 1)) hi ((withinCapacity_iff hi).2 hlag) ?_
    unfold unread
    rw [hi]
    dsimp only
    rw [List.drop_eq_getElem_cons hlt, hget]

/-- There is nothing to read exactly while nothing is unread. -/
theorem recv_eq_none_iff {b : Broadcast ι α} {i : ι} : b.recv i = none ↔ b.unread i = [] := by
  unfold recv unread
  cases hi : b.receivers.get? i with
  | none => simp
  | some next =>
    dsimp only [Option.bind_some]
    split
    · rename_i hlag
      simp only [reduceCtorEq, false_iff, List.drop_eq_nil_iff]
      omega
    · simp [List.drop_eq_nil_iff]

namespace Receives

variable {b b' : Broadcast ι α} {i : ι} {r : Received α}

theorem capacity_eq (h : b.Receives i r b') : b'.capacity = b.capacity := by cases h <;> rfl

theorem get?_isSome' (h : b.Receives i r b') : (b'.receivers.get? i).isSome := by
  cases h <;> (dsimp only; rw [OrdMap.get?_insert, if_pos rfl]; rfl)

theorem placed (h : b.Receives i r b') (hb : b.Placed) : b'.Placed := by
  intro j next' hj
  cases h with
  | message next value rest hi hw hu =>
    dsimp only at hj ⊢
    rw [OrdMap.get?_insert] at hj
    split at hj
    · cases hj
      unfold unread at hu
      rw [hi] at hu
      have hlen := congrArg List.length hu
      dsimp only at hlen
      rw [List.length_drop, List.length_cons] at hlen
      omega
    · exact hb j next' hj
  | lagged next hi hw =>
    dsimp only at hj ⊢
    rw [OrdMap.get?_insert] at hj
    split at hj
    · cases hj
      omega
    · exact hb j next' hj

/-- A message received is the first one unread, and the rest stays unread. -/
theorem unread_eq {value : α} (h : b.Receives i (.message value) b') : b.unread i = value :: b'.unread i := by
  cases h with
  | message next _ rest hi hw hu =>
    have hdrop : b.sent.drop next = value :: rest := by
      unfold unread at hu
      rw [hi] at hu
      exact hu
    have hrest : (b.sent.drop next).tail = b.sent.drop (next + 1) := List.tail_drop
    rw [hu]
    unfold unread
    dsimp only
    rw [OrdMap.get?_insert, if_pos rfl]
    dsimp only
    rw [← hrest, hdrop]
    rfl

/-- A lag is told exactly of when a message unread was overwritten. -/
theorem withinCapacity (h : b.Receives i r b') : b.WithinCapacity i ↔ ∃ value, r = .message value := by
  cases h with
  | message next value rest hi hw => exact iff_of_true hw ⟨value, rfl⟩
  | lagged next hi hw => exact iff_of_false hw (by simp)

end Receives

end Broadcast

end Zohar.Lib
