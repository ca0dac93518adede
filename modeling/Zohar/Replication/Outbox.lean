/-
The outbox of a player, from zohar-sim/src/outbox.rs. Reliable events queue in order; the movements of players are
coalesced, the latest of each entity; the other movements queue behind them. A flush tries the three one after the
other against the bounded channel to the connection. The channel is not ours: every `try_send` is answered by the next
answer of a list, and where the list ends the channel is full. The hash map is drained in an order of its own choice.
-/
import Zohar.Replication.Events
import Zohar.Lib.Run

namespace Zohar.Replication

open Zohar.Lib

/-! ## The outbox -/

structure PlayerOutbox where
  events : List PlayerEvent
  movementLatestPlayer : OrdMap EntityId MovementEvent
  movementRemote : List MovementEvent

structure PlayerOutboxStats where
  sentReliable : Nat
  sentMovement : Nat
  totalEvents : Nat
  deriving DecidableEq, Repr

inductive TrySend where
  | ok | full | closed
  deriving DecidableEq, Repr

inductive MovementFlushOutcome where
  | complete | full | closed
  deriving DecidableEq, Repr

/-- What came of sending a list of items: those the channel took, those left, and the answers not used. -/
structure Sent (α : Type) where
  taken : List α
  left : List α
  answers : List TrySend
  outcome : MovementFlushOutcome

/-- The loop that the three stages of a flush share: send from the front until the channel does not take one. -/
def sendAll {α : Type} : List α → List TrySend → Sent α
  | [], answers => ⟨[], [], answers, .complete⟩
  | x :: xs, .ok :: answers =>
    let r := sendAll xs answers
    { r with taken := x :: r.taken }
  | x :: xs, .full :: answers => ⟨[], x :: xs, answers, .full⟩
  | x :: xs, .closed :: answers => ⟨[], x :: xs, answers, .closed⟩
  | x :: xs, [] => ⟨[], x :: xs, [], .full⟩

/-- An item on its way through the outbox, with the lane that it takes. -/
inductive Item where
  | reliable (event : PlayerEvent)
  | movement (movement : MovementEvent)
  deriving DecidableEq, Repr

/-- What the client gets. -/
def Item.event : Item → PlayerEvent
  | .reliable e => e
  | .movement m => .entityMove m

namespace PlayerOutbox

def new : PlayerOutbox := ⟨[], .empty, []⟩

def pushReliable (o : PlayerOutbox) (event : PlayerEvent) : PlayerOutbox := { o with events := o.events ++ [event] }

def pushRemoteMovementUpdate (o : PlayerOutbox) (movement : MovementEvent) : PlayerOutbox :=
  if o.movementRemote.getLast?.any fun last => last.eq movement then o
  else { o with movementRemote := o.movementRemote ++ [movement] }

def setLatestMovementWithPriority (o : PlayerOutbox) (movement : MovementEvent) (prioritize : Bool) : PlayerOutbox :=
  if prioritize then
    { o with
      movementRemote := o.movementRemote.filter fun queued => queued.entityId ≠ movement.entityId
      movementLatestPlayer := o.movementLatestPlayer.insert movement.entityId movement }
  else
    { o with movementLatestPlayer := o.movementLatestPlayer.erase movement.entityId }.pushRemoteMovementUpdate movement

def pushRemoteMovement (o : PlayerOutbox) (movement : MovementEvent) : PlayerOutbox :=
  o.pushRemoteMovementUpdate movement

/-- The coalesced movements in the order in which the hash map gives them out. -/
def bucketIn (o : PlayerOutbox) (order : List EntityId) : List MovementEvent :=
  order.filterMap o.movementLatestPlayer.get?

/-- `bucket.insert` of what could not be sent. -/
def putBack (movements : List MovementEvent) : OrdMap EntityId MovementEvent :=
  movements.foldl (fun bucket movement => bucket.insert movement.entityId movement) .empty

/-- `flush_remote_movement_queue`, after what the other two stages have sent. -/
def flushRemoteMovementQueue (o : PlayerOutbox) (answers : List TrySend) : List MovementEvent × List MovementEvent :=
  let remote := sendAll o.movementRemote answers
  (remote.taken, if remote.outcome = .closed then [] else remote.left)

/-- The two movement stages: what the channel took of them, and what is left in the lanes. -/
def flushMovements (o : PlayerOutbox) (order : List EntityId) (answers : List TrySend) :
    List MovementEvent × OrdMap EntityId MovementEvent × List MovementEvent :=
  let bucket := sendAll (o.bucketIn order) answers
  match bucket.outcome with
  | .full => (bucket.taken, putBack bucket.left, o.movementRemote)
  | .closed => (bucket.taken, .empty, [])
  | .complete =>
    let remote := o.flushRemoteMovementQueue bucket.answers
    (bucket.taken ++ remote.1, .empty, remote.2)

/-- `flush`, with what the channel took. -/
def flush (o : PlayerOutbox) (order : List EntityId) (answers : List TrySend) :
    List Item × PlayerOutbox × PlayerOutboxStats :=
  let reliable := sendAll o.events answers
  if reliable.outcome = .closed then
    (reliable.taken.map .reliable, new, ⟨reliable.taken.length, 0, reliable.taken.length⟩)
  else
    -- a full channel ends the first stage, and the next one is tried all the same
    let lanes := o.flushMovements order reliable.answers
    (reliable.taken.map .reliable ++ lanes.1.map .movement, ⟨reliable.left, lanes.2.1, lanes.2.2⟩,
      ⟨reliable.taken.length, lanes.1.length, reliable.taken.length + lanes.1.length⟩)

end PlayerOutbox

/-! ## Runs -/

/-- An outbox with what was pushed into it and what came out of it, each in order. -/
structure Traffic where
  outbox : PlayerOutbox
  pushed : List Item
  delivered : List Item

def Traffic.start : Traffic := ⟨.new, [], []⟩

inductive OutboxEvent where
  | pushReliable (event : PlayerEvent)
  | setLatestMovementWithPriority (movement : MovementEvent) (prioritize : Bool)
  | pushRemoteMovement (movement : MovementEvent)
  | flush (order : List EntityId) (answers : List TrySend)

/-- One call. A flush goes through the keys of the hash map, each once. -/
def outboxStep (t : Traffic) : OutboxEvent → Option Traffic
  | .pushReliable e => some { t with outbox := t.outbox.pushReliable e, pushed := t.pushed ++ [.reliable e] }
  | .setLatestMovementWithPriority m prioritize =>
    some { t with outbox := t.outbox.setLatestMovementWithPriority m prioritize, pushed := t.pushed ++ [.movement m] }
  | .pushRemoteMovement m =>
    some { t with outbox := t.outbox.pushRemoteMovement m, pushed := t.pushed ++ [.movement m] }
  | .flush order answers =>
    if order.Perm t.outbox.movementLatestPlayer.keys then
      some { t with
        outbox := (t.outbox.flush order answers).2.1,
        delivered := t.delivered ++ (t.outbox.flush order answers).1 }
    else none

/-- The receiver is not closed. -/
def OutboxEvent.IsOpen : OutboxEvent → Prop
  | .flush _ answers => .closed ∉ answers
  | _ => True

instance (ev : OutboxEvent) : Decidable ev.IsOpen :=
  match ev with
  | .flush _ answers => inferInstanceAs (Decidable (.closed ∉ answers))
  | .pushReliable _ | .setLatestMovementWithPriority _ _ | .pushRemoteMovement _ => .isTrue trivial

/-! ## One stage of a flush -/

section
variable {α : Type}

theorem sendAll_append (xs : List α) (answers : List TrySend) :
    (sendAll xs answers).taken ++ (sendAll xs answers).left = xs := by
  fun_induction sendAll xs answers with
  | case1 => rfl
  | case2 x xs answers r ih => simpa using ih
  | case3 => rfl
  | case4 => rfl
  | case5 => rfl

theorem sendAll_answers_subset (xs : List α) (answers : List TrySend) : (sendAll xs answers).answers ⊆ answers := by
  induction xs, answers using sendAll.induct with
  | case1 => exact fun _ h => h
  | case2 x xs answers ih => exact List.subset_cons_of_subset _ ih
  | case3 => exact List.subset_cons_self _ _
  | case4 => exact List.subset_cons_self _ _
  | case5 => exact fun _ h => h

theorem sendAll_outcome_ne_closed {xs : List α} {answers : List TrySend} (h : .closed ∉ answers) :
    (sendAll xs answers).outcome ≠ .closed := by
  fun_induction sendAll xs answers with
  | case1 => simp
  | case2 x xs answers r ih => exact ih fun hm => h (List.mem_cons_of_mem _ hm)
  | case3 => simp
  | case4 => simp at h
  | case5 => simp

/-- Two stages of which the second is tried only after the first is complete are one: they go on, -/
theorem sendAll_append_of_complete {xs ys : List α} {answers : List TrySend}
    (h : (sendAll xs answers).outcome = .complete) :
    (sendAll (xs ++ ys) answers).taken = (sendAll xs answers).taken ++ (sendAll ys (sendAll xs answers).answers).taken ∧
      (sendAll (xs ++ ys) answers).left = (sendAll ys (sendAll xs answers).answers).left := by
  fun_induction sendAll xs answers with
  | case1 => exact ⟨rfl, rfl⟩
  | case2 x xs answers r ih => exact ⟨congrArg (x :: ·) (ih h).1, (ih h).2⟩
  | case3 => cases h
  | case4 => cases h
  | case5 => cases h

/-- or they stop. -/
theorem sendAll_append_of_ne_complete {xs ys : List α} {answers : List TrySend}
    (h : (sendAll xs answers).outcome ≠ .complete) :
    (sendAll (xs ++ ys) answers).taken = (sendAll xs answers).taken ∧
      (sendAll (xs ++ ys) answers).left = (sendAll xs answers).left ++ ys := by
  fun_induction sendAll xs answers with
  | case1 => exact absurd rfl h
  | case2 x xs answers r ih => exact ⟨congrArg (x :: ·) (ih h).1, (ih h).2⟩
  | case3 => exact ⟨rfl, rfl⟩
  | case4 => exact ⟨rfl, rfl⟩
  | case5 => exact ⟨rfl, rfl⟩

end

/-! ## The lanes of one entity -/

/-- The movements of an entity. -/
def ofEntity (e : EntityId) (ms : List MovementEvent) : List MovementEvent := ms.filter fun m => m.entityId = e

@[simp] theorem ofEntity_nil (e : EntityId) : ofEntity e [] = [] := rfl

@[simp] theorem ofEntity_append (e : EntityId) (ms ns : List MovementEvent) :
    ofEntity e (ms ++ ns) = ofEntity e ms ++ ofEntity e ns := List.filter_append ..

theorem ofEntity_singleton (e : EntityId) (m : MovementEvent) :
    ofEntity e [m] = if m.entityId = e then [m] else [] := by
  by_cases h : m.entityId = e <;> simp [ofEntity, h]

/-- What waits for an entity in the two lanes, in the order in which they are tried. -/
def PlayerOutbox.queued (o : PlayerOutbox) (e : EntityId) : List MovementEvent :=
  (o.movementLatestPlayer.get? e).toList ++ ofEntity e o.movementRemote

/-- Every coalesced movement is filed under its entity. -/
def PlayerOutbox.Keyed (o : PlayerOutbox) : Prop := ∀ e m, o.movementLatestPlayer.get? e = some m → m.entityId = e

def movements (items : List Item) : List MovementEvent :=
  items.filterMap fun
    | .movement m => some m
    | .reliable _ => none

def reliables (items : List Item) : List PlayerEvent :=
  items.filterMap fun
    | .reliable e => some e
    | .movement _ => none

@[simp] theorem movements_append (is js : List Item) : movements (is ++ js) = movements is ++ movements js :=
  List.filterMap_append

@[simp] theorem reliables_append (is js : List Item) : reliables (is ++ js) = reliables is ++ reliables js :=
  List.filterMap_append

@[simp] theorem movements_map_movement (ms : List MovementEvent) : movements (ms.map .movement) = ms := by
  simp [movements, List.filterMap_map]

@[simp] theorem movements_map_reliable (es : List PlayerEvent) : movements (es.map .reliable) = [] := by
  simp [movements, List.filterMap_map]

@[simp] theorem reliables_map_reliable (es : List PlayerEvent) : reliables (es.map .reliable) = es := by
  simp [reliables, List.filterMap_map]

@[simp] theorem reliables_map_movement (ms : List MovementEvent) : reliables (ms.map .movement) = [] := by
  simp [reliables, List.filterMap_map]

section
variable {o : PlayerOutbox} {e : EntityId}

theorem ofEntity_eq_toList {ms : List MovementEvent} (h : ms.Pairwise fun a b => a.entityId ≠ b.entityId) :
    ofEntity e ms = (ofEntity e ms).getLast?.toList := by
  have hp : (ofEntity e ms).Pairwise fun a b => a.entityId ≠ b.entityId := h.filter _
  have hall : ∀ m ∈ ofEntity e ms, m.entityId = e := fun m hm => by simpa using (List.mem_filter.1 hm).2
  rcases hq : ofEntity e ms with _ | ⟨m, _ | ⟨n, rest⟩⟩
  · rfl
  · rfl
  · rw [hq] at hp hall
    have hne := (List.pairwise_cons.1 hp).1 n List.mem_cons_self
    exact absurd ((hall m (by simp)).trans (hall n (by simp)).symm) hne

theorem foldl_insert_get? (ms : List MovementEvent) : ∀ bucket : OrdMap EntityId MovementEvent,
    (ms.foldl (fun bucket m => bucket.insert m.entityId m) bucket).get? e =
      (ofEntity e ms).getLast?.or (bucket.get? e) := by
  induction ms with
  | nil => simp
  | cons m ms ih =>
    intro bucket
    rw [List.foldl_cons, ih, OrdMap.get?_insert]
    by_cases h : m.entityId = e
    · subst h
      rw [if_pos rfl, show ofEntity m.entityId (m :: ms) = m :: ofEntity m.entityId ms by simp [ofEntity],
        List.getLast?_cons]
      cases (ofEntity m.entityId ms).getLast? <;> rfl
    · rw [if_neg (Ne.symm h)]
      simp [ofEntity, h]

/-- What is put back is found again. -/
theorem putBack_get? {ms : List MovementEvent} (h : ms.Pairwise fun a b => a.entityId ≠ b.entityId) :
    ((PlayerOutbox.putBack ms).get? e).toList = ofEntity e ms := by
  rw [PlayerOutbox.putBack, foldl_insert_get?, OrdMap.get?_empty, Option.or_none, ← ofEntity_eq_toList h]

theorem bucketIn_pairwise (h : o.Keyed) {order : List EntityId} (ho : order.Nodup) :
    (o.bucketIn order).Pairwise fun a b => a.entityId ≠ b.entityId := by
  refine List.pairwise_filterMap.2 (ho.imp fun {a b} hne m hm n hn => ?_)
  rw [h a m hm, h b n hn]
  exact hne

theorem bucketIn_ofEntity (h : o.Keyed) {order : List EntityId} (ho : order.Perm o.movementLatestPlayer.keys) :
    ofEntity e (o.bucketIn order) = (o.movementLatestPlayer.get? e).toList := by
  have hnodup : order.Nodup := ho.nodup_iff.2 (o.movementLatestPlayer.keys_pairwise.imp fun hlt => hlt.ne)
  have hmem : ∀ m, m ∈ ofEntity e (o.bucketIn order) ↔ o.movementLatestPlayer.get? e = some m := by
    intro m
    simp only [ofEntity, PlayerOutbox.bucketIn, List.mem_filter, List.mem_filterMap, decide_eq_true_eq]
    constructor
    · rintro ⟨⟨k, _, hk⟩, rfl⟩
      rw [h k m hk]
      exact hk
    · intro hm
      exact ⟨⟨e, ho.mem_iff.2 (OrdMap.mem_keys_iff.2 (by simp [hm])), hm⟩, h e m hm⟩
  rw [ofEntity_eq_toList (bucketIn_pairwise h hnodup)]
  congr 1
  cases hl : (ofEntity e (o.bucketIn order)).getLast? with
  | none =>
    rw [List.getLast?_eq_none_iff] at hl
    rw [eq_comm, Option.eq_none_iff_forall_ne_some]
    intro m hm
    have := (hmem m).2 hm
    simp [hl] at this
  | some m => exact ((hmem m).1 (List.mem_of_getLast? hl)).symm

/-! ## Flushes and pushes -/

/-- The movements in the order in which a flush tries them. -/
def PlayerOutbox.lanes (o : PlayerOutbox) (order : List EntityId) : List MovementEvent :=
  o.bucketIn order ++ o.movementRemote

theorem lanes_ofEntity (h : o.Keyed) {order : List EntityId} (ho : order.Perm o.movementLatestPlayer.keys) :
    ofEntity e (o.lanes order) = o.queued e := by
  rw [PlayerOutbox.lanes, ofEntity_append, bucketIn_ofEntity h ho, PlayerOutbox.queued]

theorem keyed_putBack (ms : List MovementEvent) (rs : List PlayerEvent) (qs : List MovementEvent) :
    PlayerOutbox.Keyed ⟨rs, PlayerOutbox.putBack ms, qs⟩ := by
  intro e m hm
  have hlast : (ofEntity e ms).getLast? = some m := by
    simpa [PlayerOutbox.putBack, foldl_insert_get?] using hm
  simpa using (List.mem_filter.1 (List.mem_of_getLast? hlast)).2

/-- While the receiver is there, a flush sends from the front of the reliable events, then from the front of the
lanes, and keeps the rest in order. -/
structure Flushed (o : PlayerOutbox) (order : List EntityId) (answers : List TrySend) (items : List Item)
    (o' : PlayerOutbox) : Prop where
  items : items = (sendAll o.events answers).taken.map .reliable ++
    (sendAll (o.lanes order) (sendAll o.events answers).answers).taken.map .movement
  events : o'.events = (sendAll o.events answers).left
  queued : ∀ e, o'.queued e = ofEntity e (sendAll (o.lanes order) (sendAll o.events answers).answers).left
  keyed : o'.Keyed

theorem flushMovements_spec (h : o.Keyed) {order : List EntityId} (ho : order.Perm o.movementLatestPlayer.keys)
    {answers : List TrySend} (hopen : .closed ∉ answers) (events : List PlayerEvent) :
    (o.flushMovements order answers).1 = (sendAll (o.lanes order) answers).taken ∧
      (∀ e, PlayerOutbox.queued ⟨events, (o.flushMovements order answers).2.1, (o.flushMovements order answers).2.2⟩ e =
        ofEntity e (sendAll (o.lanes order) answers).left) ∧
      PlayerOutbox.Keyed ⟨events, (o.flushMovements order answers).2.1, (o.flushMovements order answers).2.2⟩ := by
  have hnodup : order.Nodup := ho.nodup_iff.2 (o.movementLatestPlayer.keys_pairwise.imp fun hlt => hlt.ne)
  have hbucket : (sendAll (o.bucketIn order) answers).outcome ≠ .closed := sendAll_outcome_ne_closed hopen
  unfold PlayerOutbox.flushMovements PlayerOutbox.lanes
  dsimp only
  split
  · -- the channel is full before the hash map is through: the rest goes back into it
    rename_i hfull
    obtain ⟨htaken, hleft⟩ := @sendAll_append_of_ne_complete _ _ o.movementRemote _ (by rw [hfull]; simp)
    have hsuffix : (sendAll (o.bucketIn order) answers).left.Pairwise fun a b => a.entityId ≠ b.entityId := by
      have hpairwise := bucketIn_pairwise h hnodup
      rw [← sendAll_append (o.bucketIn order) answers] at hpairwise
      exact (List.pairwise_append.1 hpairwise).2.1
    refine ⟨htaken.symm, fun e => ?_, keyed_putBack _ _ _⟩
    rw [PlayerOutbox.queued, hleft, ofEntity_append, putBack_get? hsuffix]
  · contradiction
  · rename_i hcomplete
    obtain ⟨htaken, hleft⟩ := @sendAll_append_of_complete _ _ o.movementRemote _ hcomplete
    have hremote := @sendAll_outcome_ne_closed _ o.movementRemote (sendAll (o.bucketIn order) answers).answers fun hm =>
      hopen (sendAll_answers_subset _ _ hm)
    refine ⟨htaken.symm, fun e => ?_, by rintro e m ⟨⟩⟩
    simp only [PlayerOutbox.flushRemoteMovementQueue, if_neg hremote, hleft]
    rfl

theorem flush_spec (h : o.Keyed) {order : List EntityId} (ho : order.Perm o.movementLatestPlayer.keys)
    {answers : List TrySend} (hopen : .closed ∉ answers) :
    Flushed o order answers (o.flush order answers).1 (o.flush order answers).2.1 := by
  have hopen' : .closed ∉ (sendAll o.events answers).answers := fun hm => hopen (sendAll_answers_subset _ _ hm)
  obtain ⟨htaken, hqueued, hkeyed⟩ := flushMovements_spec h ho hopen' (sendAll o.events answers).left
  unfold PlayerOutbox.flush
  dsimp only
  rw [if_neg (sendAll_outcome_ne_closed hopen)]
  exact ⟨by rw [htaken], rfl, hqueued, hkeyed⟩

theorem keyed_new : PlayerOutbox.new.Keyed := by rintro e m ⟨⟩

/-- A movement takes its place at the end of its entity's lanes, where it may replace what was there, or it is dropped
because the last movement there is the same. -/
structure Accepted (o : PlayerOutbox) (m : MovementEvent) (o' : PlayerOutbox) : Prop where
  events : o'.events = o.events
  keyed : o'.Keyed
  others : ∀ e, e ≠ m.entityId → o'.queued e = o.queued e
  own : ∃ q : List MovementEvent, q.Sublist (o.queued m.entityId) ∧
    (o'.queued m.entityId = q ++ [m] ∨ o'.queued m.entityId = q ∧ ∃ last, q.getLast? = some last ∧ last.eq m)

theorem pushRemoteMovementUpdate_accepted (h : o.Keyed) (m : MovementEvent) :
    Accepted o m (o.pushRemoteMovementUpdate m) := by
  unfold PlayerOutbox.pushRemoteMovementUpdate
  split
  · rename_i hany
    obtain ⟨last, hlast, heq⟩ := (Option.any_eq_true _ _).1 hany
    refine ⟨rfl, h, fun _ _ => rfl, _, List.Sublist.refl _, .inr ⟨rfl, last, ?_, heq⟩⟩
    obtain ⟨front, hfront⟩ := List.getLast?_eq_some_iff.1 hlast
    rw [PlayerOutbox.queued, hfront, ofEntity_append, ofEntity_singleton, if_pos (MovementEvent.eq_entityId heq),
      ← List.append_assoc]
    exact List.getLast?_concat
  · refine ⟨rfl, h, fun e he => ?_, _, List.Sublist.refl _, .inl ?_⟩
    · simp only [PlayerOutbox.queued, ofEntity_append, ofEntity_singleton, if_neg (Ne.symm he), List.append_nil]
    · simp only [PlayerOutbox.queued, ofEntity_append, ofEntity_singleton, if_true, List.append_assoc]

theorem setLatestMovementWithPriority_accepted (h : o.Keyed) (m : MovementEvent) (prioritize : Bool) :
    Accepted o m (o.setLatestMovementWithPriority m prioritize) := by
  unfold PlayerOutbox.setLatestMovementWithPriority
  split
  · refine ⟨rfl, fun e m' hm' => ?_, fun e he => ?_, [], List.nil_sublist _, .inl ?_⟩
    · rw [OrdMap.get?_insert] at hm'
      split at hm'
      · cases hm'
        exact Eq.symm ‹_›
      · exact h e m' hm'
    · simp only [PlayerOutbox.queued, OrdMap.get?_insert, if_neg he]
      congr 1
      simp only [ofEntity, List.filter_filter]
      refine List.filter_congr fun x _ => ?_
      by_cases hx : x.entityId = e
      · simp [hx, he]
      · simp [hx]
    · simp only [PlayerOutbox.queued, OrdMap.get?_insert, if_true]
      simp [ofEntity, List.filter_filter]
  · have herased : PlayerOutbox.Keyed { o with movementLatestPlayer := o.movementLatestPlayer.erase m.entityId } := by
      intro e m' hm'
      exact h e m' (OrdMap.get?_erase_eq_some_iff.1 hm').2
    obtain ⟨hevents, hkeyed, hothers, q, hq, hown⟩ := pushRemoteMovementUpdate_accepted herased m
    refine ⟨hevents, hkeyed, fun e he => ?_, q, hq.trans ?_, hown⟩
    · rw [hothers e he]
      simp only [PlayerOutbox.queued, OrdMap.get?_erase, if_neg he]
    · simp only [PlayerOutbox.queued, OrdMap.get?_erase, if_true]
      exact List.sublist_append_right _ _

/-! ## What holds along a run -/

/-- The movements of an entity that came out of the lanes, and then those that wait in them. -/
def Traffic.stream (t : Traffic) (e : EntityId) : List MovementEvent :=
  ofEntity e (movements t.delivered) ++ t.outbox.queued e

structure Traffic.Inv (t : Traffic) : Prop where
  keyed : t.outbox.Keyed
  reliable : reliables t.delivered ++ t.outbox.events = reliables t.pushed
  inOrder : ∀ e, (t.stream e).Sublist (ofEntity e (movements t.pushed))
  latest : ∀ e m, (ofEntity e (movements t.pushed)).getLast? = some m →
    ∃ m', (m' = m ∨ m'.eq m) ∧ (t.stream e).getLast? = some m'

theorem Traffic.inv_start : Traffic.start.Inv :=
  ⟨keyed_new, rfl, fun _ => List.Sublist.refl _, by rintro e m ⟨⟩⟩

section
variable {t : Traffic} {o' : PlayerOutbox}

theorem Traffic.Inv.accept (h : t.Inv) {m : MovementEvent} (ha : Accepted t.outbox m o') :
    Traffic.Inv { t with outbox := o', pushed := t.pushed ++ [.movement m] } := by
  have hpushed : ∀ e, ofEntity e (movements (t.pushed ++ [.movement m])) =
      ofEntity e (movements t.pushed) ++ if m.entityId = e then [m] else [] := by
    intro e
    rw [movements_append, ofEntity_append, show movements [.movement m] = [m] from rfl, ofEntity_singleton]
  obtain ⟨q, hq, hown⟩ := ha.own
  have hsub : (ofEntity m.entityId (movements t.delivered) ++ q).Sublist (ofEntity m.entityId (movements t.pushed)) :=
    ((List.Sublist.refl _).append hq).trans (h.inOrder m.entityId)
  refine ⟨ha.keyed, ?_, fun e => ?_, fun e n hn => ?_⟩
  · simpa [ha.events, reliables] using h.reliable
  · rw [Traffic.stream, hpushed]
    by_cases he : e = m.entityId
    · subst he
      rw [if_pos rfl]
      rcases hown with hown | ⟨hown, _⟩
      · rw [hown, ← List.append_assoc]
        exact hsub.append (List.Sublist.refl _)
      · rw [hown]
        exact hsub.trans (List.sublist_append_left _ _)
    · rw [if_neg (Ne.symm he), List.append_nil, ha.others e he]
      exact h.inOrder e
  · rw [hpushed] at hn
    rw [Traffic.stream]
    by_cases he : e = m.entityId
    · subst he
      rw [if_pos rfl, List.getLast?_concat] at hn
      cases hn
      rcases hown with hown | ⟨hown, last, hlast, heq⟩
      · exact ⟨m, .inl rfl, by rw [hown, ← List.append_assoc, List.getLast?_concat]⟩
      · exact ⟨last, .inr heq, by rw [hown, List.getLast?_append, hlast]; rfl⟩
    · rw [if_neg (Ne.symm he), List.append_nil] at hn
      rw [ha.others e he]
      exact h.latest e n hn

theorem Traffic.Inv.flush (h : t.Inv) {order : List EntityId} {answers : List TrySend} {items : List Item}
    (ho : order.Perm t.outbox.movementLatestPlayer.keys) (hf : Flushed t.outbox order answers items o') :
    Traffic.Inv { t with outbox := o', delivered := t.delivered ++ items } := by
  have hstream : ∀ e, Traffic.stream { t with outbox := o', delivered := t.delivered ++ items } e = t.stream e := by
    intro e
    rw [Traffic.stream, Traffic.stream, ← lanes_ofEntity h.keyed ho,
      ← sendAll_append (t.outbox.lanes order) (sendAll t.outbox.events answers).answers, ofEntity_append]
    simp only [hf.queued, hf.items, movements_append, movements_map_reliable, movements_map_movement, ofEntity_append,
      List.nil_append, List.append_assoc]
  refine ⟨hf.keyed, ?_, fun e => by rw [hstream]; exact h.inOrder e,
    fun e m hm => by rw [hstream]; exact h.latest e m hm⟩
  have hevents := sendAll_append t.outbox.events answers
  simp only [hf.items, hf.events, reliables_append, reliables_map_reliable, reliables_map_movement, List.append_nil,
    List.append_assoc, hevents]
  exact h.reliable

theorem outboxStep_inv {t' : Traffic} {ev : OutboxEvent} (h : t.Inv) (hopen : ev.IsOpen)
    (hs : outboxStep t ev = some t') :
    t'.Inv := by
  cases ev with
  | pushReliable e =>
    cases hs
    refine ⟨h.keyed, ?_, fun e' => ?_, fun e' m hm => ?_⟩
    · simp only [PlayerOutbox.pushReliable, reliables_append, ← List.append_assoc, h.reliable]
      rfl
    · rw [movements_append, show movements [.reliable e] = [] from rfl, List.append_nil]
      exact h.inOrder e'
    · rw [movements_append, show movements [.reliable e] = [] from rfl, List.append_nil] at hm
      exact h.latest e' m hm
  | setLatestMovementWithPriority m prioritize =>
    cases hs
    exact h.accept (setLatestMovementWithPriority_accepted h.keyed m prioritize)
  | pushRemoteMovement m =>
    cases hs
    exact h.accept (pushRemoteMovementUpdate_accepted h.keyed m)
  | flush order answers =>
    simp only [outboxStep] at hs
    split at hs
    · rename_i ho
      cases hs
      exact h.flush ho (flush_spec h.keyed ho hopen)
    · cases hs

end

/-- Every sequence of calls, every answer of the channel. The reliable events come out as they went in, each once, and
the rest of them waits in order. What the lanes deliver of an entity is in the order of its pushes, and the movement
last pushed for it, or the one that was found to be the same, is the last delivered or still waits. -/
theorem outbox_delivery {es : List OutboxEvent} {t : Traffic} (hopen : ∀ ev ∈ es, ev.IsOpen)
    (hr : run outboxStep .start es = some t) :
    reliables t.delivered ++ t.outbox.events = reliables t.pushed ∧
      ∀ e, (ofEntity e (movements t.delivered)).Sublist (ofEntity e (movements t.pushed)) ∧
        ∀ m, (ofEntity e (movements t.pushed)).getLast? = some m →
          ∃ m', (m' = m ∨ m'.eq m) ∧ ((ofEntity e (movements t.delivered)).getLast? = some m' ∧ t.outbox.queued e = [] ∨
            (t.outbox.queued e).getLast? = some m') := by
  have hinv : t.Inv := by
    refine run_inv_of_meets (C := fun _ ev => ev.IsOpen) (fun _ _ _ hI hC hs => ?_) Traffic.inv_start
      (.of_forall hopen) hr
    exact outboxStep_inv hI hC hs
  refine ⟨hinv.reliable, fun e => ⟨(List.sublist_append_left _ _).trans (hinv.inOrder e), fun m hm => ?_⟩⟩
  obtain ⟨m', hsame, hlast⟩ := hinv.latest e m hm
  refine ⟨m', hsame, ?_⟩
  rw [Traffic.stream, List.getLast?_append] at hlast
  cases hq : (t.outbox.queued e).getLast? with
  | none =>
    rw [hq] at hlast
    exact .inl ⟨hlast, List.getLast?_eq_none_iff.1 hq⟩
  | some n =>
    rw [hq] at hlast
    exact .inr hlast

end

def wolf : EntityId := ⟨101⟩

def guard : EntityId := ⟨7⟩

/-- A step of an entity, at a time. -/
def stepAt (e : EntityId) (ts : Nat) : MovementEvent := ⟨e, .move, 0, 0, ⟨0, 0⟩, ts, 80⟩

/-- The channel is full behind a first chat and again behind the guard; the wolf's step is pushed twice. -/
def backpressureEvents : List OutboxEvent :=
  [.pushReliable (.other .chat), .pushReliable (.entitySpawn ⟨wolf, 0, ⟨0, 0⟩⟩),
   .setLatestMovementWithPriority (stepAt guard 1000) true, .pushRemoteMovement (stepAt wolf 1000),
   .flush [guard] [.ok],
   .setLatestMovementWithPriority (stepAt guard 2000) true, .pushRemoteMovement (stepAt wolf 1000),
   .flush [guard] [.ok, .ok, .full]]

theorem outbox_delivery_backpressure :
    ∃ t, run outboxStep .start backpressureEvents = some t ∧ movements t.delivered = [stepAt guard 2000] ∧
      t.outbox.queued wolf = [stepAt wolf 1000] ∧
      reliables t.delivered ++ t.outbox.events = [.other .chat, .entitySpawn ⟨wolf, 0, ⟨0, 0⟩⟩] := by
  have hrun : (run outboxStep .start backpressureEvents).map (fun t =>
      (movements t.delivered, t.outbox.queued wolf, reliables t.pushed)) =
      some ([stepAt guard 2000], [stepAt wolf 1000], [.other .chat, .entitySpawn ⟨wolf, 0, ⟨0, 0⟩⟩]) := by
        decide +kernel
  obtain ⟨t, ht, hp⟩ := Option.map_eq_some_iff.1 hrun
  simp only [Prod.mk.injEq] at hp
  exact ⟨t, ht, hp.1, hp.2.1, hp.2.2 ▸ (outbox_delivery (by decide) ht).1⟩

end Zohar.Replication
