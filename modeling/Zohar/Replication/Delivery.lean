/-
In which order a client hears of one entity. The reliable events and the two movement lanes of an outbox are queues of
their own that a flush drains one after the other, and the receiver may make room between two attempts.
-/
import Zohar.Replication.Outbox

namespace Zohar.Replication

open Zohar.Lib

/-- The events that show, move or remove the entity. -/
def about (e : EntityId) (items : List Item) : List PlayerEvent :=
  (items.map Item.event).filter fun event => event.subject = some e

/-- The reliable ones among them that still wait. -/
def PlayerOutbox.waiting (o : PlayerOutbox) (e : EntityId) : List PlayerEvent :=
  o.events.filter fun event => event.subject = some e

/-- How many items the channel takes before it does not take one. -/
def oks (answers : List TrySend) : Nat := (answers.takeWhile fun a => a = .ok).length

/-- No event of the entity is overtaken: a reliable one is pushed while none of its movements waits, and a flush that
is stopped in front of a reliable one finds no room for a movement of it afterwards. -/
def KeepsOrder (e : EntityId) (t : Traffic) : OutboxEvent → Prop
  | .pushReliable event => event.subject = some e → t.outbox.queued e = []
  | .flush order answers =>
    (∃ event ∈ t.outbox.events.drop (oks answers), event.subject = some e) →
      ∀ m ∈ (t.outbox.lanes order).take (oks (answers.drop (oks answers + 1))), m.entityId ≠ e
  | .setLatestMovementWithPriority _ _ | .pushRemoteMovement _ => True

instance (e : EntityId) (t : Traffic) (ev : OutboxEvent) : Decidable (KeepsOrder e t ev) :=
  match ev with
  | .pushReliable event => inferInstanceAs (Decidable (event.subject = some e → t.outbox.queued e = []))
  | .flush order answers => inferInstanceAs (Decidable
      ((∃ event ∈ t.outbox.events.drop (oks answers), event.subject = some e) →
        ∀ m ∈ (t.outbox.lanes order).take (oks (answers.drop (oks answers + 1))), m.entityId ≠ e))
  | .setLatestMovementWithPriority _ _ | .pushRemoteMovement _ => .isTrue trivial

/-! ## The stages by the answers -/

section
variable {α : Type}

theorem sendAll_taken (xs : List α) (answers : List TrySend) : (sendAll xs answers).taken = xs.take (oks answers) := by
  induction xs, answers using sendAll.induct with
  | case1 => simp [sendAll]
  | case2 x xs answers ih =>
    rw [show oks (.ok :: answers) = oks answers + 1 by simp [oks], List.take_succ_cons, ← ih]
    rfl
  | case3 => rfl
  | case4 => rfl
  | case5 => rfl

theorem sendAll_left (xs : List α) (answers : List TrySend) : (sendAll xs answers).left = xs.drop (oks answers) := by
  have h := sendAll_append xs answers
  rw [sendAll_taken] at h
  exact List.append_cancel_left (h.trans (List.take_append_drop ..).symm)

/-- A stage that leaves something has used one answer more than the channel took items. -/
theorem sendAll_answers {xs : List α} {answers : List TrySend} (h : (sendAll xs answers).left ≠ []) :
    (sendAll xs answers).answers = answers.drop (oks answers + 1) := by
  induction xs, answers using sendAll.induct with
  | case1 => exact absurd rfl h
  | case2 x xs answers ih =>
    rw [show oks (.ok :: answers) = oks answers + 1 by simp [oks], List.drop_succ_cons, ← ih h]
    rfl
  | case3 => rfl
  | case4 => rfl
  | case5 => rfl

end

/-! ## What holds along a run -/

section
variable {e : EntityId}

@[simp] theorem about_append (is js : List Item) : about e (is ++ js) = about e is ++ about e js := by
  simp [about]

theorem about_reliable (events : List PlayerEvent) :
    about e (events.map .reliable) = events.filter fun event => event.subject = some e := by
  simp [about, List.map_map, Function.comp_def, Item.event]

theorem about_movement (ms : List MovementEvent) : about e (ms.map .movement) = (ofEntity e ms).map .entityMove := by
  simp only [about, ofEntity, List.map_map, Function.comp_def, Item.event, List.filter_map]
  congr 1
  refine List.filter_congr fun m _ => ?_
  simp [PlayerEvent.subject]

/-- What was delivered of an entity, then what waits of it, comes in the order of the pushes. -/
structure InOrder (e : EntityId) (t : Traffic) : Prop where
  keyed : t.outbox.Keyed
  sublist : (about e t.delivered ++ t.outbox.waiting e ++ (t.outbox.queued e).map PlayerEvent.entityMove).Sublist
    (about e t.pushed)

variable {t : Traffic} {o' : PlayerOutbox}

theorem InOrder.accept (h : InOrder e t) {m : MovementEvent} (ha : Accepted t.outbox m o') :
    InOrder e { t with outbox := o', pushed := t.pushed ++ [.movement m] } := by
  have hwaiting : o'.waiting e = t.outbox.waiting e := by rw [PlayerOutbox.waiting, ha.events]; rfl
  refine ⟨ha.keyed, ?_⟩
  dsimp only
  rw [about_append, show about e [.movement m] = (ofEntity e [m]).map .entityMove from about_movement [m],
    ofEntity_singleton,
    hwaiting]
  by_cases he : e = m.entityId
  · subst he
    obtain ⟨q, hq, hown⟩ := ha.own
    have hsub := ((List.Sublist.refl (about m.entityId t.delivered ++ t.outbox.waiting m.entityId)).append
      (hq.map PlayerEvent.entityMove)).trans h.sublist
    rw [if_pos rfl]
    rcases hown with hown | ⟨hown, _⟩
    · rw [hown, List.map_append, ← List.append_assoc]
      exact hsub.append (List.Sublist.refl _)
    · rw [hown]
      exact hsub.trans (List.sublist_append_left _ _)
  · rw [if_neg (Ne.symm he), List.map_nil, List.append_nil, ha.others e he]
    exact h.sublist

/-- One of the two is empty: the reliable events that the flush leaves, or the movements that it sends. -/
theorem KeepsOrder.flush {order : List EntityId} {answers : List TrySend} (hk : KeepsOrder e t (.flush order answers)) :
    (sendAll t.outbox.events answers).left.filter (fun event => event.subject = some e) = [] ∨
      ofEntity e (sendAll (t.outbox.lanes order) (sendAll t.outbox.events answers).answers).taken = [] := by
  by_cases hleft : (sendAll t.outbox.events answers).left.filter (fun event => event.subject = some e) = []
  · exact .inl hleft
  · refine .inr (List.filter_eq_nil_iff.2 fun m hm => ?_)
    obtain ⟨event, hevent⟩ := List.exists_mem_of_ne_nil _ hleft
    obtain ⟨hmem, hsubject⟩ := List.mem_filter.1 hevent
    rw [sendAll_taken, sendAll_answers (List.ne_nil_of_mem hmem)] at hm
    rw [sendAll_left] at hmem
    simpa using hk ⟨event, hmem, by simpa using hsubject⟩ m hm

theorem InOrder.flush (h : InOrder e t) {order : List EntityId} {answers : List TrySend} {items : List Item}
    (ho : order.Perm t.outbox.movementLatestPlayer.keys) (hk : KeepsOrder e t (.flush order answers))
    (hf : Flushed t.outbox order answers items o') :
    InOrder e { t with outbox := o', delivered := t.delivered ++ items } := by
  refine ⟨hf.keyed, ?_⟩
  have hwaiting : t.outbox.waiting e = (sendAll t.outbox.events answers).taken.filter
    (fun event => event.subject = some e) ++
      (sendAll t.outbox.events answers).left.filter (fun event => event.subject = some e) := by
    rw [← List.filter_append, sendAll_append]
    rfl
  have hqueued : t.outbox.queued e =
      ofEntity e (sendAll (t.outbox.lanes order) (sendAll t.outbox.events answers).answers).taken ++ o'.queued e := by
    rw [hf.queued, ← ofEntity_append, sendAll_append, lanes_ofEntity h.keyed ho]
  have hsub := h.sublist
  rw [hwaiting, hqueued] at hsub
  dsimp only
  rw [hf.items, about_append, about_append, about_reliable, about_movement,
    show o'.waiting e = (sendAll t.outbox.events answers).left.filter (fun event => event.subject = some e) by
      rw [PlayerOutbox.waiting, hf.events]]
  rcases hk.flush with hnone | hnone
  · simpa [hnone] using hsub
  · simpa [hnone] using hsub

theorem outboxStep_inOrder {t' : Traffic} {ev : OutboxEvent} (h : InOrder e t) (hopen : ev.IsOpen)
    (hk : KeepsOrder e t ev) (hs : outboxStep t ev = some t') : InOrder e t' := by
  cases ev with
  | pushReliable event =>
    cases hs
    refine ⟨h.keyed, ?_⟩
    have hpushed : about e (t.pushed ++ [.reliable event]) = about e t.pushed ++ [event].filter fun event =>
        event.subject = some e :=
      (about_append ..).trans (congrArg _ (about_reliable [event]))
    have hwaiting : (t.outbox.pushReliable event).waiting e =
        t.outbox.waiting e ++ [event].filter fun event => event.subject = some e := List.filter_append ..
    dsimp only
    rw [hpushed, hwaiting, show (t.outbox.pushReliable event).queued e = t.outbox.queued e from rfl]
    by_cases he : event.subject = some e
    · have hsub := h.sublist
      rw [hk he] at hsub ⊢
      simpa [he] using hsub.append (List.Sublist.refl [event])
    · simpa [he] using h.sublist
  | setLatestMovementWithPriority m prioritize =>
    cases hs
    exact h.accept (setLatestMovementWithPriority_accepted h.keyed m prioritize)
  | pushRemoteMovement m =>
    cases hs
    exact h.accept (pushRemoteMovementUpdate_accepted h.keyed m)
  | flush order answers =>
    simp only [outboxStep] at hs
    split at hs
    · rename_i ho
      cases hs
      exact h.flush ho hk (flush_spec h.keyed ho hopen)
    · cases hs

/-- In every sequence of calls of which none lets an event of the entity be overtaken, the client hears of the entity
in the order of the pushes. -/
theorem entity_order {es : List OutboxEvent} (hopen : ∀ ev ∈ es, ev.IsOpen)
    (hmeets : Meets outboxStep (KeepsOrder e) .start es) (hr : run outboxStep .start es = some t) :
    (about e t.delivered).Sublist (about e t.pushed) := by
  have hinv : InOrder e t := by
    refine run_inv_of_meets (C := fun t ev => ev.IsOpen ∧ KeepsOrder e t ev) (fun _ _ _ hI hC hs => ?_)
      ⟨keyed_new, List.Sublist.refl _⟩ ((Meets.of_forall hopen).and hmeets) hr
    exact outboxStep_inOrder hI hC.1 hC.2 hs
  calc (about e t.delivered).Sublist (about e t.delivered ++ t.outbox.waiting e) := List.sublist_append_left _ _
    List.Sublist _ (about e t.delivered ++ t.outbox.waiting e ++ _) := List.sublist_append_left _ _
    List.Sublist _ (about e t.pushed) := hinv.sublist

end

/-! ## The runs -/

def wolfSnapshot : EntitySnapshot := ⟨wolf, 0, ⟨0, 0⟩⟩

/-- The wolf appears, walks while the channel is full, and disappears when its last step is out. -/
def wolfPassesEvents : List OutboxEvent :=
  [.pushReliable (.entitySpawn wolfSnapshot), .pushRemoteMovement (stepAt wolf 1000), .flush [] [.full, .full],
   .pushRemoteMovement (stepAt wolf 2000), .flush [] [.ok, .ok, .full], .flush [] [.ok],
   .pushReliable (.entityDespawn wolf), .flush [] [.ok]]

theorem entity_order_wolfPasses :
    ∃ t, run outboxStep .start wolfPassesEvents = some t ∧ about wolf t.delivered = about wolf t.pushed ∧
      (about wolf t.delivered).Sublist (about wolf t.pushed) := by
  have hmeets : Meets outboxStep (KeepsOrder wolf) .start wolfPassesEvents := by decide +kernel
  have hrun : (run outboxStep .start wolfPassesEvents).map
    (fun t => decide (about wolf t.delivered = about wolf t.pushed)) =
      some true := by decide +kernel
  obtain ⟨t, ht, hp⟩ := Option.map_eq_some_iff.1 hrun
  exact ⟨t, ht, of_decide_eq_true hp, entity_order (by decide) hmeets ht⟩

/-- The channel is full for the spawn and has room for the step that was pushed after it. -/
def stepFirstEvents : List OutboxEvent :=
  [.pushReliable (.entitySpawn wolfSnapshot), .pushRemoteMovement (stepAt wolf 1000), .flush [] [.full, .ok],
    .flush [] [.ok]]

/-- The despawn is pushed behind a step that still waits, and the channel has room for both. -/
def stepLastEvents : List OutboxEvent :=
  [.pushRemoteMovement (stepAt wolf 1000), .pushReliable (.entityDespawn wolf), .flush [] [.ok, .ok]]

/-- The client is told of a step of the wolf before the wolf appears, and of one after it has disappeared. -/
theorem entity_order_overtaken :
    (∃ t, run outboxStep .start stepFirstEvents = some t ∧
      about wolf t.pushed = [.entitySpawn wolfSnapshot, .entityMove (stepAt wolf 1000)] ∧
      about wolf t.delivered = [.entityMove (stepAt wolf 1000), .entitySpawn wolfSnapshot] ∧
      ¬ (about wolf t.delivered).Sublist (about wolf t.pushed)) ∧
    ∃ t, run outboxStep .start stepLastEvents = some t ∧
      about wolf t.pushed = [.entityMove (stepAt wolf 1000), .entityDespawn wolf] ∧
      about wolf t.delivered = [.entityDespawn wolf, .entityMove (stepAt wolf 1000)] ∧
      ¬ (about wolf t.delivered).Sublist (about wolf t.pushed) := by
  have hfirst : (run outboxStep .start stepFirstEvents).map (fun t => (about wolf t.pushed, about wolf t.delivered)) =
      some ([.entitySpawn wolfSnapshot, .entityMove (stepAt wolf 1000)],
        [.entityMove (stepAt wolf 1000), .entitySpawn wolfSnapshot]) := by decide +kernel
  have hlast : (run outboxStep .start stepLastEvents).map (fun t => (about wolf t.pushed, about wolf t.delivered)) =
      some ([.entityMove (stepAt wolf 1000), .entityDespawn wolf],
        [.entityDespawn wolf, .entityMove (stepAt wolf 1000)]) := by decide +kernel
  constructor
  · obtain ⟨t, ht, hp⟩ := Option.map_eq_some_iff.1 hfirst
    obtain ⟨hpushed, hdelivered⟩ := Prod.mk.inj hp
    exact ⟨t, ht, hpushed, hdelivered, by rw [hpushed, hdelivered]; decide⟩
  · obtain ⟨t, ht, hp⟩ := Option.map_eq_some_iff.1 hlast
    obtain ⟨hpushed, hdelivered⟩ := Prod.mk.inj hp
    exact ⟨t, ht, hpushed, hdelivered, by rw [hpushed, hdelivered]; decide⟩

end Zohar.Replication
