/-
The order in which one player's snapshots reach the database. Requests are numbered in the order in which they
arrive for their player; the number travels with the snapshot. A player never has two operations in flight, and
the numbers that are dispatched for it never go back, whatever is coalesced, retried or pre-empted on the way.
-/
import Zohar.Persistence.Worker
import Mathlib.Tactic

namespace Zohar.Persistence

open Zohar.Lib

structure Numbered where
  worker : Worker
  /-- How many requests have arrived for a player. -/
  arrivals : PlayerId → Nat
  /-- Player and number of every snapshot dispatched, in order. -/
  dispatched : List (PlayerId × Nat)

def Numbered.start : Numbered := ⟨.new, fun _ => 0, []⟩

def PlayerPersistenceRequest.withStamp (n : Nat) : PlayerPersistenceRequest → PlayerPersistenceRequest
  | .saveSnapshot save => .saveSnapshot { save with snapshot := { save.snapshot with stamp := n } }
  | .commitPlayerExit exit => .commitPlayerExit { exit with snapshot := { exit.snapshot with stamp := n } }

/-- The number a request arrives with; the other events have none. -/
def Numbered.number (s : Numbered) : WorkerEvent → WorkerEvent
  | .recv request => .recv (request.withStamp (s.arrivals request.playerId + 1))
  | ev => ev

def Numbered.arrive (s : Numbered) : WorkerEvent → PlayerId → Nat
  | .recv request => Function.update s.arrivals request.playerId (s.arrivals request.playerId + 1)
  | _ => s.arrivals

/-- The tasks that an event adds are those it dispatches. -/
def orderStep (s : Numbered) (ev : WorkerEvent) : Option Numbered :=
  (workerStep s.worker (s.number ev)).map fun w =>
    { worker := w
      arrivals := s.arrive ev
      dispatched := s.dispatched ++
        (w.inFlight.drop s.worker.inFlight.length).map fun t => (t.op.playerId, t.op.kind.snapshot.stamp) }

/-- The numbers dispatched for a player, in order. -/
def Numbered.dispatchedFor (s : Numbered) (id : PlayerId) : List Nat :=
  (s.dispatched.filter fun d => d.1 = id).map Prod.snd

/-! ## The invariant of a player -/

/-- Pending numbers, and those in flight, lie between the last one dispatched and the last one that arrived. -/
structure OrderOk (arrived : Nat) (ds : List Nat) (l : Lane) (ts : List Task) : Prop where
  lane : LaneOk l ts
  save : ∀ s ∈ l.pendingSave, (∀ d ∈ ds, d ≤ s.snapshot.stamp) ∧ s.snapshot.stamp ≤ arrived
  exit : ∀ e ∈ l.pendingExit, (∀ d ∈ ds, d ≤ e.snapshot.stamp) ∧ e.snapshot.stamp ≤ arrived
  task : ∀ t ∈ ts, (∀ d ∈ ds, d ≤ t.op.kind.snapshot.stamp) ∧ t.op.kind.snapshot.stamp ≤ arrived
  sorted : ds.Pairwise (· ≤ ·)
  bounded : ∀ d ∈ ds, d ≤ arrived

theorem OrderOk.initial : OrderOk 0 [] {} [] :=
  ⟨⟨fun _ => rfl, .inl rfl⟩, by rintro _ ⟨⟩, by rintro _ ⟨⟩, by rintro _ ⟨⟩, .nil, by rintro _ ⟨⟩⟩

section
variable {arrived : Nat} {ds : List Nat} {l l' : Lane} {ts ts' : List Task}

theorem OrderOk.arrive (h : OrderOk arrived ds l ts) : OrderOk (arrived + 1) ds l ts :=
  ⟨h.lane, fun s hs => ⟨(h.save s hs).1, Nat.le_succ_of_le (h.save s hs).2⟩,
    fun e he => ⟨(h.exit e he).1, Nat.le_succ_of_le (h.exit e he).2⟩,
    fun t ht => ⟨(h.task t ht).1, Nat.le_succ_of_le (h.task t ht).2⟩, h.sorted,
    fun d hd => Nat.le_succ_of_le (h.bounded d hd)⟩

theorem OrderOk.queueSave (h : OrderOk arrived ds l ts) {save : PendingSave} (hn : save.snapshot.stamp = arrived + 1) :
    OrderOk (arrived + 1) ds (l.queueSave save).1 ts := by
  have h' := h.arrive
  -- without a pending exit the newest snapshot is the one that stays
  have hstamp : (∀ d ∈ ds, d ≤ save.snapshot.stamp) ∧ save.snapshot.stamp ≤ arrived + 1 := by
    rw [hn]
    exact ⟨h'.bounded, le_refl _⟩
  refine ⟨h.lane.queueSave save, ?_, ?_, h'.task, h.sorted, h'.bounded⟩
  · unfold Lane.queueSave
    split
    · exact h'.save
    · split
      · split
        · split <;> rintro _ ⟨⟩ <;> exact hstamp
        · rintro _ ⟨⟩
          exact hstamp
      · rintro _ ⟨⟩
        exact hstamp
  · unfold Lane.queueSave
    split
    · exact h'.exit
    · split
      · split
        · split <;> exact h'.exit
        · exact h'.exit
      · exact h'.exit

theorem OrderOk.queueExit (h : OrderOk arrived ds l ts) {exit : PendingExit} (hn : exit.snapshot.stamp = arrived + 1) :
    OrderOk (arrived + 1) ds (l.queueExit exit).1 ts := by
  refine ⟨⟨fun _ => rfl, h.lane.single⟩, by rintro _ ⟨⟩, ?_, h.arrive.task, h.sorted, h.arrive.bounded⟩
  rintro _ ⟨⟩
  rw [hn]
  exact ⟨h.arrive.bounded, le_refl _⟩

theorem OrderOk.dispatched (h : OrderOk arrived ds l ts) {op : DispatchOp} (hidle : l.inFlight = false)
    (hnext : l.nextDispatch = some (op, l')) (hlane : LaneOk { l' with inFlight := true } (ts ++ [⟨op, none⟩])) :
    OrderOk arrived (ds ++ [op.kind.snapshot.stamp]) { l' with inFlight := true } (ts ++ [⟨op, none⟩]) := by
  obtain ⟨hsave, hexit⟩ := h.lane.nextDispatch hnext
  obtain rfl := h.lane.idle hidle
  -- whatever is dispatched is at least the last one
  have hop : (∀ d ∈ ds, d ≤ op.kind.snapshot.stamp) ∧ op.kind.snapshot.stamp ≤ arrived := by
    unfold Lane.nextDispatch at hnext
    split at hnext
    · rename_i e he
      cases hnext
      exact h.exit e he
    · obtain ⟨s, hs, heq⟩ := Option.map_eq_some_iff.1 hnext
      cases heq
      exact h.save s hs
  refine ⟨hlane, by simp [hsave], by simp [hexit], ?_, ?_, ?_⟩
  · intro t ht
    cases List.mem_singleton.1 ht
    refine ⟨fun d hd => ?_, hop.2⟩
    rcases List.mem_append.1 hd with hd | hd
    · exact hop.1 d hd
    · rw [List.mem_singleton.1 hd]
  · rw [List.pairwise_append]
    exact ⟨h.sorted, List.pairwise_singleton _ _, fun a ha b hb => by rw [List.mem_singleton.1 hb]; exact hop.1 a ha⟩
  · intro d hd
    rcases List.mem_append.1 hd with hd | hd
    · exact h.bounded d hd
    · rw [List.mem_singleton.1 hd]
      exact hop.2

theorem OrderOk.complete {t : Task} {a b : List Task} (h : OrderOk arrived ds l (a ++ t :: b))
    (result : PlayerPersistenceResult) (now : Int) :
    OrderOk arrived ds (l.complete t.op.kind result now).1.settle (a ++ b) := by
  have hstamp := h.task t (by simp)
  have hlane := h.lane.complete t.op.kind result now
  obtain ⟨rfl, rfl⟩ := h.lane.alone
  have hdone : (∀ s ∈ (l.complete t.op.kind result now).1.pendingSave,
        (∀ d ∈ ds, d ≤ s.snapshot.stamp) ∧ s.snapshot.stamp ≤ arrived) ∧
      ∀ e ∈ (l.complete t.op.kind result now).1.pendingExit,
        (∀ d ∈ ds, d ≤ e.snapshot.stamp) ∧ e.snapshot.stamp ≤ arrived := by
    unfold Lane.complete
    dsimp only
    split
    · rename_i save hk
      rw [hk] at hstamp
      split
      · split
        · split
          · exact ⟨h.save, h.exit⟩
          · -- the failed autosave is the last snapshot dispatched
            exact ⟨by rintro _ ⟨⟩; exact hstamp, h.exit⟩
        · exact ⟨h.save, h.exit⟩
      · exact ⟨h.save, h.exit⟩
    · exact ⟨h.save, h.exit⟩
  refine ⟨hlane, ?_, ?_, by rintro _ ⟨⟩, h.sorted, h.bounded⟩
  · unfold Lane.settle
    split
    · rintro _ ⟨⟩
    · exact hdone.1
  · unfold Lane.settle
    split
    · rintro _ ⟨⟩
    · exact hdone.2

end

/-! ## Runs -/

/-- Only a dispatch adds tasks, and it adds them at the end. -/
theorem workerStep_newTasks {w w' : Worker} {ev : WorkerEvent} (h : workerStep w ev = some w') (hown : w.Own) :
    (∃ order now new, ev = .dispatch order now ∧ w'.inFlight = w.inFlight ++ new) ∨
      ((∀ order now, ev ≠ .dispatch order now) ∧ w'.inFlight.length ≤ w.inFlight.length) := by
  cases ev with
  | recv request =>
    simp only [workerStep] at h
    split at h
    · cases h
    · cases h
      refine .inr ⟨by simp, ?_⟩
      cases request <;> exact le_refl _
  | recvClosed =>
    simp only [workerStep] at h
    split at h
    · cases h
    · cases h
      exact .inr ⟨by simp, le_refl _⟩
  | dispatch order now =>
    simp only [workerStep] at h
    split at h
    · rename_i hready
      cases h
      obtain ⟨_, _, ⟨new, hnew⟩, _⟩ := w.dispatchReadyOps_spec order (Worker.nodup_of_ready hready)
        (fun id => Worker.inFlight_of_ready hready) fun id => (hown id).lane
      exact .inl ⟨order, now, new, rfl, hnew⟩
    · cases h
  | finish i result =>
    obtain ⟨t, ht, h⟩ := Option.bind_eq_some_iff.1 h
    split at h
    · cases h
      exact .inr ⟨by simp, by simp⟩
    · cases h
  | joinNext i now =>
    obtain ⟨t, ht, h⟩ := Option.bind_eq_some_iff.1 h
    obtain ⟨r, hr, rfl⟩ := Option.map_eq_some_iff.1 h
    refine .inr ⟨by simp, ?_⟩
    unfold Worker.handleCompletedDispatch
    split <;> exact List.length_eraseIdx_le ..
  | joinError i =>
    obtain ⟨t, ht, h⟩ := Option.bind_eq_some_iff.1 h
    split at h
    · cases h
      exact .inr ⟨by simp, List.length_eraseIdx_le ..⟩
    · cases h

theorem dispatchedFor_append (s : Numbered) (w : Worker) (arrivals : PlayerId → Nat) (new : List Task) (id : PlayerId) :
    (Numbered.mk w arrivals (s.dispatched ++ new.map fun t => (t.op.playerId, t.op.kind.snapshot.stamp))).dispatchedFor
        id =
      s.dispatchedFor id ++ (new.filter fun t => t.op.playerId = id).map fun t => t.op.kind.snapshot.stamp := by
  simp only [Numbered.dispatchedFor, List.filter_append, List.map_append, List.filter_map, List.map_map]
  rfl

/-- The invariant of the whole worker. -/
structure NumberedOk (s : Numbered) : Prop where
  own : s.worker.Own
  player : ∀ id, OrderOk (s.arrivals id) (s.dispatchedFor id) (s.worker.lane id) (s.worker.tasks id)

/-- One event, seen from one player: `added` are the tasks dispatched for it. -/
theorem LaneStep.orderOk {set : List Task} {id : PlayerId} {s : Numbered} {ev : WorkerEvent} {l l' : Lane}
    {ts ts' added : List Task} {rs : List (Reply × Option PlayerPersistenceResult)}
    (h : LaneStep set id (s.number ev) l ts l' ts' rs)
    (hdispatch : (∃ order now, ev = .dispatch order now) → ts' = ts ++ added)
    (hother : (∀ order now, ev ≠ .dispatch order now) → added = [])
    (hok : OrderOk (s.arrivals id) (s.dispatchedFor id) l ts) :
    OrderOk (s.arrive ev id) (s.dispatchedFor id ++ added.map fun t => t.op.kind.snapshot.stamp) l' ts' := by
  have hlane := h.laneOk hok.lane
  cases ev with
  | recv request =>
    rw [hother (by simp), List.map_nil, List.append_nil]
    have hkept : OrderOk (s.arrive (.recv request) id) (s.dispatchedFor id) l ts := by
      simp only [Numbered.arrive]
      by_cases hid : id = request.playerId
      · subst hid
        rw [Function.update_self]
        exact hok.arrive
      · rw [Function.update_of_ne hid]
        exact hok
    cases request with
    | saveSnapshot save =>
      cases h with
      | kept => exact hkept
      | save hid =>
        obtain rfl : save.snapshot.playerId = id := hid
        simp only [Numbered.arrive, PlayerPersistenceRequest.playerId, PlayerPersistenceRequest.snapshot,
          Function.update_self]
        exact hok.queueSave rfl
    | commitPlayerExit exit =>
      cases h with
      | kept => exact hkept
      | exit hid =>
        obtain rfl : exit.snapshot.playerId = id := hid
        simp only [Numbered.arrive, PlayerPersistenceRequest.playerId, PlayerPersistenceRequest.snapshot,
          Function.update_self]
        exact hok.queueExit rfl
  | recvClosed =>
    rw [hother (by simp), List.map_nil, List.append_nil]
    cases h
    exact hok
  | dispatch order now =>
    have hadd := hdispatch ⟨order, now, rfl⟩
    cases h with
    | kept =>
      obtain rfl : added = [] := by simpa using hadd
      rw [List.map_nil, List.append_nil]
      exact hok
    | dispatched hidle hnext =>
      obtain rfl := List.append_cancel_left hadd
      exact hok.dispatched hidle hnext hlane
  | finish i result =>
    rw [hother (by simp), List.map_nil, List.append_nil]
    cases h with
    | kept => exact hok
    | @finished _ _ _ a b t _ _ =>
      refine ⟨hlane, hok.save, hok.exit, ?_, hok.sorted, hok.bounded⟩
      obtain ⟨rfl, rfl⟩ := hok.lane.alone
      intro u hu
      cases List.mem_singleton.1 hu
      exact hok.task t (by simp)
  | joinNext i now =>
    rw [hother (by simp), List.map_nil, List.append_nil]
    cases h with
    | kept => exact hok
    | joined _ _ _ => exact hok.complete _ _
    | orphaned t => cases hok.lane.busy
  | joinError i =>
    rw [hother (by simp), List.map_nil, List.append_nil]
    cases h with
    | kept => exact hok
    | panicked _ _ _ =>
      refine ⟨hlane, hok.save, hok.exit, ?_, hok.sorted, hok.bounded⟩
      obtain ⟨rfl, rfl⟩ := hok.lane.alone
      rintro _ ⟨⟩

theorem orderStep_ok (s : Numbered) (ev : WorkerEvent) (s' : Numbered) (hok : NumberedOk s)
    (h : orderStep s ev = some s') : NumberedOk s' := by
  obtain ⟨w, hw, rfl⟩ := Option.map_eq_some_iff.1 h
  refine ⟨workerStep_own hw hok.own, fun id => ?_⟩
  obtain ⟨p, rs, _, hp, hrest⟩ := workerStep_spec hw hok.own
  have hlane : ∃ rs', LaneStep s.worker.inFlight id (s.number ev) (s.worker.lane id) (s.worker.tasks id) (w.lane id)
      (w.tasks id) rs' := by
    by_cases hid : id = p
    · subst hid
      exact ⟨rs, hp⟩
    · exact ⟨[], hrest id hid⟩
  obtain ⟨rs', hlane⟩ := hlane
  rw [dispatchedFor_append]
  have hnum : ∀ order now, s.number ev = .dispatch order now ↔ ev = .dispatch order now := by
    intro order now
    cases ev <;> simp [Numbered.number]
  refine hlane.orderOk ?_ ?_ (hok.player id)
  · rintro ⟨order, now, rfl⟩
    rcases workerStep_newTasks hw hok.own with ⟨_, _, new, _, hnew⟩ | ⟨hno, _⟩
    · simp [Worker.tasks, hnew]
    · exact absurd rfl (hno order now)
  · intro hno
    rcases workerStep_newTasks hw hok.own with ⟨order, now, _, hd, _⟩ | ⟨_, hle⟩
    · exact absurd ((hnum order now).1 hd) (hno order now)
    · rw [List.drop_eq_nil_of_le hle, List.filter_nil]

/-- In every run of the worker a player has at most one operation in flight, and the arrival numbers of the
snapshots dispatched for it do not decrease. -/
theorem dispatch_order {events : List WorkerEvent} {s : Numbered} (hrun : run orderStep .start events = some s)
    (id : PlayerId) :
    (s.worker.tasks id).length ≤ 1 ∧ (s.dispatchedFor id).Pairwise (· ≤ ·) := by
  have hok : NumberedOk s := run_inv orderStep_ok ⟨Worker.own_new, fun _ => .initial⟩ hrun
  refine ⟨?_, (hok.player id).sorted⟩
  rcases (hok.player id).lane.single with hs | ⟨t, hs, _⟩ <;> rw [hs]
  · exact Nat.zero_le _
  · exact le_refl _

/-- An autosave fails while the next one is in the queue, and again with nothing behind it. -/
def retryEvents : List WorkerEvent :=
  let snapshot : Stamped :=
    ⟨0, ⟨⟨1⟩, .initial, "metin2_map_c1", ⟨0, 0⟩, ⟨0⟩, none, none, none⟩, ⟨1, 0, ⟨0, 0, 0, 0⟩, 0⟩⟩
  [.recv (.saveSnapshot ⟨snapshot, .autosave, none⟩), .dispatch [⟨1⟩] 0,
   .recv (.saveSnapshot ⟨snapshot, .autosave, none⟩), .finish 0 (.error "save player snapshot"), .joinNext 0 1,
   .dispatch [⟨1⟩] 2, .finish 0 (.error "save player snapshot"), .joinNext 0 3, .dispatch [] 4,
   .dispatch [⟨1⟩] 1000000003]

theorem dispatch_order_retryEvents :
    ∃ s, run orderStep .start retryEvents = some s ∧ s.dispatchedFor ⟨1⟩ = [1, 2, 2] ∧
      (s.worker.tasks ⟨1⟩).length ≤ 1 := by
  obtain ⟨s, hs, hd⟩ : ∃ s, run orderStep .start retryEvents = some s ∧ s.dispatchedFor ⟨1⟩ = [1, 2, 2] :=
    ⟨_, rfl, by decide⟩
  exact ⟨s, hs, hd, (dispatch_order hs ⟨1⟩).1⟩

end Zohar.Persistence
