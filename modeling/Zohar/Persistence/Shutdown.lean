/-
The loop of `run_player_persistence_worker` around the worker's steps, from the first turn to its return. A turn
dispatches what is ready, returns if nothing is left, and otherwise waits in the `select!` for one of three branches:
a request (or the end of the requests), a finished task, or the next retry. The requests come over a channel that its
senders may drop at any moment.
-/
import Zohar.Persistence.Worker

namespace Zohar.Persistence

open Zohar.Lib

/-- The earliest retry of a lane that has nothing in flight and no exit pending. -/
def Worker.nextRetryDeadline (w : Worker) : Option Int :=
  (((w.lanes.values.filter fun lane => !lane.inFlight).filter fun lane => lane.pendingExit.isNone).filterMap
    Lane.retryAt).min?

/-! ## The loop -/

inductive LoopPoint where
  | top | select | returned
  deriving DecidableEq, Repr

structure WorkerLoop where
  worker : Worker
  /-- Requests in the channel, the oldest first. -/
  channel : List PlayerPersistenceRequest
  sendersDropped : Bool
  point : LoopPoint

def WorkerLoop.start : WorkerLoop := ⟨.new, [], false, .top⟩

inductive LoopEvent where
  | send (request : PlayerPersistenceRequest)
  | dropSenders
  /-- The future of a task is done; it waits to be joined. -/
  | finish (i : Nat) (result : PlayerPersistenceResult)
  /-- From the top of the loop to the `select!` or the return. -/
  | turn (order : List PlayerId) (now : Int)
  | recv
  | joinNext (i : Nat) (now : Int)
  | retry

/-- The check after the dispatch. -/
def Worker.finished (w : Worker) : Bool := w.receiverClosed && w.inFlight.isEmpty && w.lanes.keys.isEmpty

def loopStep (s : WorkerLoop) : LoopEvent → Option WorkerLoop
  | .send request => if s.sendersDropped then none else some { s with channel := s.channel ++ [request] }
  | .dropSenders => if s.sendersDropped then none else some { s with sendersDropped := true }
  | .finish i result => (workerStep s.worker (.finish i result)).map fun w => { s with worker := w }
  | .turn order now =>
    if s.point = .top then
      (workerStep s.worker (.dispatch order now)).map fun w =>
        { s with worker := w, point := if w.finished then .returned else .select }
    else none
  | .recv =>
    if s.point = .select then
      match s.channel with
      | request :: rest =>
        (workerStep s.worker (.recv request)).map fun w => { s with worker := w, channel := rest, point := .top }
      | [] =>
        -- the channel is drained before its end is reported
        if s.sendersDropped then (workerStep s.worker .recvClosed).map fun w => { s with worker := w, point := .top }
        else none
    else none
  | .joinNext i now =>
    if s.point = .select then
      (workerStep s.worker (.joinNext i now)).map fun w => { s with worker := w, point := .top }
    else none
  | .retry => if s.point = .select ∧ s.worker.nextRetryDeadline.isSome then some { s with point := .top } else none

/-- Every branch of the `select!` is disabled: the macro panics. -/
def Worker.stuck (w : Worker) : Bool := w.receiverClosed && w.inFlight.isEmpty && w.nextRetryDeadline.isNone

/-! ## Lanes in the map -/

theorem Lane.queueSave_busy (l : Lane) (save : PendingSave) : (l.queueSave save).1.isIdle = false := by
  unfold Lane.queueSave Lane.isIdle
  split
  · rename_i h
    obtain ⟨e, he⟩ := Option.isSome_iff_exists.1 h
    simp [he]
  · split
    · split
      · split <;> simp
      · simp
    · simp

theorem Lane.queueExit_busy (l : Lane) (exit : PendingExit) : (l.queueExit exit).1.isIdle = false := by
  simp [Lane.queueExit, Lane.isIdle]

/-- Every lane that the map keeps has something to do. -/
def Worker.Lively (w : Worker) : Prop := ∀ id lane, w.lanes.get? id = some lane → lane.isIdle = false

theorem lively_insert {lanes : OrdMap PlayerId Lane} {id : PlayerId} {lane : Lane}
    (h : ∀ id lane, lanes.get? id = some lane → lane.isIdle = false) (hl : lane.isIdle = false) :
    ∀ id' lane', (lanes.insert id lane).get? id' = some lane' → lane'.isIdle = false := by
  intro id' lane' hget
  rw [OrdMap.get?_insert] at hget
  split at hget
  · cases hget; exact hl
  · exact h id' lane' hget

theorem lively_erase {lanes : OrdMap PlayerId Lane} {id : PlayerId}
    (h : ∀ id lane, lanes.get? id = some lane → lane.isIdle = false) :
    ∀ id' lane', (lanes.erase id).get? id' = some lane' → lane'.isIdle = false := by
  intro id' lane' hget
  exact h id' lane' (OrdMap.get?_erase_eq_some_iff.1 hget).2

namespace Worker

theorem Lively.handleRequest {w : Worker} (h : w.Lively) (request : PlayerPersistenceRequest) :
    (w.handleRequest request).Lively := by
  cases request with
  | saveSnapshot save => exact lively_insert h (Lane.queueSave_busy _ _)
  | commitPlayerExit exit => exact lively_insert h (Lane.queueExit_busy _ _)

theorem Lively.dispatchOne {w : Worker} (h : w.Lively) (id : PlayerId) : (w.dispatchOne id).Lively := by
  unfold Worker.dispatchOne
  split
  · exact h
  · split
    · exact h
    · apply lively_insert h
      simp [Lane.isIdle]

theorem Lively.dispatchReadyOps : ∀ (order : List PlayerId) {w : Worker}, w.Lively → (w.dispatchReadyOps order).Lively
  | [], _, h => h
  | id :: order, w, h => by
    unfold Worker.dispatchReadyOps
    split
    · exact h
    · exact dispatchReadyOps order (h.dispatchOne id)

theorem Lively.handleCompletedDispatch {w : Worker} (h : w.Lively) (op : DispatchOp) (result : PlayerPersistenceResult)
    (now : Int) : (w.handleCompletedDispatch op result now).Lively := by
  unfold Worker.handleCompletedDispatch
  split
  · exact h
  · rename_i lane _
    dsimp only
    by_cases hidle : (lane.complete op.kind result now).1.isIdle = true
    · intro id' lane' hget
      rw [if_pos hidle] at hget
      exact lively_erase h id' lane' hget
    · intro id' lane' hget
      rw [if_neg hidle] at hget
      exact lively_insert h (Bool.eq_false_iff.2 hidle) id' lane' hget

theorem Lively.step {w w' : Worker} {ev : WorkerEvent} (h : w.Lively) (hs : workerStep w ev = some w') : w'.Lively := by
  cases ev with
  | recv request =>
    simp only [workerStep] at hs
    split at hs
    · cases hs
    · cases hs; exact h.handleRequest request
  | recvClosed =>
    simp only [workerStep] at hs
    split at hs
    · cases hs
    · cases hs; exact h
  | dispatch order now =>
    simp only [workerStep] at hs
    split at hs
    · cases hs; exact h.dispatchReadyOps order
    · cases hs
  | finish i result =>
    obtain ⟨t, _, hs⟩ := Option.bind_eq_some_iff.1 hs
    split at hs
    · cases hs; exact h
    · cases hs
  | joinNext i now =>
    obtain ⟨t, _, hs⟩ := Option.bind_eq_some_iff.1 hs
    obtain ⟨r, _, rfl⟩ := Option.map_eq_some_iff.1 hs
    have h' : Lively { w with inFlight := w.inFlight.eraseIdx i } := h
    exact h'.handleCompletedDispatch t.op r now
  | joinError i =>
    obtain ⟨t, _, hs⟩ := Option.bind_eq_some_iff.1 hs
    split at hs
    · cases hs; exact h
    · cases hs

end Worker

/-! ## Lanes in flight -/

theorem Lane.queueSave_inFlight (l : Lane) (save : PendingSave) : (l.queueSave save).1.inFlight = l.inFlight := by
  unfold Lane.queueSave
  split
  · rfl
  · split
    · split
      · split <;> rfl
      · rfl
    · rfl

theorem Lane.complete_settle_inFlight (l : Lane) (kind : DispatchKind) (result : PlayerPersistenceResult) (now : Int) :
    (l.complete kind result now).1.settle.inFlight = false := by
  have h : (l.complete kind result now).1.inFlight = false := by
    unfold Lane.complete
    dsimp only
    repeat' split
    all_goals rfl
  unfold Lane.settle
  split
  · rfl
  · exact h

/-- As long as no task panics, a lane in flight has a task. -/
theorem LaneStep.served {set : List Task} {id : PlayerId} {ev : WorkerEvent} {l l' : Lane} {ts ts' : List Task}
    {rs : List (Reply × Option PlayerPersistenceResult)} (h : LaneStep set id ev l ts l' ts' rs)
    (hev : ∀ i, ev ≠ .joinError i) (hs : l.inFlight = true → ts ≠ []) : l'.inFlight = true → ts' ≠ [] := by
  cases h with
  | kept => exact hs
  | save _ => rw [Lane.queueSave_inFlight]; exact hs
  | exit _ => exact hs
  | dispatched _ _ => intro _; simp
  | finished _ _ _ => intro _; simp
  | joined _ _ _ =>
    rw [Lane.complete_settle_inFlight]
    intro h
    cases h
  | orphaned _ =>
    intro h
    cases h
  | panicked _ _ _ => exact absurd rfl (hev _)

/-- A lane that is not idle and not ready waits for its retry, or is in flight. -/
theorem Lane.waits {l : Lane} {now : Int} (hidle : l.isIdle = false) (hready : l.readyPriority now = none)
    (hflight : l.inFlight = false) : l.pendingExit = none ∧ ∃ t, l.retryAt = some t := by
  unfold Lane.readyPriority at hready
  rw [hflight, if_neg Bool.false_ne_true] at hready
  cases hexit : l.pendingExit with
  | some e => rw [hexit] at hready; cases hready
  | none =>
    rw [hexit, if_neg (by simp)] at hready
    refine ⟨rfl, ?_⟩
    cases hsave : l.pendingSave with
    | none => simp [Lane.isIdle, hflight, hexit, hsave] at hidle
    | some save =>
      rw [hsave] at hready
      dsimp only at hready
      split at hready
      · cases hready
      · split at hready
        · rename_i hretry
          cases hat : l.retryAt with
          | none => rw [hat] at hretry; cases hretry
          | some t => exact ⟨t, rfl⟩
        · cases hready

theorem Lane.nextDispatch_of_ready {l : Lane} {now : Int} (h : (l.readyPriority now).isSome) :
    l.nextDispatch ≠ none := by
  unfold Lane.readyPriority at h
  unfold Lane.nextDispatch
  split at h
  · cases h
  · split at h
    · rename_i hexit
      obtain ⟨e, he⟩ := Option.isSome_iff_exists.1 hexit
      simp [he]
    · cases hexit : l.pendingExit with
      | some e => simp
      | none =>
        cases hsave : l.pendingSave with
        | none => rw [hsave] at h; cases h
        | some save => simp

namespace Worker

/-- Every lane in flight has a task. -/
def Served (w : Worker) : Prop := ∀ id, (w.lane id).inFlight = true → w.tasks id ≠ []

theorem Served.step {w w' : Worker} {ev : WorkerEvent} (h : w.Served) (hs : workerStep w ev = some w') (hown : w.Own)
    (hev : ∀ i, ev ≠ .joinError i) : w'.Served := by
  intro id
  obtain ⟨rs, hstep⟩ := laneStep_of_workerStep hs hown id
  exact hstep.served hev (h id)

theorem inFlight_false_of_nil {w : Worker} (h : w.Served) (hnil : w.inFlight = []) (id : PlayerId) :
    (w.lane id).inFlight = false := by
  by_contra hf
  have htasks := h id (Bool.not_eq_false _ ▸ hf)
  simp [tasks, hnil] at htasks

theorem dispatchReadyOps_extends : ∀ (order : List PlayerId) (w : Worker),
    w.inFlight.length ≤ (w.dispatchReadyOps order).inFlight.length
  | [], _ => le_rfl
  | p :: order, w => by
    unfold dispatchReadyOps
    split
    · exact le_rfl
    · refine le_trans ?_ (dispatchReadyOps_extends order (w.dispatchOne p))
      rcases (w.dispatchOne_spec p).2.2 with ⟨h, _⟩ | ⟨op, l, _, _, _, h⟩
      · rw [h]
      · rw [h, List.length_append]
        omega

/-- A dispatch that starts nothing found nothing ready. -/
theorem dispatchReadyOps_nil {w : Worker} {now : Int} {order : List PlayerId} (h : w.IsReadyOrder now order)
    (hnil : (w.dispatchReadyOps order).inFlight = []) : w.dispatchReadyOps order = w ∧ w.readyPlayerIds now = [] := by
  cases order with
  | nil => exact ⟨rfl, List.perm_nil.1 h.1.symm⟩
  | cons p order =>
    exfalso
    have hmem : p ∈ w.readyPlayerIds now := h.1.mem_iff.1 List.mem_cons_self
    obtain ⟨_, hready⟩ := List.mem_filter.1 hmem
    unfold dispatchReadyOps at hnil
    split at hnil
    · rename_i hfull
      rw [hnil] at hfull
      exact absurd hfull (by decide)
    · have hlen := dispatchReadyOps_extends order (w.dispatchOne p)
      rw [hnil, List.length_nil] at hlen
      rcases (w.dispatchOne_spec p).2.2 with ⟨_, h⟩ | ⟨op, l, _, _, _, h⟩
      · exact Lane.nextDispatch_of_ready hready h
      · rw [h, List.length_append, List.length_singleton] at hlen
        omega

end Worker

/-! ## The invariant of the loop -/

/-- What holds at every point of the loop. -/
structure WorkerLoop.Sound (s : WorkerLoop) : Prop where
  own : s.worker.Own
  lively : s.worker.Lively
  served : s.worker.Served
  closed : s.worker.receiverClosed = true → s.channel = [] ∧ s.sendersDropped = true
  returned : s.point = .returned → s.worker.finished = true
  -- the select! is entered with a branch enabled, and stays so until one of them is taken
  enabled : s.point = .select → s.worker.stuck = false

theorem WorkerLoop.start_sound : WorkerLoop.start.Sound where
  own := Worker.own_new
  lively := by rintro id lane h; cases h
  served := by rintro id h; cases h
  closed := by rintro h; cases h
  returned := by rintro h; cases h
  enabled := by rintro h; cases h

/-- After a dispatch the worker is finished, or one of the branches is enabled. -/
theorem Worker.not_stuck_of_dispatch {w w' : Worker} {order : List PlayerId} {now : Int}
    (hs : workerStep w (.dispatch order now) = some w') (hlively : w.Lively) (hserved : w.Served)
    (hfin : w'.finished = false) : w'.stuck = false := by
  simp only [workerStep] at hs
  split at hs
  swap
  · cases hs
  rename_i hready
  cases hs
  unfold Worker.stuck
  by_contra hstuck
  simp only [Bool.not_eq_false, Bool.and_eq_true, List.isEmpty_iff, Option.isNone_iff_eq_none] at hstuck
  obtain ⟨⟨hclosed, hnil⟩, hdeadline⟩ := hstuck
  obtain ⟨heq, hnone⟩ := Worker.dispatchReadyOps_nil hready hnil
  rw [heq] at hclosed hnil hdeadline hfin
  -- nothing was ready, so a lane that is left waits for its retry
  obtain ⟨id, hid⟩ : ∃ id, id ∈ w.lanes.keys := by
    apply List.exists_mem_of_ne_nil
    intro hempty
    simp [Worker.finished, hclosed, hnil, hempty] at hfin
  obtain ⟨lane, hlane⟩ := Option.isSome_iff_exists.1 (OrdMap.mem_keys_iff.1 hid)
  have hl : w.lane id = lane := by simp [Worker.lane, hlane]
  have hflight : lane.inFlight = false := hl ▸ Worker.inFlight_false_of_nil hserved hnil id
  have hpriority : lane.readyPriority now = none := by
    have hnot : id ∉ w.readyPlayerIds now := by rw [hnone]; simp
    by_contra hsome
    exact hnot (List.mem_filter.2 ⟨hid, by rw [hl]; exact Option.isSome_iff_ne_none.2 hsome⟩)
  obtain ⟨hexit, t, ht⟩ := Lane.waits (hlively id lane hlane) hpriority hflight
  have hmem : t ∈ ((w.lanes.values.filter fun lane => !lane.inFlight).filter fun lane =>
    lane.pendingExit.isNone).filterMap
      Lane.retryAt := by
    refine List.mem_filterMap.2
      ⟨lane, List.mem_filter.2 ⟨List.mem_filter.2 ⟨?_, by simp [hflight]⟩, by simp [hexit]⟩, ht⟩
    exact List.mem_map.2 ⟨(id, lane), OrdMap.get?_eq_some_iff.1 hlane, rfl⟩
  unfold Worker.nextRetryDeadline at hdeadline
  rw [List.min?_eq_none_iff] at hdeadline
  rw [hdeadline] at hmem
  cases hmem

theorem workerStep_finish {w w' : Worker} {i : Nat} {result : PlayerPersistenceResult}
    (h : workerStep w (.finish i result) = some w') :
    w'.finished = w.finished ∧ w'.stuck = w.stuck ∧ w'.receiverClosed = w.receiverClosed := by
  obtain ⟨t, _, h⟩ := Option.bind_eq_some_iff.1 h
  split at h
  · cases h
    have hempty : (w.inFlight.set i { t with result := some result }).isEmpty = w.inFlight.isEmpty := by
      rw [Bool.eq_iff_iff, List.isEmpty_iff_length_eq_zero, List.isEmpty_iff_length_eq_zero, List.length_set]
    refine ⟨?_, ?_, rfl⟩
    · unfold Worker.finished
      rw [hempty]
    · unfold Worker.stuck
      rw [hempty]
      rfl
  · cases h

theorem workerStep_receiverClosed {w w' : Worker} {ev : WorkerEvent} (h : workerStep w ev = some w') (hown : w.Own)
    (hev : ev ≠ .recvClosed) : w'.receiverClosed = w.receiverClosed := by
  cases ev with
  | recvClosed => exact absurd rfl hev
  | recv request =>
    simp only [workerStep] at h
    split at h
    · cases h
    · cases h
      cases request <;> rfl
  | dispatch order now =>
    simp only [workerStep] at h
    split at h
    · rename_i hready
      cases h
      exact (w.dispatchReadyOps_spec order (Worker.nodup_of_ready hready) (fun _ => Worker.inFlight_of_ready hready)
        fun id => (hown id).lane).2.1
    · cases h
  | finish i result => exact (workerStep_finish h).2.2
  | joinNext i now =>
    obtain ⟨t, _, h⟩ := Option.bind_eq_some_iff.1 h
    obtain ⟨r, _, rfl⟩ := Option.map_eq_some_iff.1 h
    unfold Worker.handleCompletedDispatch
    split <;> rfl
  | joinError i =>
    obtain ⟨t, _, h⟩ := Option.bind_eq_some_iff.1 h
    split at h
    · cases h; rfl
    · cases h

/-- A step of the worker that leads back to the top of the loop keeps the invariant. -/
theorem WorkerLoop.Sound.to_top {s : WorkerLoop} {w : Worker} {ev : WorkerEvent}
    {channel : List PlayerPersistenceRequest} (h : s.Sound) (hs : workerStep s.worker ev = some w)
    (hev : ∀ i, ev ≠ .joinError i) (hclosed : w.receiverClosed = true → channel = [] ∧ s.sendersDropped = true) :
    WorkerLoop.Sound ⟨w, channel, s.sendersDropped, .top⟩ where
  own := workerStep_own hs h.own
  lively := h.lively.step hs
  served := h.served.step hs h.own hev
  closed := hclosed
  returned := by rintro ⟨⟩
  enabled := by rintro ⟨⟩

theorem WorkerLoop.Sound.step {s s' : WorkerLoop} {ev : LoopEvent} (h : s.Sound) (hs : loopStep s ev = some s') :
    s'.Sound := by
  cases ev with
  | send request =>
    simp only [loopStep] at hs
    split at hs
    · cases hs
    · rename_i hsend
      cases hs
      exact ⟨h.own, h.lively, h.served, fun hc => absurd (h.closed hc).2 hsend, h.returned, h.enabled⟩
  | dropSenders =>
    simp only [loopStep] at hs
    split at hs
    · cases hs
    · cases hs
      exact ⟨h.own, h.lively, h.served, fun hc => ⟨(h.closed hc).1, rfl⟩, h.returned, h.enabled⟩
  | finish i result =>
    obtain ⟨w, hw, rfl⟩ := Option.map_eq_some_iff.1 hs
    obtain ⟨hfin, hstuck, hclosed⟩ := workerStep_finish hw
    refine ⟨workerStep_own hw h.own, h.lively.step hw, h.served.step hw h.own (by simp), ?_, ?_, ?_⟩
    · rw [hclosed]; exact h.closed
    · rw [hfin]; exact h.returned
    · rw [hstuck]; exact h.enabled
  | turn order now =>
    simp only [loopStep] at hs
    split at hs
    · obtain ⟨w, hw, rfl⟩ := Option.map_eq_some_iff.1 hs
      have hclosed := workerStep_receiverClosed hw h.own (by simp)
      refine ⟨workerStep_own hw h.own, h.lively.step hw, h.served.step hw h.own (by simp), ?_, ?_, ?_⟩
      · rw [hclosed]; exact h.closed
      · intro hp
        by_contra hfin
        rw [if_neg hfin] at hp
        cases hp
      · intro hp
        by_cases hfin : w.finished = true
        · rw [if_pos hfin] at hp; cases hp
        · exact Worker.not_stuck_of_dispatch hw h.lively h.served (Bool.eq_false_iff.2 hfin)
    · cases hs
  | recv =>
    simp only [loopStep] at hs
    split at hs
    · split at hs
      · rename_i request rest hchan
        obtain ⟨w, hw, rfl⟩ := Option.map_eq_some_iff.1 hs
        apply h.to_top hw (by simp)
        rw [workerStep_receiverClosed hw h.own (by simp)]
        intro hc
        have := (h.closed hc).1
        rw [hchan] at this
        cases this
      · rename_i hchan
        split at hs
        · rename_i hdropped
          obtain ⟨w, hw, rfl⟩ := Option.map_eq_some_iff.1 hs
          exact h.to_top hw (by simp) fun _ => ⟨hchan, hdropped⟩
        · cases hs
    · cases hs
  | joinNext i now =>
    simp only [loopStep] at hs
    split at hs
    · obtain ⟨w, hw, rfl⟩ := Option.map_eq_some_iff.1 hs
      apply h.to_top hw (by simp)
      rw [workerStep_receiverClosed hw h.own (by simp)]
      exact h.closed
    · cases hs
  | retry =>
    simp only [loopStep] at hs
    split at hs
    · cases hs
      exact ⟨h.own, h.lively, h.served, h.closed, by rintro ⟨⟩, by rintro ⟨⟩⟩
    · cases hs

/-- The worker over every run of requests, completions, retries and clock readings, with senders that go away at any
point and tasks that do not panic: a lane in the map has something to do; the loop returns only when the channel is at
its end and nothing is pending or in flight; and the `select!` never has all its branches disabled. -/
theorem worker_shutdown {s : WorkerLoop} {events : List LoopEvent} (h : run loopStep .start events = some s) :
    (∀ id lane, s.worker.lanes.get? id = some lane → lane.isIdle = false) ∧
    (s.point = .returned → s.channel = [] ∧ s.worker.inFlight = [] ∧
      ∀ id, s.worker.lanes.get? id = none ∧ (s.worker.lane id).isIdle = true) ∧
    (s.point = .select → s.worker.receiverClosed = false ∨ s.worker.inFlight ≠ [] ∨
      s.worker.nextRetryDeadline.isSome = true) := by
  have hsound : s.Sound := run_inv (fun _ _ _ hs hstep => hs.step hstep) WorkerLoop.start_sound h
  refine ⟨hsound.lively, ?_, ?_⟩
  · intro hp
    have hfin := hsound.returned hp
    simp only [Worker.finished, Bool.and_eq_true, List.isEmpty_iff] at hfin
    obtain ⟨⟨hclosed, hnil⟩, hkeys⟩ := hfin
    refine ⟨(hsound.closed hclosed).1, hnil, fun id => ?_⟩
    have hnone : s.worker.lanes.get? id = none := by
      by_contra hsome
      have hmem := OrdMap.mem_keys_iff.2 (Option.isSome_iff_ne_none.2 hsome)
      rw [hkeys] at hmem
      cases hmem
    exact ⟨hnone, by simp [Worker.lane, hnone, Lane.isIdle]⟩
  · intro hp
    have hstuck := hsound.enabled hp
    by_contra hno
    push Not at hno
    obtain ⟨h1, h2, h3⟩ := hno
    simp [Worker.stuck, h1, h2] at hstuck
    exact h3 (by simpa using hstuck)

/-- An autosave that fails while the servers go down: its retry keeps the loop going until it is written. -/
def drainEvents : List LoopEvent :=
  let save : PendingSave :=
    ⟨⟨0, ⟨⟨⟨1⟩, .initial, "metin2_map_a1", ⟨0, 0⟩, ⟨0⟩, none, none, none⟩, ⟨1, 0, ⟨0, 0, 0, 0⟩, 0⟩⟩⟩, .autosave, none⟩
  [.turn [] 0, .send (.saveSnapshot save), .recv, .turn [⟨1⟩] 1, .dropSenders, .recv, .turn [] 2,
   .finish 0 (.error "save player snapshot"), .joinNext 0 3, .turn [] 4, .retry, .turn [⟨1⟩] 1000000003,
   .finish 0 (.ok ()), .joinNext 0 1000000004, .turn [] 1000000005]

theorem worker_shutdown_after_retry :
    ∃ s, run loopStep .start drainEvents = some s ∧ s.point = .returned ∧ s.channel = [] ∧ s.worker.inFlight = [] := by
  obtain ⟨s, hs, hp⟩ : ∃ s, run loopStep .start drainEvents = some s ∧ s.point = .returned := ⟨_, rfl, rfl⟩
  have hquiet := (worker_shutdown hs).2.1 hp
  exact ⟨s, hs, hp, hquiet.1, hquiet.2.1⟩

end Zohar.Persistence
