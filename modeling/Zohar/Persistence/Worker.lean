/-
The persistence worker of zohar-core/src/runtime/player_persistence.rs. Every player has a lane with at most one
operation in flight, one pending save and one pending exit; the worker receives requests, dispatches what is ready
and joins what has finished. A reply channel is a number and `replies` lists what went over each of them in order,
`none` where the sender was dropped. Instants are in nanoseconds.
-/
import Zohar.Domain
import Zohar.Lib.OrdMap
import Zohar.Lib.Run

namespace Zohar.Persistence

open Zohar.Lib

inductive SaveUrgency where
  | autosave | flushNow
  deriving DecidableEq, Repr

abbrev PlayerPersistenceResult := Except String Unit

abbrev Reply := Nat

/-- A snapshot with the number it was given when it was taken. No function of the worker reads the number. -/
structure Stamped where
  stamp : Nat
  snapshot : PlayerSnapshot
  deriving DecidableEq, Repr

def Stamped.playerId (s : Stamped) : PlayerId := s.snapshot.playerId

structure PendingSave where
  snapshot : Stamped
  urgency : SaveUrgency
  reply : Option Reply
  deriving DecidableEq, Repr

structure PendingExit where
  exitKind : PlayerExitKind
  username : String
  serverId : String
  connectionId : String
  snapshot : Stamped
  reply : Reply
  deriving DecidableEq, Repr

inductive PlayerPersistenceRequest where
  | saveSnapshot (save : PendingSave)
  | commitPlayerExit (exit : PendingExit)
  deriving DecidableEq, Repr

namespace PlayerPersistenceRequest

def snapshot : PlayerPersistenceRequest → Stamped
  | .saveSnapshot save => save.snapshot
  | .commitPlayerExit exit => exit.snapshot

def playerId (r : PlayerPersistenceRequest) : PlayerId := r.snapshot.playerId

def reply : PlayerPersistenceRequest → Option Reply
  | .saveSnapshot save => save.reply
  | .commitPlayerExit exit => some exit.reply

end PlayerPersistenceRequest

inductive DispatchKind where
  | save (save : PendingSave)
  | commitPlayerExit (exit : PendingExit)
  deriving DecidableEq, Repr

def DispatchKind.snapshot : DispatchKind → Stamped
  | .save s => s.snapshot
  | .commitPlayerExit e => e.snapshot

def DispatchKind.reply : DispatchKind → Option Reply
  | .save s => s.reply
  | .commitPlayerExit e => some e.reply

structure DispatchOp where
  playerId : PlayerId
  kind : DispatchKind
  deriving DecidableEq, Repr

/-- An entry of the `JoinSet`, with its result once the future is done. -/
structure Task where
  op : DispatchOp
  result : Option PlayerPersistenceResult

structure Lane where
  inFlight : Bool := false
  pendingSave : Option PendingSave := none
  pendingExit : Option PendingExit := none
  retryAt : Option Int := none
  deriving DecidableEq, Repr

def maxConcurrentSaves : Nat := 8

def autosaveRetryDelay : Int := 1000000000

/-- What is left on a reply channel whose sender goes away unused. -/
def droppedReply (reply : Option Reply) : List (Reply × Option PlayerPersistenceResult) :=
  (reply.map fun r => (r, none)).toList

/-! ## Lanes -/

namespace Lane

/-- The `SaveSnapshot` arm of `handle_request`. -/
def queueSave (lane : Lane) (save : PendingSave) : Lane × List (Reply × Option PlayerPersistenceResult) :=
  if lane.pendingExit.isSome then
    (lane, (save.reply.map fun r => (r, some (.error "player exit is already pending"))).toList)
  else
    match lane.pendingSave with
    | some pending =>
      match save.urgency with
      | .flushNow =>
        match save.reply, pending.reply with
        | some r, some _ =>
          ({ lane with
              retryAt := none
              pendingSave := some { pending with snapshot := save.snapshot, urgency := .flushNow } },
            [(r, some (.error "player flush is already pending"))])
        | reply, held =>
          ({ lane with
              retryAt := none
              pendingSave := some { snapshot := save.snapshot, urgency := .flushNow, reply := reply.or held } }, [])
      | .autosave =>
        ({ lane with retryAt := none, pendingSave := some { pending with snapshot := save.snapshot } },
          droppedReply save.reply)
    | none => ({ lane with retryAt := none, pendingSave := some save }, [])

/-- The `CommitPlayerExit` arm of `handle_request`. -/
def queueExit (lane : Lane) (exit : PendingExit) : Lane × List (Reply × Option PlayerPersistenceResult) :=
  ({ lane with pendingSave := none, retryAt := none, pendingExit := some exit },
    droppedReply (lane.pendingSave.bind PendingSave.reply) ++ droppedReply (lane.pendingExit.map PendingExit.reply))

def nextDispatch (lane : Lane) : Option (DispatchOp × Lane) :=
  match lane.pendingExit with
  | some exit => some (⟨exit.snapshot.playerId, .commitPlayerExit exit⟩, { lane with pendingExit := none })
  | none => lane.pendingSave.map fun save => (⟨save.snapshot.playerId, .save save⟩, { lane with pendingSave := none })

def isIdle (lane : Lane) : Bool := !lane.inFlight && lane.pendingSave.isNone && lane.pendingExit.isNone

/-- The priority under which `ready_player_ids` lists a lane, if it does. -/
def readyPriority (lane : Lane) (now : Int) : Option Nat :=
  if lane.inFlight then none
  else if lane.pendingExit.isSome then some 0
  else
    match lane.pendingSave with
    | none => none
    | some save =>
      match save.urgency with
      | .flushNow => some 1
      | .autosave => if lane.retryAt.any fun t => now < t then none else some 2

/-- The lane's part of `handle_completed_dispatch`. -/
def complete (lane : Lane) (kind : DispatchKind) (result : PlayerPersistenceResult) (now : Int) :
    Lane × List (Reply × Option PlayerPersistenceResult) :=
  let lane := { lane with inFlight := false }
  match kind with
  | .save save =>
    match save.urgency with
    | .autosave =>
      match result with
      | .error _ =>
        -- a newer request makes the retry unnecessary
        if lane.pendingExit.isSome || lane.pendingSave.isSome then
          ({ lane with retryAt := none }, droppedReply save.reply)
        else ({ lane with pendingSave := some save, retryAt := some (now + autosaveRetryDelay) }, [])
      | .ok () => ({ lane with retryAt := none }, droppedReply save.reply)
    | .flushNow => (lane, (save.reply.map fun r => (r, some result)).toList)
  | .commitPlayerExit exit => (lane, [(exit.reply, some result)])

end Lane

/-! ## The worker -/

structure Worker where
  lanes : OrdMap PlayerId Lane
  inFlight : List Task
  receiverClosed : Bool
  replies : List (Reply × Option PlayerPersistenceResult)

namespace Worker

def new : Worker := ⟨.empty, [], false, []⟩

/-- The player's lane; one that was removed is as good as a new one. -/
def lane (w : Worker) (id : PlayerId) : Lane := (w.lanes.get? id).getD {}

def handleRequest (w : Worker) : PlayerPersistenceRequest → Worker
  | .saveSnapshot save =>
    let (lane, replies) := (w.lane save.snapshot.playerId).queueSave save
    { w with lanes := w.lanes.insert save.snapshot.playerId lane, replies := w.replies ++ replies }
  | .commitPlayerExit exit =>
    let (lane, replies) := (w.lane exit.snapshot.playerId).queueExit exit
    { w with lanes := w.lanes.insert exit.snapshot.playerId lane, replies := w.replies ++ replies }

def readyPlayerIds (w : Worker) (now : Int) : List PlayerId :=
  w.lanes.keys.filter fun id => ((w.lane id).readyPriority now).isSome

/-- The iteration order of the map is arbitrary, and so is the order of equal priorities. -/
def IsReadyOrder (w : Worker) (now : Int) (order : List PlayerId) : Prop :=
  order.Perm (w.readyPlayerIds now) ∧
    order.Pairwise fun a b => ((w.lane a).readyPriority now).getD 0 ≤ ((w.lane b).readyPriority now).getD 0

instance (w : Worker) (now : Int) (order : List PlayerId) : Decidable (w.IsReadyOrder now order) :=
  inferInstanceAs (Decidable (_ ∧ _))

def dispatchOne (w : Worker) (id : PlayerId) : Worker :=
  match w.lanes.get? id with
  | none => w
  | some lane =>
    match lane.nextDispatch with
    | none => w
    | some (op, lane) =>
      { w with lanes := w.lanes.insert id { lane with inFlight := true }, inFlight := w.inFlight ++ [⟨op, none⟩] }

/-- The loop of `dispatch_ready_ops` over the ready players. -/
def dispatchReadyOps (w : Worker) : List PlayerId → Worker
  | [] => w
  | id :: order => if maxConcurrentSaves ≤ w.inFlight.length then w else (w.dispatchOne id).dispatchReadyOps order

def handleCompletedDispatch (w : Worker) (op : DispatchOp) (result : PlayerPersistenceResult) (now : Int) : Worker :=
  match w.lanes.get? op.playerId with
  | none => { w with replies := w.replies ++ droppedReply op.kind.reply }
  | some lane =>
    let (lane, replies) := lane.complete op.kind result now
    { w with
      lanes := if lane.isIdle then w.lanes.erase op.playerId else w.lanes.insert op.playerId lane
      replies := w.replies ++ replies }

end Worker

inductive WorkerEvent where
  | recv (request : PlayerPersistenceRequest)
  | recvClosed
  | dispatch (order : List PlayerId) (now : Int)
  /-- The future of a task is done; it waits to be joined. -/
  | finish (i : Nat) (result : PlayerPersistenceResult)
  | joinNext (i : Nat) (now : Int)
  /-- `join_next` yields the error of a task that panicked. -/
  | joinError (i : Nat)

/-- One turn of the worker's loop is a `dispatch` and one of the others. -/
def workerStep (w : Worker) : WorkerEvent → Option Worker
  | .recv request => if w.receiverClosed then none else some (w.handleRequest request)
  | .recvClosed => if w.receiverClosed then none else some { w with receiverClosed := true }
  | .dispatch order now => if w.IsReadyOrder now order then some (w.dispatchReadyOps order) else none
  | .finish i result =>
    (w.inFlight[i]?).bind fun t =>
      if t.result.isNone then some { w with inFlight := w.inFlight.set i { t with result := some result } } else none
  | .joinNext i now =>
    (w.inFlight[i]?).bind fun t =>
      t.result.map fun r => { w with inFlight := w.inFlight.eraseIdx i }.handleCompletedDispatch t.op r now
  | .joinError i =>
    (w.inFlight[i]?).bind fun t =>
      if t.result.isNone then
        some { w with inFlight := w.inFlight.eraseIdx i, replies := w.replies ++ droppedReply t.op.kind.reply }
      else none

/-! ## What a turn does to one player -/

def Worker.tasks (w : Worker) (id : PlayerId) : List Task := w.inFlight.filter fun t => t.op.playerId = id

theorem Worker.mem_tasks {w : Worker} {i : Nat} {t : Task} (h : w.inFlight[i]? = some t) : t ∈ w.tasks t.op.playerId :=
  List.mem_filter.2 ⟨List.mem_of_getElem? h, by simp⟩

/-- The lane after a completed operation, which is removed when it is idle. -/
def Lane.settle (lane : Lane) : Lane := if lane.isIdle then {} else lane

@[simp] theorem Lane.settle_pendingSave (l : Lane) : l.settle.pendingSave = l.pendingSave := by
  unfold Lane.settle
  split
  · rename_i h
    simp only [Lane.isIdle, Bool.and_eq_true, Option.isNone_iff_eq_none] at h
    exact h.1.2.symm
  · rfl

@[simp] theorem Lane.settle_pendingExit (l : Lane) : l.settle.pendingExit = l.pendingExit := by
  unfold Lane.settle
  split
  · rename_i h
    simp only [Lane.isIdle, Bool.and_eq_true, Option.isNone_iff_eq_none] at h
    exact h.2.symm
  · rfl

@[simp] theorem Lane.complete_pendingExit (l : Lane) (kind : DispatchKind) (result : PlayerPersistenceResult)
    (now : Int) :
    (l.complete kind result now).1.pendingExit = l.pendingExit := by
  unfold Lane.complete
  dsimp only
  repeat' split
  all_goals rfl

/-- Only a failed autosave comes back, and not to a place that is taken. -/
theorem Lane.complete_pendingSave {l : Lane} {pending : PendingSave} (h : l.pendingSave = some pending)
    (kind : DispatchKind) (result : PlayerPersistenceResult) (now : Int) :
    (l.complete kind result now).1.pendingSave = some pending := by
  unfold Lane.complete
  dsimp only
  split
  · split
    · split
      · rw [if_pos (by simp [h])]
        exact h
      · exact h
    · exact h
  · exact h

/-- All that an event can do to the lane and the tasks of one player, with the replies that go out. `set` is the
whole `JoinSet` before the event. -/
inductive LaneStep (set : List Task) (id : PlayerId) :
    WorkerEvent → Lane → List Task → Lane → List Task → List (Reply × Option PlayerPersistenceResult) → Prop
  | kept (ev : WorkerEvent) (l : Lane) (ts : List Task) : LaneStep set id ev l ts l ts []
  | save {save : PendingSave} (hid : save.snapshot.playerId = id) (l : Lane) (ts : List Task) :
      LaneStep set id (.recv (.saveSnapshot save)) l ts (l.queueSave save).1 ts (l.queueSave save).2
  | exit {exit : PendingExit} (hid : exit.snapshot.playerId = id) (l : Lane) (ts : List Task) :
      LaneStep set id (.recv (.commitPlayerExit exit)) l ts (l.queueExit exit).1 ts (l.queueExit exit).2
  | dispatched {order : List PlayerId} {now : Int} {l l' : Lane} {op : DispatchOp} (hidle : l.inFlight = false)
      (hnext : l.nextDispatch = some (op, l')) (ts : List Task) :
      LaneStep set id (.dispatch order now) l ts { l' with inFlight := true } (ts ++ [⟨op, none⟩]) []
  | finished {i : Nat} {result : PlayerPersistenceResult} (l : Lane) {ts ts' : List Task} {t : Task}
      (hi : set[i]? = some t) (hr : t.result = none) :
      LaneStep set id (.finish i result) l (ts ++ t :: ts') l (ts ++ { t with result := some result } :: ts') []
  | joined {i : Nat} {now : Int} (l : Lane) {ts ts' : List Task} {t : Task} {result : PlayerPersistenceResult}
      (hi : set[i]? = some t) (hr : t.result = some result) :
      LaneStep set id (.joinNext i now) l (ts ++ t :: ts') (l.complete t.op.kind result now).1.settle (ts ++ ts')
        (l.complete t.op.kind result now).2
  /-- A task that has no lane any more. -/
  | orphaned {i : Nat} {now : Int} {ts ts' : List Task} (t : Task) :
      LaneStep set id (.joinNext i now) {} (ts ++ t :: ts') {} (ts ++ ts') (droppedReply t.op.kind.reply)
  | panicked {i : Nat} (l : Lane) {ts ts' : List Task} {t : Task} (hi : set[i]? = some t) (hr : t.result = none) :
      LaneStep set id (.joinError i) l (ts ++ t :: ts') l (ts ++ ts') (droppedReply t.op.kind.reply)

/-- A lane holds requests of its own player only. -/
def Lane.For (l : Lane) (id : PlayerId) : Prop :=
  (∀ s ∈ l.pendingSave, s.snapshot.playerId = id) ∧ ∀ e ∈ l.pendingExit, e.snapshot.playerId = id

theorem Lane.For.nextDispatch {l l' : Lane} {id : PlayerId} {op : DispatchOp} (h : l.For id)
    (hn : l.nextDispatch = some (op, l')) : op.playerId = id ∧ op.kind.snapshot.playerId = id ∧ l'.For id := by
  unfold Lane.nextDispatch at hn
  split at hn
  · rename_i e he
    cases hn
    exact ⟨h.2 e he, h.2 e he, h.1, by rintro _ ⟨⟩⟩
  · obtain ⟨s, hs, heq⟩ := Option.map_eq_some_iff.1 hn
    cases heq
    exact ⟨h.1 s hs, h.1 s hs, by rintro _ ⟨⟩, h.2⟩

theorem Lane.For.queueSave {l : Lane} {id : PlayerId} {save : PendingSave} (h : l.For id)
    (hid : save.snapshot.playerId = id) : (l.queueSave save).1.For id := by
  unfold Lane.queueSave
  split
  · exact h
  · split
    · split
      · split <;> exact ⟨by rintro _ ⟨⟩; exact hid, h.2⟩
      · exact ⟨by rintro _ ⟨⟩; exact hid, h.2⟩
    · exact ⟨by rintro _ ⟨⟩; exact hid, h.2⟩

theorem Lane.For.complete {l : Lane} {id : PlayerId} {kind : DispatchKind} (h : l.For id)
    (hid : kind.snapshot.playerId = id) (result : PlayerPersistenceResult) (now : Int) :
    (l.complete kind result now).1.settle.For id := by
  have hlane : (l.complete kind result now).1.For id := by
    unfold Lane.complete
    dsimp only
    split
    · split
      · split
        · split
          · exact h
          · exact ⟨by rintro _ ⟨⟩; exact hid, h.2⟩
        · exact h
      · exact h
    · exact h
  unfold Lane.settle
  split
  · exact ⟨by rintro _ ⟨⟩, by rintro _ ⟨⟩⟩
  · exact hlane

/-- The lane and the tasks of a player hold its own requests. -/
structure OwnRequests (id : PlayerId) (l : Lane) (ts : List Task) : Prop where
  lane : l.For id
  tasks : ∀ t ∈ ts, t.op.kind.snapshot.playerId = id

theorem LaneStep.ownRequests {set : List Task} {id : PlayerId} {ev : WorkerEvent} {l l' : Lane} {ts ts' : List Task}
    {rs : List (Reply × Option PlayerPersistenceResult)} (h : LaneStep set id ev l ts l' ts' rs)
    (ho : OwnRequests id l ts) :
    OwnRequests id l' ts' := by
  obtain ⟨hl, ht⟩ := ho
  cases h with
  | kept => exact ⟨hl, ht⟩
  | save hid => exact ⟨hl.queueSave hid, ht⟩
  | exit hid => exact ⟨⟨by rintro _ ⟨⟩, by rintro _ ⟨⟩; exact hid⟩, ht⟩
  | dispatched _ hn =>
    obtain ⟨_, hs, hl'⟩ := hl.nextDispatch hn
    refine ⟨hl', ?_⟩
    intro t hmem
    rcases List.mem_append.1 hmem with hmem | hmem
    · exact ht t hmem
    · cases List.mem_singleton.1 hmem
      exact hs
  | @finished _ _ _ a b u _ _ =>
    refine ⟨hl, ?_⟩
    intro t hmem
    rcases List.mem_append.1 hmem with hmem | hmem
    · exact ht t (List.mem_append_left _ hmem)
    · rcases List.mem_cons.1 hmem with rfl | hmem
      · exact ht u (by simp)
      · exact ht t (by simp [hmem])
  | @joined _ _ _ a b u _ _ _ =>
    refine ⟨hl.complete (ht u (by simp)) _ _, fun t hmem => ht t ?_⟩
    rcases List.mem_append.1 hmem with hmem | hmem <;> simp [hmem]
  | orphaned u =>
    refine ⟨hl, fun t hmem => ht t ?_⟩
    rcases List.mem_append.1 hmem with hmem | hmem <;> simp [hmem]
  | panicked =>
    refine ⟨hl, fun t hmem => ht t ?_⟩
    rcases List.mem_append.1 hmem with hmem | hmem <;> simp [hmem]

/-- An exit leaves no save beside it, and a lane has at most one task and knows about it. -/
structure LaneOk (l : Lane) (ts : List Task) : Prop where
  exit : l.pendingExit.isSome → l.pendingSave = none
  single : ts = [] ∨ ∃ t, ts = [t] ∧ l.inFlight = true

section
variable {l l' : Lane} {ts a b : List Task} {t : Task}

theorem LaneOk.alone (h : LaneOk l (a ++ t :: b)) : a = [] ∧ b = [] := by
  rcases h.single with hs | ⟨u, hs, _⟩
  · simp at hs
  · cases a with
    | nil => exact ⟨rfl, (List.cons.inj hs).2⟩
    | cons x a => simp at hs

theorem LaneOk.busy (h : LaneOk l (a ++ t :: b)) : l.inFlight = true := by
  rcases h.single with hs | ⟨u, _, hbusy⟩
  · simp at hs
  · exact hbusy

theorem LaneOk.idle (h : LaneOk l ts) (hidle : l.inFlight = false) : ts = [] := by
  rcases h.single with hs | ⟨t, _, hbusy⟩
  · exact hs
  · rw [hidle] at hbusy
    cases hbusy

theorem LaneOk.queueSave (h : LaneOk l ts) (save : PendingSave) : LaneOk (l.queueSave save).1 ts := by
  unfold Lane.queueSave
  split
  · exact h
  · rename_i hno
    have hnone : l.pendingExit.isSome = true → False := hno
    split
    · split
      · split <;> exact ⟨fun he => (hnone he).elim, h.single⟩
      · exact ⟨fun he => (hnone he).elim, h.single⟩
    · exact ⟨fun he => (hnone he).elim, h.single⟩

/-- What is dispatched leaves its place empty. -/
theorem LaneOk.nextDispatch {op : DispatchOp} (h : LaneOk l ts) (hn : l.nextDispatch = some (op, l')) :
    l'.pendingSave = none ∧ l'.pendingExit = none := by
  unfold Lane.nextDispatch at hn
  split at hn
  · rename_i e he
    cases hn
    exact ⟨h.exit (by simp [he]), rfl⟩
  · rename_i he
    obtain ⟨s, hs, heq⟩ := Option.map_eq_some_iff.1 hn
    cases heq
    exact ⟨rfl, he⟩

theorem LaneOk.complete (h : LaneOk l ts) (kind : DispatchKind) (result : PlayerPersistenceResult) (now : Int) :
    LaneOk (l.complete kind result now).1.settle [] := by
  have hexit : (l.complete kind result now).1.pendingExit.isSome →
      (l.complete kind result now).1.pendingSave = none := by
    unfold Lane.complete
    dsimp only
    split
    · split
      · split
        · split
          · exact h.exit
          · rename_i hno
            intro he
            exact absurd (by simp [he]) hno
        · exact h.exit
      · exact h.exit
    · exact h.exit
  unfold Lane.settle
  split
  · exact ⟨fun _ => rfl, .inl rfl⟩
  · exact ⟨hexit, .inl rfl⟩

end

theorem LaneStep.laneOk {set : List Task} {id : PlayerId} {ev : WorkerEvent} {l l' : Lane} {ts ts' : List Task}
    {rs : List (Reply × Option PlayerPersistenceResult)} (h : LaneStep set id ev l ts l' ts' rs) (hok : LaneOk l ts) :
    LaneOk l' ts' := by
  cases h with
  | kept => exact hok
  | save _ => exact hok.queueSave _
  | exit _ => exact ⟨fun _ => rfl, hok.single⟩
  | dispatched hidle hn =>
    obtain ⟨hsave, _⟩ := hok.nextDispatch hn
    obtain rfl := hok.idle hidle
    exact ⟨fun _ => hsave, .inr ⟨_, rfl, rfl⟩⟩
  | finished _ _ _ =>
    have hbusy := hok.busy
    obtain ⟨rfl, rfl⟩ := hok.alone
    exact ⟨hok.exit, .inr ⟨_, rfl, hbusy⟩⟩
  | joined _ _ _ =>
    have hdone := hok.complete
    obtain ⟨rfl, rfl⟩ := hok.alone
    exact hdone _ _ _
  | orphaned t => cases hok.busy
  | panicked _ _ _ =>
    obtain ⟨rfl, rfl⟩ := hok.alone
    exact ⟨hok.exit, .inl rfl⟩

theorem exists_split_of_getElem? {α : Type} {t : α} : ∀ {l : List α} {i : Nat}, l[i]? = some t →
    ∃ a b, l = a ++ t :: b ∧ l.eraseIdx i = a ++ b ∧ ∀ u, l.set i u = a ++ u :: b
  | x :: l, 0, h => by
    cases h
    exact ⟨[], l, rfl, rfl, fun _ => rfl⟩
  | x :: l, i + 1, h => by
    obtain ⟨a, b, h1, h2, h3⟩ := exists_split_of_getElem? (l := l) (i := i) (by simpa using h)
    exact ⟨x :: a, b, by rw [h1]; rfl, by rw [List.eraseIdx_cons_succ, h2]; rfl,
      fun u => by rw [List.set_cons_succ, h3]; rfl⟩

namespace Worker

theorem lane_insert {w : Worker} {id id' : PlayerId} {l : Lane} {ts : List Task} {c : Bool}
    {rs : List (Reply × Option PlayerPersistenceResult)} :
    (Worker.mk (w.lanes.insert id l) ts c rs).lane id' = if id' = id then l else w.lane id' := by
  simp only [lane, OrdMap.get?_insert]
  split <;> rfl

theorem lane_erase {w : Worker} {id id' : PlayerId} {ts : List Task} {c : Bool}
    {rs : List (Reply × Option PlayerPersistenceResult)} :
    (Worker.mk (w.lanes.erase id) ts c rs).lane id' = if id' = id then {} else w.lane id' := by
  simp only [lane, OrdMap.get?_erase]
  split <;> rfl

theorem lane_handleRequest_save (w : Worker) (save : PendingSave) (id : PlayerId) :
    (w.handleRequest (.saveSnapshot save)).lane id =
      if id = save.snapshot.playerId then
        ((w.lane save.snapshot.playerId).queueSave save).1
      else w.lane id := lane_insert

theorem lane_handleRequest_exit (w : Worker) (exit : PendingExit) (id : PlayerId) :
    (w.handleRequest (.commitPlayerExit exit)).lane id =
      if id = exit.snapshot.playerId then
        ((w.lane exit.snapshot.playerId).queueExit exit).1
      else w.lane id := lane_insert

theorem lane_handleRequest_of_ne (w : Worker) {request : PlayerPersistenceRequest} {id : PlayerId}
    (h : id ≠ request.playerId) :
    (w.handleRequest request).lane id = w.lane id := by
  cases request with
  | saveSnapshot save => exact (w.lane_handleRequest_save save id).trans (if_neg h)
  | commitPlayerExit exit => exact (w.lane_handleRequest_exit exit id).trans (if_neg h)

theorem tasks_handleRequest (w : Worker) (request : PlayerPersistenceRequest) (id : PlayerId) :
    (w.handleRequest request).tasks id = w.tasks id := by cases request <;> rfl

theorem dispatchOne_spec (w : Worker) (id : PlayerId) :
    (w.dispatchOne id).replies = w.replies ∧ (w.dispatchOne id).receiverClosed = w.receiverClosed ∧
      ((w.dispatchOne id = w ∧ (w.lane id).nextDispatch = none) ∨
        ∃ op l, (w.lane id).nextDispatch = some (op, l) ∧ (w.dispatchOne id).lane id = { l with inFlight := true } ∧
          (∀ id', id' ≠ id → (w.dispatchOne id).lane id' = w.lane id') ∧
          (w.dispatchOne id).inFlight = w.inFlight ++ [⟨op, none⟩]) := by
  unfold dispatchOne
  split
  · rename_i hl
    refine ⟨rfl, rfl, .inl ⟨rfl, ?_⟩⟩
    simp [lane, hl, Lane.nextDispatch]
  · rename_i lane hl
    have hlane : w.lane id = lane := by simp [Worker.lane, hl]
    split
    · rename_i hn
      exact ⟨rfl, rfl, .inl ⟨rfl, by rw [hlane, hn]⟩⟩
    · rename_i op l hn
      refine ⟨rfl, rfl, .inr ⟨op, l, by rw [hlane, hn], ?_, ?_, rfl⟩⟩
      · rw [lane_insert, if_pos rfl]
      · intro id' hne
        rw [lane_insert, if_neg hne]

theorem dispatchReadyOps_spec : ∀ (order : List PlayerId) (w : Worker), order.Nodup →
    (∀ id ∈ order, (w.lane id).inFlight = false) → (∀ id, (w.lane id).For id) →
    (w.dispatchReadyOps order).replies = w.replies ∧ (w.dispatchReadyOps order).receiverClosed = w.receiverClosed ∧
    (∃ new, (w.dispatchReadyOps order).inFlight = w.inFlight ++ new) ∧
    ∀ id, ((w.dispatchReadyOps order).lane id = w.lane id ∧ (w.dispatchReadyOps order).tasks id = w.tasks id) ∨
      ∃ op l, (w.lane id).inFlight = false ∧ (w.lane id).nextDispatch = some (op, l) ∧
        (w.dispatchReadyOps order).lane id = { l with inFlight := true } ∧
        (w.dispatchReadyOps order).tasks id = w.tasks id ++ [⟨op, none⟩]
  | [], w, _, _, _ => ⟨rfl, rfl, ⟨[], by simp [dispatchReadyOps]⟩, fun _ => .inl ⟨rfl, rfl⟩⟩
  | p :: order, w, hn, hidle, hfor => by
    unfold dispatchReadyOps
    split
    · exact ⟨rfl, rfl, ⟨[], by simp⟩, fun _ => .inl ⟨rfl, rfl⟩⟩
    · obtain ⟨hp, hn⟩ := List.nodup_cons.1 hn
      obtain ⟨hr, hc, h⟩ := w.dispatchOne_spec p
      rcases h with ⟨h, _⟩ | ⟨op, l, hnext, hl, hother, hfl⟩
      · rw [h]
        exact dispatchReadyOps_spec order w hn (fun id hid => hidle id (List.mem_cons_of_mem _ hid)) hfor
      · obtain ⟨hop, _, hfor'⟩ := (hfor p).nextDispatch hnext
        have hfor1 : ∀ id, ((w.dispatchOne p).lane id).For id := by
          intro id
          by_cases hid : id = p
          · subst hid
            rw [hl]
            exact hfor'
          · rw [hother id hid]
            exact hfor id
        have hidle1 : ∀ id ∈ order, ((w.dispatchOne p).lane id).inFlight = false := by
          intro id hid
          rw [hother id (fun he => hp (he ▸ hid))]
          exact hidle id (List.mem_cons_of_mem _ hid)
        obtain ⟨hr2, hc2, ⟨new, hnew⟩, hall⟩ := dispatchReadyOps_spec order (w.dispatchOne p) hn hidle1 hfor1
        refine ⟨hr2.trans hr, hc2.trans hc, ⟨⟨op, none⟩ :: new, by rw [hnew, hfl]; simp⟩, ?_⟩
        intro id
        by_cases hid : id = p
        · subst hid
          -- the rest of the loop leaves the lane alone: it is in flight
          rcases hall id with ⟨h1, h2⟩ | ⟨_, _, hbusy, _⟩
          · refine .inr ⟨op, l, hidle id List.mem_cons_self, hnext, h1.trans hl, h2.trans ?_⟩
            simp [tasks, hfl, hop]
          · rw [hl] at hbusy
            cases hbusy
        · have htasks : (w.dispatchOne p).tasks id = w.tasks id := by
            simp [tasks, hfl, hop, Ne.symm hid]
          rw [← hother id hid, ← htasks]
          exact hall id

theorem inFlight_of_ready {w : Worker} {now : Int} {order : List PlayerId} (h : w.IsReadyOrder now order)
    {id : PlayerId} (hid : id ∈ order) : (w.lane id).inFlight = false := by
  have hready := (List.mem_filter.1 (h.1.mem_iff.1 hid)).2
  unfold Lane.readyPriority at hready
  split at hready
  · cases hready
  · rename_i hf
    simpa using hf

theorem nodup_of_ready {w : Worker} {now : Int} {order : List PlayerId} (h : w.IsReadyOrder now order) : order.Nodup :=
  h.1.nodup_iff.2 ((w.lanes.keys_pairwise.imp ne_of_lt).filter _)

/-- Every request in the worker is in the lane or among the tasks of its own player. -/
def Own (w : Worker) : Prop := ∀ id, OwnRequests id (w.lane id) (w.tasks id)

theorem own_new : Worker.new.Own := fun _ => ⟨⟨by rintro _ ⟨⟩, by rintro _ ⟨⟩⟩, by rintro _ ⟨⟩⟩

/-- A request changes its own player's lane. -/
theorem recv_spec (w : Worker) (request : PlayerPersistenceRequest) :
    ∃ p rs, (w.handleRequest request).replies = w.replies ++ rs ∧
      LaneStep w.inFlight p (.recv request) (w.lane p) (w.tasks p) ((w.handleRequest request).lane p)
        ((w.handleRequest request).tasks p) rs ∧
      ∀ id, id ≠ p → (w.handleRequest request).lane id = w.lane id ∧
        (w.handleRequest request).tasks id = w.tasks id := by
  cases request with
  | saveSnapshot save =>
    refine ⟨save.snapshot.playerId, ((w.lane save.snapshot.playerId).queueSave save).2, rfl, ?_, ?_⟩
    · have hl : (w.handleRequest (.saveSnapshot save)).lane save.snapshot.playerId =
          ((w.lane save.snapshot.playerId).queueSave save).1 := (w.lane_handleRequest_save save _).trans (if_pos rfl)
      rw [hl]
      exact .save rfl _ _
    · intro id hid
      exact ⟨w.lane_handleRequest_of_ne hid, rfl⟩
  | commitPlayerExit exit =>
    refine ⟨exit.snapshot.playerId, ((w.lane exit.snapshot.playerId).queueExit exit).2, rfl, ?_, ?_⟩
    · have hl : (w.handleRequest (.commitPlayerExit exit)).lane exit.snapshot.playerId =
          ((w.lane exit.snapshot.playerId).queueExit exit).1 := (w.lane_handleRequest_exit exit _).trans (if_pos rfl)
      rw [hl]
      exact .exit rfl _ _
    · intro id hid
      exact ⟨w.lane_handleRequest_of_ne hid, rfl⟩

/-- A task changes among the tasks of its own player. -/
theorem tasks_split {w : Worker} {i : Nat} {t : Task} (h : w.inFlight[i]? = some t) :
    ∃ a b, w.tasks t.op.playerId = a ++ t :: b ∧
      (∀ v : Worker, v.inFlight = w.inFlight.eraseIdx i → v.tasks t.op.playerId = a ++ b ∧
        ∀ id, id ≠ t.op.playerId → v.tasks id = w.tasks id) ∧
      ∀ (v : Worker) (u : Task), u.op = t.op → v.inFlight = w.inFlight.set i u → v.tasks t.op.playerId = a ++ u :: b ∧
        ∀ id, id ≠ t.op.playerId → v.tasks id = w.tasks id := by
  obtain ⟨a, b, hab, herase, hset⟩ := exists_split_of_getElem? h
  refine ⟨a.filter fun s => s.op.playerId = t.op.playerId, b.filter fun s => s.op.playerId = t.op.playerId, ?_, ?_, ?_⟩
  · simp [tasks, hab]
  · intro v hv
    rw [herase] at hv
    refine ⟨by simp [tasks, hv], fun id hid => ?_⟩
    simp [tasks, hv, hab, Ne.symm hid]
  · intro v u hu hv
    rw [hset] at hv
    refine ⟨by simp [tasks, hv, hu], fun id hid => ?_⟩
    simp [tasks, hv, hab, hu, Ne.symm hid]

end Worker

/-- The step lemma: an event works on one player's lane and tasks and leaves the others alone, except that a
dispatch may start one operation for each. -/
theorem workerStep_spec {w w' : Worker} {ev : WorkerEvent} (h : workerStep w ev = some w') (hown : w.Own) :
    ∃ p rs, w'.replies = w.replies ++ rs ∧
      LaneStep w.inFlight p ev (w.lane p) (w.tasks p) (w'.lane p) (w'.tasks p) rs ∧
      ∀ id, id ≠ p → LaneStep w.inFlight id ev (w.lane id) (w.tasks id) (w'.lane id) (w'.tasks id) [] := by
  cases ev with
  | recv request =>
    simp only [workerStep] at h
    split at h
    · cases h
    · cases h
      obtain ⟨p, rs, hrs, hp, hother⟩ := w.recv_spec request
      refine ⟨p, rs, hrs, hp, fun id hid => ?_⟩
      rw [(hother id hid).1, (hother id hid).2]
      exact .kept _ _ _
  | recvClosed =>
    simp only [workerStep] at h
    split at h
    · cases h
    · cases h
      exact ⟨⟨0⟩, [], by simp, .kept _ _ _, fun _ _ => .kept _ _ _⟩
  | dispatch order now =>
    simp only [workerStep] at h
    split at h
    · rename_i hready
      cases h
      obtain ⟨hr, _, _, hall⟩ := w.dispatchReadyOps_spec order (Worker.nodup_of_ready hready)
        (fun id => Worker.inFlight_of_ready hready) fun id => (hown id).lane
      have hstep : ∀ id, LaneStep w.inFlight id (.dispatch order now) (w.lane id) (w.tasks id)
          ((w.dispatchReadyOps order).lane id) ((w.dispatchReadyOps order).tasks id) [] := by
        intro id
        rcases hall id with ⟨h1, h2⟩ | ⟨op, l, hidle, hnext, h1, h2⟩
        · rw [h1, h2]
          exact .kept _ _ _
        · rw [h1, h2]
          exact .dispatched hidle hnext _
      exact ⟨⟨0⟩, [], by simp [hr], hstep _, fun id _ => hstep id⟩
    · cases h
  | finish i result =>
    obtain ⟨t, ht, h⟩ := Option.bind_eq_some_iff.1 h
    split at h
    · rename_i hr
      cases h
      obtain ⟨a, b, htasks, _, hset⟩ := Worker.tasks_split ht
      obtain ⟨h1, h2⟩ := hset { w with inFlight := w.inFlight.set i { t with result := some result } }
        { t with result := some result } rfl rfl
      refine ⟨t.op.playerId, [], by simp, ?_, fun id hid => ?_⟩
      · rw [h1, htasks]
        exact .finished _ ht (by simpa using hr)
      · rw [h2 id hid]
        exact .kept _ _ _
    · cases h
  | joinNext i now =>
    obtain ⟨t, ht, h⟩ := Option.bind_eq_some_iff.1 h
    obtain ⟨r, hr, rfl⟩ := Option.map_eq_some_iff.1 h
    obtain ⟨a, b, htasks, herase, _⟩ := Worker.tasks_split ht
    unfold Worker.handleCompletedDispatch
    split
    · rename_i hl
      obtain ⟨h1, h2⟩ :=
        herase { w with inFlight := w.inFlight.eraseIdx i, replies := w.replies ++ droppedReply t.op.kind.reply } rfl
      refine ⟨t.op.playerId, droppedReply t.op.kind.reply, rfl, ?_, fun id hid => ?_⟩
      · have hlane : w.lane t.op.playerId = {} := by
          simp only [Worker.lane]
          rw [show w.lanes.get? t.op.playerId = none from hl]
          rfl
        rw [h1, htasks]
        show LaneStep _ _ _ (w.lane t.op.playerId) _ (w.lane t.op.playerId) _ _
        rw [hlane]
        exact .orphaned t
      · rw [h2 id hid]
        exact .kept _ _ _
    · rename_i lane hl
      have hlane : w.lane t.op.playerId = lane := by
        simp only [Worker.lane]
        rw [show w.lanes.get? t.op.playerId = some lane from hl]
        rfl
      set done := lane.complete t.op.kind r now with hdone
      have hlanes : ∀ id,
        (Worker.mk (if done.1.isIdle then w.lanes.erase t.op.playerId else w.lanes.insert t.op.playerId done.1)
          (w.inFlight.eraseIdx i) w.receiverClosed (w.replies ++ done.2)).lane id =
            if id = t.op.playerId then done.1.settle else w.lane id := by
        intro id
        unfold Lane.settle
        by_cases hidle : done.1.isIdle
        · rw [if_pos hidle, if_pos hidle, Worker.lane_erase]
        · rw [if_neg hidle, if_neg hidle, Worker.lane_insert]
      obtain ⟨h1, h2⟩ := herase (Worker.mk
        (if done.1.isIdle then w.lanes.erase t.op.playerId else w.lanes.insert t.op.playerId done.1)
        (w.inFlight.eraseIdx i) w.receiverClosed (w.replies ++ done.2)) rfl
      refine ⟨t.op.playerId, done.2, rfl, ?_, fun id hid => ?_⟩
      · dsimp only
        rw [hlanes, if_pos rfl, h1, htasks, hdone, hlane]
        exact .joined _ ht hr
      · dsimp only
        rw [hlanes, if_neg hid, h2 id hid]
        exact .kept _ _ _
  | joinError i =>
    obtain ⟨t, ht, h⟩ := Option.bind_eq_some_iff.1 h
    split at h
    · rename_i hr
      cases h
      obtain ⟨a, b, htasks, herase, _⟩ := Worker.tasks_split ht
      obtain ⟨h1, h2⟩ :=
        herase { w with inFlight := w.inFlight.eraseIdx i, replies := w.replies ++ droppedReply t.op.kind.reply } rfl
      refine ⟨t.op.playerId, droppedReply t.op.kind.reply, rfl, ?_, fun id hid => ?_⟩
      · rw [h1, htasks]
        exact .panicked _ ht (by simpa using hr)
      · rw [h2 id hid]
        exact .kept _ _ _
    · cases h

/-- Every player's lane makes a step of its own. -/
theorem laneStep_of_workerStep {w w' : Worker} {ev : WorkerEvent} (h : workerStep w ev = some w') (hown : w.Own)
    (id : PlayerId) : ∃ rs, LaneStep w.inFlight id ev (w.lane id) (w.tasks id) (w'.lane id) (w'.tasks id) rs := by
  obtain ⟨p, rs, _, hp, hother⟩ := workerStep_spec h hown
  by_cases hid : id = p
  · exact ⟨rs, hid ▸ hp⟩
  · exact ⟨[], hother id hid⟩

theorem workerStep_own {w w' : Worker} {ev : WorkerEvent} (h : workerStep w ev = some w') (hown : w.Own) : w'.Own := by
  intro id
  obtain ⟨rs, hstep⟩ := laneStep_of_workerStep h hown id
  exact hstep.ownRequests (hown id)

theorem workerStep_laneOk {w w' : Worker} {ev : WorkerEvent} (h : workerStep w ev = some w') (hown : w.Own)
    (hok : ∀ id, LaneOk (w.lane id) (w.tasks id)) (id : PlayerId) : LaneOk (w'.lane id) (w'.tasks id) := by
  obtain ⟨rs, hstep⟩ := laneStep_of_workerStep h hown id
  exact hstep.laneOk (hok id)

end Zohar.Persistence
