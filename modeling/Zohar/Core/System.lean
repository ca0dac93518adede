/-
One game core: the players of its map runtime, the tasks of its in-game connections, the bounded channel to the
persistence worker, the worker, and the database behind it. From zohar-sim/src/runtime/player/persistence.rs,
player/progression.rs, player/lifecycle.rs, rewards.rs and time.rs, zohar-sim/src/persistence.rs, and
zohar-gamesrv/src/handlers/ingame.rs with ingame/relocation.rs. The map thread, the connection tasks and the worker
interleave freely: an event is one step of one of them. A position is what the map sampled for the player, and only
the responses and counters that a modelled function reads are kept.
-/
import Zohar.Db.Queries
import Zohar.Persistence.Worker
import Zohar.Sim.Player

namespace Zohar.Core

open Zohar.Lib Zohar.Db Zohar.Persistence Zohar.Stats Zohar.Sim

/-! ## The map runtime -/

/-- A `SimTickerClock`, in milliseconds. -/
structure SimTickerClock where
  lastProcessedAt : Nat
  nextDueAt : Nat
  cadence : Nat
  deriving DecidableEq, Repr

namespace SimTickerClock

def phased (seed : Int) (now cadence : Nat) : SimTickerClock :=
  let phase := seed.natAbs % cadence
  let nowPhase := now % cadence
  let delay := if phase > nowPhase then phase - nowPhase else cadence - (nowPhase - phase)
  ⟨now, now + max delay 1, cadence⟩

def isDue (c : SimTickerClock) (now : Nat) : Bool := c.nextDueAt ≤ now

/-- The loop of `advance_past`; a positive cadence passes `now` before the fuel is used up. -/
def advancePast (now cadence : Nat) : Nat → Nat → Nat
  | 0, due => due
  | fuel + 1, due => if due ≤ now then advancePast now cadence fuel (due + cadence) else due

def advanceDue (c : SimTickerClock) (now : Nat) : SimTickerClock :=
  if c.isDue now then
    { c with lastProcessedAt := now, nextDueAt := advancePast now c.cadence (now + 1 - c.nextDueAt) c.nextDueAt }
  else c

def retryAfter (c : SimTickerClock) (now delay : Nat) : SimTickerClock :=
  { c with lastProcessedAt := now, nextDueAt := now + delay }

end SimTickerClock

def autosaveInterval : Nat := 30000

def autosaveRetryDelay : Nat := 1000

def deadDisconnectRestartHp : Int := 50

/-- A player entity: its `PlayerPersistenceState` and pending flush beside the components of the progression. -/
structure MapPlayer where
  netId : Nat
  live : LivePlayer
  dirty : Bool
  runtimeEpoch : PlayerRuntimeEpoch
  persistedPlaytime : PlayerPlaytime
  enteredMapAt : Nat
  autosave : SimTickerClock
  pendingFlush : Option Reply

namespace MapPlayer

def currentPlaytime (p : MapPlayer) (now : Nat) : PlayerPlaytime :=
  ⟨p.persistedPlaytime.nanos + (now - p.enteredMapAt) * 1000000⟩

/-- `capture_player_snapshot`, with the progression to be stored. -/
def snapshot (p : MapPlayer) (id : PlayerId) (mapKey : String) (now : Nat) (pos : LocalPos)
    (progression : PlayerProgressionSnapshot) : PlayerSnapshot where
  runtime :=
    { id
      runtimeEpoch := p.runtimeEpoch
      mapKey
      localPos := pos
      playtime := p.currentPlaytime now
      currentHp := some (p.live.stats.readPacket .hp)
      currentSp := some (p.live.stats.readPacket .sp)
      currentStamina := some (p.live.stats.readPacket .stamina) }
  progression

/-- `capture_active_player_snapshot` -/
def capture (p : MapPlayer) (id : PlayerId) (mapKey : String) (now : Nat) (pos : LocalPos) : PlayerSnapshot :=
  p.snapshot id mapKey now pos (playerProgressionSnapshot p.live.progression)

/-- The snapshot of `leave_player_and_snapshot`: a dead player restarts with little health. -/
def captureLeaving (p : MapPlayer) (id : PlayerId) (mapKey : String) (now : Nat) (pos : LocalPos) (alive : Bool) :
    PlayerSnapshot :=
  let s := p.capture id mapKey now pos
  if alive then s else { s with runtime := { s.runtime with currentHp := some deadDisconnectRestartHp } }

end MapPlayer

/-! ## Connections -/

inductive RelocationError where
  | commitFailed
  deriving DecidableEq, Repr

/-- Where a connection's task stands. -/
inductive ConnState where
  | playing
  /-- The snapshot is taken; `commit_player_exit` waits for room in the queue. -/
  | exiting (exitKind : PlayerExitKind) (s : Stamped)
  | awaitingExit (exitKind : PlayerExitKind) (reply : Reply)
  /-- `dispatch_handoff` has returned its effects; the player has yet to leave the source map. -/
  | handedOff (reply : Reply)
  /-- The transition to the selection phase: the flush waits for room, then for its reply. -/
  | flushing (s : Stamped)
  | awaitingFlush (s : Stamped) (reply : Reply)

/-- The snapshot that a connection has yet to bring into the database. -/
def ConnState.snapshot : ConnState → Option Stamped
  | .exiting _ s | .flushing s | .awaitingFlush s _ => some s
  | _ => none

structure InGame where
  username : String
  playerId : PlayerId
  netId : Nat
  state : ConnState
  /-- What the last `dispatch_handoff` returned, if it was an error. -/
  relocationError : Option RelocationError

/-! ## The system -/

structure Config where
  rules : PlayerStatRules
  mapKey : String
  /-- Capacity of the channel to the worker. -/
  capacity : Nat

structure System where
  players : PlayerId → Option MapPlayer
  conns : Connection → Option InGame
  queue : List PlayerPersistenceRequest
  worker : Worker
  db : GameDb
  /-- The next number for a snapshot, a reply channel and a net entity. -/
  nextStamp : Nat
  nextReply : Nat
  nextNetId : Nat

inductive MapEvent where
  | enter (k : Connection) (username : String) (b : PlayerGameplayBootstrap) (runtimeEpoch : PlayerRuntimeEpoch)
      (playtime : PlayerPlaytime) (now : Nat)
  | reward (id : PlayerId) (reward : MobExpReward)
  | coreStat (id : PlayerId) (stat : CoreStatKind) (delta : Int) (now : Nat) (pos : LocalPos)
  | finalizePendingSave (id : PlayerId)
  | markDirty (id : PlayerId)
  | autosave (id : PlayerId) (now : Nat) (pos : LocalPos)

inductive ConnEvent where
  /-- The capture of `dispatch_handoff`, with the relocation it was called for. -/
  | capture (now : Nat) (pos : LocalPos) (mapKey : String) (localPos : LocalPos)
  | disconnect (now : Nat) (pos : LocalPos) (alive : Bool)
  | phaseSelect (now : Nat) (pos : LocalPos) (alive : Bool)
  | send
  | sendTimeout
  | reply
  | replyTimeout
  /-- The map drains the `PlayerLeave` that follows a handoff. -/
  | playerLeave
  | heartbeat (now : Int)

inductive TaskEvent where
  | recv
  | dispatch (order : List PlayerId) (now : Int)
  /-- The database runs the statement of a task. -/
  | exec (i : Nat) (now : Int) (fault : Bool) (exitFault : Option ExitStage)
  | joinNext (i : Nat) (now : Int)

inductive Event where
  | map (ev : MapEvent)
  | conn (k : Connection) (ev : ConnEvent)
  | task (ev : TaskEvent)

namespace System

/-- An idle core in front of a database. -/
def start (db : GameDb) : System := ⟨fun _ => none, fun _ => none, [], .new, db, 0, 0, 0⟩

def setPlayer (s : System) (id : PlayerId) (p : Option MapPlayer) : System :=
  { s with players := Function.update s.players id p }

def setConn (s : System) (k : Connection) (c : Option InGame) : System :=
  { s with conns := Function.update s.conns k c }

/-- The request goes into the channel. -/
def push (s : System) (request : PlayerPersistenceRequest) : System := { s with queue := s.queue ++ [request] }

def full (cfg : Config) (s : System) : Bool := max cfg.capacity 1 ≤ s.queue.length

/-- What came over a reply channel; `some none` when the sender is gone. -/
def replyOf (s : System) (reply : Reply) : Option (Option PlayerPersistenceResult) :=
  (s.worker.replies.find? fun r => r.1 = reply).map Prod.snd

/-- The entity that a `LeaveMsg` is about. -/
def activePlayer (s : System) (id : PlayerId) (netId : Nat) : Option MapPlayer :=
  (s.players id).filter fun p => p.netId = netId

end System

section
variable [GrowthRng] (cfg : Config)

/-! ## Steps of the map -/

/-- `handle_player_enter` for a player that a connection has loaded. The statistics must hydrate. -/
def enterPlayer (s : System) (k : Connection) (username : String) (b : PlayerGameplayBootstrap)
    (runtimeEpoch : PlayerRuntimeEpoch) (playtime : PlayerPlaytime) (now : Nat) : Option System :=
  match cfg.rules.hydratePlayer b with
  | some (some h) =>
    let player : MapPlayer :=
      { netId := s.nextNetId
        live := ⟨b, ActorStatsRuntime.new h.source h.state, h.bootstrapSync.publicState.stats⟩
        dirty := false
        runtimeEpoch
        persistedPlaytime := playtime
        enteredMapAt := now
        autosave := .phased b.playerId.raw now autosaveInterval
        pendingFlush := none }
    some { (s.setPlayer b.playerId (some player)).setConn k
      (some ⟨username, b.playerId, s.nextNetId, .playing, none⟩) with
      nextNetId := s.nextNetId + 1 }
  | _ => none

/-- One kill of `grant_mob_death_rewards`; the frame's projection marks the player dirty. -/
def grantReward (s : System) (id : PlayerId) (reward : MobExpReward) : Option System :=
  (s.players id).bind fun p =>
    ((applyPlayerExpReward cfg.rules reward).run p.live).map fun r =>
      match r with
      | (.ok (some _), live) => s.setPlayer id (some { p with live, dirty := true })
      | (_, live) => s.setPlayer id (some { p with live })

/-- `enqueue_progression_intent` for a core stat; it is not called while a flush is pending. -/
def enqueueProgressionIntent (s : System) (id : PlayerId) (stat : CoreStatKind) (delta : Int) (now : Nat)
    (pos : LocalPos) :
    Option System :=
  (s.players id).bind fun p =>
    if p.pendingFlush.isSome then none
    else
      match validateCoreStatIntent cfg.rules p.live stat delta with
      | none => none
      | some (.error _) => some s
      | some (.ok validated) =>
        if s.full cfg then some s
        else
          let snapshot : Stamped := ⟨s.nextStamp, p.snapshot id cfg.mapKey now pos validated.progression⟩
          let s' := { s.push (.saveSnapshot ⟨snapshot, .flushNow, some s.nextReply⟩) with
            nextStamp := s.nextStamp + 1, nextReply := s.nextReply + 1 }
          ((applyValidatedCoreStatSave validated).run p.live).map fun r =>
            match r with
            | (.ok (), live) => s'.setPlayer id (some { p with live, pendingFlush := some s.nextReply })
            | (.error _, live) => s'.setPlayer id (some { p with live })

/-- `finalize_pending_save`; a failed flush marks the player dirty in the same frame. -/
def finalizePendingSave (s : System) (id : PlayerId) : Option System :=
  (s.players id).bind fun p => p.pendingFlush.bind fun reply =>
    match s.replyOf reply with
    | none => none
    | some (some (.ok ())) => some (s.setPlayer id (some { p with pendingFlush := none }))
    | some _ => some (s.setPlayer id (some { p with pendingFlush := none, dirty := true }))

/-- One player of `enqueue_due_autosaves`. -/
def enqueueDueAutosave (s : System) (id : PlayerId) (now : Nat) (pos : LocalPos) : Option System :=
  (s.players id).bind fun p =>
    if !p.autosave.isDue now || p.pendingFlush.isSome then none
    else if !p.dirty then some (s.setPlayer id (some { p with autosave := p.autosave.advanceDue now }))
    else if s.full cfg then
      some (s.setPlayer id (some { p with autosave := p.autosave.retryAfter now autosaveRetryDelay }))
    else
      let snapshot : Stamped := ⟨s.nextStamp, p.capture id cfg.mapKey now pos⟩
      some { (s.push (.saveSnapshot ⟨snapshot, .autosave, none⟩)).setPlayer id
          (some { p with dirty := false, autosave := p.autosave.advanceDue now }) with
        nextStamp := s.nextStamp + 1 }

def mapStep (s : System) : MapEvent → Option System
  | .enter k username b epoch playtime now => enterPlayer cfg s k username b epoch playtime now
  | .reward id reward => grantReward cfg s id reward
  | .coreStat id stat delta now pos => enqueueProgressionIntent cfg s id stat delta now pos
  | .finalizePendingSave id => finalizePendingSave s id
  | .markDirty id => (s.players id).map fun p => s.setPlayer id (some { p with dirty := true })
  | .autosave id now pos => enqueueDueAutosave cfg s id now pos

end

/-! ## Steps of a connection -/

section
variable (cfg : Config)

/-- `leave_player_and_snapshot` for a connection that ends or goes back to the selection; where the player is not
on the map, the lease is released at once. -/
def leaveAndSnapshot (s : System) (k : Connection) (c : InGame) (now : Nat) (pos : LocalPos) (alive : Bool)
    (next : Stamped → ConnState) : System :=
  match s.activePlayer c.playerId c.netId with
  | some p =>
    let snapshot : Stamped := ⟨s.nextStamp, p.captureLeaving c.playerId cfg.mapKey now pos alive⟩
    { (s.setPlayer c.playerId none).setConn k
      (some { c with state := next snapshot }) with nextStamp := s.nextStamp + 1 }
  | none => { s.setConn k none with db := (releaseSession c.username k.serverId k.connectionId s.db).2 }

/-- What follows a failed exit: a handoff is given up and the player plays on, a disconnect is over. -/
def exitFailed (s : System) (k : Connection) (c : InGame) : PlayerExitKind → System
  | .handoff => s.setConn k (some { c with state := .playing, relocationError := some .commitFailed })
  | .disconnect => s.setConn k none

def exitDone (s : System) (k : Connection) (c : InGame) (reply : Reply) : PlayerExitKind → System
  | .handoff => s.setConn k (some { c with state := .handedOff reply })
  | .disconnect => s.setConn k none

def connStep (s : System) (k : Connection) (c : InGame) : ConnEvent → Option System
  | .capture now pos mapKey localPos =>
    match c.state with
    | .playing =>
      match s.activePlayer c.playerId c.netId with
      | some p =>
        let snapshot : Stamped :=
          ⟨s.nextStamp, (p.capture c.playerId cfg.mapKey now pos).withRuntimeLocation mapKey localPos⟩
        some { s.setConn k (some { c with state := .exiting .handoff snapshot, relocationError := none }) with
          nextStamp := s.nextStamp + 1 }
      | none => some (exitFailed s k c .handoff)
    | _ => none
  | .disconnect now pos alive =>
    match c.state with
    -- a handoff whose packet could not be sent ends like any other session
    | .playing | .handedOff _ => some (leaveAndSnapshot cfg s k c now pos alive (.exiting .disconnect))
    | _ => none
  | .phaseSelect now pos alive =>
    match c.state with
    | .playing => some (leaveAndSnapshot cfg s k c now pos alive .flushing)
    | _ => none
  | .send =>
    if s.full cfg then none
    else
      match c.state with
      | .exiting kind snapshot =>
        some { (s.push
          (.commitPlayerExit ⟨kind, c.username, k.serverId, k.connectionId, snapshot, s.nextReply⟩)).setConn k
            (some { c with state := .awaitingExit kind s.nextReply }) with
          nextReply := s.nextReply + 1 }
      | .flushing snapshot =>
        some { (s.push (.saveSnapshot ⟨snapshot, .flushNow, some s.nextReply⟩)).setConn k
            (some { c with state := .awaitingFlush snapshot s.nextReply }) with
          nextReply := s.nextReply + 1 }
      | _ => none
  | .sendTimeout =>
    match c.state with
    | .exiting kind _ => some (exitFailed s k c kind)
    | .flushing snapshot => some (s.setConn k (some { c with state := .exiting .disconnect snapshot }))
    | _ => none
  | .reply =>
    match c.state with
    | .awaitingExit kind reply =>
      (s.replyOf reply).map fun r =>
        match r with
        | some (.ok ()) => exitDone s k c reply kind
        | _ => exitFailed s k c kind
    | .awaitingFlush snapshot reply =>
      (s.replyOf reply).map fun r =>
        match r with
        | some (.ok ()) => s.setConn k none
        | _ => s.setConn k (some { c with state := .exiting .disconnect snapshot })
    | _ => none
  | .replyTimeout =>
    match c.state with
    | .awaitingExit kind reply => if (s.replyOf reply).isNone then some (exitFailed s k c kind) else none
    | .awaitingFlush snapshot reply =>
      if (s.replyOf reply).isNone then
        some (s.setConn k (some { c with state := .exiting .disconnect snapshot }))
      else none
    | _ => none
  | .playerLeave =>
    match c.state with
    | .handedOff _ =>
      match s.activePlayer c.playerId c.netId with
      | some _ => some ((s.setPlayer c.playerId none).setConn k none)
      | none => some (s.setConn k none)
    | _ => none
  | .heartbeat now => some { s with db := updateSessionHeartbeat now c.username s.db }

end

/-! ## Steps of the worker -/

/-- The error's text without the driver's part. -/
def dbErrorText : DbError → String
  | .sqlx context => context
  | .invariant message => "database invariant violated: " ++ message

/-- The body of a dispatched task: its result and the database after it. -/
def runOp (db : GameDb) (op : DispatchOp) (now : Int) (fault : Bool) (exitFault : Option ExitStage) :
    PlayerPersistenceResult × GameDb :=
  match op.kind with
  | .save save =>
    let (outcome, db') := savePlayerSnapshot now fault save.snapshot.snapshot db
    match outcome, save.urgency with
    | .ok .saved, _ => (.ok (), db')
    | .ok .staleOwner, .autosave => (.ok (), db')
    | .ok .staleOwner, .flushNow => (.error "owned player state flush rejected because runtime ownership moved", db')
    | .error e, _ => (.error (dbErrorText e), db')
  | .commitPlayerExit exit =>
    let (outcome, db') := commitPlayerExit now exitFault exit.exitKind exit.username exit.serverId exit.connectionId
      exit.snapshot.snapshot db
    match outcome with
    | .ok () => (.ok (), db')
    | .error e => (.error (dbErrorText e), db')

/-- Whether the statement of a task writes its snapshot to the rows. -/
def runOpWrites (db : GameDb) (op : DispatchOp) (now : Int) (fault : Bool) (exitFault : Option ExitStage) : Bool :=
  match op.kind with
  | .save save =>
    match (savePlayerSnapshot now fault save.snapshot.snapshot db).1 with
    | .ok .saved => true
    | _ => false
  | .commitPlayerExit exit =>
    match (commitPlayerExit now exitFault exit.exitKind exit.username exit.serverId exit.connectionId
      exit.snapshot.snapshot db).1 with
    | .ok () => true
    | .error _ => false

section
variable (db : GameDb) (pid : PlayerId) (exit : PendingExit) (now : Int) (fault : Bool) (exitFault : Option ExitStage)

theorem runOp_exit_snd :
    (runOp db ⟨pid, .commitPlayerExit exit⟩ now fault exitFault).2 = (commitPlayerExit now exitFault
    exit.exitKind exit.username exit.serverId exit.connectionId exit.snapshot.snapshot db).2 := by
  simp only [runOp]
  split <;> rfl

theorem runOp_exit_ok : (runOp db ⟨pid, .commitPlayerExit exit⟩ now fault exitFault).1 = .ok () ↔ (commitPlayerExit now
    exitFault exit.exitKind exit.username exit.serverId exit.connectionId exit.snapshot.snapshot db).1 = .ok () := by
  simp only [runOp]
  split <;> simp_all

theorem runOpWrites_exit :
    runOpWrites db ⟨pid, .commitPlayerExit exit⟩ now fault exitFault = true ↔ (commitPlayerExit now
    exitFault exit.exitKind exit.username exit.serverId exit.connectionId exit.snapshot.snapshot db).1 = .ok () := by
  simp only [runOpWrites]
  split <;> simp_all

end

def taskStep (s : System) : TaskEvent → Option System
  | .recv =>
    match s.queue with
    | [] => none
    | request :: queue => (workerStep s.worker (.recv request)).map fun worker => { s with worker, queue }
  | .dispatch order now => (workerStep s.worker (.dispatch order now)).map fun worker => { s with worker }
  | .exec i now fault exitFault =>
    (s.worker.inFlight[i]?).bind fun t =>
      let (result, db) := runOp s.db t.op now fault exitFault
      (workerStep s.worker (.finish i result)).map fun worker => { s with worker, db }
  | .joinNext i now => (workerStep s.worker (.joinNext i now)).map fun worker => { s with worker }

def systemStep [GrowthRng] (cfg : Config) (s : System) : Event → Option System
  | .map ev => mapStep cfg s ev
  | .conn k ev => (s.conns k).bind fun c => connStep cfg s k c ev
  | .task ev => taskStep s ev

/-! ## What a step leaves alone -/

section
variable {cfg : Config} {s s' : System}

/-- The connection, the username and the player of an `enter`. -/
def MapEvent.entering : MapEvent → Option (Connection × String × PlayerId)
  | .enter k username b _ _ _ => some (k, username, b.playerId)
  | _ => none

/-- The map hands over at most one save, with a reply channel of its own, and works on nothing behind the queue. -/
structure MapFrame (s s' : System) : Prop where
  worker : s'.worker = s.worker
  db : s'.db = s.db
  nextNetId : s.nextNetId ≤ s'.nextNetId
  queue : (s'.queue = s.queue ∧ s'.nextReply = s.nextReply) ∨ ∃ save, s'.queue = s.queue ++ [.saveSnapshot save] ∧
    ((save.reply = none ∧ s'.nextReply = s.nextReply) ∨
      (save.reply = some s.nextReply ∧ s'.nextReply = s.nextReply + 1))

theorem MapFrame.of_eq (hw : s'.worker = s.worker) (hd : s'.db = s.db) (hn : s.nextNetId ≤ s'.nextNetId)
    (hq : s'.queue = s.queue) (hr : s'.nextReply = s.nextReply) : MapFrame s s' := ⟨hw, hd, hn, .inl ⟨hq, hr⟩⟩

/-- What identifies a player on the map. -/
def System.identity (s : System) (id : PlayerId) : Option (Nat × PlayerRuntimeEpoch) :=
  (s.players id).map fun p => (p.netId, p.runtimeEpoch)

theorem System.identity_setPlayer {p q : MapPlayer} {id : PlayerId} (h : s.players id = some p) (hn : q.netId = p.netId)
    (he : q.runtimeEpoch = p.runtimeEpoch) (id' : PlayerId) :
    (s.setPlayer id (some q)).identity id' = s.identity id' := by
  simp only [System.identity, System.setPlayer]
  by_cases hid : id' = id
  · subst hid
    rw [Function.update_self, h]
    simp [hn, he]
  · rw [Function.update_of_ne hid]

theorem enterPlayer_spec [GrowthRng] {k : Connection} {username : String} {b : PlayerGameplayBootstrap}
    {epoch : PlayerRuntimeEpoch} {playtime : PlayerPlaytime} {now : Nat}
    (h : enterPlayer cfg s k username b epoch playtime now = some s') :
    (∃ p, s'.players = Function.update s.players b.playerId (some p) ∧ p.netId = s.nextNetId ∧ p.runtimeEpoch = epoch) ∧
      s'.conns = Function.update s.conns k (some ⟨username, b.playerId, s.nextNetId, .playing, none⟩) ∧
      s'.nextNetId = s.nextNetId + 1 := by
  simp only [enterPlayer] at h
  split at h
  · cases h
    exact ⟨⟨_, rfl, rfl, rfl⟩, rfl, rfl⟩
  · cases h

theorem mapStep_frame [GrowthRng] {ev : MapEvent} (h : mapStep cfg s ev = some s') :
    MapFrame s s' ∧ (ev.entering = none → s'.conns = s.conns ∧ ∀ id, s'.identity id = s.identity id) := by
  cases ev with
  | enter k username b epoch playtime now =>
    simp only [mapStep, enterPlayer] at h
    split at h
    · cases h
      exact ⟨.of_eq rfl rfl (Nat.le_succ _) rfl rfl, by rintro ⟨⟩⟩
    · cases h
  | reward id reward =>
    obtain ⟨p, hp, h⟩ := Option.bind_eq_some_iff.1 h
    obtain ⟨r, _, rfl⟩ := Option.map_eq_some_iff.1 h
    split
    all_goals exact ⟨.of_eq rfl rfl le_rfl rfl rfl, fun _ => ⟨rfl, System.identity_setPlayer hp rfl rfl⟩⟩
  | coreStat id stat delta now pos =>
    obtain ⟨p, hp, h⟩ := Option.bind_eq_some_iff.1 h
    split at h
    · cases h
    · split at h
      · cases h
      · cases h
        exact ⟨.of_eq rfl rfl le_rfl rfl rfl, fun _ => ⟨rfl, fun _ => rfl⟩⟩
      · split at h
        · cases h
          exact ⟨.of_eq rfl rfl le_rfl rfl rfl, fun _ => ⟨rfl, fun _ => rfl⟩⟩
        · obtain ⟨r, _, rfl⟩ := Option.map_eq_some_iff.1 h
          split
          all_goals exact ⟨⟨rfl, rfl, le_rfl, .inr ⟨_, rfl, .inr ⟨rfl, rfl⟩⟩⟩,
            fun _ => ⟨rfl, System.identity_setPlayer hp rfl rfl⟩⟩
  | finalizePendingSave id =>
    obtain ⟨p, hp, h⟩ := Option.bind_eq_some_iff.1 h
    obtain ⟨reply, _, h⟩ := Option.bind_eq_some_iff.1 h
    split at h
    · cases h
    all_goals
      cases h
      exact ⟨.of_eq rfl rfl le_rfl rfl rfl, fun _ => ⟨rfl, System.identity_setPlayer hp rfl rfl⟩⟩
  | markDirty id =>
    obtain ⟨p, hp, rfl⟩ := Option.map_eq_some_iff.1 h
    exact ⟨.of_eq rfl rfl le_rfl rfl rfl, fun _ => ⟨rfl, System.identity_setPlayer hp rfl rfl⟩⟩
  | autosave id now pos =>
    obtain ⟨p, hp, h⟩ := Option.bind_eq_some_iff.1 h
    split at h
    · cases h
    · split at h
      · cases h
        exact ⟨.of_eq rfl rfl le_rfl rfl rfl, fun _ => ⟨rfl, System.identity_setPlayer hp rfl rfl⟩⟩
      · split at h
        · cases h
          exact ⟨.of_eq rfl rfl le_rfl rfl rfl, fun _ => ⟨rfl, System.identity_setPlayer hp rfl rfl⟩⟩
        · cases h
          exact ⟨⟨rfl, rfl, le_rfl, .inr ⟨_, rfl, .inl ⟨rfl, rfl⟩⟩⟩,
            fun _ => ⟨rfl, System.identity_setPlayer hp rfl rfl⟩⟩

/-- A connection hands over at most the snapshot that it holds, with a reply channel of its own, and works on its own
entry, its own player and its own session. -/
structure ConnFrame (s s' : System) (k : Connection) (c : InGame) : Prop where
  worker : s'.worker = s.worker
  nextNetId : s'.nextNetId = s.nextNetId
  conns : ∀ k', k' ≠ k → s'.conns k' = s.conns k'
  entry : ∀ c', s'.conns k = some c' → c'.username = c.username ∧ c'.playerId = c.playerId ∧ c'.netId = c.netId ∧
    ∀ x, c'.state.snapshot = some x → x.playerId = c.playerId ∨ c.state.snapshot = some x
  players : ∀ id, s'.players id = s.players id ∨ (id = c.playerId ∧ s'.players id = none)
  db : s'.db = s.db ∨ (∃ now, s'.db = updateSessionHeartbeat now c.username s.db) ∨
    s'.db = (releaseSession c.username k.serverId k.connectionId s.db).2
  queue : (s'.queue = s.queue ∧ s'.nextReply = s.nextReply) ∨ ∃ request, s'.queue = s.queue ++ [request] ∧
    c.state.snapshot = some request.snapshot ∧ request.reply = some s.nextReply ∧ s'.nextReply = s.nextReply + 1 ∧
    ∀ exit, request = .commitPlayerExit exit → exit.username = c.username

section
variable {k : Connection} {c : InGame}

theorem System.setConn_conns (s : System) (k : Connection) (c : Option InGame) (k' : Connection) (h : k' ≠ k) :
    (s.setConn k c).conns k' = s.conns k' := Function.update_of_ne h _ _

@[simp] theorem System.setConn_self (s : System) (k : Connection) (c : Option InGame) : (s.setConn k c).conns k = c :=
  Function.update_self ..

theorem ConnFrame.setConn {c' : InGame} (n : Nat) (hu : c'.username = c.username) (hp : c'.playerId = c.playerId)
    (hn : c'.netId = c.netId)
    (hx : ∀ x, c'.state.snapshot = some x → x.playerId = c.playerId ∨ c.state.snapshot = some x) :
    ConnFrame s { s.setConn k (some c') with nextStamp := n } k c := by
  refine ⟨rfl, rfl, s.setConn_conns k _, ?_, fun _ => .inl rfl, .inl rfl, .inl ⟨rfl, rfl⟩⟩
  intro c'' h
  obtain rfl : c' = c'' := by simpa using h
  exact ⟨hu, hp, hn, hx⟩

theorem ConnFrame.closed : ConnFrame s (s.setConn k none) k c := by
  refine ⟨rfl, rfl, s.setConn_conns k _, ?_, fun _ => .inl rfl, .inl rfl, .inl ⟨rfl, rfl⟩⟩
  intro c'' h
  simp at h

theorem System.setPlayer_none (s : System) (id id' : PlayerId) :
    (s.setPlayer id none).players id' = s.players id' ∨ (id' = id ∧ (s.setPlayer id none).players id' = none) := by
  simp only [System.setPlayer]
  by_cases hid : id' = id
  · exact .inr ⟨hid, by rw [hid, Function.update_self]⟩
  · exact .inl (Function.update_of_ne hid _ _)

theorem leaveAndSnapshot_frame (now : Nat) (pos : LocalPos) (alive : Bool) {next : Stamped → ConnState}
    (hnext : ∀ x, (next x).snapshot = some x) : ConnFrame s (leaveAndSnapshot cfg s k c now pos alive next) k c := by
  unfold leaveAndSnapshot
  split
  · rename_i p _
    refine ⟨rfl, rfl, System.setConn_conns _ k _, ?_, s.setPlayer_none c.playerId, .inl rfl, .inl ⟨rfl, rfl⟩⟩
    intro c' h
    simp only [System.setConn_self, Option.some.injEq] at h
    subst h
    refine ⟨rfl, rfl, rfl, fun x hx => .inl ?_⟩
    rw [hnext] at hx
    cases hx
    unfold MapPlayer.captureLeaving
    cases alive <;> rfl
  · refine ⟨rfl, rfl, System.setConn_conns _ k _, ?_, fun _ => .inl rfl, .inr (.inr rfl), .inl ⟨rfl, rfl⟩⟩
    intro c' h
    simp at h

theorem exitFailed_frame (kind : PlayerExitKind) : ConnFrame s (exitFailed s k c kind) k c := by
  cases kind with
  | handoff => exact .setConn s.nextStamp rfl rfl rfl (by rintro _ ⟨⟩)
  | disconnect => exact .closed

theorem exitDone_frame (reply : Reply) (kind : PlayerExitKind) : ConnFrame s (exitDone s k c reply kind) k c := by
  cases kind with
  | handoff => exact .setConn s.nextStamp rfl rfl rfl (by rintro _ ⟨⟩)
  | disconnect => exact .closed

theorem connStep_frame {ev : ConnEvent} (hc : s.conns k = some c) (h : connStep cfg s k c ev = some s') :
    ConnFrame s s' k c := by
  cases ev with
  | capture now pos mapKey localPos =>
    simp only [connStep] at h
    split at h
    · split at h
      · cases h
        exact .setConn _ rfl rfl rfl (by rintro _ ⟨⟩; exact .inl rfl)
      · cases h
        exact exitFailed_frame _
    · cases h
  | disconnect now pos alive =>
    simp only [connStep] at h
    split at h
    · cases h
      exact leaveAndSnapshot_frame now pos alive fun _ => rfl
    · cases h
      exact leaveAndSnapshot_frame now pos alive fun _ => rfl
    · cases h
  | phaseSelect now pos alive =>
    simp only [connStep] at h
    split at h
    · cases h
      exact leaveAndSnapshot_frame now pos alive fun _ => rfl
    · cases h
  | send =>
    simp only [connStep] at h
    split at h
    · cases h
    · split at h
      · rename_i hst
        cases h
        refine ⟨rfl, rfl, System.setConn_conns _ k _, ?_, fun _ => .inl rfl, .inl rfl, .inr ⟨_, rfl, ?_, rfl, rfl, ?_⟩⟩
        · intro c' h
          simp only [System.setConn_self, Option.some.injEq] at h
          subst h
          exact ⟨rfl, rfl, rfl, by rintro _ ⟨⟩⟩
        · rw [hst]; rfl
        · rintro _ ⟨⟩; rfl
      · rename_i hst
        cases h
        refine ⟨rfl, rfl, System.setConn_conns _ k _, ?_, fun _ => .inl rfl, .inl rfl, .inr ⟨_, rfl, ?_, rfl, rfl, ?_⟩⟩
        · intro c' h
          simp only [System.setConn_self, Option.some.injEq] at h
          subst h
          exact ⟨rfl, rfl, rfl, fun x hx => .inr (by rw [hst]; exact hx)⟩
        · rw [hst]; rfl
        · rintro _ ⟨⟩
      · cases h
  | sendTimeout =>
    simp only [connStep] at h
    split at h
    · cases h
      exact exitFailed_frame _
    · rename_i hst
      cases h
      exact .setConn s.nextStamp rfl rfl rfl fun x hx => .inr (by rw [hst]; exact hx)
    · cases h
  | reply =>
    simp only [connStep] at h
    split at h
    · obtain ⟨r, _, rfl⟩ := Option.map_eq_some_iff.1 h
      split
      · exact exitDone_frame _ _
      · exact exitFailed_frame _
    · rename_i hst
      obtain ⟨r, _, rfl⟩ := Option.map_eq_some_iff.1 h
      split
      · exact .closed
      · exact .setConn s.nextStamp rfl rfl rfl fun x hx => .inr (by rw [hst]; exact hx)
    · cases h
  | replyTimeout =>
    simp only [connStep] at h
    split at h
    · split at h
      · cases h
        exact exitFailed_frame _
      · cases h
    · rename_i hst
      split at h
      · cases h
        exact .setConn s.nextStamp rfl rfl rfl fun x hx => .inr (by rw [hst]; exact hx)
      · cases h
    · cases h
  | playerLeave =>
    simp only [connStep] at h
    split at h
    · split at h
      · cases h
        refine ⟨rfl, rfl, System.setConn_conns _ k _, ?_, s.setPlayer_none c.playerId, .inl rfl, .inl ⟨rfl, rfl⟩⟩
        intro c' h
        simp at h
      · cases h
        exact .closed
    · cases h
  | heartbeat now =>
    cases h
    refine ⟨rfl, rfl, fun _ _ => rfl, ?_, fun _ => .inl rfl, .inr (.inl ⟨now, rfl⟩), .inl ⟨rfl, rfl⟩⟩
    intro c' h
    obtain rfl : c = c' := by simpa [hc] using h
    exact ⟨rfl, rfl, rfl, fun x hx => .inr hx⟩

end

/-! ## What a connection does next -/

/-- The connection is on its way out, and its player is off the map. -/
def ConnState.leaves : ConnState → Bool
  | .exiting .disconnect _ | .awaitingExit .disconnect _ | .flushing _ | .awaitingFlush _ _ => true
  | _ => false

/-- All that a step can do to the connection's own entry, if it stays. -/
inductive ConnMove (s : System) (k : Connection) (c : InGame) (ev : ConnEvent) (s' : System) (c' : InGame) : Prop
  | captured {q : MapPlayer} {x : Stamped} (hev : ∃ now pos mapKey localPos, ev = .capture now pos mapKey localPos)
      (hst : c.state = .playing) (hq : s.activePlayer c.playerId c.netId = some q)
      (hx : x.snapshot.progression = playerProgressionSnapshot q.live.progression)
        (hst' : c'.state = .exiting .handoff x)
      (hp : s'.players = s.players) (hdb : s'.db = s.db)
  | sent {x : Stamped} (hst : c.state = .exiting .handoff x) (hst' : c'.state = .awaitingExit .handoff s.nextReply)
      (hq : s'.queue = s.queue ++
        [.commitPlayerExit ⟨.handoff, c.username, k.serverId, k.connectionId, x, s.nextReply⟩])
      (hn : s'.nextReply = s.nextReply + 1) (hp : s'.players = s.players) (hdb : s'.db = s.db)
  | done {r : Reply} (hst : c.state = .awaitingExit .handoff r) (hr : s.replyOf r = some (some (.ok ())))
      (hst' : c'.state = .handedOff r)
  /-- The handoff is given up. -/
  | failed (hst : c.state = .playing ∨ (∃ x, c.state = .exiting .handoff x) ∨ ∃ r, c.state = .awaitingExit .handoff r ∧
        ((∃ y, s.replyOf r = some y ∧ y ≠ some (.ok ())) ∨ s.replyOf r = none ∧ ev = .replyTimeout))
      (hst' : c'.state = .playing) (hp : s'.players = s.players) (hdb : s'.db = s.db)
  | beat {now : Int} (hst' : c' = c) (hs' : s' = { s with db := updateSessionHeartbeat now c.username s.db })
  | leaving (hst' : c'.state.leaves = true)

section
variable {k : Connection} {c c' : InGame}

theorem leaveAndSnapshot_leaves {now : Nat} {pos : LocalPos} {alive : Bool} {next : Stamped → ConnState}
    (hnext : ∀ x, (next x).leaves = true) (hc' : (leaveAndSnapshot cfg s k c now pos alive next).conns k = some c') :
    c'.state.leaves = true := by
  unfold leaveAndSnapshot at hc'
  split at hc'
  · simp only [System.setConn_self, Option.some.injEq] at hc'
    subst hc'
    exact hnext _
  · simp at hc'

/-- A handoff that failed is over, and so is a disconnect. -/
theorem exitFailed_conn {kind : PlayerExitKind} (hc' : (exitFailed s k c kind).conns k = some c') :
    kind = .handoff ∧ c'.state = .playing := by
  cases kind with
  | handoff =>
    simp only [exitFailed, System.setConn_self, Option.some.injEq] at hc'
    subst hc'
    exact ⟨rfl, rfl⟩
  | disconnect => simp [exitFailed] at hc'

theorem connStep_move {ev : ConnEvent} (hc : s.conns k = some c) (h : connStep cfg s k c ev = some s')
    (hc' : s'.conns k = some c') : ConnMove s k c ev s' c' := by
  cases ev with
  | capture now pos mapKey localPos =>
    simp only [connStep] at h
    split at h
    · rename_i hst
      split at h
      · rename_i q hq
        cases h
        simp only [System.setConn_self, Option.some.injEq] at hc'
        subst hc'
        exact .captured ⟨_, _, _, _, rfl⟩ hst hq rfl rfl rfl rfl
      · cases h
        exact .failed (.inl hst) (exitFailed_conn hc').2 rfl rfl
    · cases h
  | disconnect now pos alive =>
    simp only [connStep] at h
    split at h <;> cases h
    all_goals exact .leaving (leaveAndSnapshot_leaves (fun _ => rfl) hc')
  | phaseSelect now pos alive =>
    simp only [connStep] at h
    split at h <;> cases h
    exact .leaving (leaveAndSnapshot_leaves (fun _ => rfl) hc')
  | send =>
    simp only [connStep] at h
    split at h
    · cases h
    · split at h
      · rename_i kind x hst
        cases h
        simp only [System.setConn_self, Option.some.injEq] at hc'
        subst hc'
        cases kind with
        | handoff => exact .sent hst rfl rfl rfl rfl rfl
        | disconnect => exact .leaving rfl
      · cases h
        simp only [System.setConn_self, Option.some.injEq] at hc'
        subst hc'
        exact .leaving rfl
      · cases h
  | sendTimeout =>
    simp only [connStep] at h
    split at h
    · rename_i kind x hst
      cases h
      obtain ⟨rfl, hst'⟩ := exitFailed_conn hc'
      exact .failed (.inr (.inl ⟨x, hst⟩)) hst' rfl rfl
    · cases h
      simp only [System.setConn_self, Option.some.injEq] at hc'
      subst hc'
      exact .leaving rfl
    · cases h
  | reply =>
    simp only [connStep] at h
    split at h
    · rename_i kind r hst
      obtain ⟨y, hy, h⟩ := Option.map_eq_some_iff.1 h
      split at h
      · subst h
        cases kind with
        | handoff =>
          simp only [exitDone, System.setConn_self, Option.some.injEq] at hc'
          subst hc'
          exact .done hst hy rfl
        | disconnect => simp [exitDone] at hc'
      · rename_i hne
        subst h
        obtain ⟨rfl, hst'⟩ := exitFailed_conn hc'
        exact .failed (.inr (.inr ⟨r, hst, .inl ⟨y, hy, hne⟩⟩)) hst' rfl rfl
    · obtain ⟨y, hy, h⟩ := Option.map_eq_some_iff.1 h
      split at h
      · subst h
        simp at hc'
      · subst h
        simp only [System.setConn_self, Option.some.injEq] at hc'
        subst hc'
        exact .leaving rfl
    · cases h
  | replyTimeout =>
    simp only [connStep] at h
    split at h
    · rename_i kind r hst
      split at h
      · rename_i hnone
        cases h
        obtain ⟨rfl, hst'⟩ := exitFailed_conn hc'
        exact .failed (.inr (.inr ⟨r, hst, .inr ⟨by simpa using hnone, rfl⟩⟩)) hst' rfl rfl
      · cases h
    · split at h
      · cases h
        simp only [System.setConn_self, Option.some.injEq] at hc'
        subst hc'
        exact .leaving rfl
      · cases h
    · cases h
  | playerLeave =>
    simp only [connStep] at h
    split at h
    · split at h <;> cases h <;> simp at hc'
    · cases h
  | heartbeat now =>
    cases h
    obtain rfl : c = c' := by simpa [hc] using hc'
    exact .beat rfl rfl

end

/-- The database as a step of the worker leaves it: only the body of a task writes. -/
inductive TaskDb (s : System) : TaskEvent → WorkerEvent → GameDb → Prop
  | kept {ev : TaskEvent} {wev : WorkerEvent} (hev : ∀ i now fault exitFault, ev ≠ .exec i now fault exitFault)
      (hwev : ∀ i result, wev ≠ .finish i result) : TaskDb s ev wev s.db
  | exec {i : Nat} {now : Int} {fault : Bool} {exitFault : Option ExitStage} {task : Task}
      (ht : s.worker.inFlight[i]? = some task) : TaskDb s (.exec i now fault exitFault)
        (.finish i (runOp s.db task.op now fault exitFault).1) (runOp s.db task.op now fault exitFault).2

/-- A step of the worker: one event of its loop, with the request taken from the queue. -/
structure TaskFrame (s s' : System) (ev : TaskEvent) (wev : WorkerEvent) : Prop where
  worker : workerStep s.worker wev = some s'.worker
  conns : s'.conns = s.conns
  players : s'.players = s.players
  nextNetId : s'.nextNetId = s.nextNetId
  request : ∀ request, wev = .recv request → request ∈ s.queue
  db : TaskDb s ev wev s'.db

theorem taskStep_frame {ev : TaskEvent} (hs : taskStep s ev = some s') : ∃ wev, TaskFrame s s' ev wev := by
  cases ev with
  | recv =>
    simp only [taskStep] at hs
    split at hs
    · cases hs
    · rename_i request rest hq
      obtain ⟨w, hw, rfl⟩ := Option.map_eq_some_iff.1 hs
      refine ⟨_, hw, rfl, rfl, rfl, ?_, .kept (by rintro _ _ _ _ ⟨⟩) (by rintro _ _ ⟨⟩)⟩
      rintro _ ⟨⟩
      rw [hq]
      exact List.mem_cons_self
  | dispatch order now =>
    obtain ⟨w, hw, rfl⟩ := Option.map_eq_some_iff.1 hs
    exact ⟨_, hw, rfl, rfl, rfl, by rintro _ ⟨⟩, .kept (by rintro _ _ _ _ ⟨⟩) (by rintro _ _ ⟨⟩)⟩
  | exec i now fault exitFault =>
    obtain ⟨task, ht, hs⟩ := Option.bind_eq_some_iff.1 hs
    obtain ⟨w, hw, rfl⟩ := Option.map_eq_some_iff.1 hs
    exact ⟨_, hw, rfl, rfl, rfl, by rintro _ ⟨⟩, .exec ht⟩
  | joinNext i now =>
    obtain ⟨w, hw, rfl⟩ := Option.map_eq_some_iff.1 hs
    exact ⟨_, hw, rfl, rfl, rfl, by rintro _ ⟨⟩, .kept (by rintro _ _ _ _ ⟨⟩) (by rintro _ _ ⟨⟩)⟩

end

end Zohar.Core
