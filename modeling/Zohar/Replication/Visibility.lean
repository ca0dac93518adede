/-
What each player on a map is shown. From zohar-sim/src/runtime: net/replication.rs, player/lifecycle.rs,
player/restart.rs, cleanup.rs, fanout.rs, projection.rs and spawn_payload.rs, with the order of the systems from
plugins.rs. An entity of the ECS is named by its net id, which is its own unless it comes under the id of another, and
`pushed` is everything that was ever pushed to a player's outbox. Who moves, who is due to restart and which corpses are
due is decided by systems that push neither a spawn nor a despawn: a frame brings it along. Distances are those of the
spatial grid and a parameter.
-/
import Zohar.Replication.Graph
import Zohar.Spawn.Rules
import Zohar.Lib.Run
import Mathlib.Data.List.Sort

namespace Zohar.Replication

open Zohar.Lib Zohar.Spawn

/-! ## The map -/

structure PlayerActor where
  playerId : PlayerId
  pos : LocalPos
  rot : UInt8
  animation : MovementAnimation
  pushed : List PlayerEvent
  deriving DecidableEq, Repr

structure MobActor where
  mobId : MobId
  pos : LocalPos
  rot : UInt8
  deriving DecidableEq, Repr

inductive Actor where
  | player (player : PlayerActor)
  | mob (mob : MobActor)
  deriving DecidableEq, Repr

/-- A mob that is gone, and the players that have to be told. -/
structure ActorDespawned where
  actorId : EntityId
  recipients : List EntityId
  deriving DecidableEq, Repr

/-- Two radii, by the bits of their `f32`. -/
structure InterestConfig where
  spawnRadius : UInt32
  despawnRadius : UInt32

/-- 110 and 120. -/
def InterestConfig.default : InterestConfig := ⟨0x42dc0000, 0x42f00000⟩

/-- The mobs that have a prototype, and whether the grid finds a position within a radius of another. -/
structure MapConfig extends SpawnConfig where
  within : UInt32 → LocalPos → LocalPos → Bool

/-- `actors` are the entities with `NetEntityIndex`: an entity that comes under the net id of another takes its entry,
and the other is no longer here, though it lives on in the ECS. `reserved` are the net ids that were given to a
connection which has not entered with them. `despawned` is the fact of that name that waits for the projection. -/
structure MapWorld where
  nextNetId : UInt32
  reserved : List EntityId
  actors : OrdMap EntityId Actor
  playerIndex : OrdMap PlayerId EntityId
  playerCount : Nat
  spatial : OrdMap EntityId LocalPos
  graph : ReplicationGraph
  isDirty : Bool
  despawned : List ActorDespawned

namespace MapWorld

def empty : MapWorld where
  nextNetId := 0
  reserved := []
  actors := .empty
  playerIndex := .empty
  playerCount := 0
  spatial := .empty
  graph := .empty
  isDirty := false
  despawned := []

/-! ## Outboxes -/

def pushReliable (w : MapWorld) (e : EntityId) (event : PlayerEvent) : MapWorld :=
  match w.actors.get? e with
  | some (.player p) => { w with actors := w.actors.insert e (.player { p with pushed := p.pushed ++ [event] }) }
  | some (.mob _) | none => w

/-- A sequence of pushes, each with its recipient. -/
def deliver (w : MapWorld) (calls : List (EntityId × PlayerEvent)) : MapWorld :=
  calls.foldl (fun w call => w.pushReliable call.1 call.2) w

/-- `actor_audience_recipients` for the observers of the actor. -/
def actorAudienceRecipients (it : Iteration) (w : MapWorld) (actorId : EntityId) : List EntityId :=
  ((w.graph.observersFor it actorId).insertionSort (· ≤ ·)).dedup.filter fun r => (w.actors.get? r).isSome

/-- `broadcast_actor_event` to the observers. -/
def broadcastActorEvent (it : Iteration) (w : MapWorld) (actorId : EntityId) (event : PlayerEvent) :
    List (EntityId × PlayerEvent) :=
  (w.actorAudienceRecipients it actorId).map fun r => (r, event)

/-! ## Snapshots -/

section
variable (cfg : MapConfig)

def makeEntitySnapshot (w : MapWorld) (targetId : EntityId) : Option EntitySnapshot :=
  match w.actors.get? targetId with
  | some (.player p) => some ⟨targetId, p.rot, p.pos⟩
  | some (.mob m) => if m.mobId ∈ cfg.mobs then some ⟨targetId, m.rot, m.pos⟩ else none
  | none => none

def movementAnimation (w : MapWorld) (e : EntityId) : Option MovementAnimation :=
  match w.actors.get? e with
  | some (.player p) => some p.animation
  | some (.mob _) | none => none

/-- `push_spawn_bundle`: a walking player is announced as one. -/
def spawnBundle (w : MapWorld) (snapshot : EntitySnapshot) : List PlayerEvent :=
  .entitySpawn snapshot ::
    if w.movementAnimation snapshot.entityId = some .walk then
      [.setEntityMovementAnimation snapshot.entityId .walk]
    else []

/-! ## Reconcile -/

structure VisibilityObserver where
  playerId : PlayerId
  netId : EntityId
  pos : LocalPos

def queryInRadius (w : MapWorld) (center : LocalPos) (radius : UInt32) : Finset EntityId :=
  ((w.spatial.entries.filter fun x => cfg.within radius center x.2).map (·.1)).toFinset

def visibilityCandidates (w : MapWorld) (observerPos : LocalPos) (radius : UInt32) (observerNetId : EntityId) :
    Finset EntityId :=
  (w.queryInRadius cfg observerPos radius).erase observerNetId

def rollbackEnteredVisibility (w : MapWorld) (observerNetId : EntityId) (targetIds : List EntityId) : MapWorld :=
  { w with graph := targetIds.foldl (fun g targetId => (g.removeVisibility observerNetId targetId).2) w.graph }

/-- What could not be announced is rolled back, what could is spawned, and what left is despawned. -/
def queueVisibilityDiff (w : MapWorld) (observer : VisibilityObserver) (diff : VisibilityDiff) : MapWorld :=
  match w.playerIndex.get? observer.playerId with
  | none => w.rollbackEnteredVisibility observer.netId diff.entered
  | some observerEntity =>
    let enteredSnapshots := diff.entered.filterMap fun targetId => w.makeEntitySnapshot cfg targetId
    let failedTargets := diff.entered.filter fun targetId => (w.makeEntitySnapshot cfg targetId).isNone
    let w := w.rollbackEnteredVisibility observer.netId failedTargets
    match w.actors.get? observerEntity with
    | some (.player _) =>
      w.deliver ((enteredSnapshots.flatMap w.spawnBundle ++ diff.left.map PlayerEvent.entityDespawn).map fun event =>
        (observerEntity, event))
    | some (.mob _) | none => w.rollbackEnteredVisibility observer.netId (enteredSnapshots.map EntitySnapshot.entityId)

def reconcileOneObserver (it : Iteration) (w : MapWorld) (observer : VisibilityObserver) : MapWorld :=
  let spawnCandidates := w.visibilityCandidates cfg observer.pos InterestConfig.default.spawnRadius observer.netId
  let retainCandidates := w.visibilityCandidates cfg observer.pos InterestConfig.default.despawnRadius observer.netId
  let (diff, graph) := w.graph.reconcileObserver it observer.netId spawnCandidates retainCandidates
  { w with graph }.queueVisibilityDiff cfg observer diff

def observer? (w : MapWorld) (e : EntityId) : Option VisibilityObserver :=
  match w.actors.get? e with
  | some (.player p) => some ⟨p.playerId, e, p.pos⟩
  | some (.mob _) | none => none

def collectVisibilityObservers (it : Iteration) (w : MapWorld) : List VisibilityObserver :=
  (it.list .players w.actors.keys.toFinset).filterMap w.observer?

/-- It runs while there are players. -/
def aoiReconcile (it : Iteration) (w : MapWorld) : MapWorld :=
  if w.playerCount = 0 ∨ w.isDirty = false then w
  else { (w.collectVisibilityObservers it).foldl (reconcileOneObserver cfg it) w with isDirty := false }

/-! ## Entering and leaving -/

/-- The observer of a removed player: whoever saw it is told, then the indexes forget it. -/
def onPlayerRemoved (it : Iteration) (w : MapWorld) (e : EntityId) : MapWorld :=
  match w.actors.get? e with
  | some (.player p) =>
    let (observers, graph) := (w.graph.removeObserver it e).2.removeTarget it e
    let recipients := observers.filter fun observer => (w.actors.get? observer).isSome && observer != e
    let w := w.deliver (recipients.map fun r => (r, .entityDespawn e))
    { w with
      actors := w.actors.erase e
      playerIndex := w.playerIndex.erase p.playerId
      playerCount := w.playerCount - 1
      spatial := w.spatial.erase e
      graph
      isDirty := 0 < w.playerCount - 1 }
  | some (.mob _) | none => w

structure EnterMsg where
  playerId : PlayerId
  playerNetId : EntityId
  initialPos : LocalPos

/-- A player that enters again replaces the entity that it has. -/
def despawnExisting (it : Iteration) (w : MapWorld) (playerId : PlayerId) : MapWorld :=
  match w.playerIndex.get? playerId with
  | some existing => w.onPlayerRemoved it existing
  | none => w

/-- The new entity is indexed and told of itself before it is told of the others. -/
def handlePlayerEnter (it : Iteration) (w : MapWorld) (msg : EnterMsg) : MapWorld :=
  let w := w.despawnExisting it msg.playerId
  let player : PlayerActor :=
    { playerId := msg.playerId
      pos := msg.initialPos
      rot := 0
      animation := .run
      pushed := [.entitySpawn ⟨msg.playerNetId, 0, msg.initialPos⟩] }
  let w := { w with
    actors := w.actors.insert msg.playerNetId (.player player)
    playerIndex := w.playerIndex.insert msg.playerId msg.playerNetId
    playerCount := w.playerCount + 1
    spatial := w.spatial.insert msg.playerNetId msg.initialPos }
  { w.reconcileOneObserver cfg it ⟨msg.playerId, msg.playerNetId, msg.initialPos⟩ with isDirty := true }

/-- A leave with another net id is ignored. -/
def handlePlayerLeave (it : Iteration) (w : MapWorld) (playerId : PlayerId) (playerNetId : EntityId) : MapWorld :=
  match w.playerIndex.get? playerId with
  | some e => if e = playerNetId then w.onPlayerRemoved it e else w
  | none => w

/-! ## Restart and cleanup -/

inductive RestartVisibility where
  | here | townHandoff
  deriving DecidableEq, Repr

/-- The pushes of `restart_player` on the spot: the observers see the player go and come, and the player, whose client
purges everything, is shown its surroundings anew. -/
def restartHereCalls (it : Iteration) (w : MapWorld) (e : EntityId) (snapshot : EntitySnapshot) :
    List (EntityId × PlayerEvent) :=
  w.broadcastActorEvent it e (.entityDespawn e) ++ w.broadcastActorEvent it e (.entitySpawn snapshot) ++
    (.entityDespawn e :: w.spawnBundle snapshot ++
      (((w.graph.targetsFor it e).filterMap fun targetId => w.makeEntitySnapshot cfg targetId).flatMap
        w.spawnBundle)).map
      fun event => (e, event)

/-- `restart_player` with what of `apply_restart_state` is seen from outside. -/
def restartPlayer (it : Iteration) (w : MapWorld) (e : EntityId) (visibility : RestartVisibility) : MapWorld :=
  match w.actors.get? e with
  | some (.player p) =>
    let w := { w with
      actors := w.actors.insert e (.player { p with animation := .run })
      spatial := if visibility = RestartVisibility.here then w.spatial.insert e p.pos else w.spatial }.pushReliable e
        (.other .chat)
    match visibility with
    | .here =>
      match w.makeEntitySnapshot cfg e with
      | none => w
      | some snapshot => { w.deliver (w.restartHereCalls cfg it e snapshot) with isDirty := true }
    | .townHandoff => { w.pushReliable e (.other .restartTown) with isDirty := true }
  | some (.mob _) | none => w

/-- The observers of a mob are told at the projection. -/
def destroyMobEntity (it : Iteration) (w : MapWorld) (e : EntityId) : MapWorld :=
  match w.actors.get? e with
  | some (.mob _) =>
    let (observers, graph) := w.graph.removeTarget it e
    { w with
      actors := w.actors.erase e
      spatial := w.spatial.erase e
      graph
      isDirty := true
      despawned := w.despawned ++ [⟨e, observers.filter fun observer => (w.actors.get? observer).isSome⟩] }
  | some (.player _) | none => w

/-- `project_frame_facts`: the facts of `despawned` become events, and the other facts become other events. -/
def projectFrameFacts (w : MapWorld) (notices : List (EntityId × OtherEvent)) : MapWorld :=
  { w.deliver (notices.map (fun notice => (notice.1, .other notice.2)) ++
      w.despawned.flatMap fun d => d.recipients.map fun r => (r, .entityDespawn d.actorId)) with
    despawned := [] }

/-! ## Mobs and movement -/

structure MobSpawn where
  mobId : MobId
  pos : LocalPos
  rot : UInt8

def spawnOneMob (w : MapWorld) (spawn : MobSpawn) : MapWorld :=
  if spawn.mobId ∈ cfg.mobs then
    let nextNetId := nextEntityId w.nextNetId
    { w with
      nextNetId
      spatial := w.spatial.insert ⟨nextNetId.toNat⟩ spawn.pos
      actors := w.actors.insert ⟨nextNetId.toNat⟩ (.mob ⟨spawn.mobId, spawn.pos, spawn.rot⟩)
      isDirty := true }
  else w

inductive Motion where
  | moved (entity : EntityId) (pos : LocalPos) (rot : UInt8)
  | setMovementAnimation (entity : EntityId) (animation : MovementAnimation)

def applyMotion (w : MapWorld) : Motion → MapWorld
  | .moved e pos rot =>
    match w.actors.get? e with
    | some (.player p) =>
      { w with
        actors := w.actors.insert e (.player { p with pos, rot }), spatial := w.spatial.insert e pos, isDirty := true }
    | some (.mob m) =>
      { w with
        actors := w.actors.insert e (.mob { m with pos, rot }), spatial := w.spatial.insert e pos, isDirty := true }
    | none => w
  | .setMovementAnimation e animation =>
    match w.actors.get? e with
    | some (.player p) => { w with actors := w.actors.insert e (.player { p with animation }) }
    | some (.mob _) | none => w

/-! ## Frames -/

inductive InboundEvent where
  | reserveNetId
  | playerEnter (msg : EnterMsg) (order : Iteration)
  | playerLeave (playerId : PlayerId) (playerNetId : EntityId) (order : Iteration)

/-- A connection enters once, with the net id that it has reserved. -/
def inboundStep (w : MapWorld) : InboundEvent → Option MapWorld
  | .reserveNetId =>
    let nextNetId := nextEntityId w.nextNetId
    some { w with nextNetId, reserved := ⟨nextNetId.toNat⟩ :: w.reserved }
  | .playerEnter msg order =>
    if msg.playerNetId ∈ w.reserved then
      some ({ w with reserved := w.reserved.erase msg.playerNetId }.handlePlayerEnter cfg order msg)
    else none
  | .playerLeave playerId playerNetId order => some (w.handlePlayerLeave order playerId playerNetId)

structure FixedUpdate where
  spawns : List MobSpawn
  motions : List Motion
  restarts : List (EntityId × RestartVisibility)
  cleanupDue : List EntityId
  notices : List (EntityId × OtherEvent)
  order : Iteration

/-- The systems of one fixed update in their order. -/
def fixedUpdate (w : MapWorld) (u : FixedUpdate) : MapWorld :=
  let w := u.spawns.foldl (spawnOneMob cfg) w
  let w := u.motions.foldl applyMotion w
  let w := u.restarts.foldl (fun w r => w.restartPlayer cfg u.order r.1 r.2) w
  let w := u.cleanupDue.foldl (destroyMobEntity u.order) w
  let w := w.projectFrameFacts u.notices
  w.aoiReconcile cfg u.order

/-- One update of the app: what came in, then the fixed updates that are due. -/
structure Frame where
  inbound : List InboundEvent
  updates : List FixedUpdate

def frameStep (w : MapWorld) (f : Frame) : Option MapWorld :=
  (run (inboundStep cfg) w f.inbound).map fun w => f.updates.foldl (fixedUpdate cfg) w

/-- A map starts with the mobs that are there from the beginning. -/
def start (mobs : List MobSpawn) : MapWorld := mobs.foldl (spawnOneMob cfg) empty

end

end MapWorld

/-! ## What the client makes of it -/

/-- What a client shows after one event: there is no next state if it is told to spawn what it shows, or to despawn what
it does not. When it is told that it is gone itself, it purges everything. -/
def showStep (self : EntityId) (shown : Finset EntityId) : PlayerEvent → Option (Finset EntityId)
  | .entitySpawn snapshot => if snapshot.entityId ∈ shown then none else some (insert snapshot.entityId shown)
  | .entityDespawn e => if e ∈ shown then some (if e = self then ∅ else shown.erase e) else none
  | .entityMove _ | .setEntityMovementAnimation _ _ | .other _ => some shown

def replay (self : EntityId) (events : List PlayerEvent) : Option (Finset EntityId) := run (showStep self) ∅ events

end Zohar.Replication
