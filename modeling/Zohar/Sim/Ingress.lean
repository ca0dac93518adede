/-
What the connections send to a map and what it does to the players on it. From zohar-sim/src: bridge.rs and
runtime/net/ingress.rs, with the entries and exits of runtime/player/lifecycle.rs and persistence.rs. Leaves and
snapshots name the entity they are about; an intent names the player and reaches whatever entity the player has by then.
-/
import Zohar.Replication.Events
import Zohar.Sim.Life

namespace Zohar.Ingress

open Zohar.Lib Zohar.Replication
open Zohar.Sim (PlayerRestartIntent)

/-! ## Intents -/

/-- A skill by its place in the enumeration. -/
structure SkillId where
  raw : Nat
  deriving DecidableEq, Repr

inductive AttackIntent where
  | basic
  | skill (skill : SkillId)
  deriving DecidableEq, Repr

inductive ChatChannel where
  | speak | info | notice | command | shout
  deriving DecidableEq, Repr

structure ChatIntent where
  channel : ChatChannel
  message : List UInt8
  deriving DecidableEq, Repr

inductive PlayerProgressionIntent where
  | coreStat (stat : CoreStatKind) (delta : Int)
  | skillLevel (skill : SkillId) (delta : Int)
  deriving DecidableEq, Repr

inductive ClientIntent where
  | move (kind : MovementKind) (arg facing : UInt8) (target : LocalPos) (clientTs : Nat)
  | setMovementAnimation (animation : MovementAnimation)
  | chat (intent : ChatIntent)
  | attack (target : EntityId) (attack : AttackIntent)
  | target (target : EntityId)
  | progression (intent : PlayerProgressionIntent)
  | restart (intent : PlayerRestartIntent)
  deriving DecidableEq, Repr

inductive PlayerCommand where
  | move (kind : MovementKind) (arg rot : UInt8) (target : LocalPos) (ts : Nat)
  | setMovementAnimation (animation : MovementAnimation)
  | attack (target : EntityId) (attack : AttackIntent)
  | selectTarget (target : EntityId)
  deriving DecidableEq, Repr

def maxMoveIntentsPerTick : Nat := 64

def maxChatIntentsPerTick : Nat := 16

def maxAttackIntentsPerTick : Nat := 16

def maxProgressionIntentsPerTick : Nat := 8

/-! ## Queues -/

def isMoveCommand : PlayerCommand → Bool
  | .move .. => true
  | _ => false

def isAnimationCommand : PlayerCommand → Bool
  | .setMovementAnimation _ => true
  | _ => false

def isAttackCommand : PlayerCommand → Bool
  | .attack .. => true
  | _ => false

/-- The positions are compared as floats. -/
def playerMoveCommandsMatch : PlayerCommand → PlayerCommand → Bool
  | .move kind arg rot target ts, .move kind' arg' rot' target' ts' =>
    kind = kind' && arg = arg' && rot = rot' && posEq target target' && ts = ts'
  | _, _ => false

def playerAnimationCommandsMatch : PlayerCommand → PlayerCommand → Bool
  | .setMovementAnimation a, .setMovementAnimation a' => a = a'
  | _, _ => false

/-- The `retain` of `trim_player_commands`: while too many commands match, the first of them goes. -/
def retainLatest (maxLen : Nat) (bucket : PlayerCommand → Bool) : Nat → List PlayerCommand → List PlayerCommand
  | _, [] => []
  | count, command :: queue =>
    if !bucket command then command :: retainLatest maxLen bucket count queue
    else if maxLen < count then retainLatest maxLen bucket (count - 1) queue
    else command :: retainLatest maxLen bucket count queue

def trimPlayerCommands (queue : List PlayerCommand) (maxLen : Nat) (bucket : PlayerCommand → Bool) :
    List PlayerCommand :=
  if queue.countP bucket ≤ maxLen then queue else retainLatest maxLen bucket (queue.countP bucket) queue

def pushPlayerCommand (queue : List PlayerCommand) (command : PlayerCommand) : List PlayerCommand :=
  if isMoveCommand command && queue.getLast?.any (playerMoveCommandsMatch · command) then queue
  else if isAnimationCommand command && queue.getLast?.any (playerAnimationCommandsMatch · command) then queue
  else
    let queue := queue ++ [command]
    match command with
    | .move .. => trimPlayerCommands queue maxMoveIntentsPerTick isMoveCommand
    | .attack .. => trimPlayerCommands queue maxAttackIntentsPerTick isAttackCommand
    | .setMovementAnimation _ => queue
    | .selectTarget _ => queue

/-- The queues of chat and progression keep their latest entries. -/
def pushBounded {α : Type} (maxLen : Nat) (queue : List α) (x : α) : List α :=
  let queue := queue ++ [x]
  queue.drop (queue.length - maxLen)

/-! ## Players on the map -/

/-- A player's entity. `others` are the components that no intent reaches before the frame runs, the outbox among
them. -/
structure PlayerEntity (ρ : Type) where
  playerId : PlayerId
  netId : EntityId
  commands : List PlayerCommand
  chats : List ChatIntent
  progressionIntents : List PlayerProgressionIntent
  restartIntents : List PlayerRestartIntent
  others : ρ
  deriving DecidableEq, Repr

/-- The channel from an outbox to its connection. It is closed when the outbox is dropped. -/
structure EventChannel where
  queue : List PlayerEvent
  closed : Bool
  deriving DecidableEq, Repr

/-- An entity goes by its net id. -/
structure MapRuntime (ρ : Type) where
  playerIndex : PlayerId → Option EntityId
  entities : EntityId → Option (PlayerEntity ρ)
  channels : EntityId → EventChannel

/-- `flushed` is what the outbox of a new entity sends at once: the spawn of the player itself and of what it sees. -/
inductive InboundEvent (ρ : Type) where
  | playerEnter (playerId : PlayerId) (playerNetId : EntityId) (others : ρ) (flushed : List PlayerEvent)
  | playerLeave (playerId : PlayerId) (playerNetId : EntityId)
  | capturePlayerSnapshot (playerId : PlayerId) (playerNetId : EntityId)
  | playerLeaveAndSnapshot (playerId : PlayerId) (playerNetId : EntityId)
  | clientIntent (playerId : PlayerId) (intent : ClientIntent)
  | globalShout (push : ρ → ρ)

variable {ρ : Type}

/-- One intent on the components of an entity. -/
def PlayerEntity.receive (e : PlayerEntity ρ) : ClientIntent → PlayerEntity ρ
  | .move kind arg facing target clientTs =>
    { e with commands := pushPlayerCommand e.commands (.move kind arg facing target clientTs) }
  | .setMovementAnimation animation =>
    { e with commands := pushPlayerCommand e.commands (.setMovementAnimation animation) }
  | .chat intent => { e with chats := pushBounded maxChatIntentsPerTick e.chats intent }
  | .attack target attack => { e with commands := pushPlayerCommand e.commands (.attack target attack) }
  | .target target => { e with commands := pushPlayerCommand e.commands (.selectTarget target) }
  | .progression intent =>
    { e with progressionIntents := pushBounded maxProgressionIntentsPerTick e.progressionIntents intent }
  | .restart intent => { e with restartIntents := [intent] }

namespace MapRuntime

/-- `world.despawn` with `on_player_removed`: the outbox goes with the entity. -/
def despawn (w : MapRuntime ρ) (entity : EntityId) : MapRuntime ρ :=
  match w.entities entity with
  | some e =>
    { playerIndex := Function.update w.playerIndex e.playerId none
      entities := Function.update w.entities entity none
      channels := Function.update w.channels entity { w.channels entity with closed := true } }
  | none => w

def despawnExisting (w : MapRuntime ρ) (playerId : PlayerId) : MapRuntime ρ :=
  match w.playerIndex playerId with
  | some existing => w.despawn existing
  | none => w

def handlePlayerEnter (w : MapRuntime ρ) (playerId : PlayerId) (playerNetId : EntityId) (others : ρ)
    (flushed : List PlayerEvent) : MapRuntime ρ :=
  let w := w.despawnExisting playerId
  { playerIndex := Function.update w.playerIndex playerId (some playerNetId)
    entities := Function.update w.entities playerNetId (some ⟨playerId, playerNetId, [], [], [], [], others⟩)
    channels := Function.update w.channels playerNetId
      { w.channels playerNetId with queue := (w.channels playerNetId).queue ++ flushed } }

/-- `active_player_entity`, without the texts of its errors. -/
def activePlayerEntity (w : MapRuntime ρ) (playerId : PlayerId) (playerNetId : EntityId) : Option EntityId :=
  match w.playerIndex playerId with
  | some entity => if (w.entities entity).map PlayerEntity.netId = some playerNetId then some entity else none
  | none => none

/-- A leave, with a snapshot or without. One with another net id is ignored. -/
def handlePlayerLeave (w : MapRuntime ρ) (playerId : PlayerId) (playerNetId : EntityId) : MapRuntime ρ :=
  match w.activePlayerEntity playerId playerNetId with
  | some entity => w.despawn entity
  | none => w

def handleClientIntent (w : MapRuntime ρ) (playerId : PlayerId) (intent : ClientIntent) : MapRuntime ρ :=
  match w.playerIndex playerId with
  | some entity =>
    { w with entities := Function.update w.entities entity ((w.entities entity).map (PlayerEntity.receive · intent)) }
  | none => w

/-- One event of `drain_inbound`. A snapshot only reads. -/
def handleInbound (w : MapRuntime ρ) : InboundEvent ρ → MapRuntime ρ
  | .playerEnter playerId playerNetId others flushed => w.handlePlayerEnter playerId playerNetId others flushed
  | .playerLeave playerId playerNetId => w.handlePlayerLeave playerId playerNetId
  | .capturePlayerSnapshot _ _ => w
  | .playerLeaveAndSnapshot playerId playerNetId => w.handlePlayerLeave playerId playerNetId
  | .clientIntent playerId intent => w.handleClientIntent playerId intent
  | .globalShout push =>
    { w with entities := fun id => (w.entities id).map fun e => { e with others := push e.others } }

/-- What the rest of a frame does to the entities, whatever they do to each other: it works off their queues and flushes
their outboxes. It does not change who an entity is. -/
structure Simulation (ρ : Type) where
  advance : PlayerEntity ρ → PlayerEntity ρ
  flush : PlayerEntity ρ → List PlayerEvent

def simulate (w : MapRuntime ρ) (f : Simulation ρ) : MapRuntime ρ :=
  { w with
    entities := fun id => (w.entities id).map fun e => { f.advance e with playerId := e.playerId, netId := e.netId }
    channels := fun id =>
      match w.entities id with
      | some e => { w.channels id with queue := (w.channels id).queue ++ f.flush e }
      | none => w.channels id }

/-! ## Who is on the map -/

/-- Two maps with the same players, each with the same entity. -/
structure SamePlayers (w w' : MapRuntime ρ) : Prop where
  index : w.playerIndex = w'.playerIndex
  entities : ∀ id, (w.entities id).map (fun e => (e.playerId, e.netId)) = (w'.entities id).map fun e =>
    (e.playerId, e.netId)

namespace SamePlayers

variable {w w' w'' : MapRuntime ρ}

theorem refl (w : MapRuntime ρ) : SamePlayers w w := ⟨rfl, fun _ => rfl⟩

theorem symm (h : SamePlayers w w') : SamePlayers w' w := ⟨h.index.symm, fun id => (h.entities id).symm⟩

theorem trans (h : SamePlayers w w') (h' : SamePlayers w' w'') : SamePlayers w w'' :=
  ⟨h.index.trans h'.index, fun id => (h.entities id).trans (h'.entities id)⟩

theorem netId (h : SamePlayers w w') (id : EntityId) :
    (w.entities id).map PlayerEntity.netId = (w'.entities id).map PlayerEntity.netId := by
  have := congrArg (Option.map Prod.snd) (h.entities id)
  simpa [Function.comp_def] using this

theorem despawn (h : SamePlayers w w') (entity : EntityId) : SamePlayers (w.despawn entity) (w'.despawn entity) := by
  have hid := h.entities entity
  unfold MapRuntime.despawn
  cases hw : w.entities entity with
  | none =>
    cases hw' : w'.entities entity with
    | none => exact h
    | some e' => simp [hw, hw'] at hid
  | some e =>
    cases hw' : w'.entities entity with
    | none => simp [hw, hw'] at hid
    | some e' =>
      simp only [hw, hw', Option.map_some, Option.some.injEq, Prod.mk.injEq] at hid
      refine ⟨?_, fun id => ?_⟩
      · dsimp only
        rw [h.index, hid.1]
      · by_cases hid' : id = entity
        · subst hid'
          simp
        · simpa [hid'] using h.entities id

theorem handlePlayerEnter (h : SamePlayers w w') (playerId : PlayerId) (playerNetId : EntityId) (others : ρ)
    (flushed : List PlayerEvent) : SamePlayers (w.handlePlayerEnter playerId playerNetId others flushed)
      (w'.handlePlayerEnter playerId playerNetId others flushed) := by
  have hgone : SamePlayers (w.despawnExisting playerId) (w'.despawnExisting playerId) := by
    unfold MapRuntime.despawnExisting
    rw [h.index]
    cases w'.playerIndex playerId with
    | none => exact h
    | some existing => exact h.despawn existing
  refine ⟨?_, fun id => ?_⟩
  · simp only [MapRuntime.handlePlayerEnter, hgone.index]
  · by_cases hid : id = playerNetId
    · subst hid
      simp [MapRuntime.handlePlayerEnter]
    · simpa [MapRuntime.handlePlayerEnter, hid] using hgone.entities id

theorem handlePlayerLeave (h : SamePlayers w w') (playerId : PlayerId) (playerNetId : EntityId) :
    SamePlayers (w.handlePlayerLeave playerId playerNetId) (w'.handlePlayerLeave playerId playerNetId) := by
  have hactive : w.activePlayerEntity playerId playerNetId = w'.activePlayerEntity playerId playerNetId := by
    unfold MapRuntime.activePlayerEntity
    rw [h.index]
    cases w'.playerIndex playerId with
    | none => rfl
    | some entity => simp only [h.netId entity]
  unfold MapRuntime.handlePlayerLeave
  rw [hactive]
  cases w'.activePlayerEntity playerId playerNetId with
  | none => exact h
  | some entity => exact h.despawn entity

end SamePlayers

theorem PlayerEntity.receive_identity (e : PlayerEntity ρ) (intent : ClientIntent) :
    ((e.receive intent).playerId, (e.receive intent).netId) = (e.playerId, e.netId) := by
  cases intent <;> rfl

/-- An intent moves nobody on or off the map. -/
theorem handleClientIntent_samePlayers (w : MapRuntime ρ) (playerId : PlayerId) (intent : ClientIntent) :
    SamePlayers w (w.handleClientIntent playerId intent) := by
  unfold handleClientIntent
  cases w.playerIndex playerId with
  | none => exact .refl w
  | some entity =>
    refine ⟨rfl, fun id => ?_⟩
    by_cases hid : id = entity
    · subst hid
      simp [Function.comp_def, PlayerEntity.receive_identity]
    · simp [hid]

theorem globalShout_samePlayers (w : MapRuntime ρ) (push : ρ → ρ) :
    SamePlayers w (w.handleInbound (.globalShout push)) :=
  ⟨rfl, fun id => by simp [handleInbound, Function.comp_def]⟩

/-- Who is on the map after an event depends only on who was there. -/
theorem SamePlayers.handleInbound {w w' : MapRuntime ρ} (h : SamePlayers w w') (event : InboundEvent ρ) :
    SamePlayers (w.handleInbound event) (w'.handleInbound event) := by
  cases event with
  | playerEnter playerId playerNetId others flushed => exact h.handlePlayerEnter playerId playerNetId others flushed
  | playerLeave playerId playerNetId => exact h.handlePlayerLeave playerId playerNetId
  | capturePlayerSnapshot _ _ => exact h
  | playerLeaveAndSnapshot playerId playerNetId => exact h.handlePlayerLeave playerId playerNetId
  | clientIntent playerId intent =>
    exact ((handleClientIntent_samePlayers w playerId intent).symm.trans h).trans
      (handleClientIntent_samePlayers w' playerId intent)
  | globalShout push => exact ((globalShout_samePlayers w push).symm.trans h).trans (globalShout_samePlayers w' push)

theorem SamePlayers.foldl {w w' : MapRuntime ρ} (h : SamePlayers w w') (events : List (InboundEvent ρ)) :
    SamePlayers (events.foldl MapRuntime.handleInbound w) (events.foldl MapRuntime.handleInbound w') := by
  induction events generalizing w w' with
  | nil => exact h
  | cons event events ih => exact ih (h.handleInbound event)

theorem simulate_samePlayers (w : MapRuntime ρ) (f : Simulation ρ) : SamePlayers w (w.simulate f) :=
  ⟨rfl, fun id => by simp [simulate, Function.comp_def]⟩

/-- An entry replaces the entity that the player has: it is gone, and so is the way to its connection. -/
theorem handlePlayerEnter_displaces {w : MapRuntime ρ} {playerId : PlayerId} {first second : EntityId} (others : ρ)
    (flushed : List PlayerEvent) (hfirst : w.playerIndex playerId = some first) (hthere : (w.entities first).isSome)
    (hne : first ≠ second) :
    (w.handlePlayerEnter playerId second others flushed).playerIndex playerId = some second ∧
      (w.handlePlayerEnter playerId second others flushed).entities first = none ∧
      ((w.handlePlayerEnter playerId second others flushed).channels first).closed = true := by
  obtain ⟨e, he⟩ := Option.isSome_iff_exists.1 hthere
  have hgone : w.despawnExisting playerId = w.despawn first := by
    unfold despawnExisting
    rw [hfirst]
  unfold handlePlayerEnter
  rw [hgone]
  unfold despawn
  rw [he]
  simp [hne]

end MapRuntime

end Zohar.Ingress
