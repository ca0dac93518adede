/-
How a mob makes up its mind and does what it has decided. From zohar-sim/src/runtime: mob.rs, mob/ai.rs, mob/aggro.rs,
action/plan.rs, action/apply.rs, spatial.rs, rules/combat.rs and life.rs, with combat/timing.rs of zohar-gameplay. In a
frame the mobs are provoked, then each one thinks, and then what they have planned is applied. A mob reads the other
actors of the map and writes only its own components, so that a run is that of one mob and the rest of the map is what
it sees when it thinks and when it acts: anything. Instants are milliseconds in a `u64`.
-/
import Zohar.Mob.Space
import Zohar.Sim.Acquire
import Zohar.Combat.Timing
import Zohar.Lib.Run

namespace Zohar.Mob

open Zohar.Lib
open Zohar.Replication (EntityId MovementKind)
open Zohar.Space (PlayerMotionState samplePlayerVisualPositionAt)
open Zohar.Sim (Entity ActorLifePhase MobBrainMode AttackDamageSchedule FlyTiming)
open Zohar.Spawn (MobId)
open Zohar.Combat (MobAttackTiming)

/-! ## Brains -/

/-- The fields that a new target changes, and the others. -/
structure MobBrainState extends Sim.MobBrainState where
  nextAttackAt : Nat
  attackWindupUntil : Nat
  wanderNextDecisionAt : Nat
  wanderWaitUntil : Option Nat
  deriving DecidableEq, Repr

namespace MobBrainState

/-- The default value. -/
def default : MobBrainState where
  mode := .idle
  target := none
  nextRethinkAt := 0
  nextAttackAt := 0
  attackWindupUntil := 0
  wanderNextDecisionAt := 0
  wanderWaitUntil := none

def transitionToIdle (brain : MobBrainState) (now : Nat) : MobBrainState where
  mode := .idle
  target := none
  nextRethinkAt := 0
  nextAttackAt := brain.nextAttackAt
  attackWindupUntil := 0
  wanderNextDecisionAt := max brain.wanderNextDecisionAt now
  wanderWaitUntil := none

end MobBrainState

/-! ## Prototypes -/

inductive MobBattleType where
  | melee | range | magic | special | power | tanker | superPower | superTanker
  deriving DecidableEq, Repr

structure BehaviorFlags where
  noMove : Bool
  aggressive : Bool
  deriving DecidableEq, Repr

def BehaviorFlags.canWander (flags : BehaviorFlags) : Bool := !flags.noMove

/-- The speeds are of type `u8`; the sight and the range are centimetres in a `u16`. -/
structure MobPrototype where
  mobId : MobId
  battleType : MobBattleType
  moveSpeed : Nat
  attackSpeed : Nat
  aggressiveSight : Nat
  attackRange : Nat
  bhvFlags : BehaviorFlags
  deriving DecidableEq, Repr

/-! ## When an attack takes effect -/

def usesProjectileAttack (battleType : MobBattleType) : Bool := battleType = .range || battleType = .magic

structure AttackTiming where
  attackGate : Nat
  fallbackActionDuration : Nat
  deriving DecidableEq, Repr

def speedScaledActionDurationMs (speed baseMs : Nat) : Nat :=
  let speed := max speed 1
  let durationPercent := if speed < 100 then 200 - speed else if speed = 100 then 100 else 10000 / speed
  min (baseMs * durationPercent) 4294967295 / 100

def attackTimingForMob (attackSpeed : Nat) : AttackTiming := ⟨speedScaledActionDurationMs attackSpeed 2000, 2000⟩

/-- `FlyTiming::FALLBACK_PROJECTILE`. -/
def fallbackProjectile : FlyTiming := ⟨3000, 0, 10⟩

inductive AttackDamageTiming where
  | immediate
  | delayedMs (delayMs : Nat)
  | projectile (releaseDelayMs : Nat) (flight : FlyTiming)
  deriving DecidableEq, Repr

structure MobAttackEffectTiming where
  actionDurationMs : Nat
  damage : AttackDamageTiming
  setProjectileTarget : Bool
  deriving DecidableEq, Repr

def mobAttackEffectTiming (battleType : MobBattleType) (authoredTiming : Option MobAttackTiming)
    (fallbackActionDurationMs : Nat) : MobAttackEffectTiming :=
  match authoredTiming with
  | some timing =>
    match timing.proc with
    | .melee damageDelayMs =>
      ⟨timing.actionDurationMs, if damageDelayMs = 0 then .immediate else .delayedMs damageDelayMs,
        usesProjectileAttack battleType⟩
    | .projectile releaseDelayMs flight => ⟨timing.actionDurationMs, .projectile releaseDelayMs flight, true⟩
  | none =>
    let windupMs := min (max (fallbackActionDurationMs / 2) 200) 600
    if usesProjectileAttack battleType then ⟨fallbackActionDurationMs, .projectile windupMs fallbackProjectile, true⟩
    else ⟨fallbackActionDurationMs, .delayedMs windupMs, false⟩

def attackDamageSchedule (effectTiming : MobAttackEffectTiming) : AttackDamageSchedule :=
  match effectTiming.damage with
  | .immediate => .immediate
  | .delayedMs delayMs => .delayed delayMs
  | .projectile releaseDelayMs flight => .projectile releaseDelayMs flight

/-! ## The map around a mob -/

/-- What thinking reads of another entity. -/
structure SeenComps (F : Type) where
  isPlayer : Bool
  transform : Option (LocalPos F)
  motion : Option (PlayerMotionState F)
  life : Option ActorLifePhase

/-- The other entities of the map, and what the grid answers to a query in a radius around a place. -/
structure MobView (F : Type) where
  netEntities : EntityId → Option Entity
  entities : Entity → SeenComps F
  spatial : Option (LocalPos F → F → List EntityId)

/-- The durations are milliseconds in a `u64`. -/
structure WanderConfig (F : Type) where
  decisionPauseIdleMin : Nat
  decisionPauseIdleMax : Nat
  postMovePauseMin : Nat
  postMovePauseMax : Nat
  wanderChanceDenominator : Nat
  stepMinM : F
  stepMaxM : F

/-- What a wandering mob asks the navigator of its map. -/
structure Navigator (F : Type) where
  canStand : LocalPos F → Bool
  sameComponent : LocalPos F → LocalPos F → Bool
  segmentClear : LocalPos F → LocalPos F → Bool

/-- The configuration of a map; `runSpeed` is the speed of a mob in the table of motions. -/
structure MobConfig (F : Type) where
  libm : Libm F
  mobs : MobId → Option MobPrototype
  runSpeed : MobId → Option F
  mobAttackTimings : MobId → Option MobAttackTiming
  wander : WanderConfig F
  localSize : LocalSize F
  navigator : Option (Navigator F)

/-- What the random number generator gives while a mob thinks; `randomRange` is asked for a number between two
others. -/
structure WanderRoll (F : Type) where
  decisionPause : Nat
  chance : Nat
  randomRange : Nat → F → F → F
  postMovePause : Nat

/-! ## Mobs and their actions -/

/-- The components of a mob. -/
structure MobBody (F : Type) where
  mobId : MobId
  brain : MobBrainState
  /-- The attackers of `MobAggroQueue`. -/
  aggro : List EntityId
  pos : LocalPos F
  rot : UInt8
  motion : MobMotionState F
  homePos : LocalPos F
  life : ActorLifePhase

inductive MobActionCompletion where
  | none
  | rethinkAtActionEnd
  | rethinkAtActionEndOrDelay (maxDelayMs : Nat)
  | idleWander (postMovePauseMs : Nat)
  deriving DecidableEq, Repr

/-- The actions of mobs; whose action it is goes without saying. -/
inductive MobAction (F : Type) where
  | motion (startPos endPos : LocalPos F) (rot : UInt8) (kind : MovementKind) (ts duration : Nat)
      (nextBrain : MobBrainState)
  | attack (targetEntity : Entity) (pos : LocalPos F) (rot : UInt8) (ts duration : Nat)
      (damageSchedule : AttackDamageSchedule) (setProjectileTarget : Bool) (nextBrain : MobBrainState)

/-- The brain that the action leaves behind. -/
def MobAction.nextBrain {F : Type} : MobAction F → MobBrainState
  | .motion _ _ _ _ _ _ nextBrain => nextBrain
  | .attack _ _ _ _ _ _ _ nextBrain => nextBrain

structure PendingMovement (F : Type) where
  newPos : LocalPos F
  kind : MovementKind
  reliable : Bool
  rot : UInt8
  ts : Nat
  duration : Nat

def resolveMobFollowUp (nextBrain : MobBrainState) (completion : MobActionCompletion) (now actionDuration : Nat) :
    MobBrainState :=
  match completion with
  | .none => nextBrain
  | .rethinkAtActionEnd => { nextBrain with nextRethinkAt := satAdd now actionDuration }
  | .rethinkAtActionEndOrDelay maxDelayMs =>
    { nextBrain with nextRethinkAt := satAdd now (min actionDuration maxDelayMs) }
  | .idleWander postMovePauseMs =>
    let movementEnd := satAdd now actionDuration
    { nextBrain with wanderWaitUntil := some movementEnd, wanderNextDecisionAt := satAdd movementEnd postMovePauseMs }

/-- `SimInstant::to_client_timestamp` -/
def toClientTimestamp (now : Nat) : Nat := min now 4294967295

section
variable {F : Type} [F32 F]

open F32 (ofRat)

/-! ## What a mob sees -/

namespace MobView

variable (v : MobView F)

omit [F32 F] in
def actorCanBeCombatTarget (entity : Entity) : Bool :=
  match (v.entities entity).life with
  | none => true
  | some life => life.canBeCombatTarget

/-- The actors among whom `latest_live_provoker` looks. -/
def provokers : Sim.MapActors (LocalPos F) where
  netEntities := v.netEntities
  entities e := ⟨(v.entities e).isPlayer, (v.entities e).transform, (v.entities e).life⟩

def playerPosition (entityId : EntityId) (packetTs : Nat) : Option (LocalPos F) := do
  let entity ← v.netEntities entityId
  if (v.entities entity).isPlayer then
    let transform ← (v.entities entity).transform
    let motion := (v.entities entity).motion.getD ⟨transform, transform, packetTs, packetTs, 0⟩
    return samplePlayerVisualPositionAt motion packetTs
  else none

/-- A candidate of the query and its distance, if it is a player with a place. -/
def candidateAt (m : Libm F) (currentPos : LocalPos F) (candidate : EntityId) : Option (EntityId × F) := do
  let entity ← v.netEntities candidate
  if (v.entities entity).isPlayer then
    let pos ← (v.entities entity).transform
    return (candidate, distance m currentPos pos)
  else none

/-- Of several that are nearest `min_by` takes the first. -/
def nearest : List (EntityId × F) → Option (EntityId × F)
  | [] => none
  | c :: cs => some (cs.foldl (fun best next => if F32.totalGt best.2 next.2 then next else best) c)

def acquireAggressiveTarget (m : Libm F) (currentPos : LocalPos F) (proto : MobPrototype) : Option EntityId :=
  if proto.bhvFlags.aggressive = false then none
  else
    let sightM : F := ofRat proto.aggressiveSight / ofRat 100
    if sightM ≤ ofRat 0 then none
    else v.spatial.bind fun queryInRadius =>
      (nearest ((queryInRadius currentPos sightM).filterMap (v.candidateAt m currentPos))).map (·.1)

end MobView

/-! ## Planning -/

structure MobContext (F : Type) where
  proto : MobPrototype
  now : Nat
  nowTs : Nat
  currentPos : LocalPos F
  currentRot : UInt8
  homePos : LocalPos F
  movementInFlight : Bool
  segmentEndPos : LocalPos F
  segmentEndAt : Nat

/-- A mob has a motion and a home from its spawn on. -/
def collectMobContext (cfg : MobConfig F) (mob : MobBody F) (now : Nat) : Option (MobContext F) :=
  if mob.life.isAlive = false then none
  else (cfg.mobs mob.mobId).map fun proto =>
    { proto, now
      nowTs := toClientTimestamp now
      currentPos := mob.motion.sampleAt now
      currentRot := mob.rot
      homePos := mob.homePos
      movementInFlight := mob.motion.inFlight now
      segmentEndPos := mob.motion.segmentEndPos
      segmentEndAt := mob.motion.segmentEndAt }

/-- `DEFAULT_RUN_MOTION_SPEED_METER_PER_SEC` -/
def defaultRunMotionSpeedMeterPerSec : F := ofRat (9 / 2)

def buildMobMoveAction (cfg : MobConfig F) (mobId : MobId) (c : MobContext F) (kind : MovementKind)
    (destination faceTo : LocalPos F) (nextBrain : MobBrainState) (completion : MobActionCompletion) :
    Option (MobAction F) :=
  (calculateMobDuration cfg.libm ((cfg.runSpeed mobId).getD defaultRunMotionSpeedMeterPerSec) kind
    c.currentPos destination
    (((cfg.mobs mobId).map (·.moveSpeed)).getD 0)).map fun duration =>
      .motion (snapLocalToWireCm c.currentPos) (snapLocalToWireCm destination)
        (rotationFromDelta cfg.libm c.currentPos faceTo c.currentRot) kind c.nowTs duration
        (resolveMobFollowUp nextBrain completion c.now duration)

def buildMobAttackAction (cfg : MobConfig F) (v : MobView F) (c : MobContext F) (target : EntityId)
    (faceTo : LocalPos F) (windupDurationMs : Nat) (damageSchedule : AttackDamageSchedule) (setProjectileTarget : Bool)
    (nextBrain : MobBrainState) (completion : MobActionCompletion) : Option (MobAction F) :=
  (v.netEntities target).map fun targetEntity =>
    .attack targetEntity (snapLocalToWireCm c.currentPos) (rotationFromDelta cfg.libm c.currentPos faceTo c.currentRot)
      c.nowTs windupDurationMs damageSchedule setProjectileTarget
      (resolveMobFollowUp nextBrain completion c.now windupDurationMs)

end

end Zohar.Mob
