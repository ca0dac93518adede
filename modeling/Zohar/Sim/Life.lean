/-
How the actors of a map fight, die, are rewarded for and removed. From zohar-sim/src/runtime: combat.rs, life.rs,
rewards.rs, cleanup.rs, player/restart.rs, player/stat_tickers.rs, player/stat_sync.rs, player/lifecycle.rs and
mob/spawn.rs, with the order of the systems from plugins.rs. A frame is a walk through the stages below, and each turn
of a system's loop is a step of its own, so that a state lies between any two turns. Steps bring what other code
decides: who attacks whom and when, the rolls and the float arithmetic of an attack, how far a projectile flies, what
the tickers of a player find, which net ids are handed out. The log is the history of the map; no function reads it.
-/
import Zohar.Sim.Relog
import Zohar.Spawn.Rules
import Zohar.Stats.Recovery

namespace Zohar.Sim

open Zohar.Lib Zohar.Stats
open Zohar.Replication (EntityId MovementAnimation)
open Zohar.Spawn (MobId)

/-! ## Actors -/

/-- An entity of the ECS, its generation included: it is not used again. -/
structure Entity where
  raw : Nat
  deriving Repr

instance : LinearOrder Entity := LinearOrder.lift' Entity.raw fun ⟨_⟩ ⟨_⟩ h => congrArg Entity.mk h

structure ActorRef where
  entity : Entity
  id : EntityId
  deriving DecidableEq, Repr

inductive ActorLifePhase where
  | alive
  | dying (enteredAt deadAt : Nat)
  | dead (enteredAt : Nat) (restartHereAllowedAt restartTownAllowedAt forcedRespawnAt cleanupAt : Option Nat)
  deriving DecidableEq, Repr

inductive PlayerRestartIntent where
  | here | town
  deriving DecidableEq, Repr

/-- The components that only a player has. -/
structure PlayerComps where
  playerId : PlayerId
  progression : PlayerGameplayBootstrap
  appearance : ActorPublicStats
  restartIntents : List PlayerRestartIntent

/-- The components that only a mob has; `claim` is `LastHitMobDeathRewardClaim`. -/
structure MobComps where
  mobId : MobId
  claim : Option ActorRef

inductive ActorRole where
  | player (comps : PlayerComps)
  | mob (comps : MobComps)

structure Actor where
  netId : EntityId
  life : ActorLifePhase
  stats : ActorStatsRuntime
  role : ActorRole

namespace Actor

def isMob (a : Actor) : Bool :=
  match a.role with
  | .player _ => false
  | .mob _ => true

def hp (a : Actor) : Int := a.stats.state.resources.hp

def maxHp (a : Actor) : Int := a.stats.state.computed.get .maxHp

/-- The components of a player that its progression reads and writes. -/
def live (a : Actor) (p : PlayerComps) : LivePlayer := ⟨p.progression, a.stats, p.appearance⟩

def withLive (a : Actor) (p : PlayerComps) (q : LivePlayer) : Actor :=
  { a with stats := q.stats, role := .player { p with progression := q.progression, appearance := q.appearance } }

end Actor

/-! ## Life phases -/

def dyingToDeadDelay : Nat := 3000
def playerRestartHereDelay : Nat := 10000
def playerRestartTownDelay : Nat := 7000
def playerForcedRespawnDelay : Nat := 180000
def mobCorpseMinDelay : Nat := 6000
def mobCorpseJitterMs : Nat := 4000

inductive RestartReadiness where
  | ready
  | waiting (retryAfter : Nat)
  deriving DecidableEq, Repr

namespace ActorLifePhase

def isAlive : ActorLifePhase → Bool
  | alive => true
  | _ => false

def isDying : ActorLifePhase → Bool
  | dying .. => true
  | _ => false

def isDead : ActorLifePhase → Bool
  | dead .. => true
  | _ => false

def restartReadiness (now : Nat) : Option Nat → Option RestartReadiness
  | none => none
  | some allowedAt => some (if allowedAt ≤ now then .ready else .waiting (allowedAt - now))

def restartReadinessFor (life : ActorLifePhase) (intent : PlayerRestartIntent) (now : Nat) : Option RestartReadiness :=
  match life, intent with
  | dead _ here _ _ _, .here => restartReadiness now here
  | dead _ _ town _ _, .town => restartReadiness now town
  | _, _ => none

def forcedRespawnDue (life : ActorLifePhase) (now : Nat) : Bool :=
  match life with
  | dead _ _ _ (some at') _ => decide (at' ≤ now)
  | _ => false

def restart (life : ActorLifePhase) : ActorLifePhase := if life.isDead then alive else life

def beginDying (life : ActorLifePhase) (now : Nat) : Option ActorLifePhase :=
  if life.isAlive then some (dying now (satAdd now dyingToDeadDelay)) else none

end ActorLifePhase

def mobCleanupAt (now : Nat) (entityId : EntityId) : Nat :=
  satAdd (satAdd now mobCorpseMinDelay) (entityId.raw % mobCorpseJitterMs)

def deathPhase (now : Nat) (a : Actor) : ActorLifePhase :=
  if a.isMob then .dead now none none none (some (mobCleanupAt now a.netId))
  else .dead now (some (satAdd now playerRestartHereDelay)) (some (satAdd now playerRestartTownDelay))
    (some (satAdd now playerForcedRespawnDelay)) none

/-! ## Mobs -/

structure MobCombatStats where
  strength : I32
  dexterity : I32
  vitality : I32
  intelligence : I32
  maxHp : I32
  defense : I32

structure MobPrototypeDef where
  level : UInt32
  moveSpeed : UInt8
  attackSpeed : UInt8
  combat : MobCombatStats
  experience : Int

def MobPrototypeDef.levelI32 (proto : MobPrototypeDef) : Int := min (proto.level.toNat : Int) i32Max

structure LifeConfig where
  mobs : MobId → Option MobPrototypeDef
  playerStats : PlayerStatRules

namespace LifeConfig

def mobExpReward (cfg : LifeConfig) (mobId : MobId) : Option MobExpReward :=
  (cfg.mobs mobId).map fun proto => ⟨proto.experience, proto.levelI32⟩

/-- Whether `combatant_snapshot` finds what it needs: a mob fights with its prototype. -/
def hasCombatant (cfg : LifeConfig) (a : Actor) : Bool :=
  match a.role with
  | .player _ => true
  | .mob m => (cfg.mobs m.mobId).isSome

end LifeConfig

def defaultMobBalanceRules : MobBalanceRules := ⟨⟨250, 250⟩⟩

def mobSource (proto : MobPrototypeDef) : MobStatSource where
  level := proto.levelI32
  core := ⟨proto.combat.strength.val, proto.combat.vitality.val, proto.combat.dexterity.val,
    proto.combat.intelligence.val⟩
  maxHp := max proto.combat.maxHp.val 1
  defGradeFlat := max proto.combat.defense.val 0
  balance := defaultMobBalanceRules
  speeds := ⟨proto.moveSpeed.toNat, proto.attackSpeed.toNat, proto.attackSpeed.toNat⟩

section
variable [GrowthRng]

def mobStatsFromProto (proto : MobPrototypeDef) : Option ActorStatsRuntime := do
  let source := ActorStatSource.mob (mobSource proto)
  let (_, st) ← GameStatsApi.sync source (.new .mob)
  let maxHp ← st.readLimitedValue source .maxHp
  let (_, st) ← (GameStatsApi.setResource .hp maxHp).run st
  return .new source st

end

/-! ## Attacks -/

inductive AttackCommand where
  | playerBasicAttack (attacker victim : Entity)
  | mobBasicAttack (attacker victim : Entity)
  deriving DecidableEq

namespace AttackCommand

def attacker : AttackCommand → Entity
  | playerBasicAttack attacker _ | mobBasicAttack attacker _ => attacker

def victim : AttackCommand → Entity
  | playerBasicAttack _ victim | mobBasicAttack _ victim => victim

end AttackCommand

structure FlyTiming where
  initVelUnitsPerSec : Nat
  forwardAccelUnitsPerSec2 : Nat
  bombRangeUnits : Nat
  deriving DecidableEq, Repr

inductive DelayedAttackKind where
  | resolve (command : AttackCommand)
  | releaseProjectile (command : AttackCommand) (flight : FlyTiming)

structure DelayedAttackCommand where
  dueAt : Nat
  kind : DelayedAttackKind

inductive AttackDamageSchedule where
  | immediate
  | delayed (delay : Nat)
  | projectile (releaseDelay : Nat) (flight : FlyTiming)

/-- What the generator and the float arithmetic give for a hit: the value of `melee_attack_value` and the fallback. -/
structure HitRoll where
  attackValue : Int
  lowDamageFallback : Int

def effectiveDefence (defenceGrade : Int) : Int := (mulI32 defenceGrade 100).tdiv 100

def battleDamageFloor (damage lowDamageFallback : Int) : Int :=
  if damage < 3 then clampInt 1 5 lowDamageFallback else damage

def normalHitDamage (roll : HitRoll) (defenceGrade : Int) : Int :=
  battleDamageFloor (max (subI32 roll.attackValue (effectiveDefence defenceGrade)) 0) roll.lowDamageFallback

def ResourceApplication.damage (amount : Int) : ResourceApplication := ⟨.hp, -amount, i32Min, true⟩

/-! ## Recovery -/

/-- What the tickers of a player find in its turn; a ticker that is due has its state and the time since it last was. -/
structure Accrual where
  activity : PlayerStatActivity
  profile : PlayerSpRecoveryProfile
  movementMode : MovementAnimation
  hp : Option (PlayerPassiveHpRecoveryState × Duration)
  sp : Option (PlayerPassiveSpRecoveryState × Duration)
  stamina : Option (PlayerStaminaState × Duration)

def applyApplication (application : Option ResourceApplication) (stats : ActorStatsRuntime) :
    Option ActorStatsRuntime :=
  match application with
  | none => some stats
  | some application => (withApi (GameStatsApi.applyResource application)).exec stats

def readLimitedOf (stats : ActorStatsRuntime) (stat : Stat) : Option Int :=
  stats.state.readLimitedValue stats.source stat

/-- `tick_passive_hp`, `tick_passive_sp` and `tick_stamina`, one after the other. -/
def tickPlayerStats (accrual : Accrual) (stats : ActorStatsRuntime) : Option ActorStatsRuntime := do
  let maxHp ← readLimitedOf stats .maxHp
  let stats ← applyApplication (accrual.hp.bind fun due =>
    (tickPlayerPassiveHpRecovery due.1 (stats.readPacket .hp) maxHp accrual.activity due.2).1) stats
  let maxHp ← readLimitedOf stats .maxHp
  let maxSp ← readLimitedOf stats .maxSp
  let stats ← applyApplication (accrual.sp.bind fun due =>
    (tickPlayerPassiveSpRecovery due.1 (stats.readPacket .hp) maxHp (stats.readPacket .sp) maxSp accrual.activity
      accrual.profile due.2).1) stats
  let maxStamina ← readLimitedOf stats .maxStamina
  applyApplication (accrual.stamina.bind fun due =>
    (tickPlayerStamina due.1 (stats.readPacket .stamina) maxStamina accrual.activity accrual.movementMode
      due.2).1.application) stats

/-! ## The map -/

structure ActorHpDepleted where
  victim : ActorRef
  killer : Option ActorRef
  deriving DecidableEq

/-- Where a frame stands: the systems in their order, each loop with what it has still to go through. -/
inductive Stage where
  | startup
  | inbound
  | sense
  | progressing
  | normalizing (rest : List Entity)
  | acting
  | attacking (rest : List AttackCommand)
  | dying (rest : List ActorHpDepleted)
  | claiming (rest : List ActorHpDepleted)
  | aging (rest : List Entity)
  | restarting (rest : List Entity)
  | respawning (rest : List Entity)
  | granting (rest : List ActorRef)
  | cleaning (rest : List ActorRef)
  | lifecycleEnd
  | regenerating (rest : List Entity)
  | flushing (rest : List Entity)
  deriving DecidableEq

inductive LifeRecord where
  | spawned (mob : Entity)
  | entered (player : ActorRef)
  | left (player : ActorRef)
  | hit (attacker : ActorRef) (victim : Entity) (previous current : Int)
  | dying (actor : Entity)
  | dead (actor : Entity)
  | awarded (mob : Entity) (player : ActorRef)
  | despawned (mob : Entity)
  deriving DecidableEq

structure LifeWorld where
  stage : Stage
  simNow : Nat
  nextEntity : Nat
  actors : OrdMap Entity Actor
  playerIndex : OrdMap PlayerId Entity
  attackCommands : List AttackCommand
  delayed : List DelayedAttackCommand
  hpDepleted : List ActorHpDepleted
  deathFinalized : List ActorRef
  cleanupDue : List ActorRef
  log : List LifeRecord

namespace LifeWorld

def empty : LifeWorld where
  stage := .startup
  simNow := 0
  nextEntity := 0
  actors := .empty
  playerIndex := .empty
  attackCommands := []
  delayed := []
  hpDepleted := []
  deathFinalized := []
  cleanupDue := []
  log := []

def put (w : LifeWorld) (e : Entity) (a : Actor) : LifeWorld := { w with actors := w.actors.insert e a }

def record (w : LifeWorld) (r : LifeRecord) : LifeWorld := { w with log := w.log ++ [r] }

/-! ## Attack commands -/

def scheduleAttackDamage (w : LifeWorld) (command : AttackCommand) : AttackDamageSchedule → LifeWorld
  | .immediate => { w with attackCommands := w.attackCommands ++ [command] }
  | .delayed delay => { w with delayed := w.delayed ++ [⟨satAdd w.simNow delay, .resolve command⟩] }
  | .projectile releaseDelay flight =>
    { w with delayed := w.delayed ++ [⟨satAdd w.simNow releaseDelay, .releaseProjectile command flight⟩] }

def liveEntities (w : LifeWorld) (command : AttackCommand) : Bool :=
  (w.actors.get? command.attacker).isSome && (w.actors.get? command.victim).isSome

def enqueueLiveAttackCommand (w : LifeWorld) (command : AttackCommand) : LifeWorld :=
  if w.liveEntities command then { w with attackCommands := w.attackCommands ++ [command] } else w

/-- One due command: a projectile that is still in the air is put off until its impact. -/
def releaseAttackCommand (travel : AttackCommand → FlyTiming → Nat) (w : LifeWorld) (scheduled : DelayedAttackCommand) :
    LifeWorld :=
  match scheduled.kind with
  | .resolve command => w.enqueueLiveAttackCommand command
  | .releaseProjectile command flight =>
    if w.liveEntities command then
      let impact := satAdd scheduled.dueAt (travel command flight)
      if impact ≤ w.simNow then w.enqueueLiveAttackCommand command
      else { w with delayed := w.delayed ++ [⟨impact, .resolve command⟩] }
    else w

def releaseDueAttackCommands (travel : AttackCommand → FlyTiming → Nat) (w : LifeWorld) : LifeWorld :=
  let (due, pending) := w.delayed.partition fun scheduled => scheduled.dueAt ≤ w.simNow
  due.foldl (releaseAttackCommand travel) { w with delayed := pending }

/-! ## Death -/

def beginActorDying (w : LifeWorld) (actor : ActorRef) : LifeWorld :=
  match w.actors.get? actor.entity with
  | none => w
  | some a =>
    if a.netId ≠ actor.id then w
    else match a.life.beginDying w.simNow with
      | none => w
      | some life => (w.put actor.entity { a with life }).record (.dying actor.entity)

/-- The transition to `Dead`, with the fact that it raises. -/
def bury (w : LifeWorld) (e : Entity) (a : Actor) : LifeWorld :=
  let w := { w with deathFinalized := w.deathFinalized ++ [ActorRef.mk e a.netId] }
  (w.put e { a with life := deathPhase w.simNow a }).record (.dead e)

def finalizeDyingActorDeath (w : LifeWorld) (actor : ActorRef) : LifeWorld :=
  match w.actors.get? actor.entity with
  | none => w
  | some a => if a.netId ≠ actor.id ∨ a.life.isDying = false then w else w.bury actor.entity a

/-- One turn of `process_actor_lifecycle`. -/
def ageActor (w : LifeWorld) (e : Entity) : LifeWorld :=
  match w.actors.get? e with
  | none => w
  | some a =>
    match a.life with
    | .dying _ deadAt => if w.simNow ≥ deadAt then w.bury e a else w
    | .dead _ _ _ _ (some cleanupAt) =>
      if a.isMob ∧ w.simNow ≥ cleanupAt then { w with cleanupDue := w.cleanupDue ++ [⟨e, a.netId⟩] } else w
    | _ => w

def destroyMobEntity (w : LifeWorld) (actor : ActorRef) : LifeWorld :=
  if (w.actors.get? actor.entity).isSome then
    { w with actors := w.actors.erase actor.entity }.record (.despawned actor.entity)
  else w

/-! ## Hits -/

/-- The damage of a hit, applied to the victim; what depletes its HP is a fact for the life events. -/
def applyCombatOutcome (w : LifeWorld) (attacker victim : ActorRef) (v : Actor) (damage : Int) : Option LifeWorld :=
  ((withApi (GameStatsApi.applyResource (ResourceApplication.damage damage))).run v.stats).map fun r =>
    let w := w.put victim.entity { v with stats := r.2 }
    match r.1 with
    | .error _ => w
    | .ok result =>
      let w := w.record (.hit attacker victim.entity result.previous result.current)
      if result.stat = .hp ∧ result.previous > 0 ∧ result.current ≤ 0 then
        { w with hpDepleted := w.hpDepleted ++ [⟨victim, some attacker⟩] }
      else w

def processAttackCommand (cfg : LifeConfig) (w : LifeWorld) (command : AttackCommand) (roll : HitRoll) :
    Option LifeWorld :=
  match w.actors.get? command.attacker, w.actors.get? command.victim with
  | some a, some v =>
    -- `try_finalize_dying_victim`, then `resolve_attack_command`
    if a.life.isAlive ∧ v.life.isDying ∧ cfg.hasCombatant v then
      some (w.finalizeDyingActorDeath ⟨command.victim, v.netId⟩)
    else if a.life.isAlive ∧ v.life.isAlive ∧ cfg.hasCombatant a ∧ cfg.hasCombatant v then do
      let defenceGrade ← readLimitedOf v.stats .defGrade
      w.applyCombatOutcome ⟨command.attacker, a.netId⟩ ⟨command.victim, v.netId⟩ v (normalHitDamage roll defenceGrade)
    else some w
  | _, _ => some w

/-! ## Rewards -/

/-- One turn of `record_mob_death_reward_claims`. -/
def recordMobDeathRewardClaim (cfg : LifeConfig) (w : LifeWorld) (death : ActorHpDepleted) : LifeWorld :=
  match death.killer with
  | none => w
  | some killer =>
    match w.actors.get? death.victim.entity, w.actors.get? killer.entity with
    | some v, some k =>
      match v.role, k.role with
      | .mob m, .player _ =>
        match cfg.mobExpReward m.mobId with
        | none => w
        | some reward =>
          if reward.baseExp ≤ 0 then w
          else w.put death.victim.entity { v with role := .mob { m with claim := some killer } }
      | _, _ => w
    | _, _ => w

def claimOf (w : LifeWorld) (e : Entity) : Option ActorRef :=
  match w.actors.get? e with
  | some ⟨_, _, _, .mob m⟩ => m.claim
  | _ => none

def mobExpRewardOf (cfg : LifeConfig) (w : LifeWorld) (e : Entity) : Option MobExpReward :=
  match w.actors.get? e with
  | some ⟨_, _, _, .mob m⟩ => cfg.mobExpReward m.mobId
  | _ => none

def removeClaim (w : LifeWorld) (e : Entity) : LifeWorld :=
  match w.actors.get? e with
  | some ⟨netId, life, stats, .mob m⟩ => w.put e ⟨netId, life, stats, .mob { m with claim := none }⟩
  | _ => w

/-- The player that a claim names, if it is still the actor of that net id. -/
def claimant (w : LifeWorld) (killer : ActorRef) : Option (Actor × PlayerComps) :=
  match w.actors.get? killer.entity with
  | some k =>
    match k.role with
    | .player p => if k.netId ≠ killer.id then none else some (k, p)
    | .mob _ => none
  | none => none

section
variable [GrowthRng]

/-- A reward for a player, recorded unless there was nothing to give. -/
def rewardPlayer (cfg : LifeConfig) (w : LifeWorld) (mob : Entity) (killer : ActorRef) (k : Actor) (p : PlayerComps)
    (reward : MobExpReward) : Option LifeWorld :=
  ((applyPlayerExpReward cfg.playerStats reward).run (k.live p)).map fun r =>
    let w := w.put killer.entity (k.withLive p r.2)
    match r.1 with
    | .ok none => w
    | .ok (some _) | .error _ => w.record (.awarded mob killer)

/-- One turn of `grant_mob_death_rewards`. -/
def grantMobDeathReward (cfg : LifeConfig) (w : LifeWorld) (death : ActorRef) : Option LifeWorld :=
  match w.claimOf death.entity with
  | none => some w
  | some killer =>
    match w.claimant killer with
    | none => some (w.removeClaim death.entity)
    | some (k, p) =>
      match w.mobExpRewardOf cfg death.entity with
      | none => some w
      | some reward => (w.rewardPlayer cfg death.entity killer k p reward).map (·.removeClaim death.entity)

end

/-! ## Restarts -/

inductive RestartHp where
  | fixed (value : Int)
  | halfMax

def manualRestartHp : Int := 50

/-- A change of a player and its components. -/
def updatePlayer (w : LifeWorld) (e : Entity) (f : Actor → PlayerComps → Option Actor) : Option LifeWorld :=
  match w.actors.get? e with
  | none => some w
  | some a =>
    match a.role with
    | .mob _ => some w
    | .player p => (f a p).map (w.put e)

def RestartHp.value (stats : ActorStatsRuntime) : RestartHp → Int
  | .fixed value => value
  | .halfMax => (stats.readPacket .maxHp).tdiv 2

/-- `apply_restart_state`, on the life and the HP. -/
def restartPlayer (w : LifeWorld) (e : Entity) (hp : RestartHp) : Option LifeWorld :=
  w.updatePlayer e fun a _ =>
    ((withApi (GameStatsApi.setResource .hp (hp.value a.stats))).exec a.stats).map fun stats =>
      { a with life := a.life.restart, stats }

/-- The requests are drained before the first of them is processed; none of them looks at another player's queue. -/
def processRequestedRestart (w : LifeWorld) (e : Entity) : Option LifeWorld :=
  match w.actors.get? e with
  | none => some w
  | some a =>
    match a.role with
    | .mob _ => some w
    | .player p =>
      match p.restartIntents.getLast? with
      | none => some w
      | some intent =>
        let w := w.put e { a with role := .player { p with restartIntents := [] } }
        if a.life.isDead = false then some w
        else match a.life.restartReadinessFor intent w.simNow with
          | some .ready => w.restartPlayer e (.fixed manualRestartHp)
          | some (.waiting _) | none => some w

def forcedRespawnPlayers (w : LifeWorld) : List Entity :=
  w.actors.keys.filter fun e =>
    match w.actors.get? e with
    | some a => !a.isMob && a.life.forcedRespawnDue w.simNow
    | none => false

/-! ## Statistics of players -/

section
variable [GrowthRng]

def normalizePlayerStats (w : LifeWorld) (e : Entity) : Option LifeWorld :=
  w.updatePlayer e fun a p => a.stats.normalize.map fun r =>
    a.withLive p ⟨p.progression, r.2, followPublicState p.appearance r.1⟩

def flushPlayerStatsSync (w : LifeWorld) (e : Entity) : Option LifeWorld :=
  w.updatePlayer e fun a p => a.stats.drainSync.map fun r =>
    a.withLive p ⟨p.progression, r.2, (r.1.publicState.map ActorPublicState.stats).getD p.appearance⟩

/-- A core-stat intent whose turn has come. -/
def processCoreStatIntent (cfg : LifeConfig) (w : LifeWorld) (e : Entity) (stat : CoreStatKind) (delta : Int) :
    Option LifeWorld :=
  w.updatePlayer e fun a p => (progressStep cfg.playerStats (a.live p) (.coreStat stat delta)).map (a.withLive p)

/-- The tickers of a player, which pause unless it is alive. -/
def processPlayerStatTickers (w : LifeWorld) (e : Entity) (accrual : Accrual) : Option LifeWorld :=
  w.updatePlayer e fun a p =>
    if a.life.isAlive then (tickPlayerStats accrual a.stats).map fun stats => a.withLive p { a.live p with stats }
    else some a

/-! ## Entering, leaving and spawning -/

/-- `despawn`, with the observer that keeps the index. -/
def despawn (w : LifeWorld) (e : Entity) : LifeWorld :=
  match w.actors.get? e with
  | none => w
  | some a =>
    let w := { w with actors := w.actors.erase e }
    match a.role with
    | .mob _ => w
    | .player p => { w with playerIndex := w.playerIndex.erase p.playerId }.record (.left ⟨e, a.netId⟩)

structure EnterMsg where
  playerId : PlayerId
  playerNetId : EntityId
  gameplay : PlayerGameplayBootstrap

def enteringActor (msg : EnterMsg) (hydrated : HydratedPlayerStats) : Actor where
  netId := msg.playerNetId
  life := .alive
  stats := .new hydrated.source hydrated.state
  role := .player ⟨msg.playerId, msg.gameplay, hydrated.bootstrapSync.publicState.stats, []⟩

def addPlayer (w : LifeWorld) (playerId : PlayerId) (a : Actor) : LifeWorld :=
  ({ w with nextEntity := w.nextEntity + 1, playerIndex := w.playerIndex.insert playerId ⟨w.nextEntity⟩ }.put
    ⟨w.nextEntity⟩ a).record (.entered ⟨⟨w.nextEntity⟩, a.netId⟩)

def despawnExisting (w : LifeWorld) (playerId : PlayerId) : LifeWorld :=
  match w.playerIndex.get? playerId with
  | some existing => w.despawn existing
  | none => w

def handlePlayerEnter (cfg : LifeConfig) (w : LifeWorld) (msg : EnterMsg) : Option LifeWorld :=
  match cfg.playerStats.hydratePlayer msg.gameplay with
  | some (some hydrated) => some ((w.despawnExisting msg.playerId).addPlayer msg.playerId (enteringActor msg hydrated))
  | some none | none => none

def handlePlayerLeave (w : LifeWorld) (playerId : PlayerId) (playerNetId : EntityId) : LifeWorld :=
  match w.playerIndex.get? playerId with
  | none => w
  | some e =>
    match w.actors.get? e with
    | none => w
    | some a => if a.netId ≠ playerNetId then w else w.despawn e

/-- A restart that a client asks for replaces the one that waits. -/
def handleRestartIntent (w : LifeWorld) (playerId : PlayerId) (intent : PlayerRestartIntent) : Option LifeWorld :=
  match w.playerIndex.get? playerId with
  | none => some w
  | some e => w.updatePlayer e fun a p => some { a with role := .player { p with restartIntents := [intent] } }

def spawnOneMob (cfg : LifeConfig) (w : LifeWorld) (mobId : MobId) (netId : EntityId) : Option LifeWorld :=
  match cfg.mobs mobId with
  | none => some w
  | some proto => (mobStatsFromProto proto).map fun stats =>
    ({ w with nextEntity := w.nextEntity + 1 }.put ⟨w.nextEntity⟩ ⟨netId, .alive, stats, .mob ⟨mobId, none⟩⟩).record
      (.spawned ⟨w.nextEntity⟩)

end

/-! ## Steps -/

/-- `reset_frame_facts`, after the projection. -/
def resetFrameFacts (w : LifeWorld) : LifeWorld := { w with hpDepleted := [], deathFinalized := [], cleanupDue := [] }

end LifeWorld

inductive LifeEvent where
  | spawnMob (mobId : MobId) (netId : EntityId)
  | playerEnter (msg : LifeWorld.EnterMsg)
  | playerLeave (playerId : PlayerId) (playerNetId : EntityId)
  | restartIntent (playerId : PlayerId) (intent : PlayerRestartIntent)
  | tick (now : Nat)
  | coreStat (e : Entity) (stat : CoreStatKind) (delta : Int)
  | schedule (command : AttackCommand) (schedule : AttackDamageSchedule)
  | release (travel : AttackCommand → FlyTiming → Nat)
  | attack (roll : HitRoll)
  | age (order : List Entity)
  | regenerate (accrual : Accrual)
  | next

namespace LifeWorld

variable [GrowthRng]

/-- The next turn of the loop that the frame is in, or its next system. -/
def next (cfg : LifeConfig) (w : LifeWorld) : Option LifeWorld :=
  match w.stage with
  | .startup => some { w with stage := .inbound }
  | .sense => some { w with stage := .progressing }
  | .progressing => some { w with stage := .normalizing w.actors.keys }
  | .normalizing (e :: es) => { w with stage := .normalizing es }.normalizePlayerStats e
  | .normalizing [] => some { w with stage := .acting }
  | .attacking [] => some { w with stage := .dying w.hpDepleted }
  | .dying (d :: ds) => some ({ w with stage := .dying ds }.beginActorDying d.victim)
  | .dying [] => some { w with stage := .claiming w.hpDepleted }
  | .claiming (d :: ds) => some ({ w with stage := .claiming ds }.recordMobDeathRewardClaim cfg d)
  | .aging (e :: es) => some ({ w with stage := .aging es }.ageActor e)
  | .aging [] => some { w with stage := .restarting w.actors.keys }
  | .restarting (e :: es) => { w with stage := .restarting es }.processRequestedRestart e
  | .restarting [] => some { w with stage := .respawning w.forcedRespawnPlayers }
  | .respawning (e :: es) => { w with stage := .respawning es }.restartPlayer e .halfMax
  | .respawning [] => some { w with stage := .granting w.deathFinalized }
  | .granting (d :: ds) => { w with stage := .granting ds }.grantMobDeathReward cfg d
  | .granting [] => some { w with stage := .cleaning w.cleanupDue }
  | .cleaning (d :: ds) => some ({ w with stage := .cleaning ds }.destroyMobEntity d)
  | .cleaning [] => some { w with stage := .lifecycleEnd }
  | .lifecycleEnd => some { w with stage := .regenerating w.actors.keys }
  | .regenerating [] => some { w.resetFrameFacts with stage := .flushing w.actors.keys }
  | .flushing (e :: es) => { w with stage := .flushing es }.flushPlayerStatsSync e
  | .flushing [] => some { w with stage := .inbound }
  | .inbound | .acting | .attacking (_ :: _) | .claiming [] | .regenerating (_ :: _) => none

def step (cfg : LifeConfig) (w : LifeWorld) : LifeEvent → Option LifeWorld
  | .spawnMob mobId netId => if w.stage = .startup ∨ w.stage = .sense then w.spawnOneMob cfg mobId netId else none
  | .playerEnter msg => if w.stage = .inbound then w.handlePlayerEnter cfg msg else none
  | .playerLeave playerId playerNetId =>
    if w.stage = .inbound then some (w.handlePlayerLeave playerId playerNetId) else none
  | .restartIntent playerId intent => if w.stage = .inbound then w.handleRestartIntent playerId intent else none
  | .tick now => if w.stage = .inbound ∧ w.simNow ≤ now then some { w with simNow := now, stage := .sense } else none
  | .coreStat e stat delta => if w.stage = .progressing then w.processCoreStatIntent cfg e stat delta else none
  | .schedule command schedule => if w.stage = .acting then some (w.scheduleAttackDamage command schedule) else none
  | .release travel =>
    if w.stage = .acting then
      let w := w.releaseDueAttackCommands travel
      some { w with attackCommands := [], stage := .attacking w.attackCommands }
    else none
  | .attack roll =>
    match w.stage with
    | .attacking (c :: cs) => { w with stage := .attacking cs }.processAttackCommand cfg c roll
    | _ => none
  -- the order in which the query of `process_actor_lifecycle` visits the entities
  | .age order =>
    if w.stage = .claiming [] ∧ order.Perm w.actors.keys then some { w with stage := .aging order } else none
  | .regenerate accrual =>
    match w.stage with
    | .regenerating (e :: es) => { w with stage := .regenerating es }.processPlayerStatTickers e accrual
    | _ => none
  | .next => w.next cfg

end LifeWorld

/-! ## Two wolves and a novice -/

def wolf : MobPrototypeDef where
  level := 1
  moveSpeed := 100
  attackSpeed := 100
  combat := ⟨⟨0, by decide⟩, ⟨0, by decide⟩, ⟨0, by decide⟩, ⟨0, by decide⟩, ⟨20, by decide⟩, ⟨0, by decide⟩⟩
  experience := 500

def wolfMap : LifeConfig := ⟨fun mobId => if mobId.raw = 101 then some wolf else none, ⟨noviceClasses, noviceTable⟩⟩

/-- The novice is wounded, and the next wolf brings it past a level step. -/
def woundedNovice : PlayerGameplayBootstrap := { noviceBootstrap with expInLevel := 60, currentHp := some 30 }

/-- The wolves are the entities 0 and 1, the novice is 2. -/
def wolvesAndNovice : List LifeEvent :=
  [.spawnMob ⟨101⟩ ⟨1⟩, .spawnMob ⟨101⟩ ⟨2⟩, .next, .playerEnter ⟨⟨7⟩, ⟨3⟩, woundedNovice⟩]

/-- A frame of three actors, up to the end of its lifecycle: the attacks, and how many of them deplete the HP of their
victim and how many deaths are finalized. -/
def threeActorFrame (now : Nat) (attacks : List AttackCommand) (kills deaths : Nat) : List LifeEvent :=
  [.tick now] ++ List.replicate 6 .next ++ attacks.map (LifeEvent.schedule · .immediate) ++ [.release fun _ _ => 0] ++
    attacks.map (fun _ => .attack ⟨100, 3⟩) ++ List.replicate (2 + 2 * kills) .next ++ [.age [⟨0⟩, ⟨1⟩, ⟨2⟩]] ++
    List.replicate (11 + deaths) .next

/-- No ticker is due. -/
def noTick : Accrual := ⟨⟨.idle, none, none⟩, .standard, .run, none, none, none⟩

def threeActorRest : List LifeEvent :=
  .next :: List.replicate 3 (.regenerate noTick) ++ List.replicate 5 .next

end Zohar.Sim
