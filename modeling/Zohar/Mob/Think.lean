/-
A mob's turn to think and its turn to act. From zohar-sim/src/runtime: mob/ai.rs, mob/aggro.rs, spatial.rs,
action/apply.rs and life.rs.
-/
import Zohar.Mob.Brain

namespace Zohar.Mob

open Zohar.Lib
open Zohar.Replication (EntityId MovementKind)
open Zohar.Space (PlayerMotionState)
open Zohar.Sim (Entity ActorLifePhase MobBrainMode AttackDamageSchedule)
open Zohar.Spawn (MobId)

section
variable {F : Type} [F32 F]

open F32 (ofRat)

/-! ## Before the decision -/

def postAttackSettleMs : Nat := 100

/-- `none` is `Blocked`, else whether the brain has changed and the earliest moment to think again. -/
def handleAttackWindup (brain : MobBrainState) (now : Nat) : Option (MobBrainState × Bool × Option Nat) :=
  if brain.mode ≠ .attackWindup then some (brain, false, none)
  else if now < brain.attackWindupUntil then none
  else
    let settled := satAdd now postAttackSettleMs
    if brain.target.isSome then
      some ({ brain with attackWindupUntil := 0, nextRethinkAt := settled, mode := .pursuit }, true, some settled)
    else some ({ brain.transitionToIdle now with nextRethinkAt := settled }, true, some settled)

def applyNewAggro (v : MobView F) (brain : MobBrainState) (aggros : List EntityId) (now : Nat) : Bool × MobBrainState :=
  let (changed, next) := v.provokers.applyNewAggro aggros now brain.toMobBrainState
  (changed, { brain with toMobBrainState := next })

def acquireIdleTarget (cfg : MobConfig F) (v : MobView F) (c : MobContext F) (brain : MobBrainState) :
    Bool × MobBrainState :=
  if brain.target.isSome || brain.mode ≠ .idle then (false, brain)
  else
    match v.acquireAggressiveTarget cfg.libm c.currentPos c.proto with
    | none => (false, brain)
    | some acquired =>
      match v.netEntities acquired with
      | none => (false, brain)
      | some entity =>
        if v.actorCanBeCombatTarget entity = false then (false, brain)
        else (true, { brain with target := some acquired, mode := .pursuit, nextRethinkAt := c.now })

/-- There is no leash: `MOB_LEASH_DISTANCE_M` is `None`. -/
def hasExceededLeash (m : Libm F) (leash : Option F) (currentPos targetPos homePos : LocalPos F) : Bool :=
  match leash with
  | none => false
  | some leashM => decide (leashM < distance m currentPos homePos) || decide (leashM < distance m targetPos homePos)

/-- The place of the target, whether the brain has changed, and the brain. -/
def validateTarget (cfg : MobConfig F) (v : MobView F) (c : MobContext F) (brain : MobBrainState) :
    Option (LocalPos F) × Bool × MobBrainState :=
  match brain.target with
  | none => (none, false, brain)
  | some target =>
    let lost := (none, true, { brain with target := none, mode := .return })
    if ((v.netEntities target).all fun entity => !v.actorCanBeCombatTarget entity) then lost
    else
      match v.playerPosition target c.nowTs with
      | none => lost
      | some targetPos =>
        if hasExceededLeash cfg.libm none c.currentPos targetPos c.homePos then lost else (some targetPos, false, brain)

/-! ## Decisions -/

def legacyChaseRethinkMs : Nat := 200
def rangedPostMoveAttackSettleMs : Nat := 200
def idleWanderMaxAttempts : Nat := 8

def homeArrivalRadiusM : F := ofRat (3 / 4)
def closeChaseEpsilonM : F := ofRat (1 / 100)
def idleWanderDistanceEpsilonM : F := ofRat (1 / 4)
def legacyChaseFollowDistanceRatio : F := ofRat (9 / 10)
def legacyAttackThresholdRatio : F := ofRat (23 / 20)

def handleReturn (cfg : MobConfig F) (mobId : MobId) (c : MobContext F) (brain : MobBrainState) :
    Option (MobAction F) × MobBrainState :=
  if distance cfg.libm c.currentPos c.homePos ≤ homeArrivalRadiusM then (none, brain.transitionToIdle c.now)
  else if c.now < brain.nextRethinkAt then (none, brain)
  else (buildMobMoveAction cfg mobId c .wait c.homePos c.homePos brain
    (.rethinkAtActionEndOrDelay legacyChaseRethinkMs), brain)

/-- `random_duration_between_ms`: a number of the generator makes a duration between the two. -/
def randomDurationBetweenMs (roll minMs maxMs : Nat) : Nat :=
  randomBetween roll (min minMs maxMs) (max minMs maxMs)

/-- The `f32` nearest to the circumference of the unit circle. -/
def tau : F := ofRat (13176795 / 2097152)

def sampleIdleWanderTarget (cfg : MobConfig F) (c : MobContext F) (randomRange : Nat → F → F → F) :
    Option (LocalPos F) :=
  let stepMin := min cfg.wander.stepMinM cfg.wander.stepMaxM
  let stepMax := max cfg.wander.stepMinM cfg.wander.stepMaxM
  (List.range idleWanderMaxAttempts).findSome? fun i =>
    let heading := randomRange (2 * i) (ofRat 0) tau
    let stepDistance := randomRange (2 * i + 1) stepMin stepMax
    let candidate := c.currentPos.shifted cfg.libm heading stepDistance
    if isInsideMap cfg.localSize candidate = false then none
    else if cfg.navigator.any fun nav =>
        !nav.canStand candidate || !nav.sameComponent c.currentPos candidate || !nav.segmentClear c.currentPos candidate
      then none
    else if distance cfg.libm c.currentPos candidate ≤ idleWanderDistanceEpsilonM then none
    else some candidate

/-- `next_decision_at`: a mob that has never decided may decide at once. -/
def MobBrainState.wanderDecisionAt (brain : MobBrainState) (now : Nat) : Nat :=
  if 0 < brain.wanderNextDecisionAt then brain.wanderNextDecisionAt else now

def handleIdle (cfg : MobConfig F) (mobId : MobId) (c : MobContext F) (roll : WanderRoll F) (brain : MobBrainState) :
    Option (MobAction F) × MobBrainState :=
  if brain.wanderWaitUntil.any (c.now < ·) then (none, brain)
  else
    let brain := { brain with wanderWaitUntil := none }
    if c.proto.bhvFlags.canWander = false then (none, brain)
    else
      if c.now < brain.wanderDecisionAt c.now then (none, brain)
      else
        let pauseUntil := satAdd c.now
          (randomDurationBetweenMs roll.decisionPause cfg.wander.decisionPauseIdleMin cfg.wander.decisionPauseIdleMax)
        let paused := { brain with wanderNextDecisionAt := pauseUntil }
        let denom := max cfg.wander.wanderChanceDenominator 1
        if roll.chance % denom ≠ 0 then (none, paused)
        else
          match sampleIdleWanderTarget cfg c roll.randomRange with
          | none => (none, paused)
          | some destination =>
            let postMovePauseMs := randomDurationBetweenMs roll.postMovePause cfg.wander.postMovePauseMin
              cfg.wander.postMovePauseMax
            match buildMobMoveAction cfg mobId c .wait destination destination brain (.idleWander postMovePauseMs) with
            | some action => (some action, brain)
            | none => (none, paused)

def waitsForMovementBeforeAttack (battleType : MobBattleType) : Bool := battleType = .range || battleType = .magic

def effectiveAttackRangeM (range : Nat) : F := max (ofRat range / ofRat 100) (ofRat (3 / 2))

def mobFollowDistanceM (attackRangeM : F) : F := max attackRangeM (ofRat 0) * legacyChaseFollowDistanceRatio

def mobRunSpeedMps (cfg : MobConfig F) (mobId : MobId) (moveSpeed : Nat) : Option F :=
  let speed := (cfg.runSpeed mobId).getD defaultRunMotionSpeedMeterPerSec
  let scaled := speed * (ofRat moveSpeed / ofRat 100)
  if ofRat 0 < scaled then some scaled else none

/-- Where the mob and a target that walks on would meet. -/
def predictMovingTargetPosition (cfg : MobConfig F) (currentPos targetPos : LocalPos F) (motion : PlayerMotionState F)
    (packetTs : Nat) (mobId : MobId) (mobMoveSpeed : Nat) : Option (LocalPos F) := do
  if motion.segmentEndTs ≤ motion.segmentStartTs ∨ motion.segmentEndTs ≤ packetTs then none
  let remainingMs := motion.segmentEndTs - packetTs
  if remainingMs = 0 then none
  let targetDelta := motion.segmentEndPos.sub targetPos
  if targetDelta.length cfg.libm.sqrt ≤ closeChaseEpsilonM then none
  let toTarget := targetPos.sub currentPos
  let currentDistance := toTarget.length cfg.libm.sqrt
  if currentDistance ≤ closeChaseEpsilonM then none
  let remainingS : F := ofRat remainingMs / ofRat 1000
  let targetVelocity := targetDelta.divBy remainingS
  let mobSpeedMps ← mobRunSpeedMps cfg mobId mobMoveSpeed
  let closingSpeed := mobSpeedMps - targetVelocity.dot (toTarget.divBy currentDistance)
  if closingSpeed < ofRat (1 / 10) then none
  let meetTimeS := currentDistance / closingSpeed
  if F32.isFinite meetTimeS = false ∨ meetTimeS ≤ ofRat 0 then none
  let predictedTarget := targetPos.add (targetVelocity.scale meetTimeS)
  if currentDistance < distance cfg.libm currentPos predictedTarget then
    some (clampStepTowards cfg.libm currentPos predictedTarget currentDistance)
  else some predictedTarget

def chaseTargetPosition (cfg : MobConfig F) (v : MobView F) (currentPos : LocalPos F) (entityId : EntityId)
    (packetTs : Nat)
    (mobId : MobId) (mobMoveSpeed : Nat) (battleType : MobBattleType) : Option (LocalPos F) := do
  let targetPos ← v.playerPosition entityId packetTs
  let entity ← v.netEntities entityId
  let motion ← (v.entities entity).motion
  if battleType = .range || battleType = .magic then some targetPos
  else
    some ((predictMovingTargetPosition cfg currentPos targetPos motion packetTs mobId mobMoveSpeed).getD targetPos)

def handlePursuit (cfg : MobConfig F) (v : MobView F) (mobId : MobId) (c : MobContext F) (brain : MobBrainState)
    (target : EntityId) (targetPos : LocalPos F) : Option (MobAction F) × MobBrainState :=
  let chaseTargetPos := (chaseTargetPosition cfg v c.currentPos target c.nowTs c.proto.mobId c.proto.moveSpeed
    c.proto.battleType).getD targetPos
  let attackRangeM : F := effectiveAttackRangeM c.proto.attackRange
  let followDistanceM := mobFollowDistanceM attackRangeM
  let attackThresholdM := max attackRangeM (ofRat 0) * legacyAttackThresholdRatio
  let targetDistanceM := distance cfg.libm c.currentPos targetPos
  let segmentEndInAttackRange := decide (distance cfg.libm c.segmentEndPos targetPos ≤ attackThresholdM)
  if c.movementInFlight && waitsForMovementBeforeAttack c.proto.battleType then
    if segmentEndInAttackRange then
      (none, { brain with nextRethinkAt := satAdd c.segmentEndAt rangedPostMoveAttackSettleMs })
    else (none, brain)
  else if !c.movementInFlight && decide (c.now < brain.nextRethinkAt) then (none, brain)
  else if brain.nextAttackAt ≤ c.now ∧ targetDistanceM ≤ attackThresholdM then
    let timing := attackTimingForMob c.proto.attackSpeed
    let effectTiming := mobAttackEffectTiming c.proto.battleType (cfg.mobAttackTimings c.proto.mobId)
      timing.fallbackActionDuration
    let brain := { brain with
      mode := .attackWindup
      attackWindupUntil := satAdd c.now effectTiming.actionDurationMs
      nextAttackAt := satAdd c.now timing.attackGate }
    (buildMobAttackAction cfg v c target targetPos effectTiming.actionDurationMs (attackDamageSchedule effectTiming)
      effectTiming.setProjectileTarget brain .rethinkAtActionEnd, brain)
  else if c.movementInFlight && segmentEndInAttackRange then (none, { brain with nextRethinkAt := c.segmentEndAt })
  else if c.now < brain.nextRethinkAt then (none, brain)
  else
    let stepLen := max (distance cfg.libm c.currentPos chaseTargetPos - followDistanceM) (ofRat 0)
    let waiting := { brain with nextRethinkAt := satAdd c.now legacyChaseRethinkMs }
    if stepLen ≤ closeChaseEpsilonM then (none, waiting)
    else
      let destination := clampStepTowards cfg.libm c.currentPos chaseTargetPos stepLen
      if desiredDestinationUnchanged cfg.libm (some c.segmentEndPos) destination then (none, waiting)
      else
        (buildMobMoveAction cfg mobId c .wait destination chaseTargetPos brain
          (.rethinkAtActionEndOrDelay legacyChaseRethinkMs), brain)

/-! ## A turn to think -/

/-- `persist_brain_if_changed` -/
def MobBody.persistIf (mob : MobBody F) (changed : Bool) (brain : MobBrainState) : MobBody F :=
  if changed then { mob with brain } else mob

/-- An action that is planned brings the brain that it leaves behind; without one the brain is kept at once. -/
def MobBody.conclude (mob : MobBody F) (changed : Bool) (before : MobBrainState)
    (result : Option (MobAction F) × MobBrainState) : MobBody F × Option (MobAction F) :=
  match result.1 with
  | some action => (mob, some action)
  | none => (mob.persistIf (changed || result.2 ≠ before) result.2, none)

/-- The decision of a mob with a brain that knows its target; `changed` is `state_changed`. -/
def decideAction (cfg : MobConfig F) (v : MobView F) (roll : WanderRoll F) (mob : MobBody F) (c : MobContext F)
    (targetPos : Option (LocalPos F)) (changed : Bool) (brain : MobBrainState) : MobBody F × Option (MobAction F) :=
  match brain.target with
  | some target =>
    match targetPos with
    | none => (mob.persistIf changed brain, none)
    | some targetPos => mob.conclude changed brain (handlePursuit cfg v mob.mobId c brain target targetPos)
  | none =>
    if brain.mode = .return then mob.conclude changed brain (handleReturn cfg mob.mobId c brain)
    else mob.conclude changed brain (handleIdle cfg mob.mobId c roll brain)

/-- One round of the loop of `process_mob_ai`. -/
def MobBody.think (cfg : MobConfig F) (v : MobView F) (roll : WanderRoll F) (now : Nat) (mob : MobBody F) :
    MobBody F × Option (MobAction F) :=
  match collectMobContext cfg mob now with
  | none => (mob, none)
  | some c =>
    match handleAttackWindup mob.brain now with
    | none => (mob, none)
    | some (brain, windupChanged, minRethinkAt) =>
      let aggros := mob.aggro
      let mob := { mob with aggro := [] }
      let (provoked, brain) := applyNewAggro v brain aggros now
      let (acquired, brain) := acquireIdleTarget cfg v c brain
      let (targetPos, lost, brain) := validateTarget cfg v c brain
      let brain := { brain with nextRethinkAt := max brain.nextRethinkAt (minRethinkAt.getD 0) }
      decideAction cfg v roll mob c targetPos (windupChanged || provoked || acquired || lost) brain

/-! ## Between the turns -/

def maxMobStimuliPerTick : Nat := 16

/-- `queue_mob_aggro`: of too many the first are dropped. -/
def MobBody.queueAggro (mob : MobBody F) (attacker : EntityId) : MobBody F :=
  let queue := mob.aggro ++ [attacker]
  { mob with aggro := queue.drop (queue.length - maxMobStimuliPerTick) }

/-- `begin_actor_dying` with `stop_actor_activity_for_dying`. -/
def MobBody.beginDying (mob : MobBody F) (now : Nat) : MobBody F :=
  if mob.life.isAlive = false then mob
  else
    { mob with
      life := .dying now (satAdd now Sim.dyingToDeadDelay)
      brain := { mob.brain with mode := .idle, target := none, attackWindupUntil := 0, nextRethinkAt := 0 }
      aggro := []
      motion := ⟨mob.motion.segmentEndPos, mob.motion.segmentEndPos, now, now⟩ }

/-! ## A turn to act -/

/-- `apply_mob_motion_state` -/
def MobBody.setMotion (mob : MobBody F) (now : Nat) (startPos endPos : LocalPos F) (duration : Nat) : MobBody F :=
  { mob with motion := ⟨startPos, endPos, now, satAdd now duration⟩ }

/-- `apply_mob_motion` and the state changes of `apply_mob_attack`, with the movement that is told. -/
def MobBody.perform (mob : MobBody F) (now : Nat) : MobAction F → MobBody F × PendingMovement F
  | .motion startPos endPos rot kind ts duration nextBrain =>
    ({ mob.setMotion now startPos endPos duration with pos := startPos, rot, brain := nextBrain },
      ⟨endPos, kind, false, rot, ts, duration⟩)
  | .attack _ pos rot ts duration _ _ nextBrain =>
    ({ mob.setMotion now pos pos 0 with pos, rot, brain := nextBrain }, ⟨pos, .attack, true, rot, ts, duration⟩)

/-- Whether `apply_action` goes through with an action. -/
def MobBody.mayPerform (mob : MobBody F) (v : MobView F) : MobAction F → Bool
  | .motion .. => mob.life.isAlive
  | .attack targetEntity .. => mob.life.isAlive && v.actorCanBeCombatTarget targetEntity

/-- An attack that is refused leaves a brain as new; a motion that is refused leaves all as it is. -/
def MobBody.refuse (mob : MobBody F) : MobAction F → MobBody F
  | .motion .. => mob
  | .attack .. => { mob with brain := .default }

end

end Zohar.Mob
