/-
What comes of a turn to think. A mob that is asleep in a windup, dead or unknown stays as it is. Any other one settles:
it pursues a target or has none, and then it stays, moves or strikes. All that runs of turns need is said here.
-/
import Zohar.Mob.Think

namespace Zohar.Mob

open Zohar.Lib
open Zohar.Replication (EntityId MovementKind)
open Zohar.Sim (Entity ActorLifePhase MobBrainMode AttackDamageSchedule)
open Zohar.Spawn (MobId)

/-! ## Coherent brains -/

namespace MobBrainState

/-- A brain has a target exactly while it pursues it or winds up to hit it, and waits for the end of a windup only
then. -/
structure Coherent (brain : MobBrainState) : Prop where
  target_iff : brain.target.isSome ↔ brain.mode = .pursuit ∨ brain.mode = .attackWindup
  windup : brain.attackWindupUntil ≠ 0 → brain.mode = .attackWindup

/-- A coherent brain that is not in a windup. -/
structure Settled (brain : MobBrainState) : Prop where
  target_iff : brain.target.isSome ↔ brain.mode = .pursuit
  awake : brain.mode ≠ .attackWindup
  windup : brain.attackWindupUntil = 0

/-- The moment before which the brain does nothing. -/
def windupDue (brain : MobBrainState) : Nat := if brain.mode = .attackWindup then brain.attackWindupUntil else 0

variable {brain : MobBrainState}

theorem Settled.coherent (h : brain.Settled) : brain.Coherent where
  target_iff := by
    rw [h.target_iff]
    constructor
    · exact .inl
    · rintro (hp | hw)
      · exact hp
      · exact absurd hw h.awake
  windup hne := absurd h.windup hne

theorem Coherent.settled (h : brain.Coherent) (hawake : brain.mode ≠ .attackWindup) : brain.Settled where
  target_iff := by
    rw [h.target_iff]
    constructor
    · rintro (hp | hw)
      · exact hp
      · exact absurd hw hawake
    · exact .inl
  awake := hawake
  windup := by
    by_contra hne
    exact hawake (h.windup hne)

theorem coherent_default : default.Coherent where
  target_iff := by decide
  windup hne := absurd rfl hne

theorem settled_default : default.Settled := coherent_default.settled (by decide)

theorem settled_transitionToIdle (brain : MobBrainState) (now : Nat) : (brain.transitionToIdle now).Settled where
  target_iff := iff_of_false (by simp [transitionToIdle]) (by simp [transitionToIdle])
  awake := by simp [transitionToIdle]
  windup := rfl

theorem windupDue_of_awake (h : brain.mode ≠ .attackWindup) : brain.windupDue = 0 := if_neg h

/-- Nothing but the mode, the target and the end of the windup counts. -/
theorem Settled.congr {other : MobBrainState} (h : brain.Settled) (hmode : other.mode = brain.mode)
    (htarget : other.target = brain.target) (hwindup : other.attackWindupUntil = brain.attackWindupUntil) :
    other.Settled where
  target_iff := by rw [hmode, htarget]; exact h.target_iff
  awake := by rw [hmode]; exact h.awake
  windup := hwindup.trans h.windup

theorem Settled.pursue (h : brain.Settled) (target : EntityId) (now : Nat) :
    Settled { brain with target := some target, mode := .pursuit, nextRethinkAt := now } where
  target_iff := by simp
  awake := by simp
  windup := h.windup

end MobBrainState

section
variable {F : Type} [F32 F] {cfg : MobConfig F} {v : MobView F} {roll : WanderRoll F} {mob mob' : MobBody F}
  {c : MobContext F} {brain brain' : MobBrainState} {now : Nat} {planned : Option (MobAction F)}

open F32 (ofRat)

/-! ## Contexts -/

structure ContextOf (cfg : MobConfig F) (mob : MobBody F) (now : Nat) (c : MobContext F) : Prop where
  alive : mob.life.isAlive = true
  proto : cfg.mobs mob.mobId = some c.proto
  clock : c.now = now
  nowTs : c.nowTs = toClientTimestamp now
  currentPos : c.currentPos = mob.motion.sampleAt now
  inFlight : c.movementInFlight = mob.motion.inFlight now

theorem collectMobContext_spec (h : collectMobContext cfg mob now = some c) : ContextOf cfg mob now c := by
  unfold collectMobContext at h
  split at h
  · cases h
  · rename_i halive
    obtain ⟨proto, hproto, rfl⟩ := Option.map_eq_some_iff.1 h
    exact ⟨by simpa using halive, hproto, rfl, rfl, rfl, rfl⟩

/-! ## Before the decision -/

omit [F32 F] in
theorem targetable_iff {id : EntityId} :
    v.provokers.targetable id = true ↔ ∃ entity, v.netEntities id = some entity ∧
      v.actorCanBeCombatTarget entity = true := by
  have hsame : ∀ entity, v.provokers.actorCanBeCombatTarget entity = v.actorCanBeCombatTarget entity := by
    intro entity
    have hlife : (v.provokers.entities entity).life = (v.entities entity).life := rfl
    cases h : (v.entities entity).life with
    | none => simp only [Sim.MapActors.actorCanBeCombatTarget, MobView.actorCanBeCombatTarget, hlife, h]
    | some life => simp only [Sim.MapActors.actorCanBeCombatTarget, MobView.actorCanBeCombatTarget, hlife, h]
  have hnet : v.provokers.netEntities id = v.netEntities id := rfl
  unfold Sim.MapActors.targetable
  rw [hnet]
  cases hentity : v.netEntities id with
  | none => simp
  | some entity => simp [hsame]

/-- The windup is over when a mob thinks. -/
theorem handleAttackWindup_spec {r : MobBrainState × Bool × Option Nat} (h : brain.Coherent)
    (hr : handleAttackWindup brain now = some r) :
    brain.windupDue ≤ now ∧ r.1.Settled ∧ r.1.nextAttackAt = brain.nextAttackAt ∧
    (r.2.1 = false → r = (brain, false, none)) := by
  unfold handleAttackWindup at hr
  split at hr
  · rename_i hawake
    cases hr
    refine ⟨?_, h.settled hawake, rfl, fun _ => rfl⟩
    rw [MobBrainState.windupDue_of_awake hawake]
    exact Nat.zero_le now
  · rename_i hwindup
    rw [not_not] at hwindup
    split at hr
    · cases hr
    · rename_i hover
      have hdue : brain.windupDue ≤ now := by
        rw [MobBrainState.windupDue, if_pos hwindup]
        exact Nat.not_lt.1 hover
      split at hr
      · rename_i htarget
        cases hr
        refine ⟨hdue, ⟨?_, ?_, rfl⟩, rfl, ?_⟩
        · simp [htarget]
        · simp
        · simp
      · cases hr
        refine ⟨hdue, ?_, rfl, ?_⟩
        · exact (brain.settled_transitionToIdle now).congr rfl rfl rfl
        · simp

theorem handleAttackWindup_eq_none_iff : handleAttackWindup brain now = none ↔ now < brain.windupDue := by
  unfold handleAttackWindup MobBrainState.windupDue
  split
  · rename_i hawake
    simp
  · rename_i hwindup
    rw [not_not] at hwindup
    rw [if_pos hwindup]
    split
    · rename_i hlt
      simp [hlt]
    · rename_i hle
      split
      · simp [hle]
      · simp [hle]

omit [F32 F] in
theorem applyNewAggro_spec (v : MobView F) (aggros : List EntityId) (now : Nat) (h : brain.Settled) :
    (applyNewAggro v brain aggros now).2.Settled ∧
      (applyNewAggro v brain aggros now).2.nextAttackAt = brain.nextAttackAt ∧
      ((applyNewAggro v brain aggros now).1 = false → (applyNewAggro v brain aggros now).2 = brain) ∧
      ∀ id, v.provokers.latestLiveProvoker aggros = some id →
        (applyNewAggro v brain aggros now).2.target = some id := by
  unfold applyNewAggro Sim.MapActors.applyNewAggro
  cases hlatest : v.provokers.latestLiveProvoker aggros with
  | none =>
    refine ⟨h, rfl, fun _ => rfl, ?_⟩
    rintro id ⟨⟩
  | some target =>
    simp only
    split
    · rename_i hsame
      refine ⟨h, trivial, fun _ => rfl, ?_⟩
      rintro id ⟨⟩
      exact hsame.1
    · refine ⟨h.pursue target now, trivial, ?_, ?_⟩
      · rintro ⟨⟩
      · rintro id ⟨⟩
        rfl

theorem acquireIdleTarget_spec (cfg : MobConfig F) (v : MobView F) (c : MobContext F) (h : brain.Settled) :
    (acquireIdleTarget cfg v c brain).2.Settled ∧ (acquireIdleTarget cfg v c brain).2.nextAttackAt =
      brain.nextAttackAt ∧
      ((acquireIdleTarget cfg v c brain).1 = false → (acquireIdleTarget cfg v c brain).2 = brain) ∧
      (brain.target.isSome → (acquireIdleTarget cfg v c brain).2 = brain) := by
  unfold acquireIdleTarget
  split
  · exact ⟨h, rfl, fun _ => rfl, fun _ => rfl⟩
  · rename_i hidle
    have hnone : ¬ brain.target.isSome = true := by
      intro hsome
      simp [hsome] at hidle
    split
    · exact ⟨h, rfl, fun _ => rfl, fun _ => rfl⟩
    · split
      · exact ⟨h, rfl, fun _ => rfl, fun _ => rfl⟩
      · split
        · exact ⟨h, rfl, fun _ => rfl, fun _ => rfl⟩
        · refine ⟨h.pursue _ _, rfl, ?_, fun hsome => absurd hsome hnone⟩
          rintro ⟨⟩

/-- A target that can be fought and the place where it is seen. -/
structure Sighting (v : MobView F) (nowTs : Nat) (target : EntityId) (targetEntity : Entity) (targetPos : LocalPos F) :
    Prop where
  entity : v.netEntities target = some targetEntity
  alive : v.actorCanBeCombatTarget targetEntity = true
  place : v.playerPosition target nowTs = some targetPos

theorem Sighting.isPlayer {nowTs : Nat} {target : EntityId} {targetEntity : Entity} {targetPos : LocalPos F}
    (h : Sighting v nowTs target targetEntity targetPos) : (v.entities targetEntity).isPlayer = true := by
  have hplace := h.place
  unfold MobView.playerPosition at hplace
  rw [h.entity] at hplace
  by_contra hnot
  simp [hnot] at hplace

/-- A target that is kept is in sight; one that is not is given up for the way home. -/
theorem validateTarget_spec (cfg : MobConfig F) (v : MobView F) (c : MobContext F) (h : brain.Settled) :
    (validateTarget cfg v c brain).2.2.Settled ∧ (validateTarget cfg v c brain).2.2.nextAttackAt = brain.nextAttackAt ∧
      ((validateTarget cfg v c brain).2.1 = false → (validateTarget cfg v c brain).2.2 = brain) ∧
      (∀ target, (validateTarget cfg v c brain).2.2.target = some target → ∃ targetEntity targetPos,
        (validateTarget cfg v c brain).1 = some targetPos ∧ Sighting v c.nowTs target targetEntity targetPos) ∧
      ∀ target, brain.target = some target → v.provokers.targetable target = true →
        (v.playerPosition target c.nowTs).isSome → (validateTarget cfg v c brain).2.2.target = some target := by
  have hlost : ({ brain with target := none, mode := .return } : MobBrainState).Settled := by
    refine ⟨?_, ?_, h.windup⟩
    · simp
    · simp
  unfold validateTarget
  cases htarget : brain.target with
  | none =>
    refine ⟨h, rfl, fun _ => rfl, ?_, ?_⟩
    · rintro target heq
      rw [htarget] at heq
      cases heq
    · rintro target ⟨⟩
  | some target =>
    simp only
    split
    · rename_i hfallen
      refine ⟨hlost, rfl, ?_, ?_, ?_⟩
      · rintro ⟨⟩
      · rintro _ ⟨⟩
      · rintro _ ⟨⟩ hlive
        exfalso
        obtain ⟨entity, hentity, halive⟩ := targetable_iff.1 hlive
        simp [hentity, halive] at hfallen
    · rename_i hlive
      cases hplace : v.playerPosition target c.nowTs with
      | none =>
        refine ⟨hlost, rfl, ?_, ?_, ?_⟩
        · rintro ⟨⟩
        · rintro _ ⟨⟩
        · rintro _ ⟨⟩ - hsome
          rw [hplace] at hsome
          cases hsome
      | some targetPos =>
        have hleash : hasExceededLeash cfg.libm none c.currentPos targetPos c.homePos = false := rfl
        simp only [hleash, Bool.false_eq_true, if_false]
        refine ⟨h, trivial, fun _ => trivial, ?_, ?_⟩
        · intro id hid
          rw [htarget] at hid
          cases hid
          cases hentity : v.netEntities target with
          | none => simp [hentity] at hlive
          | some entity =>
            refine ⟨entity, targetPos, rfl, hentity, ?_, hplace⟩
            simpa [hentity] using hlive
        · rintro _ ⟨⟩ - -
          exact htarget

/-! ## Decisions -/

section FollowUp

variable (now : Nat) (completion : MobActionCompletion) (actionDuration : Nat)

omit [F32 F] in
theorem resolveMobFollowUp_same (brain : MobBrainState) :
    (resolveMobFollowUp brain completion now actionDuration).mode = brain.mode ∧
      (resolveMobFollowUp brain completion now actionDuration).target = brain.target ∧
      (resolveMobFollowUp brain completion now actionDuration).attackWindupUntil = brain.attackWindupUntil ∧
      (resolveMobFollowUp brain completion now actionDuration).nextAttackAt = brain.nextAttackAt := by
  cases completion with
  | none => exact ⟨rfl, rfl, rfl, rfl⟩
  | rethinkAtActionEnd => exact ⟨rfl, rfl, rfl, rfl⟩
  | rethinkAtActionEndOrDelay _ => exact ⟨rfl, rfl, rfl, rfl⟩
  | idleWander _ => exact ⟨rfl, rfl, rfl, rfl⟩

omit [F32 F] in
theorem MobBrainState.Settled.followUp (h : brain.Settled) :
    (resolveMobFollowUp brain completion now actionDuration).Settled := by
  obtain ⟨hmode, htarget, hwindup, -⟩ := resolveMobFollowUp_same now completion actionDuration brain
  exact h.congr hmode htarget hwindup

end FollowUp

/-- How far from its target a mob still hits it. -/
def attackThresholdM (attackRange : Nat) : F := max (effectiveAttackRangeM attackRange)
    (ofRat 0) * legacyAttackThresholdRatio

/-- What can come of a decision: the mob stays, moves, or strikes the target it knows. -/
inductive Outcome (cfg : MobConfig F) (v : MobView F) (c : MobContext F) (brain : MobBrainState) :
    Option (MobAction F) → MobBrainState → Prop
  | stay {brain' : MobBrainState} (settled : brain'.Settled) (gate : brain'.nextAttackAt = brain.nextAttackAt)
      (target : brain'.target = brain.target) : Outcome cfg v c brain none brain'
  | move {startPos endPos : LocalPos F} {rot : UInt8} {kind : MovementKind} {ts duration : Nat}
      {nextBrain brain' : MobBrainState} (settled : nextBrain.Settled)
        (gate : nextBrain.nextAttackAt = brain.nextAttackAt)
      (target : nextBrain.target = brain.target) :
      Outcome cfg v c brain (some (.motion startPos endPos rot kind ts duration nextBrain)) brain'
  | strike {target : EntityId} {targetEntity : Entity} {targetPos pos : LocalPos F} {rot : UInt8} {ts duration : Nat}
      {damageSchedule : AttackDamageSchedule} {setProjectileTarget : Bool} {nextBrain brain' : MobBrainState}
      (known : brain.target = some target) (sight : Sighting v c.nowTs target targetEntity targetPos)
      (reach : distance cfg.libm c.currentPos targetPos ≤ attackThresholdM c.proto.attackRange)
      (rest : c.movementInFlight = true → waitsForMovementBeforeAttack c.proto.battleType = false)
      (due : brain.nextAttackAt ≤ c.now)
      (effect : duration = (mobAttackEffectTiming c.proto.battleType (cfg.mobAttackTimings c.proto.mobId)
        (attackTimingForMob c.proto.attackSpeed).fallbackActionDuration).actionDurationMs)
      (windup : nextBrain.mode = .attackWindup ∧ nextBrain.target = some target ∧
        nextBrain.attackWindupUntil = satAdd c.now duration)
      (gate : nextBrain.nextAttackAt = satAdd c.now (attackTimingForMob c.proto.attackSpeed).attackGate) :
      Outcome cfg v c brain
        (some (.attack targetEntity pos rot ts duration damageSchedule setProjectileTarget nextBrain)) brain'

/-- A move that is built leaves the brain as it is up to when it thinks again. -/
theorem Outcome.of_move {mobId : MobId} {kind : MovementKind} {destination faceTo : LocalPos F}
    {nextBrain : MobBrainState} {completion : MobActionCompletion} (h : nextBrain.Settled)
    (hgate : nextBrain.nextAttackAt = brain.nextAttackAt) (htarget : nextBrain.target = brain.target) :
    Outcome cfg v c brain (buildMobMoveAction cfg mobId c kind destination faceTo nextBrain completion) nextBrain := by
  unfold buildMobMoveAction
  cases hduration : calculateMobDuration cfg.libm ((cfg.runSpeed mobId).getD defaultRunMotionSpeedMeterPerSec) kind
      c.currentPos destination (((cfg.mobs mobId).map (·.moveSpeed)).getD 0) with
  | none => exact .stay h hgate htarget
  | some duration =>
    obtain ⟨-, hsame, -, hnext⟩ := resolveMobFollowUp_same c.now completion duration nextBrain
    exact .move (h.followUp c.now completion duration) (hnext.trans hgate) (hsame.trans htarget)

theorem handleReturn_outcome {mobId : MobId} (h : brain.Settled) (hnone : brain.target = none) :
    Outcome cfg v c brain (handleReturn cfg mobId c brain).1 (handleReturn cfg mobId c brain).2 := by
  unfold handleReturn
  split
  · exact .stay (brain.settled_transitionToIdle c.now) rfl hnone.symm
  · split
    · exact .stay h rfl rfl
    · exact .of_move h rfl rfl

theorem handleIdle_outcome {mobId : MobId} (h : brain.Settled) :
    Outcome cfg v c brain (handleIdle cfg mobId c roll brain).1 (handleIdle cfg mobId c roll brain).2 := by
  have hsettled : ∀ waitUntil decisionAt, MobBrainState.Settled
      { brain with wanderWaitUntil := waitUntil, wanderNextDecisionAt := decisionAt } :=
    fun _ _ => h.congr rfl rfl rfl
  unfold handleIdle
  split
  · exact .stay h rfl rfl
  · simp only
    split
    · exact .stay (hsettled _ _) rfl rfl
    · split
      · exact .stay (hsettled _ _) rfl rfl
      · split
        · exact .stay (hsettled _ _) rfl rfl
        · split
          · exact .stay (hsettled _ _) rfl rfl
          · rename_i destination _
            generalize hpause : randomDurationBetweenMs roll.postMovePause cfg.wander.postMovePauseMin
              cfg.wander.postMovePauseMax = pause
            have hmove : Outcome cfg v c brain (buildMobMoveAction cfg mobId c .wait destination destination
                { brain with wanderWaitUntil := none } (.idleWander pause)) { brain with wanderWaitUntil := none } :=
              .of_move (hsettled _ _) rfl rfl
            split
            · rename_i action haction
              rw [haction] at hmove
              exact hmove
            · exact .stay (hsettled _ _) rfl rfl

theorem handlePursuit_outcome {mobId : MobId} {target : EntityId} {targetEntity : Entity} {targetPos : LocalPos F}
    (h : brain.Settled) (hknown : brain.target = some target)
    (hsight : Sighting v c.nowTs target targetEntity targetPos) :
    Outcome cfg v c brain (handlePursuit cfg v mobId c brain target targetPos).1
      (handlePursuit cfg v mobId c brain target targetPos).2 := by
  have hwait : ∀ rethinkAt, MobBrainState.Settled { brain with nextRethinkAt := rethinkAt } :=
    fun _ => h.congr rfl rfl rfl
  unfold handlePursuit
  simp only
  split
  · split
    · exact .stay (hwait _) rfl rfl
    · exact .stay h rfl rfl
  · rename_i hrest
    split
    · exact .stay h rfl rfl
    · split
      · rename_i hstrike
        unfold buildMobAttackAction
        rw [hsight.entity, Option.map_some]
        refine .strike hknown hsight hstrike.2 ?_ hstrike.1 rfl ⟨rfl, hknown, rfl⟩ rfl
        intro hflight
        simpa [hflight] using hrest
      · split
        · exact .stay (hwait _) rfl rfl
        · split
          · exact .stay h rfl rfl
          · split
            · exact .stay (hwait _) rfl rfl
            · split
              · exact .stay (hwait _) rfl rfl
              · exact .of_move h rfl rfl

/-! ## The turn -/

omit [F32 F] in
/-- A brain that is not reported as changed is the one that the mob has. -/
theorem persistIf_eq {changed : Bool} (h : changed = false → brain = mob.brain) :
    mob.persistIf changed brain = { mob with brain } := by
  unfold MobBody.persistIf
  cases changed with
  | true => rfl
  | false => rw [h rfl]; rfl

/-- The brain of a mob after a decision: what it has planned brings its own. -/
def MobBody.decided (mob : MobBody F) (planned : Option (MobAction F)) (brain : MobBrainState) : MobBody F :=
  if planned.isSome then mob else { mob with brain }

theorem conclude_outcome {changed : Bool} {result : Option (MobAction F) × MobBrainState}
    (hsame : changed = false → brain = mob.brain) (houtcome : Outcome cfg v c brain result.1 result.2) :
    ∃ brain', Outcome cfg v c brain (mob.conclude changed brain result).2 brain' ∧
      (mob.conclude changed brain result).1 = mob.decided (mob.conclude changed brain result).2 brain' := by
  obtain ⟨planned, brain'⟩ := result
  refine ⟨brain', ?_⟩
  cases planned with
  | some action => exact ⟨houtcome, rfl⟩
  | none =>
    refine ⟨houtcome, persistIf_eq ?_⟩
    intro hfalse
    obtain ⟨hchanged, heq⟩ := Bool.or_eq_false_iff.1 hfalse
    exact (of_not_not (of_decide_eq_false heq)).trans (hsame hchanged)

theorem decideAction_outcome (roll : WanderRoll F) (mob : MobBody F) {targetPos : Option (LocalPos F)} {changed : Bool}
    (h : brain.Settled) (hsame : changed = false → brain = mob.brain)
    (hsight : ∀ target, brain.target = some target → ∃ targetEntity pos, targetPos = some pos ∧
      Sighting v c.nowTs target targetEntity pos) :
    ∃ brain', Outcome cfg v c brain (decideAction cfg v roll mob c targetPos changed brain).2 brain' ∧
      (decideAction cfg v roll mob c targetPos changed brain).1 =
        mob.decided (decideAction cfg v roll mob c targetPos changed brain).2 brain' := by
  unfold decideAction
  cases hknown : brain.target with
  | some target =>
    obtain ⟨targetEntity, pos, rfl, hpos⟩ := hsight target hknown
    exact conclude_outcome hsame (handlePursuit_outcome h hknown hpos)
  | none =>
    dsimp only
    split
    · exact conclude_outcome hsame (handleReturn_outcome h hknown)
    · exact conclude_outcome hsame (handleIdle_outcome h)

/-- A turn in which a mob is awake, with what it knows when it decides. -/
structure Turn (cfg : MobConfig F) (v : MobView F) (now : Nat) (mob : MobBody F) (c : MobContext F)
    (brain brain' : MobBrainState) (planned : Option (MobAction F)) (mob' : MobBody F) : Prop where
  context : collectMobContext cfg mob now = some c
  awake : mob.brain.windupDue ≤ now
  settled : brain.Settled
  gate : brain.nextAttackAt = mob.brain.nextAttackAt
  provoked : ∀ id, v.provokers.latestLiveProvoker mob.aggro = some id → (v.playerPosition id c.nowTs).isSome →
    brain.target = some id
  outcome : Outcome cfg v c brain planned brain'
  after : mob' = MobBody.decided { mob with aggro := [] } planned brain'

/-- A turn changes nothing, or the mob is alive, known and awake in it. -/
theorem think_cases (cfg : MobConfig F) (v : MobView F) (roll : WanderRoll F) (now : Nat) (h : mob.brain.Coherent) :
    ((collectMobContext cfg mob now = none ∨ now < mob.brain.windupDue) ∧ mob.think cfg v roll now = (mob, none)) ∨
      ∃ c brain brain', Turn cfg v now mob c brain brain' (mob.think cfg v roll now).2
        (mob.think cfg v roll now).1 := by
  unfold MobBody.think
  cases hcontext : collectMobContext cfg mob now with
  | none => exact .inl ⟨.inl rfl, rfl⟩
  | some c =>
    cases hwindup : handleAttackWindup mob.brain now with
    | none => exact .inl ⟨.inr (handleAttackWindup_eq_none_iff.1 hwindup), rfl⟩
    | some r =>
      obtain ⟨brain, windupChanged, minRethinkAt⟩ := r
      obtain ⟨hawake, hsettled, hgate, hsame⟩ := handleAttackWindup_spec h hwindup
      dsimp only at hsettled hgate hsame ⊢
      obtain ⟨hsettled₁, hgate₁, hsame₁, hprovoked⟩ := applyNewAggro_spec v mob.aggro now hsettled
      generalize applyNewAggro v brain mob.aggro now = aggro at hsettled₁ hgate₁ hsame₁ hprovoked ⊢
      obtain ⟨provoked, brain₁⟩ := aggro
      dsimp only at hsettled₁ hgate₁ hsame₁ hprovoked ⊢
      obtain ⟨hsettled₂, hgate₂, hsame₂, hkeep⟩ := acquireIdleTarget_spec cfg v c hsettled₁
      generalize acquireIdleTarget cfg v c brain₁ = idle at hsettled₂ hgate₂ hsame₂ hkeep ⊢
      obtain ⟨acquired, brain₂⟩ := idle
      dsimp only at hsettled₂ hgate₂ hsame₂ hkeep ⊢
      obtain ⟨hsettled₃, hgate₃, hsame₃, hsight, hvalid⟩ := validateTarget_spec cfg v c hsettled₂
      generalize validateTarget cfg v c brain₂ = valid at hsettled₃ hgate₃ hsame₃ hsight hvalid ⊢
      obtain ⟨targetPos, lost, brain₃⟩ := valid
      dsimp only at hsettled₃ hgate₃ hsame₃ hsight hvalid ⊢
      have hraised : MobBrainState.Settled
          { brain₃ with nextRethinkAt := max brain₃.nextRethinkAt (minRethinkAt.getD 0) } :=
        hsettled₃.congr rfl rfl rfl
      have hunchanged : (windupChanged || provoked || acquired || lost) = false →
          ({ brain₃ with nextRethinkAt := max brain₃.nextRethinkAt (minRethinkAt.getD 0) } : MobBrainState) =
            mob.brain := by
        intro hfalse
        simp only [Bool.or_eq_false_iff] at hfalse
        obtain ⟨⟨⟨hw, hp⟩, ha⟩, hl⟩ := hfalse
        have hr := hsame hw
        obtain ⟨rfl, -, rfl⟩ : brain = mob.brain ∧ windupChanged = false ∧ minRethinkAt = none := by simpa using hr
        rw [hsame₃ hl, hsame₂ ha, hsame₁ hp]
        simp
      obtain ⟨brain', houtcome, hafter⟩ := decideAction_outcome roll { mob with aggro := [] } hraised hunchanged hsight
      refine .inr ⟨c, _, brain', hcontext, hawake, hraised, ?_, ?_, houtcome, hafter⟩
      · exact hgate₃.trans (hgate₂.trans (hgate₁.trans hgate))
      · intro id hlatest hplace
        have htarget := hprovoked id hlatest
        have hkept : brain₂ = brain₁ := hkeep (by rw [htarget]; rfl)
        refine hvalid id (by rw [hkept, htarget]) ?_ hplace
        obtain ⟨_, _, _, hlive, _⟩ := (Sim.MapActors.latestLiveProvoker_eq_some_iff _).1 hlatest
        exact hlive

end

end Zohar.Mob
