/-
What a map runtime does to a player's progression: experience rewards for kills and core-stat intents. From
zohar-sim/src/runtime/rewards.rs and runtime/player/progression.rs. Of an entity, the components that these
functions read and write are kept: the progression, the statistics, and the three values of the appearance.
-/
import Zohar.Stats.Rules

namespace Zohar.Sim

open Zohar.Lib Zohar.Stats

structure LivePlayer where
  progression : PlayerGameplayBootstrap
  stats : ActorStatsRuntime
  appearance : ActorPublicStats

/-! ## Statistics commands -/

/-- `with_api_mut` around a command. -/
def withApi {ε α : Type} (c : Cmd ε (ActorStatState Unit Unit) α) : Cmd ε ActorStatsRuntime α :=
  ⟨fun rt =>
    if rt.state.kind ≠ rt.source.actorKind then none
    else (c.run rt.state).map fun r => (r.1, { rt with state := r.2 })⟩

section
variable [GrowthRng]

def normalizeCmd {ε : Type} : Cmd ε ActorStatsRuntime StatsSync := ⟨fun rt => rt.normalize.map fun r => (.ok r.1, r.2)⟩

end

/-- The appearance follows a reported public state. -/
def followPublicState (appearance : ActorPublicStats) (sync : StatsSync) : ActorPublicStats :=
  match sync.publicState with
  | some update => update.stats
  | none => appearance

/-! ## Rewards -/

inductive RewardError where
  | invalidStatWrite (stat : Stat) (source : StatWriteError)
  deriving DecidableEq, Repr

structure MobExpReward where
  baseExp : Int
  level : Int
  deriving DecidableEq, Repr

structure AppliedExpReward where
  showStatPointStep : Bool
  levelUp : Option Int
  deriving DecidableEq, Repr

abbrev StatsCmd (ε α : Type) := Cmd ε (ActorStatState Unit Unit) α

/-- The progression and the points of a reward. -/
def rewardWrites (source : ActorStatSource) (currentStatPoints : Int) (outcome : PlayerMobExpRewardOutcome) :
    StatsCmd RewardError Unit := do
  Cmd.update fun st => .ok (st.setPlayerProgression outcome.progression)
  (if outcome.statPointsGained > 0 then
    Cmd.mapError (.invalidStatWrite .statPoints)
      (GameStatsApi.setStoredStat source .statPoints (satI32 (currentStatPoints + outcome.statPointsGained)))
  else pure ())

def readLimited (source : ActorStatSource) (stat : Stat) : StatsCmd RewardError Int :=
  ⟨fun st => (st.readLimitedValue source stat).map fun v => (.ok v, st)⟩

/-- Full resources after a level step. -/
def refillResources (source : ActorStatSource) : StatsCmd RewardError Unit := do
  let maxHp ← readLimited source .maxHp
  let maxSp ← readLimited source .maxSp
  let maxStamina ← readLimited source .maxStamina
  let _ ← Cmd.mapError (.invalidStatWrite .hp) (GameStatsApi.setResource .hp maxHp)
  let _ ← Cmd.mapError (.invalidStatWrite .sp) (GameStatsApi.setResource .sp maxSp)
  let _ ← Cmd.mapError (.invalidStatWrite .stamina) (GameStatsApi.setResource .stamina maxStamina)

variable [GrowthRng]

def applyRewardStats (outcome : PlayerMobExpRewardOutcome) : Cmd RewardError ActorStatsRuntime Unit := do
  let currentStatPoints ← Cmd.tryRead fun rt => .ok (rt.readPacket .statPoints)
  let source ← Cmd.tryRead fun rt => .ok rt.source
  withApi (rewardWrites source currentStatPoints outcome)
  (if outcome.levelStepsGained > 0 then do
    let _ ← normalizeCmd
    withApi (refillResources source)
  else pure ())

def applyPlayerExpReward (rules : PlayerStatRules) (mobReward : MobExpReward) :
    Cmd RewardError LivePlayer (Option AppliedExpReward) :=
  ⟨fun p =>
    let current : PlayerProgressionState :=
      ⟨p.progression.level, clampI64ToU32 p.progression.expInLevel,
        (clampInt 0 i32Max (p.stats.readPacket .nextExp)).toNat⟩
    match rules.applyMobExpReward current mobReward.level mobReward.baseExp with
    | none => some (.ok none, p)
    | some outcome =>
      let p := { p with
        progression := { p.progression with
          level := outcome.progression.level
          expInLevel := outcome.progression.expInLevel } }
      let stats : Cmd RewardError ActorStatsRuntime StatsSync := do
        applyRewardStats outcome
        normalizeCmd
      (stats.run p.stats).map fun r =>
        match r with
        | (.error e, stats) => (.error e, { p with stats })
        | (.ok sync, stats) =>
          (.ok (some ⟨decide (outcome.statPointsGained > 0), outcome.levelUp⟩),
            { p with stats, appearance := followPublicState p.appearance sync })⟩

/-! ## Core-stat intents -/

inductive ProgressionError where
  | missingPlayerClassConfig (playerId : PlayerId) (stat : CoreStatKind)
  | invalidProgressionState
  | noStatPoints
  | noStatResetPoints
  | statAtBaseFloor (stat : CoreStatKind)
  | statAtCap (stat : CoreStatKind) (cap : Int)
  | unsupportedDelta (delta : Int)
  | statWriteOutOfRange (stat : Stat) (min : Option Int) (max attempted : Int)
  | statWriteFailed (stat : Stat) (error : StatWriteError)
  deriving DecidableEq, Repr

structure ValidatedCoreStatSave where
  stat : CoreStatKind
  progression : PlayerProgressionSnapshot
  newAbsolute : Int
  statPointsDelta : Int
  deriving DecidableEq, Repr

def coreStatToStat : CoreStatKind → Stat
  | .st => .st
  | .ht => .ht
  | .dx => .dx
  | .iq => .iq

def coreStatFromStat : Stat → Option CoreStatKind
  | .st => some .st
  | .ht => some .ht
  | .dx => some .dx
  | .iq => some .iq
  | _ => none

def mapStatWriteError (stat : Stat) : StatWriteError → ProgressionError
  | .outOfRange _ value min max =>
    match coreStatFromStat stat with
    | some kind => if value > max then .statAtCap kind max else .statWriteOutOfRange stat min max value
    | none => .statWriteOutOfRange stat min max value
  | other => .statWriteFailed stat other

/-- The value of a core stat and its allocation slot. -/
def statOf (stats : PlayerStats) : CoreStatKind → Int
  | .st => stats.statStr
  | .ht => stats.statVit
  | .dx => stats.statDex
  | .iq => stats.statInt

def allocationOf (a : CoreStatAllocations) : CoreStatKind → Int
  | .st => a.allocatedStr
  | .ht => a.allocatedVit
  | .dx => a.allocatedDex
  | .iq => a.allocatedInt

def setAllocation (a : CoreStatAllocations) (kind : CoreStatKind) (v : Int) : CoreStatAllocations :=
  match kind with
  | .st => { a with allocatedStr := v }
  | .ht => { a with allocatedVit := v }
  | .dx => { a with allocatedDex := v }
  | .iq => { a with allocatedInt := v }

/-- `validate_stored_stat`: the write tried on a copy. -/
def validateStoredStat (rt : ActorStatsRuntime) (stat : Stat) (value : Int) : Option (Except StatWriteError Unit) :=
  ((withApi (GameStatsApi.setStoredStat rt.source stat value)).run rt).map (·.1)

/-- The new allocations, reset count, absolute value and point difference that an intent asks for. -/
def planCoreStatIntent (progression : PlayerGameplayBootstrap) (currentStats : PlayerStats) (statPoints : Int)
    (stat : CoreStatKind) (delta : Int) : Except ProgressionError (CoreStatAllocations × Int × Int × Int) :=
  let allocations := progression.coreStatAllocations
  let currentAbsolute := statOf currentStats stat
  let slot := allocationOf allocations stat
  if delta = 1 then
    if progression.statResetCount < 0 then .error .invalidProgressionState
    else if statPoints ≤ 0 then .error .noStatPoints
    else .ok (setAllocation allocations stat (addI32 slot 1), progression.statResetCount, addI32 currentAbsolute 1, -1)
  else if delta = -1 then
    if progression.statResetCount ≤ 0 then .error .noStatResetPoints
    else if slot ≤ 0 then .error (.statAtBaseFloor stat)
    else .ok (setAllocation allocations stat (subI32 slot 1), subI32 progression.statResetCount 1,
      subI32 currentAbsolute 1, 1)
  else .error (.unsupportedDelta delta)

def validateCoreStatIntent (rules : PlayerStatRules) (p : LivePlayer) (stat : CoreStatKind) (delta : Int) :
    Option (Except ProgressionError ValidatedCoreStatSave) :=
  match rules.classStats.resolvePlayerStats p.progression.playerClass p.progression.coreStatAllocations with
  | none => some (.error (.missingPlayerClassConfig p.progression.playerId stat))
  | some currentStats =>
    match planCoreStatIntent p.progression currentStats (p.stats.readPacket .statPoints) stat delta with
    | .error e => some (.error e)
    | .ok (allocations, statResetCount, newAbsolute, statPointsDelta) =>
      (validateStoredStat p.stats (coreStatToStat stat) newAbsolute).map fun r =>
        match r with
        | .error e => .error (mapStatWriteError (coreStatToStat stat) e)
        | .ok () => .ok {
            stat
            progression := ⟨p.progression.level, p.progression.expInLevel, allocations, statResetCount⟩
            newAbsolute
            statPointsDelta }

/-- The three writes of an accepted intent. -/
def intentWrites (source : ActorStatSource) (statId : Stat) (newAbsolute statPoints statResetCount : Int) :
    StatsCmd ProgressionError Unit := do
  Cmd.mapError (mapStatWriteError statId) (GameStatsApi.setStoredStat source statId newAbsolute)
  Cmd.mapError (mapStatWriteError .statPoints) (GameStatsApi.setStoredStat source .statPoints statPoints)
  Cmd.mapError (mapStatWriteError .statResetCount) (GameStatsApi.setStoredStat source .statResetCount statResetCount)

def applyStatKernelUpdate (stat : CoreStatKind) (newAbsolute statResetCount statPointsDelta : Int) :
    Cmd ProgressionError ActorStatsRuntime StatsSync := do
  let currentStatPoints ← Cmd.tryRead fun rt => .ok (rt.readPacket .statPoints)
  let source ← Cmd.tryRead fun rt => .ok rt.source
  withApi (intentWrites source (coreStatToStat stat) newAbsolute (addI32 currentStatPoints statPointsDelta)
    statResetCount)
  normalizeCmd

def applyValidatedCoreStatSave (validated : ValidatedCoreStatSave) : Cmd ProgressionError LivePlayer Unit :=
  ⟨fun p =>
    ((applyStatKernelUpdate validated.stat validated.newAbsolute validated.progression.statResetCount
      validated.statPointsDelta).run p.stats).map fun r =>
      match r with
      | (.error e, stats) => (.error e, { p with stats })
      | (.ok sync, stats) =>
        (.ok (), { p with
          stats
          appearance := followPublicState p.appearance sync
          progression := { p.progression with
            coreStatAllocations := validated.progression.coreStatAllocations
            statResetCount := validated.progression.statResetCount } })⟩

/-! ## Persisted progression -/

def playerProgressionSnapshot (progression : PlayerGameplayBootstrap) : PlayerProgressionSnapshot :=
  ⟨progression.level, progression.expInLevel, progression.coreStatAllocations, progression.statResetCount⟩

end Zohar.Sim
