/-
The rules that give a player its statistics: class tables, the experience table, experience rewards and
the construction of an actor from what the database holds of a player. From
zohar-gameplay/src/stats/game/player_rules.rs.
-/
import Zohar.Stats.Api

namespace Zohar.Stats

open Zohar.Lib

def maxLevelStatPointsEarning : Int := 91

/-! ## Class tables -/

structure PlayerClassStatsConfig where
  baseStats : CoreStatBlock
  statSource : ActorStatSource

structure PlayerClassStatsTable where
  entries : List (PlayerClass × PlayerClassStatsConfig)

namespace PlayerClassStatsTable

def find (t : PlayerClassStatsTable) (playerClass : PlayerClass) : Option PlayerClassStatsConfig :=
  (t.entries.find? fun e => decide (e.1 = playerClass)).map (·.2)

def statSourceForClass (t : PlayerClassStatsTable) (playerClass : PlayerClass) : Option ActorStatSource :=
  (t.find playerClass).map (·.statSource)

def resolvePlayerStats (t : PlayerClassStatsTable) (playerClass : PlayerClass) (allocations : CoreStatAllocations) :
    Option PlayerStats :=
  (t.find playerClass).map fun entry =>
    ⟨addI32 entry.baseStats.st allocations.allocatedStr, addI32 entry.baseStats.ht allocations.allocatedVit,
      addI32 entry.baseStats.dx allocations.allocatedDex, addI32 entry.baseStats.iq allocations.allocatedInt⟩

end PlayerClassStatsTable

/-! ## The experience table -/

/-- The level is an `i32`. -/
structure LevelExpEntry where
  level : Int
  nextExp : Int
  deathLossPct : Int
  level_le : level ≤ i32Max

inductive LevelExpTableError where
  | empty
  | invalidLevel (level : Int)
  | invalidNextExp (level nextExp : Int)
  | duplicateLevel (level : Int)
  | missingLevel (level : Int)
  deriving DecidableEq, Repr

structure LevelExpTable where
  byLevel : OrdMap Int LevelExpEntry

namespace LevelExpTable

/-- The entries in turn, until one is refused. -/
def collect (byLevel : OrdMap Int LevelExpEntry) : List LevelExpEntry →
    Except LevelExpTableError (OrdMap Int LevelExpEntry)
  | [] => .ok byLevel
  | entry :: entries =>
    if entry.level < 1 then .error (.invalidLevel entry.level)
    else if entry.nextExp ≤ 0 then .error (.invalidNextExp entry.level entry.nextExp)
    else if (byLevel.get? entry.level).isSome then .error (.duplicateLevel entry.level)
    else collect (byLevel.insert entry.level entry) entries

/-- The first number from `expected` on at which the keys do not count up. -/
def firstMissing (expected : Int) : List Int → Option Int
  | [] => none
  | level :: levels => if level ≠ expected then some expected else firstMissing (expected + 1) levels

def tryNew (entries : List LevelExpEntry) : Except LevelExpTableError LevelExpTable :=
  match collect .empty entries with
  | .error e => .error e
  | .ok byLevel =>
    if byLevel.entries.isEmpty then .error .empty
    else if (byLevel.get? 1).isNone then .error (.missingLevel 1)
    else match firstMissing 1 byLevel.keys with
      | some level => .error (.missingLevel level)
      | none => .ok ⟨byLevel⟩

def maxLevel (t : LevelExpTable) : Option Int := t.byLevel.lastKey?

def entryForLevel (t : LevelExpTable) (level : Int) : Option LevelExpEntry := t.byLevel.get? level

def progressionForLevel (t : LevelExpTable) (level expInLevel : Int) : Option PlayerProgressionState :=
  (t.entryForLevel level).map fun entry => ⟨level, clampI64ToU32 expInLevel, clampI64ToU32 entry.nextExp⟩

end LevelExpTable

/-! ## Experience gains -/

structure CrossedLevelSteps where
  levelSteps : Int
  statPoints : Int
  deriving DecidableEq, Repr

/-- `clamp` with bounds that are in order. -/
def clampInt (lo hi x : Int) : Int := max lo (min x hi)

def crossedLevelSteps (level beforeStep afterStep : Int) : CrossedLevelSteps :=
  let before := clampInt 0 levelStepsPerLevel beforeStep
  let after := clampInt 0 levelStepsPerLevel afterStep
  if after ≤ before then ⟨0, 0⟩
  else
    ⟨after - before,
      if level < maxLevelStatPointsEarning then
        max (min after statPointStepsPerLevel - min before statPointStepsPerLevel) 0
      else 0⟩

/-- The variables of the loop that hands out experience. -/
structure ExpGain where
  progression : PlayerProgressionState
  remaining : Int
  appliedExp : Int
  statPointsGained : Int
  levelStepsGained : Int
  levelsGained : Int
  deriving DecidableEq, Repr

structure PlayerExpGainOutcome where
  progression : PlayerProgressionState
  appliedExp : Int
  statPointsGained : Int
  levelStepsGained : Int
  levelsGained : Int
  deriving DecidableEq, Repr

namespace LevelExpTable

/-- The next level with no experience in it, `none` at the top of the table. -/
def advanceLevel (t : LevelExpTable) (maxLevel : Int) (g : ExpGain) : Option ExpGain :=
  if g.progression.level ≥ maxLevel then none
  else
    let nextLevel := satI32 (g.progression.level + 1)
    (t.progressionForLevel nextLevel 0).map fun next =>
      { g with progression := ⟨next.level, 0, next.nextExpInLevel⟩, levelsGained := addI32 g.levelsGained 1 }

/-- The branch that fills the level: the experience covers what is missing. -/
def fillLevel (g : ExpGain) : ExpGain :=
  let missing : Nat := g.progression.nextExpInLevel - g.progression.expInLevel
  let crossed := crossedLevelSteps g.progression.level g.progression.levelStep levelStepsPerLevel
  { g with
    progression := { g.progression with expInLevel := g.progression.nextExpInLevel }
    appliedExp := satI64 (g.appliedExp + missing)
    remaining := satI64 (g.remaining - missing)
    levelStepsGained := addI32 g.levelStepsGained crossed.levelSteps
    statPointsGained := addI32 g.statPointsGained crossed.statPoints }

/-- The branch that puts the rest of the experience into the level. -/
def spendRest (g : ExpGain) : ExpGain :=
  let gain := (g.remaining % 4294967296).toNat
  let progression := { g.progression with expInLevel := min (g.progression.expInLevel + gain) u32Max.toNat }
  let crossed := crossedLevelSteps g.progression.level g.progression.levelStep progression.levelStep
  { g with
    progression
    appliedExp := satI64 (g.appliedExp + g.remaining)
    remaining := 0
    levelStepsGained := addI32 g.levelStepsGained crossed.levelSteps
    statPointsGained := addI32 g.statPointsGained crossed.statPoints }

/-- One pass of the loop and whether it goes on. -/
def expGainPass (t : LevelExpTable) (maxLevel : Int) (g : ExpGain) : ExpGain × Bool :=
  let advance (g : ExpGain) : ExpGain × Bool :=
    match t.advanceLevel maxLevel g with
    | some g => (g, true)
    | none => (g, false)
  if g.progression.nextExpInLevel = 0 then (g, false)
  else
    let missing : Nat := g.progression.nextExpInLevel - g.progression.expInLevel
    if missing = 0 then advance g
    else if (missing : Int) ≤ g.remaining then advance (fillLevel g)
    else (spendRest g, true)

/-- The loop. Each pass that goes on raises the level or uses up the experience, so `fuel` above the number of levels
left is never exhausted (`expGainLoop_done`). -/
def expGainLoop (t : LevelExpTable) (maxLevel : Int) : Nat → ExpGain → ExpGain
  | 0, g => g
  | fuel + 1, g =>
    if 0 < g.remaining ∧ g.progression.level < maxLevel then
      if (t.expGainPass maxLevel g).2 then t.expGainLoop maxLevel fuel (t.expGainPass maxLevel g).1
      else (t.expGainPass maxLevel g).1
    else g

def applyPlayerExpGain (t : LevelExpTable) (current : PlayerProgressionState) (amount : Int) :
    Option PlayerExpGainOutcome := do
  let progression ← t.progressionForLevel current.level current.expInLevel
  let maxLevel ← t.maxLevel
  let g := t.expGainLoop maxLevel ((maxLevel - progression.level).toNat + 1) ⟨progression, max amount 0, 0, 0, 0, 0⟩
  return ⟨g.progression, g.appliedExp, g.statPointsGained, g.levelStepsGained, g.levelsGained⟩

end LevelExpTable

/-- Experience for a kill: adjusted by level difference, at most a tenth of a level. -/
def legacyMobExpReward (playerLevel mobLevel baseExp nextExp : Int) : Int :=
  if baseExp ≤ 0 then 0
  else
    let adjusted := (satI64 (baseExp * expRewardBonusMalusPercent playerLevel mobLevel)).tdiv 100
    if 0 < nextExp then max (min adjusted (nextExp.tdiv 10)) 0 else max adjusted 0

structure PlayerMobExpRewardOutcome where
  progression : PlayerProgressionState
  appliedExp : Int
  statPointsGained : Int
  levelStepsGained : Int
  levelUp : Option Int
  deriving DecidableEq, Repr

/-! ## Players -/

structure PlayerStatRules where
  classStats : PlayerClassStatsTable
  levelExp : LevelExpTable

structure HydratedPlayerStats where
  source : ActorStatSource
  state : ActorStatState Unit Unit
  bootstrapSync : BootstrapStatsSync

/-- Points earned so far less points spent, at least zero. -/
def deriveAvailableStatPoints (level levelStep : Int) (allocations : CoreStatAllocations) : Int :=
  let statLevel := clampInt 1 maxLevelStatPointsEarning level
  let currentLevelSteps := if level < maxLevelStatPointsEarning then clampInt 0 statPointStepsPerLevel levelStep else 0
  let earned := (statLevel - 1) * statPointStepsPerLevel + currentLevelSteps
  let spent :=
    allocations.allocatedStr + allocations.allocatedVit + allocations.allocatedDex + allocations.allocatedInt
  clampInt 0 i32Max (earned - spent)

namespace PlayerStatRules

def applyMobExpReward (r : PlayerStatRules) (current : PlayerProgressionState) (mobLevel baseExp : Int) :
    Option PlayerMobExpRewardOutcome :=
  let amount := legacyMobExpReward current.level mobLevel baseExp current.nextExpInLevel
  if amount ≤ 0 then none
  else (r.levelExp.applyPlayerExpGain current amount).bind fun outcome =>
    if outcome.appliedExp ≤ 0 then none
    else some ⟨outcome.progression, outcome.appliedExp, outcome.statPointsGained, outcome.levelStepsGained,
      if outcome.progression.level > current.level then some outcome.progression.level else none⟩

/-- `player_id.get() as u64`. -/
def stableIdOf (id : PlayerId) : UInt64 := UInt64.ofNat (id.raw % 18446744073709551616).toNat

variable [GrowthRng]

/-- The writes of `hydrate_player` up to its first recomputation. -/
def hydrateWrites (source : ActorStatSource) (bootstrap : PlayerGameplayBootstrap) (stats : PlayerStats)
    (progression : PlayerProgressionState) : GameStatsApi.WriteCmd Unit Unit Unit := do
  Cmd.update fun st => .ok (st.setStableId (some (stableIdOf bootstrap.playerId)))
  Cmd.update fun st => .ok (st.setPlayerProgression progression)
  GameStatsApi.setStoredStat source .st stats.statStr
  GameStatsApi.setStoredStat source .ht stats.statVit
  GameStatsApi.setStoredStat source .dx stats.statDex
  GameStatsApi.setStoredStat source .iq stats.statInt
  GameStatsApi.setStoredStat source .statPoints
    (deriveAvailableStatPoints progression.level progression.levelStep bootstrap.coreStatAllocations)
  GameStatsApi.setStoredStat source .statResetCount bootstrap.statResetCount

/-- The writes after it: the current resources, full where the database has none. -/
def hydrateResources (bootstrap : PlayerGameplayBootstrap) (maxHp maxSp maxStamina : Int) :
    GameStatsApi.WriteCmd Unit Unit Unit := do
  let _ ← GameStatsApi.setResource .hp (bootstrap.currentHp.getD maxHp)
  let _ ← GameStatsApi.setResource .sp (bootstrap.currentSp.getD maxSp)
  let _ ← GameStatsApi.setResource .stamina (bootstrap.currentStamina.getD maxStamina)

/-- The actor of a player from its stored progression. The outer `none` is a failed assertion, the inner one the
`None` of a missing table entry or a refused write. -/
def hydratePlayer (r : PlayerStatRules) (bootstrap : PlayerGameplayBootstrap) : Option (Option HydratedPlayerStats) :=
  match r.classStats.statSourceForClass bootstrap.playerClass,
      r.classStats.resolvePlayerStats bootstrap.playerClass bootstrap.coreStatAllocations,
      r.levelExp.progressionForLevel bootstrap.level bootstrap.expInLevel with
  | some source, some stats, some progression =>
    let st : ActorStatState Unit Unit := .new .player
    if st.kind ≠ source.actorKind then none
    else match (hydrateWrites source bootstrap stats progression).run st with
      | none => none
      | some (.error _, _) => some none
      | some (.ok (), st) => do
        let (_, st) ← GameStatsApi.recomputeReport source st
        let maxHp ← st.readLimitedValue source .maxHp
        let maxSp ← st.readLimitedValue source .maxSp
        let maxStamina ← st.readLimitedValue source .maxStamina
        match (hydrateResources bootstrap maxHp maxSp maxStamina).run st with
        | none => none
        | some (.error _, _) => some none
        | some (.ok (), st) => do
          let (bootstrapSync, st) ← GameStatsApi.bootstrapSync source st
          return some ⟨source, st, bootstrapSync⟩
  | _, _, _ => some none

end PlayerStatRules

end Zohar.Stats
