/-
What an actor's statistics are computed from besides its stored values: the class formulas of a
player and the fixed values of a mob, with the limits that apply to them. From
zohar-gameplay/src/stats/game/source.rs and balance.rs. The generator behind the growth rolls is a
library of its own, so the value of each roll is a parameter.
-/
import Zohar.Domain
import Zohar.Stats.Stat

namespace Zohar.Stats

open Zohar.Lib

inductive ActorKind where
  | player | mob
  deriving DecidableEq, Repr

structure CoreStatBlock where
  st : Int
  ht : Int
  dx : Int
  iq : Int
  deriving DecidableEq, Repr

structure SourceSpeeds where
  moveSpeed : Int
  attackSpeed : Int
  castingSpeed : Int
  deriving DecidableEq, Repr

/-- The default value. -/
def SourceSpeeds.default : SourceSpeeds := ⟨100, 100, 100⟩

structure PlayerAttackCoefficients where
  stNumerator : Int
  dxNumerator : Int
  iqNumerator : Int
  divisor : Int
  deriving DecidableEq, Repr

structure PlayerResourceFormula where
  baseMaxHp : Int
  baseMaxSp : Int
  baseMaxStamina : Int
  hpPerHt : Int
  spPerIq : Int
  staminaPerHt : Int
  deriving DecidableEq, Repr

/-! ## Resource capacities -/

inductive PlayerResourceCapacity where
  | hp | sp | stamina
  deriving DecidableEq, Repr

namespace PlayerResourceCapacity

def capStat : PlayerResourceCapacity → Stat
  | hp => .maxHp
  | sp => .maxSp
  | stamina => .maxStamina

def flatBonusStat : PlayerResourceCapacity → Option Stat
  | hp => some .bonusMaxHp
  | sp => some .bonusMaxSp
  | stamina => some .bonusMaxStamina

def prePercentageBonusStat : PlayerResourceCapacity → Option Stat
  | hp => some .maxHpPrePctBonus
  | sp | stamina => none

def cappedPercentageStat : PlayerResourceCapacity → Option Stat
  | hp => some .maxHpPct
  | sp => some .maxSpPct
  | stamina => none

def postPercentageBonusStat : PlayerResourceCapacity → Option Stat
  | hp => some .partyTankerBonus
  | sp => some .partySkillMasterBonus
  | stamina => none

end PlayerResourceCapacity

/-! ## Balance rules -/

structure ActorViewLimits where
  moveSpeedMax : Int
  attackSpeedMax : Int
  deriving DecidableEq, Repr

structure PlayerStoredStatLimits where
  coreStatMax : Int
  deriving DecidableEq, Repr

structure PlayerResourceBonusCaps where
  maxHpPctBonus : Int
  maxSpPctBonus : Int
  deriving DecidableEq, Repr

structure PlayerBalanceRules where
  attack : PlayerAttackCoefficients
  storedLimits : PlayerStoredStatLimits
  viewLimits : ActorViewLimits
  resourceBonusCaps : PlayerResourceBonusCaps
  deriving DecidableEq, Repr

def ActorViewLimits.viewLimit (l : ActorViewLimits) : Stat → Option Int
  | .movSpeed => some l.moveSpeedMax
  | .attSpeed => some l.attackSpeedMax
  | _ => none

namespace PlayerBalanceRules

def viewLimit (b : PlayerBalanceRules) (stat : Stat) : Option Int := b.viewLimits.viewLimit stat

def storedWriteLimit (b : PlayerBalanceRules) : Stat → Option Int
  | .st | .ht | .dx | .iq => some b.storedLimits.coreStatMax
  | _ => none

def cappedPercentageBonusMax (b : PlayerBalanceRules) : PlayerResourceCapacity → Option Int
  | .hp => some b.resourceBonusCaps.maxHpPctBonus
  | .sp => some b.resourceBonusCaps.maxSpPctBonus
  | .stamina => none

end PlayerBalanceRules

structure MobBalanceRules where
  viewLimits : ActorViewLimits
  deriving DecidableEq, Repr

def MobBalanceRules.viewLimit (b : MobBalanceRules) (stat : Stat) : Option Int := b.viewLimits.viewLimit stat

def defaultPlayerBalanceRules (playerClass : PlayerClass) : PlayerBalanceRules where
  attack := match playerClass with
    | .warrior | .sura => ⟨2, 0, 0, 1⟩
    | .ninja => ⟨4, 2, 0, 3⟩
    | .shaman => ⟨4, 0, 2, 3⟩
  storedLimits := ⟨90⟩
  viewLimits := ⟨200, 170⟩
  resourceBonusCaps := ⟨3500, 800⟩

/-- Percentage of a kill's experience by level difference. -/
def expRewardBonusMalusPercent (playerLevel monsterLevel : Int) : Int :=
  let monsterLvlAdvantage := satI32 (monsterLevel - playerLevel)
  if 15 ≤ monsterLvlAdvantage then 180
  else if 0 ≤ monsterLvlAdvantage then 100 + monsterLvlAdvantage * 5
  else match monsterLvlAdvantage with
    | -1 => 100
    | -2 => 98
    | -3 => 96
    | -4 => 94
    | -5 => 92
    | -6 => 90
    | -7 => 85
    | -8 => 80
    | -9 => 70
    | -10 => 50
    | -11 => 30
    | -12 => 20
    | -13 => 10
    | -14 => 5
    | _ => 1

/-! ## Growth -/

/-- The rolls of `SplitMix64` seeded with a number, distributed uniformly over a closed range: `roll seed lo hi i`
is the `i`-th one. -/
class GrowthRng where
  roll : UInt64 → Int → Int → Nat → Int

/-- The state of the generator moves on before each word. -/
def splitMix64Step (x : UInt64) : UInt64 := x + 0x9E3779B97F4A7C15

/-- A word of 32 bits. -/
def splitMix64Word (x : UInt64) : Nat :=
  let z := (x ^^^ (x >>> 33)) * 0x62A9D9ED799705F5
  let z := (z ^^^ (z >>> 28)) * 0xCB24D0A5C88C35B3
  (z >>> 32).toNat

/-- A number below the range: the upper half of a word times the range, unless the lower half is one of those that would
favour a number. The source asks for words without end; each is refused with a chance below one half, and here a draw
ends after 64. -/
def uniformDraw (range : Nat) : Nat → UInt64 → Nat × UInt64
  | 0, x => (0, x)
  | fuel + 1, x =>
    let x := splitMix64Step x
    let product := splitMix64Word x * range
    if (2 ^ 32 - range) % range ≤ product % 2 ^ 32 then (product / 2 ^ 32, x) else uniformDraw range fuel x

/-- The `i`-th draw. Over all numbers of 32 bits a word is taken as it is. -/
def uniformRoll (lower : Int) (range : Nat) : Nat → UInt64 → Int
  | 0, x =>
    if range = 0 then lower + ((splitMix64Word (splitMix64Step x) + 2 ^ 31) % 2 ^ 32 : Nat)
    else lower + (uniformDraw range 64 x).1
  | i + 1, x => uniformRoll lower range i (if range = 0 then splitMix64Step x else (uniformDraw range 64 x).2)

/-- The rolls of the generator that the source seeds. -/
@[reducible] def splitMix64Rolls : GrowthRng :=
  ⟨fun seed lower upper i => uniformRoll lower ((upper - lower + 1) % 2 ^ 32).toNat i seed⟩

inductive DeterministicGrowthVersion where
  | v1
  deriving DecidableEq, Repr

structure PlayerGrowthFormula where
  hpPerLevel : Int × Int
  spPerLevel : Int × Int
  staminaPerLevel : Int × Int
  version : DeterministicGrowthVersion
  deriving DecidableEq, Repr

namespace PlayerGrowthFormula

/-- `b"GROWTHv1"` as a big-endian number. -/
def growthV1 : UInt64 := 0x47524F5754487631

/-- `b"grow::HP"`, `b"grow::SP"` and `b"grow:STM"`. -/
def saltHp : UInt64 := 0x67726F773A3A4850
def saltSp : UInt64 := 0x67726F773A3A5350
def saltStamina : UInt64 := 0x67726F773A53544D

/-- The sum of the first rolls, each addition wrapping. -/
def sumRolls (roll : Nat → Int) : Nat → Int
  | 0 => 0
  | n + 1 => addI32 (sumRolls roll n) (roll n)

variable [GrowthRng]

/-- One roll for each level above the first. The count is the saturated difference cast to `usize`, so that of a
level below 1 is its two's complement. -/
def sumGrowthRolls (g : PlayerGrowthFormula) (domainSalt stableId : UInt64) (level : Int) (range : Int × Int) : Int :=
  let rolls := (satI32 (level - 1) % 18446744073709551616).toNat
  if rolls = 0 then 0
  else
    let (lower, upper) := if range.1 ≤ range.2 then (range.1, range.2) else (range.2, range.1)
    match g.version with
    | .v1 => sumRolls (GrowthRng.roll (growthV1 ^^^ domainSalt ^^^ stableId) lower upper) rolls

def randomHp (g : PlayerGrowthFormula) (stableId : UInt64) (level : Int) : Int :=
  g.sumGrowthRolls saltHp stableId level g.hpPerLevel

def randomSp (g : PlayerGrowthFormula) (stableId : UInt64) (level : Int) : Int :=
  g.sumGrowthRolls saltSp stableId level g.spPerLevel

def randomStamina (g : PlayerGrowthFormula) (stableId : UInt64) (level : Int) : Int :=
  g.sumGrowthRolls saltStamina stableId level g.staminaPerLevel

end PlayerGrowthFormula

/-! ## Sources -/

structure PlayerStatSource where
  resources : PlayerResourceFormula
  growth : PlayerGrowthFormula
  balance : PlayerBalanceRules
  speeds : SourceSpeeds
  deriving DecidableEq, Repr

structure MobStatSource where
  level : Int
  core : CoreStatBlock
  maxHp : Int
  defGradeFlat : Int
  balance : MobBalanceRules
  speeds : SourceSpeeds
  deriving DecidableEq, Repr

inductive ActorStatSource where
  | player (source : PlayerStatSource)
  | mob (source : MobStatSource)
  deriving DecidableEq, Repr

namespace ActorStatSource

def actorKind : ActorStatSource → ActorKind
  | player _ => .player
  | mob _ => .mob

def viewLimit : ActorStatSource → Stat → Option Int
  | player source, stat => source.balance.viewLimit stat
  | mob source, stat => source.balance.viewLimit stat

def storedWriteLimit : ActorStatSource → Stat → Option Int
  | player source, stat => source.balance.storedWriteLimit stat
  | mob _, _ => none

/-- Only the four core statistics have a limit on writes. -/
theorem storedWriteLimit_eq_none {source : ActorStatSource} {stat : Stat} (h : stat ∉ [Stat.st, .ht, .dx, .iq]) :
    source.storedWriteLimit stat = none := by
  cases source with
  | mob _ => rfl
  | player p => cases stat <;> first | rfl | exact absurd (by decide) h

end ActorStatSource

/-- The warrior of the crates' tests. -/
def warriorSource : ActorStatSource := .player {
  resources := ⟨600, 200, 800, 40, 20, 5⟩
  growth := ⟨(36, 44), (18, 22), (5, 8), .v1⟩
  balance := defaultPlayerBalanceRules .warrior
  speeds := .default }

end Zohar.Stats
