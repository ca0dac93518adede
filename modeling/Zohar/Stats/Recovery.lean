/-
The tickers that give a player life and spirit back over time and run its stamina down and up. From
zohar-gameplay/src/stats/game/recovery.rs, with the constructors of stats/game/resource.rs. A tick gets the values it
works on and the time since the last one, and returns the application its caller is to make.
-/
import Zohar.Lib.Clock
import Zohar.Replication.Events
import Zohar.Stats.Effects

namespace Zohar.Stats

open Zohar.Lib
open Zohar.Replication (MovementAnimation)

/-! ## Rates -/

structure DurationRate where
  amount : Int
  per : Duration
  deriving DecidableEq, Repr

/-- What is left of a rate between ticks, in units of the rate's amount times nanoseconds. -/
structure RateAccumulator where
  remainder : Int
  deriving DecidableEq, Repr

/-- The default value. -/
def RateAccumulator.default : RateAccumulator := ⟨0⟩

def RateAccumulator.reset (_ : RateAccumulator) : RateAccumulator := ⟨0⟩

def durationNanos (duration : Duration) : Int := min (duration : Int) i128Max

def RateAccumulator.accrue (acc : RateAccumulator) (rate : DurationRate) (elapsed : Duration) : Int × RateAccumulator :=
  let periodNanos := durationNanos rate.per
  if rate.amount ≤ 0 ∨ periodNanos ≤ 0 then (0, ⟨0⟩)
  else
    let elapsedNanos := durationNanos elapsed
    if elapsedNanos ≤ 0 then (0, acc)
    else
      let accrued := satI128 (rate.amount * elapsedNanos)
      let total := satI128 (acc.remainder + accrued)
      let whole := total.tdiv periodNanos
      (wrapI64 (min whole i64Max), ⟨total.tmod periodNanos⟩)

/-- A share of a resource in basis points. -/
structure FractionalShare where
  basisPoints : Int

namespace FractionalShare

def basisPointsDenominator : Int := 10000

def fromBasisPoints (value : Int) : FractionalShare := ⟨value⟩

def fromPercent (pct : Int) : FractionalShare := fromBasisPoints (pct * 100)

def ofResource (share : FractionalShare) (maxResource : Int) : Int :=
  (satI64 (maxResource * share.basisPoints)).tdiv basisPointsDenominator

end FractionalShare

/-! ## Activity -/

inductive PlayerMovementActivity where
  | moving
  | stopped (sinceFinished : Duration)
  | idle
  deriving DecidableEq, Repr

namespace PlayerMovementActivity

def movedRecently (movement : PlayerMovementActivity) (threshold : Duration) : Bool :=
  match movement with
  | moving => true
  | stopped sinceFinished => decide (sinceFinished < threshold)
  | idle => false

def stoppedForAtLeast (movement : PlayerMovementActivity) (threshold : Duration) : Bool :=
  match movement with
  | moving => false
  | stopped sinceFinished => decide (sinceFinished ≥ threshold)
  | idle => true

end PlayerMovementActivity

structure PlayerStatActivity where
  movement : PlayerMovementActivity
  sinceWalkStarted : Option Duration
  sinceAttack : Option Duration
  deriving DecidableEq, Repr

inductive PlayerSpRecoveryProfile where
  | standard | caster
  deriving DecidableEq, Repr

def happenedRecently (since : Option Duration) (threshold : Duration) : Bool :=
  since.any fun since => decide (since < threshold)

def movedRecently (activity : PlayerStatActivity) (threshold : Duration) : Bool :=
  activity.movement.movedRecently threshold

/-! ## Life and spirit -/

structure PlayerPassiveHpRecoveryState where
  accumulator : RateAccumulator
  deriving DecidableEq, Repr

structure PlayerPassiveSpRecoveryState where
  accumulator : RateAccumulator
  deriving DecidableEq, Repr

def recentActivityWindow : Duration := .fromSecs 3

def passiveHpRate (maxHp : Int) (activity : PlayerStatActivity) : DurationRate :=
  let (hpBase, hpMaxShare) :=
    if movedRecently activity recentActivityWindow then ((15 : Int), FractionalShare.fromPercent 1)
    else (15, .fromPercent 5)
  ⟨satI64 (hpBase + hpMaxShare.ofResource maxHp), .fromSecs 3⟩

def passiveSpRate (hp maxHp maxSp : Int) (activity : PlayerStatActivity) (profile : PlayerSpRecoveryProfile) :
    DurationRate :=
  let movedRecently := movedRecently activity recentActivityWindow
  let attackedWithinReducedRecoveryWindow := happenedRecently activity.sinceAttack recentActivityWindow
  let isFullHp := decide (hp ≥ maxHp)
  let (spBase, spMaxShare) := match profile with
    | .caster =>
      if attackedWithinReducedRecoveryWindow then ((2 : Int), FractionalShare.fromBasisPoints 50)
      else if movedRecently then (3, .fromPercent 2)
      else (10, .fromPercent 3)
    | .standard =>
      if attackedWithinReducedRecoveryWindow then (2, .fromBasisPoints 50)
      else if movedRecently || !isFullHp then (2, .fromPercent 1)
      else (9, .fromPercent 1)
  ⟨satI64 (spBase + spMaxShare.ofResource maxSp), .fromSecs 3⟩

/-- What `accrue_passive_hp` and `accrue_passive_sp` share: what has accrued at a rate, up to what is missing. -/
def accruePassive (acc : RateAccumulator) (value maxValue : Int) (rate : DurationRate) (elapsed : Duration) :
    Option Int × RateAccumulator :=
  let missing := satI32 (maxValue - value)
  if missing ≤ 0 then (none, acc.reset)
  else
    let (accrued, acc) := acc.accrue rate elapsed
    if accrued ≤ 0 then (none, acc)
    else
      let amount := min (min accrued missing) i32Max
      let acc := if amount ≥ missing then acc.reset else acc
      (if amount > 0 then some amount else none, acc)

def accruePassiveHp (state : PlayerPassiveHpRecoveryState) (hp maxHp : Int) (activity : PlayerStatActivity)
    (elapsed : Duration) : Option Int × PlayerPassiveHpRecoveryState :=
  (accruePassive state.accumulator hp maxHp (passiveHpRate maxHp activity) elapsed).map id .mk

def accruePassiveSp (state : PlayerPassiveSpRecoveryState) (hp maxHp sp maxSp : Int) (activity : PlayerStatActivity)
    (profile : PlayerSpRecoveryProfile) (elapsed : Duration) : Option Int × PlayerPassiveSpRecoveryState :=
  (accruePassive state.accumulator sp maxSp (passiveSpRate hp maxHp maxSp activity profile) elapsed).map id .mk

def tickPlayerPassiveHpRecovery (state : PlayerPassiveHpRecoveryState) (hp maxHp : Int) (activity : PlayerStatActivity)
    (elapsed : Duration) : Option ResourceApplication × PlayerPassiveHpRecoveryState :=
  (accruePassiveHp state hp maxHp activity elapsed).map (·.map (.restore .hp)) id

def tickPlayerPassiveSpRecovery (state : PlayerPassiveSpRecoveryState) (hp maxHp sp maxSp : Int)
    (activity : PlayerStatActivity) (profile : PlayerSpRecoveryProfile) (elapsed : Duration) :
    Option ResourceApplication × PlayerPassiveSpRecoveryState :=
  (accruePassiveSp state hp maxHp sp maxSp activity profile elapsed).map (·.map (.restore .sp)) id

/-! ## Stamina -/

structure PlayerStaminaState where
  accumulator : RateAccumulator
  consuming : Bool
  deriving DecidableEq, Repr

inductive PlayerStaminaTimerCommand where
  | start (consumePerSec : Int)
  | stop
  deriving DecidableEq, Repr

inductive PlayerStaminaMovementOverride where
  | forceWalk | revertToPreferred
  deriving DecidableEq, Repr

structure PlayerStaminaEffect where
  application : Option ResourceApplication
  timer : Option PlayerStaminaTimerCommand
  movementOverride : Option PlayerStaminaMovementOverride
  deriving DecidableEq, Repr

inductive LegacyStaminaRestore where
  | walking (amount : Int) (depletedBeforeRestore : Bool)
  | stopped (amount : Int) (depletedBeforeRestore : Bool)
  deriving DecidableEq, Repr

namespace LegacyStaminaRestore

def amount : LegacyStaminaRestore → Int
  | walking amount _ | stopped amount _ => amount

def depletedBeforeRestore : LegacyStaminaRestore → Bool
  | walking _ depletedBeforeRestore | stopped _ depletedBeforeRestore => depletedBeforeRestore

def application (r : LegacyStaminaRestore) : ResourceApplication := .restore .stamina r.amount

def movementOverride (r : LegacyStaminaRestore) : Option PlayerStaminaMovementOverride :=
  if r.depletedBeforeRestore then some .revertToPreferred else none

end LegacyStaminaRestore

inductive LegacyStaminaMoveMode where
  | run
  | walk (sinceStarted : Option Duration)
  deriving DecidableEq, Repr

namespace LegacyStaminaMoveMode

/-- An exhausted player walks, whatever its animation. -/
def new (activity : PlayerStatActivity) (movementMode : MovementAnimation) (currentStamina : Int) :
    LegacyStaminaMoveMode :=
  if movementMode = .walk ∨ currentStamina ≤ 0 then walk activity.sinceWalkStarted else run

def walkingRestoreDelay : Duration := .fromSecs 5

def restore (mode : LegacyStaminaMoveMode) (amount : Int) (depletedBeforeRestore : Bool) :
    Option LegacyStaminaRestore :=
  match mode with
  | run => none
  | walk sinceStarted =>
    let restoreReady := sinceStarted.all fun since => decide (since > walkingRestoreDelay)
    if restoreReady then some (.walking amount depletedBeforeRestore) else none

end LegacyStaminaMoveMode

inductive LegacyStaminaMovement where
  | moving (mode : LegacyStaminaMoveMode)
  | stopped (movement : PlayerMovementActivity)
  deriving DecidableEq, Repr

namespace LegacyStaminaMovement

def new (activity : PlayerStatActivity) (movementMode : MovementAnimation) (currentStamina : Int) :
    LegacyStaminaMovement :=
  let mode := LegacyStaminaMoveMode.new activity movementMode currentStamina
  match activity.movement with
  | .moving => moving mode
  | movement => stopped movement

def isCombatRun : LegacyStaminaMovement → Bool
  | moving .run => true
  | _ => false

def stoppedRestoreDelay : Duration := .fromSecs 3

def restore (m : LegacyStaminaMovement) (amount : Int) (depletedBeforeRestore : Bool) : Option LegacyStaminaRestore :=
  match m with
  | moving mode => mode.restore amount depletedBeforeRestore
  | stopped movement =>
    if movement.stoppedForAtLeast stoppedRestoreDelay then some (.stopped amount depletedBeforeRestore) else none

end LegacyStaminaMovement

structure LegacyStaminaSnapshot where
  current : Int
  max : Int
  movement : LegacyStaminaMovement
  insideCombatWindow : Bool
  deriving DecidableEq, Repr

namespace LegacyStaminaSnapshot

def combatWindow : Duration := .fromSecs 20

def new (current max : Int) (activity : PlayerStatActivity) (movementMode : MovementAnimation) :
    LegacyStaminaSnapshot where
  current := current
  max := max
  movement := .new activity movementMode current
  insideCombatWindow := happenedRecently activity.sinceAttack combatWindow

def shouldConsume (s : LegacyStaminaSnapshot) : Bool := s.insideCombatWindow && s.movement.isCombatRun

def isDepleted (s : LegacyStaminaSnapshot) : Bool := decide (s.current ≤ 0)

def restore (s : LegacyStaminaSnapshot) : Option LegacyStaminaRestore :=
  if s.current ≥ s.max then none else s.movement.restore s.max s.isDepleted

end LegacyStaminaSnapshot

def ResourceApplication.spend (stat : Stat) (amount : Int) : ResourceApplication := .new stat (-amount)

def staminaConsumePerSecond : Int := 25

def startStaminaConsumption (state : PlayerStaminaState) (consumePerSecond : Int) :
    Option PlayerStaminaTimerCommand × PlayerStaminaState :=
  if state.consuming then (none, state) else (some (.start consumePerSecond), { state with consuming := true })

def stopStaminaConsumption (state : PlayerStaminaState) : Option PlayerStaminaTimerCommand × PlayerStaminaState :=
  let state := { state with accumulator := state.accumulator.reset }
  if !state.consuming then (none, state) else (some .stop, { state with consuming := false })

def consumeRunningStamina (state : PlayerStaminaState) (currentStamina : Int) (elapsed : Duration) :
    PlayerStaminaEffect × PlayerStaminaState :=
  let (spend, accumulator) := state.accumulator.accrue ⟨staminaConsumePerSecond, .fromSecs 1⟩ elapsed
  let state := { state with accumulator }
  let spend := min (min (max spend 0) currentStamina) i32Max
  let application := if spend > 0 then some (ResourceApplication.spend .stamina spend) else none
  let willDeplete := decide (satI32 (currentStamina - spend) ≤ 0)
  let wasConsuming := state.consuming
  let (timer, state) :=
    if willDeplete then
      (if wasConsuming then some PlayerStaminaTimerCommand.stop else none,
        ({ consuming := false, accumulator := state.accumulator.reset } : PlayerStaminaState))
    else startStaminaConsumption state staminaConsumePerSecond
  (⟨application, timer, if willDeplete then some .forceWalk else none⟩, state)

def tickPlayerStamina (state : PlayerStaminaState) (stamina maxStamina : Int) (activity : PlayerStatActivity)
    (movementMode : MovementAnimation) (elapsed : Duration) : PlayerStaminaEffect × PlayerStaminaState :=
  let snapshot := LegacyStaminaSnapshot.new stamina maxStamina activity movementMode
  if snapshot.shouldConsume then consumeRunningStamina state snapshot.current elapsed
  else
    let (timer, state) := stopStaminaConsumption state
    let restore := snapshot.restore
    (⟨restore.map LegacyStaminaRestore.application, timer, restore.bind LegacyStaminaRestore.movementOverride⟩, state)

/-! ## Applying -/

/-- The value of a resource after an application, as `apply_resource` computes it from the value and its capacity. -/
def ResourceApplication.next (a : ResourceApplication) (cap value : Int) : Option Int :=
  clamp? a.minValue (if a.clampToCap then cap else i32Max) (satI32 (value + a.delta))

theorem accruePassive_pos {acc : RateAccumulator} {value maxValue amount : Int} {rate : DurationRate}
    {elapsed : Duration} (h : (accruePassive acc value maxValue rate elapsed).1 = some amount) : 0 < amount := by
  unfold accruePassive at h
  dsimp only at h
  split at h
  · cases h
  · split at h
    · cases h
    · rename_i hmissing haccrued
      dsimp only at h
      split at h
      · rename_i hpos
        cases h
        exact hpos
      · cases h

theorem ResourceApplication.next_new {stat : Stat} {delta cap value : Int} (hcap : 0 ≤ cap) :
    (ResourceApplication.new stat delta).next cap value = some (max 0 (min (satI32 (value + delta)) cap)) :=
  clamp?_eq_some.2 ⟨hcap, rfl⟩

theorem currentResourceValue_of_setResourceStat {Source Detail : Type} [LinearOrder Source]
    {st t : ActorStatState Source Detail} {stat : Stat} {value : Int} (h : st.setResourceStat stat value = .ok t) :
    currentResourceValue t stat = .ok value ∧ t.computed = st.computed := by
  unfold ActorStatState.setResourceStat at h
  cases stat <;> first
    | cases h
    | (simp only at h
       split at h
       · cases h
         exact ⟨rfl, rfl⟩
       · rename_i he
         cases h
         exact ⟨congrArg Except.ok (not_not.1 he), rfl⟩)

end Zohar.Stats
