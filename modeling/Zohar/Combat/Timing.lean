/-
When the attacks of mobs take effect, worked out from the motions of their attacks: the windows in which a motion hits
and the moments in which it lets something fly. From zohar-gameplay/src/combat/timing.rs. Hash maps are maps in the
order of their keys; that order is of no account, and neither is that of the rows.
-/
import Mathlib.Data.String.Basic
import Zohar.Lib.Gather
import Zohar.Sim.Life

namespace Zohar.Combat

open Zohar.Lib
open Zohar.Sim (FlyTiming)
open Zohar.Spawn (MobId)

instance : LinearOrder MobId := LinearOrder.lift' MobId.raw fun ⟨_⟩ ⟨_⟩ h => congrArg MobId.mk h

/-! ## Rows -/

structure MobAttackMotion where
  motionId : Int
  mobId : MobId
  weight : Int
  durationMs : Int
  deriving DecidableEq, Repr

structure MotionHitWindow where
  motionId : Int
  startMs : Int
  endMs : Option Int
  deriving DecidableEq, Repr

structure MotionFlyEvent where
  motionId : Int
  releaseMs : Int
  flyFile : Option String
  deriving DecidableEq, Repr

/-- The three numbers are of type `f64`. -/
structure MotionFlyData (F : Type) where
  flyFile : String
  initVel : F
  bombRange : F
  accelY : F

/-! ## Timings -/

inductive MobAttackProcTiming where
  | melee (damageDelayMs : Nat)
  | projectile (releaseDelayMs : Nat) (flight : FlyTiming)
  deriving DecidableEq, Repr

structure MobAttackTiming where
  proc : MobAttackProcTiming
  actionDurationMs : Nat
  deriving DecidableEq, Repr

/-- `FlyTiming::DEFAULT_PROJECTILE`. -/
def defaultProjectile : FlyTiming := ⟨200, 0, 10⟩

/-- The cast of a time to `u32`, clamped to its range first. -/
def clampToU32 (ms : Int) : Nat := (min ms 4294967295).toNat

structure MotionHit where
  startMs : Nat
  endMs : Nat
  deriving DecidableEq, Repr

def MotionHitWindow.hit (window : MotionHitWindow) : MotionHit where
  startMs := clampToU32 window.startMs
  endMs := clampToU32 (max (window.endMs.getD window.startMs) window.startMs)

/-- The sums are of type `u128`; of up to `2 ^ 33` motions they stay in its range. -/
structure MeleeAccumulator where
  latestStartMs : Nat
  earliestEndMs : Option Nat
  weightedStartSum : Nat
  totalWeight : Nat
  maxDurationMs : Nat
  deriving DecidableEq, Repr

namespace MeleeAccumulator

/-- The default value. -/
def default : MeleeAccumulator := ⟨0, none, 0, 0, 0⟩

def push (acc : MeleeAccumulator) (hit : MotionHit) (weight durationMs : Int) : MeleeAccumulator :=
  let weight := (max weight 1).toNat
  { latestStartMs := max acc.latestStartMs hit.startMs
    earliestEndMs := some (acc.earliestEndMs.elim hit.endMs fun existing => min existing hit.endMs)
    weightedStartSum := acc.weightedStartSum + hit.startMs * weight
    totalWeight := acc.totalWeight + weight
    maxDurationMs := max acc.maxDurationMs (clampToU32 durationMs) }

def timingParts (acc : MeleeAccumulator) : Option (Nat × Nat) :=
  if acc.totalWeight = 0 then none
  else
    let damageDelayMs :=
      if acc.earliestEndMs.any fun earliestEndMs => decide (acc.latestStartMs ≤ earliestEndMs) then acc.latestStartMs
      else min (acc.weightedStartSum / acc.totalWeight) 4294967295
    some (damageDelayMs, acc.maxDurationMs)

end MeleeAccumulator

structure MotionFly where
  releaseMs : Nat
  flight : FlyTiming
  deriving DecidableEq, Repr

structure ProjectileAccumulator where
  earliestReleaseMs : Option Nat
  maxDurationMs : Nat
  flight : Option FlyTiming
  deriving DecidableEq, Repr

namespace ProjectileAccumulator

/-- The default value. -/
def default : ProjectileAccumulator := ⟨none, 0, none⟩

def push (acc : ProjectileAccumulator) (fly : MotionFly) (durationMs : Int) : ProjectileAccumulator where
  earliestReleaseMs := some (acc.earliestReleaseMs.elim fly.releaseMs fun existing => min existing fly.releaseMs)
  maxDurationMs := max acc.maxDurationMs (clampToU32 durationMs)
  flight := acc.flight.or (some fly.flight)

def timing (acc : ProjectileAccumulator) : Option (Nat × Nat × FlyTiming) :=
  acc.earliestReleaseMs.map fun releaseMs => (releaseMs, acc.maxDurationMs, acc.flight.getD defaultProjectile)

end ProjectileAccumulator

/-! ## Joins -/

def firstHitByMotion (hitWindows : List MotionHitWindow) : OrdMap Int MotionHit :=
  gather (·.motionId) (fun existing window => keepLeast MotionHit.startMs existing window.hit) .empty
    (hitWindows.filter fun window => decide (window.startMs ≥ 0))

section
variable {F : Type} (flyTiming : F → F → F → FlyTiming)

/-- `flyTiming` rounds and clamps the velocity, the acceleration and the range. -/
def flyDataByFile (flyData : List (MotionFlyData F)) : OrdMap String FlyTiming :=
  flyData.foldl (fun m data => m.insert data.flyFile (flyTiming data.initVel data.accelY data.bombRange)) .empty

def firstFlyByMotion (flyEvents : List MotionFlyEvent) (flyData : List (MotionFlyData F)) : OrdMap Int MotionFly :=
  gather (·.motionId)
    (fun existing event => keepLeast MotionFly.releaseMs existing
      ⟨clampToU32 event.releaseMs, (event.flyFile.bind (flyDataByFile flyTiming flyData).get?).getD defaultProjectile⟩)
    .empty (flyEvents.filter fun event => decide (event.releaseMs ≥ 0))

end

abbrev Accumulators := OrdMap MobId MeleeAccumulator × OrdMap MobId ProjectileAccumulator

/-- One pass of the loop over the motions. -/
def pushMotion (hits : OrdMap Int MotionHit) (flies : OrdMap Int MotionFly) (acc : Accumulators)
    (motion : MobAttackMotion) :
    Accumulators :=
  if motion.weight ≤ 0 then acc
  else
    match hits.get? motion.motionId with
    | some hit =>
      (acc.1.insert motion.mobId (((acc.1.get? motion.mobId).getD .default).push hit motion.weight motion.durationMs),
        acc.2)
    | none =>
      match flies.get? motion.motionId with
      | some fly =>
        (acc.1, acc.2.insert motion.mobId (((acc.2.get? motion.mobId).getD .default).push fly motion.durationMs))
      | none => acc

def upsertMelee (table : OrdMap MobId MobAttackTiming) (entry : MobId × MeleeAccumulator) :
    OrdMap MobId MobAttackTiming :=
  match entry.2.timingParts with
  | some (damageDelayMs, actionDurationMs) => table.insert entry.1 ⟨.melee damageDelayMs, actionDurationMs⟩
  | none => table

def upsertProjectile (table : OrdMap MobId MobAttackTiming) (entry : MobId × ProjectileAccumulator) :
    OrdMap MobId MobAttackTiming :=
  if (table.get? entry.1).isSome then table
  else
    match entry.2.timing with
    | some (releaseDelayMs, actionDurationMs, flight) =>
      table.insert entry.1 ⟨.projectile releaseDelayMs flight, actionDurationMs⟩
    | none => table

/-- `MobAttackTimingTable`, whose `timing_for` is the lookup. -/
def mobAttackTimingsFromMotion {F : Type} (flyTiming : F → F → F → FlyTiming) (motions : List MobAttackMotion)
    (hitWindows : List MotionHitWindow) (flyEvents : List MotionFlyEvent) (flyData : List (MotionFlyData F)) :
    OrdMap MobId MobAttackTiming :=
  let accumulators := motions.foldl
    (pushMotion (firstHitByMotion hitWindows) (firstFlyByMotion flyTiming flyEvents flyData)) (.empty, .empty)
  accumulators.2.entries.foldl upsertProjectile (accumulators.1.entries.foldl upsertMelee .empty)

/-! ## The loops -/

/-- A motion of positive weight that hits, with the window in which it does. -/
def hitRow (hits : OrdMap Int MotionHit) (motion : MobAttackMotion) : Option (MobAttackMotion × MotionHit) :=
  if motion.weight ≤ 0 then none else (hits.get? motion.motionId).map (motion, ·)

/-- A motion of positive weight that does not hit and lets something fly. -/
def flyRow (hits : OrdMap Int MotionHit) (flies : OrdMap Int MotionFly) (motion : MobAttackMotion) :
    Option (MobAttackMotion × MotionFly) :=
  if motion.weight ≤ 0 ∨ (hits.get? motion.motionId).isSome then none else (flies.get? motion.motionId).map (motion, ·)

def pushHit (acc : Option MeleeAccumulator) (row : MobAttackMotion × MotionHit) : MeleeAccumulator :=
  (acc.getD .default).push row.2 row.1.weight row.1.durationMs

def pushFly (acc : Option ProjectileAccumulator) (row : MobAttackMotion × MotionFly) : ProjectileAccumulator :=
  (acc.getD .default).push row.2 row.1.durationMs

def meleeByMob (hits : OrdMap Int MotionHit) (motions : List MobAttackMotion) : OrdMap MobId MeleeAccumulator :=
  gather (·.1.mobId) pushHit .empty (motions.filterMap (hitRow hits))

def projectileByMob (hits : OrdMap Int MotionHit) (flies : OrdMap Int MotionFly) (motions : List MobAttackMotion) :
    OrdMap MobId ProjectileAccumulator :=
  gather (·.1.mobId) pushFly .empty (motions.filterMap (flyRow hits flies))

theorem foldl_pushMotion_acc (hits : OrdMap Int MotionHit) (flies : OrdMap Int MotionFly) :
    ∀ (motions : List MobAttackMotion) (acc : Accumulators), motions.foldl (pushMotion hits flies) acc =
      (gather (·.1.mobId) pushHit acc.1 (motions.filterMap (hitRow hits)),
        gather (·.1.mobId) pushFly acc.2 (motions.filterMap (flyRow hits flies)))
  | [], acc => rfl
  | motion :: motions, acc => by
    rw [List.foldl_cons, foldl_pushMotion_acc hits flies motions, List.filterMap_cons, List.filterMap_cons]
    unfold pushMotion hitRow flyRow
    by_cases hweight : motion.weight ≤ 0
    · rw [if_pos hweight, if_pos hweight, if_pos (.inl hweight)]
    · rw [if_neg hweight, if_neg hweight]
      cases hhit : hits.get? motion.motionId with
      | some hit =>
        rw [if_pos (.inr rfl)]
        rfl
      | none =>
        rw [if_neg (by simpa using hweight)]
        dsimp only
        cases flies.get? motion.motionId with
        | some fly => rfl
        | none => rfl

/-- The one loop over the motions gathers the rows of both kinds. -/
theorem foldl_pushMotion (hits : OrdMap Int MotionHit) (flies : OrdMap Int MotionFly) (motions : List MobAttackMotion) :
    motions.foldl (pushMotion hits flies) (.empty, .empty) =
      (meleeByMob hits motions, projectileByMob hits flies motions) :=
  foldl_pushMotion_acc hits flies motions _

def meleeTiming (acc : MeleeAccumulator) : Option MobAttackTiming :=
  acc.timingParts.map fun (damageDelayMs, actionDurationMs) => ⟨.melee damageDelayMs, actionDurationMs⟩

def projectileTiming (acc : ProjectileAccumulator) : Option MobAttackTiming :=
  acc.timing.map fun (releaseDelayMs, actionDurationMs, flight) => ⟨.projectile releaseDelayMs flight, actionDurationMs⟩

theorem get?_upsertMelee_self (table : OrdMap MobId MobAttackTiming) (entry : MobId × MeleeAccumulator) :
    (upsertMelee table entry).get? entry.1 = (meleeTiming entry.2).or (table.get? entry.1) := by
  unfold upsertMelee meleeTiming
  cases entry.2.timingParts with
  | some parts => simp [OrdMap.get?_insert]
  | none => simp

theorem get?_upsertMelee_other (table : OrdMap MobId MobAttackTiming) (entry : MobId × MeleeAccumulator) (mob : MobId)
    (h : mob ≠ entry.1) : (upsertMelee table entry).get? mob = table.get? mob := by
  unfold upsertMelee
  cases entry.2.timingParts with
  | some parts => exact (OrdMap.get?_insert _ _ _ _).trans (if_neg h)
  | none => rfl

theorem get?_upsertProjectile_self (table : OrdMap MobId MobAttackTiming) (entry : MobId × ProjectileAccumulator) :
    (upsertProjectile table entry).get? entry.1 = (table.get? entry.1).or (projectileTiming entry.2) := by
  unfold upsertProjectile projectileTiming
  cases htable : table.get? entry.1 with
  | some timing => simp [htable]
  | none =>
    cases entry.2.timing with
    | some parts => simp [OrdMap.get?_insert]
    | none => simp [htable]

theorem get?_upsertProjectile_other (table : OrdMap MobId MobAttackTiming) (entry : MobId × ProjectileAccumulator)
    (mob : MobId) (h : mob ≠ entry.1) : (upsertProjectile table entry).get? mob = table.get? mob := by
  unfold upsertProjectile
  split
  · rfl
  · cases entry.2.timing with
    | some parts => exact (OrdMap.get?_insert _ _ _ _).trans (if_neg h)
    | none => rfl

theorem nodup_entries {β : Type} (m : OrdMap MobId β) : (m.entries.map (·.1)).Nodup :=
  m.keys_pairwise.imp fun h => ne_of_lt h

theorem get?_foldl_upsertMelee (m : OrdMap MobId MeleeAccumulator) (table : OrdMap MobId MobAttackTiming)
    (mob : MobId) :
    (m.entries.foldl upsertMelee table).get? mob = ((m.get? mob).bind meleeTiming).or (table.get? mob) := by
  have h := @get?_foldl_entries _ _ _ _ upsertMelee (fun o acc => (meleeTiming acc).or o) get?_upsertMelee_self
    get?_upsertMelee_other mob m.entries (nodup_entries m) table
  rw [h]
  show (m.get? mob).elim _ _ = _
  cases m.get? mob with
  | some acc => rfl
  | none => simp

theorem get?_foldl_upsertProjectile (m : OrdMap MobId ProjectileAccumulator) (table : OrdMap MobId MobAttackTiming)
    (mob : MobId) :
    (m.entries.foldl upsertProjectile table).get? mob = (table.get? mob).or ((m.get? mob).bind projectileTiming) := by
  have h := @get?_foldl_entries _ _ _ _ upsertProjectile (fun o acc => o.or (projectileTiming acc))
    get?_upsertProjectile_self get?_upsertProjectile_other mob m.entries (nodup_entries m) table
  rw [h]
  show (m.get? mob).elim _ _ = _
  cases m.get? mob with
  | some acc => rfl
  | none => simp

/-- A mob's timing is that of its hits, or else that of what it lets fly. -/
theorem get?_mobAttackTimings {F : Type} (flyTiming : F → F → F → FlyTiming) (motions : List MobAttackMotion)
    (hitWindows : List MotionHitWindow) (flyEvents : List MotionFlyEvent) (flyData : List (MotionFlyData F))
    (mob : MobId) :
    (mobAttackTimingsFromMotion flyTiming motions hitWindows flyEvents flyData).get? mob =
      (((meleeByMob (firstHitByMotion hitWindows) motions).get? mob).bind meleeTiming).or
        (((projectileByMob (firstHitByMotion hitWindows) (firstFlyByMotion flyTiming flyEvents flyData) motions).get?
          mob).bind projectileTiming) := by
  unfold mobAttackTimingsFromMotion
  rw [foldl_pushMotion]
  dsimp only
  rw [get?_foldl_upsertProjectile, get?_foldl_upsertMelee, OrdMap.get?_empty, Option.or_none]

end Zohar.Combat
