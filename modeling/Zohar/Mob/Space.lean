/-
The plane in which mobs move: distances, steps, segments under way, facings, durations and boxes. From
zohar-sim/src/runtime/spatial.rs, rules/movement.rs and mob/ai.rs, and zohar-domain/src/coords.rs. The coordinates are
of any type with the operations of `f32`, of which nothing is assumed: what is proved for every such type holds of the
floats with their roundings, infinities and NaNs. The exact rationals are one such type.
-/
import Mathlib.Data.Rat.Floor
import Mathlib.Tactic
import Zohar.Sim.Life
import Zohar.Space
import Zohar.Replication.Events

namespace Zohar.Mob

open Zohar.Lib
open Zohar.Replication (EntityId MovementKind)

/-! ## Scalars -/

/-- `ofRat` is the nearest number to a literal or to an integer that is cast, `toU32` and `toI32` are the casts that
clamp, and `totalGt` is the answer `Greater` of `total_cmp`. -/
class F32 (F : Type) extends Add F, Sub F, Mul F, Div F, Max F, Min F, LE F, LT F, BEq F where
  decidableLE : DecidableLE F
  decidableLT : DecidableLT F
  ofRat : Rat → F
  isFinite : F → Bool
  trunc : F → F
  toU32 : F → Nat
  toI32 : F → Int
  totalGt : F → F → Bool

attribute [reducible, instance] F32.decidableLE F32.decidableLT

/-- The cast of an integer. -/
instance (priority := low) F32.natCast {F : Type} [F32 F] : NatCast F := ⟨fun n => F32.ofRat n⟩

/-- The functions whose values are not rational, and `rem_euclid`. -/
structure Libm (F : Type) where
  sqrt : F → F
  sin : F → F
  cos : F → F
  atan2 : F → F → F
  toDegrees : F → F
  remEuclid : F → F → F

/-- Exact numbers. -/
instance : F32 Rat where
  decidableLE := inferInstance
  decidableLT := inferInstance
  ofRat q := q
  isFinite _ := true
  trunc q := if 0 ≤ q then ⌊q⌋ else ⌈q⌉
  toU32 q := min ⌊q⌋.toNat 4294967295
  toI32 q := max (-2147483648) (min (if 0 ≤ q then ⌊q⌋ else ⌈q⌉) 2147483647)
  totalGt a b := decide (b < a)

section
variable {F : Type} [F32 F]

open F32 (ofRat)

/-! ## Positions -/

abbrev LocalPos (F : Type) := Space.LocalPos F

abbrev LocalSize (F : Type) := Space.LocalSize F

section
variable (m : Libm F)

def distance (start goal : LocalPos F) : F := Space.distance m.sqrt start goal

/-- `LocalPosExt::shifted`: the vector of a length on the first axis, turned by the heading. -/
def LocalPos.shifted (pos : LocalPos F) (heading dist : F) : LocalPos F :=
  let sin := m.sin heading
  let cos := m.cos heading
  pos.add ⟨dist * cos - ofRat 0 * sin, ofRat 0 * cos + dist * sin⟩

def clampStepTowards (start goal : LocalPos F) (maxStep : F) : LocalPos F :=
  let delta := goal.sub start
  let dist := delta.length m.sqrt
  if dist ≤ maxStep ∨ dist ≤ ofRat (1 / 100) then goal else start.add (delta.scale (maxStep / dist))

def desiredDestinationUnchanged (currentSegmentEndPos : Option (LocalPos F)) (desired : LocalPos F) : Bool :=
  currentSegmentEndPos.any fun segmentEndPos => decide (distance m segmentEndPos desired ≤ ofRat (1 / 20))

/-! ## Facings -/

def degreesToFacing (degrees : F) : UInt8 :=
  let normalized := m.remEuclid degrees (ofRat 360)
  .ofNat ((F32.toI32 (normalized / ofRat 5) % 72).toNat % 72)

def rotationFromDelta (start goal : LocalPos F) (fallbackRot : UInt8) : UInt8 :=
  let delta := goal.sub start
  if delta.squareLength ≤ ofRat (1 / 10000) then fallbackRot
  else degreesToFacing m (m.remEuclid (m.toDegrees (m.atan2 delta.x delta.y)) (ofRat 360))

/-! ## Durations -/

def durationFromMotionSpeed (motionSpeedMps : F) (moveSpeedAttr : Nat) (startPos targetPos : LocalPos F) : Nat :=
  if motionSpeedMps ≤ ofRat 0 ∨ moveSpeedAttr = 0 then 0
  else
    let dist := distance m startPos targetPos
    let baseDur := dist / motionSpeedMps * ofRat 1000
    F32.toU32 (baseDur * (ofRat 100 / ofRat moveSpeedAttr))

def truncToWireCm (coordM : F) : F := F32.trunc (coordM * ofRat 100) / ofRat 100

def snapLocalToWireCm (pos : LocalPos F) : LocalPos F := ⟨truncToWireCm pos.x, truncToWireCm pos.y⟩

/-- With the speed at which the mob runs. -/
def calculateMobDuration (runSpeed : F) (kind : MovementKind) (start goal : LocalPos F) (moveSpeed : Nat) :
    Option Nat :=
  if kind ≠ .move ∧ kind ≠ .wait then none
  else
    let duration := durationFromMotionSpeed m runSpeed moveSpeed (snapLocalToWireCm start) (snapLocalToWireCm goal)
    if 0 < duration then some duration else none

end

/-! ## Segments -/

structure MobMotionState (F : Type) where
  segmentStartPos : LocalPos F
  segmentEndPos : LocalPos F
  segmentStartAt : Nat
  segmentEndAt : Nat
  deriving DecidableEq

namespace MobMotionState

/-- `sample_mob_motion_at` -/
def sampleAt (motion : MobMotionState F) (now : Nat) : LocalPos F :=
  if motion.segmentEndAt ≤ motion.segmentStartAt then motion.segmentEndPos
  else if now ≤ motion.segmentStartAt then motion.segmentStartPos
  else if motion.segmentEndAt ≤ now then motion.segmentEndPos
  else
    let total := motion.segmentEndAt - motion.segmentStartAt
    if total = 0 then motion.segmentEndPos
    else Space.pointOfSegment motion.segmentStartPos motion.segmentEndPos (now - motion.segmentStartAt) total

/-- `mob_movement_in_flight` -/
def inFlight (motion : MobMotionState F) (now : Nat) : Bool :=
  decide (now < motion.segmentEndAt) && !motion.segmentEndPos.eq motion.segmentStartPos

/-- From its end on, a segment is sampled at its end. -/
theorem sampleAt_of_le {motion : MobMotionState F} {now : Nat} (h : motion.segmentEndAt ≤ now) :
    motion.sampleAt now = motion.segmentEndPos := by
  unfold sampleAt
  by_cases hempty : motion.segmentEndAt ≤ motion.segmentStartAt
  · rw [if_pos hempty]
  · rw [if_neg hempty, if_neg (by omega), if_pos h]

end MobMotionState

/-! ## Boxes -/

structure LocalBox (F : Type) where
  min : LocalPos F
  max : LocalPos F
  deriving DecidableEq

namespace LocalBox

def fromCenterHalfExtent (center : LocalPos F) (extent : LocalSize F) : LocalBox F :=
  ⟨⟨center.x - extent.width, center.y - extent.height⟩, ⟨center.x + extent.width, center.y + extent.height⟩⟩

def intersect (a b : LocalBox F) : Option (LocalBox F) :=
  let lo : LocalPos F := ⟨Max.max a.min.x b.min.x, Max.max a.min.y b.min.y⟩
  let hi : LocalPos F := ⟨Min.min a.max.x b.max.x, Min.min a.max.y b.max.y⟩
  if hi.x < lo.x ∨ hi.y < lo.y then none else some ⟨lo, hi⟩

end LocalBox

def mapLocalBounds (localSize : LocalSize F) : LocalBox F := ⟨⟨ofRat 0, ofRat 0⟩, ⟨localSize.width, localSize.height⟩⟩

def isInsideMap (mapSize : LocalSize F) (candidate : LocalPos F) : Bool :=
  F32.isFinite candidate.x && F32.isFinite candidate.y && decide (ofRat 0 ≤ candidate.x) &&
    decide (ofRat 0 ≤ candidate.y) &&
    decide (candidate.x < mapSize.width) && decide (candidate.y < mapSize.height)

end

end Zohar.Mob
