/-
What a map tells a player: entities, their movements and the events of the port between the map and the connection. From
zohar-domain/src/entity.rs and zohar-map-port/src/messages.rs with values.rs. An entity id is counted in a `u32` that
wraps and steps over zero. Of a snapshot only the entity and where it stands are kept, and the events that no modelled
function looks into are named and carry nothing.
-/
import Zohar.Domain
import Zohar.Lib.OrdMap

namespace Zohar.Replication

open Zohar.Lib

structure EntityId where
  raw : Nat
  deriving DecidableEq, Repr

instance : LinearOrder EntityId := LinearOrder.lift' EntityId.raw fun ⟨_⟩ ⟨_⟩ h => congrArg EntityId.mk h

/-- The id after another, `next_entity_id`. -/
def nextEntityId (nextNetId : UInt32) : UInt32 := if nextNetId + 1 = 0 then 1 else nextNetId + 1

inductive MovementKind where
  | wait | move | attack | combo
  deriving DecidableEq, Repr

inductive MovementAnimation where
  | run | walk
  deriving DecidableEq, Repr

/-! ## Positions -/

/-- `NaN`, by its bits. -/
def f32IsNan (a : UInt32) : Bool := 0x7f800000 < a &&& 0x7fffffff

/-- `==` of `f32`: no `NaN` equals anything, and the two zeros are equal. -/
def f32Eq (a b : UInt32) : Bool := !f32IsNan a && !f32IsNan b && (a == b || (a ||| b) &&& 0x7fffffff == 0)

/-- The derived `==` of a position. -/
def posEq (a b : LocalPos) : Bool := f32Eq a.x b.x && f32Eq a.y b.y

/-! ## Events -/

/-- `client_ts` and `duration` are milliseconds in a `u32`. -/
structure MovementEvent where
  entityId : EntityId
  kind : MovementKind
  arg : UInt8
  facing : UInt8
  position : LocalPos
  clientTs : Nat
  duration : Nat
  deriving DecidableEq, Repr

/-- The derived `==` of a movement. It is not equality: positions are compared as floats. -/
def MovementEvent.eq (a b : MovementEvent) : Bool :=
  a.entityId = b.entityId && a.kind = b.kind && a.arg = b.arg && a.facing = b.facing && posEq a.position b.position &&
    a.clientTs = b.clientTs && a.duration = b.duration

theorem MovementEvent.eq_entityId {a b : MovementEvent} (h : a.eq b) : a.entityId = b.entityId := by
  simp only [MovementEvent.eq, Bool.and_eq_true, decide_eq_true_eq] at h
  exact h.1.1.1.1.1.1

structure EntitySnapshot where
  entityId : EntityId
  facing : UInt8
  pos : LocalPos
  deriving DecidableEq, Repr

/-- The events that the modelled functions only pass on. -/
inductive OtherEvent where
  | setEntityStats | syncEntityHealthBar | damageInfo | createProjectileEffect | setProjectileTarget | specialEffect
  | entityStunned | entityDead | entityPublicStateChanged | chat | restartTown | portalEntered
  deriving DecidableEq, Repr

inductive PlayerEvent where
  | entitySpawn (snapshot : EntitySnapshot)
  | entityMove (movement : MovementEvent)
  | setEntityMovementAnimation (entityId : EntityId) (animation : MovementAnimation)
  | entityDespawn (entityId : EntityId)
  | other (event : OtherEvent)
  deriving DecidableEq, Repr

namespace PlayerEvent

/-- The entity that appears, moves or disappears with the event. -/
def subject : PlayerEvent → Option EntityId
  | .entitySpawn snapshot => some snapshot.entityId
  | .entityMove movement => some movement.entityId
  | .entityDespawn entityId => some entityId
  | .setEntityMovementAnimation _ _ | .other _ => none

end PlayerEvent

end Zohar.Replication
