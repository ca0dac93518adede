/-
The values the crates share: players, their allocated points, and the snapshots that carry a player from
a map to the database and back. From zohar-domain/src/entity/player.rs. A coordinate is the bit pattern of
its `f32`: nothing here computes with positions.
-/
import Zohar.Lib.MachineInt

namespace Zohar

open Zohar.Lib

inductive PlayerClass where
  | warrior | ninja | sura | shaman
  deriving DecidableEq, Repr

/-- `DbId<PlayerTag>`: an `i64`. -/
structure PlayerId where
  raw : Int
  deriving DecidableEq, Repr

instance : LinearOrder PlayerId := LinearOrder.lift' PlayerId.raw fun a b h => by cases a; cases b; simpa using h

/-- `i64`; the default is `INITIAL`, zero. -/
structure PlayerRuntimeEpoch where
  raw : Int
  deriving DecidableEq, Repr

def PlayerRuntimeEpoch.initial : PlayerRuntimeEpoch := ⟨0⟩

/-- A `Duration`, in nanoseconds. -/
structure PlayerPlaytime where
  nanos : Nat
  deriving DecidableEq, Repr

namespace PlayerPlaytime

def asSecs (p : PlayerPlaytime) : Nat := p.nanos / 1000000000

def asSecsI64 (p : PlayerPlaytime) : Int := min (p.asSecs : Int) i64Max

theorem asSecsI64_nonneg (p : PlayerPlaytime) : 0 ≤ p.asSecsI64 := by
  unfold asSecsI64 i64Max; omega

end PlayerPlaytime

structure PlayerStats where
  statStr : Int
  statVit : Int
  statDex : Int
  statInt : Int
  deriving DecidableEq, Repr

inductive CoreStatKind where
  | st | ht | dx | iq
  deriving DecidableEq, Repr

structure CoreStatAllocations where
  allocatedStr : Int
  allocatedVit : Int
  allocatedDex : Int
  allocatedInt : Int
  deriving DecidableEq, Repr

structure PlayerGameplayBootstrap where
  playerId : PlayerId
  playerClass : PlayerClass
  level : Int
  expInLevel : Int
  coreStatAllocations : CoreStatAllocations
  statResetCount : Int
  currentHp : Option Int
  currentSp : Option Int
  currentStamina : Option Int
  deriving DecidableEq, Repr

structure PlayerProgressionSnapshot where
  level : Int
  expInLevel : Int
  coreStatAllocations : CoreStatAllocations
  statResetCount : Int
  deriving DecidableEq, Repr

structure LocalPos where
  x : UInt32
  y : UInt32
  deriving DecidableEq, Repr

inductive PlayerExitKind where
  | disconnect | handoff
  deriving DecidableEq, Repr

structure PlayerRuntimeSnapshot where
  id : PlayerId
  runtimeEpoch : PlayerRuntimeEpoch
  mapKey : String
  localPos : LocalPos
  playtime : PlayerPlaytime
  currentHp : Option Int
  currentSp : Option Int
  currentStamina : Option Int
  deriving DecidableEq, Repr

structure PlayerSnapshot where
  runtime : PlayerRuntimeSnapshot
  progression : PlayerProgressionSnapshot
  deriving DecidableEq, Repr

namespace PlayerSnapshot

def playerId (s : PlayerSnapshot) : PlayerId := s.runtime.id

def withRuntimeLocation (s : PlayerSnapshot) (mapKey : String) (localPos : LocalPos) : PlayerSnapshot :=
  { s with runtime := { s.runtime with mapKey, localPos } }

end PlayerSnapshot

end Zohar
