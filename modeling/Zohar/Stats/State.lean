/-
The state of one actor's statistics and its setters: stored values, computed values, resources, runtime
flags, the modifier ledger and the marks that say what has to be recomputed and reported. From
zohar-gameplay/src/stats/core/modifiers.rs, stats/game/actor.rs and stats/game/view.rs.
-/
import Zohar.Lib.OrdMap
import Zohar.Stats.Source

namespace Zohar.Stats

open Zohar.Lib

/-! ## The modifier ledger -/

structure GenericModifierInstance (Source Detail : Type) where
  source : Source
  stat : Stat
  amount : Int
  detail : Detail

/-- The modifiers of each source that has any. -/
structure GenericModifierLedger (Source Detail : Type) [LinearOrder Source] where
  bySource : OrdMap Source (List (GenericModifierInstance Source Detail))

section
variable {Source Detail : Type} [LinearOrder Source]

namespace GenericModifierLedger

def empty : GenericModifierLedger Source Detail := ⟨OrdMap.empty⟩

def replaceSource (l : GenericModifierLedger Source Detail) (source : Source)
    (modifiers : List (GenericModifierInstance Source Detail)) : GenericModifierLedger Source Detail :=
  if modifiers.isEmpty then ⟨l.bySource.erase source⟩ else ⟨l.bySource.insert source modifiers⟩

def removeSource (l : GenericModifierLedger Source Detail) (source : Source) : GenericModifierLedger Source Detail :=
  ⟨l.bySource.erase source⟩

/-- Every modifier, the sources in order. -/
def iter (l : GenericModifierLedger Source Detail) : List (GenericModifierInstance Source Detail) :=
  l.bySource.values.flatten

end GenericModifierLedger

end

/-! ## Parts of the state -/

structure ActorResources where
  hp : Int
  sp : Int
  stamina : Int
  hpRecovery : Int
  spRecovery : Int
  deriving DecidableEq, Repr

def ActorResources.zero : ActorResources := ⟨0, 0, 0, 0, 0⟩

/-- Clamps the three resources to their capacities; a negative capacity fails the assertion of `clamp`. -/
def ActorResources.clampToCaps (r : ActorResources) (computed : PointValueStore) : Option ActorResources := do
  let hp ← clamp? 0 (computed.get .maxHp) r.hp
  let sp ← clamp? 0 (computed.get .maxSp) r.sp
  let stamina ← clamp? 0 (computed.get .maxStamina) r.stamina
  return { r with hp, sp, stamina }

structure ActorImmuneFlags where
  stun : Bool
  slow : Bool
  fall : Bool
  deriving DecidableEq, Repr

def ActorImmuneFlags.none : ActorImmuneFlags := ⟨false, false, false⟩

def ActorImmuneFlags.or (a b : ActorImmuneFlags) : ActorImmuneFlags :=
  ⟨a.stun || b.stun, a.slow || b.slow, a.fall || b.fall⟩

structure ActorRuntimeState where
  immuneFlags : ActorImmuneFlags
  externalImmuneFlags : ActorImmuneFlags
  deriving DecidableEq, Repr

inductive StatWriteError where
  | notStored (stat : Stat)
  | requiresTypedProgression (stat : Stat)
  | outOfRange (stat : Stat) (value : Int) (min : Option Int) (max : Int)
  | notResource (stat : Stat)
  deriving DecidableEq, Repr

/-! ## The state -/

@[ext] structure ActorStatState (Source Detail : Type) [LinearOrder Source] where
  kind : ActorKind
  stableId : Option UInt64
  progression : PlayerProgressionState
  base : PointValueStore
  computed : PointValueStore
  resources : ActorResources
  runtime : ActorRuntimeState
  modifiers : GenericModifierLedger Source Detail
  explicitChanges : Finset Stat
  dirty : Bool
  runtimeDirty : Bool

namespace ActorStatState

variable {Source Detail : Type} [LinearOrder Source]

def new (kind : ActorKind) : ActorStatState Source Detail where
  kind := kind
  stableId := none
  progression := .zero
  base := .new
  computed := .new
  resources := .zero
  runtime := ⟨.none, .none⟩
  modifiers := .empty
  explicitChanges := ∅
  dirty := true
  runtimeDirty := true

def recordExplicitChange (st : ActorStatState Source Detail) (stat : Stat) : ActorStatState Source Detail :=
  { st with explicitChanges := insert stat st.explicitChanges, dirty := true }

/-- Writes a base value and marks it, unless it is there already. -/
def setBaseProjectionStat (st : ActorStatState Source Detail) (stat : Stat) (value : Int) :
    ActorStatState Source Detail :=
  if st.base.get stat ≠ value then { st with base := st.base.set stat value }.recordExplicitChange stat else st

def setStoredStat (st : ActorStatState Source Detail) (stat : Stat) (value : Int) :
    Except StatWriteError (ActorStatState Source Detail) :=
  if stat = .level ∨ stat = .exp ∨ stat = .nextExp ∨ stat = .levelStep then .error (.requiresTypedProgression stat)
  else if stat.role ≠ .persistent then .error (.notStored stat)
  else if st.base.get stat ≠ value then .ok ({ st with base := st.base.set stat value }.recordExplicitChange stat)
  else .ok st

def setPlayerProgression (st : ActorStatState Source Detail) (progression : PlayerProgressionState) :
    ActorStatState Source Detail :=
  let progression := progression.normalized
  let st := { st with progression }
  let st := st.setBaseProjectionStat .level progression.level
  let st := st.setBaseProjectionStat .exp (clampU32ToI32 progression.expInLevel)
  let st := st.setBaseProjectionStat .nextExp (clampU32ToI32 progression.nextExpInLevel)
  st.setBaseProjectionStat .levelStep progression.levelStep

def setResourceStat (st : ActorStatState Source Detail) (stat : Stat) (value : Int) :
    Except StatWriteError (ActorStatState Source Detail) :=
  let write (slot : Int) (resources : ActorResources) : Except StatWriteError (ActorStatState Source Detail) :=
    if slot ≠ value then .ok ({ st with resources }.recordExplicitChange stat) else .ok st
  match stat with
  | .hp => write st.resources.hp { st.resources with hp := value }
  | .sp => write st.resources.sp { st.resources with sp := value }
  | .stamina => write st.resources.stamina { st.resources with stamina := value }
  | .hpRecovery => write st.resources.hpRecovery { st.resources with hpRecovery := value }
  | .spRecovery => write st.resources.spRecovery { st.resources with spRecovery := value }
  | _ => .error (.notResource stat)

def markRuntimeDirty (st : ActorStatState Source Detail) : ActorStatState Source Detail :=
  { st with runtimeDirty := true, dirty := true }

def setExternalImmuneFlags (st : ActorStatState Source Detail) (flags : ActorImmuneFlags) :
    ActorStatState Source Detail :=
  if st.runtime.externalImmuneFlags ≠ flags then
    { st with runtime := { st.runtime with externalImmuneFlags := flags } }.markRuntimeDirty
  else st

def setStableId (st : ActorStatState Source Detail) (stableId : Option UInt64) : ActorStatState Source Detail :=
  if st.stableId ≠ stableId then { st with stableId, dirty := true } else st

def setDerivedImmuneFlags (st : ActorStatState Source Detail) (flags : ActorImmuneFlags) :
    ActorStatState Source Detail :=
  if st.runtime.immuneFlags ≠ flags then
    { st with runtime := { st.runtime with immuneFlags := flags }, runtimeDirty := true }
  else st

theorem setDerivedImmuneFlags_eq (st : ActorStatState Source Detail) (flags : ActorImmuneFlags) :
    st.setDerivedImmuneFlags flags =
      { st with
        runtime := { st.runtime with immuneFlags := flags }
        runtimeDirty := st.runtimeDirty || decide (st.runtime.immuneFlags ≠ flags) } := by
  unfold setDerivedImmuneFlags
  split
  · rename_i h; simp [h]
  · rename_i h
    rw [not_not] at h
    simp [← h]

def replaceComputed (st : ActorStatState Source Detail) (computed : PointValueStore) : ActorStatState Source Detail :=
  { st with computed, dirty := true }

def clampResourcesToComputedCaps (st : ActorStatState Source Detail) : Option (ActorStatState Source Detail) :=
  (st.resources.clampToCaps st.computed).map fun resources => { st with resources, dirty := true }

def replaceModifierSource (st : ActorStatState Source Detail) (source : Source)
    (modifiers : List (GenericModifierInstance Source Detail)) : ActorStatState Source Detail :=
  { st with modifiers := st.modifiers.replaceSource source modifiers, dirty := true }

def removeModifierSource (st : ActorStatState Source Detail) (source : Source) : ActorStatState Source Detail :=
  { st with modifiers := st.modifiers.removeSource source, dirty := true }

def isDirty (st : ActorStatState Source Detail) : Bool := st.dirty || st.runtimeDirty

/-! ## Views -/

def readEffectiveValue (st : ActorStatState Source Detail) : Stat → Int
  | .hp => st.resources.hp
  | .sp => st.resources.sp
  | .stamina => st.resources.stamina
  | .hpRecovery => st.resources.hpRecovery
  | .spRecovery => st.resources.spRecovery
  | stat => st.computed.get stat

/-- The value sent to the client. -/
def readWireCompatibleValue (st : ActorStatState Source Detail) : Stat → Int
  | .exp => clampU32ToI32 st.progression.expInLevel
  | .nextExp => clampU32ToI32 st.progression.nextExpInLevel
  | .level => st.base.get .level
  | .gold => st.base.get .gold
  | stat => st.readEffectiveValue stat

/-- The value with the source's view limit applied; a negative limit fails the assertion of `clamp`. -/
def readLimitedValue (st : ActorStatState Source Detail) (source : ActorStatSource) (stat : Stat) : Option Int :=
  match source.viewLimit stat with
  | none => some (st.readEffectiveValue stat)
  | some max => clamp? 0 max (st.readEffectiveValue stat)

end ActorStatState

end Zohar.Stats
