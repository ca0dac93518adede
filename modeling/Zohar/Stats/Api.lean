/-
The operations on an actor's statistics: the mutators, the recomputation of the derived values, the
synchronisation report and the runtime that collects reports until they are drained. From
zohar-gameplay/src/stats/game/api.rs.
-/
import Zohar.Lib.Cmd
import Zohar.Stats.State

namespace Zohar.Stats

open Zohar.Lib

section
variable {Source Detail : Type} [LinearOrder Source]

/-! ## Checks and reads -/

def clampOptional (value : Int) (min max : Option Int) : Option Int :=
  clamp? (min.getD i32Min) (max.getD i32Max) value

def validateStoredWriteLimit (source : ActorStatSource) (stat : Stat) (value : Int) :
    Option (Except StatWriteError Unit) :=
  match source.storedWriteLimit stat with
  | none => some (.ok ())
  | some max => (clampOptional value (some 0) (some max)).map fun clamped =>
    if clamped = value then .ok () else .error (.outOfRange stat value (some 0) max)

def currentResourceCap (st : ActorStatState Source Detail) (stat : Stat) : Except StatWriteError Int :=
  match stat with
  | .hp => .ok (st.computed.get .maxHp)
  | .sp => .ok (st.computed.get .maxSp)
  | .stamina => .ok (st.computed.get .maxStamina)
  | _ => .error (.notResource stat)

def currentResourceValue (st : ActorStatState Source Detail) (stat : Stat) : Except StatWriteError Int :=
  match stat with
  | .hp => .ok st.resources.hp
  | .sp => .ok st.resources.sp
  | .stamina => .ok st.resources.stamina
  | .hpRecovery => .ok st.resources.hpRecovery
  | .spRecovery => .ok st.resources.spRecovery
  | _ => .error (.notResource stat)

def recoveryBucketForResource (stat : Stat) : Except StatWriteError Stat :=
  match stat with
  | .hp => .ok .hpRecovery
  | .sp => .ok .spRecovery
  | _ => .error (.notResource stat)

inductive SourceBundleError where
  | recoveryStatInModifierChannel (stat : Stat)
  | unsupportedModifierStat (stat : Stat)
  deriving DecidableEq, Repr

def validateModifierStat (stat : Stat) : Except SourceBundleError Unit :=
  if stat = .hpRecovery ∨ stat = .spRecovery then .error (.recoveryStatInModifierChannel stat)
  else if stat.acceptsSourceContribution then .ok () else .error (.unsupportedModifierStat stat)

/-- The first modifier that is refused decides. -/
def validateModifiers : List (CompiledModifier Detail) → Except SourceBundleError Unit
  | [] => .ok ()
  | m :: ms =>
    match validateModifierStat m.stat with
    | .error e => .error e
    | .ok () => validateModifiers ms

def compiledModifierToInstance (source : Source) (m : CompiledModifier Detail) :
    GenericModifierInstance Source Detail :=
  ⟨source, m.stat, m.amount, m.detail⟩

/-! ## Mutators -/

namespace GameStatsApi

abbrev WriteCmd (Source Detail : Type) [LinearOrder Source] := Cmd StatWriteError (ActorStatState Source Detail)

def setStoredStat (source : ActorStatSource) (stat : Stat) (value : Int) : WriteCmd Source Detail Unit := do
  Cmd.check (validateStoredWriteLimit source stat value)
  Cmd.update (·.setStoredStat stat value)

def setResource (stat : Stat) (value : Int) : WriteCmd Source Detail Int := do
  let cap ← Cmd.tryRead (currentResourceCap · stat)
  let capped ← Cmd.expect (clamp? 0 cap value)
  Cmd.updateExpect (·.setResourceStat stat capped)
  return capped

def changeResource (stat : Stat) (delta : Int) : WriteCmd Source Detail Int := do
  let current ← Cmd.tryRead (currentResourceValue · stat)
  setResource stat (addI32 current delta)

def applyResource (application : ResourceApplication) : WriteCmd Source Detail ResourceApplicationResult := do
  let previous ← Cmd.tryRead (currentResourceValue · application.stat)
  let upperBound ← (if application.clampToCap then Cmd.tryRead (currentResourceCap · application.stat) else pure i32Max)
  let next ← Cmd.expect (clamp? application.minValue upperBound (satI32 (previous + application.delta)))
  Cmd.updateExpect (·.setResourceStat application.stat next)
  return {
    stat := application.stat
    previous
    current := next
    appliedDelta := subI32 next previous
    wasClamped := decide (next ≠ satI32 (previous + application.delta)) }

def queueRecovery (stat : Stat) (amount : Int) : WriteCmd Source Detail (Option QueuedRecovery) := do
  let bucket ← Cmd.check (some (recoveryBucketForResource stat))
  let previous ← Cmd.tryRead (currentResourceValue · bucket)
  let current ← Cmd.tryRead (currentResourceValue · stat)
  let cap ← Cmd.tryRead (currentResourceCap · stat)
  if satI32 (current + previous) ≥ cap then return none
  else do
    let queuedAmount := max amount 0
    let next := satI32 (previous + queuedAmount)
    Cmd.update (·.setResourceStat bucket next)
    return some ⟨stat, previous, next, queuedAmount⟩

def queueAutoRecovery (stat : Stat) (availableAmount : Int) : WriteCmd Source Detail (Option QueuedRecovery) := do
  let bucket ← Cmd.check (some (recoveryBucketForResource stat))
  let previous ← Cmd.tryRead (currentResourceValue · bucket)
  let cap ← Cmd.tryRead (currentResourceCap · stat)
  let current ← Cmd.tryRead (currentResourceValue · stat)
  let missing := satI32 (cap - satI32 (current + previous))
  let queuedAmount := min (max availableAmount 0) missing
  if queuedAmount ≤ 0 then return none
  else do
    let next := satI32 (previous + queuedAmount)
    Cmd.update (·.setResourceStat bucket next)
    return some ⟨stat, previous, next, queuedAmount⟩

def applyPendingRecovery (stat : Stat) (amount : Int) : WriteCmd Source Detail ResourceApplicationResult := do
  let bucket ← Cmd.check (some (recoveryBucketForResource stat))
  let pending ← Cmd.tryRead (currentResourceValue · bucket)
  let current ← Cmd.tryRead (currentResourceValue · stat)
  let cap ← Cmd.tryRead (currentResourceCap · stat)
  if current ≥ cap then do
    Cmd.update (·.setResourceStat bucket 0)
    applyResource (.restore stat 0)
  else do
    let scheduled := min (max amount 0) pending
    let result ← applyResource (.restore stat scheduled)
    (if scheduled > 0 then Cmd.update (·.setResourceStat bucket (satI32 (pending - scheduled))) else pure ())
    return result

def replaceSourceBundle (source : Source) (contribution : CompiledStatContribution Detail) :
    Cmd SourceBundleError (ActorStatState Source Detail) Unit := do
  Cmd.check (some (validateModifiers contribution.modifiers))
  Cmd.update fun st =>
    .ok (st.replaceModifierSource source (contribution.modifiers.map (compiledModifierToInstance source)))

end GameStatsApi

/-! ## Recomputation -/

variable [GrowthRng]

def optionalStatValue (computed : PointValueStore) (stat : Option Stat) : Int := (stat.map computed.get).getD 0

def percentageBonus (value pct : Int) : Int := (mulI32 value pct).tdiv 100

def cappedPercentageBonus (value pct maxBonus : Int) : Int := min (percentageBonus value pct) maxBonus

def setPlayerResourceCapacity (computed : PointValueStore) (player : PlayerStatSource)
    (resource : PlayerResourceCapacity) (base : Int) : PointValueStore :=
  let prePercentageBase :=
    addI32 (addI32 base (optionalStatValue computed resource.flatBonusStat))
      (optionalStatValue computed resource.prePercentageBonusStat)
  let percentageBonus :=
    (resource.cappedPercentageStat.map fun stat =>
      cappedPercentageBonus prePercentageBase (computed.get stat)
        ((player.balance.cappedPercentageBonusMax resource).getD i32Max)).getD 0
  let postPercentageBonus := optionalStatValue computed resource.postPercentageBonusStat
  computed.set resource.capStat (addI32 (addI32 prePercentageBase percentageBonus) postPercentageBonus)

/-- Fills in the derived values of a player. The flat values are read before their slots are overwritten. -/
def rebuildPlayerState (computed : PointValueStore) (stableId : Option UInt64) (player : PlayerStatSource) :
    PointValueStore :=
  let lvl := computed.get .level
  let st := computed.get .st
  let ht := computed.get .ht
  let dx := computed.get .dx
  let iq := computed.get .iq
  let flatAttSpeed := computed.get .attSpeed
  let flatAttGrade := computed.get .attGrade
  let flatDefGrade := computed.get .defGrade
  let flatMovSpeed := computed.get .movSpeed
  let flatCastingSpeed := computed.get .castingSpeed
  let flatMagicAttGrade := computed.get .magicAttGrade
  let flatMagicDefGrade := computed.get .magicDefGrade
  let (randomHp, randomSp, randomStamina) :=
    (stableId.map fun stableId =>
      (player.growth.randomHp stableId lvl, player.growth.randomSp stableId lvl,
        player.growth.randomStamina stableId lvl)).getD (0, 0, 0)
  let computed := setPlayerResourceCapacity computed player .hp
    (addI32 (addI32 player.resources.baseMaxHp randomHp) (mulI32 ht player.resources.hpPerHt))
  let computed := setPlayerResourceCapacity computed player .sp
    (addI32 (addI32 player.resources.baseMaxSp randomSp) (mulI32 iq player.resources.spPerIq))
  let computed := setPlayerResourceCapacity computed player .stamina
    (addI32 (addI32 player.resources.baseMaxStamina randomStamina) (mulI32 ht player.resources.staminaPerHt))
  let computed := computed.set .movSpeed (addI32 flatMovSpeed player.speeds.moveSpeed)
  let computed := computed.set .attSpeed
    (addI32 (addI32 flatAttSpeed player.speeds.attackSpeed) (computed.get .partyHasteBonus))
  let computed := computed.set .castingSpeed (addI32 flatCastingSpeed player.speeds.castingSpeed)
  let attack := player.balance.attack
  let statAttack :=
    (addI32 (addI32 (mulI32 st attack.stNumerator) (mulI32 dx attack.dxNumerator)) (mulI32 iq attack.iqNumerator)).tdiv
      (max attack.divisor 1)
  let computed := computed.set .attGrade
    (addI32 (addI32 (addI32 flatAttGrade (mulI32 lvl 2)) statAttack) (computed.get .attGradeBonus))
  let physicalDefenceBonus :=
    addI32 (addI32 (computed.get .armorDefence) (computed.get .defGradeBonus)) (computed.get .partyDefenderBonus)
  let computed := computed.set .defGrade
    (addI32 (addI32 (addI32 flatDefGrade lvl) ((mulI32 ht 4).tdiv 5)) physicalDefenceBonus)
  let computed := computed.set .displayedDefGrade
    (addI32 (addI32 (addI32 flatDefGrade lvl) ht) physicalDefenceBonus)
  let computed := computed.set .magicAttGrade
    (addI32 (addI32 (addI32 flatMagicAttGrade (mulI32 lvl 2)) (mulI32 iq 2)) (computed.get .magicAttGradeBonus))
  computed.set .magicDefGrade
    (addI32 (addI32 (addI32 (addI32 flatMagicDefGrade lvl) ((addI32 (mulI32 iq 3) ht).tdiv 3))
      (physicalDefenceBonus.tdiv 2)) (computed.get .magicDefGradeBonus))

def rebuildMobState (computed : PointValueStore) (mob : MobStatSource) : PointValueStore :=
  let lvl := computed.get .level
  let st := computed.get .st
  let ht := computed.get .ht
  let flatAttSpeed := computed.get .attSpeed
  let flatAttGrade := computed.get .attGrade
  let flatDefGrade := computed.get .defGrade
  let flatMovSpeed := computed.get .movSpeed
  let flatCastingSpeed := computed.get .castingSpeed
  let flatMagicAttGrade := computed.get .magicAttGrade
  let flatMagicDefGrade := computed.get .magicDefGrade
  let computed := computed.set .maxHp (addI32 (computed.get .bonusMaxHp) mob.maxHp)
  let attGrade := addI32 (addI32 flatAttGrade (mulI32 lvl 2)) (mulI32 st 2)
  let computed := computed.set .attGrade attGrade
  let defGrade := addI32 (addI32 (addI32 flatDefGrade lvl) ht) mob.defGradeFlat
  let computed := computed.set .defGrade defGrade
  let computed := computed.set .displayedDefGrade defGrade
  let computed := computed.set .magicAttGrade (addI32 flatMagicAttGrade attGrade)
  let computed := computed.set .magicDefGrade (addI32 flatMagicDefGrade defGrade)
  let computed := computed.set .attSpeed (addI32 flatAttSpeed mob.speeds.attackSpeed)
  let computed := computed.set .movSpeed (addI32 flatMovSpeed mob.speeds.moveSpeed)
  computed.set .castingSpeed (addI32 flatCastingSpeed mob.speeds.castingSpeed)

def applySourceSeed (seeded : PointValueStore) : ActorStatSource → PointValueStore
  | .player _ => seeded
  | .mob mob =>
    ((((seeded.add .level mob.level).add .st mob.core.st).add .ht mob.core.ht).add .dx mob.core.dx).add .iq mob.core.iq

def addModifier (seeded : PointValueStore) (m : GenericModifierInstance Source Detail) : PointValueStore :=
  if m.stat.acceptsSourceContribution then seeded.add m.stat m.amount else seeded

def seedRebuildState (st : ActorStatState Source Detail) (source : ActorStatSource) : PointValueStore :=
  st.modifiers.iter.foldl addModifier (applySourceSeed st.base source)

/-- The derived values over a seeded store; of the actor's state only the stable id is read. -/
def rebuildDerivedState (stableId : Option UInt64) (source : ActorStatSource) (seeded : PointValueStore) :
    PointValueStore :=
  match source with
  | .player player => rebuildPlayerState seeded stableId player
  | .mob mob => rebuildMobState seeded mob

def deriveImmuneFlags (st : ActorStatState Source Detail) : ActorImmuneFlags :=
  st.runtime.externalImmuneFlags.or
    ⟨decide (st.computed.get .immuneStun > 0), decide (st.computed.get .immuneSlow > 0),
      decide (st.computed.get .immuneFall > 0)⟩

def resourceChanges (old new : ActorResources) : StatChangeSet :=
  (if old.hp ≠ new.hp then {Stat.hp} else ∅) ∪ (if old.sp ≠ new.sp then {Stat.sp} else ∅) ∪
    (if old.stamina ≠ new.stamina then {Stat.stamina} else ∅)

structure StatRecomputeReport where
  changes : StatChangeSet
  runtimeDirty : Bool

namespace GameStatsApi

def recomputeReport (source : ActorStatSource) (st : ActorStatState Source Detail) :
    Option (StatRecomputeReport × ActorStatState Source Detail) := do
  let oldComputed := st.computed
  let explicitChanges := st.explicitChanges
  let st := { st with explicitChanges := ∅ }
  let seeded := seedRebuildState st source
  let derived := rebuildDerivedState st.stableId source seeded
  let st := st.replaceComputed derived
  let previousResources := st.resources
  let st ← st.clampResourcesToComputedCaps
  let resourceChanges := resourceChanges previousResources st.resources
  let st := st.setDerivedImmuneFlags (deriveImmuneFlags st)
  let finalComputedChanges := diffStore oldComputed st.computed
  let runtimeDirty := st.runtimeDirty
  let st := { st with runtimeDirty := false, dirty := false }
  return (⟨finalComputedChanges ∪ resourceChanges ∪ explicitChanges, runtimeDirty⟩, st)

end GameStatsApi

end

/-! ## Synchronisation -/

structure ActorPublicStats where
  level : Nat
  moveSpeed : Nat
  attackSpeed : Nat
  deriving DecidableEq, Repr

structure ActorPublicState where
  stats : ActorPublicStats
  immuneFlags : ActorImmuneFlags
  deriving DecidableEq, Repr

structure StatDelta where
  stat : Stat
  value : Int
  deriving DecidableEq, Repr

/-- The full set of values sent when a player enters, as unsigned numbers. -/
structure StatSnapshot where
  values : Stat → Option Nat

structure StatsSync where
  changes : StatChangeSet
  statDeltas : List StatDelta
  publicState : Option ActorPublicState

structure BootstrapStatsSync where
  changes : StatChangeSet
  statSnapshot : StatSnapshot
  publicState : ActorPublicState

def publicStatsChanged (changes : StatChangeSet) : Bool :=
  decide (Stat.level ∈ changes) || decide (Stat.movSpeed ∈ changes) || decide (Stat.attSpeed ∈ changes)

def saturatingU8 (value : Int) : Nat := (max 0 (min value 255)).toNat

section
variable {Source Detail : Type} [LinearOrder Source]

def StatSnapshot.insert (s : StatSnapshot) (stat : Stat) (value : Nat) : StatSnapshot :=
  ⟨fun t => if t = stat then some value else s.values t⟩

def StatSnapshot.fromState (st : ActorStatState Source Detail) : StatSnapshot :=
  let wire (values : StatSnapshot) (stat : Stat) : StatSnapshot :=
    values.insert stat (max (st.readWireCompatibleValue stat) 0).toNat
  let hidden : List Stat := [.armorDefence, .maxHpPrePctBonus, .bonusMaxHp, .bonusMaxSp, .bonusMaxStamina]
  let values : StatSnapshot := ⟨fun _ => none⟩
  let values := ((st.computed.iter.map (·.1)).filter fun s => decide (s ∉ hidden)).foldl wire values
  let values :=
    ((st.base.iter.map (·.1)).filter fun s => decide (s ∈ [Stat.level, .exp, .nextExp, .gold])).foldl wire values
  let values := [Stat.hp, .sp, .stamina, .hpRecovery, .spRecovery, .polymorph, .mount].foldl wire values
  let values := values.insert .exp st.progression.expInLevel
  values.insert .nextExp st.progression.nextExpInLevel

namespace GameStatsApi

def publicStats (source : ActorStatSource) (st : ActorStatState Source Detail) : Option ActorPublicStats := do
  let moveSpeed ← st.readLimitedValue source .movSpeed
  let attackSpeed ← st.readLimitedValue source .attSpeed
  return ⟨(max (st.readWireCompatibleValue .level) 0).toNat, saturatingU8 moveSpeed, saturatingU8 attackSpeed⟩

def publicState (source : ActorStatSource) (st : ActorStatState Source Detail) : Option ActorPublicState :=
  (publicStats source st).map fun stats => ⟨stats, st.runtime.immuneFlags⟩

def buildSync (source : ActorStatSource) (st : ActorStatState Source Detail) (changes : StatChangeSet)
    (runtimeDirty : Bool) : Option StatsSync := do
  let publicState ← (if runtimeDirty || publicStatsChanged changes then (publicState source st).map some else some none)
  return ⟨changes, (StatChangeSet.iter changes).map fun stat => ⟨stat, st.readWireCompatibleValue stat⟩, publicState⟩

variable [GrowthRng]

def sync (source : ActorStatSource) (st : ActorStatState Source Detail) :
    Option (StatsSync × ActorStatState Source Detail) := do
  let (report, st) ← recomputeReport source st
  let sync ← buildSync source st report.changes report.runtimeDirty
  return (sync, st)

def bootstrapSync (source : ActorStatSource) (st : ActorStatState Source Detail) :
    Option (BootstrapStatsSync × ActorStatState Source Detail) := do
  let (report, st) ← recomputeReport source st
  let publicState ← publicState source st
  return (⟨report.changes, .fromState st, publicState⟩, st)

def syncIfDirty (source : ActorStatSource) (st : ActorStatState Source Detail) :
    Option (StatsSync × ActorStatState Source Detail) :=
  if st.isDirty then sync source st
  else (buildSync source st ∅ false).map fun sync => (sync, st)

end GameStatsApi

/-! ## Operations as data -/

/-- The mutators of the interface. -/
inductive Mutator (Source Detail : Type) where
  | setStoredStat (stat : Stat) (value : I32)
  | setPlayerProgression (level : I32) (expInLevel nextExpInLevel : Nat)
  | setResource (stat : Stat) (value : I32)
  | changeResource (stat : Stat) (delta : I32)
  | applyResource (application : ResourceApplication)
  | queueRecovery (stat : Stat) (amount : I32)
  | queueAutoRecovery (stat : Stat) (availableAmount : I32)
  | applyPendingRecovery (stat : Stat) (amount : I32)
  | replaceSourceBundle (source : Source) (contribution : CompiledStatContribution Detail)
  | removeSourceBundle (source : Source)
  | setExternalImmuneFlags (flags : ActorImmuneFlags)
  | setStableId (stableId : UInt64)
  | clearStableId

namespace GameStatsApi

/-- The state after a mutator, whatever it returned. -/
def mutate (source : ActorStatSource) (st : ActorStatState Source Detail) :
    Mutator Source Detail → Option (ActorStatState Source Detail)
  | .setStoredStat stat value => (setStoredStat source stat value.val).exec st
  | .setPlayerProgression level expInLevel nextExpInLevel =>
    some (st.setPlayerProgression ⟨level.val, expInLevel, nextExpInLevel⟩)
  | .setResource stat value => (setResource stat value.val).exec st
  | .changeResource stat delta => (changeResource stat delta.val).exec st
  | .applyResource application => (applyResource application).exec st
  | .queueRecovery stat amount => (queueRecovery stat amount.val).exec st
  | .queueAutoRecovery stat availableAmount => (queueAutoRecovery stat availableAmount.val).exec st
  | .applyPendingRecovery stat amount => (applyPendingRecovery stat amount.val).exec st
  | .replaceSourceBundle src contribution => (replaceSourceBundle src contribution).exec st
  | .removeSourceBundle src => some (st.removeModifierSource src)
  | .setExternalImmuneFlags flags => some (st.setExternalImmuneFlags flags)
  | .setStableId stableId => some (st.setStableId (some stableId))
  | .clearStableId => some (st.setStableId none)

end GameStatsApi

/-- An operation of the interface: a mutator, or one of the operations that recompute. -/
inductive ApiOp (Source Detail : Type) where
  | mutate (m : Mutator Source Detail)
  | recompute
  | sync
  | bootstrapSync
  | syncIfDirty

/-- One operation through a `GameStatsApi` opened with `source`, which asserts that the kinds agree. -/
def GameStatsApi.apply [GrowthRng] (source : ActorStatSource) (st : ActorStatState Source Detail)
    (op : ApiOp Source Detail) :
    Option (ActorStatState Source Detail) :=
  if st.kind ≠ source.actorKind then none
  else match op with
    | .mutate m => mutate source st m
    | .recompute => (recomputeReport source st).map (·.2)
    | .sync => (sync source st).map (·.2)
    | .bootstrapSync => (bootstrapSync source st).map (·.2)
    | .syncIfDirty => (syncIfDirty source st).map (·.2)

end

/-! ## The runtime -/

structure PendingPlayerStatsSync where
  stats : PointValueStore
  changed : StatChangeSet
  publicState : Option ActorPublicState

structure DrainedPlayerStatsSync where
  statDeltas : List StatDelta
  publicState : Option ActorPublicState
  deriving DecidableEq, Repr

namespace PendingPlayerStatsSync

def empty : PendingPlayerStatsSync := ⟨.new, ∅, none⟩

def merge (p : PendingPlayerStatsSync) (sync : StatsSync) : PendingPlayerStatsSync :=
  let p := sync.statDeltas.foldl
    (fun p delta => { p with stats := p.stats.set delta.stat delta.value, changed := insert delta.stat p.changed }) p
  { p with publicState := sync.publicState.or p.publicState }

def drain (p : PendingPlayerStatsSync) : DrainedPlayerStatsSync :=
  ⟨(StatChangeSet.iter p.changed).map fun stat => ⟨stat, p.stats.get stat⟩, p.publicState⟩

end PendingPlayerStatsSync

structure ActorStatsRuntime where
  source : ActorStatSource
  state : ActorStatState Unit Unit
  pending : PendingPlayerStatsSync

namespace ActorStatsRuntime

def new (source : ActorStatSource) (state : ActorStatState Unit Unit) : ActorStatsRuntime := ⟨source, state, .empty⟩

def readPacket (rt : ActorStatsRuntime) (stat : Stat) : Int := rt.state.readWireCompatibleValue stat

def publicState (rt : ActorStatsRuntime) : Option ActorPublicState := GameStatsApi.publicState rt.source rt.state

variable [GrowthRng]

/-- `with_api_mut` around one mutator. -/
def withApiMut (rt : ActorStatsRuntime) (m : Mutator Unit Unit) : Option ActorStatsRuntime :=
  (GameStatsApi.apply rt.source rt.state (.mutate m)).map fun state => { rt with state }

def normalize (rt : ActorStatsRuntime) : Option (StatsSync × ActorStatsRuntime) :=
  if rt.state.kind ≠ rt.source.actorKind then none
  else (GameStatsApi.syncIfDirty rt.source rt.state).map fun r =>
    (r.1, { rt with state := r.2, pending := rt.pending.merge r.1 })

def drainSync (rt : ActorStatsRuntime) : Option (DrainedPlayerStatsSync × ActorStatsRuntime) :=
  rt.normalize.map fun r => (r.2.pending.drain, { r.2 with pending := .empty })

end ActorStatsRuntime

end Zohar.Stats
