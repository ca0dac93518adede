/-
What `hydrate_player` builds. The computed values of an actor depend on a few inputs only: its stored
values, progression, stable id and modifiers. A clean state holds exactly what its inputs give, and a
hydrated player's inputs are a function of its stored progression.
-/
import Zohar.Stats.Effects
import Zohar.Stats.Leveling

namespace Zohar.Stats

open Zohar.Lib

variable {Source Detail : Type} [LinearOrder Source]

/-! ## Inputs -/

/-- The part of the state that a recomputation reads and never writes. -/
structure StatInputs (Source Detail : Type) [LinearOrder Source] where
  kind : ActorKind
  stableId : Option UInt64
  progression : PlayerProgressionState
  base : PointValueStore
  modifiers : GenericModifierLedger Source Detail

namespace StatInputs

def write (i : StatInputs Source Detail) (stat : Stat) (v : Int) : StatInputs Source Detail :=
  { i with base := i.base.set stat v }

def identify (i : StatInputs Source Detail) (id : Option UInt64) : StatInputs Source Detail := { i with stableId := id }

/-- A new progression with its stored copies. -/
def project (i : StatInputs Source Detail) (p : PlayerProgressionState) : StatInputs Source Detail :=
  ((({ i with progression := p }.write .level p.level).write .exp (clampU32ToI32 p.expInLevel)).write .nextExp
    (clampU32ToI32 p.nextExpInLevel)).write .levelStep p.levelStep

end StatInputs

def ActorStatState.inputs (st : ActorStatState Source Detail) : StatInputs Source Detail :=
  ⟨st.kind, st.stableId, st.progression, st.base, st.modifiers⟩

/-- A stored value was written and nothing else that counts. -/
theorem setStoredStat_inputs {s t : ActorStatState Source Detail} {stat : Stat} {v : Int}
    (h : s.setStoredStat stat v = .ok t) : t.inputs = s.inputs.write stat v := by
  unfold ActorStatState.setStoredStat at h
  split at h
  · cases h
  · split at h
    · cases h
    · split at h
      · cases h; rfl
      · rename_i he
        rw [not_not] at he
        cases h
        show _ = { s.inputs with base := s.base.set stat v }
        rw [← he, PointValueStore.set_get_self]
        rfl

theorem setBaseProjectionStat_inputs (s : ActorStatState Source Detail) (stat : Stat) (v : Int) :
    (s.setBaseProjectionStat stat v).inputs = s.inputs.write stat v := by
  unfold ActorStatState.setBaseProjectionStat
  split
  · rfl
  · rename_i he
    rw [not_not] at he
    show _ = { s.inputs with base := s.base.set stat v }
    rw [← he, PointValueStore.set_get_self]
    rfl

theorem setPlayerProgression_inputs (s : ActorStatState Source Detail) (p : PlayerProgressionState) :
    (s.setPlayerProgression p).inputs = s.inputs.project p.normalized := by
  unfold ActorStatState.setPlayerProgression
  simp only [setBaseProjectionStat_inputs]
  rfl

/-! ## Clean states -/

section
variable [GrowthRng]

/-- The values that inputs give. -/
def StatInputs.derived (i : StatInputs Source Detail) (source : ActorStatSource) : PointValueStore :=
  rebuildDerivedState i.stableId source (i.modifiers.iter.foldl addModifier (applySourceSeed i.base source))

theorem derivedStore_eq_derived (source : ActorStatSource) (st : ActorStatState Source Detail) :
    GameStatsApi.derivedStore source st = st.inputs.derived source := rfl

theorem derivedStore_congr {source : ActorStatSource} {s t : ActorStatState Source Detail} (h : t.inputs = s.inputs) :
    GameStatsApi.derivedStore source t = GameStatsApi.derivedStore source s := by
  rw [derivedStore_eq_derived, derivedStore_eq_derived, h]

/-- A clean state holds the values its inputs give. -/
def Current (source : ActorStatSource) (st : ActorStatState Source Detail) : Prop :=
  st.isDirty = false → st.computed = GameStatsApi.derivedStore source st ∧ CapsOk st.computed

theorem current_of_dirty {source : ActorStatSource} {st : ActorStatState Source Detail} (h : st.dirty = true) :
    Current source st := fun hc => by simp [ActorStatState.isDirty, h] at hc

theorem current_setStoredStat {source : ActorStatSource} {s t : ActorStatState Source Detail} {stat : Stat} {v : Int}
    (h : s.setStoredStat stat v = .ok t) (hc : Current source s) : Current source t := by
  unfold ActorStatState.setStoredStat at h
  split at h
  · cases h
  · split at h
    · cases h
    · split at h
      · cases h; exact current_of_dirty rfl
      · cases h; exact hc

theorem current_setPlayerProgression {source : ActorStatSource} {s : ActorStatState Source Detail}
    (hc : Current source s) (p : PlayerProgressionState) : Current source (s.setPlayerProgression p) := by
  have hstep : ∀ {u : ActorStatState Source Detail} (stat : Stat) (v : Int), Current source u →
      Current source (u.setBaseProjectionStat stat v) := by
    intro u stat v hu
    unfold ActorStatState.setBaseProjectionStat
    split
    · exact current_of_dirty rfl
    · exact hu
  have h0 : Current source ({ s with progression := p.normalized } : ActorStatState Source Detail) := hc
  exact hstep _ _ (hstep _ _ (hstep _ _ (hstep _ _ h0)))

theorem writeRel_current (source : ActorStatSource) :
    WriteRel fun s t : ActorStatState Source Detail => Current source s → Current source t where
  refl _ h := h
  trans _ _ _ h1 h2 h := h2 (h1 h)
  stored _ _ _ _ _ _ h hc := current_setStoredStat h hc
  progression _ p _ hc := current_setPlayerProgression hc p
  resource s t stat v h hc := by
    unfold ActorStatState.setResourceStat at h
    cases stat <;> first
      | cases h
      | (simp only at h
         split at h
         · cases h; exact current_of_dirty rfl
         · cases h; exact hc)
  flags s flags hc := by
    unfold ActorStatState.setExternalImmuneFlags
    split
    · exact current_of_dirty rfl
    · exact hc
  stableId s id hc := by
    unfold ActorStatState.setStableId
    split
    · exact current_of_dirty rfl
    · exact hc

/-- What a recomputation, and so a normalisation, leaves behind. -/
structure Normalized (source : ActorStatSource) (s t : ActorStatState Source Detail) : Prop where
  inputs : t.inputs = s.inputs
  clean : t.isDirty = false
  computed : t.computed = GameStatsApi.derivedStore source t
  caps : CapsOk t.computed

theorem recomputeReport_normalized {source : ActorStatSource} {s t : ActorStatState Source Detail}
    {report : StatRecomputeReport} (h : GameStatsApi.recomputeReport source s = some (report, t)) :
    Normalized source s t := by
  obtain ⟨r, hr, rfl, _⟩ := GameStatsApi.recomputeReport_eq_some h
  exact ⟨rfl, rfl, rfl, capsOk_of_clampToCaps hr⟩

theorem syncIfDirty_normalized {source : ActorStatSource} {s t : ActorStatState Source Detail} {sync : StatsSync}
    (hc : Current source s) (h : GameStatsApi.syncIfDirty source s = some (sync, t)) : Normalized source s t := by
  unfold GameStatsApi.syncIfDirty at h
  split at h
  · simp only [GameStatsApi.sync, Option.bind_eq_bind, Option.bind_eq_some_iff, Option.pure_def, Option.some.injEq] at h
    obtain ⟨⟨report, t'⟩, hr, sy, _, he⟩ := h
    cases he
    exact recomputeReport_normalized hr
  · rename_i hd
    obtain ⟨sy, _, he⟩ := Option.map_eq_some_iff.1 h
    cases he
    rw [Bool.not_eq_true] at hd
    exact ⟨rfl, hd, (hc hd).1, (hc hd).2⟩

theorem recomputeReport_of_capsOk {source : ActorStatSource} {s : ActorStatState Source Detail}
    (h : CapsOk (GameStatsApi.derivedStore source s)) :
    ∃ report t, GameStatsApi.recomputeReport source s = some (report, t) := by
  obtain ⟨r, hr⟩ := clampToCaps_of_capsOk s.resources h
  rw [GameStatsApi.recomputeReport_eq, hr]
  exact ⟨_, _, rfl⟩

end

/-! ## Stored writes -/

/-- A write of this value to this statistic is within the source's limit. -/
def WithinLimit (source : ActorStatSource) (stat : Stat) (v : Int) : Prop :=
  validateStoredWriteLimit source stat v = some (.ok ())

theorem withinLimit_of_unlimited {source : ActorStatSource} {stat : Stat} (h : source.storedWriteLimit stat = none)
    (v : Int) :
    WithinLimit source stat v := by
  unfold WithinLimit validateStoredWriteLimit; rw [h]

/-- Statistics that `set_stored_stat` accepts. -/
def Stat.stored (stat : Stat) : Bool :=
  decide (stat.role = .persistent) && decide (stat ∉ [Stat.level, .exp, .nextExp, .levelStep])

theorem setStoredStat_ok {stat : Stat} (hs : stat.stored = true) (s : ActorStatState Source Detail) (v : Int) :
    ∃ t, s.setStoredStat stat v = .ok t := by
  unfold Stat.stored at hs
  simp only [Bool.and_eq_true, decide_eq_true_eq, List.mem_cons, List.not_mem_nil, or_false] at hs
  unfold ActorStatState.setStoredStat
  rw [if_neg hs.2, if_neg (not_not.2 hs.1)]
  split
  · exact ⟨_, rfl⟩
  · exact ⟨_, rfl⟩

/-- A stored write that is within its limit, forwards. -/
theorem setStoredStat_run {source : ActorStatSource} {stat : Stat} {v : Int} (hs : stat.stored = true)
    (hl : WithinLimit source stat v) (s : ActorStatState Source Detail) :
    ∃ t, (GameStatsApi.setStoredStat source stat v).run s = some (.ok (), t) := by
  obtain ⟨t, ht⟩ := setStoredStat_ok hs s v
  have hcheck : (Cmd.check (validateStoredWriteLimit source stat v) : GameStatsApi.WriteCmd Source Detail Unit).run s =
      some (.ok (), s) := by
    unfold WithinLimit at hl
    simp only [Cmd.check, hl, Option.map_some]
  refine ⟨t, ?_⟩
  unfold GameStatsApi.setStoredStat
  rw [Cmd.run_bind_ok hcheck]
  simp only [Cmd.update, ht]

/-- A stored write that succeeds, backwards. -/
theorem setStoredStat_eq_ok {source : ActorStatSource} {stat : Stat} {v : Int} {s t : ActorStatState Source Detail}
    (h : (GameStatsApi.setStoredStat source stat v).run s = some (.ok (), t)) :
    WithinLimit source stat v ∧ s.setStoredStat stat v = .ok t := by
  unfold GameStatsApi.setStoredStat at h
  rcases Cmd.bind_eq_some h with ⟨e, _, he⟩ | ⟨a, u, h1, h2⟩
  · cases he
  · simp only [Cmd.check, Option.map_eq_some_iff] at h1
    obtain ⟨r, hr, he⟩ := h1
    cases he
    simp only [Cmd.update] at h2
    split at h2
    · cases h2
    · rename_i hu
      cases h2
      exact ⟨hr, hu⟩

theorem validateStoredWriteLimit_eq_none {source : ActorStatSource} {stat : Stat} {v : Int} :
    validateStoredWriteLimit source stat v = none ↔ ∃ max, source.storedWriteLimit stat = some max ∧ max < 0 := by
  unfold validateStoredWriteLimit
  cases source.storedWriteLimit stat with
  | none => simp
  | some max => simp [clampOptional, clamp?]

theorem setStoredStat_total {source : ActorStatSource} {stat : Stat}
    (h : ∀ max, source.storedWriteLimit stat = some max → 0 ≤ max) (v : Int) :
    Cmd.Total (GameStatsApi.setStoredStat source stat v : GameStatsApi.WriteCmd Source Detail Unit) := by
  unfold GameStatsApi.setStoredStat
  refine Cmd.total_bind ?_ fun _ => Cmd.total_update _
  intro s hs
  obtain ⟨max, hmax, hneg⟩ := validateStoredWriteLimit_eq_none.1 (Option.map_eq_none_iff.1 hs)
  exact absurd (h max hmax) (by omega)

/-- The write limits of a source are not negative, so that checking a write asserts nothing false. -/
def LimitsOk (source : ActorStatSource) : Prop := ∀ stat max, source.storedWriteLimit stat = some max → 0 ≤ max

/-- The statistics with a limit share it, and strength is written first. -/
theorem limitsOk_of_st {source : ActorStatSource} (h : ∀ max, source.storedWriteLimit .st = some max → 0 ≤ max) :
    LimitsOk source := by
  intro stat max hmax
  by_cases hstat : stat ∈ [Stat.st, .ht, .dx, .iq]
  · refine h max ?_
    rw [← hmax]
    cases source with
    | mob _ => rfl
    | player s =>
      simp only [List.mem_cons, List.not_mem_nil, or_false] at hstat
      rcases hstat with rfl | rfl | rfl | rfl <;> rfl
  · rw [ActorStatSource.storedWriteLimit_eq_none hstat] at hmax
    cases hmax

theorem setStableId_inputs (s : ActorStatState Source Detail) (id : Option UInt64) :
    (s.setStableId id).inputs = s.inputs.identify id := by
  unfold ActorStatState.setStableId
  split
  · rfl
  · rename_i h
    rw [not_not] at h
    rw [← h]
    rfl

/-! ## The hydrated player -/

/-- The stored values of a player. -/
def playerBase (p : PlayerProgressionState) (stats : PlayerStats) (statPoints statResetCount : Int) : PointValueStore :=
  ⟨fun
    | .level => p.level
    | .exp => clampU32ToI32 p.expInLevel
    | .nextExp => clampU32ToI32 p.nextExpInLevel
    | .levelStep => p.levelStep
    | .st => stats.statStr
    | .ht => stats.statVit
    | .dx => stats.statDex
    | .iq => stats.statInt
    | .statPoints => statPoints
    | .statResetCount => statResetCount
    | _ => 0⟩

/-- The inputs of a player without modifiers. -/
def playerInputs (id : PlayerId) (p : PlayerProgressionState) (stats : PlayerStats) (statPoints statResetCount : Int) :
    StatInputs Unit Unit :=
  ⟨.player, some (PlayerStatRules.stableIdOf id), p, playerBase p stats statPoints statResetCount, .empty⟩

/-- The four core statistics are within the limits of the source. -/
structure CoreWithinLimits (source : ActorStatSource) (stats : PlayerStats) : Prop where
  st : WithinLimit source .st stats.statStr
  ht : WithinLimit source .ht stats.statVit
  dx : WithinLimit source .dx stats.statDex
  iq : WithinLimit source .iq stats.statInt

theorem withinLimit_statPoints (source : ActorStatSource) (v : Int) : WithinLimit source .statPoints v :=
  withinLimit_of_unlimited (ActorStatSource.storedWriteLimit_eq_none (by decide)) v

theorem withinLimit_statResetCount (source : ActorStatSource) (v : Int) : WithinLimit source .statResetCount v :=
  withinLimit_of_unlimited (ActorStatSource.storedWriteLimit_eq_none (by decide)) v

namespace PlayerStatRules

variable {source : ActorStatSource} {b : PlayerGameplayBootstrap} {stats : PlayerStats} {p : PlayerProgressionState}

theorem hydrateWrites_run (h : CoreWithinLimits source stats) (s : ActorStatState Unit Unit) :
    ∃ t, (hydrateWrites source b stats p).run s = some (.ok (), t) := by
  let s2 := (s.setStableId (some (stableIdOf b.playerId))).setPlayerProgression p
  have hpre : (hydrateWrites source b stats p).run s = ((do
      GameStatsApi.setStoredStat source .st stats.statStr
      GameStatsApi.setStoredStat source .ht stats.statVit
      GameStatsApi.setStoredStat source .dx stats.statDex
      GameStatsApi.setStoredStat source .iq stats.statInt
      GameStatsApi.setStoredStat source .statPoints
        (deriveAvailableStatPoints p.level p.levelStep b.coreStatAllocations)
      GameStatsApi.setStoredStat source .statResetCount b.statResetCount) : GameStatsApi.WriteCmd Unit Unit Unit).run
        s2 := rfl
  rw [hpre]
  obtain ⟨t1, h1⟩ := setStoredStat_run (by decide) h.st s2
  obtain ⟨t2, h2⟩ := setStoredStat_run (by decide) h.ht t1
  obtain ⟨t3, h3⟩ := setStoredStat_run (by decide) h.dx t2
  obtain ⟨t4, h4⟩ := setStoredStat_run (by decide) h.iq t3
  obtain ⟨t5, h5⟩ := setStoredStat_run (by decide) (withinLimit_statPoints source
    (deriveAvailableStatPoints p.level p.levelStep b.coreStatAllocations)) t4
  obtain ⟨t6, h6⟩ := setStoredStat_run (by decide) (withinLimit_statResetCount source b.statResetCount) t5
  rw [Cmd.run_bind_ok h1, Cmd.run_bind_ok h2, Cmd.run_bind_ok h3, Cmd.run_bind_ok h4, Cmd.run_bind_ok h5]
  exact ⟨t6, h6⟩

/-- The writes that return a value, without a bound on the level. -/
theorem hydrateWrites_inputs {t : ActorStatState Unit Unit}
    (h : (hydrateWrites source b stats p).run (.new .player) = some (.ok (), t)) :
    CoreWithinLimits source stats ∧ t.inputs = playerInputs b.playerId p.normalized stats
      (deriveAvailableStatPoints p.level p.levelStep b.coreStatAllocations) b.statResetCount := by
  unfold hydrateWrites at h
  obtain ⟨_, s1, h1, h⟩ := Cmd.bind_eq_ok h
  obtain ⟨_, s2, h2, h⟩ := Cmd.bind_eq_ok h
  obtain ⟨_, s3, h3, h⟩ := Cmd.bind_eq_ok h
  obtain ⟨_, s4, h4, h⟩ := Cmd.bind_eq_ok h
  obtain ⟨_, s5, h5, h⟩ := Cmd.bind_eq_ok h
  obtain ⟨_, s6, h6, h⟩ := Cmd.bind_eq_ok h
  obtain ⟨_, s7, h7, h8⟩ := Cmd.bind_eq_ok h
  cases h1
  cases h2
  obtain ⟨l3, w3⟩ := setStoredStat_eq_ok h3
  obtain ⟨l4, w4⟩ := setStoredStat_eq_ok h4
  obtain ⟨l5, w5⟩ := setStoredStat_eq_ok h5
  obtain ⟨l6, w6⟩ := setStoredStat_eq_ok h6
  obtain ⟨-, w7⟩ := setStoredStat_eq_ok h7
  obtain ⟨-, w8⟩ := setStoredStat_eq_ok h8
  refine ⟨⟨l3, l4, l5, l6⟩, ?_⟩
  rw [setStoredStat_inputs w8, setStoredStat_inputs w7, setStoredStat_inputs w6, setStoredStat_inputs w5,
    setStoredStat_inputs w4, setStoredStat_inputs w3, setPlayerProgression_inputs, setStableId_inputs]
  refine congrArg (StatInputs.mk _ _ _ · _) (PointValueStore.ext_get fun stat => ?_)
  cases stat <;> rfl

theorem hydrateWrites_eq_ok {t : ActorStatState Unit Unit} (hp : 0 ≤ p.level)
    (h : (hydrateWrites source b stats p).run (.new .player) = some (.ok (), t)) :
    CoreWithinLimits source stats ∧ t.inputs = playerInputs b.playerId p stats
      (deriveAvailableStatPoints p.level p.levelStep b.coreStatAllocations) b.statResetCount := by
  have hin := hydrateWrites_inputs h
  rwa [PlayerProgressionState.normalized_of_nonneg hp] at hin

/-- The writes fail no assertion exactly if the limits they are checked against are not negative. -/
theorem hydrateWrites_ne_none_iff (s : ActorStatState Unit Unit) :
    (hydrateWrites source b stats p).run s ≠ none ↔ LimitsOk source := by
  constructor
  · refine fun h => limitsOk_of_st fun max hmax => ?_
    by_contra hneg
    refine h ?_
    let s2 := (s.setStableId (some (stableIdOf b.playerId))).setPlayerProgression p
    have hcheck :
      (Cmd.check (validateStoredWriteLimit source .st stats.statStr) : GameStatsApi.WriteCmd Unit Unit Unit).run s2 =
        none := Option.map_eq_none_iff.2 (validateStoredWriteLimit_eq_none.2 ⟨max, hmax, by omega⟩)
    have hst : (GameStatsApi.setStoredStat source .st stats.statStr : GameStatsApi.WriteCmd Unit Unit Unit).run s2 =
        none :=
      Cmd.run_bind_none hcheck
    unfold hydrateWrites
    rw [Cmd.run_bind_ok (a := ()) (t := s.setStableId (some (stableIdOf b.playerId))) rfl,
      Cmd.run_bind_ok (a := ()) (t := s2) rfl]
    exact Cmd.run_bind_none hst
  · intro h
    unfold hydrateWrites
    refine Cmd.total_bind (Cmd.total_update _) (fun _ => ?_) s
    refine Cmd.total_bind (Cmd.total_update _) fun _ => ?_
    refine Cmd.total_bind (setStoredStat_total (h _) _) fun _ => ?_
    refine Cmd.total_bind (setStoredStat_total (h _) _) fun _ => ?_
    refine Cmd.total_bind (setStoredStat_total (h _) _) fun _ => ?_
    refine Cmd.total_bind (setStoredStat_total (h _) _) fun _ => ?_
    refine Cmd.total_bind (setStoredStat_total (h _) _) fun _ => ?_
    exact setStoredStat_total (h _) _

end PlayerStatRules

/-! ## Resources and public state -/

/-- A resource write keeps the inputs and the computed values. -/
def KeepsStores (s t : ActorStatState Source Detail) : Prop := t.inputs = s.inputs ∧ t.computed = s.computed

theorem resourceRel_keepsStores : ResourceRel (@KeepsStores Source Detail _) where
  refl _ := ⟨rfl, rfl⟩
  trans _ _ _ h1 h2 := ⟨h2.1.trans h1.1, h2.2.trans h1.2⟩
  resource s t stat v h := by
    unfold ActorStatState.setResourceStat at h
    cases stat <;> first
      | cases h
      | (simp only at h; split at h <;> cases h <;> exact ⟨rfl, rfl⟩)

theorem setResource_run {s : ActorStatState Source Detail} (h : CapsOk s.computed) {stat : Stat}
    (hstat : stat = .hp ∨ stat = .sp ∨ stat = .stamina) (v : Int) :
    ∃ c t, (GameStatsApi.setResource stat v).run s = some (.ok c, t) ∧ KeepsStores s t := by
  obtain ⟨cap, hcap, hpos⟩ : ∃ cap, currentResourceCap s stat = .ok cap ∧ 0 ≤ cap := by
    obtain ⟨h1, h2, h3⟩ := h
    rcases hstat with rfl | rfl | rfl
    · exact ⟨_, rfl, h1⟩
    · exact ⟨_, rfl, h2⟩
    · exact ⟨_, rfl, h3⟩
  obtain ⟨t, -, hrun⟩ := GameStatsApi.setResource_run_ok hcap hpos v
  exact ⟨_, t, hrun, GameStatsApi.keeps_setResource resourceRel_keepsStores stat v s _ t hrun⟩

/-- The view limits of a source are not negative, so that reading a limited value asserts nothing false. -/
def ViewOk (source : ActorStatSource) : Prop :=
  (∀ m, source.viewLimit .movSpeed = some m → 0 ≤ m) ∧ ∀ m, source.viewLimit .attSpeed = some m → 0 ≤ m

theorem readLimitedValue_isSome {source : ActorStatSource} {st : ActorStatState Source Detail} {stat : Stat} :
    (st.readLimitedValue source stat).isSome ↔ ∀ m, source.viewLimit stat = some m → 0 ≤ m := by
  unfold ActorStatState.readLimitedValue
  rcases source.viewLimit stat with _ | m
  · simp
  · simp only [Option.some.injEq, forall_eq', clamp?]
    split <;> simp [*]

theorem publicState_isSome {source : ActorStatSource} {st : ActorStatState Source Detail} :
    (GameStatsApi.publicState source st).isSome ↔ ViewOk source := by
  have h : (GameStatsApi.publicState source st).isSome ↔
      (st.readLimitedValue source .movSpeed).isSome ∧ (st.readLimitedValue source .attSpeed).isSome := by
    unfold GameStatsApi.publicState GameStatsApi.publicStats
    rcases st.readLimitedValue source .movSpeed with _ | a <;> rcases st.readLimitedValue source .attSpeed
      with _ | c <;> simp
  rw [h, readLimitedValue_isSome, readLimitedValue_isSome]
  rfl

theorem readLimitedValue_capacity (source : ActorStatSource) (st : ActorStatState Source Detail) {stat : Stat}
    (h : stat = .maxHp ∨ stat = .maxSp ∨ stat = .maxStamina) : ∃ v, st.readLimitedValue source stat = some v := by
  unfold ActorStatState.readLimitedValue
  have hv : source.viewLimit stat = none := by
    rcases h with rfl | rfl | rfl <;> cases source <;> rfl
  rw [hv]
  exact ⟨_, rfl⟩

/-! ## Hydration succeeds exactly on these conditions -/

namespace PlayerStatRules

variable [GrowthRng]

/-- What `hydrate_player` needs of its rules and its bootstrap. -/
structure Hydratable (r : PlayerStatRules) (b : PlayerGameplayBootstrap) (source : ActorStatSource)
    (stats : PlayerStats)
    (p : PlayerProgressionState) : Prop where
  hasSource : r.classStats.statSourceForClass b.playerClass = some source
  hasStats : r.classStats.resolvePlayerStats b.playerClass b.coreStatAllocations = some stats
  hasProgression : r.levelExp.progressionForLevel b.level b.expInLevel = some p
  kind : source.actorKind = .player
  limits : CoreWithinLimits source stats
  caps : CapsOk ((playerInputs b.playerId p stats
    (deriveAvailableStatPoints p.level p.levelStep b.coreStatAllocations) b.statResetCount).derived source)
  view : ViewOk source

/-- What it returns. -/
structure HydratedAs (b : PlayerGameplayBootstrap) (source : ActorStatSource) (stats : PlayerStats)
    (p : PlayerProgressionState) (h : HydratedPlayerStats) : Prop where
  hasSource : h.source = source
  inputs : h.state.inputs = playerInputs b.playerId p stats
    (deriveAvailableStatPoints p.level p.levelStep b.coreStatAllocations) b.statResetCount
  clean : h.state.isDirty = false
  computed : h.state.computed = h.state.inputs.derived source

omit [GrowthRng] in
theorem hydrateResources_keeps (b : PlayerGameplayBootstrap) (x y z : Int) :
    Cmd.Keeps KeepsStores (hydrateResources b x y z) := by
  unfold hydrateResources
  refine Cmd.keeps_bind resourceRel_keepsStores.trans
    (GameStatsApi.keeps_setResource resourceRel_keepsStores _ _) fun _ => ?_
  refine Cmd.keeps_bind resourceRel_keepsStores.trans
    (GameStatsApi.keeps_setResource resourceRel_keepsStores _ _) fun _ => ?_
  refine Cmd.keeps_bind resourceRel_keepsStores.trans
    (GameStatsApi.keeps_setResource resourceRel_keepsStores _ _) fun _ => ?_
  exact Cmd.keeps_pure resourceRel_keepsStores.refl _

omit [GrowthRng] in
theorem hydrateResources_run {s : ActorStatState Unit Unit} (h : CapsOk s.computed) (b : PlayerGameplayBootstrap)
    (x y z : Int) : ∃ t, (hydrateResources b x y z).run s = some (.ok (), t) := by
  obtain ⟨c1, t1, h1, k1⟩ := setResource_run h (.inl rfl) (b.currentHp.getD x)
  have hc1 : CapsOk t1.computed := by rw [k1.2]; exact h
  obtain ⟨c2, t2, h2, k2⟩ := setResource_run hc1 (.inr (.inl rfl)) (b.currentSp.getD y)
  have hc2 : CapsOk t2.computed := by rw [k2.2]; exact hc1
  obtain ⟨c3, t3, h3, k3⟩ := setResource_run hc2 (.inr (.inr rfl)) (b.currentStamina.getD z)
  unfold hydrateResources
  rw [Cmd.run_bind_ok h1, Cmd.run_bind_ok h2, Cmd.run_bind_ok h3]
  exact ⟨t3, rfl⟩

theorem hydratePlayer_eq_some {r : PlayerStatRules} {b : PlayerGameplayBootstrap} {h : HydratedPlayerStats}
    (hlevel : 0 ≤ b.level) (hh : r.hydratePlayer b = some (some h)) :
    ∃ source stats p, Hydratable r b source stats p ∧ HydratedAs b source stats p h := by
  unfold hydratePlayer at hh
  split at hh
  · rename_i source stats p h1 h2 h3
    dsimp only at hh
    split at hh
    · cases hh
    · rename_i hkind
      rw [not_not] at hkind
      split at hh
      · cases hh
      · cases hh
      · rename_i s1 hw
        have hp : 0 ≤ p.level := by
          obtain ⟨e, _, rfl⟩ := Option.map_eq_some_iff.1 h3
          exact hlevel
        obtain ⟨limits, hin⟩ := hydrateWrites_eq_ok hp hw
        simp only [Option.bind_eq_bind, Option.bind_eq_some_iff] at hh
        obtain ⟨⟨report, s2⟩, hr, x, _, y, _, z, _, hh⟩ := hh
        have n2 := recomputeReport_normalized hr
        split at hh
        · cases hh
        · cases hh
        · rename_i s3 hres
          obtain ⟨k1, k2⟩ := hydrateResources_keeps b x y z _ _ _ hres
          simp only [Option.bind_eq_some_iff, Option.pure_def, Option.some.injEq] at hh
          obtain ⟨⟨bs, s4⟩, hb, rfl⟩ := hh
          simp only [GameStatsApi.bootstrapSync, Option.bind_eq_bind, Option.bind_eq_some_iff, Option.pure_def,
            Option.some.injEq] at hb
          obtain ⟨⟨report', s5⟩, hr', ps, hps, he⟩ := hb
          cases he
          have n5 := recomputeReport_normalized hr'
          have hinputs : s5.inputs = playerInputs b.playerId p stats
              (deriveAvailableStatPoints p.level p.levelStep b.coreStatAllocations) b.statResetCount := by
            rw [n5.inputs, k1, n2.inputs, hin]
          refine ⟨source, stats, p, ⟨h1, h2, h3, hkind.symm, limits, ?_, ?_⟩, rfl, hinputs, n5.clean, n5.computed⟩
          · rw [← hinputs, ← derivedStore_eq_derived, ← n5.computed]; exact n5.caps
          · exact publicState_isSome.1 (Option.isSome_iff_exists.2 ⟨ps, hps⟩)
  · cases hh

theorem hydratePlayer_of_hydratable {r : PlayerStatRules} {b : PlayerGameplayBootstrap} {source : ActorStatSource}
    {stats : PlayerStats} {p : PlayerProgressionState} (hlevel : 0 ≤ b.level) (hy : Hydratable r b source stats p) :
    ∃ h, r.hydratePlayer b = some (some h) ∧ HydratedAs b source stats p h := by
  have hp : 0 ≤ p.level := by
    obtain ⟨e, _, rfl⟩ := Option.map_eq_some_iff.1 hy.hasProgression
    exact hlevel
  obtain ⟨s1, hw⟩ := hydrateWrites_run (b := b) (p := p) hy.limits (.new .player)
  obtain ⟨_, hin⟩ := hydrateWrites_eq_ok hp hw
  have hcaps : CapsOk (GameStatsApi.derivedStore source s1) := by rw [derivedStore_eq_derived, hin]; exact hy.caps
  obtain ⟨report, s2, hr⟩ := recomputeReport_of_capsOk hcaps
  have n2 := recomputeReport_normalized hr
  obtain ⟨x, hx⟩ := readLimitedValue_capacity source s2 (.inl rfl)
  obtain ⟨y, hy'⟩ := readLimitedValue_capacity source s2 (.inr (.inl rfl))
  obtain ⟨z, hz⟩ := readLimitedValue_capacity source s2 (.inr (.inr rfl))
  obtain ⟨s3, hres⟩ := hydrateResources_run n2.caps b x y z
  obtain ⟨k1, _⟩ := hydrateResources_keeps b x y z _ _ _ hres
  have hcaps' : CapsOk (GameStatsApi.derivedStore source s3) := by
    rw [derivedStore_congr (k1.trans n2.inputs)]; exact hcaps
  obtain ⟨report', s4, hr'⟩ := recomputeReport_of_capsOk hcaps'
  obtain ⟨ps, hps⟩ := Option.isSome_iff_exists.1
    ((publicState_isSome).2 hy.view : (GameStatsApi.publicState source s4).isSome)
  have hrun : r.hydratePlayer b = some (some ⟨source, s4, ⟨report'.changes, .fromState s4, ps⟩⟩) := by
    unfold hydratePlayer
    simp only [hy.hasSource, hy.hasStats, hy.hasProgression]
    rw [if_neg (not_not.2 (show (ActorStatState.new .player : ActorStatState Unit Unit).kind = _ from hy.kind.symm)),
      hw]
    simp only [hr, hx, hy', hz, hres, GameStatsApi.bootstrapSync, hr', hps, Option.bind_eq_bind, Option.bind_some,
      Option.pure_def]
  obtain ⟨source', stats', p', hy2, has⟩ := hydratePlayer_eq_some hlevel hrun
  cases hy.hasSource.symm.trans hy2.hasSource
  cases hy.hasStats.symm.trans hy2.hasStats
  cases hy.hasProgression.symm.trans hy2.hasProgression
  exact ⟨_, hrun, has⟩

/-! ## Hydration fails no assertion exactly on these -/

/-- The assertions of a hydration hold: the source is a player's, its limits are not negative, and neither are the
capacities that statistics within the limits give. -/
structure AssertsHold (b : PlayerGameplayBootstrap) (source : ActorStatSource) (stats : PlayerStats)
    (p : PlayerProgressionState) : Prop where
  kind : source.actorKind = .player
  limits : LimitsOk source
  caps : CoreWithinLimits source stats → CapsOk ((playerInputs b.playerId p.normalized stats
    (deriveAvailableStatPoints p.level p.levelStep b.coreStatAllocations) b.statResetCount).derived source)
  view : CoreWithinLimits source stats → ViewOk source

/-- For the tables' answers on a player, its hydration fails no assertion. -/
def HydratesSafely (r : PlayerStatRules) (b : PlayerGameplayBootstrap) : Prop :=
  ∀ source stats p, r.classStats.statSourceForClass b.playerClass = some source →
    r.classStats.resolvePlayerStats b.playerClass b.coreStatAllocations = some stats →
    r.levelExp.progressionForLevel b.level b.expInLevel = some p → AssertsHold b source stats p

variable {r : PlayerStatRules} {b : PlayerGameplayBootstrap} {source : ActorStatSource}

/-- After the writes: the rest fails no assertion exactly if the capacities and the view limits are not negative. -/
theorem hydrate_rest_ne_none_iff {s1 : ActorStatState Unit Unit} :
    (do
      let (_, st) ← GameStatsApi.recomputeReport source s1
      let maxHp ← st.readLimitedValue source .maxHp
      let maxSp ← st.readLimitedValue source .maxSp
      let maxStamina ← st.readLimitedValue source .maxStamina
      match (hydrateResources b maxHp maxSp maxStamina).run st with
      | none => none
      | some (.error _, _) => some none
      | some (.ok (), st) => do
        let (bootstrapSync, st) ← GameStatsApi.bootstrapSync source st
        return some (HydratedPlayerStats.mk source st bootstrapSync)) ≠ none ↔
      CapsOk (s1.inputs.derived source) ∧ ViewOk source := by
  rw [← derivedStore_eq_derived]
  by_cases hcaps : CapsOk (GameStatsApi.derivedStore source s1)
  · obtain ⟨report, s2, hr⟩ := recomputeReport_of_capsOk hcaps
    have n2 := recomputeReport_normalized hr
    obtain ⟨x, hx⟩ := readLimitedValue_capacity source s2 (.inl rfl)
    obtain ⟨y, hy⟩ := readLimitedValue_capacity source s2 (.inr (.inl rfl))
    obtain ⟨z, hz⟩ := readLimitedValue_capacity source s2 (.inr (.inr rfl))
    obtain ⟨s3, hres⟩ := hydrateResources_run n2.caps b x y z
    obtain ⟨k1, _⟩ := hydrateResources_keeps b x y z _ _ _ hres
    obtain ⟨report', s4, hr'⟩ := recomputeReport_of_capsOk
      (show CapsOk (GameStatsApi.derivedStore source s3) by rw [derivedStore_congr (k1.trans n2.inputs)]; exact hcaps)
    have hview : (GameStatsApi.publicState source s4).isSome ↔ ViewOk source := publicState_isSome
    simp only [hr, hx, hy, hz, hres, GameStatsApi.bootstrapSync, hr', Option.bind_eq_bind, Option.bind_some,
      Option.pure_def,
      hcaps, true_and, ← hview]
    cases GameStatsApi.publicState source s4 with
    | none => simp
    | some ps => simp
  · have hr : GameStatsApi.recomputeReport source s1 = none := by
      rw [← Option.not_isSome_iff_eq_none, Option.isSome_iff_exists]
      rintro ⟨⟨report, s2⟩, hr⟩
      have n2 := recomputeReport_normalized hr
      refine hcaps ?_
      rw [← derivedStore_congr n2.inputs, ← n2.computed]
      exact n2.caps
    simp [hr, hcaps]

theorem hydratePlayer_ne_none_iff : r.hydratePlayer b ≠ none ↔ r.HydratesSafely b := by
  constructor
  · intro h source stats p h1 h2 h3
    unfold hydratePlayer at h
    simp only [h1, h2, h3] at h
    split at h
    · exact absurd rfl h
    rename_i hkind
    have hw : (hydrateWrites source b stats p).run (.new .player) ≠ none := by
      intro hw
      rw [hw] at h
      exact h rfl
    have hrest : CoreWithinLimits source stats → CapsOk ((playerInputs b.playerId p.normalized stats
        (deriveAvailableStatPoints p.level p.levelStep b.coreStatAllocations) b.statResetCount).derived source) ∧
        ViewOk source := by
      intro hwithin
      obtain ⟨s1, hs1⟩ := hydrateWrites_run (b := b) (p := p) hwithin (.new .player)
      rw [hs1] at h
      rw [← (hydrateWrites_inputs hs1).2]
      exact hydrate_rest_ne_none_iff.1 h
    exact ⟨(not_not.1 hkind).symm, (hydrateWrites_ne_none_iff _).1 hw, fun hc => (hrest hc).1, fun hc => (hrest hc).2⟩
  · intro h
    unfold hydratePlayer
    split
    · rename_i source stats p h1 h2 h3
      obtain ⟨hkind, hlimits, hcaps, hview⟩ := h source stats p h1 h2 h3
      dsimp only
      rw [if_neg (not_not.2 (show (ActorStatState.new .player : ActorStatState Unit Unit).kind = _ from hkind.symm))]
      split
      · rename_i hw
        exact absurd hw ((hydrateWrites_ne_none_iff _).2 hlimits)
      · exact Option.some_ne_none _
      · rename_i s1 hs1
        obtain ⟨hwithin, hin⟩ := hydrateWrites_inputs hs1
        refine hydrate_rest_ne_none_iff.2 ⟨?_, hview hwithin⟩
        rw [hin]
        exact hcaps hwithin
    · exact Option.some_ne_none _

end PlayerStatRules

end Zohar.Stats
