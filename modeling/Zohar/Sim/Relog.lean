/-
A player who plays and logs in again finds the same character: after any run of rewards and core-stat
intents, the live statistics are those that `hydrate_player` builds from the progression a save would
store. The invariant of the run says just that: the inputs of the live actor are the inputs of a
hydrated one, and its computed values are the ones they give.
-/
import Zohar.Lib.Run
import Zohar.Sim.Player
import Zohar.Stats.Hydrate

namespace Zohar.Sim

open Zohar.Lib Zohar.Stats PlayerStatRules

section
variable [GrowthRng]

/-! ## The invariant -/

/-- The points a live player holds. -/
def availablePoints (b : PlayerGameplayBootstrap) (prog : PlayerProgressionState) : Int :=
  deriveAvailableStatPoints prog.level prog.levelStep b.coreStatAllocations

/-- No allocation is negative and no more points are spent than earned. -/
structure Affordable (a : CoreStatAllocations) (prog : PlayerProgressionState) : Prop where
  nonneg : ∀ kind, 0 ≤ allocationOf a kind
  spent : spentStatPoints a ≤ prog.earned

structure LiveOk (rules : PlayerStatRules) (source : ActorStatSource) (stats : PlayerStats)
    (prog : PlayerProgressionState)
    (p : LivePlayer) : Prop where
  hydratable : Hydratable rules p.progression source stats prog
  hasSource : p.stats.source = source
  inputs : p.stats.state.inputs =
    playerInputs p.progression.playerId prog stats (availablePoints p.progression prog) p.progression.statResetCount
  clean : p.stats.state.isDirty = false
  computed : p.stats.state.computed = p.stats.state.inputs.derived source
  affordable : Affordable p.progression.coreStatAllocations prog

omit [GrowthRng] in
theorem spentStatPoints_eq (a : CoreStatAllocations) :
    spentStatPoints a = allocationOf a .st + allocationOf a .ht + allocationOf a .dx + allocationOf a .iq := rfl

omit [GrowthRng] in
theorem Affordable.bounds {a : CoreStatAllocations} {prog : PlayerProgressionState} (h : Affordable a prog)
    (kind : CoreStatKind) :
    0 ≤ spentStatPoints a ∧ spentStatPoints a ≤ 270 ∧ allocationOf a kind ≤ spentStatPoints a := by
  have he := earnedStatPoints_mem prog.level prog.levelStep
  have hs := h.spent
  have h1 := h.nonneg .st
  have h2 := h.nonneg .ht
  have h3 := h.nonneg .dx
  have h4 := h.nonneg .iq
  unfold PlayerProgressionState.earned at hs
  rw [spentStatPoints_eq] at hs ⊢
  cases kind <;> omega

omit [GrowthRng] in
theorem availablePoints_eq {b : PlayerGameplayBootstrap} {prog : PlayerProgressionState}
    (h : Affordable b.coreStatAllocations prog) :
    availablePoints b prog = prog.earned - spentStatPoints b.coreStatAllocations := by
  have he := earnedStatPoints_mem prog.level prog.levelStep
  have hs := h.spent
  have h0 := (h.bounds .st).1
  unfold availablePoints
  rw [deriveAvailableStatPoints_eq]
  unfold PlayerProgressionState.earned at *
  unfold clampInt i32Max
  omega

/-- A player source leaves the points as they are stored. -/
theorem derived_statPoints {id : PlayerId} {prog : PlayerProgressionState} {stats : PlayerStats} {pts reset : Int}
    {source : ActorStatSource} (h : source.actorKind = .player) :
    ((playerInputs id prog stats pts reset).derived source).get .statPoints = pts := by
  cases source with
  | mob _ => cases h
  | player player => rfl

theorem LiveOk.current {rules : PlayerStatRules} {source : ActorStatSource} {stats : PlayerStats}
    {prog : PlayerProgressionState} {p : LivePlayer} (h : LiveOk rules source stats prog p) :
    Current source p.stats.state := fun _ => by
  refine ⟨h.computed, ?_⟩
  rw [h.computed, h.inputs]
  exact h.hydratable.caps

theorem LiveOk.readStatPoints {rules : PlayerStatRules} {source : ActorStatSource} {stats : PlayerStats}
    {prog : PlayerProgressionState} {p : LivePlayer} (h : LiveOk rules source stats prog p) :
    p.stats.readPacket .statPoints = availablePoints p.progression prog := by
  show p.stats.state.computed.get .statPoints = _
  rw [h.computed, h.inputs]
  exact derived_statPoints h.hydratable.kind

/-! ## Runtime commands -/

/-- Where a runtime ends after writes and a normalisation: same source, known inputs, nothing left to recompute. -/
structure Settled (rt rt' : ActorStatsRuntime) (i : StatInputs Unit Unit) : Prop where
  source : rt'.source = rt.source
  inputs : rt'.state.inputs = i
  clean : rt'.state.isDirty = false
  computed : rt'.state.computed = rt'.state.inputs.derived rt.source
  caps : CapsOk (rt'.state.inputs.derived rt.source)

theorem normalize_settled {rt rt' : ActorStatsRuntime} {sync : StatsSync} (hc : Current rt.source rt.state)
    (h : rt.normalize = some (sync, rt')) : Settled rt rt' rt.state.inputs := by
  unfold ActorStatsRuntime.normalize at h
  split at h
  · cases h
  · obtain ⟨⟨sy, st⟩, hs, he⟩ := Option.map_eq_some_iff.1 h
    cases he
    have n := syncIfDirty_normalized hc hs
    exact ⟨rfl, n.inputs, n.clean, n.computed, by rw [← derivedStore_eq_derived, ← n.computed]; exact n.caps⟩

omit [GrowthRng] in
theorem withApi_eq_some {ε α : Type} {c : Cmd ε (ActorStatState Unit Unit) α} {rt rt' : ActorStatsRuntime}
    {r : Except ε α} (h : (withApi c).run rt = some (r, rt')) :
    ∃ st, c.run rt.state = some (r, st) ∧ rt' = { rt with state := st } := by
  simp only [withApi] at h
  split at h
  · cases h
  · obtain ⟨⟨a, st⟩, hc, he⟩ := Option.map_eq_some_iff.1 h
    cases he
    exact ⟨st, hc, rfl⟩

/-- A stored write forwards, with what it does to the inputs. -/
theorem write_run {source : ActorStatSource} {stat : Stat} {v : Int} (hs : stat.stored = true)
    (hl : WithinLimit source stat v) (s : ActorStatState Unit Unit) :
    ∃ t, (GameStatsApi.setStoredStat source stat v).run s = some (.ok (), t) ∧
      t.inputs = s.inputs.write stat v ∧ (Current source s → Current source t) := by
  obtain ⟨t, ht⟩ := setStoredStat_run hs hl s
  obtain ⟨_, hw⟩ := setStoredStat_eq_ok ht
  exact ⟨t, ht, setStoredStat_inputs hw, current_setStoredStat hw⟩

/-! ## Rewards -/

theorem rewardWrites_run {source : ActorStatSource} (points : Int) {out : PlayerMobExpRewardOutcome}
    (hp : 0 ≤ out.progression.level) (s : ActorStatState Unit Unit) :
    ∃ t, (rewardWrites source points out).run s = some (.ok (), t) ∧ (Current source s → Current source t) ∧
      t.inputs = if out.statPointsGained > 0 then
        (s.inputs.project out.progression).write .statPoints (satI32 (points + out.statPointsGained))
      else s.inputs.project out.progression := by
  have hproj : (s.setPlayerProgression out.progression).inputs = s.inputs.project out.progression := by
    rw [setPlayerProgression_inputs, PlayerProgressionState.normalized_of_nonneg hp]
  have hrun : ∀ c : StatsCmd RewardError Unit, ((do
      Cmd.update fun st => .ok (st.setPlayerProgression out.progression)
      c) : StatsCmd RewardError Unit).run s = c.run (s.setPlayerProgression out.progression) := fun _ => rfl
  unfold rewardWrites
  rw [hrun]
  by_cases hg : out.statPointsGained > 0
  · obtain ⟨t, ht, hi, hc⟩ := write_run (by decide : Stat.statPoints.stored = true)
      (withinLimit_statPoints source (satI32 (points + out.statPointsGained))) (s.setPlayerProgression out.progression)
    rw [if_pos hg]
    refine ⟨t, Cmd.run_mapError_ok ht, fun h => hc (current_setPlayerProgression h _), ?_⟩
    rw [if_pos hg, hi, hproj]
  · rw [if_neg hg]
    refine ⟨_, rfl, fun h => current_setPlayerProgression h _, ?_⟩
    rw [if_neg hg, hproj]

theorem refillResources_run {source : ActorStatSource} {s : ActorStatState Unit Unit} (h : CapsOk s.computed) :
    ∃ t, (refillResources source).run s = some (.ok (), t) ∧ t.inputs = s.inputs ∧
      (Current source s → Current source t) := by
  have hread : ∀ {stat : Stat}, stat = .maxHp ∨ stat = .maxSp ∨ stat = .maxStamina →
      ∃ v, (readLimited source stat).run s = some (.ok v, s) := by
    intro stat hstat
    obtain ⟨v, hv⟩ := readLimitedValue_capacity source s hstat
    exact ⟨v, by simp only [readLimited, hv, Option.map_some]⟩
  have hcur : ∀ stat v, Cmd.Keeps (fun s t : ActorStatState Unit Unit => Current source s → Current source t)
      (GameStatsApi.setResource stat v) := GameStatsApi.keeps_setResource (writeRel_current source).toResourceRel
  obtain ⟨x, hx⟩ := hread (.inl rfl)
  obtain ⟨y, hy⟩ := hread (.inr (.inl rfl))
  obtain ⟨z, hz⟩ := hread (.inr (.inr rfl))
  obtain ⟨c1, t1, h1, k1⟩ := setResource_run h (.inl rfl) x
  obtain ⟨c2, t2, h2, k2⟩ := setResource_run (s := t1) (by rw [k1.2]; exact h) (.inr (.inl rfl)) y
  obtain ⟨c3, t3, h3, k3⟩ := setResource_run (s := t2) (by rw [k2.2, k1.2]; exact h) (.inr (.inr rfl)) z
  refine ⟨t3, ?_, k3.1.trans (k2.1.trans k1.1), fun hc => hcur _ _ _ _ _ h3 (hcur _ _ _ _ _ h2 (hcur _ _ _ _ _ h1 hc))⟩
  unfold refillResources
  rw [Cmd.run_bind_ok hx, Cmd.run_bind_ok hy, Cmd.run_bind_ok hz, Cmd.run_bind_ok (Cmd.run_mapError_ok h1),
    Cmd.run_bind_ok (Cmd.run_mapError_ok h2), Cmd.run_bind_ok (Cmd.run_mapError_ok h3)]
  rfl

/-- The statistics after a reward: the new progression with its points, normalised. -/
theorem rewardStats_settled {rt rt' : ActorStatsRuntime} {out : PlayerMobExpRewardOutcome}
    {r : Except RewardError StatsSync} (hp : 0 ≤ out.progression.level) (hc : Current rt.source rt.state)
    (h : (do applyRewardStats out; normalizeCmd : Cmd RewardError ActorStatsRuntime StatsSync).run rt = some (r, rt')) :
    (∃ sync, r = .ok sync) ∧ Settled rt rt' (if out.statPointsGained > 0 then
        (rt.state.inputs.project out.progression).write .statPoints
          (satI32 (rt.readPacket .statPoints + out.statPointsGained))
      else rt.state.inputs.project out.progression) := by
  obtain ⟨s1, hw, hcur, hin⟩ := @rewardWrites_run _ rt.source (rt.readPacket .statPoints) _ hp rt.state
  -- whatever the middle of the command does, it ends with a value, the written inputs and a current state
  have hmid : ∀ {r' : Except RewardError Unit} {rt1 : ActorStatsRuntime},
    (applyRewardStats out).run rt = some (r', rt1) →
      r' = .ok () ∧ rt1.source = rt.source ∧ rt1.state.inputs = s1.inputs ∧ Current rt.source rt1.state := by
    intro r' rt1 h1
    unfold applyRewardStats at h1
    rw [Cmd.run_bind_ok (a := rt.readPacket .statPoints) (t := rt) rfl,
      Cmd.run_bind_ok (a := rt.source) (t := rt) rfl] at h1
    rcases Cmd.bind_eq_some h1 with ⟨e, he, _⟩ | ⟨_, rt2, h2, h3⟩
    · obtain ⟨st, hst, _⟩ := withApi_eq_some he
      rw [hw] at hst
      cases hst
    · obtain ⟨st, hst, rfl⟩ := withApi_eq_some h2
      rw [hw] at hst
      cases hst
      by_cases hsteps : out.levelStepsGained > 0
      · rw [if_pos hsteps] at h3
        rcases Cmd.bind_eq_some h3 with ⟨e, he, _⟩ | ⟨sync, rt3, hn, h4⟩
        · obtain ⟨⟨_, _⟩, _, he⟩ := Option.map_eq_some_iff.1 he
          cases he
        · obtain ⟨⟨sync', rt3'⟩, hn', he⟩ := Option.map_eq_some_iff.1 hn
          cases he
          have set3 := @normalize_settled _ { rt with state := s1 } _ _ (hcur hc) hn'
          have hcaps : CapsOk rt3'.state.computed := by rw [set3.computed]; exact set3.caps
          obtain ⟨t, ht, hti, htc⟩ := @refillResources_run _ rt.source _ hcaps
          obtain ⟨st, hst, rfl⟩ := withApi_eq_some h4
          rw [ht] at hst
          cases hst
          refine ⟨rfl, set3.source, hti.trans set3.inputs, htc fun _ => ⟨set3.computed, hcaps⟩⟩
      · rw [if_neg hsteps] at h3
        cases h3
        exact ⟨rfl, rfl, rfl, hcur hc⟩
  rcases Cmd.bind_eq_some h with ⟨e, h1, _⟩ | ⟨_, rt1, h1, h2⟩
  · obtain ⟨he, _⟩ := hmid h1
    cases he
  · obtain ⟨_, hsrc, hi, hcur1⟩ := hmid h1
    obtain ⟨⟨sync, rt2⟩, hn, he⟩ := Option.map_eq_some_iff.1 h2
    cases he
    have set2 := normalize_settled (by rw [hsrc]; exact hcur1) hn
    refine ⟨⟨sync, rfl⟩, set2.source.trans hsrc, ?_, set2.clean, by rw [← hsrc]; exact set2.computed,
      by rw [← hsrc]; exact set2.caps⟩
    rw [set2.inputs, hi, hin]

omit [GrowthRng] in
/-- Experience moves only the projection of the progression and the points. -/
theorem playerInputs_project {id : PlayerId} {prog prog' : PlayerProgressionState} {stats : PlayerStats}
    {pts reset : Int} :
    (playerInputs id prog stats pts reset).project prog' = playerInputs id prog' stats pts reset := by
  refine congrArg (StatInputs.mk _ _ _ · _) (PointValueStore.ext_get fun stat => ?_)
  cases stat <;> rfl

omit [GrowthRng] in
theorem playerInputs_writePoints {id : PlayerId} {prog : PlayerProgressionState} {stats : PlayerStats}
    {pts pts' reset : Int} :
    (playerInputs id prog stats pts reset).write .statPoints pts' = playerInputs id prog stats pts' reset := by
  refine congrArg (StatInputs.mk _ _ _ · _) (PointValueStore.ext_get fun stat => ?_)
  cases stat <;> rfl

variable {rules : PlayerStatRules} {top : Int} (hv : rules.levelExp.Valid top)
include hv

/-- A reward keeps the invariant. -/
theorem applyPlayerExpReward_liveOk {source : ActorStatSource} {stats : PlayerStats} {prog : PlayerProgressionState}
    {p p' : LivePlayer} {reward : MobExpReward} (h : LiveOk rules source stats prog p)
    (hx : (applyPlayerExpReward rules reward).exec p = some p') : ∃ prog', LiveOk rules source stats prog' p' := by
  obtain ⟨r, hr⟩ := Cmd.exec_eq_some.1 hx
  simp only [applyPlayerExpReward] at hr
  split at hr
  · cases hr; exact ⟨prog, h⟩
  · rename_i out hout
    obtain ⟨⟨r', rt'⟩, hrun, he⟩ := Option.map_eq_some_iff.1 hr
    have hknown := h.hydratable.hasProgression
    obtain ⟨hlev, _, hexp, _, _⟩ := progressionForLevel_spec hv hknown
    have hp0 : rules.levelExp.progressionForLevel p.progression.level (clampI64ToU32 p.progression.expInLevel : Nat) =
        some prog := by
      have := progressionForLevel_self hv hknown
      rw [hlev, hexp] at this
      exact this
    obtain ⟨hknown', hpts, hnonneg⟩ := applyMobExpReward_spec hv rfl hp0 hout
    obtain ⟨_, ⟨hlev1, _⟩, _⟩ := progressionForLevel_spec hv hknown'
    have hcur : Current p.stats.source p.stats.state := by rw [h.hasSource]; exact h.current
    obtain ⟨⟨sync, rfl⟩, settled⟩ := rewardStats_settled (by omega) hcur hrun
    simp only at he
    cases he
    -- the points written are the points a hydrated player of the new progression has
    have hafford : Affordable p.progression.coreStatAllocations out.progression :=
      ⟨h.affordable.nonneg, by have := h.affordable.spent; omega⟩
    have hinputs : rt'.state.inputs = playerInputs p.progression.playerId out.progression stats
        (availablePoints p.progression out.progression) p.progression.statResetCount := by
      rw [settled.inputs, h.inputs, playerInputs_project, playerInputs_writePoints, h.readStatPoints,
        availablePoints_eq h.affordable, availablePoints_eq hafford]
      have hb := h.affordable.bounds .st
      have he' := earnedStatPoints_mem out.progression.level out.progression.levelStep
      have hs := hafford.spent
      unfold PlayerProgressionState.earned at *
      split
      · rw [satI32_of_mem (by unfold i32Min; omega) (by unfold i32Max; omega)]
        congr 1; omega
      · congr 1; omega
    refine ⟨out.progression, ⟨?_, ?_, ?_, ?_, ?_, ?_, ?_⟩, ?_, hinputs, settled.clean, ?_, hafford⟩
    · exact h.hydratable.hasSource
    · exact h.hydratable.hasStats
    · exact hknown'
    · exact h.hydratable.kind
    · exact h.hydratable.limits
    · have hcaps := settled.caps
      rw [hinputs, h.hasSource] at hcaps
      exact hcaps
    · exact h.hydratable.view
    · exact settled.source.trans h.hasSource
    · have hcomp := settled.computed
      rw [h.hasSource] at hcomp
      exact hcomp

end

/-! ## Core-stat intents -/

def setStat (stats : PlayerStats) (kind : CoreStatKind) (v : Int) : PlayerStats :=
  match kind with
  | .st => { stats with statStr := v }
  | .ht => { stats with statVit := v }
  | .dx => { stats with statDex := v }
  | .iq => { stats with statInt := v }

theorem playerInputs_writeStat {id : PlayerId} {prog : PlayerProgressionState} {stats : PlayerStats} {pts reset : Int}
    (kind : CoreStatKind) (v : Int) :
    (playerInputs id prog stats pts reset).write (coreStatToStat kind) v =
      playerInputs id prog (setStat stats kind v) pts reset := by
  refine congrArg (StatInputs.mk _ _ _ · _) (PointValueStore.ext_get fun stat => ?_)
  cases kind <;> cases stat <;> rfl

theorem playerInputs_writeReset {id : PlayerId} {prog : PlayerProgressionState} {stats : PlayerStats}
    {pts reset reset' : Int} :
    (playerInputs id prog stats pts reset).write .statResetCount reset' = playerInputs id prog stats pts reset' := by
  refine congrArg (StatInputs.mk _ _ _ · _) (PointValueStore.ext_get fun stat => ?_)
  cases stat <;> rfl

theorem subI32_eq (a b : Int) : subI32 a b = addI32 a (-b) := by
  unfold subI32 addI32; rw [Int.sub_eq_add_neg]

/-- An accepted plan moves one allocation, the value it stands for and the points by one. -/
theorem planCoreStatIntent_ok {b : PlayerGameplayBootstrap} {cur : PlayerStats} {points : Int} {stat : CoreStatKind}
    {delta : Int} {a : CoreStatAllocations} {reset abs dp : Int}
    (h : planCoreStatIntent b cur points stat delta = .ok (a, reset, abs, dp)) :
    (delta = 1 ∧ 0 < points ∨ delta = -1 ∧ 0 < allocationOf b.coreStatAllocations stat) ∧
      a = setAllocation b.coreStatAllocations stat (addI32 (allocationOf b.coreStatAllocations stat) delta) ∧
      abs = addI32 (statOf cur stat) delta ∧ dp = -delta := by
  unfold planCoreStatIntent at h
  dsimp only at h
  split at h
  · rename_i hd
    subst hd
    split at h
    · cases h
    · split at h
      · cases h
      · cases h
        exact ⟨.inl ⟨rfl, by omega⟩, rfl, rfl, rfl⟩
  · split at h
    · rename_i hd
      subst hd
      split at h
      · cases h
      · split at h
        · cases h
        · cases h
          refine ⟨.inr ⟨rfl, by omega⟩, ?_, subI32_eq _ _, rfl⟩
          rw [subI32_eq]
    · cases h

theorem allocationOf_setAllocation (a : CoreStatAllocations) (kind kind' : CoreStatKind) (v : Int) :
    allocationOf (setAllocation a kind v) kind' = if kind' = kind then v else allocationOf a kind' := by
  cases kind <;> cases kind' <;> rfl

theorem spentStatPoints_setAllocation (a : CoreStatAllocations) (kind : CoreStatKind) (v : Int) :
    spentStatPoints (setAllocation a kind v) = spentStatPoints a - allocationOf a kind + v := by
  cases kind <;> simp only [setAllocation, allocationOf, spentStatPoints] <;> omega

/-- Moving an allocation moves the resolved value of its stat by the same amount. -/
theorem resolvePlayerStats_setAllocation {t : PlayerClassStatsTable} {c : PlayerClass} {a : CoreStatAllocations}
    {stats : PlayerStats} (h : t.resolvePlayerStats c a = some stats) (kind : CoreStatKind) (d : Int) :
    t.resolvePlayerStats c (setAllocation a kind (addI32 (allocationOf a kind) d)) =
      some (setStat stats kind (addI32 (statOf stats kind) d)) := by
  obtain ⟨config, hc, rfl⟩ := Option.map_eq_some_iff.1 h
  unfold PlayerClassStatsTable.resolvePlayerStats
  rw [hc]
  cases kind <;> simp only [Option.map_some, setAllocation, allocationOf, setStat, statOf, addI32_assoc]

theorem coreWithinLimits_setStat {source : ActorStatSource} {stats : PlayerStats} (h : CoreWithinLimits source stats)
    {kind : CoreStatKind} {v : Int} (hv : WithinLimit source (coreStatToStat kind) v) :
    CoreWithinLimits source (setStat stats kind v) := by
  cases kind with
  | st => exact ⟨hv, h.ht, h.dx, h.iq⟩
  | ht => exact ⟨h.st, hv, h.dx, h.iq⟩
  | dx => exact ⟨h.st, h.ht, hv, h.iq⟩
  | iq => exact ⟨h.st, h.ht, h.dx, hv⟩

theorem coreStatToStat_stored (kind : CoreStatKind) : (coreStatToStat kind).stored = true := by
  cases kind <;> decide

theorem validateStoredStat_ok {rt : ActorStatsRuntime} {stat : Stat} {v : Int}
    (h : validateStoredStat rt stat v = some (.ok ())) : WithinLimit rt.source stat v := by
  obtain ⟨⟨r, rt'⟩, hr, he⟩ := Option.map_eq_some_iff.1 h
  simp only at he
  subst he
  obtain ⟨st, hst, _⟩ := withApi_eq_some hr
  exact (setStoredStat_eq_ok hst).1

section
variable [GrowthRng]

theorem intentWrites_run {source : ActorStatSource} {kind : CoreStatKind} {v : Int}
    (hl : WithinLimit source (coreStatToStat kind) v) (pts reset : Int) (s : ActorStatState Unit Unit) :
    ∃ t, (intentWrites source (coreStatToStat kind) v pts reset).run s = some (.ok (), t) ∧
      (Current source s → Current source t) ∧
      t.inputs = ((s.inputs.write (coreStatToStat kind) v).write .statPoints pts).write .statResetCount reset := by
  obtain ⟨t1, h1, i1, c1⟩ := write_run (coreStatToStat_stored kind) hl s
  obtain ⟨t2, h2, i2, c2⟩ := write_run (by decide : Stat.statPoints.stored = true)
    (withinLimit_statPoints source pts) t1
  obtain ⟨t3, h3, i3, c3⟩ := write_run (by decide : Stat.statResetCount.stored = true)
    (withinLimit_statResetCount source reset) t2
  refine ⟨t3, ?_, fun h => c3 (c2 (c1 h)), by rw [i3, i2, i1]⟩
  unfold intentWrites
  rw [Cmd.run_bind_ok (Cmd.run_mapError_ok h1), Cmd.run_bind_ok (Cmd.run_mapError_ok h2)]
  exact Cmd.run_mapError_ok h3

theorem applyStatKernelUpdate_settled {rt rt' : ActorStatsRuntime} {kind : CoreStatKind} {v reset dp : Int}
    {r : Except ProgressionError StatsSync} (hl : WithinLimit rt.source (coreStatToStat kind) v)
    (hc : Current rt.source rt.state) (h : (applyStatKernelUpdate kind v reset dp).run rt = some (r, rt')) :
    (∃ sync, r = .ok sync) ∧ Settled rt rt' (((rt.state.inputs.write (coreStatToStat kind) v).write .statPoints
      (addI32 (rt.readPacket .statPoints) dp)).write .statResetCount reset) := by
  obtain ⟨s1, hw, hcur, hin⟩ := intentWrites_run hl (addI32 (rt.readPacket .statPoints) dp) reset rt.state
  unfold applyStatKernelUpdate at h
  rw [Cmd.run_bind_ok (a := rt.readPacket .statPoints) (t := rt) rfl,
    Cmd.run_bind_ok (a := rt.source) (t := rt) rfl] at h
  rcases Cmd.bind_eq_some h with ⟨e, h1, _⟩ | ⟨_, rt1, h1, h2⟩
  · obtain ⟨st, hst, _⟩ := withApi_eq_some h1
    rw [hw] at hst
    cases hst
  · obtain ⟨st, hst, rfl⟩ := withApi_eq_some h1
    rw [hw] at hst
    cases hst
    obtain ⟨⟨sync, rt2⟩, hn, he⟩ := Option.map_eq_some_iff.1 h2
    cases he
    have set2 := @normalize_settled _ { rt with state := s1 } _ _ (hcur hc) hn
    exact ⟨⟨sync, rfl⟩, set2.source, set2.inputs.trans hin, set2.clean, set2.computed, set2.caps⟩

/-- An accepted intent keeps the invariant. -/
theorem applyValidatedCoreStatSave_liveOk {rules : PlayerStatRules} {source : ActorStatSource} {stats : PlayerStats}
    {prog : PlayerProgressionState} {p p' : LivePlayer} {kind : CoreStatKind} {delta : Int}
    {save : ValidatedCoreStatSave} (h : LiveOk rules source stats prog p)
    (hval : validateCoreStatIntent rules p kind delta = some (.ok save))
    (hx : (applyValidatedCoreStatSave save).exec p = some p') : ∃ stats', LiveOk rules source stats' prog p' := by
  unfold validateCoreStatIntent at hval
  rw [h.hydratable.hasStats] at hval
  dsimp only at hval
  split at hval
  · cases hval
  · rename_i a reset abs dp hplan
    obtain ⟨r, hr, he⟩ := Option.map_eq_some_iff.1 hval
    rcases r with e | _
    · cases he
    · simp only [Except.ok.injEq] at he
      subst he
      obtain ⟨hd, rfl, rfl, rfl⟩ := planCoreStatIntent_ok hplan
      have hlimit := validateStoredStat_ok hr
      have hcur : Current p.stats.source p.stats.state := by rw [h.hasSource]; exact h.current
      obtain ⟨r, hr'⟩ := Cmd.exec_eq_some.1 hx
      obtain ⟨⟨r', rt'⟩, hrun, he⟩ := Option.map_eq_some_iff.1 hr'
      obtain ⟨⟨sync, rfl⟩, settled⟩ := applyStatKernelUpdate_settled hlimit hcur hrun
      simp only at he
      cases he
      rw [h.readStatPoints, availablePoints_eq h.affordable] at hd
      -- one point moves between the allocation and the points held; nothing wraps
      have hb := h.affordable.bounds kind
      have hk := h.affordable.nonneg kind
      have he := earnedStatPoints_mem prog.level prog.levelStep
      have hs := h.affordable.spent
      have hslot : addI32 (allocationOf p.progression.coreStatAllocations kind) delta =
          allocationOf p.progression.coreStatAllocations kind + delta :=
        addI32_of_mem (by unfold i32Min; omega) (by unfold i32Max; omega)
      set a := p.progression.coreStatAllocations with ha
      have hspent := spentStatPoints_setAllocation a kind (addI32 (allocationOf a kind) delta)
      have hafford : Affordable (setAllocation a kind (addI32 (allocationOf a kind) delta)) prog := by
        refine ⟨fun k => ?_, by omega⟩
        rw [allocationOf_setAllocation]
        split
        · omega
        · exact h.affordable.nonneg k
      have hpoints : addI32 (availablePoints p.progression prog) (-delta) =
          prog.earned - spentStatPoints (setAllocation a kind (addI32 (allocationOf a kind) delta)) := by
        rw [availablePoints_eq h.affordable, ← ha, hspent, hslot]
        unfold PlayerProgressionState.earned at hs hd ⊢
        rw [addI32_of_mem (by unfold i32Min; omega) (by unfold i32Max; omega)]
        omega
      have hinputs : rt'.state.inputs = playerInputs p.progression.playerId prog
          (setStat stats kind (addI32 (statOf stats kind) delta))
          (availablePoints { p.progression with
            coreStatAllocations := setAllocation a kind (addI32 (allocationOf a kind) delta),
              statResetCount := reset } prog)
          reset := by
        rw [settled.inputs, h.inputs, playerInputs_writeStat, playerInputs_writePoints, playerInputs_writeReset,
          h.readStatPoints, hpoints, availablePoints_eq (b := { p.progression with
            coreStatAllocations := setAllocation a kind (addI32 (allocationOf a kind) delta), statResetCount := reset })
              hafford]
      refine ⟨setStat stats kind (addI32 (statOf stats kind) delta), ⟨?_, ?_, ?_, ?_, ?_, ?_, ?_⟩, ?_, hinputs,
        settled.clean, ?_, hafford⟩
      · exact h.hydratable.hasSource
      · exact resolvePlayerStats_setAllocation h.hydratable.hasStats kind delta
      · exact h.hydratable.hasProgression
      · exact h.hydratable.kind
      · rw [h.hasSource] at hlimit
        exact coreWithinLimits_setStat h.hydratable.limits hlimit
      · have hcaps := settled.caps
        rw [hinputs, h.hasSource] at hcaps
        exact hcaps
      · exact h.hydratable.view
      · exact settled.source.trans h.hasSource
      · have hcomp := settled.computed
        rw [h.hasSource] at hcomp
        exact hcomp

/-! ## Runs -/

inductive ProgressEvent where
  | reward (reward : MobExpReward)
  | coreStat (stat : CoreStatKind) (delta : Int)

/-- One event of a live player: a refused intent leaves the player alone. -/
def progressStep (rules : PlayerStatRules) (p : LivePlayer) : ProgressEvent → Option LivePlayer
  | .reward reward => (applyPlayerExpReward rules reward).exec p
  | .coreStat stat delta =>
    match validateCoreStatIntent rules p stat delta with
    | none => none
    | some (.error _) => some p
    | some (.ok validated) => (applyValidatedCoreStatSave validated).exec p

theorem progressStep_liveOk {rules : PlayerStatRules} {top : Int} (hv : rules.levelExp.Valid top)
    {source : ActorStatSource} {p p' : LivePlayer} {e : ProgressEvent}
    (h : ∃ stats prog, LiveOk rules source stats prog p) (hs : progressStep rules p e = some p') :
    ∃ stats prog, LiveOk rules source stats prog p' := by
  obtain ⟨stats, prog, h⟩ := h
  cases e with
  | reward reward =>
    obtain ⟨prog', h'⟩ := applyPlayerExpReward_liveOk hv h hs
    exact ⟨stats, prog', h'⟩
  | coreStat stat delta =>
    simp only [progressStep] at hs
    split at hs
    · cases hs
    · cases hs; exact ⟨stats, prog, h⟩
    · rename_i save hval
      obtain ⟨stats', h'⟩ := applyValidatedCoreStatSave_liveOk h hval hs
      exact ⟨stats', prog, h'⟩

/-- What the database returns for a saved progression, with whatever resources it holds. -/
def restoredBootstrap (id : PlayerId) (playerClass : PlayerClass) (s : PlayerProgressionSnapshot)
    (hp sp stamina : Option Int) : PlayerGameplayBootstrap :=
  ⟨id, playerClass, s.level, s.expInLevel, s.coreStatAllocations, s.statResetCount, hp, sp, stamina⟩

/-- A clean runtime normalises to itself. -/
theorem normalize_of_clean {rt : ActorStatsRuntime} (hk : rt.state.kind = rt.source.actorKind)
    (hc : rt.state.isDirty = false) :
    ∃ sync rt', rt.normalize = some (sync, rt') ∧ rt'.state = rt.state := by
  unfold ActorStatsRuntime.normalize GameStatsApi.syncIfDirty
  rw [if_neg (not_not.2 hk), hc, if_neg (by decide)]
  exact ⟨_, _, rfl, rfl⟩

/-- After any run of rewards and intents from a fresh level-one character, the points held are the derived ones, and
hydrating the saved progression gives the statistics of the live actor. -/
theorem relog_invariant {entries : List LevelExpEntry} {table : LevelExpTable} {classStats : PlayerClassStatsTable}
    {b : PlayerGameplayBootstrap} {h : HydratedPlayerStats} {appearance : ActorPublicStats}
    {events : List ProgressEvent} {p : LivePlayer} (htable : LevelExpTable.tryNew entries = .ok table)
    (hlevel : b.level = 1) (halloc : b.coreStatAllocations = ⟨0, 0, 0, 0⟩)
    (hh : (PlayerStatRules.mk classStats table).hydratePlayer b = some (some h))
    (hrun : run (progressStep ⟨classStats, table⟩) ⟨b, ActorStatsRuntime.new h.source h.state, appearance⟩
      events = some p) :
    p.stats.readPacket .statPoints = deriveAvailableStatPoints p.progression.level p.stats.state.progression.levelStep
        p.progression.coreStatAllocations ∧
      ∀ hp sp stamina, ∃ h' sync rt,
        (PlayerStatRules.mk classStats table).hydratePlayer (restoredBootstrap p.progression.playerId
          p.progression.playerClass (playerProgressionSnapshot p.progression) hp sp stamina) = some (some h') ∧
        p.stats.normalize = some (sync, rt) ∧
        (∀ stat ∈ [Stat.st, .ht, .dx, .iq, .statPoints, .statResetCount],
          h'.state.base.get stat = rt.state.base.get stat) ∧
        h'.state.progression = rt.state.progression ∧ h'.state.computed = rt.state.computed := by
  obtain ⟨top, hv⟩ := LevelExpTable.tryNew_valid htable
  have hv' : (PlayerStatRules.mk classStats table).levelExp.Valid top := hv
  obtain ⟨source, stats0, prog0, hy, has⟩ := hydratePlayer_eq_some (by omega) hh
  have hinit : LiveOk ⟨classStats, table⟩ source stats0 prog0
      ⟨b, ActorStatsRuntime.new h.source h.state, appearance⟩ := by
    refine ⟨hy, has.hasSource, has.inputs, has.clean, has.computed, fun kind => ?_, ?_⟩
    · show 0 ≤ allocationOf b.coreStatAllocations kind
      rw [halloc]
      cases kind <;> exact le_refl _
    · show spentStatPoints b.coreStatAllocations ≤ _
      rw [halloc]
      exact (earnedStatPoints_mem _ _).1
  obtain ⟨stats, prog, hp⟩ := run_inv (I := fun q => ∃ stats prog, LiveOk ⟨classStats, table⟩ source stats prog q)
    (fun _ _ _ hs ht => progressStep_liveOk hv' hs ht) ⟨stats0, prog0, hinit⟩ hrun
  obtain ⟨hlev, ⟨hlev1, _⟩, _⟩ := progressionForLevel_spec hv hp.hydratable.hasProgression
  have hprog : p.stats.state.progression = prog := congrArg StatInputs.progression hp.inputs
  refine ⟨?_, fun hp' sp stamina => ?_⟩
  · rw [hp.readStatPoints, availablePoints, hprog, hlev]
  · have hy' : Hydratable ⟨classStats, table⟩ (restoredBootstrap p.progression.playerId p.progression.playerClass
        (playerProgressionSnapshot p.progression) hp' sp stamina) source stats prog :=
      ⟨hp.hydratable.hasSource, hp.hydratable.hasStats, hp.hydratable.hasProgression, hp.hydratable.kind,
        hp.hydratable.limits, hp.hydratable.caps, hp.hydratable.view⟩
    obtain ⟨h', hh', has'⟩ := hydratePlayer_of_hydratable
      (b := restoredBootstrap p.progression.playerId p.progression.playerClass
      (playerProgressionSnapshot p.progression) hp' sp stamina) (show 0 ≤ p.progression.level by omega) hy'
    have hkind : p.stats.state.kind = p.stats.source.actorKind := by
      rw [hp.hasSource, hp.hydratable.kind]
      exact congrArg StatInputs.kind hp.inputs
    obtain ⟨sync, rt, hn, hst⟩ := normalize_of_clean hkind hp.clean
    have hsame : h'.state.inputs = rt.state.inputs := by rw [has'.inputs, hst, hp.inputs]; rfl
    refine ⟨h', sync, rt, hh', hn, fun stat _ => ?_, congrArg StatInputs.progression hsame, ?_⟩
    · exact congrArg (fun i => (StatInputs.base i).get stat) hsame
    · rw [has'.computed, hsame, hst, hp.computed]

end

theorem one_le_i32Max : 1 ≤ i32Max := by decide

theorem two_le_i32Max : 2 ≤ i32Max := by decide

/-- A fresh warrior kills three mobs, crosses a level step and spends the point. -/
def noviceEntries : List LevelExpEntry := [⟨1, 300, 5, one_le_i32Max⟩, ⟨2, 2000, 5, two_le_i32Max⟩]

def noviceTable : LevelExpTable :=
  ⟨(OrdMap.empty.insert 1 ⟨1, 300, 5, one_le_i32Max⟩).insert 2 ⟨2, 2000, 5, two_le_i32Max⟩⟩

def noviceClasses : PlayerClassStatsTable := ⟨[(.warrior, ⟨⟨6, 4, 3, 3⟩, warriorSource⟩)]⟩

def noviceBootstrap : PlayerGameplayBootstrap := ⟨⟨7⟩, .warrior, 1, 0, ⟨0, 0, 0, 0⟩, 0, none, none, none⟩

def noviceEvents : List ProgressEvent :=
  [.reward ⟨500, 3⟩, .reward ⟨500, 3⟩, .reward ⟨500, 3⟩, .coreStat .st 1, .coreStat .ht 1]

theorem relog_invariant_novice :
    let := splitMix64Rolls
    ∃ h p, (PlayerStatRules.mk noviceClasses noviceTable).hydratePlayer noviceBootstrap = some (some h) ∧
      run (progressStep ⟨noviceClasses, noviceTable⟩)
        ⟨noviceBootstrap, ActorStatsRuntime.new h.source h.state, ⟨1, 100, 100⟩⟩ noviceEvents = some p ∧
      p.stats.readPacket .statPoints = deriveAvailableStatPoints p.progression.level
        p.stats.state.progression.levelStep p.progression.coreStatAllocations := by
  intro rng
  have hrun : (((PlayerStatRules.mk noviceClasses noviceTable).hydratePlayer noviceBootstrap).bind fun o =>
    o.bind fun h =>
      run (progressStep ⟨noviceClasses, noviceTable⟩)
        ⟨noviceBootstrap, ActorStatsRuntime.new h.source h.state, ⟨1, 100, 100⟩⟩ noviceEvents).isSome :=
          by decide +kernel
  obtain ⟨p, hp⟩ := Option.isSome_iff_exists.1 hrun
  obtain ⟨o, ho, hp⟩ := Option.bind_eq_some_iff.1 hp
  obtain ⟨h, rfl, hp⟩ := Option.bind_eq_some_iff.1 hp
  exact ⟨h, p, ho, hp, (@relog_invariant _ noviceEntries _ _ _ _ _ _ _ rfl rfl rfl ho hp).1⟩

end Zohar.Sim
