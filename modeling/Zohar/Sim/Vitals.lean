/-
Life and HP. Six systems of a frame write one or the other; the two agree at the end of every lifecycle as long as no
reward with a level step reaches a player that is not alive, for such a reward fills the HP of whoever it reaches.
-/
import Zohar.Sim.Kills
import Zohar.Stats.Stamina

namespace Zohar.Sim

open Zohar.Lib Zohar.Stats
open Zohar.Replication (EntityId)
open Zohar.Spawn (MobId)

/-! ## The HP of a player's statistics -/

def hpOf (rt : ActorStatsRuntime) : Int := rt.state.resources.hp

def maxHpOf (rt : ActorStatsRuntime) : Int := rt.state.computed.get .maxHp

/-- The HP is kept, or clamped to the capacity that goes with it. -/
def Settles (rt rt' : ActorStatsRuntime) : Prop := hpOf rt' = hpOf rt ∨ hpOf rt' = max 0 (min (hpOf rt) (maxHpOf rt'))

/-- A write of the inputs: it leaves the resources and what was computed. -/
def InputsOnly (s t : ActorStatState Unit Unit) : Prop := t.resources = s.resources ∧ t.computed = s.computed

theorem InputsOnly.refl (s : ActorStatState Unit Unit) : InputsOnly s s := ⟨rfl, rfl⟩

theorem InputsOnly.trans (s t u : ActorStatState Unit Unit) (h : InputsOnly s t) (h' : InputsOnly t u) :
    InputsOnly s u :=
  ⟨h'.1.trans h.1, h'.2.trans h.2⟩

theorem inputsOnly_setStoredStat (source : ActorStatSource) (stat : Stat) (v : Int) :
    Cmd.Keeps InputsOnly (GameStatsApi.setStoredStat source stat v : GameStatsApi.WriteCmd Unit Unit Unit) := by
  refine Cmd.keeps_bind InputsOnly.trans (Cmd.keeps_check InputsOnly.refl _) fun _ =>
    Cmd.keeps_update InputsOnly.refl fun s t h => ?_
  unfold ActorStatState.setStoredStat at h
  split at h
  · cases h
  · split at h
    · cases h
    · split at h <;> cases h <;> exact ⟨rfl, rfl⟩

theorem inputsOnly_setBaseProjectionStat (s : ActorStatState Unit Unit) (stat : Stat) (v : Int) :
    InputsOnly s (s.setBaseProjectionStat stat v) := by
  unfold ActorStatState.setBaseProjectionStat
  split <;> exact ⟨rfl, rfl⟩

theorem inputsOnly_setPlayerProgression (s : ActorStatState Unit Unit) (p : PlayerProgressionState) :
    InputsOnly s (s.setPlayerProgression p) := by
  unfold ActorStatState.setPlayerProgression
  simp only
  refine InputsOnly.trans _ _ _ ?_ (inputsOnly_setBaseProjectionStat _ _ _)
  refine InputsOnly.trans _ _ _ ?_ (inputsOnly_setBaseProjectionStat _ _ _)
  refine InputsOnly.trans _ _ _ ?_ (inputsOnly_setBaseProjectionStat _ _ _)
  exact InputsOnly.trans _ _ _ ⟨rfl, rfl⟩ (inputsOnly_setBaseProjectionStat _ _ _)

theorem inputsOnly_rewardWrites (source : ActorStatSource) (points : Int) (out : PlayerMobExpRewardOutcome) :
    Cmd.Keeps InputsOnly (rewardWrites source points out) := by
  unfold rewardWrites
  refine Cmd.keeps_bind InputsOnly.trans (Cmd.keeps_update InputsOnly.refl fun s t h => ?_) fun _ => ?_
  · cases h
    exact inputsOnly_setPlayerProgression s out.progression
  · exact Cmd.keeps_ite (Cmd.keeps_mapError (inputsOnly_setStoredStat _ _ _)) (Cmd.keeps_pure InputsOnly.refl _)

theorem inputsOnly_intentWrites (source : ActorStatSource) (stat : Stat) (v points reset : Int) :
    Cmd.Keeps InputsOnly (intentWrites source stat v points reset) := by
  unfold intentWrites
  refine Cmd.keeps_bind InputsOnly.trans (Cmd.keeps_mapError (inputsOnly_setStoredStat _ _ _)) fun _ => ?_
  refine Cmd.keeps_bind InputsOnly.trans (Cmd.keeps_mapError (inputsOnly_setStoredStat _ _ _)) fun _ => ?_
  exact Cmd.keeps_mapError (inputsOnly_setStoredStat _ _ _)

theorem withApi_inputsOnly {ε α : Type} {c : Cmd ε (ActorStatState Unit Unit) α} (hc : Cmd.Keeps InputsOnly c)
    {rt rt' : ActorStatsRuntime} {r : Except ε α} (h : (withApi c).run rt = some (r, rt')) :
    hpOf rt' = hpOf rt ∧ maxHpOf rt' = maxHpOf rt ∧ rt'.source = rt.source := by
  obtain ⟨st, hst, rfl⟩ := withApi_eq_some h
  obtain ⟨hr, hc'⟩ := hc _ _ _ hst
  exact ⟨congrArg (·.hp) hr, congrArg (·.get .maxHp) hc', rfl⟩

section
variable [GrowthRng]

/-- A normalization recomputes the capacity and clamps the HP to it, or does nothing. -/
theorem normalize_hp {rt rt' : ActorStatsRuntime} {sync : StatsSync} (h : rt.normalize = some (sync, rt')) :
    rt'.source = rt.source ∧ (rt'.state = rt.state ∨ rt'.state.computed = GameStatsApi.derivedStore rt.source rt.state ∧
      rt'.state.inputs = rt.state.inputs ∧ hpOf rt' = max 0 (min (hpOf rt) (maxHpOf rt'))) := by
  unfold ActorStatsRuntime.normalize at h
  split at h
  · cases h
  · obtain ⟨⟨sy, st⟩, hs, he⟩ := Option.map_eq_some_iff.1 h
    cases he
    unfold GameStatsApi.syncIfDirty at hs
    split at hs
    · simp only [GameStatsApi.sync, Option.bind_eq_bind, Option.bind_eq_some_iff, Option.pure_def,
        Option.some.injEq] at hs
      obtain ⟨⟨report, st1⟩, hr, _, _, he⟩ := hs
      cases he
      obtain ⟨resources, hclamp, rfl, _, _⟩ := GameStatsApi.recomputeReport_eq_some hr
      exact ⟨rfl, .inr ⟨rfl, rfl, (clamp?_eq_some.1 (GameStatsApi.clampToCaps_eq_some hclamp).1).2.symm⟩⟩
    · obtain ⟨_, _, he⟩ := Option.map_eq_some_iff.1 hs
      cases he
      exact ⟨rfl, .inl rfl⟩

theorem normalize_settles {rt rt' : ActorStatsRuntime} {sync : StatsSync} (h : rt.normalize = some (sync, rt')) :
    Settles rt rt' := by
  rcases (normalize_hp h).2 with heq | ⟨_, _, hhp⟩
  · exact .inl (congrArg (fun st => st.resources.hp) heq)
  · exact .inr hhp

theorem drainSync_settles {rt rt' : ActorStatsRuntime} {drained : DrainedPlayerStatsSync}
    (h : rt.drainSync = some (drained, rt')) : Settles rt rt' := by
  obtain ⟨⟨sync, rt1⟩, h1, he⟩ := Option.map_eq_some_iff.1 h
  cases he
  have hs : Settles rt rt1 := normalize_settles h1
  exact hs

theorem normalizeCmd_settles {ε : Type} {rt rt' : ActorStatsRuntime} {r : Except ε StatsSync}
    (h : normalizeCmd.run rt = some (r, rt')) : Settles rt rt' := by
  obtain ⟨⟨sync, rt1⟩, h1, he⟩ := Option.map_eq_some_iff.1 h
  cases he
  exact normalize_settles h1

omit [GrowthRng] in
theorem Settles.of_sameHp {rt rt1 rt' : ActorStatsRuntime} (h1 : hpOf rt1 = hpOf rt) (h : Settles rt1 rt') :
    Settles rt rt' := by
  unfold Settles at h ⊢
  rwa [h1] at h

theorem progressStep_coreStat_settles {rules : PlayerStatRules} {p q : LivePlayer} {stat : CoreStatKind} {delta : Int}
    (h : progressStep rules p (.coreStat stat delta) = some q) : Settles p.stats q.stats := by
  simp only [progressStep] at h
  split at h
  · cases h
  · cases h; exact .inl rfl
  · obtain ⟨r, hr⟩ := Cmd.exec_eq_some.1 h
    obtain ⟨⟨r', rt'⟩, hk, he⟩ := Option.map_eq_some_iff.1 hr
    have hset : Settles p.stats rt' := by
      unfold applyStatKernelUpdate at hk
      rw [Cmd.run_bind_ok (a := p.stats.readPacket .statPoints) (t := p.stats) rfl,
        Cmd.run_bind_ok (a := p.stats.source) (t := p.stats) rfl] at hk
      rcases Cmd.bind_eq_some hk with ⟨e, hw, _⟩ | ⟨_, rt1, hw, hn⟩
      · exact .inl ((withApi_inputsOnly (inputsOnly_intentWrites _ _ _ _ _) hw).1)
      · exact (normalizeCmd_settles hn).of_sameHp ((withApi_inputsOnly (inputsOnly_intentWrites _ _ _ _ _) hw).1)
    cases r' <;> cases he <;> exact hset

omit [GrowthRng] in
theorem readLimited_bind {α : Type} {source : ActorStatSource} {stat : Stat} {f : Int → StatsCmd RewardError α}
    {s t : ActorStatState Unit Unit} {r : Except RewardError α}
    (h : (readLimited source stat >>= f).run s = some (r, t)) :
    ∃ v, s.readLimitedValue source stat = some v ∧ (f v).run s = some (r, t) := by
  cases hv : s.readLimitedValue source stat with
  | none =>
    rw [Cmd.run_bind] at h
    simp only [readLimited, hv, Option.map_none] at h
    cases h
  | some v =>
    have hr : (readLimited source stat).run s = some (.ok v, s) := by simp only [readLimited, hv, Option.map_some]
    rw [Cmd.run_bind_ok hr] at h
    exact ⟨v, rfl, h⟩

omit [GrowthRng] in
theorem readLimitedValue_maxHp (s : ActorStatState Unit Unit) (source : ActorStatSource) :
    s.readLimitedValue source .maxHp = some (s.computed.get .maxHp) := by
  have hview : source.viewLimit .maxHp = none := by cases source <;> rfl
  unfold ActorStatState.readLimitedValue
  rw [hview]
  rfl

/-- A write of a resource that is not the HP leaves the HP, the inputs and the capacities. -/
def Aside (s t : ActorStatState Unit Unit) : Prop := SameHp s t ∧ KeepsStores s t

omit [GrowthRng] in
theorem Aside.trans (s t u : ActorStatState Unit Unit) (h : Aside s t) (h' : Aside t u) : Aside s u :=
  ⟨SameHp.trans _ _ _ h.1 h'.1, resourceRel_keepsStores.trans _ _ _ h.2 h'.2⟩

omit [GrowthRng] in
theorem aside_setResource {stat : Stat} (hne : stat ≠ .hp) (f : StatWriteError → RewardError) (v : Int) :
    Cmd.Keeps Aside (Cmd.mapError f (GameStatsApi.setResource stat v : GameStatsApi.WriteCmd Unit Unit Int)) :=
  Cmd.keeps_mapError fun s r t h =>
    ⟨setResource_of_ne hne v s r t h, GameStatsApi.keeps_setResource resourceRel_keepsStores stat v s r t h⟩

omit [GrowthRng] in
/-- A refill fills the HP, whatever becomes of the other resources, and leaves the capacities. -/
theorem refillResources_hp {source : ActorStatSource} {s t : ActorStatState Unit Unit} {r : Except RewardError Unit}
    (h : (refillResources source).run s = some (r, t)) :
    t.resources.hp = max 0 (s.computed.get .maxHp) ∧ KeepsStores s t := by
  unfold refillResources at h
  obtain ⟨maxHp, hmax, h⟩ := readLimited_bind h
  obtain ⟨maxSp, _, h⟩ := readLimited_bind h
  obtain ⟨maxStamina, _, h⟩ := readLimited_bind h
  rw [readLimitedValue_maxHp] at hmax
  cases hmax
  have hset : ∀ {r' : Except RewardError Int} {u}, (Cmd.mapError (.invalidStatWrite .hp)
      (GameStatsApi.setResource .hp (s.computed.get .maxHp))).run s = some (r', u) →
      u.resources.hp = max 0 (s.computed.get .maxHp) ∧ KeepsStores s u := by
    intro r' u hu
    obtain ⟨⟨r0, u0⟩, hu0, he⟩ := Option.map_eq_some_iff.1 hu
    cases he
    refine ⟨?_, GameStatsApi.keeps_setResource resourceRel_keepsStores _ _ _ _ _ hu0⟩
    have hhp := setResource_hp hu0
    rw [min_self] at hhp
    exact hhp
  rcases Cmd.bind_eq_some h with ⟨_, h4, _⟩ | ⟨_, s4, h4, h⟩
  · exact hset h4
  obtain ⟨hhp, hk⟩ := hset h4
  -- what follows writes the other two resources
  have haside : Aside s4 t := by
    refine Cmd.keeps_bind Aside.trans (aside_setResource (by decide) _ _) (fun _ => ?_) _ _ _ h
    exact Cmd.keeps_bind Aside.trans (aside_setResource (by decide) _ _) fun _ =>
      Cmd.keeps_pure (fun _ => ⟨rfl, rfl, rfl⟩) _
  exact ⟨Eq.trans haside.1 hhp, resourceRel_keepsStores.trans _ _ _ hk haside.2⟩

/-! ## Rewards -/

/-- An HP above zero stays there as long as the capacity leaves room. -/
def Lives (rt rt' : ActorStatsRuntime) : Prop := 2 ≤ maxHpOf rt → 2 ≤ maxHpOf rt' → 0 < hpOf rt → 0 < hpOf rt'

omit [GrowthRng] in
theorem Settles.lives {rt rt' : ActorStatsRuntime} (h : Settles rt rt') : Lives rt rt' := by
  intro _ _ _
  rcases h with h | h <;> omega

omit [GrowthRng] in
theorem Settles.down {rt rt' : ActorStatsRuntime} (h : Settles rt rt') (hd : hpOf rt ≤ 0) : hpOf rt' ≤ 0 := by
  rcases h with h | h <;> omega

omit [GrowthRng] in
theorem Settles.whole {rt rt' : ActorStatsRuntime} (h : Settles rt rt') (hd : 0 ≤ hpOf rt) : 0 ≤ hpOf rt' := by
  rcases h with h | h <;> omega

/-- The statistics after a level step: the HP is full, or a write failed before the refill and it is as it was. -/
theorem rewardStats_levelStep {rt rt' : ActorStatsRuntime} {out : PlayerMobExpRewardOutcome}
    {r : Except RewardError StatsSync} (hsteps : out.levelStepsGained > 0)
    (h : (do applyRewardStats out; normalizeCmd : Cmd RewardError ActorStatsRuntime StatsSync).run rt = some (r, rt')) :
    Lives rt rt' ∧ (0 ≤ hpOf rt → 0 ≤ hpOf rt') := by
  -- a write that fails leaves the HP; otherwise it is filled to a capacity that comes from the inputs or was there
  -- before
  have hmid : ∀ {r' : Except RewardError Unit} {rt1 : ActorStatsRuntime},
    (applyRewardStats out).run rt = some (r', rt1) →
      hpOf rt1 = hpOf rt ∨ (hpOf rt1 = max 0 (maxHpOf rt1) ∧ (maxHpOf rt1 = maxHpOf rt ∨
        rt1.state.computed = GameStatsApi.derivedStore rt1.source rt1.state)) := by
    intro r' rt1 h1
    unfold applyRewardStats at h1
    rw [Cmd.run_bind_ok (a := rt.readPacket .statPoints) (t := rt) rfl,
      Cmd.run_bind_ok (a := rt.source) (t := rt) rfl] at h1
    rcases Cmd.bind_eq_some h1 with ⟨_, h2, _⟩ | ⟨_, rt2, h2, h3⟩
    · exact .inl (withApi_inputsOnly (inputsOnly_rewardWrites _ _ _) h2).1
    · obtain ⟨_, hmax2, hsrc2⟩ := withApi_inputsOnly (inputsOnly_rewardWrites _ _ _) h2
      rw [if_pos hsteps] at h3
      rcases Cmd.bind_eq_some h3 with ⟨e, he, _⟩ | ⟨sync, rt3, hn, h4⟩
      · obtain ⟨⟨_, _⟩, _, he⟩ := Option.map_eq_some_iff.1 he
        cases he
      · obtain ⟨⟨sync', rt3'⟩, hn', he⟩ := Option.map_eq_some_iff.1 hn
        cases he
        obtain ⟨st, hst, rfl⟩ := withApi_eq_some h4
        obtain ⟨hhp, hinp, hcomp⟩ := refillResources_hp hst
        refine .inr ⟨?_, ?_⟩
        · show st.resources.hp = max 0 (st.computed.get .maxHp)
          rw [hhp, hcomp]
        · obtain ⟨hsrc3, heq | ⟨hderived, hinp', _⟩⟩ := normalize_hp hn'
          · refine .inl ?_
            show st.computed.get .maxHp = maxHpOf rt
            rw [hcomp, heq, ← hmax2]
            rfl
          · refine .inr ?_
            show st.computed = GameStatsApi.derivedStore rt3'.source st
            rw [hcomp, hderived, hsrc3, derivedStore_congr (hinp.trans hinp')]
  rcases Cmd.bind_eq_some h with ⟨_, h1, _⟩ | ⟨_, rt1, h1, h2⟩
  · refine ⟨fun _ _ _ => ?_, fun _ => ?_⟩
    · rcases hmid h1 with h | ⟨h, hcap⟩ <;> omega
    · rcases hmid h1 with h | ⟨h, hcap⟩ <;> omega
  · have hset : Settles rt1 rt' := normalizeCmd_settles h2
    refine ⟨fun hcap hcap' hpos => ?_, fun hwhole => hset.whole ?_⟩
    · obtain ⟨⟨sync, rt2⟩, hn, he⟩ := Option.map_eq_some_iff.1 h2
      obtain rfl : rt2 = rt' := (Prod.ext_iff.1 he).2
      -- the second normalization finds the capacities that the first one left
      have hpos1 : 0 < hpOf rt1 := by
        rcases hmid h1 with h | ⟨h, hsame | hderived⟩
        · omega
        · omega
        · obtain ⟨_, heq | ⟨hderived', _, _⟩⟩ := normalize_hp hn
          · have hm : maxHpOf rt2 = maxHpOf rt1 := congrArg (fun st => st.computed.get .maxHp) heq
            omega
          · have hm : maxHpOf rt2 = maxHpOf rt1 := by
              show rt2.state.computed.get .maxHp = rt1.state.computed.get .maxHp
              rw [hderived', hderived]
            omega
      rcases hset with h | h <;> omega
    · rcases hmid h1 with h | ⟨h, _⟩ <;> omega

theorem rewardStats_settles {rt rt' : ActorStatsRuntime} {out : PlayerMobExpRewardOutcome}
    {r : Except RewardError StatsSync} (hsteps : ¬ out.levelStepsGained > 0)
    (h : (do applyRewardStats out; normalizeCmd : Cmd RewardError ActorStatsRuntime StatsSync).run rt = some (r, rt')) :
    Settles rt rt' := by
  have hmid : ∀ {r' : Except RewardError Unit} {rt1 : ActorStatsRuntime},
    (applyRewardStats out).run rt = some (r', rt1) →
      hpOf rt1 = hpOf rt := by
    intro r' rt1 h1
    unfold applyRewardStats at h1
    rw [Cmd.run_bind_ok (a := rt.readPacket .statPoints) (t := rt) rfl,
      Cmd.run_bind_ok (a := rt.source) (t := rt) rfl] at h1
    rcases Cmd.bind_eq_some h1 with ⟨_, h2, _⟩ | ⟨_, rt2, h2, h3⟩
    · exact (withApi_inputsOnly (inputsOnly_rewardWrites _ _ _) h2).1
    · rw [if_neg hsteps] at h3
      cases h3
      exact (withApi_inputsOnly (inputsOnly_rewardWrites _ _ _) h2).1
  rcases Cmd.bind_eq_some h with ⟨_, h1, _⟩ | ⟨_, rt1, h1, h2⟩
  · exact .inl (hmid h1)
  · exact (normalizeCmd_settles h2).of_sameHp (hmid h1)

/-- What a reward comes to for a player. -/
def rewardOutcome (rules : PlayerStatRules) (reward : MobExpReward) (p : LivePlayer) :
    Option PlayerMobExpRewardOutcome :=
  rules.applyMobExpReward ⟨p.progression.level, clampI64ToU32 p.progression.expInLevel,
    (clampInt 0 i32Max (p.stats.readPacket .nextExp)).toNat⟩ reward.level reward.baseExp

def bringsLevelStep (rules : PlayerStatRules) (reward : MobExpReward) (p : LivePlayer) : Bool :=
  match rewardOutcome rules reward p with
  | none => false
  | some outcome => decide (outcome.levelStepsGained > 0)

theorem applyPlayerExpReward_hp {rules : PlayerStatRules} {reward : MobExpReward} {p q : LivePlayer}
    {r : Except RewardError (Option AppliedExpReward)} (h : (applyPlayerExpReward rules reward).run p = some (r, q)) :
    Lives p.stats q.stats ∧ (0 ≤ hpOf p.stats → 0 ≤ hpOf q.stats) ∧
      (bringsLevelStep rules reward p = false → Settles p.stats q.stats) := by
  have hsettled : Settles p.stats q.stats → Lives p.stats q.stats ∧ (0 ≤ hpOf p.stats → 0 ≤ hpOf q.stats) ∧
      (bringsLevelStep rules reward p = false → Settles p.stats q.stats) := fun hs => ⟨hs.lives, hs.whole, fun _ => hs⟩
  simp only [applyPlayerExpReward] at h
  split at h
  · cases h
    exact hsettled (.inl rfl)
  · rename_i out hout
    obtain ⟨⟨r', rt'⟩, hrun, he⟩ := Option.map_eq_some_iff.1 h
    have hq : q.stats = rt' := by cases r' <;> cases he <;> rfl
    rw [hq]
    rw [hq] at hsettled
    by_cases hsteps : out.levelStepsGained > 0
    · obtain ⟨hl, hw⟩ := rewardStats_levelStep hsteps hrun
      refine ⟨hl, hw, fun hb => ?_⟩
      have ho : rewardOutcome rules reward p = some out := hout
      simp [bringsLevelStep, ho, hsteps] at hb
    · exact hsettled (rewardStats_settles hsteps hrun)

omit [GrowthRng] in
theorem applyApplication_aside {application : Option ResourceApplication} (hne : ∀ x ∈ application, x.stat ≠ .hp)
    {rt rt' : ActorStatsRuntime} (h : applyApplication application rt = some rt') : hpOf rt' = hpOf rt := by
  cases application with
  | none => cases h; rfl
  | some x =>
    obtain ⟨r, hr⟩ := Cmd.exec_eq_some.1 h
    obtain ⟨st, hst, rfl⟩ := withApi_eq_some hr
    exact applyResource_of_ne (hne x rfl) _ _ _ hst

omit [GrowthRng] in
/-- The tickers of a player restore HP and never take any. -/
theorem tickPlayerStats_hp {accrual : Accrual} {rt rt' : ActorStatsRuntime}
    (h : tickPlayerStats accrual rt = some rt') :
    (2 ≤ maxHpOf rt → 0 < hpOf rt → 0 < hpOf rt') ∧ (0 ≤ hpOf rt → 0 ≤ hpOf rt') := by
  simp only [tickPlayerStats, Option.bind_eq_bind, Option.bind_eq_some_iff] at h
  obtain ⟨maxHp, _, rt1, h1, _, _, maxSp, _, rt2, h2, maxStamina, _, h3⟩ := h
  have h2' : hpOf rt2 = hpOf rt1 := by
    refine applyApplication_aside (fun x hx => ?_) h2
    obtain ⟨due, -, hx⟩ := Option.bind_eq_some_iff.1 hx
    obtain ⟨amount, -, rfl⟩ := Option.map_eq_some_iff.1 hx
    exact nofun
  have h3' : hpOf rt' = hpOf rt2 := by
    refine applyApplication_aside (fun x hx => ?_) h3
    obtain ⟨due, -, hx⟩ := Option.bind_eq_some_iff.1 hx
    rcases tickPlayerStamina_outcome due.1 (rt2.readPacket .stamina) maxStamina accrual.activity
      accrual.movementMode due.2 with
      ⟨amount, -, -, -, happlication, -⟩ | ⟨-, happlication, -⟩ | ⟨happlication, -⟩
    · cases happlication.symm.trans hx
      exact nofun
    · cases happlication.symm.trans hx
      exact nofun
    · cases happlication.symm.trans hx
  rw [h3', h2']
  cases hhp : accrual.hp.bind fun due =>
      (tickPlayerPassiveHpRecovery due.1 (rt.readPacket .hp) maxHp accrual.activity due.2).1 with
  | none =>
    rw [hhp] at h1
    cases h1
    exact ⟨fun _ h => h, id⟩
  | some application =>
    rw [hhp] at h1
    obtain ⟨due, -, hdue⟩ := Option.bind_eq_some_iff.1 hhp
    obtain ⟨amount, hamount, rfl⟩ := Option.map_eq_some_iff.1 hdue
    have hpos : 0 < amount := accruePassive_pos hamount
    obtain ⟨r, hr⟩ := Cmd.exec_eq_some.1 h1
    obtain ⟨st, hst, rfl⟩ := withApi_eq_some hr
    have hrestored := (applyResource_hp hst).1
    unfold satI32 i32Min i32Max at hrestored
    unfold hpOf maxHpOf
    dsimp only
    omega

omit [GrowthRng] in
/-- A restart leaves HP above zero. -/
theorem restart_hp {rt rt' : ActorStatsRuntime} {hp : LifeWorld.RestartHp}
    (hhp : hp = .fixed LifeWorld.manualRestartHp ∨ hp = .halfMax)
    (h : (withApi (GameStatsApi.setResource .hp (hp.value rt))).exec rt = some rt') (hcap : 2 ≤ maxHpOf rt) :
    0 < hpOf rt' := by
  obtain ⟨r, hr⟩ := Cmd.exec_eq_some.1 h
  obtain ⟨st, hst, rfl⟩ := withApi_eq_some hr
  have hset := setResource_hp hst
  have hval : 1 ≤ hp.value rt := by
    rcases hhp with rfl | rfl
    · show (1 : Int) ≤ 50
      decide
    · show 1 ≤ (maxHpOf rt).tdiv 2
      rw [Int.tdiv_eq_ediv_of_nonneg (by omega)]
      omega
  unfold hpOf
  unfold maxHpOf at hcap
  simp only
  omega

end

end Zohar.Sim
