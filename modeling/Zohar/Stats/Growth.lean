/-
What a level does to the capacities of a player. Growth is rolled anew from its seed whenever it is asked for, so the
rolls of a level are those of the level before and one more; and every later step from the growth to a capacity is
monotone. From zohar-gameplay/src/stats/game/source.rs and api.rs.
-/
import Zohar.Stats.Overflow

namespace Zohar.Stats

open Zohar.Lib

variable {Source Detail : Type} [LinearOrder Source]

/-! ## Rolls -/

namespace PlayerGrowthFormula

def perLevel (g : PlayerGrowthFormula) : PlayerResourceCapacity → Int × Int
  | .hp => g.hpPerLevel
  | .sp => g.spPerLevel
  | .stamina => g.staminaPerLevel

def domainSalt : PlayerResourceCapacity → UInt64
  | .hp => saltHp
  | .sp => saltSp
  | .stamina => saltStamina

/-- The growth of a resource. -/
def random [GrowthRng] (g : PlayerGrowthFormula) (stableId : UInt64) (level : Int) : PlayerResourceCapacity → Int
  | .hp => g.randomHp stableId level
  | .sp => g.randomSp stableId level
  | .stamina => g.randomStamina stableId level

/-- No range of the class reaches below zero. -/
def NonNegative (g : PlayerGrowthFormula) : Prop :=
  ∀ resource, 0 ≤ (g.perLevel resource).1 ∧ 0 ≤ (g.perLevel resource).2

/-- A roll lies between the two bounds of a range, whichever of them is the greater. -/
def Within (range : Int × Int) (roll : Int) : Prop := min range.1 range.2 ≤ roll ∧ roll ≤ max range.1 range.2

end PlayerGrowthFormula

/-- The distribution is over the closed range it was made for. -/
def GrowthRng.Uniform [GrowthRng] : Prop :=
  ∀ seed lower upper i, lower ≤ upper →
    lower ≤ GrowthRng.roll seed lower upper i ∧ GrowthRng.roll seed lower upper i ≤ upper

theorem splitMix64Word_lt (x : UInt64) : splitMix64Word x < 2 ^ 32 := by
  unfold splitMix64Word
  dsimp only
  generalize _ * (0xCB24D0A5C88C35B3 : UInt64) = z
  rw [UInt64.toNat_shiftRight]
  have hlt := z.toNat_lt
  show z.toNat >>> 32 < 2 ^ 32
  rw [Nat.shiftRight_eq_div_pow]
  omega

theorem uniformDraw_lt {range : Nat} (hrange : 0 < range) (fuel : Nat) : ∀ x, (uniformDraw range fuel x).1 < range := by
  induction fuel with
  | zero => exact fun _ => hrange
  | succ fuel ih =>
    intro x
    unfold uniformDraw
    dsimp only
    split
    · exact Nat.div_lt_of_lt_mul (Nat.mul_lt_mul_of_pos_right (splitMix64Word_lt _) hrange)
    · exact ih _

theorem uniformRoll_mem {lower upper : Int} (hle : lower ≤ upper) (i : Nat) : ∀ x,
    lower ≤ uniformRoll lower ((upper - lower + 1) % 2 ^ 32).toNat i x ∧
      uniformRoll lower ((upper - lower + 1) % 2 ^ 32).toNat i x ≤ upper := by
  induction i with
  | zero =>
    intro x
    unfold uniformRoll
    split
    · omega
    · rename_i hrange
      have hlt := uniformDraw_lt (Nat.pos_of_ne_zero hrange) 64 x
      omega
  | succ i ih => exact fun x => ih _

theorem splitMix64Rolls_uniform : @GrowthRng.Uniform splitMix64Rolls := fun seed _ _ i hle => uniformRoll_mem hle i seed

section
variable [GrowthRng]

namespace PlayerGrowthFormula

variable {g : PlayerGrowthFormula} {stableId : UInt64} {level : Int} {resource : PlayerResourceCapacity}

omit [GrowthRng] in
theorem rolls_count (hl : 1 ≤ level) (hh : level ≤ i32Max) :
    (satI32 (level - 1) % 18446744073709551616).toNat = (level - 1).toNat := by
  have hsat : satI32 (level - 1) = level - 1 := by
    unfold satI32 i32Min i32Max at *
    omega
  rw [hsat]
  unfold i32Max at hh
  omega

/-- The rolls of a level are those of the one before and one more. -/
theorem growthRolls_succ (g : PlayerGrowthFormula) (stableId : UInt64) (hu : GrowthRng.Uniform) (salt : UInt64)
    (range : Int × Int) (hl : 1 ≤ level) (hh : level + 1 ≤ i32Max) : ∃ roll, Within range roll ∧
      g.growthRolls salt stableId (level + 1) range = g.growthRolls salt stableId level range ++ [roll] := by
  have hcount : (level + 1 - 1).toNat = (level - 1).toNat + 1 := by omega
  unfold growthRolls Within
  rw [rolls_count (by omega) hh, rolls_count hl (by omega), hcount]
  cases g.version with
  | v1 =>
    by_cases hle : range.1 ≤ range.2
    · rw [if_pos hle, min_eq_left hle, max_eq_right hle]
      dsimp only
      rw [List.range_succ, List.map_append, List.map_singleton]
      exact ⟨_, hu _ _ _ _ hle, rfl⟩
    · have hge : range.2 ≤ range.1 := by omega
      rw [if_neg hle, min_eq_right hge, max_eq_left hge]
      dsimp only
      rw [List.range_succ, List.map_append, List.map_singleton]
      exact ⟨_, hu _ _ _ _ hge, rfl⟩

end PlayerGrowthFormula

/-! ## Growth -/

theorem exactGrowth_some (g : PlayerGrowthFormula) (stableId : UInt64) (level : Int)
    (resource : PlayerResourceCapacity) :
    exactGrowth g (some stableId) level resource =
      (g.growthRolls (PlayerGrowthFormula.domainSalt resource) stableId level (g.perLevel resource)).sum := by
  cases resource <;> simp [exactGrowth, growthExprs, PlayerGrowthFormula.domainSalt, PlayerGrowthFormula.perLevel]

/-- Where the sum of the rolls fits, the growth is that sum. -/
theorem random_of_fits {g : PlayerGrowthFormula} {stableId : UInt64} {level : Int} {resource : PlayerResourceCapacity}
    (h : (IntExpr.sum (.lit 0) (g.growthRolls (PlayerGrowthFormula.domainSalt resource) stableId level
      (g.perLevel resource))).Fits .i32) :
    g.random stableId level resource = exactGrowth g (some stableId) level resource := by
  have hwrapped := IntExpr.wrapped_of_fits h
  rw [PlayerGrowthFormula.wrapped_sum_growthRolls, IntExpr.exact_sum, IntExpr.exact_lit, zero_add] at hwrapped
  rw [exactGrowth_some, ← hwrapped]
  cases resource <;> rfl

/-- A level adds one roll of each resource; without a stable id it adds nothing. -/
theorem exactGrowth_succ (hu : GrowthRng.Uniform) {g : PlayerGrowthFormula} {level : Int} (hl : 1 ≤ level)
    (hh : level + 1 ≤ i32Max) (resource : PlayerResourceCapacity) :
    (∀ stableId, ∃ roll, PlayerGrowthFormula.Within (g.perLevel resource) roll ∧
      exactGrowth g (some stableId) (level + 1) resource = exactGrowth g (some stableId) level resource + roll) ∧
    exactGrowth g none (level + 1) resource = exactGrowth g none level resource := by
  constructor
  · intro stableId
    obtain ⟨roll, hroll, hrolls⟩ := g.growthRolls_succ stableId hu (PlayerGrowthFormula.domainSalt resource)
      (g.perLevel resource) hl hh
    exact ⟨roll, hroll, by rw [exactGrowth_some, exactGrowth_some, hrolls, List.sum_append, List.sum_singleton]⟩
  · cases resource <;> rfl

theorem exactGrowth_le_succ (hu : GrowthRng.Uniform) {g : PlayerGrowthFormula} (hg : g.NonNegative) {level : Int}
    (hl : 1 ≤ level) (hh : level + 1 ≤ i32Max) (stableId : Option UInt64) (resource : PlayerResourceCapacity) :
    exactGrowth g stableId level resource ≤ exactGrowth g stableId (level + 1) resource := by
  obtain ⟨hsome, hnone⟩ := exactGrowth_succ hu (g := g) hl hh resource
  cases stableId with
  | none => exact hnone.ge
  | some stableId =>
    obtain ⟨roll, hroll, hsum⟩ := hsome stableId
    have hlow := hroll.1
    have hpos := hg resource
    omega

/-- The growth of a resource is a part of the expression for its capacity. -/
theorem growth_fits {st : ActorStatState Source Detail} {player : PlayerStatSource} {stableId : UInt64}
    (hid : st.stableId = some stableId) (h : (derivedExprs (.player player) st).Fits)
    (resource : PlayerResourceCapacity) :
    (IntExpr.sum (.lit 0) (player.growth.growthRolls (PlayerGrowthFormula.domainSalt resource) stableId
      (st.base.get .level) (player.growth.perLevel resource))).Fits .i32 := by
  have hcap := h.get resource.capStat
  rw [get_capStat_player, hid] at hcap
  have hlevel := get_level_player st player
  cases resource <;>
    · simp only [playerCapacityExpr, hlevel, IntExpr.wrapped_lit] at hcap
      exact hcap.1.1.1.1.1.2.1

/-! ## From the growth to the capacity -/

omit [GrowthRng] in
/-- A value and a percentage of it that takes no more than the value away grow together, although the quotient is
truncated. -/
theorem add_percentage_mono {base base' pct : Int} (h : base ≤ base') (hpct : -100 ≤ pct) :
    base + (base * pct).tdiv 100 ≤ base' + (base' * pct).tdiv 100 := by
  have hscaled : base * pct - 100 * (base' - base) ≤ base' * pct := by
    have hmul : (base' - base) * -100 ≤ (base' - base) * pct := Int.mul_le_mul_of_nonneg_left hpct (by omega)
    have hexpand : (base' - base) * pct = base' * pct - base * pct := by ring
    omega
  generalize base * pct = x at *
  generalize base' * pct = y at *
  rw [Int.tdiv_eq_ediv, Int.tdiv_eq_ediv, show Int.sign 100 = 1 from rfl]
  split_ifs <;> omega

omit [GrowthRng] in
theorem add_cappedPercentage_mono {base base' pct cap : Int} (h : base ≤ base') (hpct : -100 ≤ pct) :
    base + min ((base * pct).tdiv 100) cap ≤ base' + min ((base' * pct).tdiv 100) cap := by
  have := add_percentage_mono h hpct
  omega

/-- Two states of one player that agree on all the bonuses, the second with no less growth. -/
theorem capacity_mono {player : PlayerStatSource} {st st' : ActorStatState Source Detail}
    (hseed : ∀ stat, stat ∉ [Stat.level, .exp, .nextExp, .levelStep] →
      exactSeed (.player player) st' stat = exactSeed (.player player) st stat)
    (hpct : ∀ stat ∈ [Stat.maxHpPct, .maxSpPct], -100 ≤ exactSeed (.player player) st stat)
    (hgrowth : ∀ resource, exactGrowth player.growth st.stableId (st.base.get .level) resource ≤
      exactGrowth player.growth st'.stableId (st'.base.get .level) resource) (resource : PlayerResourceCapacity) :
    capacity (.player player) st resource ≤ capacity (.player player) st' resource := by
  have hg := hgrowth resource
  cases resource with
  | hp =>
    simp only [capacity, exactSeed_level_player, hseed .ht (by decide), hseed .bonusMaxHp (by decide),
      hseed .maxHpPrePctBonus (by decide), hseed .maxHpPct (by decide), hseed .partyTankerBonus (by decide)]
    exact Int.add_le_add_right (add_cappedPercentage_mono (by omega) (hpct _ (by decide))) _
  | sp =>
    simp only [capacity, exactSeed_level_player, hseed .iq (by decide), hseed .bonusMaxSp (by decide),
      hseed .maxSpPct (by decide), hseed .partySkillMasterBonus (by decide)]
    exact Int.add_le_add_right (add_cappedPercentage_mono (by omega) (hpct _ (by decide))) _
  | stamina =>
    simp only [capacity, exactSeed_level_player, hseed .ht (by decide), hseed .bonusMaxStamina (by decide)]
    omega

end

/-! ## Stored values -/

/-- What only modifiers add to is never stored. -/
def AccumulatorsUnstored (st : ActorStatState Source Detail) : Prop :=
  ∀ stat, stat.role = .modifierAccumulator → st.base.get stat = 0

def KeepsUnstored (s t : ActorStatState Source Detail) : Prop := AccumulatorsUnstored s → AccumulatorsUnstored t

theorem unstored_set {s t : ActorStatState Source Detail} {stat : Stat} {value : Int} (hs : AccumulatorsUnstored s)
    (hrole : stat.role ≠ .modifierAccumulator) (ht : t.base = s.base.set stat value) : AccumulatorsUnstored t := by
  intro other hother
  have hne : other ≠ stat := by
    rintro rfl
    exact hrole hother
  rw [ht, PointValueStore.get_set, if_neg hne]
  exact hs other hother

theorem keepsUnstored_setBaseProjectionStat (s : ActorStatState Source Detail) (stat : Stat) (value : Int)
    (hrole : stat.role ≠ .modifierAccumulator) : KeepsUnstored s (s.setBaseProjectionStat stat value) := by
  intro hs
  unfold ActorStatState.setBaseProjectionStat
  split
  · exact unstored_set hs hrole rfl
  · exact hs

theorem writeRel_keepsUnstored : WriteRel (@KeepsUnstored Source Detail _) where
  refl _ := id
  trans s t u hst htu hs := htu (hst hs)
  stored s t stat value _ _ h := by
    intro hs
    unfold ActorStatState.setStoredStat at h
    split at h
    · cases h
    · split at h
      · cases h
      · rename_i hrole
        have hrole' : stat.role ≠ .modifierAccumulator := by rw [not_not.1 hrole]; decide
        split at h
        · cases h; exact unstored_set hs hrole' rfl
        · cases h; exact hs
  progression s p _ := by
    intro hs
    have h0 : AccumulatorsUnstored { s with progression := p.normalized } := hs
    have h1 := keepsUnstored_setBaseProjectionStat _ .level p.normalized.level (by decide) h0
    have h2 := keepsUnstored_setBaseProjectionStat _ .exp (clampU32ToI32 p.normalized.expInLevel) (by decide) h1
    have h3 := keepsUnstored_setBaseProjectionStat _ .nextExp (clampU32ToI32 p.normalized.nextExpInLevel)
      (by decide) h2
    exact keepsUnstored_setBaseProjectionStat _ .levelStep p.normalized.levelStep (by decide) h3
  resource s t stat v h := by
    unfold ActorStatState.setResourceStat at h
    cases stat <;> first
      | cases h
      | (simp only at h; split at h <;> cases h <;> exact id)
  flags s flags := by
    unfold ActorStatState.setExternalImmuneFlags
    split <;> exact id
  stableId s id := by
    unfold ActorStatState.setStableId
    split <;> exact fun hs => hs

section
variable [GrowthRng]

theorem apiStep_unstored {st t : ActorStatState Source Detail} {op : ActorStatSource × ApiOp Source Detail}
    (hst : AccumulatorsUnstored st) (h : apiStep st op = some t) : AccumulatorsUnstored t := by
  rcases GameStatsApi.apply_cases h with ⟨m, _, hm⟩ | ⟨_, rfl | ⟨report, hr⟩⟩
  · rcases GameStatsApi.mutate_cases writeRel_keepsUnstored hm with
      ⟨hk, -, -⟩ | ⟨_, _, _, -, -, rfl⟩ | ⟨_, _, -, -, rfl⟩ | ⟨_, -, rfl⟩
    · exact hk hst
    · exact hst
    · exact hst
    · exact hst
  · exact hst
  · obtain ⟨r, _, rfl, _⟩ := GameStatsApi.recomputeReport_eq_some hr
    exact hst

omit [GrowthRng] in
theorem exactSeed_player {b : Bundles Source Detail} {st : ActorStatState Source Detail} (h : LedgerOk b st)
    (player : PlayerStatSource) (stat : Stat) : exactSeed (.player player) st stat =
      st.base.get stat + if stat.acceptsSourceContribution then modifierTotal b stat else 0 := by
  have hsource : sourceSeedTerms (.player player) stat = [] := rfl
  unfold exactSeed seedTerms
  rw [hsource, List.nil_append]
  split
  · rw [sum_iter_eq_modifierTotal h]
  · rfl

/-! ## Level-ups -/

/-- The ends of two histories of a player that agree on everything but the progression, the second one level up. -/
structure LevelUp (n : Int) (ops ops' : List (ActorStatSource × ApiOp Source Detail))
    (st st' : ActorStatState Source Detail) : Prop where
  run : run apiStep (.new .player) ops = some st
  run' : Lib.run apiStep (.new .player) ops' = some st'
  level : st.base.get .level = n
  level' : st'.base.get .level = n + 1
  base : ∀ stat ∉ [Stat.level, .exp, .nextExp, .levelStep], st'.base.get stat = st.base.get stat
  stableId : st'.stableId = st.stableId
  bundles : installedBundles ops' = installedBundles ops

/-- A level up leaves every capacity at least as large. -/
theorem LevelUp.capacity_le (hu : GrowthRng.Uniform) {player : PlayerStatSource} (hg : player.growth.NonNegative)
    {n : Int} (hn : 1 ≤ n) {ops ops' : List (ActorStatSource × ApiOp Source Detail)}
    {st st' : ActorStatState Source Detail} (hup : LevelUp n ops ops' st st')
    (hpct : ∀ stat ∈ [Stat.maxHpPct, .maxSpPct], -100 ≤ modifierTotal (installedBundles ops) stat)
    (resource : PlayerResourceCapacity) :
    capacity (.player player) st resource ≤ capacity (.player player) st' resource := by
  have hledger := run_ledgerOk ops (ledgerOk_new .player) hup.run
  have hledger' := run_ledgerOk ops' (ledgerOk_new .player) hup.run'
  have hbundles := hup.bundles
  have hnew : AccumulatorsUnstored (.new .player : ActorStatState Source Detail) := fun _ _ => rfl
  have hzero : AccumulatorsUnstored st :=
    run_inv (I := AccumulatorsUnstored) (fun _ _ _ hs h => apiStep_unstored hs h) hnew hup.run
  apply capacity_mono
  · intro stat hstat
    rw [exactSeed_player hledger, exactSeed_player hledger', hup.base stat hstat]
    simp only [installedBundles] at hbundles
    rw [hbundles]
  · intro stat hstat
    have hrole : stat.role = .modifierAccumulator ∧ stat.acceptsSourceContribution = true := by
      revert stat
      decide
    rw [exactSeed_player hledger, hzero stat hrole.1, if_pos hrole.2, zero_add]
    exact hpct stat hstat
  · intro resource
    have hmax : n + 1 ≤ i32Max := by
      rw [← hup.level']
      exact (hledger'.base .level).2
    rw [hup.level, hup.level', hup.stableId]
    exact exactGrowth_le_succ hu hg hn hmax st.stableId resource

/-- Where the capacities are at least as large, recomputing succeeds again, with maxima at least as large. -/
theorem recomputeReport_mono {source : ActorStatSource} {st st' : ActorStatState Source Detail}
    (hstore : ∀ resource : PlayerResourceCapacity, (GameStatsApi.derivedStore source st).get resource.capStat ≤
      (GameStatsApi.derivedStore source st').get resource.capStat)
    {report : StatRecomputeReport} {t : ActorStatState Source Detail}
    (hr : GameStatsApi.recomputeReport source st = some (report, t)) :
    ∃ report' t', GameStatsApi.recomputeReport source st' = some (report', t') ∧
      ∀ stat ∈ [Stat.maxHp, .maxSp, .maxStamina], t.computed.get stat ≤ t'.computed.get stat := by
  obtain ⟨resources, hclamp, rfl, -⟩ := GameStatsApi.recomputeReport_eq_some hr
  obtain ⟨hhp, hsp, hstamina⟩ := capsOk_of_clampToCaps hclamp
  obtain ⟨resources', hclamp'⟩ := clampToCaps_of_capsOk st'.resources
    ⟨hhp.trans (hstore .hp), hsp.trans (hstore .sp), hstamina.trans (hstore .stamina)⟩
  rw [GameStatsApi.recomputeReport_eq, hclamp']
  refine ⟨_, _, rfl, ?_⟩
  intro stat hstat
  simp only [List.mem_cons, List.not_mem_nil, or_false] at hstat
  rcases hstat with rfl | rfl | rfl
  · exact hstore .hp
  · exact hstore .sp
  · exact hstore .stamina

theorem levelUp_keeps_maxima (hu : GrowthRng.Uniform) {player : PlayerStatSource} (hg : player.growth.NonNegative)
    {n : Int} (hn : 1 ≤ n) {ops ops' : List (ActorStatSource × ApiOp Source Detail)}
    {st st' : ActorStatState Source Detail} (hup : LevelUp n ops ops' st st')
    (hpct : ∀ stat ∈ [Stat.maxHpPct, .maxSpPct], -100 ≤ modifierTotal (installedBundles ops) stat)
    (hfits : (derivedExprs (.player player) st).Fits) (hfits' : (derivedExprs (.player player) st').Fits) :
    (∀ stableId, st.stableId = some stableId → ∀ resource, ∃ roll,
      PlayerGrowthFormula.Within (player.growth.perLevel resource) roll ∧
        player.growth.random stableId (n + 1) resource = player.growth.random stableId n resource + roll) ∧
    ∀ report t, GameStatsApi.recomputeReport (.player player) st = some (report, t) →
      ∃ report' t', GameStatsApi.recomputeReport (.player player) st' = some (report', t') ∧
        ∀ stat ∈ [Stat.maxHp, .maxSp, .maxStamina], t.computed.get stat ≤ t'.computed.get stat := by
  constructor
  · intro stableId hid resource
    have hmax : n + 1 ≤ i32Max := by
      rw [← hup.level']
      exact ((run_ledgerOk ops' (ledgerOk_new .player) hup.run').base .level).2
    obtain ⟨roll, hroll, hsum⟩ := (exactGrowth_succ hu (g := player.growth) hn hmax resource).1 stableId
    refine ⟨roll, hroll, ?_⟩
    have hgrowth := growth_fits hid hfits resource
    have hgrowth' := growth_fits (hup.stableId.trans hid) hfits' resource
    rw [hup.level] at hgrowth
    rw [hup.level'] at hgrowth'
    rw [random_of_fits hgrowth, random_of_fits hgrowth', hsum]
  · intro report t hr
    apply recomputeReport_mono ?_ hr
    intro resource
    rw [derivedStore_capStat hfits, derivedStore_capStat hfits']
    exact hup.capacity_le hu hg hn hpct resource

end

/-- A warrior of a given level, half of whose life a bundle takes. -/
def levelHistory (level : I32) : List (ActorStatSource × ApiOp Unit Unit) :=
  [(warriorSource, .mutate (.setStableId 7)),
   (warriorSource, .mutate (.setPlayerProgression level 0 300)),
   (warriorSource, .mutate (.setStoredStat .ht ⟨4, by decide⟩)),
   (warriorSource, .mutate (.replaceSourceBundle () ⟨[⟨.maxHpPct, -50, ()⟩]⟩))]

theorem levelUp_keeps_maxima_warrior :
    letI := splitMix64Rolls
    ∃ st st', run apiStep (.new .player) (levelHistory ⟨1, by decide⟩) = some st ∧
      run apiStep (.new .player) (levelHistory ⟨2, by decide⟩) = some st' ∧
      ∀ report t, GameStatsApi.recomputeReport warriorSource st = some (report, t) →
        ∃ report' t', GameStatsApi.recomputeReport warriorSource st' = some (report', t') ∧
          ∀ stat ∈ [Stat.maxHp, .maxSp, .maxStamina], t.computed.get stat ≤ t'.computed.get stat := by
  let := splitMix64Rolls
  have hruns : ((run apiStep (.new .player) (levelHistory ⟨1, by decide⟩)).bind fun st =>
      (run apiStep (.new .player) (levelHistory ⟨2, by decide⟩)).map fun st' =>
        decide ((st.base.get .level = 1 ∧ st'.base.get .level = 2 ∧ st'.stableId = st.stableId ∧
          ∀ stat ∈ Stat.all, stat ∉ [Stat.level, .exp, .nextExp, .levelStep] → st'.base.get stat = st.base.get stat) ∧
          (derivedExprs warriorSource st).Fits ∧ (derivedExprs warriorSource st').Fits)) = some true := by
    decide +kernel
  obtain ⟨st, hst, hmap⟩ := Option.bind_eq_some_iff.1 hruns
  obtain ⟨st', hst', hfacts⟩ := Option.map_eq_some_iff.1 hmap
  obtain ⟨⟨hlevel, hlevel', hid, hbase⟩, hfits, hfits'⟩ := of_decide_eq_true hfacts
  refine ⟨st, st', hst, hst', ?_⟩
  have hup : LevelUp 1 (levelHistory ⟨1, by decide⟩) (levelHistory ⟨2, by decide⟩) st st' :=
    ⟨hst, hst', hlevel, hlevel', fun stat => hbase stat stat.mem_all, hid, rfl⟩
  have hpct : ∀ stat ∈ [Stat.maxHpPct, .maxSpPct],
      -100 ≤ modifierTotal (installedBundles (levelHistory ⟨1, by decide⟩)) stat := by
    intro stat hstat
    unfold modifierTotal
    rw [finsum_unique]
    revert stat
    decide
  have hg : PlayerGrowthFormula.NonNegative ⟨(36, 44), (18, 22), (5, 8), .v1⟩ := by
    intro resource
    cases resource <;> decide
  exact (levelUp_keeps_maxima splitMix64Rolls_uniform hg (le_refl 1) hup hpct hfits hfits').2

end Zohar.Stats
