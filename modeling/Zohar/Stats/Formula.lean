/-
The derived values of an actor as expressions in what it holds: the stored values, the seed of its source, the
amounts of its modifiers and the constants of its class. Read with results that wrap they are the store of a
recomputation; read with checks they are that of a build that stops at an overflow.
-/
import Zohar.Lib.IntExpr
import Zohar.Stats.Canonical

namespace Zohar.Stats

open Zohar.Lib

variable {Source Detail : Type} [LinearOrder Source]

/-! ## Stores of expressions -/

/-- One expression for each statistic, and every expression that was written. A value that was not written is
a literal. -/
structure ExprStore where
  values : Stat → IntExpr
  written : List IntExpr
  covered : ∀ s, (∃ n, values s = .lit n) ∨ values s ∈ written

namespace ExprStore

def ofStore (p : PointValueStore) : ExprStore := ⟨fun s => .lit (p.get s), [], fun s => .inl ⟨p.get s, rfl⟩⟩

def get (p : ExprStore) (s : Stat) : IntExpr := p.values s

def set (p : ExprStore) (s : Stat) (e : IntExpr) : ExprStore where
  values t := if t = s then e else p.values t
  written := e :: p.written
  covered t := by
    split
    · exact .inr (List.mem_cons_self ..)
    · exact (p.covered t).imp_right fun h => List.mem_cons_of_mem _ h

def add (p : ExprStore) (s : Stat) (d : Int) : ExprStore := p.set s (p.get s + d)

@[simp] theorem get_set_self (p : ExprStore) (s : Stat) (e : IntExpr) : (p.set s e).get s = e := if_pos rfl

theorem get_set_of_ne {p : ExprStore} {s t : Stat} {e : IntExpr} (h : t ≠ s) : (p.set s e).get t = p.get t := if_neg h

theorem get_add (p : ExprStore) (s t : Stat) (d : Int) :
    (p.add s d).get t = if t = s then p.get s + d else p.get t := rfl

/-- The values, each operation wrapping. -/
def wrapped (p : ExprStore) : PointValueStore := ⟨fun s => (p.get s).wrapped .i32⟩

/-- The values of a build with overflow checks, which stops at the first write that overflows. -/
def checked (p : ExprStore) : Option PointValueStore :=
  if ∀ e ∈ p.written, (e.checked .i32).isSome then some ⟨fun s => ((p.get s).checked .i32).getD 0⟩ else none

/-- Every written expression fits in `i32`. -/
def Fits (p : ExprStore) : Prop := ∀ e ∈ p.written, e.Fits .i32

instance (p : ExprStore) : Decidable p.Fits := inferInstanceAs (Decidable (∀ e ∈ p.written, e.Fits .i32))

theorem Fits.get {p : ExprStore} (h : p.Fits) (s : Stat) : (p.get s).Fits .i32 := by
  rcases p.covered s with ⟨n, hn⟩ | hs
  · rw [ExprStore.get, hn]; trivial
  · exact h _ hs

theorem get_wrapped (p : ExprStore) (s : Stat) : p.wrapped.get s = (p.get s).wrapped .i32 := rfl

theorem wrapped_get_of_fits {p : ExprStore} (h : p.Fits) (s : Stat) : p.wrapped.get s = (p.get s).exact :=
  IntExpr.wrapped_of_fits (h.get s)

/-- The checks pass exactly where every write fits, and then no result wraps. -/
theorem checked_eq_some_iff {p : ExprStore} {q : PointValueStore} : p.checked = some q ↔ p.Fits ∧ q = p.wrapped := by
  have hiff : (∀ e ∈ p.written, (e.checked .i32).isSome) ↔ p.Fits :=
    forall₂_congr fun _ _ => IntExpr.checked_isSome_iff
  have hval : p.Fits → (⟨fun s => ((p.get s).checked .i32).getD 0⟩ : PointValueStore) = p.wrapped := by
    intro h
    refine PointValueStore.ext_get fun s => ?_
    have hs := IntExpr.checked_eq_some_iff.2 ⟨h.get s, rfl⟩
    rw [wrapped_get_of_fits h]
    show ((p.get s).checked .i32).getD 0 = _
    rw [hs, Option.getD_some]
  unfold checked
  by_cases h : p.Fits
  · rw [if_pos (hiff.2 h), hval h, Option.some.injEq]
    exact ⟨fun he => ⟨h, he.symm⟩, fun he => he.2.symm⟩
  · rw [if_neg (mt hiff.1 h)]
    exact ⟨nofun, fun he => absurd he.1 h⟩

@[simp] theorem wrapped_ofStore (p : PointValueStore) : (ofStore p).wrapped = p := rfl

@[simp] theorem wrapped_set (p : ExprStore) (s : Stat) (e : IntExpr) :
    (p.set s e).wrapped = p.wrapped.set s (e.wrapped .i32) := by
  refine PointValueStore.ext_get fun t => ?_
  rw [get_wrapped, PointValueStore.get_set]
  by_cases h : t = s
  · rw [if_pos h, h, get_set_self]
  · rw [if_neg h, get_set_of_ne h]
    rfl

@[simp] theorem wrapped_add (p : ExprStore) (s : Stat) (d : Int) : (p.add s d).wrapped = p.wrapped.add s d :=
  wrapped_set p s _

end ExprStore

/-! ## Seeds -/

def applySourceSeedExprs (seeded : ExprStore) : ActorStatSource → ExprStore
  | .player _ => seeded
  | .mob mob =>
    ((((seeded.add .level mob.level).add .st mob.core.st).add .ht mob.core.ht).add .dx mob.core.dx).add .iq mob.core.iq

def addModifierExpr (seeded : ExprStore) (m : GenericModifierInstance Source Detail) : ExprStore :=
  if m.stat.acceptsSourceContribution then seeded.add m.stat m.amount else seeded

def seedRebuildExprs (st : ActorStatState Source Detail) (source : ActorStatSource) : ExprStore :=
  st.modifiers.iter.foldl addModifierExpr (applySourceSeedExprs (.ofStore st.base) source)

theorem wrapped_applySourceSeedExprs (p : ExprStore) (source : ActorStatSource) :
    (applySourceSeedExprs p source).wrapped = applySourceSeed p.wrapped source := by
  cases source with
  | player _ => rfl
  | mob mob => simp only [applySourceSeedExprs, applySourceSeed, ExprStore.wrapped_add]

omit [LinearOrder Source] in
theorem wrapped_foldl_addModifierExpr (l : List (GenericModifierInstance Source Detail)) (p : ExprStore) :
    (l.foldl addModifierExpr p).wrapped = l.foldl addModifier p.wrapped := by
  induction l generalizing p with
  | nil => rfl
  | cons m l ih =>
    have hm : (addModifierExpr p m).wrapped = addModifier p.wrapped m := by
      unfold addModifierExpr addModifier
      split
      · exact ExprStore.wrapped_add p m.stat m.amount
      · rfl
    rw [List.foldl_cons, List.foldl_cons, ih, hm]

theorem wrapped_seedRebuildExprs (st : ActorStatState Source Detail) (source : ActorStatSource) :
    (seedRebuildExprs st source).wrapped = seedRebuildState st source := by
  rw [seedRebuildExprs, wrapped_foldl_addModifierExpr, wrapped_applySourceSeedExprs, ExprStore.wrapped_ofStore]
  rfl

/-- What the source adds to a stored value. -/
def sourceSeedTerms : ActorStatSource → Stat → List Int
  | .player _, _ => []
  | .mob mob, .level => [mob.level]
  | .mob mob, .st => [mob.core.st]
  | .mob mob, .ht => [mob.core.ht]
  | .mob mob, .dx => [mob.core.dx]
  | .mob mob, .iq => [mob.core.iq]
  | .mob _, _ => []

/-- What the source and the modifiers add to a stored value, in the order in which they are added. -/
def seedTerms (source : ActorStatSource) (st : ActorStatState Source Detail) (stat : Stat) : List Int :=
  sourceSeedTerms source stat ++ if stat.acceptsSourceContribution then amountsFor stat st.modifiers.iter else []

/-- A seeded value as an integer. -/
def exactSeed (source : ActorStatSource) (st : ActorStatState Source Detail) (stat : Stat) : Int :=
  st.base.get stat + (seedTerms source st stat).sum

omit [LinearOrder Source] in
theorem get_foldl_addModifierExpr (stat : Stat) (l : List (GenericModifierInstance Source Detail)) (p : ExprStore) :
    (l.foldl addModifierExpr p).get stat =
      (p.get stat).sum (if stat.acceptsSourceContribution then amountsFor stat l else []) := by
  induction l generalizing p with
  | nil => simp [amountsFor]
  | cons m l ih =>
    rw [List.foldl_cons, ih, addModifierExpr]
    by_cases hs : m.stat = stat
    · subst hs
      by_cases ha : m.stat.acceptsSourceContribution
      · simp only [ha, if_true, ExprStore.get_add, amountsFor, decide_true, List.filter_cons_of_pos, List.map_cons,
          IntExpr.sum_cons]
      · simp only [ha, if_false, Bool.false_eq_true]
    · have hl : amountsFor stat (m :: l) = amountsFor stat l := by simp [amountsFor, hs]
      rw [hl]
      split
      · rw [ExprStore.get_add, if_neg (Ne.symm hs)]
      · rfl

theorem get_seedRebuildExprs (st : ActorStatState Source Detail) (source : ActorStatSource) (stat : Stat) :
    (seedRebuildExprs st source).get stat = (IntExpr.lit (st.base.get stat)).sum (seedTerms source st stat) := by
  have hsource : (applySourceSeedExprs (.ofStore st.base) source).get stat =
      (IntExpr.lit (st.base.get stat)).sum (sourceSeedTerms source stat) := by
    cases source with
    | player _ => rfl
    | mob mob => cases stat <;> rfl
  rw [seedRebuildExprs, get_foldl_addModifierExpr, hsource, seedTerms, IntExpr.sum_append]

@[simp] theorem exact_get_seedRebuildExprs (st : ActorStatState Source Detail) (source : ActorStatSource)
    (stat : Stat) :
    ((seedRebuildExprs st source).get stat).exact = exactSeed source st stat := by
  rw [get_seedRebuildExprs, IntExpr.exact_sum]
  rfl

/-! ## Growth -/

section
variable [GrowthRng]

namespace PlayerGrowthFormula

/-- The rolls that `sum_growth_rolls` adds up. -/
def growthRolls (g : PlayerGrowthFormula) (domainSalt stableId : UInt64) (level : Int) (range : Int × Int) : List Int :=
  let rolls := (satI32 (level - 1) % 18446744073709551616).toNat
  let (lower, upper) := if range.1 ≤ range.2 then (range.1, range.2) else (range.2, range.1)
  match g.version with
  | .v1 => (List.range rolls).map (GrowthRng.roll (growthV1 ^^^ domainSalt ^^^ stableId) lower upper)

omit [GrowthRng] in
theorem wrapped_sum_rolls (roll : Nat → Int) (n : Nat) :
    (IntExpr.sum (.lit 0) ((List.range n).map roll)).wrapped .i32 = sumRolls roll n := by
  induction n with
  | zero => rfl
  | succ n ih =>
    rw [List.range_succ, List.map_append, IntExpr.sum_append, List.map_singleton, IntExpr.sum_cons, IntExpr.sum_nil,
      IntExpr.wrapped_add, ih]
    rfl

theorem wrapped_sum_growthRolls (g : PlayerGrowthFormula) (domainSalt stableId : UInt64) (level : Int)
    (range : Int × Int) :
    (IntExpr.sum (.lit 0) (g.growthRolls domainSalt stableId level range)).wrapped .i32 =
      g.sumGrowthRolls domainSalt stableId level range := by
  unfold growthRolls sumGrowthRolls
  cases g.version with
  | v1 =>
    by_cases h : (satI32 (level - 1) % 18446744073709551616).toNat = 0
    · simp only [h, if_true, List.range_zero, List.map_nil, IntExpr.sum_nil, IntExpr.wrapped_lit]
    · simp only [h, if_false, wrapped_sum_rolls]

end PlayerGrowthFormula

/-! ## Derived values -/

def optionalStatExpr (computed : ExprStore) (stat : Option Stat) : IntExpr := (stat.map computed.get).getD (.lit 0)

def percentageExpr (value pct : IntExpr) : IntExpr := value * pct / (100 : Int)

def cappedPercentageExpr (value pct : IntExpr) (maxBonus : Int) : IntExpr := min (percentageExpr value pct) maxBonus

def setPlayerResourceCapacityExpr (computed : ExprStore) (player : PlayerStatSource)
    (resource : PlayerResourceCapacity) (base : IntExpr) : ExprStore :=
  let prePercentageBase :=
    base + optionalStatExpr computed resource.flatBonusStat + optionalStatExpr computed resource.prePercentageBonusStat
  let percentageBonus :=
    (resource.cappedPercentageStat.map fun stat =>
      cappedPercentageExpr prePercentageBase (computed.get stat)
        ((player.balance.cappedPercentageBonusMax resource).getD i32Max)).getD (.lit 0)
  let postPercentageBonus := optionalStatExpr computed resource.postPercentageBonusStat
  computed.set resource.capStat (prePercentageBase + percentageBonus + postPercentageBonus)

/-- The sums of the rolls for life, spirit and stamina; without a stable id there are none. -/
def growthExprs (growth : PlayerGrowthFormula) (stableId : Option UInt64) (level : Int) : IntExpr × IntExpr × IntExpr :=
  (stableId.map fun stableId =>
    (IntExpr.sum (.lit 0) (growth.growthRolls PlayerGrowthFormula.saltHp stableId level growth.hpPerLevel),
      IntExpr.sum (.lit 0) (growth.growthRolls PlayerGrowthFormula.saltSp stableId level growth.spPerLevel),
      IntExpr.sum (.lit 0) (growth.growthRolls PlayerGrowthFormula.saltStamina stableId level
      growth.staminaPerLevel))).getD
    (.lit 0, .lit 0, .lit 0)

def rebuildPlayerExprs (computed : ExprStore) (stableId : Option UInt64) (player : PlayerStatSource) : ExprStore :=
  let lvl := computed.get .level
  let st := computed.get .st
  let ht := computed.get .ht
  let dx := computed.get .dx
  let iq := computed.get .iq
  let flatAttSpeed := computed.get .attSpeed
  let flatAttGrade := computed.get .attGrade
  let flatDefGrade := computed.get .defGrade
  let flatMovSpeed := computed.get .movSpeed
  let flatCastingSpeed := computed.get .castingSpeed
  let flatMagicAttGrade := computed.get .magicAttGrade
  let flatMagicDefGrade := computed.get .magicDefGrade
  let (randomHp, randomSp, randomStamina) := growthExprs player.growth stableId (lvl.wrapped .i32)
  let computed := setPlayerResourceCapacityExpr computed player .hp
    (player.resources.baseMaxHp + randomHp + ht * player.resources.hpPerHt)
  let computed := setPlayerResourceCapacityExpr computed player .sp
    (player.resources.baseMaxSp + randomSp + iq * player.resources.spPerIq)
  let computed := setPlayerResourceCapacityExpr computed player .stamina
    (player.resources.baseMaxStamina + randomStamina + ht * player.resources.staminaPerHt)
  let computed := computed.set .movSpeed (flatMovSpeed + player.speeds.moveSpeed)
  let computed := computed.set .attSpeed (flatAttSpeed + player.speeds.attackSpeed + computed.get .partyHasteBonus)
  let computed := computed.set .castingSpeed (flatCastingSpeed + player.speeds.castingSpeed)
  let attack := player.balance.attack
  let statAttack := (st * attack.stNumerator + dx * attack.dxNumerator + iq * attack.iqNumerator) / max attack.divisor 1
  let computed := computed.set .attGrade (flatAttGrade + lvl * (2 : Int) + statAttack + computed.get .attGradeBonus)
  let physicalDefenceBonus :=
    computed.get .armorDefence + computed.get .defGradeBonus + computed.get .partyDefenderBonus
  let computed := computed.set .defGrade (flatDefGrade + lvl + ht * (4 : Int) / (5 : Int) + physicalDefenceBonus)
  let computed := computed.set .displayedDefGrade (flatDefGrade + lvl + ht + physicalDefenceBonus)
  let computed := computed.set .magicAttGrade
    (flatMagicAttGrade + lvl * (2 : Int) + iq * (2 : Int) + computed.get .magicAttGradeBonus)
  computed.set .magicDefGrade
    (flatMagicDefGrade + lvl + (iq * (3 : Int) + ht) / (3 : Int) + physicalDefenceBonus / (2 : Int) +
      computed.get .magicDefGradeBonus)

def rebuildMobExprs (computed : ExprStore) (mob : MobStatSource) : ExprStore :=
  let lvl := computed.get .level
  let st := computed.get .st
  let ht := computed.get .ht
  let flatAttSpeed := computed.get .attSpeed
  let flatAttGrade := computed.get .attGrade
  let flatDefGrade := computed.get .defGrade
  let flatMovSpeed := computed.get .movSpeed
  let flatCastingSpeed := computed.get .castingSpeed
  let flatMagicAttGrade := computed.get .magicAttGrade
  let flatMagicDefGrade := computed.get .magicDefGrade
  let computed := computed.set .maxHp (computed.get .bonusMaxHp + mob.maxHp)
  let attGrade := flatAttGrade + lvl * (2 : Int) + st * (2 : Int)
  let computed := computed.set .attGrade attGrade
  let defGrade := flatDefGrade + lvl + ht + mob.defGradeFlat
  let computed := computed.set .defGrade defGrade
  let computed := computed.set .displayedDefGrade defGrade
  let computed := computed.set .magicAttGrade (flatMagicAttGrade + attGrade)
  let computed := computed.set .magicDefGrade (flatMagicDefGrade + defGrade)
  let computed := computed.set .attSpeed (flatAttSpeed + mob.speeds.attackSpeed)
  let computed := computed.set .movSpeed (flatMovSpeed + mob.speeds.moveSpeed)
  computed.set .castingSpeed (flatCastingSpeed + mob.speeds.castingSpeed)

def rebuildDerivedExprs (stableId : Option UInt64) (source : ActorStatSource) (seeded : ExprStore) : ExprStore :=
  match source with
  | .player player => rebuildPlayerExprs seeded stableId player
  | .mob mob => rebuildMobExprs seeded mob

/-- The store of expressions a recomputation evaluates. -/
def derivedExprs (source : ActorStatSource) (st : ActorStatState Source Detail) : ExprStore :=
  rebuildDerivedExprs st.stableId source (seedRebuildExprs st source)

/-! ## The wrapping reading is the model's -/

omit [GrowthRng] in
theorem wrapped_setPlayerResourceCapacityExpr (p : ExprStore) (player : PlayerStatSource)
    (resource : PlayerResourceCapacity) (base : IntExpr) :
    (setPlayerResourceCapacityExpr p player resource base).wrapped =
      setPlayerResourceCapacity p.wrapped player resource (base.wrapped .i32) := by
  unfold setPlayerResourceCapacityExpr setPlayerResourceCapacity
  rw [ExprStore.wrapped_set]
  cases resource <;> rfl

theorem wrapped_growthExprs (growth : PlayerGrowthFormula) (stableId : Option UInt64) (level : Int) :
    let e := growthExprs growth stableId level
    (e.1.wrapped .i32, e.2.1.wrapped .i32, e.2.2.wrapped .i32) =
      (stableId.map fun stableId => (growth.randomHp stableId level, growth.randomSp stableId level,
        growth.randomStamina stableId level)).getD (0, 0, 0) := by
  cases stableId with
  | none => rfl
  | some id =>
    simp only [growthExprs, Option.map_some, Option.getD_some, PlayerGrowthFormula.wrapped_sum_growthRolls]
    rfl

omit [GrowthRng] in
theorem wrapped_rebuildMobExprs (p : ExprStore) (mob : MobStatSource) :
    (rebuildMobExprs p mob).wrapped = rebuildMobState p.wrapped mob := by
  unfold rebuildMobExprs rebuildMobState
  simp only [ExprStore.wrapped_set]
  rfl

theorem wrapped_rebuildPlayerExprs (p : ExprStore) (stableId : Option UInt64) (player : PlayerStatSource) :
    (rebuildPlayerExprs p stableId player).wrapped = rebuildPlayerState p.wrapped stableId player := by
  have hg := wrapped_growthExprs player.growth stableId (p.wrapped.get .level)
  unfold rebuildPlayerExprs rebuildPlayerState
  dsimp only at hg ⊢
  rw [← hg]
  simp only [ExprStore.wrapped_set, wrapped_setPlayerResourceCapacityExpr]
  rfl

/-- The wrapping reading of the expressions is the store a recomputation installs. -/
theorem wrapped_derivedExprs (source : ActorStatSource) (st : ActorStatState Source Detail) :
    (derivedExprs source st).wrapped = GameStatsApi.derivedStore source st := by
  unfold derivedExprs rebuildDerivedExprs GameStatsApi.derivedStore rebuildDerivedState
  rw [← wrapped_seedRebuildExprs]
  cases source with
  | player player => exact wrapped_rebuildPlayerExprs _ _ player
  | mob mob => exact wrapped_rebuildMobExprs _ mob

/-! ## Capacities -/

/-- The sum of the growth rolls of an actor of a given level; none without a stable id. -/
def exactGrowth (growth : PlayerGrowthFormula) (stableId : Option UInt64) (level : Int) : PlayerResourceCapacity → Int
  | .hp => (growthExprs growth stableId level).1.exact
  | .sp => (growthExprs growth stableId level).2.1.exact
  | .stamina => (growthExprs growth stableId level).2.2.exact

/-- A capacity as an integer: class base, growth, attribute and flat bonuses, the capped percentage of these, and
the bonuses added after it. -/
def capacity (source : ActorStatSource) (st : ActorStatState Source Detail) (resource : PlayerResourceCapacity) : Int :=
  let total := exactSeed source st
  match source with
  | .mob mob => match resource with
    | .hp => total .bonusMaxHp + mob.maxHp
    | .sp => total .maxSp
    | .stamina => total .maxStamina
  | .player player =>
    let growth := exactGrowth player.growth st.stableId (total .level)
    match resource with
    | .hp =>
      let base := player.resources.baseMaxHp + growth .hp + total .ht * player.resources.hpPerHt + total .bonusMaxHp +
        total .maxHpPrePctBonus
      base + min ((base * total .maxHpPct).tdiv 100) player.balance.resourceBonusCaps.maxHpPctBonus +
        total .partyTankerBonus
    | .sp =>
      let base := player.resources.baseMaxSp + growth .sp + total .iq * player.resources.spPerIq + total .bonusMaxSp
      base + min ((base * total .maxSpPct).tdiv 100) player.balance.resourceBonusCaps.maxSpPctBonus +
        total .partySkillMasterBonus
    | .stamina =>
      player.resources.baseMaxStamina + growth .stamina + total .ht * player.resources.staminaPerHt +
        total .bonusMaxStamina

omit [GrowthRng] in
/-- Nothing adds to the level of a player. -/
theorem get_level_player (st : ActorStatState Source Detail) (player : PlayerStatSource) :
    (seedRebuildExprs st (.player player)).get .level = .lit (st.base.get .level) := by
  rw [get_seedRebuildExprs]
  rfl

omit [GrowthRng] in
theorem exactSeed_level_player (st : ActorStatState Source Detail) (player : PlayerStatSource) :
    exactSeed (.player player) st .level = st.base.get .level := by
  simp [exactSeed, seedTerms, sourceSeedTerms, Stat.acceptsSourceContribution, Stat.contributionKind]

/-- The expression that the capacity of a player is set to. -/
def playerCapacityExpr (p : ExprStore) (stableId : Option UInt64) (player : PlayerStatSource) :
    PlayerResourceCapacity → IntExpr
  | .hp =>
    let base := player.resources.baseMaxHp + (growthExprs player.growth stableId ((p.get .level).wrapped .i32)).1 +
      p.get .ht * player.resources.hpPerHt + p.get .bonusMaxHp + p.get .maxHpPrePctBonus
    base + cappedPercentageExpr base (p.get .maxHpPct) player.balance.resourceBonusCaps.maxHpPctBonus +
      p.get .partyTankerBonus
  | .sp =>
    let base := player.resources.baseMaxSp + (growthExprs player.growth stableId ((p.get .level).wrapped .i32)).2.1 +
      p.get .iq * player.resources.spPerIq + p.get .bonusMaxSp + (0 : Int)
    base + cappedPercentageExpr base (p.get .maxSpPct) player.balance.resourceBonusCaps.maxSpPctBonus +
      p.get .partySkillMasterBonus
  | .stamina =>
    player.resources.baseMaxStamina + (growthExprs player.growth stableId ((p.get .level).wrapped .i32)).2.2 +
      p.get .ht * player.resources.staminaPerHt + p.get .bonusMaxStamina + (0 : Int) + (0 : Int) + (0 : Int)

theorem get_capStat_player (st : ActorStatState Source Detail) (player : PlayerStatSource)
    (resource : PlayerResourceCapacity) : (derivedExprs (.player player) st).get resource.capStat =
      playerCapacityExpr (seedRebuildExprs st (.player player)) st.stableId player resource := by
  cases resource <;> rfl

theorem exact_capStat (source : ActorStatSource) (st : ActorStatState Source Detail)
    (resource : PlayerResourceCapacity) :
    ((derivedExprs source st).get resource.capStat).exact = capacity source st resource := by
  cases source with
  | mob mob =>
    cases resource with
    | hp =>
      show ((seedRebuildExprs st (.mob mob)).get .bonusMaxHp + (mob.maxHp : IntExpr)).exact = _
      simp [capacity]
    | sp => exact exact_get_seedRebuildExprs st _ .maxSp
    | stamina => exact exact_get_seedRebuildExprs st _ .maxStamina
  | player player =>
    have hlevel : ((seedRebuildExprs st (.player player)).get .level).wrapped .i32 =
        exactSeed (.player player) st .level := by
      rw [exactSeed_level_player, get_level_player, IntExpr.wrapped_lit]
    rw [get_capStat_player]
    cases resource <;>
      simp [playerCapacityExpr, cappedPercentageExpr, percentageExpr, capacity, exactGrowth, hlevel]

end

end Zohar.Stats
