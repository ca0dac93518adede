/-
Experience and stat points: an accepted experience table counts its levels up from one, the loop that hands
out experience ends by its own conditions, and the points it hands out on the way are exactly the growth of
the points a player of that level and level step has earned.
-/
import Zohar.Stats.Rules

namespace Zohar.Stats

open Zohar.Lib

/-! ## Accepted tables -/

/-- The levels are `1, …, top`, and each asks for some experience. -/
structure LevelExpTable.Valid (t : LevelExpTable) (top : Int) : Prop where
  maxLevel : t.maxLevel = some top
  top_pos : 1 ≤ top
  top_le : top ≤ i32Max
  entry : ∀ level, 1 ≤ level → level ≤ top → ∃ e, t.entryForLevel level = some e ∧ 0 < e.nextExp
  bound : ∀ level, (t.entryForLevel level).isSome → 1 ≤ level ∧ level ≤ top

theorem collect_spec : ∀ {es : List LevelExpEntry} {m n : OrdMap Int LevelExpEntry},
    (∀ k e, m.get? k = some e → e.level = k ∧ 0 < e.nextExp) → LevelExpTable.collect m es = .ok n →
    ∀ k e, n.get? k = some e → e.level = k ∧ 0 < e.nextExp
  | [], m, n, hm, h => by cases h; exact hm
  | a :: es, m, n, hm, h => by
    unfold LevelExpTable.collect at h
    split at h
    · cases h
    · split at h
      · cases h
      · rename_i hpos
        split at h
        · cases h
        · refine collect_spec (fun k e hk => ?_) h
          rw [OrdMap.get?_insert] at hk
          split at hk
          · rename_i hka
            cases hk; exact ⟨hka.symm, by omega⟩
          · exact hm k e hk

/-- Keys with no gap are the numbers from the first one on. -/
theorem firstMissing_none : ∀ {l : List Int} {k : Int}, LevelExpTable.firstMissing k l = none →
    l = (List.range l.length).map fun i : Nat => k + i
  | [], _, _ => rfl
  | a :: l, k, h => by
    unfold LevelExpTable.firstMissing at h
    split at h
    · cases h
    · rename_i ha
      rw [not_not] at ha
      have ih := firstMissing_none h
      rw [List.length_cons, List.range_succ_eq_map, List.map_cons, List.map_map, ha]
      congr 1
      · omega
      · conv_lhs => rw [ih]
        refine List.map_congr_left fun i _ => ?_
        simp only [Function.comp, Nat.succ_eq_add_one, Nat.cast_add, Nat.cast_one]
        omega

theorem LevelExpTable.tryNew_valid {es : List LevelExpEntry} {t : LevelExpTable} (h : LevelExpTable.tryNew es = .ok t) :
    ∃ top, t.Valid top := by
  unfold LevelExpTable.tryNew at h
  split at h
  · cases h
  · rename_i m hm
    split at h
    · cases h
    · rename_i hne
      split at h
      · cases h
      · split at h
        · cases h
        · rename_i hgap
          cases h
          have hkeys := firstMissing_none hgap
          have hlen : 0 < m.keys.length := by
            rw [OrdMap.keys, List.length_map]
            exact List.length_pos_iff.2 fun he => hne (by simp [he])
          have hmem : ∀ level, level ∈ m.keys ↔ 1 ≤ level ∧ level ≤ (m.keys.length : Int) := by
            intro level
            rw [hkeys, List.length_map, List.length_range]
            simp only [List.mem_map, List.mem_range]
            constructor
            · rintro ⟨i, hi, rfl⟩; omega
            · rintro ⟨h1, h2⟩; exact ⟨(level - 1).toNat, by omega, by omega⟩
          have hent := collect_spec (fun k e hk => by cases hk) hm
          refine ⟨(m.keys.length : Int), ?_, by omega, ?_, ?_, ?_⟩
          · show m.keys.getLast? = _
            rw [List.getLast?_eq_getElem?]
            conv_lhs => rw [hkeys]
            rw [List.length_map, List.length_range, List.getElem?_map, List.getElem?_range (by omega)]
            simp only [Option.map_some, Option.some.injEq]
            omega
          · obtain ⟨e, he⟩ := Option.isSome_iff_exists.1 (OrdMap.mem_keys_iff.1 ((hmem m.keys.length).2 (by omega)))
            rw [← (hent _ e he).1]
            exact e.level_le
          · intro level h1 h2
            obtain ⟨e, he⟩ := Option.isSome_iff_exists.1 (OrdMap.mem_keys_iff.1 ((hmem level).2 ⟨h1, h2⟩))
            exact ⟨e, he, (hent level e he).2⟩
          · intro level hl
            exact (hmem level).1 (OrdMap.mem_keys_iff.2 hl)

/-! ## Earned points -/

/-- The points a player of this level and level step has earned in all. -/
def earnedStatPoints (level levelStep : Int) : Int :=
  (clampInt 1 maxLevelStatPointsEarning level - 1) * statPointStepsPerLevel +
    if level < maxLevelStatPointsEarning then clampInt 0 statPointStepsPerLevel levelStep else 0

def spentStatPoints (a : CoreStatAllocations) : Int := a.allocatedStr + a.allocatedVit + a.allocatedDex + a.allocatedInt

theorem deriveAvailableStatPoints_eq (level levelStep : Int) (a : CoreStatAllocations) :
    deriveAvailableStatPoints level levelStep a = clampInt 0 i32Max
      (earnedStatPoints level levelStep - spentStatPoints a) := rfl

theorem earnedStatPoints_mem (level levelStep : Int) :
    0 ≤ earnedStatPoints level levelStep ∧ earnedStatPoints level levelStep ≤ 270 := by
  unfold earnedStatPoints clampInt maxLevelStatPointsEarning statPointStepsPerLevel levelStepsPerLevel
  split <;> omega

/-- A full level is worth as much as the start of the next one. -/
theorem earnedStatPoints_advance {level : Int} (h : 1 ≤ level) :
    earnedStatPoints (level + 1) 0 = earnedStatPoints level levelStepsPerLevel := by
  unfold earnedStatPoints clampInt maxLevelStatPointsEarning statPointStepsPerLevel levelStepsPerLevel
  split <;> split <;> omega

theorem crossedLevelSteps_statPoints {level before after : Int} (hb : 0 ≤ before) (hba : before ≤ after)
    (ha : after ≤ levelStepsPerLevel) :
    (crossedLevelSteps level before after).statPoints = earnedStatPoints level after - earnedStatPoints
      level before := by
  unfold levelStepsPerLevel at ha
  unfold crossedLevelSteps earnedStatPoints clampInt maxLevelStatPointsEarning statPointStepsPerLevel levelStepsPerLevel
  dsimp only
  split
  · split <;> simp only <;> omega
  · split <;> simp only <;> omega

theorem crossedLevelSteps_statPoints_nonneg (level before after : Int) :
    0 ≤ (crossedLevelSteps level before after).statPoints := by
  unfold crossedLevelSteps
  dsimp only
  split
  · exact le_refl _
  · split
    · exact le_max_right _ _
    · exact le_refl _

/-- The level step grows with the experience. -/
theorem levelStep_mono {level : Int} {e e' n : Nat} (h : e ≤ e') :
    (PlayerProgressionState.mk level e n).levelStep ≤ (PlayerProgressionState.mk level e' n).levelStep := by
  unfold PlayerProgressionState.levelStep PlayerProgressionState.normalized
  dsimp only
  split
  · exact le_refl _
  · refine Int.ofNat_le.2 (min_le_min_right _ (Nat.div_le_div_right ?_))
    exact Nat.mul_le_mul_right _ (min_le_min_right _ h)

theorem levelStep_full {p : PlayerProgressionState} (hn : 0 < p.nextExpInLevel) (h : p.nextExpInLevel ≤ p.expInLevel) :
    p.levelStep = levelStepsPerLevel := by
  unfold PlayerProgressionState.levelStep PlayerProgressionState.normalized levelStepsPerLevel
  dsimp only
  rw [if_neg (by omega), min_eq_right h, Nat.mul_div_cancel_left _ hn]
  rfl

theorem levelStep_zero (level : Int) (n : Nat) : (PlayerProgressionState.mk level 0 n).levelStep = 0 := by
  unfold PlayerProgressionState.levelStep PlayerProgressionState.normalized
  dsimp only
  split
  · rfl
  · simp

/-! ## The loop -/

def PlayerProgressionState.earned (p : PlayerProgressionState) : Int := earnedStatPoints p.level p.levelStep

/-- What holds of the loop's variables: the progression is one of the table, and the points handed out so far are the
growth of the earned points since `start`. -/
structure GainOk (t : LevelExpTable) (start : Int) (g : ExpGain) : Prop where
  known : t.progressionForLevel g.progression.level g.progression.expInLevel = some g.progression
  points : g.statPointsGained = g.progression.earned - start
  nonneg : 0 ≤ g.statPointsGained

section
variable {t : LevelExpTable} {top : Int} (hv : t.Valid top)
include hv

theorem progressionForLevel_spec {level exp : Int} {p : PlayerProgressionState}
    (h : t.progressionForLevel level exp = some p) :
    p.level = level ∧ (1 ≤ level ∧ level ≤ top) ∧ p.expInLevel = clampI64ToU32 exp ∧ 0 < p.nextExpInLevel ∧
      (p.nextExpInLevel : Int) ≤ u32Max := by
  unfold LevelExpTable.progressionForLevel at h
  obtain ⟨e, he, rfl⟩ := Option.map_eq_some_iff.1 h
  obtain ⟨h1, h2⟩ := hv.bound level (by rw [he]; rfl)
  obtain ⟨e', he', hpos⟩ := hv.entry level h1 h2
  rw [he] at he'
  cases he'
  refine ⟨rfl, ⟨h1, h2⟩, rfl, ?_, clampI64ToU32_le _⟩
  show 0 < clampI64ToU32 e.nextExp
  unfold clampI64ToU32 u32Max
  omega

/-- A level's progression read back with its own experience is itself. -/
theorem progressionForLevel_self {level exp : Int} {p : PlayerProgressionState}
    (h : t.progressionForLevel level exp = some p) :
    t.progressionForLevel p.level p.expInLevel = some p := by
  obtain ⟨h1, _, h4, _⟩ := progressionForLevel_spec hv h
  have hle : (p.expInLevel : Int) ≤ u32Max := by rw [h4]; exact clampI64ToU32_le exp
  rw [h1]
  unfold LevelExpTable.progressionForLevel at h ⊢
  obtain ⟨e, he, rfl⟩ := Option.map_eq_some_iff.1 h
  rw [he]
  simp only [Option.map_some, clampI64ToU32_natCast hle]

omit hv in
/-- The table's progression of a level with other experience. -/
theorem progressionForLevel_withExp {p : PlayerProgressionState} {exp : Nat}
    (h : t.progressionForLevel p.level p.expInLevel = some p) (hle : (exp : Int) ≤ u32Max) :
    t.progressionForLevel p.level exp = some ⟨p.level, exp, p.nextExpInLevel⟩ := by
  unfold LevelExpTable.progressionForLevel at h ⊢
  obtain ⟨e, he, hp⟩ := Option.map_eq_some_iff.1 h
  rw [he, Option.map_some, clampI64ToU32_natCast hle]
  have hn : clampI64ToU32 e.nextExp = p.nextExpInLevel := congrArg PlayerProgressionState.nextExpInLevel hp
  rw [hn]

/-- Below the top the loop advances to the next level, whose progression is the table's. -/
theorem advanceLevel_eq {g : ExpGain}
    (hk : t.progressionForLevel g.progression.level g.progression.expInLevel = some g.progression)
    (hlt : g.progression.level < top) :
    ∃ next, t.progressionForLevel (g.progression.level + 1) 0 = some ⟨g.progression.level + 1, 0, next⟩ ∧
      t.advanceLevel top g = some { g with
        progression := ⟨g.progression.level + 1, 0, next⟩
        levelsGained := addI32 g.levelsGained 1 } := by
  obtain ⟨_, ⟨h1, _⟩, _⟩ := progressionForLevel_spec hv hk
  have htop := hv.top_le
  have hsat : satI32 (g.progression.level + 1) = g.progression.level + 1 := by
    apply satI32_of_mem
    · unfold i32Min; omega
    · omega
  obtain ⟨e, he, _⟩ := hv.entry (g.progression.level + 1) (by omega) (by omega)
  have hnext : t.progressionForLevel (g.progression.level + 1) 0 =
      some ⟨g.progression.level + 1, 0, clampI64ToU32 e.nextExp⟩ := by
    unfold LevelExpTable.progressionForLevel; rw [he]; rfl
  refine ⟨_, hnext, ?_⟩
  unfold LevelExpTable.advanceLevel
  rw [if_neg (by omega), hsat]
  dsimp only
  rw [hnext, Option.map_some]

/-- From a full level the loop always advances, and no point is gained or lost by it. -/
theorem advanceLevel_spec {start : Int} {g : ExpGain} (hg : GainOk t start g)
    (hfull : g.progression.levelStep = levelStepsPerLevel) (hlt : g.progression.level < top) :
    ∃ g', t.advanceLevel top g = some g' ∧ GainOk t start g' ∧ g'.progression.level = g.progression.level + 1 ∧
      g'.remaining = g.remaining ∧ g'.appliedExp = g.appliedExp := by
  obtain ⟨_, ⟨h1, _⟩, _⟩ := progressionForLevel_spec hv hg.known
  obtain ⟨next, hnext, hadv⟩ := advanceLevel_eq hv hg.known hlt
  refine ⟨_, hadv, ⟨hnext, ?_, hg.nonneg⟩, rfl, rfl, rfl⟩
  rw [hg.points]
  show _ = earnedStatPoints (g.progression.level + 1) _ - start
  rw [levelStep_zero, earnedStatPoints_advance h1, PlayerProgressionState.earned, hfull]

omit hv in
/-- Handing out experience inside a level: the points of the steps crossed are added. -/
theorem gainOk_withExp {start : Int} {g g' : ExpGain} {exp : Nat} (hstart : 0 ≤ start ∧ start ≤ 270)
    (hg : GainOk t start g) (hle : (exp : Int) ≤ u32Max) (hmono : g.progression.expInLevel ≤ exp)
    (hp : g'.progression = ⟨g.progression.level, exp, g.progression.nextExpInLevel⟩)
    (hpts : g'.statPointsGained = addI32 g.statPointsGained
      (crossedLevelSteps g.progression.level g.progression.levelStep g'.progression.levelStep).statPoints) :
    GainOk t start g' := by
  have hcross := @crossedLevelSteps_statPoints g.progression.level _ _ g.progression.levelStep_mem.1
    (show g.progression.levelStep ≤ g'.progression.levelStep by rw [hp]; exact levelStep_mono hmono)
      g'.progression.levelStep_mem.2
  have hlevel : g'.progression.level = g.progression.level := by rw [hp]
  have hcnonneg :
      0 ≤ (crossedLevelSteps g.progression.level g.progression.levelStep g'.progression.levelStep).statPoints :=
    crossedLevelSteps_statPoints_nonneg _ _ _
  have hpoints : g'.statPointsGained = g'.progression.earned - start := by
    have hpts' := hg.points
    have hearned := earnedStatPoints_mem g.progression.level g'.progression.levelStep
    unfold PlayerProgressionState.earned at hpts' ⊢
    rw [hpts, hcross, hlevel, hpts']
    have hsum : earnedStatPoints g.progression.level g.progression.levelStep - start +
        (earnedStatPoints g.progression.level g'.progression.levelStep -
          earnedStatPoints g.progression.level g.progression.levelStep) =
        earnedStatPoints g.progression.level g'.progression.levelStep - start := by omega
    rw [addI32, hsum]
    exact wrapI32_of_mem (by unfold i32Min; omega) (by unfold i32Max; omega)
  refine ⟨?_, hpoints, ?_⟩
  · rw [hp]
    exact progressionForLevel_withExp (p := g.progression) hg.known hle
  · have hold := hg.nonneg
    rw [hg.points] at hold
    rw [hpoints]
    unfold PlayerProgressionState.earned at hold ⊢
    rw [hlevel]
    omega

/-- One pass keeps the loop's invariant and goes on, with the experience used up or on the next level. -/
theorem expGainPass_spec {start : Int} {g : ExpGain} (hstart : 0 ≤ start ∧ start ≤ 270) (hg : GainOk t start g)
    (hlt : g.progression.level < top) :
    GainOk t start (t.expGainPass top g).1 ∧ (t.expGainPass top g).2 = true ∧
      ((t.expGainPass top g).1.remaining = 0 ∨ (t.expGainPass top g).1.progression.level =
        g.progression.level + 1) := by
  obtain ⟨_, _, hexp, hnext, hnextle⟩ := progressionForLevel_spec hv hg.known
  have hexple : (g.progression.expInLevel : Int) ≤ u32Max := by rw [hexp]; exact clampI64ToU32_le _
  unfold LevelExpTable.expGainPass
  dsimp only
  rw [if_neg (by omega)]
  by_cases hmissing : g.progression.nextExpInLevel - g.progression.expInLevel = 0
  · obtain ⟨g', ha, hg', hl, _⟩ := advanceLevel_spec hv hg (levelStep_full hnext (by omega)) hlt
    rw [if_pos hmissing, ha]
    exact ⟨hg', rfl, .inr hl⟩
  · rw [if_neg hmissing]
    split
    · -- the level is filled, and left
      have hfull : (LevelExpTable.fillLevel g).progression.levelStep = levelStepsPerLevel :=
        levelStep_full hnext (le_refl g.progression.nextExpInLevel)
      have hfill : GainOk t start (LevelExpTable.fillLevel g) :=
        gainOk_withExp hstart hg hnextle (by omega) rfl (by rw [hfull]; rfl)
      obtain ⟨g', ha, hg', hl, _⟩ := advanceLevel_spec hv hfill hfull hlt
      rw [ha]
      exact ⟨hg', rfl, .inr hl⟩
    · refine ⟨gainOk_withExp hstart hg ?_ ?_ rfl rfl, rfl, .inl rfl⟩
      · unfold u32Max; omega
      · unfold u32Max at hexple ⊢; omega

/-- The loop keeps its invariant and stops because the experience is used up or the top level is reached. -/
theorem expGainLoop_done {start : Int} (hstart : 0 ≤ start ∧ start ≤ 270) :
    ∀ (fuel : Nat) (g : ExpGain), GainOk t start g →
      (g.remaining = 0 ∨ (top - g.progression.level).toNat < fuel) →
      GainOk t start (t.expGainLoop top fuel g) ∧
        ((t.expGainLoop top fuel g).remaining ≤ 0 ∨ top ≤ (t.expGainLoop top fuel g).progression.level)
  | 0, g, hg, hf => by
    refine ⟨hg, .inl ?_⟩
    rcases hf with h | h
    · exact le_of_eq h
    · omega
  | fuel + 1, g, hg, hf => by
    unfold LevelExpTable.expGainLoop
    split
    · rename_i hcond
      obtain ⟨hg', hgo, hprog⟩ := expGainPass_spec hv hstart hg hcond.2
      rw [hgo, if_pos rfl]
      refine expGainLoop_done hstart fuel _ hg' ?_
      rcases hprog with h | h
      · exact .inl h
      · exact .inr (by omega)
    · rename_i hcond
      exact ⟨hg, by omega⟩

/-- An experience reward moves the player to a progression of the table and hands out the points earned on the way. -/
theorem applyMobExpReward_spec {r : PlayerStatRules} (hr : r.levelExp = t) {current p0 : PlayerProgressionState}
    {mobLevel baseExp : Int} {out : PlayerMobExpRewardOutcome}
    (hp0 : t.progressionForLevel current.level current.expInLevel = some p0)
    (h : r.applyMobExpReward current mobLevel baseExp = some out) :
    t.progressionForLevel out.progression.level out.progression.expInLevel = some out.progression ∧
      out.statPointsGained = out.progression.earned - p0.earned ∧ 0 ≤ out.statPointsGained := by
  unfold PlayerStatRules.applyMobExpReward at h
  dsimp only at h
  split at h
  · cases h
  · obtain ⟨outcome, ho, h⟩ := Option.bind_eq_some_iff.1 h
    split at h
    · cases h
    · cases h
      unfold LevelExpTable.applyPlayerExpGain at ho
      rw [hr] at ho
      simp only [hp0, hv.maxLevel, Option.bind_eq_bind, Option.bind_some, Option.pure_def, Option.some.injEq] at ho
      subst ho
      have hstart :
        GainOk t p0.earned ⟨p0, max (legacyMobExpReward current.level mobLevel baseExp current.nextExpInLevel) 0,
          0, 0, 0, 0⟩ :=
        ⟨progressionForLevel_self hv hp0, (Int.sub_self _).symm, le_refl _⟩
      obtain ⟨hg, _⟩ := expGainLoop_done hv (earnedStatPoints_mem _ _) ((top - p0.level).toNat + 1) _ hstart
        (.inr (Nat.lt_succ_self _))
      exact ⟨hg.known, hg.points, hg.nonneg⟩

end

end Zohar.Stats
