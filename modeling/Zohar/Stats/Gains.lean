/-
Experience in one sum or in two: handing out `a` and then `b` ends where handing out `a + b` does, and the counters of
the two calls add up. What the counters say is read off the progressions at both ends, so the sums follow from the ends.
-/
import Zohar.Stats.Leveling

namespace Zohar.Stats

open Zohar.Lib

/-! ## Level steps -/

/-- The level steps behind a player of this level and level step. -/
def climbedSteps (level levelStep : Int) : Int := (level - 1) * levelStepsPerLevel + levelStep

def PlayerProgressionState.climbed (p : PlayerProgressionState) : Int := climbedSteps p.level p.levelStep

theorem crossedLevelSteps_levelSteps {level before after : Int} (hb : 0 ≤ before) (hba : before ≤ after)
    (ha : after ≤ levelStepsPerLevel) :
    (crossedLevelSteps level before after).levelSteps = climbedSteps level after - climbedSteps level before := by
  unfold levelStepsPerLevel at ha
  unfold crossedLevelSteps climbedSteps clampInt levelStepsPerLevel
  dsimp only
  split <;> simp only <;> omega

/-! ## What one pass can do -/

namespace LevelExpTable

/-- The next level, empty. -/
def advanced (t : LevelExpTable) (g : ExpGain) : ExpGain :=
  { g with
    progression := ⟨g.progression.level + 1, 0,
      ((t.progressionForLevel (g.progression.level + 1) 0).map (·.nextExpInLevel)).getD 0⟩
    levelsGained := addI32 g.levelsGained 1 }

/-- What a pass from a level below the top does: it leaves a level that is full already, fills a level and leaves it, or
puts the rest of the experience into it. -/
inductive Pass (t : LevelExpTable) (g : ExpGain) : ExpGain → Prop where
  | full (full : g.progression.nextExpInLevel ≤ g.progression.expInLevel) : Pass t g (t.advanced g)
  | fill (room : g.progression.expInLevel < g.progression.nextExpInLevel)
      (covers : (g.progression.nextExpInLevel : Int) ≤ g.progression.expInLevel + g.remaining) :
      Pass t g (t.advanced (fillLevel g))
  | rest (room : (g.progression.expInLevel : Int) + g.remaining < g.progression.nextExpInLevel) : Pass t g (spendRest g)

/-- A progression that the table gives for its level. -/
def Knows (t : LevelExpTable) (p : PlayerProgressionState) : Prop := t.progressionForLevel p.level p.expInLevel = some p

section
variable {t : LevelExpTable} {top : Int} (hv : t.Valid top) {g : ExpGain}
include hv

theorem advanced_spec (hk : t.Knows g.progression) (hlt : g.progression.level < top) :
    t.advanceLevel top g = some (t.advanced g) ∧ t.Knows (t.advanced g).progression := by
  obtain ⟨next, hnext, hadv⟩ := advanceLevel_eq hv hk hlt
  have heq : t.advanced g = { g with
      progression := ⟨g.progression.level + 1, 0, next⟩
      levelsGained := addI32 g.levelsGained 1 } := by
    unfold advanced
    rw [hnext]
    rfl
  rw [heq]
  constructor
  · exact hadv
  · exact hnext

theorem knows_fillLevel (hk : t.Knows g.progression) : t.Knows (fillLevel g).progression := by
  obtain ⟨_, _, _, _, hle⟩ := progressionForLevel_spec hv hk
  exact progressionForLevel_withExp (p := g.progression) hk hle

theorem expGainPass_cases (hk : t.Knows g.progression) (hlt : g.progression.level < top) :
    (t.expGainPass top g).2 = true ∧ t.Pass g (t.expGainPass top g).1 := by
  obtain ⟨_, _, _, hnext, _⟩ := progressionForLevel_spec hv hk
  unfold expGainPass
  dsimp only
  rw [if_neg (by omega)]
  by_cases hfull : g.progression.nextExpInLevel - g.progression.expInLevel = 0
  · rw [if_pos hfull, (advanced_spec hv hk hlt).1]
    exact ⟨rfl, .full (by omega)⟩
  · rw [if_neg hfull]
    split
    · rw [(advanced_spec hv (g := fillLevel g) (knows_fillLevel hv hk) hlt).1]
      exact ⟨rfl, .fill (by omega) (by omega)⟩
    · exact ⟨rfl, .rest (by omega)⟩

/-- What the rest of the experience does to the progression. -/
theorem spendRest_progression (hk : t.Knows g.progression) (h0 : 0 ≤ g.remaining)
    (hroom : (g.progression.expInLevel : Int) + g.remaining < g.progression.nextExpInLevel) :
    (spendRest g).progression = { g.progression with expInLevel := g.progression.expInLevel + g.remaining.toNat } := by
  obtain ⟨_, _, _, _, hle⟩ := progressionForLevel_spec hv hk
  unfold u32Max at hle
  unfold spendRest
  dsimp only
  rw [Int.emod_eq_of_lt h0 (by omega), min_eq_left]
  unfold u32Max
  omega

theorem Pass.knows {g' : ExpGain} (h : t.Pass g g') (hk : t.Knows g.progression) (h0 : 0 ≤ g.remaining)
    (hlt : g.progression.level < top) : t.Knows g'.progression := by
  cases h with
  | full _ => exact (advanced_spec hv hk hlt).2
  | fill _ _ => exact (advanced_spec hv (g := fillLevel g) (knows_fillLevel hv hk) hlt).2
  | rest hroom =>
    obtain ⟨_, _, _, _, hle⟩ := progressionForLevel_spec hv hk
    rw [spendRest_progression hv hk h0 hroom]
    refine progressionForLevel_withExp (p := g.progression) hk ?_
    push_cast
    omega

omit hv in
/-- The level is left, or the experience is used up. -/
theorem Pass.progress {g' : ExpGain} (h : t.Pass g g') :
    g'.progression.level = g.progression.level + 1 ∨ g'.progression.level = g.progression.level ∧ g'.remaining = 0 := by
  cases h with
  | full _ => exact .inl rfl
  | fill _ _ => exact .inl rfl
  | rest _ => exact .inr ⟨rfl, rfl⟩

omit hv in
theorem Pass.remaining_nonneg {g' : ExpGain} (h : t.Pass g g') (h0 : 0 ≤ g.remaining) : 0 ≤ g'.remaining := by
  cases h with
  | full _ => exact h0
  | fill hroom hcovers =>
    show 0 ≤ satI64 _
    unfold satI64 i64Min i64Max
    omega
  | rest _ => exact le_rfl

end

/-! ## The whole loop -/

/-- The loop with as many passes as there are levels left, and one. -/
def spent (t : LevelExpTable) (top : Int) (g : ExpGain) : ExpGain :=
  t.expGainLoop top ((top - g.progression.level).toNat + 1) g

def Settled (top : Int) (g : ExpGain) : Prop := ¬ (0 < g.remaining ∧ g.progression.level < top)

section
variable {t : LevelExpTable} {top : Int} {g : ExpGain}

theorem expGainLoop_of_settled (h : Settled top g) (fuel : Nat) : t.expGainLoop top fuel g = g := by
  cases fuel with
  | zero => rfl
  | succ fuel =>
    unfold expGainLoop
    exact if_neg h

theorem spent_of_settled (h : Settled top g) : t.spent top g = g := expGainLoop_of_settled h _

variable (hv : t.Valid top)
include hv

theorem spent_step (hk : t.Knows g.progression) (h0 : 0 < g.remaining) (hlt : g.progression.level < top) :
    t.spent top g = t.spent top (t.expGainPass top g).1 := by
  obtain ⟨hgo, hpass⟩ := expGainPass_cases hv hk hlt
  unfold spent
  conv_lhs => unfold expGainLoop
  rw [if_pos ⟨h0, hlt⟩, hgo, if_pos rfl]
  rcases hpass.progress with hlevel | ⟨hlevel, hrest⟩
  · rw [hlevel]
    congr 1
    omega
  · have hsettled : Settled top (t.expGainPass top g).1 := fun h => by omega
    rw [expGainLoop_of_settled hsettled, expGainLoop_of_settled hsettled]

/-- More passes than there are levels left change nothing. -/
theorem expGainLoop_eq_spent : ∀ (fuel : Nat) (g : ExpGain), t.Knows g.progression → 0 ≤ g.remaining →
    (top - g.progression.level).toNat < fuel → t.expGainLoop top fuel g = t.spent top g
  | 0, _, _, _, h => absurd h (Nat.not_lt_zero _)
  | fuel + 1, g, hk, h0, hfuel => by
    by_cases hgoes : 0 < g.remaining ∧ g.progression.level < top
    · obtain ⟨hgo, hpass⟩ := expGainPass_cases hv hk hgoes.2
      rw [spent_step hv hk hgoes.1 hgoes.2]
      conv_lhs => unfold expGainLoop
      rw [if_pos hgoes, hgo, if_pos rfl]
      rcases hpass.progress with hlevel | ⟨hlevel, hrest⟩
      · exact expGainLoop_eq_spent fuel _ (hpass.knows hv hk h0 hgoes.2) (hpass.remaining_nonneg h0) (by omega)
      · have hsettled : Settled top (t.expGainPass top g).1 := fun h => by omega
        rw [expGainLoop_of_settled hsettled, spent_of_settled hsettled]
    · rw [expGainLoop_of_settled hgoes, spent_of_settled hgoes]

/-- What every pass keeps, the end of the loop has. -/
theorem spent_induct {P : ExpGain → Prop}
    (hpass : ∀ g g', t.Knows g.progression → 0 < g.remaining → g.progression.level < top → t.Pass g g' → P g → P g') :
    ∀ (n : Nat) (g : ExpGain), (top - g.progression.level).toNat ≤ n → t.Knows g.progression → 0 ≤ g.remaining → P g →
      P (t.spent top g) ∧ Settled top (t.spent top g) ∧ t.Knows (t.spent top g).progression ∧
      0 ≤ (t.spent top g).remaining
  | n, g, hn, hk, h0, hP => by
    by_cases hgoes : 0 < g.remaining ∧ g.progression.level < top
    · obtain ⟨-, hstep⟩ := expGainPass_cases hv hk hgoes.2
      have hP' := hpass g _ hk hgoes.1 hgoes.2 hstep hP
      have hk' := hstep.knows hv hk h0 hgoes.2
      have h0' := hstep.remaining_nonneg h0
      rw [spent_step hv hk hgoes.1 hgoes.2]
      rcases hstep.progress with hlevel | ⟨hlevel, hrest⟩
      · cases n with
        | zero => omega
        | succ n => exact spent_induct hpass n _ (by omega) hk' h0' hP'
      · have hsettled : Settled top (t.expGainPass top g).1 := fun h => by omega
        rw [spent_of_settled hsettled]
        exact ⟨hP', hsettled, hk', h0'⟩
    · rw [spent_of_settled hgoes]
      exact ⟨hP, hgoes, hk, h0⟩

end

/-! ## One sum or two -/

/-- The same progression and the same experience left; the counters may differ. -/
structure Agrees (g g' : ExpGain) : Prop where
  progression : g'.progression = g.progression
  remaining : g'.remaining = g.remaining

def topUp (g : ExpGain) (more : Int) : ExpGain := { g with remaining := g.remaining + more }

theorem topUp_zero (g : ExpGain) : topUp g 0 = g := by
  unfold topUp
  rw [Int.add_zero]

theorem Agrees.trans {g g' g'' : ExpGain} (h : Agrees g g') (h' : Agrees g' g'') : Agrees g g'' :=
  ⟨h'.progression.trans h.progression, h'.remaining.trans h.remaining⟩

theorem fillLevel_remaining {g : ExpGain} (h0 : 0 ≤ g.remaining) (hmax : g.remaining ≤ i64Max)
    (hroom : g.progression.expInLevel < g.progression.nextExpInLevel)
    (hcovers : (g.progression.nextExpInLevel : Int) ≤ g.progression.expInLevel + g.remaining) :
    (fillLevel g).remaining = g.remaining - (g.progression.nextExpInLevel - g.progression.expInLevel : Int) := by
  show satI64 _ = _
  unfold satI64 i64Min
  unfold i64Max at *
  omega

theorem Agrees.advanced {t : LevelExpTable} {g g' : ExpGain} (h : Agrees g g') :
    Agrees (t.advanced g) (t.advanced g') := by
  refine ⟨?_, h.remaining⟩
  unfold LevelExpTable.advanced
  rw [h.progression]

theorem Agrees.fillLevel {g g' : ExpGain} (h : Agrees g g') : Agrees (fillLevel g) (fillLevel g') := by
  constructor
  · unfold LevelExpTable.fillLevel
    rw [h.progression]
  · unfold LevelExpTable.fillLevel
    dsimp only
    rw [h.progression, h.remaining]

theorem Agrees.spendRest {g g' : ExpGain} (h : Agrees g g') : Agrees (spendRest g) (spendRest g') := by
  refine ⟨?_, rfl⟩
  unfold LevelExpTable.spendRest
  dsimp only
  rw [h.progression, h.remaining]

/-- A pass looks at the progression and at the experience left, and at nothing else. -/
theorem Agrees.pass {t : LevelExpTable} {g g' x x' : ExpGain} (h : Agrees g g') (hx : t.Pass g x) (hx' : t.Pass g' x')
    (h0 : 0 ≤ g.remaining) : Agrees x x' := by
  cases hx' with
  | full hfull =>
    rw [h.progression] at hfull
    cases hx with
    | full _ => exact h.advanced
    | fill _ _ => omega
    | rest _ => omega
  | fill hroom hcovers =>
    rw [h.progression] at hroom
    rw [h.progression, h.remaining] at hcovers
    cases hx with
    | full _ => omega
    | fill _ _ => exact h.fillLevel.advanced
    | rest _ => omega
  | rest hroom =>
    rw [h.progression, h.remaining] at hroom
    cases hx with
    | full _ => omega
    | fill _ _ => omega
    | rest _ => exact h.spendRest

/-- A pass that leaves the level leaves it with more experience as well, and what is on top stays on top. -/
theorem pass_topUp {t : LevelExpTable} {g y z : ExpGain} {more : Int} (h0 : 0 ≤ g.remaining) (hmore : 0 ≤ more)
    (hmax : g.remaining + more ≤ i64Max)
    (hleaves : ¬ (g.progression.expInLevel : Int) + g.remaining < g.progression.nextExpInLevel) (hy : t.Pass g y)
    (hz : t.Pass (topUp g more) z) :
    Agrees z (topUp y more) ∧ y.progression.level = g.progression.level + 1 ∧ y.remaining ≤ g.remaining := by
  have hrg : (topUp g more).remaining = g.remaining + more := rfl
  have hpg : (topUp g more).progression = g.progression := rfl
  cases hy with
  | full hfull =>
    cases hz with
    | full _ => exact ⟨⟨rfl, rfl⟩, rfl, le_rfl⟩
    | fill hroom _ =>
      rw [hpg] at hroom
      omega
    | rest hroom =>
      rw [hrg, hpg] at hroom
      omega
  | fill hroom hcovers =>
    have hrest := fillLevel_remaining h0 (by omega) hroom hcovers
    cases hz with
    | full hfull =>
      rw [hpg] at hfull
      omega
    | fill hroom' hcovers' =>
      refine ⟨⟨rfl, ?_⟩, rfl, ?_⟩
      · show (fillLevel g).remaining + more = (fillLevel (topUp g more)).remaining
        rw [hrest, fillLevel_remaining (by rw [hrg]; omega) hmax hroom' hcovers', hrg, hpg]
        omega
      · show (fillLevel g).remaining ≤ g.remaining
        omega
    | rest hroom' =>
      rw [hrg, hpg] at hroom'
      omega
  | rest hroom => exact absurd hroom hleaves

section
variable {t : LevelExpTable} {top : Int} (hv : t.Valid top)
include hv

theorem Agrees.spent : ∀ (n : Nat) {g g' : ExpGain}, Agrees g g' → (top - g.progression.level).toNat ≤ n →
    t.Knows g.progression → 0 ≤ g.remaining → Agrees (t.spent top g) (t.spent top g')
  | n, g, g', h, hn, hk, h0 => by
    have hk' : t.Knows g'.progression := h.progression ▸ hk
    by_cases hgoes : 0 < g.remaining ∧ g.progression.level < top
    · have hgoes' : 0 < g'.remaining ∧ g'.progression.level < top := by rwa [h.remaining, h.progression]
      obtain ⟨-, hstep⟩ := expGainPass_cases hv hk hgoes.2
      obtain ⟨-, hstep'⟩ := expGainPass_cases hv hk' hgoes'.2
      rw [spent_step hv hk hgoes.1 hgoes.2, spent_step hv hk' hgoes'.1 hgoes'.2]
      have hagree := h.pass hstep hstep' h0
      rcases hstep.progress with hlevel | ⟨hlevel, hrest⟩
      · cases n with
        | zero => omega
        | succ n =>
          exact Agrees.spent n hagree (by omega) (hstep.knows hv hk h0 hgoes.2) (hstep.remaining_nonneg h0)
      · have hsettled : Settled top (t.expGainPass top g).1 := fun h => by omega
        have hsettled' : Settled top (t.expGainPass top g').1 := fun h => by
          rw [hagree.remaining] at h
          omega
        rw [spent_of_settled hsettled, spent_of_settled hsettled']
        exact hagree
    · have hgoes' : ¬ (0 < g'.remaining ∧ g'.progression.level < top) := by rwa [h.remaining, h.progression]
      rw [spent_of_settled hgoes, spent_of_settled hgoes']
      exact h

/-- The rest of one sum and more on top of it reach the same level as both at once. -/
theorem pass_after_rest {g x x' : ExpGain} {more : Int} (hk : t.Knows g.progression) (h0 : 0 ≤ g.remaining)
    (hlt : g.progression.level < top) (hmore : 0 ≤ more) (hmax : g.remaining + more ≤ i64Max)
    (hroom : (g.progression.expInLevel : Int) + g.remaining < g.progression.nextExpInLevel)
    (hx : t.Pass (topUp g more) x) (hx' : t.Pass (topUp (spendRest g) more) x') : Agrees x x' := by
  have hp := spendRest_progression hv hk h0 hroom
  have hpx : (topUp (spendRest g) more).progression =
      { g.progression with expInLevel := g.progression.expInLevel + g.remaining.toNat } := hp
  have hrx : (topUp (spendRest g) more).remaining = more := Int.zero_add more
  have hrg : (topUp g more).remaining = g.remaining + more := rfl
  have hpg : (topUp g more).progression = g.progression := rfl
  cases hx with
  | full hfull =>
    rw [hpg] at hfull
    omega
  | fill hroom1 hcovers =>
    rw [hrg, hpg] at hcovers
    cases hx' with
    | full hfull =>
      rw [hpx] at hfull
      dsimp only at hfull
      omega
    | fill hroom2 hcovers2 =>
      -- both fill the level, and as much is left of either
      refine Agrees.advanced ⟨?_, ?_⟩
      · show ({ (topUp (spendRest g) more).progression with
          expInLevel := (topUp (spendRest g) more).progression.nextExpInLevel } : PlayerProgressionState) = _
        rw [hpx]
        rfl
      · rw [fillLevel_remaining (by rw [hrx]; exact hmore) (by rw [hrx]; omega) hroom2 hcovers2,
          fillLevel_remaining (by rw [hrg]; omega) hmax hroom1 (by rw [hrg, hpg]; exact hcovers), hpx, hrx, hrg, hpg]
        push_cast
        omega
    | rest hroom2 =>
      rw [hpx, hrx] at hroom2
      push_cast at hroom2
      omega
  | rest hroom1 =>
    rw [hrg, hpg] at hroom1
    cases hx' with
    | full hfull =>
      rw [hpx] at hfull
      dsimp only at hfull
      omega
    | fill _ hcovers2 =>
      rw [hpx, hrx] at hcovers2
      push_cast at hcovers2
      omega
    | rest hroom2 =>
      refine ⟨?_, rfl⟩
      have hknows : t.Pass g (spendRest g) := .rest hroom
      have hk' : t.Knows (topUp (spendRest g) more).progression := hknows.knows hv hk h0 hlt
      rw [spendRest_progression hv hk' (by rw [hrx]; exact hmore) hroom2,
        spendRest_progression hv (g := topUp g more) hk (by rw [hrg]; omega) (by rw [hrg, hpg]; exact hroom1), hpx, hrx,
        hrg, hpg]
      have hsum : g.progression.expInLevel + g.remaining.toNat + more.toNat =
          g.progression.expInLevel + (g.remaining + more).toNat := by omega
      exact congrArg (fun exp => ({ g.progression with expInLevel := exp } : PlayerProgressionState)) hsum

/-- Handing out all of a sum and then more ends where handing out both at once does. -/
theorem spent_topUp {more : Int} (hmore : 0 ≤ more) : ∀ (n : Nat) {g : ExpGain}, (top - g.progression.level).toNat ≤ n →
    t.Knows g.progression → 0 ≤ g.remaining → g.remaining + more ≤ i64Max →
    Agrees (t.spent top (topUp g more)) (t.spent top (topUp (t.spent top g) more))
  | n, g, hn, hk, h0, hmax => by
    by_cases hgoes : 0 < g.remaining ∧ g.progression.level < top
    · obtain ⟨-, hstep⟩ := expGainPass_cases hv hk hgoes.2
      have hpos : 0 < (topUp g more).remaining := by
        show 0 < g.remaining + more
        omega
      obtain ⟨-, hboth⟩ := expGainPass_cases hv (g := topUp g more) hk hgoes.2
      have hkz := hboth.knows hv hk hpos.le hgoes.2
      have hky := hstep.knows hv hk h0 hgoes.2
      have hy0 := hstep.remaining_nonneg h0
      have hz0 := hboth.remaining_nonneg hpos.le
      rw [spent_step hv hk hgoes.1 hgoes.2, spent_step hv (g := topUp g more) hk hpos hgoes.2]
      generalize (t.expGainPass top g).1 = y at *
      generalize (t.expGainPass top (topUp g more)).1 = z at *
      by_cases hrest : (g.progression.expInLevel : Int) + g.remaining < g.progression.nextExpInLevel
      · obtain rfl : y = spendRest g := by
          cases hstep with
          | full _ => omega
          | fill _ _ => omega
          | rest _ => rfl
        rw [spent_of_settled (fun h => h.1.false : Settled top (spendRest g))]
        rcases hmore.eq_or_lt with rfl | hmore
        · -- nothing comes on top
          rw [topUp_zero] at hboth ⊢
          have hagree := Agrees.pass ⟨rfl, rfl⟩ hboth (.rest hrest : t.Pass g (spendRest g)) h0
          exact hagree.spent hv _ le_rfl hkz hz0
        · have hlt : (topUp (spendRest g) more).progression.level < top := hgoes.2
          have hgo : 0 < (topUp (spendRest g) more).remaining := by
            show 0 < 0 + more
            omega
          obtain ⟨-, hmoreStep⟩ := expGainPass_cases hv (g := topUp (spendRest g) more) hky hlt
          rw [spent_step hv (g := topUp (spendRest g) more) hky hgo hlt]
          have hagree := pass_after_rest hv hk h0 hgoes.2 hmore.le hmax hrest hboth hmoreStep
          exact hagree.spent hv _ le_rfl hkz hz0
      · obtain ⟨hagree, hlevel, hle⟩ := pass_topUp h0 hmore hmax hrest hstep hboth
        cases n with
        | zero => omega
        | succ n => exact (hagree.spent hv _ le_rfl hkz hz0).trans (spent_topUp hmore n (by omega) hky hy0 (by omega))
    · rw [spent_of_settled hgoes]
      exact ⟨rfl, rfl⟩

end

/-! ## The counters -/

/-- What the counters say is the way from `start` to the progression at hand. The level steps are counted in 32 bits. -/
structure Counted (start : PlayerProgressionState) (amount : Int) (g : ExpGain) : Prop where
  applied : g.appliedExp + g.remaining = amount
  nonneg : 0 ≤ g.appliedExp
  steps : g.levelStepsGained = wrapI32 (g.progression.climbed - start.climbed)
  levels : g.levelsGained = g.progression.level - start.level
  since : start.level ≤ g.progression.level

section
variable {t : LevelExpTable} {top : Int} {start : PlayerProgressionState} {amount : Int} {g : ExpGain}

/-- A full level is left: no step is gained or lost. -/
theorem Counted.advanced (h : Counted start amount g) (hfull : g.progression.levelStep = levelStepsPerLevel)
    (hstart : 1 ≤ start.level) (hmax : g.progression.level < i32Max) : Counted start amount (t.advanced g) := by
  have hclimbed : (t.advanced g).progression.climbed = g.progression.climbed := by
    unfold PlayerProgressionState.climbed LevelExpTable.advanced
    dsimp only
    rw [levelStep_zero, hfull]
    unfold climbedSteps
    ring
  refine ⟨h.applied, h.nonneg, ?_, ?_, ?_⟩
  · rw [hclimbed]
    exact h.steps
  · show addI32 g.levelsGained 1 = g.progression.level + 1 - start.level
    have hsince := h.since
    unfold i32Max at hmax
    rw [h.levels, addI32_of_mem (by unfold i32Min; omega) (by unfold i32Max; omega)]
    ring
  · show start.level ≤ g.progression.level + 1
    have hsince := h.since
    omega

/-- Experience is added inside a level: the steps crossed are counted. -/
theorem Counted.within {g' : ExpGain} (h : Counted start amount g) (exp : Nat)
    (happlied : g'.appliedExp + g'.remaining = g.appliedExp + g.remaining) (hnonneg : 0 ≤ g'.appliedExp)
    (hp : g'.progression = { g.progression with expInLevel := exp }) (hmono : g.progression.expInLevel ≤ exp)
    (hsteps : g'.levelStepsGained = addI32 g.levelStepsGained
      (crossedLevelSteps g.progression.level g.progression.levelStep g'.progression.levelStep).levelSteps)
    (hlevels : g'.levelsGained = g.levelsGained) : Counted start amount g' := by
  have hstep : g.progression.levelStep ≤ g'.progression.levelStep := by
    rw [hp]
    exact levelStep_mono hmono
  have hlevel : g'.progression.level = g.progression.level := by rw [hp]
  have hclimbed : g'.progression.climbed = climbedSteps g.progression.level g'.progression.levelStep := by
    unfold PlayerProgressionState.climbed
    rw [hlevel]
  refine ⟨happlied.trans h.applied, hnonneg, ?_, ?_, ?_⟩
  · rw [hsteps, crossedLevelSteps_levelSteps g.progression.levelStep_mem.1 hstep
      g'.progression.levelStep_mem.2, h.steps,
      addI32, wrapI32_add_left, hclimbed, PlayerProgressionState.climbed]
    congr 1
    ring
  · rw [hlevels, h.levels, hlevel]
  · rw [hlevel]
    exact h.since

variable (hv : t.Valid top)
include hv

theorem Counted.fillLevel (h : Counted start amount g) (hk : t.Knows g.progression) (h0 : 0 ≤ g.remaining)
    (hmax : amount ≤ i64Max) (hroom : g.progression.expInLevel < g.progression.nextExpInLevel)
    (hcovers : (g.progression.nextExpInLevel : Int) ≤ g.progression.expInLevel + g.remaining) :
    Counted start amount (fillLevel g) ∧ (LevelExpTable.fillLevel g).progression.levelStep = levelStepsPerLevel := by
  obtain ⟨_, _, _, hnext, _⟩ := progressionForLevel_spec hv hk
  have hfull : (LevelExpTable.fillLevel g).progression.levelStep = levelStepsPerLevel :=
    levelStep_full hnext (le_refl g.progression.nextExpInLevel)
  have hsum := h.applied
  have hnonneg := h.nonneg
  have hrest := fillLevel_remaining h0 (by omega) hroom hcovers
  have happlied : (LevelExpTable.fillLevel g).appliedExp =
      g.appliedExp + (g.progression.nextExpInLevel - g.progression.expInLevel : Int) := by
    show satI64 _ = _
    unfold satI64 i64Min
    unfold i64Max at *
    omega
  refine ⟨h.within g.progression.nextExpInLevel (by omega) (by omega) rfl hroom.le ?_ rfl, hfull⟩
  rw [hfull]
  rfl

theorem Counted.pass {g' : ExpGain} (h : Counted start amount g) (hpass : t.Pass g g') (hk : t.Knows g.progression)
    (h0 : 0 < g.remaining) (hlt : g.progression.level < top) (hmax : amount ≤ i64Max) (hstart : 1 ≤ start.level) :
    Counted start amount g' := by
  have hlevel : g.progression.level < i32Max := hlt.trans_le hv.top_le
  obtain ⟨_, _, _, hnext, hnextle⟩ := progressionForLevel_spec hv hk
  cases hpass with
  | full hfull => exact h.advanced (levelStep_full hnext hfull) hstart hlevel
  | fill hroom hcovers =>
    obtain ⟨hfilled, hfull⟩ := h.fillLevel hv hk h0.le hmax hroom hcovers
    exact hfilled.advanced hfull hstart hlevel
  | rest hroom =>
    have hsum := h.applied
    have hnonneg := h.nonneg
    have happlied : (spendRest g).appliedExp = g.appliedExp + g.remaining := by
      show satI64 _ = _
      unfold satI64 i64Min
      unfold i64Max at *
      omega
    have hrest : (spendRest g).remaining = 0 := rfl
    exact h.within (g.progression.expInLevel + g.remaining.toNat) (by omega) (by omega)
      (spendRest_progression hv hk h0.le hroom) (by omega) rfl rfl

end

/-! ## Calls -/

/-- The variables of the loop when it starts. -/
def gainStart (p : PlayerProgressionState) (amount : Int) : ExpGain := ⟨p, max amount 0, 0, 0, 0, 0⟩

def outcome (g : ExpGain) : PlayerExpGainOutcome :=
  ⟨g.progression, g.appliedExp, g.statPointsGained, g.levelStepsGained, g.levelsGained⟩

/-- The loop comes to an end by its own condition, after at most one pass for each level left and one more. -/
structure LoopEnds (t : LevelExpTable) (top : Int) (g : ExpGain) : Prop where
  settled : Settled top (t.spent top g)
  stable : ∀ fuel, (top - g.progression.level).toNat < fuel → t.expGainLoop top fuel g = t.spent top g

section
variable {t : LevelExpTable} {top : Int} (hv : t.Valid top) {current p : PlayerProgressionState}
  (hp : t.progressionForLevel current.level current.expInLevel = some p) {amount : Int}
include hv hp

theorem applyPlayerExpGain_eq (amount : Int) :
    t.applyPlayerExpGain current amount = some (outcome (t.spent top (gainStart p amount))) := by
  unfold applyPlayerExpGain
  simp only [hp, hv.maxLevel, Option.bind_eq_bind, Option.bind_some, Option.pure_def]
  rfl

theorem loop_ends (amount : Int) : LoopEnds t top (gainStart p amount) := by
  have hk : t.Knows (gainStart p amount).progression := progressionForLevel_self hv hp
  have h0 : 0 ≤ (gainStart p amount).remaining := le_max_right _ _
  refine ⟨?_, fun fuel hfuel => expGainLoop_eq_spent hv fuel _ hk h0 hfuel⟩
  exact (spent_induct hv (P := fun _ => True) (fun _ _ _ _ _ _ _ => trivial) _ _ le_rfl hk h0 trivial).2.1

/-- Where the loop ends, and what it has counted. -/
theorem spent_spec (h0 : 0 ≤ amount) (hmax : amount ≤ i64Max) :
    Counted p amount (t.spent top (gainStart p amount)) ∧
      GainOk t p.earned (t.spent top (gainStart p amount)) ∧ 0 ≤ (t.spent top (gainStart p amount)).remaining := by
  have hk : t.Knows (gainStart p amount).progression := progressionForLevel_self hv hp
  have hrest : 0 ≤ (gainStart p amount).remaining := le_max_right _ _
  obtain ⟨_, ⟨h1, _⟩, _⟩ := progressionForLevel_spec hv hk
  have hstart : Counted p amount (gainStart p amount) := by
    refine ⟨?_, le_rfl, ?_, ?_, le_rfl⟩
    · show 0 + max amount 0 = amount
      omega
    · show 0 = wrapI32 (p.climbed - p.climbed)
      rw [Int.sub_self]
      rfl
    · exact (Int.sub_self _).symm
  obtain ⟨hcounted, -, -, hend⟩ := spent_induct hv (P := Counted p amount)
    (fun g g' hk h0 hlt hpass h => h.pass hv hpass hk h0 hlt hmax h1) _ _ le_rfl hk hrest hstart
  have hok : GainOk t p.earned (gainStart p amount) := ⟨hk, (Int.sub_self _).symm, le_rfl⟩
  exact ⟨hcounted, (expGainLoop_done hv (earnedStatPoints_mem _ _) _ _ hok (.inr (Nat.lt_succ_self _))).1, hend⟩

end

/-- A call that goes on from a settled loop does what the loop does with more on top. -/
theorem spent_gainStart {t : LevelExpTable} {top : Int} (hv : t.Valid top) {g : ExpGain} {more : Int} (hmore : 0 ≤ more)
    (hk : t.Knows g.progression) (h0 : 0 ≤ g.remaining) (hsettled : Settled top g) :
    (t.spent top (topUp g more)).progression = (t.spent top (gainStart g.progression more)).progression ∧
      (t.spent top (topUp g more)).remaining = g.remaining +
        (t.spent top (gainStart g.progression more)).remaining := by
  have hstart : (gainStart g.progression more).remaining = more := max_eq_left hmore
  rcases h0.eq_or_lt with hnone | hleft
  · have hrest : (topUp g more).remaining = more := by
      show g.remaining + more = more
      omega
    have hagree : Agrees (topUp g more) (gainStart g.progression more) := ⟨rfl, hstart.trans hrest.symm⟩
    have h := hagree.spent hv _ le_rfl hk (by rw [hrest]; exact hmore)
    exact ⟨h.progression.symm, by rw [← hnone, Int.zero_add]; exact h.remaining.symm⟩
  · -- what is left could not be placed: the top is reached
    have htop : ¬ g.progression.level < top := fun h => hsettled ⟨hleft, h⟩
    rw [spent_of_settled (fun h => htop h.2 : Settled top (topUp g more)),
      spent_of_settled (fun h => htop h.2 : Settled top (gainStart g.progression more)), hstart]
    exact ⟨rfl, rfl⟩

/-- The way in two parts is the whole way. -/
theorem Counted.add {p : PlayerProgressionState} {a b : Int} {g1 g2 g3 : ExpGain} (c1 : Counted p a g1)
    (c2 : Counted g1.progression b g2) (c3 : Counted p (a + b) g3) (hprog : g3.progression = g2.progression)
    (hrest : g3.remaining = g1.remaining + g2.remaining) :
    g3.appliedExp = g1.appliedExp + g2.appliedExp ∧ g3.levelStepsGained =
      addI32 g1.levelStepsGained g2.levelStepsGained ∧
      g3.levelsGained = g1.levelsGained + g2.levelsGained := by
  refine ⟨?_, ?_, ?_⟩
  · have h1 := c1.applied
    have h2 := c2.applied
    have h3 := c3.applied
    omega
  · rw [c1.steps, c2.steps, c3.steps, hprog, addI32, wrapI32_add_left, wrapI32_add_right]
    congr 1
    ring
  · rw [c1.levels, c2.levels, c3.levels, hprog]
    ring

/-- The steps of a small table are counted exactly. -/
theorem Counted.steps_exact {t : LevelExpTable} {top : Int} (hv : t.Valid top) {p : PlayerProgressionState}
    {amount : Int} {g : ExpGain} (h : Counted p amount g) (hp : t.Knows p) (hk : t.Knows g.progression)
    (hsmall : 4 * top ≤ i32Max) :
    g.levelStepsGained = g.progression.climbed - p.climbed := by
  obtain ⟨_, hlevel, _⟩ := progressionForLevel_spec hv hp
  obtain ⟨_, hlevel', _⟩ := progressionForLevel_spec hv hk
  have hstep := p.levelStep_mem
  have hstep' := g.progression.levelStep_mem
  rw [h.steps]
  unfold i32Max at hsmall
  unfold PlayerProgressionState.climbed climbedSteps levelStepsPerLevel
  refine wrapI32_of_mem ?_ ?_
  · unfold i32Min
    omega
  · unfold i32Max
    omega

/-- In an accepted table, a gain of `a + b` is a gain of `a` and then one of `b`. The sum of the level steps is that of
the field's 32 bits, and an exact one for tables of fewer than 2^29 levels. -/
theorem applyPlayerExpGain_add {es : List LevelExpEntry} {t : LevelExpTable} (ht : tryNew es = .ok t)
    {current : PlayerProgressionState} (hlevel : (t.entryForLevel current.level).isSome) {a b : Int} (ha : 0 ≤ a)
    (hb : 0 ≤ b) (hab : a + b ≤ i64Max) :
    ∃ top p first second both, t.maxLevel = some top ∧ t.progressionForLevel current.level current.expInLevel = some p ∧
      t.applyPlayerExpGain current a = some first ∧ t.applyPlayerExpGain first.progression b = some second ∧
      t.applyPlayerExpGain current (a + b) = some both ∧
      both.progression = second.progression ∧ both.appliedExp = first.appliedExp + second.appliedExp ∧
      both.statPointsGained = first.statPointsGained + second.statPointsGained ∧
      both.levelStepsGained = addI32 first.levelStepsGained second.levelStepsGained ∧
      (4 * top ≤ i32Max → both.levelStepsGained = first.levelStepsGained + second.levelStepsGained) ∧
      both.levelsGained = first.levelsGained + second.levelsGained ∧
      LoopEnds t top (gainStart p (a + b)) ∧ both.progression.level ≤ top ∧ both.appliedExp ≤ a + b := by
  obtain ⟨top, hv⟩ := tryNew_valid ht
  obtain ⟨e, he⟩ := Option.isSome_iff_exists.1 hlevel
  obtain ⟨p, hp⟩ : ∃ p, t.progressionForLevel current.level current.expInLevel = some p := by
    unfold progressionForLevel
    rw [he]
    exact ⟨_, rfl⟩
  have hself := progressionForLevel_self hv hp
  have hfirst := applyPlayerExpGain_eq hv hp a
  have hboth := applyPlayerExpGain_eq hv hp (a + b)
  obtain ⟨c1, k1, r1⟩ := spent_spec hv hp ha (by omega)
  obtain ⟨c3, k3, r3⟩ := spent_spec hv hp (Int.add_nonneg ha hb) hab
  have hsettled := (loop_ends hv hp a).settled
  -- the progression and the rest of both calls together
  have hagree := spent_topUp hv hb _ (g := gainStart p a) le_rfl hself (le_max_right _ _)
    (by rw [show (gainStart p a).remaining = a from max_eq_left ha]; exact hab)
  rw [show topUp (gainStart p a) b = gainStart p (a + b) by
    unfold topUp gainStart
    rw [max_eq_left ha, max_eq_left (Int.add_nonneg ha hb)]] at hagree
  have hloop := loop_ends hv hp (a + b)
  generalize t.spent top (gainStart p a) = g1 at *
  generalize t.spent top (gainStart p (a + b)) = g3 at *
  have hsecond := applyPlayerExpGain_eq hv k1.known b
  obtain ⟨c2, k2, r2⟩ := spent_spec hv k1.known hb (by omega)
  obtain ⟨hprog, hrest⟩ := spent_gainStart hv hb k1.known r1 hsettled
  rw [hagree.progression] at hprog
  rw [hagree.remaining] at hrest
  generalize t.spent top (gainStart g1.progression b) = g2 at *
  obtain ⟨happlied, hsteps, hlevels⟩ := c1.add c2 c3 hprog hrest
  obtain ⟨_, htop, _⟩ := progressionForLevel_spec hv k3.known
  have hsum := c3.applied
  refine ⟨top, p, outcome g1, outcome g2, outcome g3, hv.maxLevel, hp, hfirst, hsecond, hboth, hprog,
    happlied, ?_, hsteps,
    fun hsmall => ?_, hlevels, hloop, htop.2, ?_⟩
  · show g3.statPointsGained = g1.statPointsGained + g2.statPointsGained
    rw [k1.points, k2.points, k3.points, hprog]
    ring
  · show g3.levelStepsGained = g1.levelStepsGained + g2.levelStepsGained
    rw [c1.steps_exact hv hself k1.known hsmall, c2.steps_exact hv k1.known k2.known hsmall,
      c3.steps_exact hv hself k3.known hsmall, hprog]
    ring
  · show g3.appliedExp ≤ a + b
    omega

/-- Three levels that ask for 100, 200 and 300. -/
def threeLevels : List LevelExpEntry :=
  [⟨2, 200, 0, by decide⟩, ⟨1, 100, 0, by decide⟩, ⟨3, 300, 0, by decide⟩]

theorem applyPlayerExpGain_add_threeLevels : ∃ t first second both, tryNew threeLevels = .ok t ∧
    t.applyPlayerExpGain ⟨1, 10, 100⟩ 90 = some first ∧ t.applyPlayerExpGain first.progression 260 = some second ∧
    t.applyPlayerExpGain ⟨1, 10, 100⟩ 350 = some both ∧ both.progression = second.progression ∧
    both.appliedExp = first.appliedExp + second.appliedExp := by
  have hok : (match tryNew threeLevels with
    | .ok t => (t.entryForLevel 1).isSome
    | .error _ => false) = true := by decide
  split at hok
  · rename_i t ht
    obtain ⟨_, _, first, second, both, -, -, h1, h2, h3, hprog, happlied, -⟩ :=
      @applyPlayerExpGain_add _ t ht ⟨1, 10, 100⟩ hok 90 260 (by decide) (by decide) (by decide)
    exact ⟨t, first, second, both, ht, h1, h2, h3, hprog, happlied⟩
  · cases hok

end LevelExpTable

end Zohar.Stats
