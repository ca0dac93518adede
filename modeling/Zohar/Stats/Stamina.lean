/-
Stamina over any run of ticks: it stays between zero and its maximum, the walk is forced exactly on the ticks that use
up the last of it and lifted exactly on those that bring it back, and an exhausted player spends nothing.
-/
import Zohar.Lib.Run
import Zohar.Stats.Recovery

namespace Zohar.Stats

open Zohar.Lib
open Zohar.Replication (MovementAnimation)

/-! ## What a tick can do -/

theorem LegacyStaminaMovement.isCombatRun_new {activity : PlayerStatActivity} {movementMode : MovementAnimation}
    {currentStamina : Int} (h : (LegacyStaminaMovement.new activity movementMode currentStamina).isCombatRun = true) :
    0 < currentStamina := by
  unfold LegacyStaminaMovement.new LegacyStaminaMoveMode.new at h
  by_contra hc
  rw [if_pos (.inr (by omega))] at h
  cases hm : activity.movement <;> simp [hm, isCombatRun] at h

/-- Only a player with stamina left consumes it. -/
theorem LegacyStaminaSnapshot.shouldConsume_new {stamina maxStamina : Int} {activity : PlayerStatActivity}
    {movementMode : MovementAnimation}
    (h : (LegacyStaminaSnapshot.new stamina maxStamina activity movementMode).shouldConsume = true) : 0 < stamina :=
  LegacyStaminaMovement.isCombatRun_new ((Bool.and_eq_true _ _).mp h).2

theorem LegacyStaminaMovement.restore_eq_some {m : LegacyStaminaMovement} {amount : Int} {depleted : Bool}
    {r : LegacyStaminaRestore} (h : m.restore amount depleted = some r) :
    r.amount = amount ∧ r.depletedBeforeRestore = depleted := by
  cases m with
  | moving mode =>
    cases mode with
    | run => cases h
    | walk sinceStarted =>
      simp only [restore, LegacyStaminaMoveMode.restore] at h
      split at h
      · cases h; exact ⟨rfl, rfl⟩
      · cases h
  | stopped movement =>
    simp only [restore] at h
    split at h
    · cases h; exact ⟨rfl, rfl⟩
    · cases h

theorem LegacyStaminaSnapshot.restore_eq_some {s : LegacyStaminaSnapshot} {r : LegacyStaminaRestore}
    (h : s.restore = some r) : s.current < s.max ∧ r.amount = s.max ∧ r.depletedBeforeRestore = s.isDepleted := by
  unfold restore at h
  split at h
  · cases h
  · rename_i hlt
    exact ⟨by omega, LegacyStaminaMovement.restore_eq_some h⟩

/-- What is consumed at a positive stamina: a part of it, or all of it with the walk forced. -/
theorem consumeRunningStamina_spec (state : PlayerStaminaState) {stamina : Int} (h0 : 0 < stamina)
    (elapsed : Duration) :
    ∃ spend, 0 ≤ spend ∧ spend ≤ stamina ∧
      (consumeRunningStamina state stamina elapsed).1.application =
        (if 0 < spend then some (ResourceApplication.spend .stamina spend) else none) ∧
      (consumeRunningStamina state stamina elapsed).1.movementOverride =
        if spend = stamina then some .forceWalk else none := by
  unfold consumeRunningStamina
  dsimp only
  generalize (state.accumulator.accrue ⟨staminaConsumePerSecond, .fromSecs 1⟩ elapsed).1 = accrued
  refine ⟨min (min (max accrued 0) stamina) i32Max, by unfold i32Max; omega, by unfold i32Max; omega, rfl, ?_⟩
  have hdeplete : satI32 (stamina - min (min (max accrued 0) stamina) i32Max) ≤ 0 ↔
      min (min (max accrued 0) stamina) i32Max = stamina := by
    unfold satI32 i32Min i32Max
    omega
  by_cases hs : min (min (max accrued 0) stamina) i32Max = stamina
  · rw [if_pos hs, if_pos (decide_eq_true (hdeplete.2 hs))]
  · rw [if_neg hs, if_neg (by simpa using mt hdeplete.1 hs)]

/-- A tick spends some of a positive stamina, forcing the walk where that is all of it; or restores the maximum, lifting
the forced walk where there was none left; or leaves the stamina alone. -/
inductive StaminaOutcome (stamina maxStamina : Int) (effect : PlayerStaminaEffect) : Prop where
  | spend (amount : Int) (hpos : 0 < stamina) (h0 : 0 < amount) (h1 : amount ≤ stamina)
    (happlication : effect.application = some (.spend .stamina amount))
    (hoverride : effect.movementOverride = if amount = stamina then some .forceWalk else none)
  | restore (hlt : stamina < maxStamina) (happlication : effect.application = some (.restore .stamina maxStamina))
    (hoverride : effect.movementOverride = if stamina ≤ 0 then some .revertToPreferred else none)
  | rest (happlication : effect.application = none) (hoverride : effect.movementOverride = none)

theorem tickPlayerStamina_outcome (state : PlayerStaminaState) (stamina maxStamina : Int)
    (activity : PlayerStatActivity) (movementMode : MovementAnimation) (elapsed : Duration) :
    StaminaOutcome stamina maxStamina (tickPlayerStamina state stamina maxStamina activity movementMode elapsed).1 := by
  unfold tickPlayerStamina
  dsimp only
  split
  · rename_i hc
    have hpos := LegacyStaminaSnapshot.shouldConsume_new hc
    obtain ⟨spend, hs0, hs1, happ, hover⟩ := consumeRunningStamina_spec state hpos elapsed
    show StaminaOutcome stamina maxStamina (consumeRunningStamina state stamina elapsed).1
    by_cases hzero : 0 < spend
    · rw [if_pos hzero] at happ
      exact .spend spend hpos hzero hs1 happ hover
    · rw [if_neg hzero] at happ
      rw [if_neg (by omega)] at hover
      exact .rest happ hover
  · cases hr : (LegacyStaminaSnapshot.new stamina maxStamina activity movementMode).restore with
    | none => exact .rest rfl rfl
    | some r =>
      obtain ⟨hlt, ha, hd⟩ := LegacyStaminaSnapshot.restore_eq_some hr
      refine .restore hlt ?_ ?_
      · simp only [Option.map_some, LegacyStaminaRestore.application, ha]
        rfl
      · simp only [Option.bind_some, LegacyStaminaRestore.movementOverride, hd, LegacyStaminaSnapshot.isDepleted,
          decide_eq_true_eq]
        rfl

/-- A tick commands the client's timer exactly where it changes `consuming`, to what it changes it to. -/
theorem tickPlayerStamina_timer (state : PlayerStaminaState) (stamina maxStamina : Int) (activity : PlayerStatActivity)
    (movementMode : MovementAnimation) (elapsed : Duration) {effect : PlayerStaminaEffect} {state' : PlayerStaminaState}
    (h : tickPlayerStamina state stamina maxStamina activity movementMode elapsed = (effect, state')) :
    effect.timer = if state'.consuming = state.consuming then none
      else if state'.consuming then some (.start staminaConsumePerSecond) else some .stop := by
  unfold tickPlayerStamina at h
  dsimp only at h
  split at h
  · unfold consumeRunningStamina at h
    dsimp only at h
    generalize decide (satI32 _ ≤ 0) = willDeplete at h
    cases willDeplete with
    | true =>
      cases hc : state.consuming with
      | true => simp only [if_true, hc] at h; cases h; rfl
      | false => simp only [if_true, hc] at h; cases h; rfl
    | false =>
      cases hc : state.consuming with
      | true => simp only [startStaminaConsumption, hc, Bool.false_eq_true, if_false, if_true] at h; cases h; simp
      | false => simp only [startStaminaConsumption, hc, Bool.false_eq_true, if_false] at h; cases h; rfl
  · cases hc : state.consuming with
    | true => simp only [stopStaminaConsumption, hc] at h; cases h; rfl
    | false => simp only [stopStaminaConsumption, hc] at h; cases h; simp

/-! ## Runs -/

structure StaminaRun where
  stamina : Int
  state : PlayerStaminaState

/-- What a tick is called with besides the stamina. -/
structure StaminaTick where
  activity : PlayerStatActivity
  movementMode : MovementAnimation
  elapsed : Duration

def StaminaRun.effect (maxStamina : Int) (r : StaminaRun) (tick : StaminaTick) : PlayerStaminaEffect :=
  (tickPlayerStamina r.state r.stamina maxStamina tick.activity tick.movementMode tick.elapsed).1

/-- A tick and the application it returns. -/
def staminaStep (maxStamina : Int) (r : StaminaRun) (tick : StaminaTick) : Option StaminaRun :=
  let (effect, state) := tickPlayerStamina r.state r.stamina maxStamina tick.activity tick.movementMode tick.elapsed
  match effect.application with
  | none => some { r with state }
  | some a => (a.next maxStamina r.stamina).map fun stamina => ⟨stamina, state⟩

def StaminaRun.Within (maxStamina : Int) (r : StaminaRun) : Prop := 0 ≤ r.stamina ∧ r.stamina ≤ maxStamina

/-- How the effect of a tick and the stamina before and after it belong together. -/
structure StaminaRun.Matches (maxStamina : Int) (r t : StaminaRun) (effect : PlayerStaminaEffect) : Prop where
  forceWalk : effect.movementOverride = some .forceWalk ↔ 0 < r.stamina ∧ t.stamina = 0
  revert : effect.movementOverride = some .revertToPreferred ↔ r.stamina = 0 ∧ 0 < t.stamina
  exhausted : r.stamina = 0 → ∀ a, effect.application = some a → a = .restore .stamina maxStamina

/-- One tick keeps the bounds and reports exactly the crossings of zero. -/
theorem staminaStep_spec {maxStamina : Int} (hmax : 0 < maxStamina) (hmax' : maxStamina ≤ i32Max) {r : StaminaRun}
    (hr : r.Within maxStamina) (tick : StaminaTick) :
    ∃ t, staminaStep maxStamina r tick = some t ∧ t.Within maxStamina ∧
      r.Matches maxStamina t (r.effect maxStamina tick) := by
  obtain ⟨h0, h1⟩ := hr
  have houtcome := tickPlayerStamina_outcome r.state r.stamina maxStamina tick.activity tick.movementMode tick.elapsed
  unfold StaminaRun.effect staminaStep
  generalize tickPlayerStamina r.state r.stamina maxStamina tick.activity tick.movementMode tick.elapsed =
    result at houtcome ⊢
  obtain ⟨effect, state⟩ := result
  dsimp only at houtcome ⊢
  unfold i32Max at hmax'
  cases houtcome with
  | spend amount hpos ha0 ha1 happ hover =>
    have hsat : satI32 (r.stamina + -amount) = r.stamina - amount := by unfold satI32 i32Min i32Max; omega
    have hnext : (ResourceApplication.spend .stamina amount).next maxStamina r.stamina = some (r.stamina - amount) := by
      rw [ResourceApplication.spend, ResourceApplication.next_new hmax.le, hsat]
      congr 1
      omega
    refine ⟨⟨r.stamina - amount, state⟩, ?_, ⟨?_, ?_⟩, ?_, ?_, ?_⟩
    · rw [happ]
      dsimp only
      rw [hnext]
      rfl
    · show 0 ≤ r.stamina - amount
      omega
    · show r.stamina - amount ≤ maxStamina
      omega
    · show effect.movementOverride = some .forceWalk ↔ 0 < r.stamina ∧ r.stamina - amount = 0
      rw [hover]
      split
      · exact iff_of_true rfl ⟨hpos, by omega⟩
      · exact iff_of_false nofun fun h => absurd h.2 (by omega)
    · rw [hover]
      split
      · exact iff_of_false nofun fun h => absurd h.1 hpos.ne'
      · exact iff_of_false nofun fun h => absurd h.1 hpos.ne'
    · intro hzero
      omega
  | restore hlt happ hover =>
    have hnext : (ResourceApplication.restore .stamina maxStamina).next maxStamina r.stamina = some maxStamina := by
      rw [ResourceApplication.restore, ResourceApplication.next_new hmax.le]
      congr 1
      unfold satI32 i32Min i32Max
      omega
    refine ⟨⟨maxStamina, state⟩, ?_, ⟨hmax.le, le_rfl⟩, ?_, ?_, ?_⟩
    · rw [happ]
      dsimp only
      rw [hnext]
      rfl
    · rw [hover]
      split
      · exact iff_of_false nofun fun h => absurd h.2 hmax.ne'
      · exact iff_of_false nofun fun h => absurd h.2 hmax.ne'
    · rw [hover]
      split
      · exact iff_of_true rfl ⟨by omega, hmax⟩
      · exact iff_of_false nofun fun h => absurd h.1 (by omega)
    · intro _ a ha
      rw [happ] at ha
      exact (Option.some.inj ha).symm
  | rest happ hover =>
    refine ⟨{ r with state }, ?_, ⟨h0, h1⟩, ?_, ?_, ?_⟩
    · rw [happ]
    · rw [hover]
      exact iff_of_false nofun fun h => absurd h.2 h.1.ne'
    · rw [hover]
      exact iff_of_false nofun fun h => absurd h.1 h.2.ne'
    · intro _ a ha
      rw [happ] at ha
      cases ha

theorem exists_run_staminaStep {maxStamina : Int} (hmax : 0 < maxStamina) (hmax' : maxStamina ≤ i32Max) :
    ∀ (ticks : List StaminaTick) {r : StaminaRun}, r.Within maxStamina →
      ∃ t, run (staminaStep maxStamina) r ticks = some t ∧ t.Within maxStamina
  | [], r, hr => ⟨r, rfl, hr⟩
  | tick :: ticks, r, hr => by
    obtain ⟨t, ht, hw, _⟩ := staminaStep_spec hmax hmax' hr tick
    obtain ⟨u, hu, hw'⟩ := exists_run_staminaStep hmax hmax' ticks hw
    exact ⟨u, (run_cons_eq_some _).2 ⟨t, ht, hu⟩, hw'⟩

/-- After any ticks of any activity, the stamina is within its bounds, and so it is after one more; that tick forces the
walk exactly if it takes the stamina from positive to zero, lifts it exactly if it brings it back from zero, and
consumes nothing where there is nothing. -/
theorem stamina_run {maxStamina : I32} (hmax : 0 < maxStamina.val) {start : StaminaRun}
    (h0 : 0 ≤ start.stamina) (h1 : start.stamina ≤ maxStamina.val) (ticks : List StaminaTick) (tick : StaminaTick) :
    ∃ r t, run (staminaStep maxStamina.val) start ticks = some r ∧ staminaStep maxStamina.val r tick = some t ∧
      r.Within maxStamina.val ∧ t.Within maxStamina.val ∧
      r.Matches maxStamina.val t (r.effect maxStamina.val tick) := by
  obtain ⟨r, hr, hw⟩ := exists_run_staminaStep hmax maxStamina.property.2 ticks (r := start) ⟨h0, h1⟩
  obtain ⟨t, ht, hw', hmatch⟩ := staminaStep_spec hmax maxStamina.property.2 hw tick
  exact ⟨r, t, hr, ht, hw, hw', hmatch⟩

/-- A second of running in a fight. -/
def combatRun : StaminaTick := ⟨⟨.moving, none, some 0⟩, .run, .fromSecs 1⟩

/-- The last ten of 800 are used up in a fight, and the walk is forced. -/
theorem stamina_run_fight :
    ∃ r t, run (staminaStep 800) ⟨35, ⟨.default, false⟩⟩ [combatRun] = some r ∧ staminaStep 800 r combatRun = some t ∧
      r.Within 800 ∧ t.Within 800 ∧ r.Matches 800 t (r.effect 800 combatRun) :=
  @stamina_run ⟨800, by decide⟩ (by decide) ⟨35, ⟨.default, false⟩⟩ (by decide) (by decide)
    [combatRun] combatRun

example : ((StaminaRun.mk 10 ⟨.default, true⟩).effect 800 combatRun).movementOverride = some .forceWalk := by decide

end Zohar.Stats
