/-
Where a mob wanders that nobody provokes: from one place that can be stood on to another of the same component. It sets
out from the centimetre of the place where it stands to that of the place it has found, and both keep to their cells
where a cell is a whole number of centimetres wide. Coordinates are exact.
-/
import Zohar.Mob.Cadence
import Zohar.Nav.Route

namespace Zohar.Mob

open Zohar.Lib
open Zohar.Nav (MapNavigator TerrainFlagsGrid GridCell)
open Zohar.Replication (EntityId MovementKind)
open Zohar.Spawn (MobId)

/-! ## The navigator -/

/-- `MapNavigator::same_component` -/
def sameComponent (nav : MapNavigator) (start goal : Nav.LocalPos) : Bool :=
  (nav.resolveEndpoints start goal).any nav.cellsShareComponent

def exactNavigator (nav : MapNavigator) : Navigator Rat where
  canStand pos := Nav.canStand nav.walkability pos
  sameComponent start goal := sameComponent nav start goal
  segmentClear start goal := nav.segmentClear start goal

/-! ## The centimetre of a place -/

/-- A cell is a whole number of centimetres wide. -/
def WholeCm (g : TerrainFlagsGrid) : Prop := ∃ n : Nat, g.cellSizeM = (n : Rat) / 100

section

variable {g : TerrainFlagsGrid} {x : Rat} {pos : LocalPos Rat} {cell : GridCell}

theorem truncToWireCm_of_nonneg (h : 0 ≤ x) : truncToWireCm x = (⌊x * 100⌋ : Rat) / 100 := by
  have hscaled : 0 ≤ x * 100 := by positivity
  show (if 0 ≤ x * 100 then ((⌊x * 100⌋ : Int) : Rat) else ((⌈x * 100⌉ : Int) : Rat)) / 100 = _
  rw [if_pos hscaled]

/-- Cutting a coordinate to the centimetre leaves it in its cell. -/
theorem floor_truncToWireCm (hg : WholeCm g) (h : 0 ≤ x) : ⌊g.inCells (truncToWireCm x)⌋ = ⌊g.inCells x⌋ := by
  obtain ⟨n, hn⟩ := hg
  have hscale : ∀ y : Rat, y / ((n : Rat) / 100) = y * 100 / n := by
    intro y
    rw [div_div_eq_mul_div]
  unfold TerrainFlagsGrid.inCells
  rw [truncToWireCm_of_nonneg h, hn, hscale, hscale, div_mul_cancel₀ _ (by norm_num : (100 : Rat) ≠ 0)]
  rw [Int.floor_div_natCast, Int.floor_div_natCast, Int.floor_intCast]

theorem nonneg_of_floor_inCells {n : Nat} (h : ⌊g.inCells x⌋ = n) : 0 ≤ x := by
  have hle : (0 : Rat) ≤ g.inCells x := by
    have hfloor : (0 : Int) ≤ ⌊g.inCells x⌋ := by omega
    exact Int.floor_nonneg.1 hfloor
  unfold TerrainFlagsGrid.inCells at hle
  by_contra hneg
  exact absurd (div_neg_of_neg_of_pos (not_le.1 hneg) g.cellSize_pos) (not_lt.2 hle)

theorem cellForPoint_snap (hg : WholeCm g) (h : g.cellForPoint pos = some cell) :
    g.cellForPoint (snapLocalToWireCm pos) = some cell := by
  rw [TerrainFlagsGrid.cellForPoint_eq_some_iff] at h ⊢
  obtain ⟨⟨hx, hy⟩, hbound⟩ := h
  refine ⟨⟨?_, ?_⟩, hbound⟩
  · exact (floor_truncToWireCm hg (nonneg_of_floor_inCells hx)).trans hx
  · exact (floor_truncToWireCm hg (nonneg_of_floor_inCells hy)).trans hy

end

/-! ## Common ground -/

/-- A place that can be stood on, in the cell of the mob's home or in its component. -/
def OnHomeGround (nav : MapNavigator) (home pos : LocalPos Rat) : Prop :=
  Nav.canStand nav.walkability pos = true ∧ ∃ homeCell cell,
    nav.walkability.terrain.cellForPoint home = some homeCell ∧
    nav.walkability.terrain.cellForPoint pos = some cell ∧
    (cell = homeCell ∨ nav.reachability.sameComponent homeCell cell = true)

/-- A place that can be stood on, joined by walkable cells to the one of the mob's home. -/
def OnWalkableGround (w : Nav.WalkabilityView) (home pos : LocalPos Rat) : Prop :=
  Nav.canStand w pos = true ∧ ∃ homeCell cell,
    w.terrain.cellForPoint home = some homeCell ∧ w.terrain.cellForPoint pos = some cell ∧ Nav.Joined w homeCell cell

section

variable {nav : MapNavigator} {home pos goal : LocalPos Rat}

theorem exists_cell_of_canStand (h : Nav.canStand nav.walkability pos = true) :
    ∃ cell, nav.walkability.terrain.cellForPoint pos = some cell := by
  unfold Nav.canStand at h
  cases hcell : nav.walkability.terrain.cellForPoint pos with
  | none => simp [hcell] at h
  | some cell => exact ⟨cell, rfl⟩

theorem onHomeGround_home (h : Nav.canStand nav.walkability home = true) : OnHomeGround nav home home := by
  obtain ⟨cell, hcell⟩ := exists_cell_of_canStand h
  exact ⟨h, cell, cell, hcell, hcell, .inl rfl⟩

theorem OnHomeGround.snap (hg : WholeCm nav.walkability.terrain) (h : OnHomeGround nav home pos) :
    OnHomeGround nav home (snapLocalToWireCm pos) := by
  obtain ⟨hstand, homeCell, cell, hhome, hcell, hsame⟩ := h
  have hsnap := cellForPoint_snap hg hcell
  refine ⟨?_, homeCell, cell, hhome, hsnap, hsame⟩
  unfold Nav.canStand at hstand ⊢
  rw [hcell] at hstand
  rw [hsnap]
  exact hstand

theorem gridSameComponent_iff {r : Nav.ReachabilityGrid} {a b : GridCell} :
    r.sameComponent a b = true ↔ ∃ component, r.componentForCell a = some component ∧
      r.componentForCell b = some component := by
  unfold Nav.ReachabilityGrid.sameComponent
  cases ha : r.componentForCell a with
  | none => simp
  | some i =>
    cases hb : r.componentForCell b with
    | none => simp
    | some j =>
      simp only [beq_iff_eq, Option.some.injEq]
      constructor
      · rintro rfl
        exact ⟨i, rfl, rfl⟩
      · rintro ⟨component, rfl, rfl⟩
        rfl

theorem OnHomeGround.trans (h : OnHomeGround nav home pos) (hstand : Nav.canStand nav.walkability goal = true)
    (hsame : sameComponent nav pos goal = true) : OnHomeGround nav home goal := by
  obtain ⟨-, homeCell, cell, hhome, hcell, hground⟩ := h
  obtain ⟨goalCell, hgoal⟩ := exists_cell_of_canStand hstand
  have hshare : nav.reachability.sameComponent cell goalCell = true := by
    simpa [sameComponent, MapNavigator.resolveEndpoints, MapNavigator.cellsShareComponent, hcell, hgoal] using hsame
  refine ⟨hstand, homeCell, goalCell, hhome, hgoal, .inr ?_⟩
  rcases hground with rfl | hground
  · exact hshare
  · rw [gridSameComponent_iff] at hground hshare ⊢
    obtain ⟨i, hi, hcelli⟩ := hground
    obtain ⟨j, hcellj, hj⟩ := hshare
    obtain rfl : i = j := Option.some.inj (hcelli.symm.trans hcellj)
    exact ⟨i, hi, hj⟩

/-- The navigator of a map has labelled the terrain, so its components are those of the walkable cells. -/
theorem OnHomeGround.walkable {terrain : TerrainFlagsGrid} {fuel : Nat}
    (hnew : MapNavigator.new terrain fuel = .returned nav) (h : OnHomeGround nav home pos) :
    OnWalkableGround ⟨terrain⟩ home pos := by
  obtain ⟨hstand, homeCell, cell, hhome, hcell, hground⟩ := h
  have hjoined : Nav.Joined nav.walkability homeCell cell := by
    rcases hground with rfl | hsame
    · exact .refl
    · exact ((MapNavigator.labelled_of_new hnew homeCell cell).1 hsame).2.2
  rw [MapNavigator.walkability_of_new hnew] at hstand hhome hcell hjoined
  exact ⟨hstand, homeCell, cell, hhome, hcell, hjoined⟩

end

/-! ## Wandering -/

section

variable {cfg : MobConfig Rat} {nav : MapNavigator} {home : LocalPos Rat} {v : MobView Rat} {roll : WanderRoll Rat}
  {r r' : MobRun Rat} {c : MobContext Rat} {brain : MobBrainState} {proto : MobPrototype} {mobId : MobId}

theorem sampleIdleWanderTarget_spec {randomRange : Nat → Rat → Rat → Rat} {destination : LocalPos Rat}
    (hnav : cfg.navigator = some (exactNavigator nav))
    (h : sampleIdleWanderTarget cfg c randomRange = some destination) :
    isInsideMap cfg.localSize destination = true ∧ Nav.canStand nav.walkability destination = true ∧
      sameComponent nav c.currentPos destination = true := by
  obtain ⟨i, -, hi⟩ := List.exists_of_findSome?_eq_some h
  dsimp only at hi
  split at hi
  · cases hi
  · rename_i hinside
    split at hi
    · cases hi
    · rename_i hground
      split at hi
      · cases hi
      · cases hi
        rw [hnav] at hground
        simp only [Option.any_some, exactNavigator, Bool.or_eq_true, Bool.not_eq_true', not_or,
          Bool.not_eq_false] at hground
        exact ⟨by simpa using hinside, hground.1.1, hground.1.2⟩

/-- An idle mind without a target. -/
structure AtEase (brain : MobBrainState) : Prop where
  mode : brain.mode = .idle
  target : brain.target = none

theorem AtEase.coherent (h : AtEase brain) (hwindup : brain.attackWindupUntil = 0) : brain.Coherent where
  target_iff := iff_of_false (by simp [h.target]) (by simp [h.mode])
  windup hne := absurd hwindup hne

/-- A move from the place where the mob stands to the one that it has found. -/
def Wander (nav : MapNavigator) (home : LocalPos Rat) (now : Nat) (action : MobAction Rat) : Prop :=
  ∃ startPos endPos rot kind ts duration nextBrain,
    action = .motion startPos endPos rot kind ts duration nextBrain ∧ OnHomeGround nav home startPos ∧
    OnHomeGround nav home endPos ∧ AtEase nextBrain ∧ nextBrain.wanderWaitUntil = some (satAdd now duration)

/-- Without a target and without provocation there is only the wandering to decide on. -/
theorem think_atEase (v : MobView Rat) (roll : WanderRoll Rat) (now : Nat) {mob : MobBody Rat}
    (hproto : cfg.mobs mob.mobId = some proto) (haggressive : proto.bhvFlags.aggressive = false)
    (hease : AtEase mob.brain) (hquiet : mob.aggro = []) (halive : mob.life.isAlive = true) :
    ∃ c, collectMobContext cfg mob now = some c ∧
      mob.think cfg v roll now = mob.conclude false mob.brain (handleIdle cfg mob.mobId c roll mob.brain) := by
  have hcontext : ∃ c, collectMobContext cfg mob now = some c ∧ c.proto = proto := by
    unfold collectMobContext
    rw [hproto]
    simp [halive]
  obtain ⟨c, hc, hcproto⟩ := hcontext
  refine ⟨c, hc, ?_⟩
  have hwindup : handleAttackWindup mob.brain now = some (mob.brain, false, none) := by
    unfold handleAttackWindup
    rw [if_pos (by simp [hease.mode])]
  have haggro : applyNewAggro v mob.brain [] now = (false, mob.brain) := rfl
  have hacquire : acquireIdleTarget cfg v c mob.brain = (false, mob.brain) := by
    have hnone : v.acquireAggressiveTarget cfg.libm c.currentPos c.proto = none := by
      unfold MobView.acquireAggressiveTarget
      rw [hcproto, if_pos haggressive]
    unfold acquireIdleTarget
    rw [hnone]
    split <;> rfl
  have hvalidate : validateTarget cfg v c mob.brain = (none, false, mob.brain) := by
    unfold validateTarget
    rw [hease.target]
  have hbrain : ({ mob.brain with nextRethinkAt := max mob.brain.nextRethinkAt 0 } : MobBrainState) = mob.brain := by
    rw [Nat.max_zero]
  have hmob : ({ mob with aggro := [] } : MobBody Rat) = mob := by rw [← hquiet]
  unfold MobBody.think
  rw [hc]
  dsimp only
  rw [hwindup]
  dsimp only
  rw [hquiet, haggro]
  dsimp only
  rw [hacquire]
  dsimp only
  rw [hvalidate]
  dsimp only [Option.getD_none]
  rw [hbrain, hmob]
  unfold decideAction
  rw [hease.target]
  dsimp only
  rw [if_neg (by simp [hease.mode])]
  rfl

/-- What comes of the decision of a mob at ease: it stays, and the pause that it was in goes on or is over; or it moves,
and then none was going on. -/
theorem handleIdle_atEase (roll : WanderRoll Rat) (mobId : MobId) (hnav : cfg.navigator = some (exactNavigator nav))
    (hg : WholeCm nav.walkability.terrain) (hease : AtEase brain)
    (hground : (∀ w, brain.wanderWaitUntil = some w → w ≤ c.now) → OnHomeGround nav home c.currentPos) :
    (handleIdle cfg mobId c roll brain).1 = none ∧ AtEase (handleIdle cfg mobId c roll brain).2 ∧
        ((handleIdle cfg mobId c roll brain).2.wanderWaitUntil = brain.wanderWaitUntil ∨
          (handleIdle cfg mobId c roll brain).2.wanderWaitUntil = none ∧
            ∀ w, brain.wanderWaitUntil = some w → w ≤ c.now) ∨
      ∃ action, (handleIdle cfg mobId c roll brain).1 = some action ∧ Wander nav home c.now action := by
  unfold handleIdle
  split
  · exact .inl ⟨rfl, hease, .inl rfl⟩
  · rename_i hover
    have hpast : ∀ w, brain.wanderWaitUntil = some w → w ≤ c.now := by
      intro w hw
      rw [hw] at hover
      simpa using hover
    have hstays : ∀ decisionAt, AtEase { brain with wanderWaitUntil := none, wanderNextDecisionAt := decisionAt } :=
      fun _ => ⟨hease.mode, hease.target⟩
    dsimp only
    split
    · exact .inl ⟨rfl, hstays _, .inr ⟨rfl, hpast⟩⟩
    · split
      · exact .inl ⟨rfl, hstays _, .inr ⟨rfl, hpast⟩⟩
      · split
        · exact .inl ⟨rfl, hstays _, .inr ⟨rfl, hpast⟩⟩
        · cases hsample : sampleIdleWanderTarget cfg c roll.randomRange with
          | none => exact .inl ⟨rfl, hstays _, .inr ⟨rfl, hpast⟩⟩
          | some destination =>
            obtain ⟨-, hstand, hsame⟩ := sampleIdleWanderTarget_spec hnav hsample
            have hcurrent := hground hpast
            dsimp only
            unfold buildMobMoveAction
            cases calculateMobDuration cfg.libm ((cfg.runSpeed mobId).getD defaultRunMotionSpeedMeterPerSec) .wait
                c.currentPos destination (((cfg.mobs mobId).map (·.moveSpeed)).getD 0) with
            | none => exact .inl ⟨rfl, hstays _, .inr ⟨rfl, hpast⟩⟩
            | some duration =>
              refine .inr
                ⟨_, rfl, ⟨_, _, _, _, _, _, _, rfl, hcurrent.snap hg, (hcurrent.trans hstand hsame).snap hg, ?_, ?_⟩⟩
              · exact ⟨hease.mode, hease.target⟩
              · rfl

/-! ## Runs in peace -/

/-- What holds of a mob that nobody provokes: both ends of the segment it walks are on the ground of its home, and the
walk is over when the pause is. -/
structure Peaceful (nav : MapNavigator) (mobId : MobId) (home : LocalPos Rat) (r : MobRun Rat) : Prop where
  mob : r.body.mobId = mobId
  ease : AtEase r.body.brain
  quiet : r.body.aggro = []
  start : OnHomeGround nav home r.body.motion.segmentStartPos
  goal : OnHomeGround nav home r.body.motion.segmentEndPos
  walk : r.body.life.isAlive = true → r.body.motion.segmentEndAt ≤ r.body.brain.wanderWaitUntil.getD r.simNow
  planned : ∀ action v, r.planned = some (action, v) → Wander nav home r.simNow action

theorem Peaceful.think (hnav : cfg.navigator = some (exactNavigator nav)) (hg : WholeCm nav.walkability.terrain)
    (hproto : cfg.mobs mobId = some proto) (haggressive : proto.bhvFlags.aggressive = false)
      (h : Peaceful nav mobId home r) :
    Peaceful nav mobId home { r with
      body := (r.body.think cfg v roll r.simNow).1
      planned := (r.body.think cfg v roll r.simNow).2.map fun action => (action, v) } := by
  cases halive : r.body.life.isAlive with
  | false =>
    have hnone : r.body.think cfg v roll r.simNow = (r.body, none) := by
      unfold MobBody.think collectMobContext
      rw [if_pos halive]
    rw [hnone]
    exact ⟨h.mob, h.ease, h.quiet, h.start, h.goal, h.walk, fun _ _ hplan => by cases hplan⟩
  | true =>
    obtain ⟨c, hc, hthink⟩ := think_atEase v roll r.simNow (h.mob ▸ hproto) haggressive h.ease h.quiet halive
    obtain ⟨-, -, hnow, -, hpos, -⟩ := collectMobContext_spec hc
    have hground : (∀ w, r.body.brain.wanderWaitUntil = some w → w ≤ c.now) → OnHomeGround nav home c.currentPos := by
      intro hpast
      have hend : r.body.motion.segmentEndAt ≤ r.simNow := by
        have hwalk := h.walk halive
        cases hwait : r.body.brain.wanderWaitUntil with
        | none =>
          rw [hwait] at hwalk
          exact hwalk
        | some w =>
          rw [hwait] at hwalk
          have hw := hpast w hwait
          rw [hnow] at hw
          exact hwalk.trans hw
      rw [hpos, MobMotionState.sampleAt_of_le hend]
      exact h.goal
    rw [hthink]
    have hidle := handleIdle_atEase roll r.body.mobId hnav hg h.ease hground
    generalize handleIdle cfg r.body.mobId c roll r.body.brain = result at hidle ⊢
    obtain ⟨planned, brain'⟩ := result
    rcases hidle with ⟨rfl, hease, hwait⟩ | ⟨action, rfl, hwander⟩
    · have hbody : r.body.conclude false r.body.brain (none, brain') = ({ r.body with brain := brain' }, none) := by
        unfold MobBody.conclude
        rw [persistIf_eq]
        intro hsame
        simpa using hsame
      rw [hbody]
      refine ⟨h.mob, hease, h.quiet, h.start, h.goal, ?_, fun _ _ hplan => by cases hplan⟩
      intro _
      have hwalk := h.walk halive
      rcases hwait with hwait | ⟨hwait, hpast⟩
      · rw [show brain'.wanderWaitUntil = r.body.brain.wanderWaitUntil from hwait]
        exact hwalk
      · rw [show brain'.wanderWaitUntil = none from hwait]
        cases hold : r.body.brain.wanderWaitUntil with
        | none =>
          rw [hold] at hwalk
          exact hwalk
        | some w =>
          rw [hold] at hwalk
          have hw := hpast w hold
          rw [hnow] at hw
          exact hwalk.trans hw
    · refine ⟨h.mob, h.ease, h.quiet, h.start, h.goal, fun _ => h.walk halive, ?_⟩
      rintro _ _ ⟨⟩
      rw [← hnow]
      exact hwander

theorem Peaceful.act {actView planView : MobView Rat} {action : MobAction Rat} (h : Peaceful nav mobId home r)
    (hplan : r.planned = some (action, planView)) : Peaceful nav mobId home (r.act cfg actView planView action) := by
  obtain ⟨startPos, endPos, rot, kind, ts, duration, nextBrain, rfl, hstart, hgoal, hease, hwait⟩ := h.planned _ _ hplan
  unfold MobRun.act
  split
  · refine ⟨h.mob, hease, h.quiet, hstart, hgoal, ?_, fun _ _ hplan => by cases hplan⟩
    intro _
    show satAdd r.simNow duration ≤ nextBrain.wanderWaitUntil.getD r.simNow
    rw [hwait]
    exact le_rfl
  · exact ⟨h.mob, h.ease, h.quiet, h.start, h.goal, h.walk, fun _ _ hplan => by cases hplan⟩

theorem Peaceful.step (hnav : cfg.navigator = some (exactNavigator nav)) (hg : WholeCm nav.walkability.terrain)
    (hproto : cfg.mobs mobId = some proto) (haggressive : proto.bhvFlags.aggressive = false) {e : MobEvent Rat}
    (h : Peaceful nav mobId home r) (he : ∀ attacker, e ≠ .provoke attacker) (hs : r.step cfg e = some r') :
    Peaceful nav mobId home r' := by
  cases e with
  | tick now =>
    simp only [MobRun.step] at hs
    split at hs
    · rename_i hcond
      cases hs
      refine ⟨h.mob, h.ease, h.quiet, h.start, h.goal, ?_, ?_⟩
      · intro halive
        have hwalk := h.walk halive
        cases hwait : r.body.brain.wanderWaitUntil with
        | none =>
          rw [hwait] at hwalk
          exact hwalk.trans hcond.2.1
        | some w =>
          rw [hwait] at hwalk
          exact hwalk
      · intro action v hplan
        rw [show r.planned = some (action, v) from hplan] at hcond
        cases hcond.1
    · cases hs
  | provoke attacker => exact absurd rfl (he attacker)
  | think v roll =>
    simp only [MobRun.step] at hs
    split at hs
    · cases hs
      exact h.think hnav hg hproto haggressive
    · cases hs
  | act v =>
    obtain ⟨⟨action, planView⟩, hplan, rfl⟩ := Option.map_eq_some_iff.1 hs
    exact h.act hplan
  | die =>
    simp only [MobRun.step] at hs
    split at hs
    · rename_i hidle
      cases hs
      have hplanned : ∀ action v, r.planned = some (action, v) → Wander nav home r.simNow action := by
        intro action v hplan
        rw [hplan] at hidle
        cases hidle
      unfold MobBody.beginDying
      split
      · exact ⟨h.mob, h.ease, h.quiet, h.start, h.goal, h.walk, hplanned⟩
      · refine ⟨h.mob, ⟨rfl, rfl⟩, rfl, h.goal, h.goal, ?_, hplanned⟩
        intro halive
        cases halive
    · cases hs

/-- A mob that is not aggressive and that nobody provokes walks, all its life, only between places that can be stood on,
in the cell or the component in which it has spawned. With the navigator that the terrain of the map gives, that is the
connected component of its walkable cells. -/
theorem peaceful_mob_keeps_to_its_ground {pos : LocalPos Rat} {rot : UInt8} {now pause : Nat} {es : List (MobEvent Rat)}
    (hnav : cfg.navigator = some (exactNavigator nav)) (hg : WholeCm nav.walkability.terrain)
    (hproto : cfg.mobs mobId = some proto) (haggressive : proto.bhvFlags.aggressive = false)
    (hstand : Nav.canStand nav.walkability pos = true) (hpeace : ∀ attacker, MobEvent.provoke attacker ∉ es)
    (hrun : run (MobRun.step cfg) (.fresh (.spawned cfg proto mobId pos rot now pause) now) es = some r) :
    (OnHomeGround nav pos r.body.motion.segmentStartPos ∧ OnHomeGround nav pos r.body.motion.segmentEndPos) ∧
      ∀ terrain fuel, MapNavigator.new terrain fuel = .returned nav →
        OnWalkableGround ⟨terrain⟩ pos r.body.motion.segmentStartPos ∧
        OnWalkableGround ⟨terrain⟩ pos r.body.motion.segmentEndPos := by
  have hfresh : Peaceful nav mobId pos (.fresh (.spawned cfg proto mobId pos rot now pause) now) := by
    refine ⟨rfl, ⟨rfl, rfl⟩, rfl, onHomeGround_home hstand, onHomeGround_home hstand, fun _ => Nat.zero_le _, ?_⟩
    intro _ _ hplan
    cases hplan
  have hmeets : Meets (MobRun.step cfg) (fun _ e => ∀ attacker, e ≠ .provoke attacker)
      (.fresh (.spawned cfg proto mobId pos rot now pause) now) es := by
    refine .of_forall ?_
    rintro e he attacker rfl
    exact hpeace attacker he
  have hkept := run_inv_of_meets (I := Peaceful nav mobId pos) (fun _ _ _ h he hs =>
    h.step hnav hg hproto haggressive he hs) hfresh hmeets hrun
  exact ⟨⟨hkept.start, hkept.goal⟩, fun _ _ hnew => ⟨hkept.start.walkable hnew, hkept.goal.walkable hnew⟩⟩

end

/-! ## A sheep on a meadow -/

/-- Four cells of grass, as `MapNavigator::new` labels them. -/
def meadow : MapNavigator := ⟨Nav.fourCells .empty .empty .empty .empty, ⟨2, 2, [1, 1, 1, 1]⟩⟩

/-- A quarter turn to the north, and lengths of zero and one. -/
def northLibm : Libm Rat where
  sqrt q := q
  sin _ := 1
  cos _ := 0
  atan2 _ _ := 0
  toDegrees q := q
  remEuclid q _ := q

def sheep : MobPrototype := { wolf with bhvFlags := ⟨false, false⟩ }

def meadowConfig : MobConfig Rat :=
  { wolfConfig with
    libm := northLibm
    mobs := fun _ => some sheep
    wander := ⟨3000, 5000, 1000, 3000, 7, 1, 2⟩
    localSize := ⟨2, 2⟩
    navigator := some (exactNavigator meadow) }

/-- To the north, by the shortest step. -/
def northRoll : WanderRoll Rat := ⟨0, 0, fun i lo hi => if i % 2 = 0 then hi / 4 else lo, 0⟩

def sheepAtSpawn : MobRun Rat := .fresh (.spawned meadowConfig sheep ⟨102⟩ ⟨1 / 2, 1 / 2⟩ 0 0 0) 0

theorem peaceful_mob_keeps_to_its_ground_sheep : ∃ r, run (MobRun.step meadowConfig) sheepAtSpawn
      [.tick 3000, .think wolfView northRoll, .act wolfView, .tick 4000] = some r ∧
    r.body.motion.segmentEndPos = ⟨1 / 2, 3 / 2⟩ ∧
    OnWalkableGround meadow.walkability ⟨1 / 2, 1 / 2⟩ r.body.motion.segmentStartPos ∧
    OnWalkableGround meadow.walkability ⟨1 / 2, 1 / 2⟩ r.body.motion.segmentEndPos := by
  have h : (run (MobRun.step meadowConfig) sheepAtSpawn
      [.tick 3000, .think wolfView northRoll, .act wolfView, .tick 4000]).map (fun r => r.body.motion.segmentEndPos) =
      some ⟨1 / 2, 3 / 2⟩ := by decide +kernel
  obtain ⟨r, hr, hend⟩ := Option.map_eq_some_iff.1 h
  have hcells : WholeCm meadow.walkability.terrain := ⟨100, by decide +kernel⟩
  have hpeace : ∀ attacker, MobEvent.provoke attacker ∉
      [.tick 3000, .think wolfView northRoll, .act wolfView, .tick 4000] := by simp
  have hnew : MapNavigator.new meadow.walkability.terrain 100 = .returned meadow := rfl
  exact ⟨r, hr, hend,
    (peaceful_mob_keeps_to_its_ground rfl hcells rfl rfl (by decide +kernel) hpeace hr).2
    meadow.walkability.terrain 100 hnew⟩

end Zohar.Mob
