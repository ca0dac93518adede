/-
How a player moves over a map: where it is sampled on the segment it walks, how far one packet takes it and how its end
is kept on the map. From zohar-sim/src/runtime: spatial.rs, rules/movement.rs, action/plan.rs and action/apply.rs.
Coordinates are exact numbers, so that a length is the length and no rounding lies between two of them; timestamps are
milliseconds.
-/
import Mathlib
import Zohar.Space
import Zohar.Replication.Events

/-- A position as a point of the plane, for the distance that it has there. -/
def Zohar.Space.LocalPos.plane (a : LocalPos ℝ) : ℂ := ⟨a.x, a.y⟩

namespace Zohar.Portal

open Zohar.Replication (MovementKind)
open Zohar.Space (samplePlayerMotionStateAt samplePlayerVisualPositionAt)

/-! ## Positions -/

abbrev LocalPos := Space.LocalPos ℝ

abbrev LocalSize := Space.LocalSize ℝ

noncomputable def distance (start goal : LocalPos) : ℝ := Space.distance Real.sqrt start goal

noncomputable def distanceSq (a b : LocalPos) : ℝ := (a.sub b).dot (a.sub b)

abbrev PlayerMotionState := Space.PlayerMotionState ℝ

/-! ## Targets -/

noncomputable def maxMovePacketStepM : ℝ := 25

noncomputable def clampStepTowards (start goal : LocalPos) (maxStep : ℝ) : LocalPos :=
  let delta := goal.sub start
  let dist := delta.length Real.sqrt
  if dist ≤ maxStep ∨ dist ≤ 1 / 100 then goal else start.add (delta.scale (maxStep / dist))

noncomputable def sanitizePacketTarget (currentPos requestedPos : LocalPos) : LocalPos :=
  clampStepTowards currentPos requestedPos maxMovePacketStepM

/-- `none` where `f32::clamp` panics because the bounds are the wrong way round. Exact numbers are finite. -/
noncomputable def clampAxisToMap (coord maxExclusive : ℝ) : Option ℝ :=
  if maxExclusive ≤ 0 then some 0
  else
    let hi := maxExclusive - 1 / 1000
    if hi < 0 then none
    else some (if coord < 0 then 0 else if hi < coord then hi else coord)

noncomputable def sanitizePlayerTargetToMap (requested : LocalPos) (mapSize : LocalSize) : Option LocalPos :=
  (clampAxisToMap requested.x mapSize.width).bind fun x =>
    (clampAxisToMap requested.y mapSize.height).map fun y => ⟨x, y⟩

/-! ## Moves -/

/-- `PlayerCommand::Move`, of which the argument and the rotation are left out, with `calculate_move_duration_ms` for
the appearance and the animation of the player. -/
structure MoveRequest where
  kind : MovementKind
  target : LocalPos
  ts : Nat
  calculateMoveDurationMs : LocalPos → LocalPos → Nat

/-- The components of a player that moves. -/
structure PlayerBody where
  netId : Replication.EntityId
  pos : LocalPos
  motion : PlayerMotionState

/-- `ClientTimestamp::saturating_add`. -/
def tsSaturatingAdd (ts duration : Nat) : Nat := min (ts + duration) 4294967295

/-- `build_player_move_action`: the end of the move and the segment that leads to it. -/
noncomputable def buildPlayerMoveAction (mapSize : LocalSize) (b : PlayerBody) (move : MoveRequest) :
    Option (LocalPos × PlayerMotionState) :=
  let oldPos := samplePlayerMotionStateAt b.pos b.motion move.ts
  (sanitizePlayerTargetToMap (sanitizePacketTarget oldPos move.target) mapSize).map fun endPos =>
    let duration := if move.kind = .move then move.calculateMoveDurationMs oldPos endPos else 0
    (endPos,
      if move.kind = .move ∧ 0 < duration then ⟨oldPos, endPos, move.ts, tsSaturatingAdd move.ts duration, move.ts⟩
      else .standing endPos move.ts)

/-! ## Distances -/

section Distances

variable {a b c start goal : LocalPos} {size : LocalSize}

theorem dist_plane (a b : LocalPos) : dist a.plane b.plane = √((a.x - b.x) ^ 2 + (a.y - b.y) ^ 2) :=
  Complex.dist_eq_re_im _ _

theorem distance_eq (a b : LocalPos) : distance a b = dist a.plane b.plane := by
  rw [dist_comm, dist_plane, sq, sq]
  rfl

theorem distance_nonneg (a b : LocalPos) : 0 ≤ distance a b := by
  rw [distance_eq]
  exact dist_nonneg

theorem distanceSq_eq (a b : LocalPos) : distanceSq a b = dist a.plane b.plane ^ 2 := by
  rw [dist_plane, Real.sq_sqrt (by positivity), sq, sq]
  rfl

theorem distanceSq_le_iff {r : ℝ} (hr : 0 ≤ r) : distanceSq a b ≤ r * r ↔ dist a.plane b.plane ≤ r := by
  rw [distanceSq_eq, ← sq]
  exact pow_le_pow_iff_left₀ dist_nonneg hr two_ne_zero

/-- On the way, the end is no farther than it was from the start. -/
theorem dist_between {t : ℝ} (h₀ : 0 ≤ t) (h₁ : t ≤ 1) :
    dist (start.add ((goal.sub start).scale t)).plane goal.plane ≤ dist start.plane goal.plane := by
  have hline : (start.add ((goal.sub start).scale t)).plane = AffineMap.lineMap start.plane goal.plane t := by
    apply Complex.ext
    · simp [AffineMap.lineMap_apply, Space.LocalPos.plane, Space.LocalPos.add, Space.LocalPos.sub, Space.LocalPos.scale]
      ring
    · simp [AffineMap.lineMap_apply, Space.LocalPos.plane, Space.LocalPos.add, Space.LocalPos.sub, Space.LocalPos.scale]
      ring
  rw [hline, dist_lineMap_right, Real.norm_eq_abs, abs_of_nonneg (by linarith)]
  exact mul_le_of_le_one_left dist_nonneg (by linarith)

/-- How much of a segment has passed is a share of the whole while it is under way. -/
theorem share_mem {now endTs : Nat} (startTs : Nat) (h : now < endTs) :
    0 ≤ ((now - startTs : Nat) : ℝ) / ((endTs - startTs : Nat) : ℝ) ∧
      ((now - startTs : Nat) : ℝ) / ((endTs - startTs : Nat) : ℝ) ≤ 1 := by
  refine ⟨by positivity, div_le_one_of_le₀ ?_ (by positivity)⟩
  exact_mod_cast (by omega : now - startTs ≤ endTs - startTs)

/-- A player is seen no farther from the end of its segment than the segment is long. -/
theorem dist_visual_le (motion : PlayerMotionState) (packetTs : Nat) :
    dist (samplePlayerVisualPositionAt motion packetTs).plane motion.segmentEndPos.plane ≤
      dist motion.segmentStartPos.plane motion.segmentEndPos.plane := by
  unfold samplePlayerVisualPositionAt
  split_ifs with _ _ hend
  · rw [dist_self]; exact dist_nonneg
  · exact le_rfl
  · rw [dist_self]; exact dist_nonneg
  · rw [dist_self]; exact dist_nonneg
  · have ⟨h₀, h₁⟩ := share_mem motion.segmentStartTs (not_le.1 hend)
    exact dist_between h₀ h₁

theorem dist_clampStepTowards {maxStep : ℝ} (h : 1 / 100 ≤ maxStep) :
    dist start.plane (clampStepTowards start goal maxStep).plane ≤ maxStep := by
  have hlen : (goal.sub start).length Real.sqrt = dist start.plane goal.plane := distance_eq start goal
  unfold clampStepTowards
  simp only [hlen]
  split_ifs with hnear
  · obtain hle | hle := hnear
    · exact hle
    · exact hle.trans h
  · -- the step is cut to a share of the way, which is as long as the step may be
    have hfar : maxStep < dist start.plane goal.plane := not_le.1 fun hle => hnear (.inl hle)
    have hpos : 0 < dist start.plane goal.plane := by linarith
    have hcut : start.plane - (start.add ((goal.sub start).scale (maxStep / dist start.plane goal.plane))).plane =
        (maxStep / dist start.plane goal.plane : ℝ) • (start.plane - goal.plane) := by
      apply Complex.ext
      · simp [Space.LocalPos.plane, Space.LocalPos.add, Space.LocalPos.sub, Space.LocalPos.scale]
        ring
      · simp [Space.LocalPos.plane, Space.LocalPos.add, Space.LocalPos.sub, Space.LocalPos.scale]
        ring
    rw [dist_eq_norm, hcut, norm_smul, ← dist_eq_norm, Real.norm_eq_abs, abs_of_nonneg (by positivity)]
    exact (div_mul_cancel₀ _ hpos.ne').le

theorem dist_sanitizePacketTarget (currentPos requestedPos : LocalPos) :
    dist currentPos.plane (sanitizePacketTarget currentPos requestedPos).plane ≤ maxMovePacketStepM :=
  dist_clampStepTowards (by norm_num [maxMovePacketStepM])

/-! ## On the map -/

theorem clampAxisToMap_of_mem {p m : ℝ} (h₀ : 0 ≤ p) (h₁ : p ≤ m - 1 / 1000) : clampAxisToMap p m = some p := by
  unfold clampAxisToMap
  simp only []
  rw [if_neg (by linarith), if_neg (by linarith), if_neg (by linarith), if_neg (by linarith)]

/-- What is left of a coordinate that is already on the map is as far from another one as before, or nearer. -/
theorem clampAxisToMap_near {p q r m : ℝ} (hp : clampAxisToMap p m = some p) (hq : clampAxisToMap q m = some r) :
    (p - r) ^ 2 ≤ (p - q) ^ 2 := by
  unfold clampAxisToMap at hp hq
  apply sq_le_sq.2
  split_ifs at hp hq <;> simp only [Option.some.injEq] at hp hq <;> grind

/-- The clamp to the map leaves the position as it is. -/
def OnMap (size : LocalSize) (pos : LocalPos) : Prop := sanitizePlayerTargetToMap pos size = some pos

theorem sanitizePlayerTargetToMap_eq_some_iff : sanitizePlayerTargetToMap a size = some b ↔
    clampAxisToMap a.x size.width = some b.x ∧ clampAxisToMap a.y size.height = some b.y := by
  unfold sanitizePlayerTargetToMap
  cases clampAxisToMap a.x size.width with
  | none => simp
  | some x =>
    cases clampAxisToMap a.y size.height with
    | none => simp
    | some y => simp [Space.LocalPos.ext_iff]

theorem OnMap.dist_le (ha : OnMap size a) (hb : sanitizePlayerTargetToMap b size = some c) :
    dist a.plane c.plane ≤ dist a.plane b.plane := by
  obtain ⟨hax, hay⟩ := sanitizePlayerTargetToMap_eq_some_iff.1 ha
  obtain ⟨hbx, hby⟩ := sanitizePlayerTargetToMap_eq_some_iff.1 hb
  rw [dist_plane, dist_plane]
  exact Real.sqrt_le_sqrt (add_le_add (clampAxisToMap_near hax hbx) (clampAxisToMap_near hay hby))

theorem onMap_sanitized (h : sanitizePlayerTargetToMap a size = some b) : OnMap size b := by
  obtain ⟨hx, hy⟩ := sanitizePlayerTargetToMap_eq_some_iff.1 h
  have haxis : ∀ {p q m : ℝ}, clampAxisToMap p m = some q → clampAxisToMap q m = some q := by
    intro p q m h
    simp only [clampAxisToMap] at h ⊢
    grind
  exact sanitizePlayerTargetToMap_eq_some_iff.2 ⟨haxis hx, haxis hy⟩

theorem OnMap.between (ha : OnMap size a) (hb : OnMap size b) {t : ℝ} (h₀ : 0 ≤ t) (h₁ : t ≤ 1) :
    OnMap size (a.add ((b.sub a).scale t)) := by
  obtain ⟨hax, hay⟩ := sanitizePlayerTargetToMap_eq_some_iff.1 ha
  obtain ⟨hbx, hby⟩ := sanitizePlayerTargetToMap_eq_some_iff.1 hb
  have haxis : ∀ {p q m : ℝ}, clampAxisToMap p m = some p → clampAxisToMap q m = some q →
      clampAxisToMap (p + (q - p) * t) m = some (p + (q - p) * t) := by
    intro p q m hp hq
    -- between two numbers of an interval lies no number outside of it
    have hlo : min p q ≤ p + (q - p) * t := by
      rcases le_total p q with h | h
      · rw [min_eq_left h]; nlinarith
      · rw [min_eq_right h]; nlinarith
    have hhi : p + (q - p) * t ≤ max p q := by
      rcases le_total p q with h | h
      · rw [max_eq_right h]; nlinarith
      · rw [max_eq_left h]; nlinarith
    unfold clampAxisToMap at hp hq ⊢
    split_ifs at hp hq ⊢ <;> simp only [Option.some.injEq] at hp hq ⊢ <;> grind
  exact sanitizePlayerTargetToMap_eq_some_iff.2 ⟨haxis hax hbx, haxis hay hby⟩

end Distances

/-! ## What a move does -/

section Moves

variable {size : LocalSize} {b : PlayerBody} {move : MoveRequest} {endPos : LocalPos} {motion : PlayerMotionState}

/-- Where a player is when it asks for a move. -/
noncomputable def PlayerBody.oldPos (b : PlayerBody) (move : MoveRequest) : LocalPos :=
  samplePlayerMotionStateAt b.pos b.motion move.ts

/-- The end of the move, on the map, is no farther from where it is made than one packet may go. -/
def StepKept (size : LocalSize) (b : PlayerBody) (move : MoveRequest) : Prop :=
  ∀ endPos, sanitizePlayerTargetToMap (sanitizePacketTarget (b.oldPos move) move.target) size = some endPos →
    distance (b.oldPos move) endPos ≤ maxMovePacketStepM

/-- The step is kept wherever the move is made from a position on the map. -/
theorem stepKept_of_onMap (h : OnMap size (b.oldPos move)) : StepKept size b move := by
  intro endPos hend
  rw [distance_eq]
  exact (h.dist_le hend).trans (dist_sanitizePacketTarget _ _)

theorem buildPlayerMoveAction_spec (h : buildPlayerMoveAction size b move = some (endPos, motion)) :
    sanitizePlayerTargetToMap (sanitizePacketTarget (b.oldPos move) move.target) size = some endPos ∧
      motion.segmentEndPos = endPos ∧ (motion.segmentStartPos = b.oldPos move ∨ motion.segmentStartPos = endPos) := by
  obtain ⟨e, he, heq⟩ := Option.map_eq_some_iff.1 h
  obtain ⟨rfl, hmotion⟩ := Prod.mk.inj heq
  refine ⟨he, ?_⟩
  rw [← hmotion]
  generalize (if move.kind = .move then move.calculateMoveDurationMs _ e else 0) = duration
  by_cases hway : move.kind = .move ∧ 0 < duration
  · rw [if_pos hway]
    exact ⟨rfl, .inl rfl⟩
  · rw [if_neg hway]
    exact ⟨rfl, .inr rfl⟩

/-- Where a player stands is the end of its segment, and the segment is no longer than one packet may go. -/
structure PlayerBody.InStep (b : PlayerBody) : Prop where
  ends : b.motion.segmentEndPos = b.pos
  short : dist b.motion.segmentStartPos.plane b.pos.plane ≤ maxMovePacketStepM

theorem inStep_standing (netId : Replication.EntityId) (pos : LocalPos) (ts : Nat) :
    PlayerBody.InStep ⟨netId, pos, .standing pos ts⟩ where
  ends := rfl
  short := by
    show dist pos.plane pos.plane ≤ _
    rw [dist_self]
    norm_num [maxMovePacketStepM]

theorem inStep_move (hkept : StepKept size b move) (h : buildPlayerMoveAction size b move = some (endPos, motion)) :
    PlayerBody.InStep ⟨b.netId, endPos, motion⟩ := by
  obtain ⟨hend, hmotion, hstart⟩ := buildPlayerMoveAction_spec h
  refine ⟨hmotion, ?_⟩
  show dist motion.segmentStartPos.plane endPos.plane ≤ _
  obtain hstart | hstart := hstart
  · have hlen := hkept endPos hend
    rwa [distance_eq, ← hstart] at hlen
  · rw [hstart, dist_self]
    norm_num [maxMovePacketStepM]

/-- A player is never seen farther from where it stands than one packet may go. -/
theorem PlayerBody.InStep.dist_visual (h : b.InStep) (packetTs : Nat) :
    dist (samplePlayerVisualPositionAt b.motion packetTs).plane b.pos.plane ≤ maxMovePacketStepM := by
  have hle := dist_visual_le b.motion packetTs
  rw [h.ends] at hle
  exact hle.trans h.short

/-- A player whose segment lies on the map asks for its next move on the map. -/
theorem onMap_oldPos (hpos : OnMap size b.pos) (hstart : OnMap size b.motion.segmentStartPos)
    (hend : OnMap size b.motion.segmentEndPos) : OnMap size (b.oldPos move) := by
  unfold PlayerBody.oldPos samplePlayerMotionStateAt
  split_ifs with _ _ hover
  · exact hpos
  · exact hpos
  · exact hend
  · exact hpos
  · have ⟨h₀, h₁⟩ := share_mem b.motion.segmentStartTs (not_le.1 hover)
    exact hstart.between hend h₀ h₁

end Moves

end Zohar.Portal
