/-
Clipping a segment in front of the first cell that cannot be entered: the clipped point backs off from it by a
millimetre. From zohar-sim: navigation/segment.rs and, for the snapshot of a moving player,
runtime/player/persistence.rs and runtime/spatial.rs. Coordinates are exact, and so is the length of a segment, which
need not be rational.
-/
import Mathlib.Analysis.Real.Sqrt
import Zohar.Nav.Route

namespace Zohar.Space.LocalPos

def exact (pos : LocalPos Rat) : LocalPos ℝ := ⟨pos.x, pos.y⟩

theorem exact_injective {a b : LocalPos Rat} (h : a.exact = b.exact) : a = b :=
  LocalPos.ext (Rat.cast_injective (congrArg LocalPos.x h)) (Rat.cast_injective (congrArg LocalPos.y h))

end Zohar.Space.LocalPos

namespace Zohar.Nav

open Zohar.Lib
open Zohar.Space (PlayerMotionState samplePlayerVisualPositionAt)

/-! ## Points off the rational grid -/

/-- A point whose coordinates need not be rational. -/
abbrev ExactPos := Space.LocalPos ℝ

namespace TerrainFlagsGrid

/-- `axisCell` on a real coordinate. -/
noncomputable def axisCellExact (g : TerrainFlagsGrid) (coordM : ℝ) (limit : Nat) : Option Nat :=
  if coordM < 0 then none
  else
    let cell := ⌊coordM * (g.invCellSizeM : ℝ)⌋
    if cell < 0 then none else if cell.toNat < limit then some cell.toNat else none

noncomputable def cellForExact (g : TerrainFlagsGrid) (pos : ExactPos) : Option GridCell :=
  (g.axisCellExact pos.x g.width).bind fun x => (g.axisCellExact pos.y g.height).map fun y => ⟨x, y⟩

end TerrainFlagsGrid

/-- `canStand` on a real point. -/
noncomputable def canStandExact (w : WalkabilityView) (pos : ExactPos) : Bool :=
  (w.terrain.cellForExact pos).any w.isWalkableCell

/-! ## The clipped segment -/

def clipBackoffEpsilonM : Rat := 1 / 1000

/-- `f32::EPSILON`. -/
def f32Epsilon : Rat := 1 / 2 ^ 23

noncomputable def segmentLen (start goal : LocalPos) : ℝ :=
  √(((goal.x : ℝ) - start.x) ^ 2 + ((goal.y : ℝ) - start.y) ^ 2)

/-- The walk has always ended after `walkFuel` steps (`walkSegment_ends`), and an infinite time of entry needs a segment
without length (`StopsAt.exists_coe`). -/
noncomputable def clipSegment (w : WalkabilityView) (start goal : LocalPos) : ExactPos :=
  match walkSegment w.terrain start goal w.isWalkableCell (walkFuel w.terrain) with
  | some (some .complete) => goal.exact
  | some (some (.blocked _ enterT)) =>
    if segmentLen start goal ≤ f32Epsilon ∨ enterT ≤ 0 then start.exact
    else
      let enterT : ℝ := (enterT.untopD 0 : Rat)
      let backoffT := min (clipBackoffEpsilonM / segmentLen start goal) enterT
      let clippedT := max (enterT - backoffT) 0
      ⟨start.x + ((goal.x : ℝ) - start.x) * clippedT, start.y + ((goal.y : ℝ) - start.y) * clippedT⟩
  | some none | none => start.exact

/-! ## The snapshot of a moving player -/

/-- With the position of the transform, and the packet time of the state. -/
noncomputable def snapshotLocalPos (navigator : Option MapNavigator) (packetNow : Nat) (transformPos : LocalPos)
    (motion : Option (PlayerMotionState Rat)) : ExactPos :=
  match motion with
  | none => transformPos.exact
  | some motion =>
    let sampled := samplePlayerVisualPositionAt motion packetNow
    match navigator with
    | none => sampled.exact
    | some navigator =>
      if canStand navigator.walkability sampled = false then
        let clipped := clipSegment navigator.walkability motion.segmentStartPos sampled
        if canStandExact navigator.walkability clipped = true then clipped else sampled.exact
      else sampled.exact

/-! ## What is claimed of it -/

/-- The point at time `t`. -/
noncomputable def exactPointOn (start goal : LocalPos) (t : ℝ) : ExactPos :=
  ⟨pointAt (start.x : ℝ) goal.x t, pointAt (start.y : ℝ) goal.y t⟩

/-- The clipped point is on the segment, it is the goal exactly if the segment is clear or has no length, and it can be
stood on if the start can; and where a player who started there is sampled at the goal, so can the snapshot. -/
structure ClipsWell (w : WalkabilityView) (start goal : LocalPos) : Prop where
  onSegment : ∃ t, 0 ≤ t ∧ t ≤ 1 ∧ clipSegment w start goal = exactPointOn start goal t
  atGoal : clipSegment w start goal = goal.exact ↔ SegmentClear w start goal ∨ start = goal
  stands : canStand w start = true → canStandExact w (clipSegment w start goal) = true
  snapshot : ∀ (navigator : MapNavigator) (packetNow : Nat) (transformPos : LocalPos) (motion : PlayerMotionState Rat),
    navigator.walkability = w → motion.segmentStartPos = start → samplePlayerVisualPositionAt motion packetNow = goal →
    canStand w start = true →
      canStandExact w (snapshotLocalPos (some navigator) packetNow transformPos (some motion)) = true

/-- How long before a time the back-off is. -/
noncomputable def backoff (start goal : LocalPos) : ℝ := clipBackoffEpsilonM / segmentLen start goal

/-- The times at which the straight line through both points goes into a cell that cannot be walked on, the cells over
the vertical lines at corners included. -/
def stopTimes (w : WalkabilityView) (start goal : LocalPos) : Set ℝ :=
  {t | ∃ (q : Rat) (p : Nat × Nat), t = q ∧ (w.terrain.ray start goal).xs.Ordered (w.terrain.ray start goal).ys p ∧
    nextTime (w.terrain.ray start goal) p = q ∧ ∃ cell ∈ enteredAt (w.terrain.ray start goal) p,
      w.isWalkableCell cell = false}

/-- To the upper left, at time `t`, over the corner that is the lower left one of the cell `(i, j)`. -/
structure OverCorner (r : GridRay ℝ) (i j : Nat) (t : ℝ) : Prop where
  upperLeft : r.goalX < r.startX ∧ r.startY < r.goalY
  later : 0 < t
  onX : pointAt r.startX r.goalX t = i
  onY : pointAt r.startY r.goalY t = j

/-- When the back-off does what it is for: where the goal is a corner that is reached with one coordinate growing and
the other falling, a cell that cannot be walked on is entered less than the back-off later; and where the first such
cell is entered just the back-off after a corner on the way to the upper left, the cell of that corner can be walked
on. -/
structure BacksOff (w : WalkabilityView) (start goal : LocalPos) : Prop where
  stops : (w.terrain.ray start goal).Opposed → (w.terrain.ray start goal).OnCorner 1 →
    ∃ t ∈ stopTimes w start goal, t < 1 + backoff start goal
  corner : ∀ i j t, OverCorner ((w.terrain.ray start goal).ratCast ℝ) i j t →
    IsLeast (stopTimes w start goal) (t + backoff start goal) → w.isWalkableCell ⟨i, j⟩ = true

/-! ## Cells of real points -/

variable {g : TerrainFlagsGrid} {w : WalkabilityView} {start goal : LocalPos} {startCell goalCell : GridCell} {c : ℝ}

namespace TerrainFlagsGrid

theorem axisCellExact_eq_some_iff {coordM : ℝ} {limit cell : Nat} :
    g.axisCellExact coordM limit = some cell ↔ ⌊coordM / (g.cellSizeM : ℝ)⌋ = cell ∧ cell < limit := by
  unfold axisCellExact
  rw [g.inv_eq, Rat.cast_inv]
  exact axis_eq_some_iff (Rat.cast_pos.2 g.cellSize_pos)

theorem cellForExact_eq_some_iff {pos : ExactPos} {cell : GridCell} : g.cellForExact pos = some cell ↔
    (⌊pos.x / (g.cellSizeM : ℝ)⌋ = cell.x ∧ ⌊pos.y / (g.cellSizeM : ℝ)⌋ = cell.y) ∧ cell.x < g.width ∧
    cell.y < g.height := by
  unfold cellForExact
  rw [Option.bind_eq_some_iff]
  constructor
  · rintro ⟨x, hx, hmap⟩
    obtain ⟨y, hy, rfl⟩ := Option.map_eq_some_iff.1 hmap
    obtain ⟨hx, hxl⟩ := axisCellExact_eq_some_iff.1 hx
    obtain ⟨hy, hyl⟩ := axisCellExact_eq_some_iff.1 hy
    exact ⟨⟨hx, hy⟩, hxl, hyl⟩
  · rintro ⟨⟨hx, hy⟩, hxl, hyl⟩
    refine ⟨cell.x, axisCellExact_eq_some_iff.2 ⟨hx, hxl⟩, ?_⟩
    rw [axisCellExact_eq_some_iff.2 ⟨hy, hyl⟩]
    rfl

theorem cellForExact_exact (pos : LocalPos) : g.cellForExact pos.exact = g.cellForPoint pos := by
  have hfloor : ∀ q : Rat, ⌊(q : ℝ) / (g.cellSizeM : ℝ)⌋ = ⌊g.inCells q⌋ := by
    intro q
    rw [← Rat.cast_div, Rat.floor_cast]
    rfl
  refine Option.ext fun cell => ?_
  rw [cellForExact_eq_some_iff, cellForPoint_eq_some_iff]
  show (⌊(pos.x : ℝ) / _⌋ = _ ∧ ⌊(pos.y : ℝ) / _⌋ = _) ∧ _ ↔ _
  rw [hfloor, hfloor]

/-- A point on the segment in units of cells. -/
theorem inCells_pointAt (g : TerrainFlagsGrid) (a b : Rat) (c : ℝ) :
    pointAt (a : ℝ) b c / (g.cellSizeM : ℝ) = pointAt (g.inCells a : ℝ) (g.inCells b) c := by
  unfold pointAt inCells
  push_cast
  ring

/-- The cell of a real point of the segment that is in the grid. -/
theorem cellForExact_pointOn {cursor : GridCursor} (hin : cursor.InGrid g)
    (hx : ⌊pointAt ((g.ray start goal).ratCast ℝ).startX ((g.ray start goal).ratCast ℝ).goalX c⌋ = cursor.x)
    (hy : ⌊pointAt ((g.ray start goal).ratCast ℝ).startY ((g.ray start goal).ratCast ℝ).goalY c⌋ = cursor.y) :
    g.cellForExact (exactPointOn start goal c) = some cursor.toCell := by
  obtain ⟨⟨hx0, hx1⟩, hy0, hy1⟩ := hin
  have hw := g.width_lt
  have hh := g.height_lt
  obtain ⟨x, hcx⟩ : ∃ x : Nat, cursor.x = x := ⟨cursor.x.toNat, (Int.toNat_of_nonneg hx0).symm⟩
  obtain ⟨y, hcy⟩ : ∃ y : Nat, cursor.y = y := ⟨cursor.y.toNat, (Int.toNat_of_nonneg hy0).symm⟩
  unfold GridCursor.toCell
  rw [hcx, hcy, GridCursor.asUsize_natCast (by omega), GridCursor.asUsize_natCast (by omega)]
  have hxw : x < g.width := by omega
  have hyh : y < g.height := by omega
  refine cellForExact_eq_some_iff.2 ⟨⟨?_, ?_⟩, hxw, hyh⟩
  · show ⌊pointAt (start.x : ℝ) goal.x c / (g.cellSizeM : ℝ)⌋ = x
    rw [inCells_pointAt]
    exact hx.trans hcx
  · show ⌊pointAt (start.y : ℝ) goal.y c / (g.cellSizeM : ℝ)⌋ = y
    rw [inCells_pointAt]
    exact hy.trans hcy

end TerrainFlagsGrid

theorem canStandExact_exact (pos : LocalPos) : canStandExact w pos.exact = canStand w pos := by
  unfold canStandExact canStand
  rw [TerrainFlagsGrid.cellForExact_exact]

/-- The cursor at a real time, as far as lines have been passed by then. -/
theorem cursorAt_passed_ratCast (r : GridRay Rat) (hc : 0 ≤ c) : cursorAt r ((r.ratCast ℝ).passed c) =
    ⟨⌊pointAt (r.ratCast ℝ).startX (r.ratCast ℝ).goalX c⌋, ⌊pointAt (r.ratCast ℝ).startY (r.ratCast ℝ).goalY c⌋⟩ := by
  rw [floor_pointAt hc, floor_pointAt hc]
  unfold cursorAt GridRay.passed GridRay.ratCast
  rw [direction_ratCast, direction_ratCast, Rat.floor_cast, Rat.floor_cast]

/-! ## Until the walk stops -/

section Stops

variable {k : Nat} {τ : Rat} {p : Nat × Nat}

/-- Two lines that are due together are so in the rationals as well, and at a rational time. -/
theorem ratCast_times {r : GridRay Rat} (hx : (r.ratCast ℝ).xs.time p.1 = c) (hy : (r.ratCast ℝ).ys.time p.2 = c) :
    ∃ q : Rat, (q : ℝ) = c ∧ r.xs.time p.1 = q ∧ r.ys.time p.2 = q := by
  rw [GridRay.xs_ratCast] at hx
  rw [GridRay.ys_ratCast] at hy
  obtain ⟨q, hq, hqc⟩ := WithTop.map_eq_some_iff.1 hx
  obtain ⟨q', hq', hqc'⟩ := WithTop.map_eq_some_iff.1 hy
  have hsame : q' = q := Rat.cast_injective (hqc'.trans hqc.symm)
  exact ⟨q, hqc, hq, hsame ▸ hq'⟩

/-- A position in order is reached by the walk, and before it stops if the next line from there is due earlier. -/
theorem StopsAt.reached_before (h : StopsAt w start goal k τ)
    (hord : (w.terrain.ray start goal).xs.Ordered (w.terrain.ray start goal).ys p)
    (hlt : nextTime (w.terrain.ray start goal) p < τ) : ∃ m < k, walkAt (w.terrain.ray start goal) m = p := by
  obtain ⟨m, -, hm, -⟩ := hord.reached
  refine ⟨m, not_le.1 fun hkm => ?_, hm⟩
  have hle := nextTime_mono (w.terrain.ray start goal) hkm
  dsimp only at hle
  rw [show walkAt (w.terrain.ray start goal) m = p from hm, ← h.time] at hle
  exact hle.not_gt hlt

/-- A position whose lines have all been passed before the walk stops is one that it comes to. -/
theorem StopsAt.reached_passed (h : StopsAt w start goal k τ) (hc : 0 ≤ c) (hlt : c < τ)
    (hord : (w.terrain.ray start goal).xs.Ordered (w.terrain.ray start goal).ys
      (((w.terrain.ray start goal).ratCast ℝ).passed c)) :
    ∃ m ≤ k, walkAt (w.terrain.ray start goal) m = ((w.terrain.ray start goal).ratCast ℝ).passed c := by
  obtain ⟨m, -, hm, -⟩ := hord.reached
  refine ⟨m, not_lt.1 fun hkm => ?_, hm⟩
  -- the line that the walk stops at would have been passed
  have hle : walkAt (w.terrain.ray start goal) (k + 1) ≤ ((w.terrain.ray start goal).ratCast ℝ).passed c := by
    rw [← show walkAt (w.terrain.ray start goal) m = _ from hm]
    exact Series.strictMono_position.monotone hkm
  rw [walkAt_succ] at hle
  refine hlt.not_ge (WithTop.coe_le_coe.1 ?_)
  have htime := h.time
  unfold nextTime at htime
  rcases le_total ((w.terrain.ray start goal).xs.time (walkAt (w.terrain.ray start goal) k).1)
    ((w.terrain.ray start goal).ys.time (walkAt (w.terrain.ray start goal) k).2) with hxy | hyx
  · rw [min_eq_left hxy] at htime
    have hpassed := lineTime_le_of_lt hc ((Series.lt_advance_fst hxy).trans_le hle.1)
    rwa [← lines_time, ← GridRay.xs, GridRay.xs_ratCast, ← htime, WithTop.map_coe] at hpassed
  · rw [min_eq_right hyx] at htime
    have hpassed := lineTime_le_of_lt hc ((Series.lt_advance_snd hyx).trans_le hle.2)
    rwa [← lines_time, ← GridRay.ys, GridRay.ys_ratCast, ← htime, WithTop.map_coe] at hpassed

/-- Before the walk stops it is in the grid. -/
theorem StopsAt.inGrid (h : StopsAt w start goal k τ) (hs : w.terrain.cellForPoint start = some startCell) {m : Nat}
    (hm : m ≤ k) : (cursorAt (w.terrain.ray start goal) (walkAt (w.terrain.ray start goal) m)).InGrid w.terrain :=
  inGrid_walkAt goal hs (fun _ => containsCell_of_isWalkableCell) m fun j hj => h.before j (hj.trans_le hm)

/-- Where the lines that have been passed are in order, the walk was allowed into the cell. -/
theorem StopsAt.stands_of_ordered (h : StopsAt w start goal k τ) (hs : w.terrain.cellForPoint start = some startCell)
    (hwalk : w.isWalkableCell startCell = true) (hc : 0 ≤ c) (hlt : c < τ)
    (hord : (w.terrain.ray start goal).xs.Ordered (w.terrain.ray start goal).ys
      (((w.terrain.ray start goal).ratCast ℝ).passed c)) : canStandExact w (exactPointOn start goal c) = true := by
  obtain ⟨m, hm, hpos⟩ := h.reached_passed hc hlt hord
  have hin := h.inGrid hs hm
  have hallowed := Walked.allowed ((congrArg w.isWalkableCell (cellAt_first hs)).trans hwalk) h.before hm
  have hcursor := cursorAt_passed_ratCast (w.terrain.ray start goal) hc
  rw [hpos] at hin hallowed
  unfold canStandExact
  rw [TerrainFlagsGrid.cellForExact_pointOn hin (congrArg GridCursor.x hcursor).symm
    (congrArg GridCursor.y hcursor).symm]
  exact hallowed

/-- Two lines that are due together before the walk stops: it goes over their corner. -/
theorem StopsAt.over_corner (h : StopsAt w start goal k τ) (hs : w.terrain.cellForPoint start = some startCell)
    (hlt : c < τ) (hx : ((w.terrain.ray start goal).ratCast ℝ).xs.time p.1 = c)
    (hy : ((w.terrain.ray start goal).ratCast ℝ).ys.time p.2 = c) :
    (cursorAt (w.terrain.ray start goal) p).InGrid w.terrain ∧
      w.isWalkableCell (cellAt (w.terrain.ray start goal) (p.1 + 1, p.2)) = true := by
  obtain ⟨q, hq, hxq, hyq⟩ := ratCast_times hx hy
  have heq := hxq.trans hyq.symm
  have hord := Series.ordered_of_eq heq (by rw [hxq]; exact WithTop.coe_ne_top)
  have hnext : nextTime (w.terrain.ray start goal) p < (τ : Time) := by
    unfold nextTime
    rw [hxq, hyq, min_self, WithTop.coe_lt_coe]
    exact Rat.cast_lt.1 (hq.trans_lt hlt)
  obtain ⟨m, hm, hpos⟩ := h.reached_before hord hnext
  have hin := h.inGrid hs hm.le
  have hbefore := h.before m hm
  rw [hpos] at hin hbefore
  refine ⟨hin, hbefore _ ?_⟩
  unfold enteredAt
  rw [if_pos heq]
  exact List.mem_cons_self

/-- Over a corner to the lower right: the cell of the corner is the one that the walk asks for. -/
theorem StopsAt.stands_of_lowerRight (h : StopsAt w start goal k τ) (hs : w.terrain.cellForPoint start = some startCell)
    (hc : 0 < c) (hlt : c < τ)
    (hx : ((w.terrain.ray start goal).ratCast ℝ).startX < ((w.terrain.ray start goal).ratCast ℝ).goalX)
    (hy : ((w.terrain.ray start goal).ratCast ℝ).goalY < ((w.terrain.ray start goal).ratCast ℝ).startY)
    (hon : ((w.terrain.ray start goal).ratCast ℝ).OnCorner c) : canStandExact w (exactPointOn start goal c) = true := by
  obtain ⟨i, j, hi, hj⟩ := hon
  obtain ⟨m, rfl⟩ := exists_lineAt hi (.inl ⟨hx, hc⟩)
  obtain ⟨n, rfl⟩ := exists_lineAt hj (.inr ⟨hy, hc.le⟩)
  obtain ⟨hin, hside⟩ := h.over_corner (p := (m, n)) hs hlt ((lineTime_eq_coe_iff hx.ne).2 hi)
    ((lineTime_eq_coe_iff hy.ne').2 hj)
  have hxr : (w.terrain.ray start goal).startX < (w.terrain.ray start goal).goalX := Rat.cast_lt.1 hx
  have hyr : (w.terrain.ray start goal).goalY < (w.terrain.ray start goal).startY := Rat.cast_lt.1 hy
  have hcursor := cursorAt_succ_left (w.terrain.ray start goal) (m, n)
  rw [direction_of_lt hxr] at hcursor
  have hsideIn : (cursorAt (w.terrain.ray start goal) (m + 1, n)).InGrid w.terrain := by
    refine hin.near ?_ ?_ (containsCell_of_isWalkableCell hside)
    · rw [hcursor]
      exact ⟨by dsimp only; omega, le_rfl⟩
    · rw [hcursor]
      exact ⟨by dsimp only; omega, by dsimp only; omega⟩
  unfold canStandExact
  rw [TerrainFlagsGrid.cellForExact_pointOn hsideIn]
  · exact hside
  · rw [hi, Int.floor_intCast, lineAt, if_pos hx, cursorAt, direction_of_lt hxr]
    unfold GridRay.ratCast
    rw [Rat.floor_cast]
    push_cast
    ring
  · rw [hj, Int.floor_intCast, lineAt, if_neg hy.asymm, cursorAt, direction_of_gt hyr]
    unfold GridRay.ratCast
    rw [Rat.floor_cast]
    ring

/-- At a corner a point is in the cell whose lower left one it is. -/
theorem OverCorner.canStandExact_eq {i j : Nat} (h : OverCorner ((w.terrain.ray start goal).ratCast ℝ) i j c) :
    canStandExact w (exactPointOn start goal c) = w.isWalkableCell ⟨i, j⟩ := by
  have hx : (exactPointOn start goal c).x / (w.terrain.cellSizeM : ℝ) = i :=
    (w.terrain.inCells_pointAt start.x goal.x c).trans h.onX
  have hy : (exactPointOn start goal c).y / (w.terrain.cellSizeM : ℝ) = j :=
    (w.terrain.inCells_pointAt start.y goal.y c).trans h.onY
  have hcell : ∀ cell, w.terrain.cellForExact (exactPointOn start goal c) = some cell ↔
      cell = ⟨i, j⟩ ∧ w.terrain.containsCell cell = true := by
    rintro ⟨x, y⟩
    rw [TerrainFlagsGrid.cellForExact_eq_some_iff, hx, hy, Int.floor_natCast, Int.floor_natCast,
      TerrainFlagsGrid.containsCell_iff, GridCell.mk.injEq, Nat.cast_inj, Nat.cast_inj, eq_comm (a := i),
      eq_comm (a := j)]
  unfold canStandExact
  rw [Bool.eq_iff_iff, Option.any_eq_true]
  constructor
  · rintro ⟨cell, hsome, hwalk⟩
    rwa [((hcell cell).1 hsome).1] at hwalk
  · exact fun hwalk => ⟨⟨i, j⟩, (hcell _).2 ⟨rfl, containsCell_of_isWalkableCell hwalk⟩, hwalk⟩

/-- Before the walk stops every point can be stood on, but for corners on the way to the upper left: the cell that such
a corner is in is not asked for. -/
theorem StopsAt.stands (h : StopsAt w start goal k τ) (hs : w.terrain.cellForPoint start = some startCell)
    (hwalk : w.isWalkableCell startCell = true) (hc : 0 < c) (hlt : c < τ)
    (hcorner : ∀ i j, OverCorner ((w.terrain.ray start goal).ratCast ℝ) i j c → w.isWalkableCell ⟨i, j⟩ = true) :
    canStandExact w (exactPointOn start goal c) = true := by
  by_cases hopen : ((w.terrain.ray start goal).ratCast ℝ).Opposed ∧ 0 < c ∧
    ((w.terrain.ray start goal).ratCast ℝ).OnCorner c
  · obtain ⟨⟨hx, hy⟩ | ⟨hx, hy⟩, -, hon⟩ := hopen
    · exact h.stands_of_lowerRight hs hc hlt hx hy hon
    · obtain ⟨i, j, hi, hj⟩ := hon
      obtain ⟨m, hm⟩ := exists_lineAt hi (.inr ⟨hx, hc.le⟩)
      obtain ⟨n, hn⟩ := exists_lineAt hj (.inl ⟨hy, hc⟩)
      obtain ⟨⟨⟨hx0, -⟩, hy0, -⟩, -⟩ := h.over_corner (p := (m, n)) hs hlt ((lineTime_eq_coe_iff hx.ne').2 (hm ▸ hi))
        ((lineTime_eq_coe_iff hy.ne).2 (hn ▸ hj))
      -- the corner is the lower left one of a cell with natural coordinates
      have hxi : ⌊((w.terrain.ray start goal).ratCast ℝ).startX⌋ = ⌊(w.terrain.ray start goal).startX⌋ :=
        Rat.floor_cast _
      have hyj : ⌊((w.terrain.ray start goal).ratCast ℝ).startY⌋ = ⌊(w.terrain.ray start goal).startY⌋ :=
        Rat.floor_cast _
      rw [cursorAt, direction_of_gt (Rat.cast_lt.1 hx)] at hx0
      rw [cursorAt, direction_of_lt (Rat.cast_lt.1 hy)] at hy0
      rw [lineAt, if_neg hx.asymm, hxi] at hm
      rw [lineAt, if_pos hy, hyj] at hn
      dsimp only at hx0 hy0
      obtain ⟨i, rfl⟩ := Int.eq_ofNat_of_zero_le (show 0 ≤ i by omega)
      obtain ⟨j, rfl⟩ := Int.eq_ofNat_of_zero_le (show 0 ≤ j by omega)
      have hover : OverCorner ((w.terrain.ray start goal).ratCast ℝ) i j c :=
        ⟨⟨hx, hy⟩, hc, by exact_mod_cast hi, by exact_mod_cast hj⟩
      rw [hover.canStandExact_eq]
      exact hcorner i j hover
  · exact h.stands_of_ordered hs hwalk hc.le hlt (GridRay.ordered_ratCast.1 (GridRay.ordered_passed hc.le hopen))

/-- Where the walk stops is the first of the stop times. -/
theorem StopsAt.isLeast (h : StopsAt w start goal k τ)
    (hmove : (w.terrain.ray start goal).startX ≠ (w.terrain.ray start goal).goalX ∨
      (w.terrain.ray start goal).startY ≠ (w.terrain.ray start goal).goalY) : IsLeast (stopTimes w start goal) τ := by
  have hord : (w.terrain.ray start goal).xs.Ordered (w.terrain.ray start goal).ys
      (walkAt (w.terrain.ray start goal) k) :=
    Series.ordered_position (hmove.imp (fun hx _ h => hx (lineTime_eq_top_iff.1 h)) fun hy _ h =>
      hy (lineTime_eq_top_iff.1 h)) k
  refine ⟨⟨τ, _, rfl, hord, h.time.symm, h.blocked⟩, ?_⟩
  rintro _ ⟨q, p, rfl, hp, hq, cell, hcell, hbad⟩
  by_contra hlt
  obtain ⟨m, hm, rfl⟩ := h.reached_before hp (by
    rw [hq, WithTop.coe_lt_coe]
    exact Rat.cast_lt.1 (not_le.1 hlt))
  rw [h.before m hm cell hcell] at hbad
  cases hbad

end Stops

/-! ## The clipped point -/

theorem exactPointOn_zero (start goal : LocalPos) : exactPointOn start goal 0 = start.exact :=
  Space.LocalPos.ext (pointAt_zero _ _) (pointAt_zero _ _)

theorem exactPointOn_one (start goal : LocalPos) : exactPointOn start goal 1 = goal.exact :=
  Space.LocalPos.ext (pointAt_one _ _) (pointAt_one _ _)

/-- On a segment that has a length the points are different. -/
theorem exactPointOn_injective (h : start ≠ goal) {s t : ℝ}
    (heq : exactPointOn start goal s = exactPointOn start goal t) :
    s = t := by
  have axis : ∀ {a b : Rat}, a ≠ b → pointAt (a : ℝ) b s = pointAt (a : ℝ) b t → s = t := by
    intro a b hne heq
    have hd : (b : ℝ) - a ≠ 0 := sub_ne_zero.2 fun h => hne (Rat.cast_injective h).symm
    exact mul_right_cancel₀ hd (add_left_cancel heq)
  rcases not_and_or.1 ((not_congr Space.LocalPos.ext_iff).1 h) with hx | hy
  · exact axis hx (congrArg Space.LocalPos.x heq)
  · exact axis hy (congrArg Space.LocalPos.y heq)

theorem ray_moves (g : TerrainFlagsGrid) (h : start ≠ goal) :
    (g.ray start goal).startX ≠ (g.ray start goal).goalX ∨ (g.ray start goal).startY ≠ (g.ray start goal).goalY := by
  have hinj : ∀ {a b : Rat}, a ≠ b → g.inCells a ≠ g.inCells b := fun {a b} hne heq =>
    hne ((div_left_inj' g.cellSize_pos.ne').1 heq)
  exact (not_and_or.1 ((not_congr Space.LocalPos.ext_iff).1 h)).imp (fun h => hinj h) fun h => hinj h

theorem StopsAt.exists_coe {k : Nat} {t : Time} (h : StopsAt w start goal k t) (hne : start ≠ goal) :
    ∃ τ : Rat, t = τ ∧ 0 ≤ τ := by
  have hfin : t ≠ ⊤ := by
    rw [h.time]
    unfold nextTime
    rw [Ne, min_eq_top, not_and_or]
    exact (ray_moves w.terrain hne).imp (fun hx h => hx (lineTime_eq_top_iff.1 h)) fun hy h =>
      hy (lineTime_eq_top_iff.1 h)
  obtain ⟨τ, rfl⟩ := WithTop.ne_top_iff_exists.1 hfin
  refine ⟨τ, rfl, WithTop.coe_le_coe.1 ?_⟩
  rw [h.time]
  exact le_min (lineTime_nonneg _ _ _) (lineTime_nonneg _ _ _)

theorem canStand_eq_true_iff {pos : LocalPos} :
    canStand w pos = true ↔ ∃ cell, w.terrain.cellForPoint pos = some cell ∧ w.isWalkableCell cell = true := by
  unfold canStand
  rw [Option.any_eq_true]

theorem f32Epsilon_pos : (0 : ℝ) < f32Epsilon := Rat.cast_pos.2 (by decide +kernel)

theorem backoff_pos (h : f32Epsilon < segmentLen start goal) : 0 < backoff start goal :=
  div_pos (Rat.cast_pos.2 (by decide +kernel)) (f32Epsilon_pos.trans h)

/-- How clipping ends: at the goal, at the start, or the back-off before the time at which the walk stops. -/
inductive Clipped (w : WalkabilityView) (start goal : LocalPos) : ExactPos → Prop
  | goal (hclear : SegmentClear w start goal) : Clipped w start goal goal.exact
  | start (hclear : ¬ SegmentClear w start goal)
    (hwhy : canStand w start = false ∨ w.terrain.cellForPoint goal = none ∨ segmentLen start goal ≤ f32Epsilon) :
    Clipped w start goal start.exact
  | between (startCell goalCell : GridCell) (k : Nat) (τ : Rat) (hclear : ¬ SegmentClear w start goal)
    (hs : w.terrain.cellForPoint start = some startCell) (hg : w.terrain.cellForPoint goal = some goalCell)
    (hwalk : w.isWalkableCell startCell = true) (hlen : f32Epsilon < segmentLen start goal)
    (hstops : StopsAt w start goal k τ) :
    Clipped w start goal (exactPointOn start goal (max (τ - backoff start goal) 0))

/-- Blocked at a time after the start, on a segment that is long enough. -/
theorem clipSegment_of_blocked {cell : GridCell} {τ : Rat}
    (hwalk : walkSegment w.terrain start goal w.isWalkableCell (walkFuel w.terrain) = some (some (.blocked cell τ)))
    (hlen : f32Epsilon < segmentLen start goal) (hτ : 0 < τ) :
    clipSegment w start goal = exactPointOn start goal (max (τ - backoff start goal) 0) := by
  have hmax : max ((τ : ℝ) - min (clipBackoffEpsilonM / segmentLen start goal) τ) 0 =
      max (τ - backoff start goal) 0 := by
    unfold backoff
    rcases le_total ((clipBackoffEpsilonM : ℝ) / segmentLen start goal) τ with h | h
    · rw [min_eq_left h]
    · rw [min_eq_right h, sub_self, max_self, max_eq_right (sub_nonpos.2 h)]
  have hlater : ¬ (τ : Time) ≤ 0 := fun h => hτ.not_ge (WithTop.coe_le_coe.1 h)
  unfold clipSegment
  rw [hwalk]
  dsimp only
  rw [if_neg (not_or.2 ⟨hlen.not_ge, hlater⟩), WithTop.untopD_coe, hmax]
  exact Space.LocalPos.ext (congrArg ((start.x : ℝ) + ·) (mul_comm _ _)) (congrArg ((start.y : ℝ) + ·) (mul_comm _ _))

theorem clipSegment_cases (w : WalkabilityView) (start goal : LocalPos) :
    Clipped w start goal (clipSegment w start goal) := by
  have hclear := (@segmentClear_iff w start goal).symm
  unfold segmentClear at hclear
  rw [decide_eq_true_iff] at hclear
  rcases walkSegment_cases w start goal with
    ⟨hwalk, hout⟩ | ⟨startCell, goalCell, hs, hg, ⟨hblocked, hwalk⟩ | ⟨hstart, hwalk | ⟨cell, k, t, hwalk, hstops⟩⟩⟩
  · rw [clipSegment, hwalk]
    refine .start ?_ ?_
    · rw [hclear, hwalk]
      exact nofun
    · rcases hout with hs | hg
      · refine .inl ?_
        unfold canStand
        rw [hs]
        rfl
      · exact .inr (.inl hg)
  · have hnot : ¬ SegmentClear w start goal := by
      rw [hclear, hwalk]
      exact nofun
    rw [clipSegment, hwalk]
    dsimp only
    rw [if_pos (.inr le_rfl)]
    refine .start hnot (.inl ?_)
    unfold canStand
    rw [hs, Option.any_some]
    exact hblocked
  · rw [clipSegment, hwalk]
    exact .goal (hclear.2 hwalk)
  · have hnot : ¬ SegmentClear w start goal := by
      rw [hclear, hwalk]
      exact nofun
    have hne : start ≠ goal := by
      rintro rfl
      exact hnot (segmentClear_of_same hs hs hstart)
    obtain ⟨τ, rfl, hτ⟩ := hstops.exists_coe hne
    by_cases hlen : segmentLen start goal ≤ f32Epsilon
    · rw [clipSegment, hwalk]
      dsimp only
      rw [if_pos (.inl hlen)]
      exact .start hnot (.inr (.inr hlen))
    · have hback := backoff_pos (not_le.1 hlen)
      have hresult := Clipped.between startCell goalCell k τ hnot hs hg hstart (not_le.1 hlen) hstops
      rcases hτ.eq_or_lt with rfl | hpos
      · -- blocked at once, where backing off leads to the start as well
        rw [Rat.cast_zero, zero_sub, max_eq_right (neg_nonpos.2 hback.le), exactPointOn_zero] at hresult
        rw [clipSegment, hwalk]
        dsimp only
        rw [if_pos (.inr le_rfl)]
        exact hresult
      · rw [clipSegment_of_blocked hwalk (not_le.1 hlen) hpos]
        exact hresult

/-- A snapshot stands where the clipped point does. -/
theorem snapshot_stands (h : canStand w start = true → canStandExact w (clipSegment w start goal) = true)
    (navigator : MapNavigator) (packetNow : Nat) (transformPos : LocalPos) (motion : PlayerMotionState Rat)
    (hw : navigator.walkability = w) (hstart : motion.segmentStartPos = start)
    (hgoal : samplePlayerVisualPositionAt motion packetNow = goal) (hstand : canStand w start = true) :
    canStandExact w (snapshotLocalPos (some navigator) packetNow transformPos (some motion)) = true := by
  unfold snapshotLocalPos
  dsimp only
  rw [hgoal, hw, hstart]
  by_cases hsampled : canStand w goal = true
  · rw [hsampled, if_neg (by decide), canStandExact_exact]
    exact hsampled
  · rw [if_pos (Bool.not_eq_true _ ▸ hsampled), if_pos (h hstand)]
    exact h hstand

theorem clipsWell_of (honSegment : ∃ t, 0 ≤ t ∧ t ≤ 1 ∧ clipSegment w start goal = exactPointOn start goal t)
    (hgoal : clipSegment w start goal = goal.exact ↔ SegmentClear w start goal ∨ start = goal)
    (hstands : canStand w start = true → canStandExact w (clipSegment w start goal) = true) : ClipsWell w start goal :=
  ⟨honSegment, hgoal, hstands, snapshot_stands hstands⟩

/-- A walk that stops does so by the time of the goal, unless that is a corner that is reached with opposed
coordinates. -/
theorem StopsAt.le_one {k : Nat} {τ : Rat} (h : StopsAt w start goal k τ) (hclear : ¬ SegmentClear w start goal)
    (hs : w.terrain.cellForPoint start = some startCell) (hg : w.terrain.cellForPoint goal = some goalCell)
    (hwalk : w.isWalkableCell startCell = true)
    (hgood : ¬ ((w.terrain.ray start goal).Opposed ∧ (w.terrain.ray start goal).OnCorner 1)) : τ ≤ 1 := by
  obtain ⟨n, hn⟩ := walked_of_good hgood
  have hkn : k < n := by
    by_contra hnk
    refine hclear
      ⟨n, (walkSegment_complete_iff hs hg).2 ⟨?_, n, le_rfl, hn, fun j hj => h.before j (hj.trans_le (not_lt.1 hnk))⟩⟩
    rw [cellAt_first hs]
    exact hwalk
  have hle := hn.nextTime_le hkn
  rw [← h.time] at hle
  exact WithTop.coe_le_coe.1 hle

section Between

variable {k : Nat} {τ : Rat}

/-- Between the start and the stop: before the goal, and where a point can be stood on. -/
theorem clipsWell_between (hclear : ¬ SegmentClear w start goal) (hs : w.terrain.cellForPoint start = some startCell)
    (hg : w.terrain.cellForPoint goal = some goalCell) (hwalk : w.isWalkableCell startCell = true)
    (hlen : f32Epsilon < segmentLen start goal) (hstops : StopsAt w start goal k τ)
    (hclip : clipSegment w start goal = exactPointOn start goal (max (τ - backoff start goal) 0))
    (h : BacksOff w start goal) : ClipsWell w start goal := by
  have hne : start ≠ goal := by
    rintro rfl
    exact hclear (segmentClear_of_same hs hs hwalk)
  have hleast := hstops.isLeast (ray_moves w.terrain hne)
  have hback := backoff_pos hlen
  -- the walk stops in time, also where it goes past the goal
  have hlt : (τ : ℝ) - backoff start goal < 1 := by
    by_cases hbad : (w.terrain.ray start goal).Opposed ∧ (w.terrain.ray start goal).OnCorner 1
    · obtain ⟨t, ht, hlt⟩ := h.stops hbad.1 hbad.2
      have := hleast.2 ht
      linarith
    · have hle : (τ : ℝ) ≤ 1 := by exact_mod_cast hstops.le_one hclear hs hg hwalk hbad
      linarith
  have hlt1 : max ((τ : ℝ) - backoff start goal) 0 < 1 := max_lt hlt zero_lt_one
  refine clipsWell_of ⟨_, le_max_right _ _, hlt1.le, hclip⟩ (iff_of_false ?_ (not_or.2 ⟨hclear, hne⟩)) fun hstand => ?_
  · rw [hclip, ← exactPointOn_one start goal]
    exact fun heq => hlt1.ne (exactPointOn_injective hne heq)
  · rw [hclip]
    rcases le_or_gt ((τ : ℝ) - backoff start goal) 0 with hle | hpos
    · rw [max_eq_right hle, exactPointOn_zero, canStandExact_exact]
      exact hstand
    · rw [max_eq_left hpos.le]
      refine hstops.stands hs hwalk hpos (sub_lt_self _ hback) fun i j hover => h.corner i j _ hover ?_
      rw [sub_add_cancel]
      exact hleast

theorem backsOff_of_clipsWell (hclear : ¬ SegmentClear w start goal)
    (hs : w.terrain.cellForPoint start = some startCell) (hwalk : w.isWalkableCell startCell = true)
    (hlen : f32Epsilon < segmentLen start goal) (hstops : StopsAt w start goal k τ)
    (hclip : clipSegment w start goal = exactPointOn start goal (max (τ - backoff start goal) 0))
    (h : ClipsWell w start goal) : BacksOff w start goal := by
  have hne : start ≠ goal := by
    rintro rfl
    exact hclear (segmentClear_of_same hs hs hwalk)
  have hleast := hstops.isLeast (ray_moves w.terrain hne)
  constructor
  · intro _ _
    obtain ⟨t, -, ht1, ht⟩ := h.onSegment
    have hgoal := (not_congr h.atGoal).2 (not_or.2 ⟨hclear, hne⟩)
    rw [hclip] at ht hgoal
    rw [← exactPointOn_injective hne ht] at ht1
    refine ⟨τ, hleast.1, ?_⟩
    have hlt := lt_of_le_of_ne ht1 fun heq => hgoal (by rw [heq, exactPointOn_one])
    linarith [le_max_left ((τ : ℝ) - backoff start goal) 0]
  · intro i j t hover hleast'
    have heq : (τ : ℝ) = t + backoff start goal := hleast.unique hleast'
    have hstand := h.stands (canStand_eq_true_iff.2 ⟨startCell, hs, hwalk⟩)
    rwa [hclip, heq, add_sub_cancel_right, max_eq_left hover.later.le, hover.canStandExact_eq] at hstand

end Between

/-- Clipping keeps its promises exactly if, on a segment that is blocked, the back-off does what it is for. -/
theorem clip_segment_iff (w : WalkabilityView) (start goal : LocalPos) : ClipsWell w start goal ↔
    (canStand w start = true → w.terrain.cellForPoint goal ≠ none → f32Epsilon < segmentLen start goal →
      ¬ SegmentClear w start goal → BacksOff w start goal) := by
  have hcases := clipSegment_cases w start goal
  generalize hclip : clipSegment w start goal = pos at hcases
  cases hcases with
  | goal hclear =>
    refine iff_of_true ?_ fun _ _ _ hnot => absurd hclear hnot
    obtain ⟨hstop, hstands, -⟩ := hclear.looksClear
    have hgoal := hstands 1 zero_le_one le_rfl fun hopen => hstop ⟨hopen.1, hopen.2.2⟩
    rw [show pointOn start goal 1 = goal from Space.LocalPos.ext_iff.2 ⟨pointAt_one _ _, pointAt_one _ _⟩] at hgoal
    refine clipsWell_of ⟨1, zero_le_one, le_rfl, hclip.trans (exactPointOn_one start goal).symm⟩
      (iff_of_true hclip (.inl hclear)) fun _ => ?_
    rw [hclip, canStandExact_exact]
    exact hgoal
  | start hclear hwhy =>
    refine iff_of_true ?_ fun hstand hgoal hlen _ => ?_
    · refine clipsWell_of ⟨0, le_rfl, zero_le_one, hclip.trans (exactPointOn_zero start goal).symm⟩ ?_ fun hstand => ?_
      · rw [hclip]
        exact ⟨fun heq => .inr (Space.LocalPos.exact_injective heq),
          fun h => congrArg Space.LocalPos.exact (h.resolve_left hclear)⟩
      · rw [hclip, canStandExact_exact]
        exact hstand
    · rcases hwhy with h | h | h
      · rw [h] at hstand
        cases hstand
      · exact absurd h hgoal
      · exact absurd hlen h.not_gt
  | between startCell goalCell k τ hclear hs hg hwalk hlen hstops =>
    constructor
    · exact fun h _ _ _ _ => backsOff_of_clipsWell hclear hs hwalk hlen hstops hclip h
    · refine fun h => clipsWell_between hclear hs hg hwalk hlen hstops hclip (h ?_ ?_ hlen hclear)
      · exact canStand_eq_true_iff.2 ⟨startCell, hs, hwalk⟩
      · rw [hg]
        exact Option.some_ne_none _

theorem threeRows_pos : 0 < 3 := by decide

/-- Two by three cells of 0.8 millimetres, with the middle one on the right and the upper one on the left blocked. -/
def thinCells : WalkabilityView :=
  ⟨⟨1 / 1250, 1250, 2, 3, [.empty, .empty, .empty, .BLOCK, .BLOCK, .empty], by decide +kernel,
    by decide +kernel, Nat.two_pos,
    threeRows_pos, rfl, show 6 < sliceLimit by decide⟩⟩

/-- A player on the way to the upper left, over the corner of the blocked cell on the right and into the other one. -/
def thinMotion : PlayerMotionState Rat := ⟨⟨11 / 10000, 1 / 2500⟩, ⟨1 / 20000, 9 / 5000⟩, 0, 0, 0⟩

theorem segmentLen_thin : segmentLen thinMotion.segmentStartPos thinMotion.segmentEndPos = 7 / 4000 := by
  unfold segmentLen thinMotion
  rw [Real.sqrt_eq_iff_mul_self_eq (by positivity) (by norm_num)]
  norm_num

theorem clipSegment_thin : clipSegment thinCells thinMotion.segmentStartPos thinMotion.segmentEndPos =
    exactPointOn thinMotion.segmentStartPos thinMotion.segmentEndPos (2 / 7) := by
  have hwalk : walkSegment thinCells.terrain thinMotion.segmentStartPos thinMotion.segmentEndPos
    thinCells.isWalkableCell
      (walkFuel thinCells.terrain) = some (some (.blocked ⟨0, 2⟩ (6 / 7 : Rat))) := by decide +kernel
  rw [clipSegment_of_blocked hwalk _ (by decide +kernel), backoff, segmentLen_thin]
  · unfold clipBackoffEpsilonM
    norm_num
  · rw [segmentLen_thin]
    unfold f32Epsilon
    norm_num

/-- The clipped point is the corner, in the blocked cell. -/
theorem canStandExact_thin : canStandExact thinCells
    (exactPointOn thinMotion.segmentStartPos thinMotion.segmentEndPos (2 / 7)) = false := by
  have hx : pointAt (thinCells.terrain.ray thinMotion.segmentStartPos thinMotion.segmentEndPos).startX
    (thinCells.terrain.ray thinMotion.segmentStartPos thinMotion.segmentEndPos).goalX (2 / 7) = 1 := by decide +kernel
  have hy : pointAt (thinCells.terrain.ray thinMotion.segmentStartPos thinMotion.segmentEndPos).startY
    (thinCells.terrain.ray thinMotion.segmentStartPos thinMotion.segmentEndPos).goalY (2 / 7) = 1 := by decide +kernel
  have hover : OverCorner ((thinCells.terrain.ray thinMotion.segmentStartPos thinMotion.segmentEndPos).ratCast ℝ) 1
      1 (2 / 7) := by
    rw [show (2 / 7 : ℝ) = ((2 / 7 : Rat) : ℝ) by norm_num]
    refine ⟨⟨Rat.cast_lt.2 (by decide +kernel), Rat.cast_lt.2 (by decide +kernel)⟩, by norm_num,
      (pointAt_ratCast _ _ _).trans ?_, (pointAt_ratCast _ _ _).trans ?_⟩
    · rw [hx, Rat.cast_one, Nat.cast_one]
    · rw [hy, Rat.cast_one, Nat.cast_one]
  rw [hover.canStandExact_eq]
  decide +kernel

/-- Towards a corner in the middle of walkable cells the clipped point is beyond the goal; and in thin cells the
snapshot of a player who started where one can stand is in a blocked cell. -/
theorem clip_segment_overshoots :
    ¬ ClipsWell (fourCells .empty .empty .empty .empty) ⟨3 / 2, 1 / 2⟩ ⟨1, 1⟩ ∧
    canStand thinCells thinMotion.segmentStartPos = true ∧
      ∀ navigator : MapNavigator, navigator.walkability = thinCells →
        canStandExact thinCells (snapshotLocalPos (some navigator) 0 ⟨0, 0⟩ (some thinMotion)) = false := by
  refine ⟨fun h => ?_, by decide +kernel, ?_⟩
  · have hwalk : walkSegment (fourCells .empty .empty .empty .empty).terrain ⟨3 / 2, 1 / 2⟩ ⟨1, 1⟩
        (fourCells .empty .empty .empty .empty).isWalkableCell
          (walkFuel (fourCells .empty .empty .empty .empty).terrain) =
        some (some (.blocked ⟨2 ^ 64 - 1, 1⟩ (3 : Rat))) := by decide +kernel
    have hlen : 1 / 2 ≤ segmentLen ⟨3 / 2, 1 / 2⟩ ⟨1, 1⟩ := by
      unfold segmentLen
      refine Real.le_sqrt_of_sq_le ?_
      norm_num
    have hback : backoff ⟨3 / 2, 1 / 2⟩ ⟨1, 1⟩ ≤ 1 := by
      unfold backoff clipBackoffEpsilonM
      rw [div_le_one (by linarith)]
      norm_num
      linarith
    have heps : (f32Epsilon : ℝ) < 1 / 2 := by
      unfold f32Epsilon
      norm_num
    obtain ⟨t, -, ht1, ht⟩ := h.onSegment
    rw [clipSegment_of_blocked hwalk (heps.trans_le hlen) (by decide +kernel)] at ht
    rw [← exactPointOn_injective (by decide +kernel) ht] at ht1
    have hle := (le_max_left _ _).trans ht1
    norm_num at hle
    linarith
  · intro navigator hw
    have hsampled : samplePlayerVisualPositionAt thinMotion 0 = thinMotion.segmentEndPos := rfl
    have hblocked : canStand thinCells thinMotion.segmentEndPos = false := by decide +kernel
    unfold snapshotLocalPos
    dsimp only
    rw [hsampled, hw, if_pos hblocked, clipSegment_thin, canStandExact_thin, if_neg (by decide), canStandExact_exact]
    exact hblocked

end Zohar.Nav
