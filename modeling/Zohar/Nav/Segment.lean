/-
Walking a straight segment over the terrain grid, cell by cell. From zohar-sim: navigation/grid.rs,
navigation/reachability.rs and navigation/segment.rs, with terrain.rs of zohar-domain. Coordinates and times are exact
rationals in place of `f32`.
-/
import Mathlib.Data.Rat.Floor
import Mathlib.Algebra.Order.Ring.WithTop
import Zohar.Lib.GridAxis
import Zohar.Space

namespace Zohar.Nav

open Zohar.Lib

/-! ## The grid -/

abbrev LocalPos := Space.LocalPos Rat

structure GridCell where
  x : Nat
  y : Nat
  deriving DecidableEq, Repr

structure TerrainFlags where
  bits : UInt8
  deriving DecidableEq, Repr

namespace TerrainFlags

def empty : TerrainFlags := ⟨0⟩
def BLOCK : TerrainFlags := ⟨0x01⟩
def OBJECT : TerrainFlags := ⟨0x80⟩

def blocksMovement (flags : TerrainFlags) : Bool := flags.bits &&& (BLOCK.bits ||| OBJECT.bits) ≠ 0

def isWalkable (flags : TerrainFlags) : Bool := !flags.blocksMovement

end TerrainFlags

/-- `isize::MAX + 1`: a slice is shorter. -/
def sliceLimit : Nat := 2 ^ 63

structure TerrainFlagsGrid where
  cellSizeM : Rat
  invCellSizeM : Rat
  width : Nat
  height : Nat
  flags : List TerrainFlags
  cellSize_pos : 0 < cellSizeM
  inv_eq : invCellSizeM = cellSizeM⁻¹
  width_pos : 0 < width
  height_pos : 0 < height
  length_eq : flags.length = width * height
  length_lt : flags.length < sliceLimit

namespace TerrainFlagsGrid

/-- From row-major flags. -/
def new (cellSizeM : Rat) (width height : Nat) (flags : {l : List TerrainFlags // l.length < sliceLimit}) :
    Option TerrainFlagsGrid :=
  if h : 0 < cellSizeM ∧ 0 < width ∧ 0 < height ∧ flags.1.length = width * height then
    some ⟨cellSizeM, cellSizeM⁻¹, width, height, flags.1, h.1, rfl, h.2.1, h.2.2.1, h.2.2.2, flags.2⟩
  else none

def axisCell (g : TerrainFlagsGrid) (coordM : Rat) (limit : Nat) : Option Nat :=
  if coordM < 0 then none
  else
    let cell := ⌊coordM * g.invCellSizeM⌋
    if cell < 0 then none else if cell.toNat < limit then some cell.toNat else none

def cellForPoint (g : TerrainFlagsGrid) (pos : LocalPos) : Option GridCell :=
  (g.axisCell pos.x g.width).bind fun x => (g.axisCell pos.y g.height).map fun y => ⟨x, y⟩

def containsCell (g : TerrainFlagsGrid) (cell : GridCell) : Bool := cell.x < g.width && cell.y < g.height

def indexOf (g : TerrainFlagsGrid) (cell : GridCell) : Option Nat :=
  if g.containsCell cell then some (cell.y * g.width + cell.x) else none

def flagsAt (g : TerrainFlagsGrid) (cell : GridCell) : Option TerrainFlags := (g.indexOf cell).bind fun i => g.flags[i]?

/-- Coordinates in cells. -/
def inCells (g : TerrainFlagsGrid) (coordM : Rat) : Rat := coordM / g.cellSizeM

variable {g : TerrainFlagsGrid}

theorem width_lt : g.width < sliceLimit := by
  have h := g.length_lt
  rw [g.length_eq] at h
  exact (Nat.le_mul_of_pos_right _ g.height_pos).trans_lt h

theorem height_lt : g.height < sliceLimit := by
  have h := g.length_lt
  rw [g.length_eq] at h
  exact (Nat.le_mul_of_pos_left _ g.width_pos).trans_lt h

/-- The cell of a coordinate, in any field. -/
theorem axis_eq_some_iff {K : Type*} [Field K] [LinearOrder K] [IsStrictOrderedRing K] [FloorRing K]
    {coordM cellSizeM : K} [Decidable (coordM < 0)] (hpos : 0 < cellSizeM) {limit cell : Nat} :
    (if coordM < 0 then none
      else if ⌊coordM * cellSizeM⁻¹⌋ < 0 then none
      else if ⌊coordM * cellSizeM⁻¹⌋.toNat < limit then some ⌊coordM * cellSizeM⁻¹⌋.toNat else none) = some cell ↔
      ⌊coordM / cellSizeM⌋ = cell ∧ cell < limit := by
  rw [← div_eq_mul_inv]
  have hsign : coordM < 0 ↔ ⌊coordM / cellSizeM⌋ < 0 := by
    rw [Int.floor_lt, Int.cast_zero, div_neg_iff]
    constructor
    · exact fun h => .inr ⟨h, hpos⟩
    · rintro (⟨-, h⟩ | ⟨h, -⟩)
      · exact absurd h hpos.asymm
      · exact h
  by_cases hneg : coordM < 0
  · rw [if_pos hneg]
    have := hsign.1 hneg
    refine iff_of_false (by simp) fun h => ?_
    omega
  · have hnot := (not_congr hsign).1 hneg
    rw [if_neg hneg, if_neg hnot]
    split
    · rw [Option.some.injEq]
      omega
    · refine iff_of_false (by simp) fun h => ?_
      omega

theorem axisCell_eq_some_iff {coordM : Rat} {limit cell : Nat} :
    g.axisCell coordM limit = some cell ↔ ⌊g.inCells coordM⌋ = cell ∧ cell < limit := by
  unfold axisCell inCells
  rw [g.inv_eq]
  exact axis_eq_some_iff g.cellSize_pos

theorem cellForPoint_eq_some_iff {pos : LocalPos} {cell : GridCell} : g.cellForPoint pos = some cell ↔
    (⌊g.inCells pos.x⌋ = cell.x ∧ ⌊g.inCells pos.y⌋ = cell.y) ∧ cell.x < g.width ∧ cell.y < g.height := by
  unfold cellForPoint
  rw [Option.bind_eq_some_iff]
  constructor
  · rintro ⟨x, hx, hmap⟩
    obtain ⟨y, hy, rfl⟩ := Option.map_eq_some_iff.1 hmap
    obtain ⟨hx, hxl⟩ := axisCell_eq_some_iff.1 hx
    obtain ⟨hy, hyl⟩ := axisCell_eq_some_iff.1 hy
    exact ⟨⟨hx, hy⟩, hxl, hyl⟩
  · rintro ⟨⟨hx, hy⟩, hxl, hyl⟩
    refine ⟨cell.x, axisCell_eq_some_iff.2 ⟨hx, hxl⟩, ?_⟩
    rw [axisCell_eq_some_iff.2 ⟨hy, hyl⟩]
    rfl

end TerrainFlagsGrid

structure WalkabilityView where
  terrain : TerrainFlagsGrid

def WalkabilityView.isWalkableCell (w : WalkabilityView) (cell : GridCell) : Bool :=
  (w.terrain.flagsAt cell).any (·.isWalkable)

theorem WalkabilityView.contains_of_isWalkableCell {w : WalkabilityView} {cell : GridCell}
    (h : w.isWalkableCell cell = true) :
    cell.x < w.terrain.width ∧ cell.y < w.terrain.height := by
  unfold WalkabilityView.isWalkableCell TerrainFlagsGrid.flagsAt TerrainFlagsGrid.indexOf at h
  split at h
  · rename_i hin
    simpa [TerrainFlagsGrid.containsCell] using hin
  · cases h

def canStand (w : WalkabilityView) (pos : LocalPos) : Bool := (w.terrain.cellForPoint pos).any w.isWalkableCell

/-! ## The traversal -/

/-- A parametric time; `⊤` is the positive infinity of the source. -/
abbrev Time := WithTop Rat

inductive SegmentTrace where
  | complete
  | blocked (cell : GridCell) (enterT : Time)
  deriving DecidableEq

structure GridCursor where
  x : Int
  y : Int
  deriving DecidableEq, Repr

namespace GridCursor

def fromCell (cell : GridCell) : GridCursor := ⟨cell.x, cell.y⟩

/-- `as usize`. -/
def asUsize (z : Int) : Nat := (z % 2 ^ 64).toNat

def toCell (c : GridCursor) : GridCell := ⟨asUsize c.x, asUsize c.y⟩

end GridCursor

inductive StepKind where
  | x | y | corner
  deriving DecidableEq, Repr

structure SegmentTraversal where
  current : GridCursor
  target : GridCursor
  stepX : Int
  stepY : Int
  tMaxX : Time
  tMaxY : Time
  tDeltaX : Time
  tDeltaY : Time
  lastEnterT : Time

def stepDirection (delta : Rat) : Int := if delta > 0 then 1 else if delta < 0 then -1 else 0

def firstBoundary (cell step : Int) (cellSizeM : Rat) : Rat :=
  let boundaryCell := if step > 0 then cell + 1 else cell
  boundaryCell * cellSizeM

def initialBoundaryT (boundaryM startCoordM deltaM : Rat) (step : Int) : Time :=
  if step = 0 then ⊤ else ((boundaryM - startCoordM) / deltaM : Rat)

def boundaryStepT (cellSizeM deltaM : Rat) (step : Int) : Time :=
  if step = 0 then ⊤ else (cellSizeM / |deltaM| : Rat)

namespace SegmentTraversal

def new (terrain : TerrainFlagsGrid) (start goal : LocalPos) : Option SegmentTraversal :=
  (terrain.cellForPoint start).bind fun startCell =>
    (terrain.cellForPoint goal).map fun goalCell =>
      let dx := goal.x - start.x
      let dy := goal.y - start.y
      let stepX := stepDirection dx
      let stepY := stepDirection dy
      let current := GridCursor.fromCell startCell
      let firstBoundaryX := firstBoundary current.x stepX terrain.cellSizeM
      let firstBoundaryY := firstBoundary current.y stepY terrain.cellSizeM
      { current, target := .fromCell goalCell, stepX, stepY
        tMaxX := initialBoundaryT firstBoundaryX start.x dx stepX
        tMaxY := initialBoundaryT firstBoundaryY start.y dy stepY
        tDeltaX := boundaryStepT terrain.cellSizeM dx stepX
        tDeltaY := boundaryStepT terrain.cellSizeM dy stepY
        lastEnterT := 0 }

def reachedTarget (s : SegmentTraversal) : Bool := s.current.x = s.target.x && s.current.y = s.target.y

def goalCell (s : SegmentTraversal) : GridCell := s.target.toCell

def currentCell (s : SegmentTraversal) : GridCell := s.current.toCell

def step (s : SegmentTraversal) : StepKind × SegmentTraversal :=
  if s.tMaxX < s.tMaxY then
    (.x, { s with lastEnterT := s.tMaxX, current.x := s.current.x + s.stepX, tMaxX := s.tMaxX + s.tDeltaX })
  else if s.tMaxY < s.tMaxX then
    (.y, { s with lastEnterT := s.tMaxY, current.y := s.current.y + s.stepY, tMaxY := s.tMaxY + s.tDeltaY })
  else
    (.corner, { s with
      lastEnterT := s.tMaxX
      current := ⟨s.current.x + s.stepX, s.current.y + s.stepY⟩
      tMaxX := s.tMaxX + s.tDeltaX
      tMaxY := s.tMaxY + s.tDeltaY })

/-- The cells that are asked for after a step from `previous`, in this order. At a corner both are said to be newly
entered. -/
def entered (previous : GridCursor) (kind : StepKind) (s : SegmentTraversal) : List GridCell :=
  match kind with
  | .x | .y => [s.currentCell]
  | .corner => [GridCursor.toCell ⟨s.current.x, previous.y⟩, s.currentCell]

/-- The loop, `none` where it is still running after `fuel` steps. -/
def traceLoop (allowCell : GridCell → Bool) : Nat → SegmentTraversal → Option SegmentTrace
  | fuel, s =>
    if s.reachedTarget then some .complete
    else
      match fuel with
      | 0 => none
      | fuel + 1 =>
        match (entered s.current s.step.1 s.step.2).find? fun cell => !allowCell cell with
        | some cell => some (.blocked cell s.step.2.lastEnterT)
        | none => traceLoop allowCell fuel s.step.2

def trace (allowCell : GridCell → Bool) (fuel : Nat) (s : SegmentTraversal) : Option SegmentTrace :=
  if !allowCell s.currentCell then some (.blocked s.currentCell 0)
  else if s.currentCell = s.goalCell then some .complete
  else traceLoop allowCell fuel s

/-- What the loop asks for within `fuel` steps when every cell is allowed, with the times of entry. -/
def visitsLoop : Nat → SegmentTraversal → List (GridCell × Time)
  | 0, _ => []
  | fuel + 1, s =>
    if s.reachedTarget then []
    else (entered s.current s.step.1 s.step.2).map (·, s.step.2.lastEnterT) ++ visitsLoop fuel s.step.2

def visits (fuel : Nat) (s : SegmentTraversal) : List (GridCell × Time) :=
  (s.currentCell, 0) :: if s.currentCell = s.goalCell then [] else visitsLoop fuel s

end SegmentTraversal

/-- `none` where an endpoint is outside the grid, `some none` where the loop is still running. -/
def walkSegment (terrain : TerrainFlagsGrid) (start goal : LocalPos) (allowCell : GridCell → Bool) (fuel : Nat) :
    Option (Option SegmentTrace) :=
  (SegmentTraversal.new terrain start goal).map (·.trace allowCell fuel)

def walkVisits (terrain : TerrainFlagsGrid) (start goal : LocalPos) (fuel : Nat) : List (GridCell × Time) :=
  ((SegmentTraversal.new terrain start goal).map (·.visits fuel)).getD []

/-- `segment_clear` returns `true`. -/
def SegmentClear (w : WalkabilityView) (start goal : LocalPos) : Prop :=
  ∃ fuel, walkSegment w.terrain start goal w.isWalkableCell fuel = some (some .complete)

end Zohar.Nav
