/-
Routes between two points of a map: directly where the segment is clear, else along a path of cells that is searched
near the start and then smoothed. From zohar-sim/src/navigation.rs and navigation/planner.rs, with what they use of
grid.rs. The search itself, `pathfinding::astar`, is a parameter. Coordinates are exact rationals in place of `f32`.
-/
import Zohar.Nav.Reach
import Zohar.Nav.Trace

namespace Zohar.Nav

open Zohar.Lib

/-! ## Cells and bounds -/

def GridCell.manhattanDistance (a other : GridCell) : Nat :=
  (a.x - other.x : Int).natAbs + (a.y - other.y : Int).natAbs

def TerrainFlagsGrid.cellCenter (g : TerrainFlagsGrid) (cell : GridCell) : Option LocalPos :=
  if g.containsCell cell then some ⟨(cell.x + 1 / 2) * g.cellSizeM, (cell.y + 1 / 2) * g.cellSizeM⟩ else none

/-- `saturating_add` on `usize`. -/
def saturatingAddUsize (a b : Nat) : Nat := min (a + b) (2 ^ 64 - 1)

structure GridBounds where
  minX : Nat
  maxX : Nat
  minY : Nat
  maxY : Nat
  deriving DecidableEq, Repr

def GridBounds.contains (b : GridBounds) (cell : GridCell) : Bool :=
  cell.x ≥ b.minX && cell.x ≤ b.maxX && cell.y ≥ b.minY && cell.y ≤ b.maxY

def TerrainFlagsGrid.searchBounds (g : TerrainFlagsGrid) (center : GridCell) (radiusCells : Nat) : GridBounds where
  minX := center.x - radiusCells
  maxX := min (saturatingAddUsize center.x radiusCells) (g.width - 1)
  minY := center.y - radiusCells
  maxY := min (saturatingAddUsize center.y radiusCells) (g.height - 1)

structure LocalPlanScope where
  localSearchRadiusM : Rat

namespace LocalPlanScope

/-- `LocalPlanScope::default`. -/
def byDefault : LocalPlanScope := ⟨20⟩

/-- `usize::MAX as f32` is 2^64, and `as usize` saturates. -/
def searchRadiusCells (scope : LocalPlanScope) (terrain : TerrainFlagsGrid) : Option Nat :=
  if scope.localSearchRadiusM ≤ 0 then none
  else
    let cells := ⌈scope.localSearchRadiusM * terrain.invCellSizeM⌉
    if cells < 1 ∨ cells > 2 ^ 64 then none else some (min cells.toNat (2 ^ 64 - 1))

/-- The distance is at most the radius, both squared. -/
def goalIsInScope (scope : LocalPlanScope) (start goal : LocalPos) : Bool :=
  0 ≤ scope.localSearchRadiusM &&
    (goal.x - start.x) ^ 2 + (goal.y - start.y) ^ 2 ≤ scope.localSearchRadiusM ^ 2

end LocalPlanScope

/-! ## The search for a path of cells -/

/-- `pathfinding::astar` on cells: start, successors with their costs, heuristic and success. -/
abbrev Astar :=
  GridCell → (GridCell → List (GridCell × Nat)) → (GridCell → Nat) → (GridCell → Bool) → Option (List GridCell × Nat)

def localSuccessors (w : WalkabilityView) (bounds : GridBounds) (cell : GridCell) : List (GridCell × Nat) :=
  ((w.terrain.neighbors4 cell).filter fun neighbor => bounds.contains neighbor && w.isWalkableCell neighbor).map
    fun neighbor =>
    (neighbor, 1)

def findLocalCellPath (astar : Astar) (w : WalkabilityView) (reachability : ReachabilityGrid) (start goal : GridCell)
    (scope : LocalPlanScope) : Option (List GridCell) :=
  if w.isWalkableCell start = false ∨ w.isWalkableCell goal = false ∨
    reachability.sameComponent start goal = false then none
  else (scope.searchRadiusCells w.terrain).bind fun radius =>
    let bounds := w.terrain.searchBounds start radius
    if bounds.contains goal = false then none
    else (astar start (localSuccessors w bounds) (·.manhattanDistance goal) (· == goal)).map (·.1)

/-! ## Smoothing -/

structure NavPath where
  cells : List GridCell
  waypoints : List LocalPos
  deriving DecidableEq

/-- The anchor that the loop pushes for the cell at an index, if any. -/
def anchorPosition (terrain : TerrainFlagsGrid) (count : Nat) (start goal : LocalPos) (cell : GridCell) (idx : Nat) :
    Option LocalPos :=
  if idx = 0 then some start else if idx + 1 = count then some goal else terrain.cellCenter cell

def anchorPositions (terrain : TerrainFlagsGrid) (cells : List GridCell) (start goal : LocalPos) : List LocalPos :=
  cells.zipIdx.filterMap fun (cell, idx) => anchorPosition terrain cells.length start goal cell idx

/-- Both loops in one: from `anchor`, with `furthest` the furthest anchor that is in sight so far and the anchors after
it. -/
def skipAnchors (segmentClear : LocalPos → LocalPos → Bool) : LocalPos → LocalPos → List LocalPos → List LocalPos
  | _, furthest, [] => [furthest]
  | anchor, furthest, next :: rest =>
    if segmentClear anchor next then skipAnchors segmentClear anchor next rest
    else furthest :: skipAnchors segmentClear furthest next rest

/-- There is an anchor where there is a cell, as the first one is the start. -/
def pruneCellsToPath (terrain : TerrainFlagsGrid) (cells : List GridCell) (start goal : LocalPos)
    (segmentClear : LocalPos → LocalPos → Bool) : NavPath :=
  if cells.isEmpty then ⟨[], []⟩
  else
    let anchors := anchorPositions terrain cells start goal
    match if anchors.length = 1 ∧ start ≠ goal then anchors ++ [goal] else anchors with
    | [] => ⟨cells, []⟩
    | [anchor] => ⟨cells, [anchor]⟩
    | anchor :: next :: rest => ⟨cells, anchor :: skipAnchors segmentClear anchor next rest⟩

/-! ## The navigator -/

structure MapNavigator where
  walkability : WalkabilityView
  reachability : ReachabilityGrid

structure RouteCells where
  startCell : GridCell
  goalCell : GridCell
  deriving DecidableEq

inductive RouteResolution where
  | invalidEndpoints
  | direct (routeCells : RouteCells)
  | outOfScope
  | unreachable
  | planned (cells : List GridCell)
  deriving DecidableEq

def nextWaypointFromPath (path : NavPath) : Option LocalPos := path.waypoints[1]?.or path.waypoints.getLast?

namespace MapNavigator

/-- Every search for components runs for at most `fuel` cells. -/
def new (terrain : TerrainFlagsGrid) (fuel : Nat) : Outcome MapNavigator :=
  (ReachabilityGrid.new ⟨terrain⟩ fuel).andThen fun reachability => .returned ⟨⟨terrain⟩, reachability.1⟩

def segmentClear (nav : MapNavigator) (start goal : LocalPos) : Bool := Nav.segmentClear nav.walkability start goal

def resolveEndpoints (nav : MapNavigator) (start goal : LocalPos) : Option RouteCells :=
  (nav.walkability.terrain.cellForPoint start).bind fun startCell =>
    (nav.walkability.terrain.cellForPoint goal).map fun goalCell => ⟨startCell, goalCell⟩

def cellsShareComponent (nav : MapNavigator) (routeCells : RouteCells) : Bool :=
  nav.reachability.sameComponent routeCells.startCell routeCells.goalCell

def buildPath (nav : MapNavigator) (cells : List GridCell) (start goal : LocalPos) : NavPath :=
  pruneCellsToPath nav.walkability.terrain cells start goal fun a b => nav.segmentClear a b

def buildDirectPath (nav : MapNavigator) (routeCells : RouteCells) (start goal : LocalPos) : NavPath :=
  nav.buildPath [routeCells.startCell, routeCells.goalCell] start goal

variable (astar : Astar)

def resolveRoute (nav : MapNavigator) (start goal : LocalPos) (scope : LocalPlanScope) : RouteResolution :=
  match nav.resolveEndpoints start goal with
  | none => .invalidEndpoints
  | some routeCells =>
    if nav.segmentClear start goal then .direct routeCells
    else if scope.goalIsInScope start goal = false then .outOfScope
    else if nav.cellsShareComponent routeCells = false then .unreachable
    else
      match findLocalCellPath astar nav.walkability nav.reachability routeCells.startCell routeCells.goalCell scope with
      | none => .unreachable
      | some cells => .planned cells

def nextWaypointWithScope (nav : MapNavigator) (start goal : LocalPos) (scope : LocalPlanScope) : Option LocalPos :=
  match nav.resolveRoute astar start goal scope with
  | .direct _ => some goal
  | .planned cells => nextWaypointFromPath (nav.buildPath cells start goal)
  | .invalidEndpoints | .outOfScope | .unreachable => none

def findPathWithScope (nav : MapNavigator) (start goal : LocalPos) (scope : LocalPlanScope) : Option NavPath :=
  match nav.resolveRoute astar start goal scope with
  | .direct routeCells => some (nav.buildDirectPath routeCells start goal)
  | .planned cells => some (nav.buildPath cells start goal)
  | .invalidEndpoints | .outOfScope | .unreachable => none

def nextWaypoint (nav : MapNavigator) (start goal : LocalPos) : Option LocalPos :=
  nav.nextWaypointWithScope astar start goal .byDefault

def findPath (nav : MapNavigator) (start goal : LocalPos) : Option NavPath :=
  nav.findPathWithScope astar start goal .byDefault

end MapNavigator

/-! ## Smoothing keeps the ends -/

section Smoothing

variable {clear : LocalPos → LocalPos → Bool} {Next : LocalPos → LocalPos → Prop}

theorem skipAnchors_ne_nil : ∀ {rest : List LocalPos} {anchor furthest : LocalPos},
    skipAnchors clear anchor furthest rest ≠ []
  | [], _, _ => List.cons_ne_nil _ _
  | next :: rest, anchor, furthest => by
    rw [skipAnchors]
    split
    · exact skipAnchors_ne_nil
    · exact List.cons_ne_nil _ _

/-- Along anchors that follow each other, every leg is in sight or leads to the next anchor, and the last anchor is
kept. -/
theorem skipAnchors_spec : ∀ {rest : List LocalPos} {anchor furthest : LocalPos},
    (clear anchor furthest = true ∨ Next anchor furthest) → (furthest :: rest).IsChain Next →
    (anchor :: skipAnchors clear anchor furthest rest).IsChain (fun a b => clear a b = true ∨ Next a b) ∧
      (anchor :: skipAnchors clear anchor furthest rest).getLast? = (furthest :: rest).getLast?
  | [], anchor, furthest, hleg, _ => ⟨.cons_cons hleg (.singleton _), rfl⟩
  | next :: rest, anchor, furthest, hleg, hchain => by
    obtain ⟨hnext, hrest⟩ := List.isChain_cons_cons.1 hchain
    rw [skipAnchors, List.getLast?_cons_cons]
    split
    · rename_i hsight
      exact skipAnchors_spec (.inl hsight) hrest
    · obtain ⟨hlegs, hlast⟩ := skipAnchors_spec (.inr hnext) hrest
      refine ⟨.cons_cons hleg hlegs, ?_⟩
      rw [List.getLast?_cons_cons]
      exact hlast

variable {g : TerrainFlagsGrid} {cells : List GridCell} {start goal : LocalPos}

theorem anchorPosition_isSome {cell : GridCell} (h : g.containsCell cell = true) (count idx : Nat) :
    (anchorPosition g count start goal cell idx).isSome = true := by
  rw [anchorPosition, TerrainFlagsGrid.cellCenter, if_pos h]
  split
  · rfl
  · split <;> rfl

/-- A filter that drops nothing keeps the indices. -/
theorem getElem?_filterMap_of_isSome {α β : Type} {f : α → Option β} : ∀ {l : List α}, (∀ a ∈ l, (f a).isSome = true) →
    ∀ i : Nat, (l.filterMap f)[i]? = l[i]?.bind f
  | [], _, _ => rfl
  | a :: l, h, i => by
    obtain ⟨b, hb⟩ := Option.isSome_iff_exists.1 (h a List.mem_cons_self)
    rw [List.filterMap_cons_some hb]
    cases i with
    | zero => exact hb.symm
    | succ i => exact getElem?_filterMap_of_isSome (fun a ha => h a (List.mem_cons_of_mem _ ha)) i

variable (start goal) in
/-- On cells of the grid there is an anchor for every cell. -/
theorem getElem?_anchorPositions (hin : ∀ cell ∈ cells, g.containsCell cell = true) (i : Nat) :
    (anchorPositions g cells start goal)[i]? =
      cells[i]?.bind fun cell => anchorPosition g cells.length start goal cell i := by
  unfold anchorPositions
  rw [getElem?_filterMap_of_isSome, List.getElem?_zipIdx]
  · cases cells[i]? with
    | none => rfl
    | some cell =>
      rw [Option.map_some, Nat.zero_add]
      rfl
  · rintro ⟨cell, idx⟩ hmem
    exact anchorPosition_isSome (hin cell (List.mem_of_getElem? (List.mk_mem_zipIdx_iff_getElem?.1 hmem))) _ _

variable (start goal) in
theorem length_anchorPositions (hin : ∀ cell ∈ cells, g.containsCell cell = true) :
    (anchorPositions g cells start goal).length = cells.length := by
  unfold anchorPositions
  rw [List.filterMap_length_eq_length.2, List.length_zipIdx]
  rintro ⟨cell, idx⟩ hmem
  exact anchorPosition_isSome (hin cell (List.mem_of_getElem? (List.mk_mem_zipIdx_iff_getElem?.1 hmem))) _ _

variable (g cells start goal) in
/-- The anchors of two consecutive cells. -/
def AnchorLeg (a b : LocalPos) : Prop := ∃ i,
  (cells[i]?.bind fun cell => anchorPosition g cells.length start goal cell i) = some a ∧
    (cells[i + 1]?.bind fun cell => anchorPosition g cells.length start goal cell (i + 1)) = some b

variable (start goal) in
/-- From the first cell to the last there is a leg from each anchor to the next. -/
theorem isChain_anchorPositions (hin : ∀ cell ∈ cells, g.containsCell cell = true) :
    (anchorPositions g cells start goal).IsChain (AnchorLeg g cells start goal) := by
  refine List.isChain_iff_getElem.2 fun i hi => ⟨i, ?_, ?_⟩
  · rw [← getElem?_anchorPositions start goal hin]
    exact List.getElem?_eq_getElem (Nat.lt_of_succ_lt hi)
  · rw [← getElem?_anchorPositions start goal hin]
    exact List.getElem?_eq_getElem hi

/-- What a smoothed path is: from the start to the goal, over legs that are in sight or lead to the next anchor. -/
structure Smoothed (clear : LocalPos → LocalPos → Bool) (g : TerrainFlagsGrid) (cells : List GridCell)
    (start goal : LocalPos) (waypoints : List LocalPos) : Prop where
  first : waypoints.head? = some start
  last : waypoints.getLast? = some goal
  more : 1 < waypoints.length
  legs : waypoints.IsChain fun a b => clear a b = true ∨ AnchorLeg g cells start goal a b

theorem pruneCellsToPath_spec (hin : ∀ cell ∈ cells, g.containsCell cell = true) (hlen : 1 < cells.length) :
    ∃ waypoints, pruneCellsToPath g cells start goal clear = ⟨cells, waypoints⟩ ∧
      Smoothed clear g cells start goal waypoints := by
  have hcount := length_anchorPositions start goal hin
  have hget := getElem?_anchorPositions start goal hin
  have hchain := isChain_anchorPositions start goal hin
  have hne : cells.isEmpty = false := List.isEmpty_eq_false_iff.2 (List.ne_nil_of_length_pos (Nat.lt_of_succ_lt hlen))
  -- there is an anchor for each of the cells, the start for the first and the goal for the last
  obtain ⟨anchor, next, rest, hanchors⟩ : ∃ a b l, anchorPositions g cells start goal = a :: b :: l := by
    match h : anchorPositions g cells start goal with
    | [] | [_] => simp [h] at hcount; omega
    | a :: b :: l => exact ⟨a, b, l, rfl⟩
  have hfirst : anchor = start := by
    have h0 := hget 0
    rw [hanchors, List.getElem?_eq_getElem (Nat.lt_of_succ_lt hlen)] at h0
    exact Option.some.inj h0
  have hlast : (next :: rest).getLast? = some goal := by
    have hget := hget (cells.length - 1)
    rw [List.getElem?_eq_getElem (Nat.sub_lt (Nat.lt_of_succ_lt hlen) Nat.one_pos), Option.bind_some, anchorPosition,
      if_neg (by omega), if_pos (by omega), ← hcount, ← List.getLast?_eq_getElem?, hanchors,
      List.getLast?_cons_cons] at hget
    exact hget
  rw [hanchors] at hchain hcount
  obtain ⟨hleg, hrest⟩ := List.isChain_cons_cons.1 hchain
  obtain ⟨hlegs, hend⟩ := @skipAnchors_spec clear _ _ _ _ (.inr hleg) hrest
  refine ⟨anchor :: skipAnchors clear anchor next rest, ?_, ?_, hend.trans hlast, ?_, hlegs⟩
  · unfold pruneCellsToPath
    rw [hne, if_neg (by decide), hanchors]
    dsimp only
    rw [if_neg (by rw [hcount]; omega)]
  · rw [hfirst]
    rfl
  · exact Nat.succ_lt_succ (List.length_pos_of_ne_nil skipAnchors_ne_nil)

end Smoothing

/-! ## The search finds what there is -/

/-- What `astar` promises for a call: an answer is a path from the start to a success over successors, and without an
answer there is none. -/
structure AstarAnswers (start : GridCell) (successors : GridCell → List (GridCell × Nat)) (success : GridCell → Bool)
    (answer : Option (List GridCell × Nat)) : Prop where
  found : ∀ path cost, answer = some (path, cost) → path.head? = some start ∧
    path.IsChain (fun a b => ∃ c, (b, c) ∈ successors a) ∧ ∃ last, path.getLast? = some last ∧ success last = true
  exhausted : answer = none → ∀ cell,
    Relation.ReflTransGen (fun a b => ∃ c, (b, c) ∈ successors a) start cell → success cell = false

/-- A path of edge-adjacent walkable cells inside the search bounds. -/
structure LocalCellPath (w : WalkabilityView) (scope : LocalPlanScope) (start goal : GridCell) (cells : List GridCell) :
    Prop where
  first : cells.head? = some start
  last : cells.getLast? = some goal
  adjacent : cells.IsChain EdgeAdjacent
  walkable : ∀ cell ∈ cells, w.isWalkableCell cell = true
  bounded : ∃ radius, scope.searchRadiusCells w.terrain = some radius ∧
    ∀ cell ∈ cells, (w.terrain.searchBounds start radius).contains cell = true

section Search

variable {w : WalkabilityView} {bounds : GridBounds} {a b start goal : GridCell} {cells : List GridCell}
  {scope : LocalPlanScope}

theorem mem_localSuccessors (ha : w.isWalkableCell a = true) : (∃ c, (b, c) ∈ localSuccessors w bounds a) ↔
    EdgeAdjacent a b ∧ bounds.contains b = true ∧ w.isWalkableCell b = true := by
  unfold localSuccessors
  constructor
  · rintro ⟨c, hmem⟩
    obtain ⟨_, hcell, heq⟩ := List.mem_map.1 hmem
    cases heq
    obtain ⟨hadj, hok⟩ := List.mem_filter.1 hcell
    obtain ⟨hbounds, hwalk⟩ := Bool.and_eq_true_iff.1 hok
    exact ⟨((TerrainFlagsGrid.mem_neighbors4 (containsCell_of_isWalkableCell ha)).1 hadj).1, hbounds, hwalk⟩
  · rintro ⟨hadj, hbounds, hwalk⟩
    refine ⟨1, List.mem_map.2 ⟨b, List.mem_filter.2 ⟨?_, Bool.and_eq_true_iff.2 ⟨hbounds, hwalk⟩⟩, rfl⟩⟩
    exact (TerrainFlagsGrid.mem_neighbors4 (containsCell_of_isWalkableCell ha)).2
      ⟨hadj, containsCell_of_isWalkableCell hwalk⟩

/-- A path of the search is one of walkable cells inside the bounds. -/
theorem isChain_localSuccessors : ∀ {cells : List GridCell},
    cells.IsChain (fun a b => ∃ c, (b, c) ∈ localSuccessors w bounds a) →
    (∀ a ∈ cells.head?, w.isWalkableCell a = true ∧ bounds.contains a = true) →
    cells.IsChain EdgeAdjacent ∧ ∀ cell ∈ cells, w.isWalkableCell cell = true ∧ bounds.contains cell = true
  | [], _, _ => ⟨.nil, nofun⟩
  | [a], _, hfirst => ⟨.singleton a, fun cell hcell => hfirst cell (List.mem_singleton.1 hcell ▸ rfl)⟩
  | a :: b :: cells, hchain, hfirst => by
    obtain ⟨hstep, hrest⟩ := List.isChain_cons_cons.1 hchain
    have ha := hfirst a rfl
    obtain ⟨hadj, hbounds, hwalk⟩ := (mem_localSuccessors ha.1).1 hstep
    obtain ⟨hadjs, hall⟩ := isChain_localSuccessors hrest fun _ h => Option.mem_some.1 h ▸ ⟨hwalk, hbounds⟩
    exact ⟨.cons_cons hadj hadjs, List.forall_mem_cons.2 ⟨ha, hall⟩⟩

theorem joined_of_isChain (hchain : cells.IsChain EdgeAdjacent) (hwalk : ∀ cell ∈ cells, w.isWalkableCell cell = true)
    (hfirst : cells.head? = some start) (hlast : cells.getLast? = some goal) : Joined w start goal := by
  obtain ⟨rest, rfl⟩ := List.head?_eq_some_iff.1 hfirst
  refine List.relationReflTransGen_of_exists_isChain_cons rest ?_ (List.getLast_of_getLast?_eq_some hlast)
  exact hchain.imp_of_mem_imp fun a b ha hb hadj => ⟨hadj, hwalk a ha, hwalk b hb⟩

/-- What is relied on: the answer to the one call that there is for these cells. -/
def AstarFinds (w : WalkabilityView) (scope : LocalPlanScope) (start goal : GridCell) (astar : Astar) : Prop :=
  ∀ radius, scope.searchRadiusCells w.terrain = some radius →
  AstarAnswers start (localSuccessors w (w.terrain.searchBounds start radius)) (· == goal)
    (astar start (localSuccessors w (w.terrain.searchBounds start radius)) (·.manhattanDistance goal) (· == goal))

theorem GridBounds.contains_iff {bounds : GridBounds} {cell : GridCell} : bounds.contains cell = true ↔
    (bounds.minX ≤ cell.x ∧ cell.x ≤ bounds.maxX) ∧ bounds.minY ≤ cell.y ∧ cell.y ≤ bounds.maxY := by
  simp [contains, and_assoc]

/-- The bounds hold the cells of the grid that are at most the radius away in both coordinates. -/
theorem contains_searchBounds_iff {g : TerrainFlagsGrid} {center cell : GridCell} {radius : Nat}
    (hcell : g.containsCell cell = true) : (g.searchBounds center radius).contains cell = true ↔
      (center.x ≤ cell.x + radius ∧ cell.x ≤ center.x + radius) ∧ center.y ≤ cell.y + radius ∧
      cell.y ≤ center.y + radius := by
  obtain ⟨hx, hy⟩ := TerrainFlagsGrid.containsCell_iff.1 hcell
  have hw := g.width_lt
  have hh := g.height_lt
  unfold sliceLimit at hw hh
  rw [GridBounds.contains_iff]
  unfold TerrainFlagsGrid.searchBounds saturatingAddUsize
  dsimp only
  omega

variable {reachability : ReachabilityGrid} {astar : Astar}

theorem findLocalCellPath_some (hastar : AstarFinds w scope start goal astar)
    (h : findLocalCellPath astar w reachability start goal scope = some cells) :
    LocalCellPath w scope start goal cells := by
  unfold findLocalCellPath at h
  split at h
  · cases h
  · rename_i hpre
    obtain ⟨hstart, -⟩ := not_or.1 hpre
    rw [Bool.not_eq_false] at hstart
    obtain ⟨radius, hradius, h⟩ := Option.bind_eq_some_iff.1 h
    dsimp only at h
    split at h
    · cases h
    · obtain ⟨⟨path, cost⟩, hanswer, rfl⟩ := Option.map_eq_some_iff.1 h
      obtain ⟨hfirst, hchain, last, hlast, hsuccess⟩ := (hastar radius hradius).found path cost hanswer
      obtain ⟨hadj, hall⟩ := isChain_localSuccessors hchain fun a ha => by
        rw [hfirst] at ha
        cases ha
        exact ⟨hstart, (contains_searchBounds_iff (containsCell_of_isWalkableCell hstart)).2
          ⟨⟨Nat.le_add_right _ _, Nat.le_add_right _ _⟩, Nat.le_add_right _ _, Nat.le_add_right _ _⟩⟩
      exact ⟨hfirst, hlast.trans (congrArg some (beq_iff_eq.1 hsuccess)), hadj, fun cell hcell => (hall cell hcell).1,
        radius, hradius, fun cell hcell => (hall cell hcell).2⟩

/-- Where cells share a component, the search finds the path that there is. -/
theorem findLocalCellPath_isSome (hastar : AstarFinds w scope start goal astar)
    (hshare : reachability.sameComponent start goal = true) (h : LocalCellPath w scope start goal cells) :
    (findLocalCellPath astar w reachability start goal scope).isSome = true := by
  obtain ⟨radius, hradius, hbounds⟩ := h.bounded
  obtain ⟨rest, rfl⟩ := List.head?_eq_some_iff.1 h.first
  have hgoal := List.mem_of_getLast? h.last
  have hstart := h.walkable start List.mem_cons_self
  unfold findLocalCellPath
  rw [hstart, h.walkable goal hgoal, hshare, if_neg (by decide), hradius, Option.bind_some]
  dsimp only
  rw [hbounds goal hgoal, if_neg (by decide), Option.isSome_map, Option.isSome_iff_ne_none]
  intro hnone
  -- the cells are a path of the search to a success
  have hreach : Relation.ReflTransGen
      (fun a b => ∃ c, (b, c) ∈ localSuccessors w (w.terrain.searchBounds start radius) a) start goal := by
    refine List.relationReflTransGen_of_exists_isChain_cons rest ?_ (List.getLast_of_getLast?_eq_some h.last)
    exact h.adjacent.imp_of_mem_imp fun a b ha hb hadj =>
      (mem_localSuccessors (h.walkable a ha)).2 ⟨hadj, hbounds b hb, h.walkable b hb⟩
  have hfail := (hastar radius hradius).exhausted hnone goal hreach
  rw [beq_self_eq_true] at hfail
  cases hfail

end Search

/-! ## Routes -/

section Route

variable {nav : MapNavigator} {astar : Astar} {start goal : LocalPos} {scope : LocalPlanScope}

/-- The labels tell which cells are joined. -/
def MapNavigator.Labelled (nav : MapNavigator) : Prop := ∀ a b, nav.reachability.sameComponent a b = true ↔
  nav.walkability.isWalkableCell a = true ∧ nav.walkability.isWalkableCell b = true ∧ Joined nav.walkability a b

theorem MapNavigator.labelled_of_new {terrain : TerrainFlagsGrid} {fuel : Nat} (h : new terrain fuel = .returned nav) :
    nav.Labelled := by
  unfold new at h
  cases hr : ReachabilityGrid.new ⟨terrain⟩ fuel with
  | returned res =>
    rw [hr] at h
    cases h
    exact @ReachabilityGrid.sameComponent_of_new _ _ res.1 res.2 hr
  | panicked => rw [hr] at h; cases h
  | running => rw [hr] at h; cases h

theorem MapNavigator.walkability_of_new {terrain : TerrainFlagsGrid} {fuel : Nat}
    (h : new terrain fuel = .returned nav) :
    nav.walkability = ⟨terrain⟩ := by
  unfold new at h
  cases hr : ReachabilityGrid.new ⟨terrain⟩ fuel with
  | returned res =>
    rw [hr] at h
    cases h
    rfl
  | panicked => rw [hr] at h; cases h
  | running => rw [hr] at h; cases h

theorem MapNavigator.segmentClear_iff : nav.segmentClear start goal = true ↔ SegmentClear nav.walkability start goal :=
  Nav.segmentClear_iff

/-- There is a route: both points are in the grid, and the segment is clear or there is a path of cells nearby. -/
def RouteExists (w : WalkabilityView) (scope : LocalPlanScope) (start goal : LocalPos) : Prop :=
  ∃ startCell goalCell, w.terrain.cellForPoint start = some startCell ∧ w.terrain.cellForPoint goal = some goalCell ∧
    (SegmentClear w start goal ∨
      (scope.goalIsInScope start goal = true ∧ ∃ cells, LocalCellPath w scope startCell goalCell cells))

/-- How a route is resolved. -/
inductive Resolved (w : WalkabilityView) (scope : LocalPlanScope) (start goal : LocalPos) : RouteResolution → Prop
  | direct (cells : RouteCells) (hs : w.terrain.cellForPoint start = some cells.startCell)
    (hg : w.terrain.cellForPoint goal = some cells.goalCell) (hclear : SegmentClear w start goal) :
    Resolved w scope start goal (.direct cells)
  | planned (startCell goalCell : GridCell) (cells : List GridCell) (hs : w.terrain.cellForPoint start = some startCell)
    (hg : w.terrain.cellForPoint goal = some goalCell) (hclear : ¬ SegmentClear w start goal)
    (hscope : scope.goalIsInScope start goal = true) (hpath : LocalCellPath w scope startCell goalCell cells) :
    Resolved w scope start goal (.planned cells)
  | refused (res : RouteResolution) (hres : res = .invalidEndpoints ∨ res = .outOfScope ∨ res = .unreachable)
    (hnone : ¬ RouteExists w scope start goal) : Resolved w scope start goal res

theorem MapNavigator.resolveEndpoints_eq_some_iff {cells : RouteCells} : nav.resolveEndpoints start goal = some cells ↔
    nav.walkability.terrain.cellForPoint start = some cells.startCell ∧
      nav.walkability.terrain.cellForPoint goal = some cells.goalCell := by
  unfold resolveEndpoints
  rw [Option.bind_eq_some_iff]
  constructor
  · rintro ⟨startCell, hs, hmap⟩
    obtain ⟨goalCell, hg, rfl⟩ := Option.map_eq_some_iff.1 hmap
    exact ⟨hs, hg⟩
  · rintro ⟨hs, hg⟩
    exact ⟨_, hs, Option.map_eq_some_iff.2 ⟨_, hg, rfl⟩⟩

/-- The endpoints of a route are those of the segment. -/
theorem routeExists_iff {startCell goalCell : GridCell} {w : WalkabilityView}
    (hs : w.terrain.cellForPoint start = some startCell) (hg : w.terrain.cellForPoint goal = some goalCell) :
    RouteExists w scope start goal ↔ SegmentClear w start goal ∨
      (scope.goalIsInScope start goal = true ∧ ∃ cells, LocalCellPath w scope startCell goalCell cells) := by
  constructor
  · rintro ⟨a, b, ha, hb, h⟩
    rw [hs] at ha
    rw [hg] at hb
    cases ha
    cases hb
    exact h
  · exact fun h => ⟨startCell, goalCell, hs, hg, h⟩

/-- What is relied on for the cells of the endpoints. -/
def AstarFindsFor (w : WalkabilityView) (scope : LocalPlanScope) (start goal : LocalPos) (astar : Astar) : Prop :=
  ∀ startCell goalCell, w.terrain.cellForPoint start = some startCell → w.terrain.cellForPoint goal = some goalCell →
    AstarFinds w scope startCell goalCell astar

theorem MapNavigator.resolveRoute_spec (hlabels : nav.Labelled)
    (hastar : AstarFindsFor nav.walkability scope start goal astar) :
    Resolved nav.walkability scope start goal (nav.resolveRoute astar start goal scope) := by
  unfold resolveRoute
  cases hend : nav.resolveEndpoints start goal with
  | none =>
    refine .refused _ (.inl rfl) ?_
    rintro ⟨startCell, goalCell, hs, hg, -⟩
    have hsome : nav.resolveEndpoints start goal = some ⟨startCell, goalCell⟩ := resolveEndpoints_eq_some_iff.2 ⟨hs, hg⟩
    rw [hend] at hsome
    cases hsome
  | some cells =>
    obtain ⟨hs, hg⟩ := resolveEndpoints_eq_some_iff.1 hend
    have hfinds := hastar _ _ hs hg
    dsimp only
    by_cases hclear : SegmentClear nav.walkability start goal
    · rw [if_pos (segmentClear_iff.2 hclear)]
      exact .direct cells hs hg hclear
    · rw [if_neg ((not_congr segmentClear_iff).2 hclear)]
      by_cases hscope : scope.goalIsInScope start goal = true
      · rw [hscope, if_neg (by decide)]
        by_cases hshare : nav.reachability.sameComponent cells.startCell cells.goalCell = true
        · rw [cellsShareComponent, hshare, if_neg (by decide)]
          cases hfind : findLocalCellPath astar nav.walkability nav.reachability cells.startCell
            cells.goalCell scope with
          | some path => exact .planned _ _ path hs hg hclear hscope (findLocalCellPath_some hfinds hfind)
          | none =>
            refine .refused _ (.inr (.inr rfl)) fun hroute => ?_
            rcases (routeExists_iff hs hg).1 hroute with h | ⟨-, path, hpath⟩
            · exact hclear h
            · have hsome := findLocalCellPath_isSome hfinds hshare hpath
              rw [hfind] at hsome
              cases hsome
        · rw [cellsShareComponent, if_pos (Bool.not_eq_true _ ▸ hshare)]
          refine .refused _ (.inr (.inr rfl)) fun hroute => ?_
          rcases (routeExists_iff hs hg).1 hroute with h | ⟨-, path, hpath⟩
          · exact hclear h
          · obtain ⟨rest, rfl⟩ := List.head?_eq_some_iff.1 hpath.first
            exact hshare ((hlabels _ _).2 ⟨hpath.walkable _ List.mem_cons_self,
              hpath.walkable _ (List.mem_of_getLast? hpath.last),
              joined_of_isChain hpath.adjacent hpath.walkable rfl hpath.last⟩)
      · rw [if_pos (Bool.not_eq_true _ ▸ hscope)]
        refine .refused _ (.inr (.inl rfl)) fun hroute => ?_
        rcases (routeExists_iff hs hg).1 hroute with h | ⟨h, -⟩
        · exact hclear h
        · exact hscope h

/-- What the waypoints of a route are: they lead from the start to the goal, each leg in sight or between the anchors of
two consecutive cells of a path from the start cell to the goal cell. -/
structure RouteFollows (w : WalkabilityView) (scope : LocalPlanScope) (start goal : LocalPos)
    (path : NavPath) : Prop where
  first : path.waypoints.head? = some start
  last : path.waypoints.getLast? = some goal
  legs : path.waypoints.IsChain fun a b => SegmentClear w a b ∨
    (∃ startCell goalCell, w.terrain.cellForPoint start = some startCell ∧ w.terrain.cellForPoint goal = some goalCell ∧
      LocalCellPath w scope startCell goalCell path.cells) ∧ AnchorLeg w.terrain path.cells start goal a b

theorem MapNavigator.buildDirectPath_eq (nav : MapNavigator) (cells : RouteCells) (start goal : LocalPos) :
    nav.buildDirectPath cells start goal = ⟨[cells.startCell, cells.goalCell], [start, goal]⟩ := rfl

/-- Where the start and the goal are in one cell that can be walked on the segment is clear, so that a path has other
cells. -/
theorem LocalCellPath.length_of_not_clear {w : WalkabilityView} {startCell goalCell : GridCell} {cells : List GridCell}
    (h : LocalCellPath w scope startCell goalCell cells) (hs : w.terrain.cellForPoint start = some startCell)
    (hg : w.terrain.cellForPoint goal = some goalCell) (hclear : ¬ SegmentClear w start goal) : 1 < cells.length := by
  obtain ⟨rest, rfl⟩ := List.head?_eq_some_iff.1 h.first
  cases rest with
  | cons _ _ => simp
  | nil =>
    have hsame : startCell = goalCell := Option.some.inj h.last
    subst hsame
    exact absurd (segmentClear_of_same hs hg (h.walkable startCell List.mem_cons_self)) hclear

theorem MapNavigator.buildPath_spec {startCell goalCell : GridCell} {cells : List GridCell}
    (hs : nav.walkability.terrain.cellForPoint start = some startCell)
    (hg : nav.walkability.terrain.cellForPoint goal = some goalCell)
    (hclear : ¬ SegmentClear nav.walkability start goal)
    (hpath : LocalCellPath nav.walkability scope startCell goalCell cells) :
    ∃ second, nextWaypointFromPath (nav.buildPath cells start goal) = some second ∧
      (nav.buildPath cells start goal).waypoints[1]? = some second ∧
      RouteFollows nav.walkability scope start goal (nav.buildPath cells start goal) := by
  have hin : ∀ cell ∈ cells, nav.walkability.terrain.containsCell cell = true :=
    fun cell hcell => containsCell_of_isWalkableCell (hpath.walkable cell hcell)
  obtain ⟨waypoints, hprune, hsmooth⟩ : ∃ waypoints, nav.buildPath cells start goal = ⟨cells, waypoints⟩ ∧
      Smoothed nav.segmentClear nav.walkability.terrain cells start goal waypoints :=
    pruneCellsToPath_spec hin (hpath.length_of_not_clear hs hg hclear)
  have hsecond : waypoints[1]? = some (waypoints.get ⟨1, hsmooth.more⟩) := List.getElem?_eq_getElem hsmooth.more
  rw [hprune]
  refine ⟨_, ?_, hsecond, hsmooth.first, hsmooth.last, hsmooth.legs.imp fun a b hleg => ?_⟩
  · unfold nextWaypointFromPath
    rw [hsecond, Option.some_or]
  · rcases hleg with hsight | hnext
    · exact .inl (segmentClear_iff.1 hsight)
    · exact .inr ⟨⟨startCell, goalCell, hs, hg, hpath⟩, hnext⟩

/-- The two queries on a resolved route. -/
theorem MapNavigator.findPath_cases (hlabels : nav.Labelled)
    (hastar : AstarFindsFor nav.walkability scope start goal astar) :
    (RouteExists nav.walkability scope start goal ∧ ∃ path second,
      nav.findPathWithScope astar start goal scope = some path ∧
        nav.nextWaypointWithScope astar start goal scope = some second ∧ path.waypoints[1]? = some second ∧
        RouteFollows nav.walkability scope start goal path) ∨
    (¬ RouteExists nav.walkability scope start goal ∧ nav.findPathWithScope astar start goal scope = none ∧
      nav.nextWaypointWithScope astar start goal scope = none) := by
  have hspec := resolveRoute_spec hlabels hastar
  unfold findPathWithScope nextWaypointWithScope
  cases hres : nav.resolveRoute astar start goal scope with
  | direct cells =>
    rw [hres] at hspec
    cases hspec with
    | direct _ hs hg hclear =>
      refine .inl ⟨(routeExists_iff hs hg).2 (.inl hclear), _, goal, rfl, rfl, ?_, ?_⟩
      · rw [buildDirectPath_eq]
        rfl
      · rw [buildDirectPath_eq]
        exact ⟨rfl, rfl, .cons_cons (.inl hclear) (.singleton _)⟩
    | refused _ h => rcases h with h | h | h <;> cases h
  | planned cells =>
    rw [hres] at hspec
    cases hspec with
    | planned startCell goalCell _ hs hg hclear hscope hpath =>
      obtain ⟨second, hnext, hsecond, hfollows⟩ := buildPath_spec hs hg hclear hpath
      exact .inl ⟨(routeExists_iff hs hg).2 (.inr ⟨hscope, cells, hpath⟩), _, second, rfl, hnext, hsecond, hfollows⟩
    | refused _ h => rcases h with h | h | h <;> cases h
  | invalidEndpoints | outOfScope | unreachable =>
    rw [hres] at hspec
    cases hspec with
    | refused _ _ hnone => exact .inr ⟨hnone, rfl, rfl⟩

/-- `find_path` is correct: what it returns is a route whose second waypoint `next_waypoint` returns, and both return
something exactly if there is a route. -/
theorem find_path_correct {terrain : TerrainFlagsGrid} {fuel : Nat}
    (hnew : MapNavigator.new terrain fuel = .returned nav)
    (hastar : AstarFindsFor nav.walkability .byDefault start goal astar) :
    (∀ path, nav.findPath astar start goal = some path → RouteFollows nav.walkability .byDefault start goal path ∧
      ∃ second, path.waypoints[1]? = some second ∧ nav.nextWaypoint astar start goal = some second) ∧
    ((nav.findPath astar start goal).isSome = true ↔ RouteExists nav.walkability .byDefault start goal) ∧
    ((nav.nextWaypoint astar start goal).isSome = true ↔ RouteExists nav.walkability .byDefault start goal) := by
  unfold MapNavigator.findPath MapNavigator.nextWaypoint
  rcases MapNavigator.findPath_cases (MapNavigator.labelled_of_new hnew) hastar with
    ⟨hroute, path, second, hfind, hnext, hsecond, hfollows⟩ | ⟨hnone, hfind, hnext⟩
  · rw [hfind, hnext]
    refine ⟨fun p hp => ?_, iff_of_true rfl hroute, iff_of_true rfl hroute⟩
    cases hp
    exact ⟨hfollows, second, hsecond, rfl⟩
  · rw [hfind, hnext]
    exact ⟨nofun, iff_of_false (by decide) hnone, iff_of_false (by decide) hnone⟩

end Route

/-- What the search answers around the corner of three cells. -/
def aroundCorner : Astar := fun _ _ _ _ => some ([⟨0, 1⟩, ⟨0, 0⟩, ⟨1, 0⟩], 2)

theorem astarFindsFor_aroundCorner :
    AstarFindsFor (fourCells .empty .empty .empty .BLOCK) .byDefault ⟨1 / 2, 3 / 2⟩ ⟨3 / 2, 1 / 2⟩ aroundCorner := by
  intro startCell goalCell hs hg radius hradius
  obtain rfl : ⟨0, 1⟩ = startCell := Option.some.inj ((by decide +kernel : _ = some (GridCell.mk 0 1)).symm.trans hs)
  obtain rfl : ⟨1, 0⟩ = goalCell := Option.some.inj ((by decide +kernel : _ = some (GridCell.mk 1 0)).symm.trans hg)
  obtain rfl : 20 = radius := Option.some.inj ((by decide +kernel : _ = some 20).symm.trans hradius)
  refine ⟨fun path cost h => ?_, nofun⟩
  cases h
  exact ⟨rfl, .cons_cons ⟨1, by decide +kernel⟩ (.cons_cons ⟨1, by decide +kernel⟩ (.singleton _)), _, rfl,
    by decide +kernel⟩

/-- From the upper left to the lower right, past a blocked cell at the upper right, by the center of the lower left. -/
theorem find_path_correct_aroundCorner : ∃ nav,
    MapNavigator.new (fourCells .empty .empty .empty .BLOCK).terrain 4 = .returned nav ∧
      nav.findPath aroundCorner ⟨1 / 2, 3 / 2⟩ ⟨3 / 2, 1 / 2⟩ =
        some ⟨[⟨0, 1⟩, ⟨0, 0⟩, ⟨1, 0⟩], [⟨1 / 2, 3 / 2⟩, ⟨1 / 2, 1 / 2⟩, ⟨3 / 2, 1 / 2⟩]⟩ ∧
      nav.nextWaypoint aroundCorner ⟨1 / 2, 3 / 2⟩ ⟨3 / 2, 1 / 2⟩ = some ⟨1 / 2, 1 / 2⟩ ∧
      RouteExists (fourCells .empty .empty .empty .BLOCK) .byDefault ⟨1 / 2, 3 / 2⟩ ⟨3 / 2, 1 / 2⟩ := by
  refine ⟨⟨fourCells .empty .empty .empty .BLOCK, ⟨2, 2, [1, 1, 1, 0]⟩⟩, rfl, by decide +kernel, by decide +kernel, ?_⟩
  have hnew : MapNavigator.new (fourCells .empty .empty .empty .BLOCK).terrain 4 =
    .returned ⟨fourCells .empty .empty .empty .BLOCK, ⟨2, 2, [1, 1, 1, 0]⟩⟩ := rfl
  exact (find_path_correct hnew astarFindsFor_aroundCorner).2.1.1 (by decide +kernel)

end Zohar.Nav
