/-
Which cells of the terrain can be reached from which: the reachability grid labels every walkable cell with the number
of its component. From zohar-sim/src/navigation/reachability.rs and grid.rs. Labels are 8 bits wide, with zero for no
label.
-/
import Zohar.Lib.Flood
import Zohar.Nav.Segment

namespace Zohar.Nav

open Zohar.Lib

/-! ## Cells -/

/-- `checked_add` on `usize`. -/
def checkedAddUsize (a b : Nat) : Option Nat := if a + b < 2 ^ 64 then some (a + b) else none

/-- `checked_sub` on `usize`. -/
def checkedSubUsize (a b : Nat) : Option Nat := if b ≤ a then some (a - b) else none

/-- `checked_add` on `u8`. -/
def checkedAddU8 (a b : Nat) : Option Nat := if a + b ≤ 255 then some (a + b) else none

namespace TerrainFlagsGrid

def allCells (g : TerrainFlagsGrid) : List GridCell :=
  (List.range g.height).flatMap fun y => (List.range g.width).map fun x => ⟨x, y⟩

def neighbors4 (g : TerrainFlagsGrid) (cell : GridCell) : List GridCell :=
  ([(checkedSubUsize cell.x 1).map fun x => GridCell.mk x cell.y,
    (checkedAddUsize cell.x 1).map fun x => GridCell.mk x cell.y,
    (checkedSubUsize cell.y 1).map fun y => GridCell.mk cell.x y,
    (checkedAddUsize cell.y 1).map fun y => GridCell.mk cell.x y].filterMap id).filter fun neighbor =>
    g.containsCell neighbor

variable {g : TerrainFlagsGrid}

theorem containsCell_iff {cell : GridCell} : g.containsCell cell = true ↔ cell.x < g.width ∧ cell.y < g.height := by
  simp [containsCell]

theorem mem_allCells {cell : GridCell} : cell ∈ g.allCells ↔ g.containsCell cell = true := by
  rw [allCells, containsCell_iff, List.mem_flatMap]
  constructor
  · rintro ⟨y, hy, hmem⟩
    obtain ⟨x, hx, rfl⟩ := List.mem_map.1 hmem
    exact ⟨List.mem_range.1 hx, List.mem_range.1 hy⟩
  · rintro ⟨hx, hy⟩
    exact ⟨cell.y, List.mem_range.2 hy, List.mem_map.2 ⟨cell.x, List.mem_range.2 hx, rfl⟩⟩

theorem length_allCells : g.allCells.length = g.width * g.height := by
  simp [allCells, List.length_flatMap, Nat.mul_comm]

end TerrainFlagsGrid

/-- The cells share an edge. -/
def EdgeAdjacent (a b : GridCell) : Prop :=
  (a.y = b.y ∧ (a.x + 1 = b.x ∨ b.x + 1 = a.x)) ∨ (a.x = b.x ∧ (a.y + 1 = b.y ∨ b.y + 1 = a.y))

theorem EdgeAdjacent.symm {a b : GridCell} (h : EdgeAdjacent a b) : EdgeAdjacent b a := by
  unfold EdgeAdjacent at *
  omega

theorem TerrainFlagsGrid.mem_neighbors4 {g : TerrainFlagsGrid} {a b : GridCell} (ha : g.containsCell a = true) :
    b ∈ g.neighbors4 a ↔ EdgeAdjacent a b ∧ g.containsCell b = true := by
  obtain ⟨hx, hy⟩ := containsCell_iff.1 ha
  have hw := g.width_lt
  have hh := g.height_lt
  unfold sliceLimit at hw hh
  obtain ⟨ax, ay⟩ := a
  obtain ⟨bx, byy⟩ := b
  simp only at hx hy
  rw [neighbors4, List.mem_filter]
  refine and_congr_left fun _ => ?_
  simp only [checkedSubUsize, checkedAddUsize, EdgeAdjacent, List.mem_filterMap, List.mem_cons,
    List.not_mem_nil, or_false,
    id, exists_eq_right]
  rw [if_pos (show ax + 1 < 2 ^ 64 by omega), if_pos (show ay + 1 < 2 ^ 64 by omega)]
  constructor
  · rintro (h | h | h | h)
    · split at h
      · rename_i hle
        cases h
        exact .inl ⟨rfl, .inr (Nat.sub_add_cancel hle)⟩
      · cases h
    · cases h
      exact .inl ⟨rfl, .inl rfl⟩
    · split at h
      · rename_i hle
        cases h
        exact .inr ⟨rfl, .inr (Nat.sub_add_cancel hle)⟩
      · cases h
    · cases h
      exact .inr ⟨rfl, .inl rfl⟩
  · rintro (⟨rfl, rfl | rfl⟩ | ⟨rfl, rfl | rfl⟩)
    · exact .inr (.inl rfl)
    · refine .inl ?_
      rw [if_pos (by omega)]
      rfl
    · exact .inr (.inr (.inr rfl))
    · refine .inr (.inr (.inl ?_))
      rw [if_pos (by omega)]
      rfl

/-! ## The labels -/

/-- How a computation ends that can panic or still be running. -/
inductive Outcome (α : Type) where
  | returned (a : α)
  | panicked
  | running
  deriving DecidableEq

def Outcome.andThen {α β : Type} (f : α → Outcome β) : Outcome α → Outcome β
  | .returned a => f a
  | .panicked => .panicked
  | .running => .running

def unassignedComponent : Nat := 0

/-- The labels of a grid underway, row-major, and the history of the cells that were labelled. -/
structure Components where
  labels : List Nat
  history : List GridCell
  deriving DecidableEq

/-- `components[idx] = id`, for `cell` at this index. -/
def Components.assign (c : Components) (cell : GridCell) (idx id : Nat) : Option Components :=
  if idx < c.labels.length then some ⟨c.labels.set idx id, c.history ++ [cell]⟩ else none

/-- The neighbours of one cell: `none` where an index is out of bounds. -/
def visitNeighbors (w : WalkabilityView) (componentId : Nat) :
    Components → List GridCell → List GridCell → Option (Components × List GridCell)
  | c, queue, [] => some (c, queue)
  | c, queue, neighbor :: rest =>
    (w.terrain.indexOf neighbor).bind fun neighborIdx =>
      (c.labels[neighborIdx]?).bind fun label =>
        if label ≠ unassignedComponent ∨ w.isWalkableCell neighbor = false then
          visitNeighbors w componentId c queue rest
        else (c.assign neighbor neighborIdx componentId).bind fun c =>
          visitNeighbors w componentId c (queue ++ [neighbor]) rest

def floodLoop (w : WalkabilityView) (componentId : Nat) : Nat → Components → List GridCell → Outcome Components
  | _, c, [] => .returned c
  | 0, _, _ :: _ => .running
  | fuel + 1, c, current :: queue =>
    match visitNeighbors w componentId c queue (w.terrain.neighbors4 current) with
    | none => .panicked
    | some (c, queue) => floodLoop w componentId fuel c queue

def floodFillComponent (w : WalkabilityView) (fuel : Nat) (c : Components) (seed : GridCell) (componentId : Nat) :
    Outcome Components :=
  match (w.terrain.indexOf seed).bind fun seedIdx => c.assign seed seedIdx componentId with
  | none => .panicked
  | some c => floodLoop w componentId fuel c [seed]

/-- The loop over the cells. The next id is computed after each fill, also after the last one. -/
def labelCells (w : WalkabilityView) (fuel : Nat) : Components → Nat → List GridCell → Outcome Components
  | c, _, [] => .returned c
  | c, nextComponentId, cell :: cells =>
    match (w.terrain.indexOf cell).bind fun idx => c.labels[idx]? with
    | none => .panicked
    | some label =>
      if label ≠ unassignedComponent ∨ w.isWalkableCell cell = false then labelCells w fuel c nextComponentId cells
      else (floodFillComponent w fuel c cell nextComponentId).andThen fun c =>
        match checkedAddU8 nextComponentId 1 with
        | none => .panicked
        | some nextComponentId => labelCells w fuel c nextComponentId cells

structure ReachabilityGrid where
  width : Nat
  height : Nat
  components : List Nat

namespace ReachabilityGrid

/-- `ReachabilityGrid::new` with the history of its labelling; every search runs for at most `fuel` cells. -/
def new (w : WalkabilityView) (fuel : Nat) : Outcome (ReachabilityGrid × List GridCell) :=
  (labelCells w fuel ⟨List.replicate (w.terrain.width * w.terrain.height) unassignedComponent, []⟩ 1
    w.terrain.allCells).andThen fun c => .returned (⟨w.terrain.width, w.terrain.height, c.labels⟩, c.history)

/-- An index out of bounds would panic; it is `none` here. -/
def componentForCell (r : ReachabilityGrid) (cell : GridCell) : Option Nat :=
  if cell.x ≥ r.width ∨ cell.y ≥ r.height then none
  else (r.components[cell.y * r.width + cell.x]?).bind fun component =>
    if component ≠ unassignedComponent then some component else none

def sameComponent (r : ReachabilityGrid) (start goal : GridCell) : Bool :=
  match r.componentForCell start, r.componentForCell goal with
  | some startComponent, some goalComponent => startComponent == goalComponent
  | _, _ => false

end ReachabilityGrid

/-! ## The labels as a painting -/

section Painting

variable {w : WalkabilityView}

theorem TerrainFlagsGrid.indexOf_eq_some_iff {g : TerrainFlagsGrid} {cell : GridCell} {i : Nat} :
    g.indexOf cell = some i ↔ g.containsCell cell = true ∧ cell.y * g.width + cell.x = i := by
  unfold indexOf
  split
  · rename_i h
    simp [h]
  · rename_i h
    simp [h]

theorem TerrainFlagsGrid.indexOf_lt {g : TerrainFlagsGrid} {cell : GridCell} {i : Nat} (h : g.indexOf cell = some i) :
    i < g.width * g.height := by
  obtain ⟨hin, rfl⟩ := indexOf_eq_some_iff.1 h
  obtain ⟨hx, hy⟩ := containsCell_iff.1 hin
  calc cell.y * g.width + cell.x < cell.y * g.width + g.width := by omega
    _ = (cell.y + 1) * g.width := by ring
    _ ≤ g.height * g.width := Nat.mul_le_mul_right _ hy
    _ = g.width * g.height := Nat.mul_comm _ _

/-- Cells have an index each. -/
theorem TerrainFlagsGrid.indexOf_inj {g : TerrainFlagsGrid} {a b : GridCell} {i : Nat} (ha : g.indexOf a = some i)
    (hb : g.indexOf b = some i) : a = b := by
  obtain ⟨hina, ha⟩ := indexOf_eq_some_iff.1 ha
  obtain ⟨hinb, hb⟩ := indexOf_eq_some_iff.1 hb
  obtain ⟨hax, -⟩ := containsCell_iff.1 hina
  obtain ⟨hbx, -⟩ := containsCell_iff.1 hinb
  have hx : a.x = b.x := by
    have h := congrArg (· % g.width) (ha.trans hb.symm)
    simpa [Nat.mul_add_mod', Nat.mod_eq_of_lt hax, Nat.mod_eq_of_lt hbx] using h
  have hy : a.y = b.y := by
    have h : a.y * g.width = b.y * g.width := by omega
    exact Nat.eq_of_mul_eq_mul_right g.width_pos h
  cases a
  cases b
  simp only at hx hy
  rw [hx, hy]

variable (w) in
/-- As many labels as cells. -/
def Components.Sized (c : Components) : Prop := c.labels.length = w.terrain.width * w.terrain.height

variable (w) in
/-- The label of each cell; a cell outside the grid has none. -/
def Components.painting (c : Components) : Painting GridCell :=
  ⟨fun cell => ((w.terrain.indexOf cell).bind fun i => c.labels[i]?).getD unassignedComponent, c.history⟩

theorem Components.label_eq {c : Components} (hc : c.Sized w) {cell : GridCell} {i : Nat}
    (hi : w.terrain.indexOf cell = some i) : c.labels[i]? = some ((c.painting w).label cell) := by
  have hlt : i < c.labels.length := hc ▸ w.terrain.indexOf_lt hi
  simp only [painting, hi, Option.bind_some, List.getElem?_eq_getElem hlt, Option.getD_some]

theorem Components.assign_eq {c : Components} (hc : c.Sized w) {cell : GridCell} {i : Nat}
    (hi : w.terrain.indexOf cell = some i) (id : Nat) :
    ∃ c', c.assign cell i id = some c' ∧ c'.Sized w ∧ c'.painting w = (c.painting w).mark cell id := by
  have hlt : i < c.labels.length := hc ▸ w.terrain.indexOf_lt hi
  refine ⟨⟨c.labels.set i id, c.history ++ [cell]⟩, if_pos hlt, ?_, Painting.ext ?_ rfl⟩
  · exact (List.length_set ..).trans hc
  · funext other
    show ((w.terrain.indexOf other).bind fun j => (c.labels.set i id)[j]?).getD unassignedComponent =
      Function.update (c.painting w).label cell id other
    by_cases ho : other = cell
    · subst ho
      rw [Function.update_self, hi, Option.bind_some, List.getElem?_set_self hlt, Option.getD_some]
    · rw [Function.update_of_ne ho]
      cases hj : w.terrain.indexOf other with
      | none => simp [painting, hj]
      | some j =>
        have hne : i ≠ j := fun hij => ho (w.terrain.indexOf_inj hj (hij ▸ hi))
        simp [painting, hj, List.getElem?_set_ne hne]

theorem exists_indexOf {cell : GridCell} (h : w.terrain.containsCell cell = true) :
    ∃ i, w.terrain.indexOf cell = some i :=
  ⟨_, if_pos h⟩

theorem visitNeighbors_eq (id : Nat) :
    ∀ (neighbors : List GridCell) {c : Components} (queue : List GridCell), c.Sized w →
    (∀ cell ∈ neighbors, w.terrain.containsCell cell = true) →
    ∃ c', visitNeighbors w id c queue neighbors = some
      (c', (spread w.isWalkableCell id (c.painting w) queue neighbors).2) ∧
      c'.Sized w ∧ c'.painting w = (spread w.isWalkableCell id (c.painting w) queue neighbors).1
  | [], c, queue, hc, _ => ⟨c, rfl, hc, rfl⟩
  | cell :: rest, c, queue, hc, hin => by
    obtain ⟨i, hi⟩ := exists_indexOf (hin cell List.mem_cons_self)
    have hrest : ∀ cell ∈ rest, w.terrain.containsCell cell = true := fun a ha => hin a (List.mem_cons_of_mem _ ha)
    rw [visitNeighbors, spread, hi, Option.bind_some, Components.label_eq hc hi, Option.bind_some,
      unassignedComponent]
    by_cases hskip : (c.painting w).label cell ≠ 0 ∨ w.isWalkableCell cell = false
    · rw [if_pos hskip, if_pos hskip]
      exact visitNeighbors_eq id rest queue hc hrest
    · rw [if_neg hskip, if_neg hskip]
      obtain ⟨c', hassign, hc', hpaint⟩ := Components.assign_eq hc hi id
      rw [hassign, Option.bind_some, ← hpaint]
      exact visitNeighbors_eq id rest (queue ++ [cell]) hc' hrest

/-- The search over the labels is the search over the painting: neither panics, and they end together. -/
theorem floodLoop_eq (id : Nat) : ∀ (fuel : Nat) {c : Components} (queue : List GridCell), c.Sized w →
    (∃ c', floodLoop w id fuel c queue = .returned c' ∧ c'.Sized w ∧
      flood w.terrain.neighbors4 w.isWalkableCell id fuel (c.painting w) queue = some (c'.painting w)) ∨
    (floodLoop w id fuel c queue = .running ∧
      flood w.terrain.neighbors4 w.isWalkableCell id fuel (c.painting w) queue = none)
  | fuel, c, [], hc => by
    rw [floodLoop, flood]
    exact .inl ⟨c, rfl, hc, rfl⟩
  | 0, c, _ :: _, hc => .inr ⟨rfl, rfl⟩
  | fuel + 1, c, current :: queue, hc => by
    obtain ⟨c', hvisit, hc', hpaint⟩ := visitNeighbors_eq id (w.terrain.neighbors4 current) queue hc
      fun cell hcell => (List.mem_filter.1 hcell).2
    rw [floodLoop, flood, hvisit, ← hpaint]
    exact floodLoop_eq id fuel _ hc'

/-- The loop over the cells is that of the painting, as long as the labels suffice. -/
theorem labelCells_eq (fuel : Nat) : ∀ (cells : List GridCell) {c : Components} {next : Nat}, c.Sized w → next ≤ 255 →
    (∀ cell ∈ cells, w.terrain.containsCell cell = true) →
    match paintAll w.terrain.neighbors4 w.isWalkableCell fuel next (c.painting w) cells with
    | none => ∀ c', labelCells w fuel c next cells ≠ .returned c'
    | some (next', q) =>
      (next' ≤ 255 ∧ ∃ c', labelCells w fuel c next cells = .returned c' ∧ c'.Sized w ∧ c'.painting w = q) ∨
        (255 < next' ∧ labelCells w fuel c next cells = .panicked)
  | [], c, next, hc, hnext, _ => .inl ⟨hnext, c, rfl, hc, rfl⟩
  | cell :: cells, c, next, hc, hnext, hin => by
    obtain ⟨i, hi⟩ := exists_indexOf (hin cell List.mem_cons_self)
    have hrest : ∀ cell ∈ cells, w.terrain.containsCell cell = true := fun a ha => hin a (List.mem_cons_of_mem _ ha)
    rw [labelCells, paintAll, hi, Option.bind_some, Components.label_eq hc hi, unassignedComponent]
    dsimp only
    by_cases hskip : (c.painting w).label cell ≠ 0 ∨ w.isWalkableCell cell = false
    · rw [if_pos hskip, if_pos hskip]
      exact labelCells_eq fuel cells hc hnext hrest
    · rw [if_neg hskip, if_neg hskip, floodFillComponent, hi, Option.bind_some]
      obtain ⟨c', hassign, hc', hpaint⟩ := Components.assign_eq hc hi next
      rw [hassign, ← hpaint]
      dsimp only
      rcases floodLoop_eq next fuel [cell] hc' with ⟨d, hloop, hd, hflood⟩ | ⟨hloop, hflood⟩
      · rw [hloop, hflood, Option.bind_some]
        simp only [Outcome.andThen]
        by_cases hlast : next + 1 ≤ 255
        · rw [checkedAddU8, if_pos hlast]
          exact labelCells_eq fuel cells hd hlast hrest
        · rw [checkedAddU8, if_neg hlast]
          split
          · rintro c' ⟨⟩
          · rename_i hp
            have := paintAll_le cells hp
            exact .inr ⟨by omega, rfl⟩
      · rw [hloop, hflood]
        rintro c' ⟨⟩

end Painting

/-! ## Paths of walkable cells -/

section Paths

variable (w : WalkabilityView)

/-- Joined by a path of edge-adjacent walkable cells. -/
def Joined (a b : GridCell) : Prop :=
  Relation.ReflTransGen
    (fun c d => EdgeAdjacent c d ∧ w.isWalkableCell c = true ∧ w.isWalkableCell d = true) a b

/-- The components of the walkable cells. -/
def walkableComponents : Set (Set GridCell) := {s | ∃ c, w.isWalkableCell c = true ∧ s = {d | Joined w c d}}

variable {w}

theorem containsCell_of_isWalkableCell {cell : GridCell} (h : w.isWalkableCell cell = true) :
    w.terrain.containsCell cell = true :=
  TerrainFlagsGrid.containsCell_iff.2 (WalkabilityView.contains_of_isWalkableCell h)

theorem floodEdge_iff (a b : GridCell) : FloodEdge w.terrain.neighbors4 w.isWalkableCell a b ↔
    EdgeAdjacent a b ∧ w.isWalkableCell a = true ∧ w.isWalkableCell b = true := by
  constructor
  · rintro ⟨ha, hb, hadj⟩
    exact ⟨((TerrainFlagsGrid.mem_neighbors4 (containsCell_of_isWalkableCell ha)).1 hadj).1, ha, hb⟩
  · rintro ⟨hadj, ha, hb⟩
    exact ⟨ha, hb, (TerrainFlagsGrid.mem_neighbors4 (containsCell_of_isWalkableCell ha)).2
      ⟨hadj, containsCell_of_isWalkableCell hb⟩⟩

theorem floodConnected_iff (a b : GridCell) :
    FloodConnected w.terrain.neighbors4 w.isWalkableCell a b ↔ Joined w a b := by
  have h : FloodEdge w.terrain.neighbors4 w.isWalkableCell =
      fun c d => EdgeAdjacent c d ∧ w.isWalkableCell c = true ∧ w.isWalkableCell d = true := by
    funext c d
    exact propext (floodEdge_iff c d)
  unfold FloodConnected Joined
  rw [h]

theorem floodSymmetric : FloodSymmetric w.terrain.neighbors4 w.isWalkableCell := by
  intro a b h
  obtain ⟨hadj, ha, hb⟩ := (floodEdge_iff a b).1 h
  exact (floodEdge_iff b a).2 ⟨hadj.symm, hb, ha⟩

theorem floodComponents_eq : floodComponents w.terrain.neighbors4 w.isWalkableCell = walkableComponents w := by
  unfold floodComponents walkableComponents
  simp only [floodConnected_iff]

end Paths

/-! ## Reachability is exact -/

section Exact

variable {w : WalkabilityView}

variable (w) in
theorem sized_replicate :
    Components.Sized w ⟨List.replicate (w.terrain.width * w.terrain.height) unassignedComponent, []⟩ :=
  List.length_replicate

theorem painting_replicate :
    Components.painting w ⟨List.replicate (w.terrain.width * w.terrain.height) unassignedComponent, []⟩ = .blank := by
  refine Painting.ext ?_ rfl
  funext cell
  show ((w.terrain.indexOf cell).bind fun i =>
    (List.replicate (w.terrain.width * w.terrain.height) unassignedComponent)[i]?).getD unassignedComponent = 0
  cases hi : w.terrain.indexOf cell with
  | none => rfl
  | some i =>
    rw [Option.bind_some, List.getElem?_replicate, if_pos (w.terrain.indexOf_lt hi)]
    rfl

/-- With as many steps as there are cells no search is left running, and all cells that can be entered are in the
list. -/
theorem exists_paintAll {fuel : Nat} (hfuel : w.terrain.width * w.terrain.height ≤ fuel) :
    ∃ next q, paintAll w.terrain.neighbors4 w.isWalkableCell fuel 1 Painting.blank w.terrain.allCells =
      some (next, q) := by
  have hdom : ∀ cell, w.isWalkableCell cell = true → cell ∈ w.terrain.allCells.toFinset := by
    intro cell hcell
    exact List.mem_toFinset.2 (TerrainFlagsGrid.mem_allCells.2 (containsCell_of_isWalkableCell hcell))
  have hcard : w.terrain.allCells.toFinset.card ≤ fuel :=
    ((List.toFinset_card_le _).trans TerrainFlagsGrid.length_allCells.le).trans hfuel
  obtain ⟨⟨next, q⟩, h⟩ := Option.isSome_iff_exists.1
    (paintAll_isSome w.terrain.neighbors4 _ hdom hcard w.terrain.allCells Painting.blank one_ne_zero)
  exact ⟨next, q, h⟩

/-- How the construction ends: with the painting of all components, or in a panic if that needs more than 255 next
ids. -/
theorem ReachabilityGrid.new_cases {fuel next : Nat} {q : Painting GridCell}
    (h : paintAll w.terrain.neighbors4 w.isWalkableCell fuel 1 Painting.blank w.terrain.allCells = some (next, q)) :
    Painted w.terrain.neighbors4 w.isWalkableCell next q ∧ (∀ cell, w.isWalkableCell cell = true → q.label cell ≠ 0) ∧
      ((next ≤ 255 ∧ ∃ c : Components, new w fuel =
        .returned (⟨w.terrain.width, w.terrain.height, c.labels⟩, c.history) ∧
        c.Sized w ∧ c.painting w = q) ∨ (255 < next ∧ new w fuel = .panicked)) := by
  obtain ⟨hpainted, hall, _⟩ := Painted.of_paintAll floodSymmetric _ one_ne_zero painted_blank h
  have hcells : ∀ cell ∈ w.terrain.allCells, w.terrain.containsCell cell = true :=
    fun cell hcell => TerrainFlagsGrid.mem_allCells.1 hcell
  have hloop := labelCells_eq fuel w.terrain.allCells (sized_replicate w) (by decide : 1 ≤ 255) hcells
  rw [painting_replicate, h] at hloop
  refine ⟨hpainted, fun cell hcell =>
    hall cell (TerrainFlagsGrid.mem_allCells.2 (containsCell_of_isWalkableCell hcell)) hcell, ?_⟩
  rcases hloop with ⟨hnext, c, hc, hsized, hpaint⟩ | ⟨hnext, hc⟩
  · refine .inl ⟨hnext, c, ?_, hsized, hpaint⟩
    rw [new, hc]
    rfl
  · refine .inr ⟨hnext, ?_⟩
    rw [new, hc]
    rfl

/-- A construction that returned has painted all components. -/
theorem ReachabilityGrid.exists_paintAll_of_new {fuel : Nat} {r : ReachabilityGrid} {history : List GridCell}
    (h : new w fuel = .returned (r, history)) : ∃ next q,
    paintAll w.terrain.neighbors4 w.isWalkableCell fuel 1 Painting.blank w.terrain.allCells = some (next, q) := by
  cases hp : paintAll w.terrain.neighbors4 w.isWalkableCell fuel 1 Painting.blank w.terrain.allCells with
  | some res => exact ⟨res.1, res.2, rfl⟩
  | none =>
    have hcells : ∀ cell ∈ w.terrain.allCells, w.terrain.containsCell cell = true :=
      fun cell hcell => TerrainFlagsGrid.mem_allCells.1 hcell
    have hloop := labelCells_eq fuel w.terrain.allCells (sized_replicate w) (by decide : 1 ≤ 255) hcells
    rw [painting_replicate, hp] at hloop
    rw [new] at h
    cases hl : labelCells w fuel ⟨List.replicate (w.terrain.width * w.terrain.height) unassignedComponent, []⟩ 1
        w.terrain.allCells with
    | returned c => exact absurd hl (hloop c)
    | panicked => rw [hl] at h; cases h
    | running => rw [hl] at h; cases h

theorem ReachabilityGrid.componentForCell_eq {c : Components} (hc : c.Sized w) (cell : GridCell) :
    componentForCell ⟨w.terrain.width, w.terrain.height, c.labels⟩ cell =
      if (c.painting w).label cell ≠ 0 then some ((c.painting w).label cell) else none := by
  unfold componentForCell
  dsimp only
  by_cases hin : w.terrain.containsCell cell = true
  · obtain ⟨hx, hy⟩ := TerrainFlagsGrid.containsCell_iff.1 hin
    rw [if_neg (by omega), Components.label_eq hc (if_pos hin), Option.bind_some]
    rfl
  · have hout : ¬ (cell.x < w.terrain.width ∧ cell.y < w.terrain.height) :=
      fun h => hin (TerrainFlagsGrid.containsCell_iff.2 h)
    have hzero : (c.painting w).label cell = 0 := by
      show ((w.terrain.indexOf cell).bind fun i => c.labels[i]?).getD unassignedComponent = 0
      rw [TerrainFlagsGrid.indexOf, if_neg hin]
      rfl
    rw [if_pos (by omega), hzero, if_neg (not_not.2 rfl)]

/-- Two cells of a component are walkable and joined, and the other way round. -/
theorem ReachabilityGrid.sameComponent_eq_true_iff {c : Components} (hc : c.Sized w) {next : Nat}
    (hp : Painted w.terrain.neighbors4 w.isWalkableCell next (c.painting w))
    (hall : ∀ cell, w.isWalkableCell cell = true → (c.painting w).label cell ≠ 0) (a b : GridCell) :
    sameComponent ⟨w.terrain.width, w.terrain.height, c.labels⟩ a b = true ↔
      w.isWalkableCell a = true ∧ w.isWalkableCell b = true ∧ Joined w a b := by
  have hlabel : sameComponent ⟨w.terrain.width, w.terrain.height, c.labels⟩ a b = true ↔
      (c.painting w).label a ≠ 0 ∧ (c.painting w).label b = (c.painting w).label a := by
    unfold sameComponent
    rw [componentForCell_eq hc, componentForCell_eq hc]
    by_cases ha : (c.painting w).label a = 0
    · simp [ha]
    · by_cases hb : (c.painting w).label b = 0
      · simp [ha, hb, Ne.symm ha]
      · rw [if_pos ha, if_pos hb]
        exact beq_iff_eq.trans ⟨fun h => ⟨ha, h.symm⟩, fun h => h.2.symm⟩
  rw [hlabel]
  constructor
  · rintro ⟨ha, hab⟩
    exact ⟨hp.enterable a ha, hp.enterable b (hab ▸ ha), (floodConnected_iff a b).1 ((hp.same a b ha).1 hab)⟩
  · rintro ⟨ha, _, hjoined⟩
    exact ⟨hall a ha, (hp.same a b (hall a ha)).2 ((floodConnected_iff a b).2 hjoined)⟩

theorem ReachabilityGrid.sameComponent_of_new {fuel : Nat} {r : ReachabilityGrid} {history : List GridCell}
    (h : new w fuel = .returned (r, history)) (a b : GridCell) :
    r.sameComponent a b = true ↔ w.isWalkableCell a = true ∧ w.isWalkableCell b = true ∧ Joined w a b := by
  obtain ⟨next, q, hpaint⟩ := exists_paintAll_of_new h
  obtain ⟨hp, hall, ⟨_, c, hc, hsized, rfl⟩ | ⟨_, hc⟩⟩ := new_cases hpaint
  · rw [hc] at h
    cases h
    exact sameComponent_eq_true_iff hsized hp hall a b
  · rw [hc] at h
    cases h

/-- The construction never stops in the middle of a search, with as many steps as there are cells. -/
theorem ReachabilityGrid.new_ne_running {fuel : Nat} (hfuel : w.terrain.width * w.terrain.height ≤ fuel) :
    new w fuel ≠ .running := by
  obtain ⟨next, q, hpaint⟩ := exists_paintAll hfuel
  intro hrun
  obtain ⟨_, _, ⟨_, c, hc, _⟩ | ⟨_, hc⟩⟩ := new_cases hpaint
  · rw [hc] at hrun
    cases hrun
  · rw [hc] at hrun
    cases hrun

/-- The fill has labelled the walkable cells and no others, each once. -/
theorem ReachabilityGrid.history_of_new {fuel : Nat} {r : ReachabilityGrid} {history : List GridCell}
    (h : new w fuel = .returned (r, history)) :
    history.Nodup ∧ ∀ cell, cell ∈ history ↔ w.isWalkableCell cell = true := by
  obtain ⟨next, q, hpaint⟩ := exists_paintAll_of_new h
  obtain ⟨hp, hall, ⟨_, c, hc, hsized, rfl⟩ | ⟨_, hc⟩⟩ := new_cases hpaint
  · rw [hc] at h
    cases h
    refine ⟨hp.nodup, fun cell => ?_⟩
    rw [← show (c.painting w).order = c.history from rfl, hp.mem_order]
    exact ⟨hp.enterable cell, hall cell⟩
  · rw [hc] at h
    cases h

/-- Where the construction returned, two cells are in one component exactly if both are walkable and joined by a path of
edge-adjacent walkable cells, and the fill has labelled the walkable cells and no others, each once. With as many steps
as the grid has cells no fill is left running, on any grid. -/
theorem reachability_exact {w : WalkabilityView} {fuel : Nat} {r : ReachabilityGrid} {history : List GridCell}
    (h : ReachabilityGrid.new w fuel = .returned (r, history)) :
    (∀ a b, r.sameComponent a b = true ↔ w.isWalkableCell a = true ∧ w.isWalkableCell b = true ∧ Joined w a b) ∧
      history.Nodup ∧ (∀ cell, cell ∈ history ↔ w.isWalkableCell cell = true) ∧
      ∀ (w' : WalkabilityView) (fuel' : Nat), w'.terrain.width * w'.terrain.height ≤ fuel' →
        ReachabilityGrid.new w' fuel' ≠ .running := by
  obtain ⟨hnodup, hmem⟩ := ReachabilityGrid.history_of_new h
  refine ⟨ReachabilityGrid.sameComponent_of_new h, hnodup, hmem, ?_⟩
  intro w' fuel' hfuel
  exact ReachabilityGrid.new_ne_running hfuel

end Exact

/-- Three by three cells of one metre with a wall between the left and the right. -/
def walledCells : WalkabilityView :=
  ⟨⟨1, 1, 3, 3, [.empty, .BLOCK, .empty, .empty, .BLOCK, .empty, .empty, .BLOCK, .empty], by decide,
    inv_one.symm, by decide,
    by decide, rfl, show 9 < sliceLimit by decide⟩⟩

theorem reachability_exact_walledCells :
    ∃ r history, ReachabilityGrid.new walledCells 9 = .returned (r, history) ∧ history.Nodup ∧
      ∀ a b, r.sameComponent a b = true ↔
        walledCells.isWalkableCell a = true ∧ walledCells.isWalkableCell b = true ∧ Joined walledCells a b := by
  have hreturns : (match ReachabilityGrid.new walledCells 9 with
    | .returned _ => true
    | _ => false) = true := by decide +kernel
  cases h : ReachabilityGrid.new walledCells 9 with
  | returned res =>
    obtain ⟨r, history⟩ := res
    obtain ⟨hsame, hnodup, _⟩ := reachability_exact h
    exact ⟨r, history, rfl, hnodup, hsame⟩
  | panicked => rw [h] at hreturns; cases hreturns
  | running => rw [h] at hreturns; cases hreturns

/-! ## How many components the ids suffice for -/

/-- The construction returns, whatever bound on its searches of at least the number of cells, and every walkable cell
has a label that is not the marker of blocked cells. -/
def IdsSuffice (w : WalkabilityView) : Prop :=
  ∀ fuel, w.terrain.width * w.terrain.height ≤ fuel → ∃ r history,
    ReachabilityGrid.new w fuel = .returned (r, history) ∧
    ∀ cell, w.isWalkableCell cell = true → ∃ id, r.componentForCell cell = some id ∧ id ≠ unassignedComponent

/-- The ids suffice for up to 254 components: one less than there are, as the id after the last one is computed too. -/
theorem idsSuffice_iff (w : WalkabilityView) : IdsSuffice w ↔ (walkableComponents w).ncard ≤ 254 := by
  obtain ⟨next, q, hpaint⟩ := exists_paintAll (w := w) le_rfl
  obtain ⟨hp, hall, hcases⟩ := ReachabilityGrid.new_cases hpaint
  have hncard := hp.ncard_components hall
  rw [floodComponents_eq] at hncard
  constructor
  · intro h
    obtain ⟨r, history, hnew, _⟩ := h _ le_rfl
    rcases hcases with ⟨hnext, _⟩ | ⟨_, hpanic⟩
    · omega
    · rw [hpanic] at hnew
      cases hnew
  · intro hle fuel hfuel
    obtain ⟨next', q', hpaint'⟩ := exists_paintAll (w := w) hfuel
    obtain ⟨hp', hall', hcases'⟩ := ReachabilityGrid.new_cases hpaint'
    have hncard' := hp'.ncard_components hall'
    rw [floodComponents_eq] at hncard'
    rcases hcases' with ⟨_, c, hnew, hsized, rfl⟩ | ⟨hlarge, _⟩
    · refine ⟨_, _, hnew, fun cell hcell => ⟨_, ?_, hall' cell hcell⟩⟩
      rw [ReachabilityGrid.componentForCell_eq hsized, if_pos (hall' cell hcell)]
    · omega

/-- Up to the 255 components that the message and the storage of the ids speak of, the ids suffice exactly if there are
not 255 of them. -/
theorem component_ids_suffice_iff (w : WalkabilityView) :
    ((walkableComponents w).ncard ≤ 255 → IdsSuffice w) ↔ (walkableComponents w).ncard ≠ 255 := by
  rw [idsSuffice_iff]
  omega

/-- A strip of cells, every other one blocked. -/
def stripedCells (length : Nat) (hpos : 0 < length) (hlt : length < sliceLimit) : WalkabilityView where
  terrain := {
    cellSizeM := 1
    invCellSizeM := 1
    width := length
    height := 1
    flags := (List.range length).map fun i => if i % 2 = 0 then .empty else .BLOCK
    cellSize_pos := by decide
    inv_eq := inv_one.symm
    width_pos := hpos
    height_pos := Nat.one_pos
    length_eq := by rw [List.length_map, List.length_range, Nat.mul_one]
    length_lt := by rwa [List.length_map, List.length_range] }

section Stripes

variable {length : Nat} {hpos : 0 < length} {hlt : length < sliceLimit}

theorem isWalkableCell_stripedCells (cell : GridCell) : (stripedCells length hpos hlt).isWalkableCell cell = true ↔
    cell.x < length ∧ cell.y = 0 ∧ cell.x % 2 = 0 := by
  rw [WalkabilityView.isWalkableCell, TerrainFlagsGrid.flagsAt, TerrainFlagsGrid.indexOf]
  by_cases hin : (stripedCells length hpos hlt).terrain.containsCell cell = true
  · obtain ⟨hx, hy⟩ := TerrainFlagsGrid.containsCell_iff.1 hin
    have hx' : cell.x < length := hx
    have hy' : cell.y = 0 := Nat.lt_one_iff.1 hy
    have hflags : (stripedCells length hpos hlt).terrain.flags[cell.x]? =
        some (if cell.x % 2 = 0 then .empty else .BLOCK) := by
      rw [stripedCells, List.getElem?_map, List.getElem?_range hx', Option.map_some]
    rw [if_pos hin, Option.bind_some, hy', Nat.zero_mul, Nat.zero_add, hflags, Option.any_some]
    by_cases heven : cell.x % 2 = 0
    · rw [if_pos heven]
      exact iff_of_true rfl ⟨hx', rfl, heven⟩
    · rw [if_neg heven]
      exact iff_of_false (by decide) fun h => heven h.2.2
  · rw [if_neg hin]
    refine iff_of_false (by simp) fun h => hin (TerrainFlagsGrid.containsCell_iff.2 ⟨h.1, ?_⟩)
    show cell.y < 1
    omega

/-- Every walkable cell of the strip is a component of its own. -/
theorem ncard_stripedCells : (walkableComponents (stripedCells length hpos hlt)).ncard = (length + 1) / 2 := by
  have hedge : ∀ a b, ¬ FloodEdge (stripedCells length hpos hlt).terrain.neighbors4
      (stripedCells length hpos hlt).isWalkableCell a b := by
    intro a b h
    obtain ⟨hadj, ha, hb⟩ := (floodEdge_iff a b).1 h
    rw [isWalkableCell_stripedCells] at ha hb
    unfold EdgeAdjacent at hadj
    omega
  have hcells : {cell | (stripedCells length hpos hlt).isWalkableCell cell = true} =
      (fun k => GridCell.mk (2 * k) 0) '' Set.Iio ((length + 1) / 2) := by
    ext cell
    rw [Set.mem_ofPred_eq, isWalkableCell_stripedCells]
    constructor
    · rintro ⟨hx, hy, heven⟩
      obtain ⟨x, y⟩ := cell
      simp only at hx hy heven
      refine ⟨x / 2, Set.mem_Iio.2 (by omega), ?_⟩
      simp only [GridCell.mk.injEq]
      omega
    · rintro ⟨k, hk, rfl⟩
      have hk' : k < (length + 1) / 2 := hk
      exact ⟨show 2 * k < length by omega, rfl, show 2 * k % 2 = 0 by omega⟩
  have hinj : Function.Injective fun k => GridCell.mk (2 * k) 0 := by
    intro a b h
    simp only [GridCell.mk.injEq, and_true] at h
    omega
  rw [← floodComponents_eq, floodComponents_eq_singletons hedge, Set.singleton_injective.injOn.ncard_image, hcells,
    hinj.injOn.ncard_image, Set.ncard_eq_toFinset_card', Set.toFinset_Iio, Nat.card_Iio]

end Stripes

/-- With 255 components the construction panics: there is no id after the last one. -/
theorem component_ids_exceeded :
    (walkableComponents (stripedCells 509 (by decide) (by decide))).ncard ≤ 255 ∧
      ¬ IdsSuffice (stripedCells 509 (by decide) (by decide)) := by
  rw [idsSuffice_iff, ncard_stripedCells]
  decide

end Zohar.Nav
