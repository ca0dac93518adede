/-
How a walk over the walkable cells ends: it leaves the grid after at most as many steps as the grid is wide and high, so
that it comes to the goal cell or to a cell that cannot be entered. In the second case it reports the first time at
which such a cell is asked for.
-/
import Zohar.Nav.Clear

namespace Zohar.Nav

open Zohar.Lib

variable {g : TerrainFlagsGrid} {w : WalkabilityView} {start goal : LocalPos} {r : GridRay Rat} {s : SegmentTraversal}
  {allowCell : GridCell → Bool} {startCell goalCell : GridCell}

/-! ## The loop -/

/-- A loop that is still running has been allowed into every cell so far. -/
theorem Tracks.traceLoop_none : ∀ {fuel m : Nat} {s : SegmentTraversal}, Tracks r s (walkAt r m) →
    SegmentTraversal.traceLoop allowCell fuel s = none →
    cursorAt r (walkAt r m) ≠ cursorAt r r.last ∧
      ∀ k < fuel, ∀ cell ∈ enteredAt r (walkAt r (m + k)), allowCell cell = true
  | fuel, m, s, h, hnone => by
    unfold SegmentTraversal.traceLoop at hnone
    by_cases hthere : cursorAt r (walkAt r m) = cursorAt r r.last
    · rw [if_pos (h.reachedTarget_iff.2 hthere)] at hnone
      cases hnone
    · rw [if_neg ((not_congr h.reachedTarget_iff).2 hthere)] at hnone
      refine ⟨hthere, ?_⟩
      cases fuel with
      | zero => exact fun k hk => absurd hk (Nat.not_lt_zero k)
      | succ fuel =>
        obtain ⟨hnext, -, hentered⟩ := h.step
        rw [← walkAt_succ] at hnext
        dsimp only at hnone
        rw [hentered] at hnone
        cases hfind : (enteredAt r (walkAt r m)).find? fun cell => !allowCell cell with
        | some cell => rw [hfind] at hnone; cases hnone
        | none =>
          rw [hfind] at hnone
          intro k hk
          cases k with
          | zero =>
            intro cell hcell
            simpa using List.find?_eq_none.1 hfind cell hcell
          | succ k =>
            have hrest := (Tracks.traceLoop_none hnext hnone).2 k (Nat.lt_of_succ_lt_succ hk)
            rwa [Nat.add_assoc, Nat.add_comm 1 k] at hrest

/-- A loop that is blocked reports the first step that asks for a cell that is not allowed. -/
theorem Tracks.traceLoop_blocked {cell : GridCell} {t : Time} : ∀ {fuel m : Nat} {s : SegmentTraversal},
    Tracks r s (walkAt r m) → SegmentTraversal.traceLoop allowCell fuel s = some (.blocked cell t) →
    ∃ k, (∀ j < k, ∀ c ∈ enteredAt r (walkAt r (m + j)), allowCell c = true) ∧
      cell ∈ enteredAt r (walkAt r (m + k)) ∧ allowCell cell = false ∧ t = nextTime r (walkAt r (m + k))
  | fuel, m, s, h, hblocked => by
    unfold SegmentTraversal.traceLoop at hblocked
    by_cases hthere : cursorAt r (walkAt r m) = cursorAt r r.last
    · rw [if_pos (h.reachedTarget_iff.2 hthere)] at hblocked
      cases hblocked
    · rw [if_neg ((not_congr h.reachedTarget_iff).2 hthere)] at hblocked
      cases fuel with
      | zero => cases hblocked
      | succ fuel =>
        obtain ⟨hnext, htime, hentered⟩ := h.step
        rw [← walkAt_succ] at hnext
        dsimp only at hblocked
        rw [hentered, htime] at hblocked
        cases hfind : (enteredAt r (walkAt r m)).find? fun cell => !allowCell cell with
        | some c =>
          rw [hfind] at hblocked
          cases hblocked
          exact ⟨0, fun j hj => absurd hj (Nat.not_lt_zero j), List.mem_of_find?_eq_some hfind,
            by simpa using List.find?_some hfind, rfl⟩
        | none =>
          rw [hfind] at hblocked
          obtain ⟨k, hall, hcell, hbad, ht⟩ := Tracks.traceLoop_blocked hnext hblocked
          rw [Nat.add_assoc, Nat.add_comm 1 k] at hcell ht
          refine ⟨k + 1, fun j hj => ?_, hcell, hbad, ht⟩
          cases j with
          | zero =>
            intro c hc
            simpa using List.find?_eq_none.1 hfind c hc
          | succ j =>
            have hrest := hall j (Nat.lt_of_succ_lt_succ hj)
            rwa [Nat.add_assoc, Nat.add_comm 1 j] at hrest

/-! ## Staying in the grid -/

/-- A cursor that is a step away from the grid and names a cell of it is in it. -/
theorem GridCursor.nat_of_asUsize_lt {z : Int} {limit : Nat} (hlimit : limit < sliceLimit) (hlow : -1 ≤ z)
    (hhigh : z ≤ limit) (h : GridCursor.asUsize z < limit) : 0 ≤ z ∧ z < limit := by
  unfold GridCursor.asUsize at h
  unfold sliceLimit at hlimit
  omega

theorem direction_mem (a b : Rat) : -1 ≤ direction a b ∧ direction a b ≤ 1 := by
  unfold direction
  split
  · decide
  · split <;> decide

/-- In the grid, as the cursor itself. -/
def GridCursor.InGrid (g : TerrainFlagsGrid) (c : GridCursor) : Prop :=
  (0 ≤ c.x ∧ c.x < g.width) ∧ 0 ≤ c.y ∧ c.y < g.height

theorem advance_mem (r : GridRay Rat) (p : Nat × Nat) :
    (r.xs.advance r.ys p).1 ≤ p.1 + 1 ∧ p.1 ≤ (r.xs.advance r.ys p).1 ∧
      (r.xs.advance r.ys p).2 ≤ p.2 + 1 ∧ p.2 ≤ (r.xs.advance r.ys p).2 := by
  unfold Series.advance
  split
  · simp
  · split <;> simp

/-- Next to a cursor in the grid, one that names a cell of the grid is in it. -/
theorem GridCursor.InGrid.near {c d : GridCursor} (h : c.InGrid g) (hx : c.x - 1 ≤ d.x ∧ d.x ≤ c.x + 1)
    (hy : c.y - 1 ≤ d.y ∧ d.y ≤ c.y + 1) (hcell : g.containsCell d.toCell = true) : d.InGrid g := by
  obtain ⟨⟨hx0, hx1⟩, hy0, hy1⟩ := h
  obtain ⟨hxc, hyc⟩ : _ ∧ _ := by simpa [TerrainFlagsGrid.containsCell] using hcell
  exact ⟨GridCursor.nat_of_asUsize_lt g.width_lt (by omega) (by omega) hxc,
    GridCursor.nat_of_asUsize_lt g.height_lt (by omega) (by omega) hyc⟩

/-- A step from inside the grid into a cell of the grid ends inside it. -/
theorem inGrid_advance {p : Nat × Nat} (h : (cursorAt r p).InGrid g)
    (hcell : g.containsCell (cellAt r (r.xs.advance r.ys p)) = true) : (cursorAt r (r.xs.advance r.ys p)).InGrid g := by
  have hdx := direction_mem r.startX r.goalX
  have hdy := direction_mem r.startY r.goalY
  obtain ⟨h1, h2, h3, h4⟩ := advance_mem r p
  have step : ∀ (z d : Int) (m n : Nat), -1 ≤ d → d ≤ 1 → m ≤ n → n ≤ m + 1 →
      z + d * m - 1 ≤ z + d * n ∧ z + d * n ≤ z + d * m + 1 := by
    intro z d m n hd0 hd1 hmn hnm
    obtain rfl | rfl : n = m ∨ n = m + 1 := by omega
    · omega
    · push_cast
      rw [mul_add]
      omega
  exact h.near (step ⌊r.startX⌋ _ _ _ hdx.1 hdx.2 h2 h1) (step ⌊r.startY⌋ _ _ _ hdy.1 hdy.2 h4 h3) hcell

variable (goal) in
/-- As long as the walk is allowed only into cells of the grid it is in the grid. -/
theorem inGrid_walkAt (hs : g.cellForPoint start = some startCell)
    (hgrid : ∀ cell, allowCell cell = true → g.containsCell cell = true) :
    ∀ (n : Nat), (∀ k < n, ∀ cell ∈ enteredAt (g.ray start goal) (walkAt (g.ray start goal) k), allowCell cell = true) →
      (cursorAt (g.ray start goal) (walkAt (g.ray start goal) n)).InGrid g
  | 0, _ => by
    obtain ⟨⟨hx, hy⟩, hxl, hyl⟩ := TerrainFlagsGrid.cellForPoint_eq_some_iff.1 hs
    rw [show walkAt (g.ray start goal) 0 = (0, 0) from rfl, cursorAt_zero]
    refine ⟨⟨?_, ?_⟩, ?_, ?_⟩
    · show 0 ≤ ⌊g.inCells start.x⌋
      omega
    · show ⌊g.inCells start.x⌋ < g.width
      omega
    · show 0 ≤ ⌊g.inCells start.y⌋
      omega
    · show ⌊g.inCells start.y⌋ < g.height
      omega
  | n + 1, hall => by
    have ih := inGrid_walkAt hs hgrid n fun k hk => hall k (Nat.lt_succ_of_lt hk)
    rw [walkAt_succ]
    exact inGrid_advance ih (hgrid _ (hall n (Nat.lt_succ_self n) _ (cellAt_advance_mem _ _)))

/-- Lines of a coordinate that does not change are never passed. -/
theorem walkAt_fst_eq_zero (hx : r.startX = r.goalX) (hy : r.startY ≠ r.goalY) (n : Nat) : (walkAt r n).1 = 0 := by
  induction n with
  | zero => rfl
  | succ n ih =>
    have hgt : r.ys.time (walkAt r n).2 < r.xs.time (walkAt r n).1 := by
      rw [show r.xs.time (walkAt r n).1 = ⊤ from lineTime_eq_top_iff.2 hx, lt_top_iff_ne_top]
      exact fun h => hy (lineTime_eq_top_iff.1 h)
    rw [walkAt_succ, Series.advance_of_gt hgt]
    exact ih

theorem walkAt_snd_eq_zero (hx : r.startX ≠ r.goalX) (hy : r.startY = r.goalY) (n : Nat) : (walkAt r n).2 = 0 := by
  induction n with
  | zero => rfl
  | succ n ih =>
    have hlt : r.xs.time (walkAt r n).1 < r.ys.time (walkAt r n).2 := by
      rw [show r.ys.time (walkAt r n).2 = ⊤ from lineTime_eq_top_iff.2 hy, lt_top_iff_ne_top]
      exact fun h => hx (lineTime_eq_top_iff.1 h)
    rw [walkAt_succ, Series.advance_of_lt hlt]
    exact ih

/-- A walk in the grid has made fewer steps than the grid is wide and high. -/
theorem lt_of_inGrid (hmove : r.startX ≠ r.goalX ∨ r.startY ≠ r.goalY) (hfirst : (cursorAt r (0, 0)).InGrid g) {n : Nat}
    (h : (cursorAt r (walkAt r n)).InGrid g) : n < g.width + g.height := by
  obtain ⟨⟨hx0, hx1⟩, hy0, hy1⟩ := h
  rw [cursorAt_zero] at hfirst
  obtain ⟨⟨hsx0, hsx1⟩, hsy0, hsy1⟩ := hfirst
  have hsum : n ≤ (walkAt r n).1 + (walkAt r n).2 := Series.le_position n
  have axis : ∀ {a b : Rat} {m limit : Nat}, (a = b → m = 0) → 0 ≤ ⌊a⌋ → ⌊a⌋ < limit → 0 ≤ ⌊a⌋ + direction a b * m →
      ⌊a⌋ + direction a b * m < limit → m < limit := by
    intro a b m limit hstill h0 h1 h2 h3
    rcases lt_trichotomy a b with hab | hab | hab
    · rw [direction_of_lt hab] at h2 h3
      omega
    · have := hstill hab
      omega
    · rw [direction_of_gt hab] at h2 h3
      omega
  have hx : (walkAt r n).1 < g.width :=
    axis (fun heq => walkAt_fst_eq_zero heq (hmove.resolve_left (not_not.2 heq)) n) hsx0 hsx1 hx0 hx1
  have hy : (walkAt r n).2 < g.height :=
    axis (fun heq => walkAt_snd_eq_zero (hmove.resolve_right (not_not.2 heq)) heq n) hsy0 hsy1 hy0 hy1
  omega

/-! ## The walk over walkable cells -/

/-- More steps than any walk over the walkable cells makes. -/
def walkFuel (g : TerrainFlagsGrid) : Nat := g.width + g.height

/-- Blocked at the first step that asks for a cell that is not walkable, at the time of that step. -/
structure StopsAt (w : WalkabilityView) (start goal : LocalPos) (k : Nat) (t : Time) : Prop where
  before : ∀ j < k, ∀ c ∈ enteredAt (w.terrain.ray start goal) (walkAt (w.terrain.ray start goal) j),
    w.isWalkableCell c = true
  blocked : ∃ c ∈ enteredAt (w.terrain.ray start goal) (walkAt (w.terrain.ray start goal) k), w.isWalkableCell c = false
  time : t = nextTime (w.terrain.ray start goal) (walkAt (w.terrain.ray start goal) k)

theorem cellAt_first (hs : g.cellForPoint start = some startCell) : cellAt (g.ray start goal) (0, 0) = startCell := by
  obtain ⟨⟨hsx, hsy⟩, hsw, hsh⟩ := TerrainFlagsGrid.cellForPoint_eq_some_iff.1 hs
  unfold cellAt
  rw [cursorAt_zero]
  show GridCell.mk (GridCursor.asUsize ⌊g.inCells start.x⌋) (GridCursor.asUsize ⌊g.inCells start.y⌋) = _
  rw [hsx, hsy, GridCursor.asUsize_natCast (hsw.trans g.width_lt), GridCursor.asUsize_natCast (hsh.trans g.height_lt)]

/-- In one cell that can be walked on every segment is clear. -/
theorem segmentClear_of_same (hs : w.terrain.cellForPoint start = some startCell)
    (hg : w.terrain.cellForPoint goal = some startCell) (hwalk : w.isWalkableCell startCell = true) :
    SegmentClear w start goal := by
  obtain ⟨s, hnew, -, hcurrent, hgoal⟩ := exists_tracks hs hg
  refine ⟨0, ?_⟩
  unfold walkSegment
  rw [hnew, Option.map_some, SegmentTraversal.trace, hcurrent, hgoal, cellAt_first hs, cellAt_last hs hg, hwalk,
    if_neg (by decide), if_pos rfl]

/-- How the walk ends: outside the grid, in the start cell, in the goal, or in front of a blocked cell. -/
theorem walkSegment_cases (w : WalkabilityView) (start goal : LocalPos) :
    (walkSegment w.terrain start goal w.isWalkableCell (walkFuel w.terrain) = none ∧
      (w.terrain.cellForPoint start = none ∨ w.terrain.cellForPoint goal = none)) ∨
    (∃ startCell goalCell, w.terrain.cellForPoint start = some startCell ∧ w.terrain.cellForPoint goal = some goalCell ∧
      ((w.isWalkableCell startCell = false ∧
          walkSegment w.terrain start goal w.isWalkableCell (walkFuel w.terrain) = some (some (.blocked startCell 0))) ∨
        (w.isWalkableCell startCell = true ∧
          (walkSegment w.terrain start goal w.isWalkableCell (walkFuel w.terrain) = some (some .complete) ∨
            ∃ cell k t, walkSegment w.terrain start goal w.isWalkableCell (walkFuel w.terrain) =
              some (some (.blocked cell t)) ∧
              StopsAt w start goal k t)))) := by
  cases hs : w.terrain.cellForPoint start with
  | none =>
    refine .inl ⟨?_, .inl rfl⟩
    unfold walkSegment SegmentTraversal.new
    rw [hs]
    rfl
  | some startCell =>
    cases hg : w.terrain.cellForPoint goal with
    | none =>
      refine .inl ⟨?_, .inr rfl⟩
      unfold walkSegment SegmentTraversal.new
      rw [hs, hg]
      rfl
    | some goalCell =>
      refine .inr ⟨startCell, goalCell, rfl, rfl, ?_⟩
      obtain ⟨s, hnew, htracks, hcurrent, hgoal⟩ := exists_tracks hs hg
      have hfirst : s.currentCell = startCell := hcurrent.trans (cellAt_first hs)
      unfold walkSegment
      rw [hnew, Option.map_some, SegmentTraversal.trace, hfirst]
      by_cases hwalk : w.isWalkableCell startCell = true
      · rw [hwalk, if_neg (by decide)]
        refine .inr ⟨rfl, ?_⟩
        by_cases hsame : startCell = s.goalCell
        · rw [if_pos hsame]
          exact .inl rfl
        · rw [if_neg hsame]
          cases hloop : SegmentTraversal.traceLoop w.isWalkableCell (walkFuel w.terrain) s with
          | some trace =>
            cases trace with
            | complete => exact .inl rfl
            | blocked cell t =>
              obtain ⟨k, hall, hcell, hbad, ht⟩ := htracks.traceLoop_blocked (m := 0) hloop
              simp only [Nat.zero_add] at hall hcell ht
              exact .inr ⟨cell, k, t, rfl, hall, ⟨cell, hcell, hbad⟩, ht⟩
          | none =>
            -- the walk would still be in the grid, after more steps than the grid has room for
            obtain ⟨hne, hall⟩ := htracks.traceLoop_none (m := 0) hloop
            simp only [Nat.zero_add] at hall
            have hgrid : ∀ cell, w.isWalkableCell cell = true → w.terrain.containsCell cell = true := by
              intro cell hcell
              simpa [TerrainFlagsGrid.containsCell] using WalkabilityView.contains_of_isWalkableCell hcell
            have hmove : (w.terrain.ray start goal).startX ≠ (w.terrain.ray start goal).goalX ∨
                (w.terrain.ray start goal).startY ≠ (w.terrain.ray start goal).goalY := by
              by_contra hstill
              rw [not_or, not_not, not_not] at hstill
              refine hne ?_
              rw [show walkAt (w.terrain.ray start goal) 0 = (0, 0) from rfl, cursorAt_zero, cursorAt_last,
                hstill.1, hstill.2]
            have hfirstIn := inGrid_walkAt goal hs hgrid 0 fun j hj => absurd hj (Nat.not_lt_zero j)
            have hlast := inGrid_walkAt goal hs hgrid (walkFuel w.terrain) hall
            exact absurd (lt_of_inGrid hmove hfirstIn hlast) (lt_irrefl _)
      · rw [Bool.not_eq_true] at hwalk
        rw [hwalk, if_pos (by decide)]
        exact .inl ⟨rfl, rfl⟩

/-- The loop has always ended by then. -/
theorem walkSegment_ends (w : WalkabilityView) (start goal : LocalPos) :
    walkSegment w.terrain start goal w.isWalkableCell (walkFuel w.terrain) ≠ some none := by
  intro h
  rcases walkSegment_cases w start goal with ⟨hnone, -⟩ | ⟨_, _, -, -, ⟨-, hend⟩ | ⟨-, hend | ⟨_, _, _, hend, -⟩⟩⟩
  · rw [hnone] at h; cases h
  · rw [hend] at h; cases h
  · rw [hend] at h; cases h
  · rw [hend] at h; cases h

def segmentClear (w : WalkabilityView) (start goal : LocalPos) : Bool :=
  decide (walkSegment w.terrain start goal w.isWalkableCell (walkFuel w.terrain) = some (some .complete))

theorem segmentClear_iff {w : WalkabilityView} {start goal : LocalPos} :
    segmentClear w start goal = true ↔ SegmentClear w start goal := by
  unfold segmentClear
  rw [decide_eq_true_iff]
  refine ⟨fun h => ⟨_, h⟩, fun h => ?_⟩
  obtain ⟨startCell, goalCell, hs, hg⟩ := h.endpoints
  obtain ⟨fuel, h⟩ := h
  obtain ⟨hfirst, n, -, hwalked, hall⟩ := (walkSegment_complete_iff hs hg).1 h
  refine (walkSegment_complete_iff hs hg).2 ⟨hfirst, n, ?_, hwalked, hall⟩
  -- between two cells of the grid there are fewer lines than the grid is wide and high
  refine hwalked.le.trans ?_
  obtain ⟨⟨hsx, hsy⟩, hsw, hsh⟩ := TerrainFlagsGrid.cellForPoint_eq_some_iff.1 hs
  obtain ⟨⟨hgx, hgy⟩, hgw, hgh⟩ := TerrainFlagsGrid.cellForPoint_eq_some_iff.1 hg
  have hx : (w.terrain.ray start goal).last.1 = (⌊w.terrain.inCells goal.x⌋ - ⌊w.terrain.inCells start.x⌋).natAbs :=
    passedLines_one _ _
  have hy : (w.terrain.ray start goal).last.2 = (⌊w.terrain.inCells goal.y⌋ - ⌊w.terrain.inCells start.y⌋).natAbs :=
    passedLines_one _ _
  rw [hx, hy, hsx, hsy, hgx, hgy]
  unfold walkFuel
  omega

end Zohar.Nav
