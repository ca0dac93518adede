/-
What `segment_clear` promises. The walk ends in the goal cell unless the goal is a corner of the grid that is reached
with one coordinate growing and the other falling; and it asks for every cell of the segment but one at each corner.
-/
import Zohar.Nav.Walk

namespace Zohar.Nav

open Zohar.Lib

/-- Both coordinates of a cell are between those of two others. -/
structure InBox (a b cell : GridCell) : Prop where
  x : min a.x b.x ≤ cell.x ∧ cell.x ≤ max a.x b.x
  y : min a.y b.y ≤ cell.y ∧ cell.y ≤ max a.y b.y

/-- The point of the segment at time `t`. -/
def pointOn (start goal : LocalPos) (t : Rat) : LocalPos := ⟨pointAt start.x goal.x t, pointAt start.y goal.y t⟩

/-- The two cells at the corner `(i, j)` that share only an edge with the cells before and after it: the first is
entered over the vertical line, the second over the horizontal one. -/
def xSideCell (r : GridRay Rat) (i j : Int) : GridCell :=
  GridCursor.toCell ⟨cellAfter r.startX r.goalX i, cellBefore r.startY r.goalY j⟩

def ySideCell (r : GridRay Rat) (i j : Int) : GridCell :=
  GridCursor.toCell ⟨cellBefore r.startX r.goalX i, cellAfter r.startY r.goalY j⟩

/-- Every point of the segment can be stood on, and it squeezes past no blocked cell at a corner. -/
structure SegmentSound (w : WalkabilityView) (start goal : LocalPos) : Prop where
  stands : ∀ t, 0 ≤ t → t ≤ 1 → canStand w (pointOn start goal t) = true
  corners : ∀ i j t, (w.terrain.ray start goal).CrossesCorner i j t →
    w.isWalkableCell (xSideCell (w.terrain.ray start goal) i j) = true ∧
      w.isWalkableCell (ySideCell (w.terrain.ray start goal) i j) = true

/-- What the walk looks at. -/
structure LooksClear (w : WalkabilityView) (start goal : LocalPos) : Prop where
  stops : ¬ ((w.terrain.ray start goal).Opposed ∧ (w.terrain.ray start goal).OnCorner 1)
  stands : ∀ t, 0 ≤ t → t ≤ 1 → ¬ ((w.terrain.ray start goal).Opposed ∧ 0 < t ∧ (w.terrain.ray start goal).OnCorner t) →
    canStand w (pointOn start goal t) = true
  xSides : ∀ i j t, (w.terrain.ray start goal).CrossesCorner i j t →
    w.isWalkableCell (xSideCell (w.terrain.ray start goal) i j) = true

/-- At every corner that the segment goes over, the cell over the horizontal line is walkable. -/
def YSidesClear (w : WalkabilityView) (start goal : LocalPos) : Prop :=
  ∀ i j t, (w.terrain.ray start goal).CrossesCorner i j t →
    w.isWalkableCell (ySideCell (w.terrain.ray start goal) i j) = true

/-! ## Cells on the way -/

variable {g : TerrainFlagsGrid} {w : WalkabilityView} {start goal : LocalPos} {r : GridRay Rat} {p : Nat × Nat}
  {startCell goalCell : GridCell}

theorem GridCursor.asUsize_natCast {n : Nat} (h : n < sliceLimit) : GridCursor.asUsize n = n := by
  unfold GridCursor.asUsize
  unfold sliceLimit at h
  omega

theorem InBox.contains {cell : GridCell} (h : InBox startCell goalCell cell)
    (hs : g.cellForPoint start = some startCell) (hg : g.cellForPoint goal = some goalCell) :
    cell.x < g.width ∧ cell.y < g.height := by
  obtain ⟨-, hs⟩ := TerrainFlagsGrid.cellForPoint_eq_some_iff.1 hs
  obtain ⟨-, hg⟩ := TerrainFlagsGrid.cellForPoint_eq_some_iff.1 hg
  have hx := h.x.2
  have hy := h.y.2
  omega

/-- On the way the cursor names a cell between that of the start and that of the goal. -/
theorem cellAt_spec (hs : g.cellForPoint start = some startCell) (hg : g.cellForPoint goal = some goalCell)
    (hp : p ≤ (g.ray start goal).last) :
    GridCursor.fromCell (cellAt (g.ray start goal) p) = cursorAt (g.ray start goal) p ∧
      InBox startCell goalCell (cellAt (g.ray start goal) p) := by
  obtain ⟨⟨hsx, hsy⟩, hsw, hsh⟩ := TerrainFlagsGrid.cellForPoint_eq_some_iff.1 hs
  obtain ⟨⟨hgx, hgy⟩, hgw, hgh⟩ := TerrainFlagsGrid.cellForPoint_eq_some_iff.1 hg
  have hx := cell_between (a := (g.ray start goal).startX) (b := (g.ray start goal).goalX) hp.1
  have hy := cell_between (a := (g.ray start goal).startY) (b := (g.ray start goal).goalY) hp.2
  rw [show ⌊(g.ray start goal).startX⌋ = startCell.x from hsx, show ⌊(g.ray start goal).goalX⌋ = goalCell.x from hgx]
    at hx
  rw [show ⌊(g.ray start goal).startY⌋ = startCell.y from hsy, show ⌊(g.ray start goal).goalY⌋ = goalCell.y from hgy]
    at hy
  have hw := TerrainFlagsGrid.width_lt (g := g)
  have hh := TerrainFlagsGrid.height_lt (g := g)
  obtain ⟨x, hcx⟩ : ∃ x : Nat, (cursorAt (g.ray start goal) p).x = x := by
    refine ⟨(cursorAt (g.ray start goal) p).x.toNat, (Int.toNat_of_nonneg ?_).symm⟩
    show 0 ≤ ⌊(g.ray start goal).startX⌋ + _
    rw [show ⌊(g.ray start goal).startX⌋ = startCell.x from hsx]
    omega
  obtain ⟨y, hcy⟩ : ∃ y : Nat, (cursorAt (g.ray start goal) p).y = y := by
    refine ⟨(cursorAt (g.ray start goal) p).y.toNat, (Int.toNat_of_nonneg ?_).symm⟩
    show 0 ≤ ⌊(g.ray start goal).startY⌋ + _
    rw [show ⌊(g.ray start goal).startY⌋ = startCell.y from hsy]
    omega
  have hxx : (startCell.x : Int) + direction (g.ray start goal).startX (g.ray start goal).goalX * p.1 = x := by
    rw [← hcx, ← hsx]
    rfl
  have hyy : (startCell.y : Int) + direction (g.ray start goal).startY (g.ray start goal).goalY * p.2 = y := by
    rw [← hcy, ← hsy]
    rfl
  rw [hxx] at hx
  rw [hyy] at hy
  have hcell : cellAt (g.ray start goal) p = ⟨x, y⟩ := by
    unfold cellAt GridCursor.toCell
    rw [hcx, hcy, GridCursor.asUsize_natCast (by omega), GridCursor.asUsize_natCast (by omega)]
  rw [hcell]
  refine ⟨?_, ⟨?_, ?_⟩⟩
  · unfold GridCursor.fromCell
    rw [← hcx, ← hcy]
  · show min startCell.x goalCell.x ≤ x ∧ x ≤ max startCell.x goalCell.x
    omega
  · show min startCell.y goalCell.y ≤ y ∧ y ≤ max startCell.y goalCell.y
    omega

theorem cellForPoint_pointOn (hs : g.cellForPoint start = some startCell) (hg : g.cellForPoint goal = some goalCell)
    {t : Rat} (ht : 0 ≤ t) (ht1 : t ≤ 1) :
    g.cellForPoint (pointOn start goal t) = some (cellAt (g.ray start goal) ((g.ray start goal).passed t)) := by
  obtain ⟨hcursor, hbox⟩ := cellAt_spec hs hg (GridRay.passed_le_last (r := g.ray start goal) ht ht1)
  have hin : ∀ a b, g.inCells (pointAt a b t) = pointAt (g.inCells a) (g.inCells b) t := by
    intro a b
    unfold TerrainFlagsGrid.inCells pointAt
    ring
  rw [cursorAt_passed _ ht] at hcursor
  have hx := congrArg GridCursor.x hcursor
  have hy := congrArg GridCursor.y hcursor
  refine TerrainFlagsGrid.cellForPoint_eq_some_iff.2 ⟨⟨?_, ?_⟩, hbox.contains hs hg⟩
  · show ⌊g.inCells (pointAt start.x goal.x t)⌋ = _
    rw [hin]
    exact hx.symm
  · show ⌊g.inCells (pointAt start.y goal.y t)⌋ = _
    rw [hin]
    exact hy.symm

/-- A point of the segment can be stood on if the cell that the walk has for it is walkable. -/
theorem canStand_pointOn (hs : w.terrain.cellForPoint start = some startCell)
    (hg : w.terrain.cellForPoint goal = some goalCell) {t : Rat} (ht : 0 ≤ t) (ht1 : t ≤ 1) :
    canStand w (pointOn start goal t) =
      w.isWalkableCell (cellAt (w.terrain.ray start goal) ((w.terrain.ray start goal).passed t)) := by
  unfold canStand
  rw [cellForPoint_pointOn hs hg ht ht1]
  rfl

/-! ## The end of the walk -/

theorem cursorAt_injective {q : Nat × Nat} (hp : p ≤ r.last) (hq : q ≤ r.last) (h : cursorAt r p = cursorAt r q) :
    p = q :=
  Prod.ext (cell_injective hp.1 hq.1 (congrArg GridCursor.x h)) (cell_injective hp.2 hq.2 (congrArg GridCursor.y h))

theorem EndsAfter.unique {m n : Nat} (hm : EndsAfter r 0 m) (hn : EndsAfter r 0 n) : m = n := by
  rcases lt_trichotomy m n with h | h | h
  · exact absurd hm.there (hn.notBefore m h)
  · exact h
  · exact absurd hn.there (hm.notBefore n h)

/-- A walk that ends: after at most as many steps as there are lines on the way, over positions below the last. -/
structure Walked (r : GridRay Rat) (n : Nat) : Prop where
  ends : EndsAfter r 0 n
  le : n ≤ r.last.1 + r.last.2
  last : walkAt r n = r.last
  ordered : ∀ m ≤ n, r.xs.Ordered r.ys (walkAt r m)
  before : ∀ m < n, walkAt r m < r.last

theorem walked_of_good (h : ¬ (r.Opposed ∧ r.OnCorner 1)) : ∃ n, Walked r n := by
  obtain ⟨n, hn, hlast, hord, hbefore⟩ := (GridRay.ordered_last_iff.2 h).reached
  refine ⟨n, ⟨?_, fun k hk hthere => ?_⟩, hn, hlast, hord, hbefore⟩
  · rw [Nat.zero_add]
    exact congrArg (cursorAt r) hlast
  · rw [Nat.zero_add] at hthere
    have hlt : walkAt r k < r.last := hbefore k hk
    exact hlt.ne (cursorAt_injective hlt.le le_rfl hthere)

/-- Where the goal is a corner and the coordinates are opposed, the walk steps past the goal cell. -/
theorem not_endsAfter (hbad : r.Opposed ∧ r.OnCorner 1) (n : Nat) : ¬ EndsAfter r 0 n := by
  intro h
  have hthere := h.there
  rw [Nat.zero_add] at hthere
  have hx : r.startX ≠ r.goalX := hbad.1.elim (fun h => h.1.ne) fun h => h.1.ne'
  have hy : r.startY ≠ r.goalY := hbad.1.elim (fun h => h.2.ne') fun h => h.2.ne
  have hcancel : ∀ {a b : Rat} {m k : Nat}, a ≠ b → ⌊a⌋ + direction a b * m = ⌊a⌋ + direction a b * k → m = k := by
    intro a b m k hne heq
    rcases lt_or_gt_of_ne hne with hab | hab
    · rw [direction_of_lt hab] at heq
      omega
    · rw [direction_of_gt hab] at heq
      omega
  have hlast : walkAt r n = r.last :=
    Prod.ext (hcancel hx (congrArg GridCursor.x hthere)) (hcancel hy (congrArg GridCursor.y hthere))
  have hord := Series.ordered_position (x := r.xs) (y := r.ys) (.inl fun k hk => hx (lineTime_eq_top_iff.1 hk)) n
  rw [show r.xs.position r.ys n = r.last from hlast] at hord
  exact GridRay.ordered_last_iff.1 hord hbad

theorem EndsAfter.walked {n : Nat} (h : EndsAfter r 0 n) : Walked r n := by
  obtain ⟨m, hm⟩ := walked_of_good fun hbad => not_endsAfter hbad n h
  rwa [h.unique hm.ends]

/-- Between points of the grid a walk begins, in the first cell of the ray. -/
theorem exists_tracks (hs : g.cellForPoint start = some startCell) (hg : g.cellForPoint goal = some goalCell) :
    ∃ s, SegmentTraversal.new g start goal = some s ∧ Tracks (g.ray start goal) s (0, 0) ∧
      s.currentCell = cellAt (g.ray start goal) (0, 0) ∧
      s.goalCell = cellAt (g.ray start goal) (g.ray start goal).last := by
  obtain ⟨s, hnew⟩ : ∃ s, SegmentTraversal.new g start goal = some s := by
    unfold SegmentTraversal.new
    rw [hs, hg]
    exact ⟨_, rfl⟩
  obtain ⟨htracks, -, -⟩ := tracks_new hnew
  exact ⟨s, hnew, htracks, congrArg GridCursor.toCell htracks.current, congrArg GridCursor.toCell htracks.target⟩

/-- The walk with some cells allowed. -/
theorem walkSegment_complete_iff {allowCell : GridCell → Bool} {fuel : Nat}
    (hs : g.cellForPoint start = some startCell) (hg : g.cellForPoint goal = some goalCell) :
    walkSegment g start goal allowCell fuel = some (some .complete) ↔
      allowCell (cellAt (g.ray start goal) (0, 0)) = true ∧ ∃ n ≤ fuel, Walked (g.ray start goal) n ∧
        ∀ k < n, ∀ cell ∈ enteredAt (g.ray start goal) (walkAt (g.ray start goal) k), allowCell cell = true := by
  obtain ⟨s, hnew, htracks, hcurrent, hgoal⟩ := exists_tracks hs hg
  have hloop : SegmentTraversal.traceLoop allowCell fuel s = some .complete ↔ ∃ n ≤ fuel,
    EndsAfter (g.ray start goal) 0 n ∧
      ∀ k < n, ∀ cell ∈ enteredAt (g.ray start goal) (walkAt (g.ray start goal) (0 + k)), allowCell cell = true :=
    htracks.traceLoop_complete_iff (m := 0)
  simp only [Nat.zero_add] at hloop
  unfold walkSegment
  rw [hnew, Option.map_some, Option.some.injEq]
  unfold SegmentTraversal.trace
  rw [hcurrent]
  by_cases hallow : allowCell (cellAt (g.ray start goal) (0, 0)) = true
  · rw [hallow, if_neg (by decide)]
    split
    · rename_i hsame
      refine iff_of_true rfl ⟨rfl, 0, Nat.zero_le _, EndsAfter.walked ⟨?_, nofun⟩, nofun⟩
      -- the cells are the same, and so are the cursors
      have hfirst := (cellAt_spec hs hg (p := (0, 0)) ⟨Nat.zero_le _, Nat.zero_le _⟩).1
      have hlast := (cellAt_spec hs hg le_rfl).1
      rw [hgoal] at hsame
      show cursorAt _ (0, 0) = _
      rw [← hfirst, ← hlast, hsame]
    · rw [hloop]
      constructor
      · rintro ⟨n, hn, hends, hall⟩
        exact ⟨rfl, n, hn, hends.walked, hall⟩
      · rintro ⟨-, n, hn, hwalked, hall⟩
        exact ⟨n, hn, hwalked.ends, hall⟩
  · rw [Bool.not_eq_true] at hallow
    rw [hallow, if_pos (by decide)]
    exact iff_of_false (by simp) fun h => by cases h.1

/-! ## What the walk looks at -/

/-- A step enters the cell it ends in. -/
theorem cellAt_advance_mem (r : GridRay Rat) (p : Nat × Nat) : cellAt r (r.xs.advance r.ys p) ∈ enteredAt r p := by
  unfold enteredAt
  split
  · rename_i heq
    rw [Series.advance_of_eq heq]
    exact List.mem_cons_of_mem _ List.mem_cons_self
  · exact List.mem_cons_self

/-- Every cell of a position that the walk comes to is allowed. -/
theorem Walked.allowed {allowCell : GridCell → Bool} {n : Nat} (hfirst : allowCell (cellAt r (0, 0)) = true)
    (hall : ∀ k < n, ∀ cell ∈ enteredAt r (walkAt r k), allowCell cell = true) {m : Nat} (hm : m ≤ n) :
    allowCell (cellAt r (walkAt r m)) = true := by
  cases m with
  | zero => exact hfirst
  | succ m =>
    apply hall m hm
    rw [walkAt_succ]
    exact cellAt_advance_mem r _

theorem Walked.on_run {n : Nat} (h : Walked r n) (hord : r.xs.Ordered r.ys p) (hp : p ≤ r.last) :
    ∃ m ≤ n, walkAt r m = p := hord.on_run (by rw [show r.xs.position r.ys n = r.last from h.last]; exact hp)

theorem xSideCell_lineAt (hx : r.startX ≠ r.goalX) (hy : r.startY ≠ r.goalY) :
    xSideCell r (lineAt r.startX r.goalX p.1) (lineAt r.startY r.goalY p.2) = cellAt r (p.1 + 1, p.2) := by
  unfold xSideCell cellAt cursorAt
  rw [cellAfter_lineAt hx, cellBefore_lineAt hy]

/-- A step over a corner: both coordinates change. -/
theorem axes_of_corner (heq : r.xs.time p.1 = r.ys.time p.2) (hfin : r.xs.time p.1 ≠ ⊤) :
    r.startX ≠ r.goalX ∧ r.startY ≠ r.goalY :=
  ⟨fun h => hfin (lineTime_eq_top_iff.2 h), fun h => hfin (heq.trans (lineTime_eq_top_iff.2 h))⟩

/-- A walk that completes has looked at every point that is not on an open corner, and at the side of every corner. -/
theorem SegmentClear.looksClear (h : SegmentClear w start goal) : LooksClear w start goal := by
  obtain ⟨fuel, h⟩ := h
  obtain ⟨s, hnew, -⟩ := Option.map_eq_some_iff.1 h
  obtain ⟨-, -, startCell, goalCell, hs, hg, -, -⟩ := tracks_new hnew
  obtain ⟨hfirst, n, -, hwalked, hall⟩ := (walkSegment_complete_iff hs hg).1 h
  refine ⟨fun hbad => not_endsAfter hbad n hwalked.ends, fun t ht ht1 hopen => ?_, fun i j t hcorner => ?_⟩
  · obtain ⟨m, hm, hpos⟩ := hwalked.on_run (GridRay.ordered_passed ht hopen) (GridRay.passed_le_last ht ht1)
    rw [canStand_pointOn hs hg ht ht1, ← hpos]
    exact Walked.allowed hfirst hall hm
  · obtain ⟨p, hpx, hpy, hxt, hyt, rfl, rfl⟩ := GridRay.crossesCorner_iff.1 hcorner
    have heq := hxt.trans hyt.symm
    have hfin : (w.terrain.ray start goal).xs.time p.1 ≠ ⊤ := by
      rw [hxt]
      exact WithTop.coe_ne_top
    obtain ⟨m, hm, hpos⟩ := hwalked.on_run (Series.ordered_of_eq heq hfin) ⟨hpx.le, hpy.le⟩
    have hlt : m < n := lt_of_le_of_ne hm fun he => by
      rw [he, hwalked.last] at hpos
      exact hpx.ne (congrArg Prod.fst hpos).symm
    obtain ⟨hx, hy⟩ := axes_of_corner heq hfin
    rw [xSideCell_lineAt hx hy]
    refine hall m hlt _ ?_
    rw [hpos]
    unfold enteredAt
    rw [if_pos heq]
    exact List.mem_cons_self

/-- Every cell that the walk is in can be walked on, as one of its points can be stood on. -/
theorem LooksClear.walkable (h : LooksClear w start goal) (hs : w.terrain.cellForPoint start = some startCell)
    (hg : w.terrain.cellForPoint goal = some goalCell) {n : Nat} (hwalked : Walked (w.terrain.ray start goal) n)
    {m : Nat} (hm : m ≤ n) :
    w.isWalkableCell (cellAt (w.terrain.ray start goal) (walkAt (w.terrain.ray start goal) m)) = true := by
  obtain ⟨hgood, hstands, -⟩ := h
  have hlast : walkAt (w.terrain.ray start goal) m ≤ (w.terrain.ray start goal).last := by
    rcases hm.lt_or_eq with hlt | rfl
    · exact (hwalked.before m hlt).le
    · exact hwalked.last.le
  obtain ⟨t, ht, ht1, hpassed, hopen⟩ := GridRay.exists_passed hgood (hwalked.ordered m hm) hlast
  rw [← hpassed, ← canStand_pointOn hs hg ht ht1]
  exact hstands t ht ht1 hopen

/-- The other way round: a step enters the cell it ends in, and over a corner the cell at the corner's side. -/
theorem LooksClear.segmentClear (h : LooksClear w start goal) : SegmentClear w start goal := by
  obtain ⟨hgood, hstands, hsides⟩ := h
  obtain ⟨n, hwalked⟩ := walked_of_good hgood
  -- the endpoints can be stood on, so they are in the grid
  have hin : ∀ pos, canStand w pos = true → ∃ cell, w.terrain.cellForPoint pos = some cell := by
    intro pos h
    unfold canStand at h
    cases hc : w.terrain.cellForPoint pos with
    | none => rw [hc] at h; cases h
    | some cell => exact ⟨cell, rfl⟩
  obtain ⟨startCell, hs⟩ := hin _ (hstands 0 le_rfl zero_le_one fun ⟨_, h, _⟩ => h.false)
  obtain ⟨goalCell, hg⟩ := hin _ (hstands 1 zero_le_one le_rfl fun ⟨hopp, _, hcorner⟩ => hgood ⟨hopp, hcorner⟩)
  simp only [pointOn, pointAt_zero, pointAt_one] at hs hg
  have hat : ∀ m ≤ n, w.isWalkableCell (cellAt (w.terrain.ray start goal) (walkAt (w.terrain.ray start goal) m)) =
      true :=
    fun m hm => LooksClear.walkable ⟨hgood, hstands, hsides⟩ hs hg hwalked hm
  refine ⟨n, (walkSegment_complete_iff hs hg).2 ⟨hat 0 (Nat.zero_le _), n, le_rfl, hwalked, fun k hk cell hcell => ?_⟩⟩
  have hnext := hat (k + 1) hk
  rw [walkAt_succ] at hnext
  unfold enteredAt at hcell
  split at hcell
  · rename_i heq
    rw [Series.advance_of_eq heq] at hnext
    rcases List.mem_cons.1 hcell with rfl | hcell
    · -- a corner that is gone over
      obtain ⟨hle, hfin⟩ := (GridRay.ordered_last_iff.2 hgood).advance_le (hwalked.before k hk)
      rw [Series.advance_of_eq heq] at hle
      have hfin : (w.terrain.ray start goal).xs.time (walkAt (w.terrain.ray start goal) k).1 ≠ ⊤ :=
        hfin.elim id fun h => heq ▸ h
      obtain ⟨t, ht⟩ := WithTop.ne_top_iff_exists.1 hfin
      have hcorner := GridRay.crossesCorner_iff.2 ⟨walkAt (w.terrain.ray start goal) k, hle.1, hle.2, ht.symm,
        heq.symm.trans ht.symm, rfl, rfl⟩
      obtain ⟨hx, hy⟩ := axes_of_corner heq hfin
      rw [← xSideCell_lineAt hx hy]
      exact hsides _ _ t hcorner
    · cases List.mem_singleton.1 hcell
      exact hnext
  · cases List.mem_singleton.1 hcell
    exact hnext

/-- The walk completes exactly if all that it looks at is clear. -/
theorem segmentClear_iff_looksClear : SegmentClear w start goal ↔ LooksClear w start goal :=
  ⟨SegmentClear.looksClear, LooksClear.segmentClear⟩

/-! ## What `true` promises -/

theorem SegmentClear.endpoints (h : SegmentClear w start goal) : ∃ startCell goalCell,
    w.terrain.cellForPoint start = some startCell ∧ w.terrain.cellForPoint goal = some goalCell := by
  obtain ⟨fuel, h⟩ := h
  obtain ⟨s, hnew, -⟩ := Option.map_eq_some_iff.1 h
  obtain ⟨-, -, startCell, goalCell, hs, hg, -, -⟩ := tracks_new hnew
  exact ⟨startCell, goalCell, hs, hg⟩

/-- A corner that is gone over with opposed coordinates lies in one of the two cells beside the way. -/
theorem canStand_of_sides (h : LooksClear w start goal) (hy : YSidesClear w start goal)
    (hs : w.terrain.cellForPoint start = some startCell) (hg : w.terrain.cellForPoint goal = some goalCell) {t : Rat}
    (ht : 0 < t) (ht1 : t ≤ 1) (hopp : (w.terrain.ray start goal).Opposed)
    (hon : (w.terrain.ray start goal).OnCorner t) :
    canStand w (pointOn start goal t) = true := by
  have hlt : t < 1 := lt_of_le_of_ne ht1 (by rintro rfl; exact h.stops ⟨hopp, hon⟩)
  obtain ⟨i, j, hi, hj⟩ := hon
  rw [canStand_pointOn hs hg ht.le ht1]
  unfold cellAt
  rw [cursorAt_passed _ ht.le, hi, hj, Int.floor_intCast, Int.floor_intCast]
  rcases hopp with ⟨hx, hyy⟩ | ⟨hx, hyy⟩
  · have hside := h.xSides i j t ⟨⟨hi, .inl ⟨hx, ht, ht1⟩⟩, ⟨hj, .inr ⟨hyy, ht.le, hlt⟩⟩⟩
    unfold xSideCell cellAfter cellBefore at hside
    rwa [if_pos hx, if_neg hyy.asymm] at hside
  · have hside := hy i j t ⟨⟨hi, .inr ⟨hx, ht.le, hlt⟩⟩, ⟨hj, .inl ⟨hyy, ht, ht1⟩⟩⟩
    unfold ySideCell cellAfter cellBefore at hside
    rwa [if_neg hx.asymm, if_pos hyy] at hside

/-- For every grid, start and goal: `segment_clear` is sound exactly if the cells over the horizontal lines at the
corners, which it does not ask for, are walkable wherever all that it does ask for is. -/
theorem segment_clear_sound_iff (w : WalkabilityView) (start goal : LocalPos) :
    (SegmentClear w start goal → SegmentSound w start goal) ↔ (LooksClear w start goal → YSidesClear w start goal) := by
  constructor
  · intro hsound hlooks i j t hcorner
    exact ((hsound (segmentClear_iff_looksClear.2 hlooks)).corners i j t hcorner).2
  · intro hsides hclear
    obtain ⟨startCell, goalCell, hs, hg⟩ := hclear.endpoints
    have hlooks := segmentClear_iff_looksClear.1 hclear
    have hy := hsides hlooks
    refine ⟨fun t ht ht1 => ?_, fun i j t hcorner => ⟨hlooks.xSides i j t hcorner, hy i j t hcorner⟩⟩
    by_cases hopen : (w.terrain.ray start goal).Opposed ∧ 0 < t ∧ (w.terrain.ray start goal).OnCorner t
    · exact canStand_of_sides hlooks hy hs hg hopen.2.1 ht1 hopen.1 hopen.2.2
    · exact hlooks.stands t ht ht1 hopen

theorem metre_pos : (0 : Rat) < 1 := by decide

theorem metre_inv : (1 : Rat) = 1⁻¹ := inv_one.symm

/-- Two by two cells of one metre, one of them blocked. -/
def fourCells (bottomLeft bottomRight topLeft topRight : TerrainFlags) : WalkabilityView :=
  ⟨⟨1, 1, 2, 2, [bottomLeft, bottomRight, topLeft, topRight], metre_pos, metre_inv, Nat.two_pos, Nat.two_pos, rfl,
    show 4 < sliceLimit by decide⟩⟩

/-- To the upper right past a blocked cell at the upper left of the corner; and to the upper left over a corner that is
in a blocked cell. -/
theorem segment_clear_unsound :
    (SegmentClear (fourCells .empty .empty .BLOCK .empty) ⟨1 / 2, 1 / 2⟩ ⟨3 / 2, 3 / 2⟩ ∧
      ¬ SegmentSound (fourCells .empty .empty .BLOCK .empty) ⟨1 / 2, 1 / 2⟩ ⟨3 / 2, 3 / 2⟩) ∧
    (SegmentClear (fourCells .empty .empty .empty .BLOCK) ⟨3 / 2, 1 / 2⟩ ⟨1 / 2, 3 / 2⟩ ∧
      canStand (fourCells .empty .empty .empty .BLOCK) (pointOn ⟨3 / 2, 1 / 2⟩ ⟨1 / 2, 3 / 2⟩ (1 / 2)) = false) := by
  refine ⟨⟨⟨1, by decide +kernel⟩, fun h => ?_⟩, ⟨1, by decide +kernel⟩, by decide +kernel⟩
  have hcorner : ((fourCells .empty .empty .BLOCK .empty).terrain.ray ⟨1 / 2, 1 / 2⟩ ⟨3 / 2, 3 / 2⟩).CrossesCorner
      1 1 (1 / 2) :=
    ⟨⟨by decide +kernel, .inl (by decide +kernel)⟩, ⟨by decide +kernel, .inl (by decide +kernel)⟩⟩
  have hside := (h.corners 1 1 (1 / 2) hcorner).2
  exact absurd hside (by decide +kernel)

/-! ## The walk with every cell allowed -/

/-- The walk stays between its endpoints, ends in the goal cell after at most as many steps as the cells differ, enters
the cells one after the other and by time 1; and the segment is clear if all cells between the endpoints are
walkable. -/
structure WalkCompletes (w : WalkabilityView) (start goal : LocalPos) (startCell goalCell : GridCell) : Prop where
  ends : walkSegment w.terrain start goal (fun _ => true)
    ((goalCell.x - startCell.x : Int).natAbs + (goalCell.y - startCell.y : Int).natAbs) = some (some .complete)
  lastCell : ((walkVisits w.terrain start goal
    ((goalCell.x - startCell.x : Int).natAbs + (goalCell.y - startCell.y : Int).natAbs)).map (·.1)).getLast? =
      some goalCell
  inBox : ∀ fuel, ∀ v ∈ walkVisits w.terrain start goal fuel, InBox startCell goalCell v.1
  ordered : ∀ fuel, (walkVisits w.terrain start goal fuel).Pairwise fun v v' => v.2 ≤ v'.2
  inTime : ∀ fuel, ∀ v ∈ walkVisits w.terrain start goal fuel, v.2 ≤ 1
  clear : (∀ cell, InBox startCell goalCell cell → w.isWalkableCell cell = true) → SegmentClear w start goal

theorem last_eq (hs : g.cellForPoint start = some startCell) (hg : g.cellForPoint goal = some goalCell) :
    (g.ray start goal).last = ((goalCell.x - startCell.x : Int).natAbs, (goalCell.y - startCell.y : Int).natAbs) := by
  obtain ⟨⟨hsx, hsy⟩, -⟩ := TerrainFlagsGrid.cellForPoint_eq_some_iff.1 hs
  obtain ⟨⟨hgx, hgy⟩, -⟩ := TerrainFlagsGrid.cellForPoint_eq_some_iff.1 hg
  unfold GridRay.last GridRay.passed
  rw [passedLines_one, passedLines_one, ← hsx, ← hsy, ← hgx, ← hgy]
  rfl

/-- What a step of the walk enters is on the way. -/
theorem Walked.entered {n k : Nat} (h : Walked r n) (hk : k < n) {cell : GridCell}
    (hcell : cell ∈ enteredAt r (walkAt r k)) :
    ∃ p ≤ r.last, cell = cellAt r p := by
  have hle : walkAt r (k + 1) ≤ r.last := by
    rcases Nat.lt_or_ge (k + 1) n with hlt | hge
    · exact (h.before _ hlt).le
    · rw [show k + 1 = n by omega]
      exact h.last.le
  rw [walkAt_succ] at hle
  unfold enteredAt at hcell
  split at hcell
  · rename_i heq
    rw [Series.advance_of_eq heq] at hle
    rcases List.mem_cons.1 hcell with rfl | hcell
    · exact ⟨((walkAt r k).1 + 1, (walkAt r k).2), ⟨hle.1, Nat.le_of_succ_le hle.2⟩, rfl⟩
    · exact ⟨_, hle, List.mem_singleton.1 hcell⟩
  · exact ⟨_, hle, List.mem_singleton.1 hcell⟩

theorem Walked.nextTime_le {n k : Nat} (h : Walked r n) (hk : k < n) : nextTime r (walkAt r k) ≤ 1 := by
  unfold nextTime
  rcases Prod.lt_iff.1 (h.before k hk) with ⟨hlt, -⟩ | ⟨-, hlt⟩
  · exact (min_le_left _ _).trans (GridRay.xs_le_one hlt)
  · exact (min_le_right _ _).trans (GridRay.ys_le_one hlt)

theorem getLast?_enteredAt (r : GridRay Rat) (p : Nat × Nat) :
    (enteredAt r p).getLast? = some (cellAt r (r.xs.advance r.ys p)) := by
  unfold enteredAt
  split
  · rename_i heq
    rw [Series.advance_of_eq heq]
    rfl
  · rfl

/-- The last cell that is visited is the one where the loop ends. -/
theorem Tracks.getLast?_visitsLoop : ∀ {fuel m n : Nat} {s : SegmentTraversal}, Tracks r s (walkAt r m) →
    EndsAfter r m n →
    n ≤ fuel → (((SegmentTraversal.visitsLoop fuel s).map (·.1)).getLast?).getD
      (cellAt r (walkAt r m)) = cellAt r r.last
  | fuel, m, 0, s, h, hends, _ => by
    have hthere := hends.there
    rw [Nat.add_zero] at hthere
    have hnil : SegmentTraversal.visitsLoop fuel s = [] := by
      cases fuel with
      | zero => rfl
      | succ fuel => exact if_pos (h.reachedTarget_iff.2 hthere)
    rw [hnil]
    exact congrArg GridCursor.toCell hthere
  | 0, _, _ + 1, _, _, _, hn => absurd hn (Nat.not_succ_le_zero _)
  | fuel + 1, m, n + 1, s, h, hends, hn => by
    have hne : cursorAt r (walkAt r m) ≠ cursorAt r r.last := hends.notBefore 0 (Nat.succ_pos n)
    obtain ⟨hnext, -, hentered⟩ := h.step
    rw [← walkAt_succ] at hnext
    have ih := hnext.getLast?_visitsLoop ((EndsAfter.succ hne).1 hends) (Nat.le_of_succ_le_succ hn)
    unfold SegmentTraversal.visitsLoop
    rw [if_neg ((not_congr h.reachedTarget_iff).2 hne), hentered, List.map_append, List.map_map, List.getLast?_append]
    have hfst : (enteredAt r (walkAt r m)).map ((fun v => v.1) ∘ fun c => (c, s.step.2.lastEnterT)) =
        enteredAt r (walkAt r m) :=
      List.map_id _
    rw [hfst, getLast?_enteredAt, ← walkAt_succ]
    rw [← ih]
    cases ((SegmentTraversal.visitsLoop fuel s.step.2).map (·.1)).getLast? <;> rfl

/-! ### The visits of a walk that ends -/

theorem cellAt_last (hs : g.cellForPoint start = some startCell) (hg : g.cellForPoint goal = some goalCell) :
    cellAt (g.ray start goal) (g.ray start goal).last = goalCell := by
  have hcursor := (cellAt_spec hs hg le_rfl).1
  rw [cursorAt_last] at hcursor
  obtain ⟨⟨hgx, hgy⟩, -⟩ := TerrainFlagsGrid.cellForPoint_eq_some_iff.1 hg
  have hx : ((cellAt (g.ray start goal) (g.ray start goal).last).x : Int) = goalCell.x :=
    (congrArg GridCursor.x hcursor).trans hgx
  have hy : ((cellAt (g.ray start goal) (g.ray start goal).last).y : Int) = goalCell.y :=
    (congrArg GridCursor.y hcursor).trans hgy
  have hext : ∀ {a b : GridCell}, a.x = b.x → a.y = b.y → a = b := fun {a b} h1 h2 => by cases a; cases b; simp_all
  exact hext (by omega) (by omega)

/-- Every visit of a walk that ends after `n` steps is the start's or one of these steps. -/
theorem Walked.mem_walkVisits {n : Nat} (h : Walked (g.ray start goal) n) (hs : g.cellForPoint start = some startCell)
    (hg : g.cellForPoint goal = some goalCell) {fuel : Nat} {v : GridCell × Time}
    (hv : v ∈ walkVisits g start goal fuel) :
    v = (cellAt (g.ray start goal) (0, 0), 0) ∨
      ∃ k < n, v.1 ∈ enteredAt (g.ray start goal) (walkAt (g.ray start goal) k) ∧
        v.2 = nextTime (g.ray start goal) (walkAt (g.ray start goal) k) := by
  obtain ⟨s, hnew, htracks, hcurrent, -⟩ := exists_tracks hs hg
  unfold walkVisits at hv
  rw [hnew] at hv
  rcases List.mem_cons.1 hv with rfl | hv
  · exact .inl (congrArg (·, 0) hcurrent)
  · split at hv
    · cases hv
    · obtain ⟨k, hbefore, hcell, htime⟩ := htracks.mem_visitsLoop (m := 0) hv
      rw [Nat.zero_add] at hcell htime
      refine .inr ⟨k, ?_, hcell, htime⟩
      by_contra hge
      exact hbefore n (not_lt.1 hge) h.ends.there

theorem Walked.inBox {n : Nat} (h : Walked (g.ray start goal) n) (hs : g.cellForPoint start = some startCell)
    (hg : g.cellForPoint goal = some goalCell) {fuel : Nat} {v : GridCell × Time}
    (hv : v ∈ walkVisits g start goal fuel) :
    InBox startCell goalCell v.1 := by
  rcases h.mem_walkVisits hs hg hv with rfl | ⟨k, hk, hcell, -⟩
  · exact (cellAt_spec hs hg ⟨Nat.zero_le _, Nat.zero_le _⟩).2
  · obtain ⟨p, hp, hcellp⟩ := h.entered hk hcell
    rw [hcellp]
    exact (cellAt_spec hs hg hp).2

theorem Walked.inTime {n : Nat} (h : Walked (g.ray start goal) n) (hs : g.cellForPoint start = some startCell)
    (hg : g.cellForPoint goal = some goalCell) {fuel : Nat} {v : GridCell × Time}
    (hv : v ∈ walkVisits g start goal fuel) :
    v.2 ≤ 1 := by
  rcases h.mem_walkVisits hs hg hv with rfl | ⟨k, hk, -, htime⟩
  · exact WithTop.coe_le_coe.2 zero_le_one
  · rw [htime]
    exact h.nextTime_le hk

/-- The times of the visits do not fall, whether the walk ends or not. -/
theorem walkVisits_pairwise (hs : g.cellForPoint start = some startCell) (hg : g.cellForPoint goal = some goalCell)
    (fuel : Nat) :
    (walkVisits g start goal fuel).Pairwise fun v w => v.2 ≤ w.2 := by
  obtain ⟨s, hnew, htracks, -, -⟩ := exists_tracks hs hg
  have hpair : (SegmentTraversal.visitsLoop fuel s).Pairwise fun v w => v.2 ≤ w.2 :=
    htracks.visitsLoop_pairwise (m := 0)
  unfold walkVisits
  rw [hnew]
  refine List.pairwise_cons.2 ⟨fun v hv => ?_, ?_⟩
  · split at hv
    · cases hv
    · obtain ⟨k, -, -, htime⟩ := htracks.mem_visitsLoop (m := 0) hv
      rw [htime]
      exact le_min (lineTime_nonneg _ _ _) (lineTime_nonneg _ _ _)
  · split
    · exact .nil
    · exact hpair

/-- With enough fuel, the last visit of a walk that ends is the goal cell's. -/
theorem Walked.getLast?_walkVisits {n fuel : Nat} (h : Walked (g.ray start goal) n)
    (hs : g.cellForPoint start = some startCell) (hg : g.cellForPoint goal = some goalCell) (hn : n ≤ fuel) :
    ((walkVisits g start goal fuel).map (·.1)).getLast? = some goalCell := by
  obtain ⟨s, hnew, htracks, hcurrent, hgoal⟩ := exists_tracks hs hg
  unfold walkVisits
  rw [hnew]
  show (((s.currentCell, (0 : Time)) :: _).map (·.1)).getLast? = some goalCell
  rw [List.map_cons, List.getLast?_cons]
  split
  · rename_i hsame
    show some s.currentCell = _
    rw [hsame, hgoal, cellAt_last hs hg]
  · have hlast := htracks.getLast?_visitsLoop (m := 0) h.ends hn
    rw [cellAt_last hs hg] at hlast
    rw [hcurrent]
    exact congrArg some hlast

/-- Where all cells between the endpoints are walkable, a walk that would end does. -/
theorem Walked.segmentClear {n : Nat} (h : Walked (w.terrain.ray start goal) n)
    (hs : w.terrain.cellForPoint start = some startCell) (hg : w.terrain.cellForPoint goal = some goalCell)
    (hall : ∀ cell, InBox startCell goalCell cell → w.isWalkableCell cell = true) : SegmentClear w start goal := by
  have hfirst := hall _ (cellAt_spec hs hg (p := (0, 0)) ⟨Nat.zero_le _, Nat.zero_le _⟩).2
  refine ⟨n, (walkSegment_complete_iff hs hg).2 ⟨hfirst, n, le_rfl, h, fun k hk cell hcell => ?_⟩⟩
  obtain ⟨p, hp, rfl⟩ := h.entered hk hcell
  exact hall _ (cellAt_spec hs hg hp).2

/-- For every start and goal inside the grid: the walk completes exactly if the goal is no corner of the grid that is
reached with one coordinate growing and the other falling. -/
theorem walk_completes_iff (w : WalkabilityView) {start goal : LocalPos} {startCell goalCell : GridCell}
    (hs : w.terrain.cellForPoint start = some startCell) (hg : w.terrain.cellForPoint goal = some goalCell) :
    WalkCompletes w start goal startCell goalCell ↔
      ¬ ((w.terrain.ray start goal).Opposed ∧ (w.terrain.ray start goal).OnCorner 1) := by
  constructor
  · intro h hbad
    obtain ⟨-, n, -, hwalked, -⟩ := (walkSegment_complete_iff hs hg).1 h.ends
    exact not_endsAfter hbad n hwalked.ends
  · intro hgood
    obtain ⟨n, hwalked⟩ := walked_of_good hgood
    have hn := hwalked.le
    rw [last_eq hs hg] at hn
    constructor
    · exact (walkSegment_complete_iff hs hg).2 ⟨rfl, n, hn, hwalked, fun _ _ _ _ => rfl⟩
    · exact hwalked.getLast?_walkVisits hs hg hn
    · exact fun _ _ hv => hwalked.inBox hs hg hv
    · exact fun fuel => walkVisits_pairwise hs hg fuel
    · exact fun _ _ hv => hwalked.inTime hs hg hv
    · exact hwalked.segmentClear hs hg

/-- Over the corner in the middle, to the upper right. -/
theorem walk_completes_diagonal :
    WalkCompletes (fourCells .empty .empty .empty .empty) ⟨1 / 2, 1 / 2⟩ ⟨3 / 2, 3 / 2⟩ ⟨0, 0⟩ ⟨1, 1⟩ :=
  (walk_completes_iff (fourCells .empty .empty .empty .empty) (by decide +kernel) (by decide +kernel)).2 fun h => by
    rcases h.1 with ⟨-, h⟩ | ⟨h, -⟩
    · exact absurd h (by decide +kernel)
    · exact absurd h (by decide +kernel)

/-- From the right half of the first row up to the corner on its left: the walk steps over the corner past the goal
cell, and is still running after the one step that the cells are apart. -/
theorem walk_passes_goal :
    (fourCells .empty .empty .empty .empty).terrain.cellForPoint ⟨3 / 2, 1 / 2⟩ = some ⟨1, 0⟩ ∧
    (fourCells .empty .empty .empty .empty).terrain.cellForPoint ⟨1, 1⟩ = some ⟨1, 1⟩ ∧
    walkSegment (fourCells .empty .empty .empty .empty).terrain ⟨3 / 2, 1 / 2⟩ ⟨1, 1⟩ (fun _ => true) 1 = some none ∧
    walkVisits (fourCells .empty .empty .empty .empty).terrain ⟨3 / 2, 1 / 2⟩ ⟨1, 1⟩ 2 =
      [(⟨1, 0⟩, 0), (⟨0, 0⟩, 1), (⟨0, 1⟩, 1), (⟨2 ^ 64 - 1, 1⟩, 3), (⟨2 ^ 64 - 1, 2⟩, 3)] ∧
    ¬ WalkCompletes (fourCells .empty .empty .empty .empty) ⟨3 / 2, 1 / 2⟩ ⟨1, 1⟩ ⟨1, 0⟩ ⟨1, 1⟩ := by
  refine ⟨by decide +kernel, by decide +kernel, by decide +kernel, by decide +kernel, fun h => ?_⟩
  exact absurd h.ends (by decide +kernel)

end Zohar.Nav
