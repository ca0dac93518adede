/-
The traversal against the grid lines that the segment meets: after every step the cursor is as many cells from the start
as lines of each kind have been passed, and the two boundary times are those of the next lines.
-/
import Zohar.Nav.Segment
import Zohar.Lib.GridRay

namespace Zohar.Nav

open Zohar.Lib

/-- The segment in units of cells. -/
def TerrainFlagsGrid.ray (g : TerrainFlagsGrid) (start goal : LocalPos) : GridRay Rat :=
  ⟨g.inCells start.x, g.inCells goal.x, g.inCells start.y, g.inCells goal.y⟩

/-- The cursor when so many lines of each kind have been passed. -/
def cursorAt (r : GridRay Rat) (p : Nat × Nat) : GridCursor :=
  ⟨⌊r.startX⌋ + direction r.startX r.goalX * p.1, ⌊r.startY⌋ + direction r.startY r.goalY * p.2⟩

def cellAt (r : GridRay Rat) (p : Nat × Nat) : GridCell := (cursorAt r p).toCell

/-- The cells that are asked for in the step from `p`. -/
def enteredAt (r : GridRay Rat) (p : Nat × Nat) : List GridCell :=
  if r.xs.time p.1 = r.ys.time p.2 then [cellAt r (p.1 + 1, p.2), cellAt r (p.1 + 1, p.2 + 1)]
  else [cellAt r (r.xs.advance r.ys p)]

/-- When the next line is due. -/
def nextTime (r : GridRay Rat) (p : Nat × Nat) : Time := min (r.xs.time p.1) (r.ys.time p.2)

structure Tracks (r : GridRay Rat) (s : SegmentTraversal) (p : Nat × Nat) : Prop where
  current : s.current = cursorAt r p
  target : s.target = cursorAt r r.last
  stepX : s.stepX = direction r.startX r.goalX
  stepY : s.stepY = direction r.startY r.goalY
  tMaxX : s.tMaxX = r.xs.time p.1
  tMaxY : s.tMaxY = r.ys.time p.2
  tDeltaX : ∀ k, r.xs.time k + s.tDeltaX = r.xs.time (k + 1)
  tDeltaY : ∀ k, r.ys.time k + s.tDeltaY = r.ys.time (k + 1)

/-! ## One axis -/

section

variable {c start goal : Rat}

theorem stepDirection_sub (hc : 0 < c) : stepDirection (goal - start) = direction (start / c) (goal / c) := by
  unfold stepDirection direction
  simp only [div_lt_div_iff_of_pos_right hc, gt_iff_lt, sub_pos, sub_neg]

theorem initialBoundaryT_eq (hc : 0 < c) :
    initialBoundaryT (firstBoundary ⌊start / c⌋ (direction (start / c) (goal / c)) c) start (goal - start)
      (direction (start / c) (goal / c)) = lineTime (start / c) (goal / c) 0 := by
  unfold initialBoundaryT firstBoundary
  rcases lt_trichotomy start goal with h | rfl | h
  · have hd : start / c < goal / c := (div_lt_div_iff_of_pos_right hc).2 h
    rw [direction_of_lt hd, lineTime_of_lt hd, if_neg one_ne_zero, if_pos Int.one_pos]
    generalize ⌊start / c⌋ = z
    have hne : goal - start ≠ 0 := (sub_pos.2 h).ne'
    congr 1
    rw [← sub_div]
    push_cast
    field_simp
    ring
  · rw [direction_self, if_pos rfl, lineTime_self]
  · have hd : goal / c < start / c := (div_lt_div_iff_of_pos_right hc).2 h
    rw [direction_of_gt hd, lineTime_of_gt hd, if_neg (by decide), if_neg (by decide)]
    generalize ⌊start / c⌋ = z
    have hne : goal - start ≠ 0 := (sub_neg.2 h).ne
    have hne' : start - goal ≠ 0 := (sub_pos.2 h).ne'
    congr 1
    rw [← sub_div]
    push_cast
    field_simp
    ring

theorem lineTime_add_boundaryStepT (hc : 0 < c) (k : Nat) :
    lineTime (start / c) (goal / c) k + boundaryStepT c (goal - start) (direction (start / c) (goal / c)) =
      lineTime (start / c) (goal / c) (k + 1) := by
  unfold boundaryStepT
  rcases lt_trichotomy start goal with h | rfl | h
  · have hd : start / c < goal / c := (div_lt_div_iff_of_pos_right hc).2 h
    rw [direction_of_lt hd, lineTime_of_lt hd, lineTime_of_lt hd, if_neg one_ne_zero, ← WithTop.coe_add,
      abs_of_pos (sub_pos.2 h)]
    generalize ⌊start / c⌋ = z
    have hne : goal - start ≠ 0 := (sub_pos.2 h).ne'
    congr 1
    rw [← sub_div]
    push_cast
    field_simp
    ring
  · rw [lineTime_self, lineTime_self, top_add]
  · have hd : goal / c < start / c := (div_lt_div_iff_of_pos_right hc).2 h
    rw [direction_of_gt hd, lineTime_of_gt hd, lineTime_of_gt hd, if_neg (by decide), ← WithTop.coe_add,
      abs_of_neg (sub_neg.2 h)]
    generalize ⌊start / c⌋ = z
    have hne : start - goal ≠ 0 := (sub_pos.2 h).ne'
    congr 1
    rw [← sub_div, neg_sub]
    push_cast
    field_simp
    ring

end

/-! ## The start -/

variable {g : TerrainFlagsGrid} {start goal : LocalPos} {r : GridRay Rat} {s : SegmentTraversal} {p : Nat × Nat}

theorem cursorAt_zero (r : GridRay Rat) : cursorAt r (0, 0) = ⟨⌊r.startX⌋, ⌊r.startY⌋⟩ := by simp [cursorAt]

theorem cursorAt_passed (r : GridRay Rat) {t : Rat} (ht : 0 ≤ t) :
    cursorAt r (r.passed t) = ⟨⌊pointAt r.startX r.goalX t⌋, ⌊pointAt r.startY r.goalY t⌋⟩ := by
  unfold cursorAt GridRay.passed
  rw [floor_pointAt ht, floor_pointAt ht]

theorem cursorAt_last (r : GridRay Rat) : cursorAt r r.last = ⟨⌊r.goalX⌋, ⌊r.goalY⌋⟩ := by
  unfold GridRay.last
  rw [cursorAt_passed r zero_le_one, pointAt_one, pointAt_one]

/-- The traversal starts in the cell of `start`, with both endpoints in the grid. -/
theorem tracks_new (h : SegmentTraversal.new g start goal = some s) :
    Tracks (g.ray start goal) s (0, 0) ∧ s.lastEnterT = 0 ∧ ∃ startCell goalCell,
      g.cellForPoint start = some startCell ∧
      g.cellForPoint goal = some goalCell ∧ s.current = .fromCell startCell ∧ s.target = .fromCell goalCell := by
  unfold SegmentTraversal.new at h
  obtain ⟨startCell, hstart, h⟩ := Option.bind_eq_some_iff.1 h
  obtain ⟨goalCell, hgoal, rfl⟩ := Option.map_eq_some_iff.1 h
  refine ⟨?_, rfl, startCell, goalCell, hstart, hgoal, rfl, rfl⟩
  obtain ⟨⟨hsx, hsy⟩, -⟩ := TerrainFlagsGrid.cellForPoint_eq_some_iff.1 hstart
  obtain ⟨⟨hgx, hgy⟩, -⟩ := TerrainFlagsGrid.cellForPoint_eq_some_iff.1 hgoal
  have hc := g.cellSize_pos
  constructor
  · rw [cursorAt_zero]
    exact congrArg₂ GridCursor.mk hsx.symm hsy.symm
  · rw [cursorAt_last]
    exact congrArg₂ GridCursor.mk hgx.symm hgy.symm
  · exact stepDirection_sub hc
  · exact stepDirection_sub hc
  · show initialBoundaryT (firstBoundary startCell.x (stepDirection (goal.x - start.x)) g.cellSizeM) start.x _ _ = _
    rw [stepDirection_sub hc, ← hsx]
    exact initialBoundaryT_eq hc
  · show initialBoundaryT (firstBoundary startCell.y (stepDirection (goal.y - start.y)) g.cellSizeM) start.y _ _ = _
    rw [stepDirection_sub hc, ← hsy]
    exact initialBoundaryT_eq hc
  · intro k
    show _ + boundaryStepT g.cellSizeM _ (stepDirection _) = _
    rw [stepDirection_sub hc]
    exact lineTime_add_boundaryStepT hc k
  · intro k
    show _ + boundaryStepT g.cellSizeM _ (stepDirection _) = _
    rw [stepDirection_sub hc]
    exact lineTime_add_boundaryStepT hc k

/-! ## Steps -/

theorem cursorAt_succ_left (r : GridRay Rat) (p : Nat × Nat) : cursorAt r (p.1 + 1, p.2) =
    ⟨(cursorAt r p).x + direction r.startX r.goalX, (cursorAt r p).y⟩ := by
  unfold cursorAt
  congr 1
  push_cast
  ring

theorem cursorAt_succ_right (r : GridRay Rat) (p : Nat × Nat) : cursorAt r (p.1, p.2 + 1) =
    ⟨(cursorAt r p).x, (cursorAt r p).y + direction r.startY r.goalY⟩ := by
  unfold cursorAt
  congr 1
  push_cast
  ring

/-- One step goes to the next position, at the time of the next line. -/
theorem Tracks.step (h : Tracks r s p) : Tracks r s.step.2 (r.xs.advance r.ys p) ∧ s.step.2.lastEnterT = nextTime r p ∧
    SegmentTraversal.entered s.current s.step.1 s.step.2 = enteredAt r p := by
  have hx := h.tDeltaX p.1
  have hy := h.tDeltaY p.2
  unfold SegmentTraversal.step nextTime enteredAt
  rw [h.tMaxX, h.tMaxY]
  rcases lt_trichotomy (r.xs.time p.1) (r.ys.time p.2) with hlt | heq | hgt
  · rw [if_pos hlt, if_neg hlt.ne, Series.advance_of_lt hlt, min_eq_left hlt.le]
    have hcursor : (⟨s.current.x + s.stepX, s.current.y⟩ : GridCursor) = cursorAt r (p.1 + 1, p.2) := by
      rw [cursorAt_succ_left, h.current, h.stepX]
    exact ⟨⟨hcursor, h.target, h.stepX, h.stepY, hx, rfl, h.tDeltaX, h.tDeltaY⟩, rfl,
      congrArg (fun c => [GridCursor.toCell c]) hcursor⟩
  · rw [if_neg heq.not_lt, if_neg heq.symm.not_lt, if_pos heq, Series.advance_of_eq heq, heq, min_self]
    have hside : (⟨s.current.x + s.stepX, s.current.y⟩ : GridCursor) = cursorAt r (p.1 + 1, p.2) := by
      rw [cursorAt_succ_left, h.current, h.stepX]
    have hcursor : (⟨s.current.x + s.stepX, s.current.y + s.stepY⟩ : GridCursor) = cursorAt r (p.1 + 1, p.2 + 1) := by
      rw [cursorAt_succ_right r (p.1 + 1, p.2), cursorAt_succ_left, h.current, h.stepX, h.stepY]
    refine ⟨⟨hcursor, h.target, h.stepX, h.stepY, heq ▸ hx, hy, h.tDeltaX, h.tDeltaY⟩, rfl, ?_⟩
    exact congrArg₂ (fun c d => [GridCursor.toCell c, GridCursor.toCell d]) hside hcursor
  · rw [if_neg hgt.asymm, if_pos hgt, if_neg hgt.ne', Series.advance_of_gt hgt, min_eq_right hgt.le]
    have hcursor : (⟨s.current.x, s.current.y + s.stepY⟩ : GridCursor) = cursorAt r (p.1, p.2 + 1) := by
      rw [cursorAt_succ_right, h.current, h.stepY]
    exact ⟨⟨hcursor, h.target, h.stepX, h.stepY, rfl, hy, h.tDeltaX, h.tDeltaY⟩, rfl,
      congrArg (fun c => [GridCursor.toCell c]) hcursor⟩

theorem Tracks.reachedTarget_iff (h : Tracks r s p) : s.reachedTarget = true ↔ cursorAt r p = cursorAt r r.last := by
  unfold SegmentTraversal.reachedTarget
  rw [h.current, h.target, Bool.and_eq_true, decide_eq_true_iff, decide_eq_true_iff, GridCursor.mk.injEq]

/-! ## Runs -/

/-- The position after `n` steps. -/
def walkAt (r : GridRay Rat) (n : Nat) : Nat × Nat := r.xs.position r.ys n

theorem walkAt_succ (r : GridRay Rat) (n : Nat) : walkAt r (n + 1) = r.xs.advance r.ys (walkAt r n) :=
  Series.position_succ n

/-- The loop is in the goal cell after `n` steps, and not before. -/
structure EndsAfter (r : GridRay Rat) (m n : Nat) : Prop where
  there : cursorAt r (walkAt r (m + n)) = cursorAt r r.last
  notBefore : ∀ k < n, cursorAt r (walkAt r (m + k)) ≠ cursorAt r r.last

theorem EndsAfter.succ {m n : Nat} (hne : cursorAt r (walkAt r m) ≠ cursorAt r r.last) :
    EndsAfter r m (n + 1) ↔ EndsAfter r (m + 1) n := by
  constructor
  · rintro ⟨hthere, hbefore⟩
    refine ⟨?_, fun k hk => ?_⟩
    · rw [Nat.add_assoc, Nat.add_comm 1 n]
      exact hthere
    · rw [Nat.add_assoc, Nat.add_comm 1 k]
      exact hbefore (k + 1) (Nat.succ_lt_succ hk)
  · rintro ⟨hthere, hbefore⟩
    rw [Nat.add_assoc, Nat.add_comm 1 n] at hthere
    refine ⟨hthere, fun k hk => ?_⟩
    cases k with
    | zero => exact hne
    | succ k =>
      have := hbefore k (Nat.lt_of_succ_lt_succ hk)
      rw [Nat.add_assoc, Nat.add_comm 1 k] at this
      exact this

/-- The loop completes exactly if it comes to the goal cell and every cell that it asks for on the way is allowed. -/
theorem Tracks.traceLoop_complete_iff {allowCell : GridCell → Bool} : ∀ {fuel m : Nat} {s : SegmentTraversal},
    Tracks r s (walkAt r m) → (SegmentTraversal.traceLoop allowCell fuel s = some .complete ↔
      ∃ n ≤ fuel, EndsAfter r m n ∧ ∀ k < n, ∀ cell ∈ enteredAt r (walkAt r (m + k)), allowCell cell = true)
  | fuel, m, s, h => by
    unfold SegmentTraversal.traceLoop
    by_cases hthere : cursorAt r (walkAt r m) = cursorAt r r.last
    · rw [if_pos (h.reachedTarget_iff.2 hthere)]
      exact iff_of_true rfl ⟨0, Nat.zero_le _, ⟨hthere, nofun⟩, nofun⟩
    · rw [if_neg ((not_congr h.reachedTarget_iff).2 hthere)]
      have hpos : ∀ {n}, EndsAfter r m n → ∃ k, n = k + 1 := by
        intro n hn
        cases n with
        | zero => exact absurd hn.there hthere
        | succ n => exact ⟨n, rfl⟩
      cases fuel with
      | zero =>
        refine iff_of_false (by simp) ?_
        rintro ⟨n, hn, hends, -⟩
        obtain ⟨k, rfl⟩ := hpos hends
        omega
      | succ fuel =>
        obtain ⟨hnext, -, hentered⟩ := h.step
        rw [← walkAt_succ] at hnext
        dsimp only
        rw [hentered]
        cases hfind : (enteredAt r (walkAt r m)).find? fun cell => !allowCell cell with
        | some cell =>
          refine iff_of_false (by simp) ?_
          rintro ⟨n, -, hends, hall⟩
          obtain ⟨k, rfl⟩ := hpos hends
          have hbad : allowCell cell = false := by simpa using List.find?_some hfind
          rw [hall 0 (Nat.succ_pos k) cell (List.mem_of_find?_eq_some hfind)] at hbad
          cases hbad
        | none =>
          have hall : ∀ cell ∈ enteredAt r (walkAt r m), allowCell cell = true := by
            intro cell hcell
            simpa using List.find?_eq_none.1 hfind cell hcell
          dsimp only
          rw [Tracks.traceLoop_complete_iff hnext]
          constructor
          · rintro ⟨n, hn, hends, hrest⟩
            refine ⟨n + 1, Nat.succ_le_succ hn, (EndsAfter.succ hthere).2 hends, fun k hk => ?_⟩
            cases k with
            | zero => exact hall
            | succ k =>
              have := hrest k (Nat.lt_of_succ_lt_succ hk)
              rw [Nat.add_assoc, Nat.add_comm 1 k] at this
              exact this
          · rintro ⟨n, hn, hends, hrest⟩
            obtain ⟨k, rfl⟩ := hpos hends
            refine ⟨k, Nat.le_of_succ_le_succ hn, (EndsAfter.succ hthere).1 hends, fun j hj => ?_⟩
            rw [Nat.add_assoc, Nat.add_comm 1 j]
            exact hrest (j + 1) (Nat.succ_lt_succ hj)

/-- What is visited is entered in a step that is made before the goal cell is reached, at the time of that step. -/
theorem Tracks.mem_visitsLoop {v : GridCell × Time} : ∀ {fuel m : Nat} {s : SegmentTraversal},
    Tracks r s (walkAt r m) → v ∈ SegmentTraversal.visitsLoop fuel s →
      ∃ k, (∀ j ≤ k, cursorAt r (walkAt r (m + j)) ≠ cursorAt r r.last) ∧
        v.1 ∈ enteredAt r (walkAt r (m + k)) ∧ v.2 = nextTime r (walkAt r (m + k))
  | 0, _, _, _, hv => nomatch hv
  | fuel + 1, m, s, h, hv => by
    unfold SegmentTraversal.visitsLoop at hv
    by_cases hthere : cursorAt r (walkAt r m) = cursorAt r r.last
    · rw [if_pos (h.reachedTarget_iff.2 hthere)] at hv
      cases hv
    · rw [if_neg ((not_congr h.reachedTarget_iff).2 hthere)] at hv
      obtain ⟨hnext, htime, hentered⟩ := h.step
      rw [← walkAt_succ] at hnext
      rw [hentered, htime] at hv
      rcases List.mem_append.1 hv with hv | hv
      · obtain ⟨cell, hcell, rfl⟩ := List.mem_map.1 hv
        refine ⟨0, fun j hj => ?_, hcell, rfl⟩
        obtain rfl := Nat.le_zero.1 hj
        exact hthere
      · obtain ⟨k, hbefore, hcell, hat⟩ := Tracks.mem_visitsLoop hnext hv
        rw [Nat.add_assoc, Nat.add_comm 1 k] at hcell hat
        refine ⟨k + 1, fun j hj => ?_, hcell, hat⟩
        cases j with
        | zero => exact hthere
        | succ j =>
          have := hbefore j (Nat.le_of_succ_le_succ hj)
          rw [Nat.add_assoc, Nat.add_comm 1 j] at this
          exact this

theorem nextTime_mono (r : GridRay Rat) : Monotone fun n => nextTime r (walkAt r n) :=
  monotone_nat_of_le_succ fun n => by
    have hle : walkAt r n ≤ walkAt r (n + 1) := by
      rw [walkAt_succ]
      exact Series.lt_advance.le
    exact min_le_min (r.xs.mono hle.1) (r.ys.mono hle.2)

/-- The times of entry do not go back. -/
theorem Tracks.visitsLoop_pairwise : ∀ {fuel m : Nat} {s : SegmentTraversal}, Tracks r s (walkAt r m) →
    (SegmentTraversal.visitsLoop fuel s).Pairwise fun v w => v.2 ≤ w.2
  | 0, _, _, _ => .nil
  | fuel + 1, m, s, h => by
    unfold SegmentTraversal.visitsLoop
    split
    · exact .nil
    · obtain ⟨hnext, htime, -⟩ := h.step
      rw [← walkAt_succ] at hnext
      rw [htime]
      refine List.pairwise_append.2 ⟨?_, hnext.visitsLoop_pairwise, ?_⟩
      · rw [List.pairwise_map]
        exact List.pairwise_of_forall fun _ _ => le_rfl
      · intro v hv w hw
        obtain ⟨cell, -, rfl⟩ := List.mem_map.1 hv
        obtain ⟨k, -, -, hat⟩ := Tracks.mem_visitsLoop hnext hw
        rw [hat]
        exact nextTime_mono r (by omega)

end Zohar.Nav
