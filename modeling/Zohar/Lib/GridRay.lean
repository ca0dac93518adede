/-
A point that moves on a straight line over a grid of unit cells in the plane: which cells it is in, in which order, and
when it goes over a corner of the grid.
-/
import Mathlib.Data.Rat.Cast.Order
import Mathlib.Data.Rat.Floor
import Zohar.Lib.GridAxis

namespace Zohar.Lib

/-- From `(startX, startY)` at time 0 to `(goalX, goalY)` at time 1. -/
structure GridRay (K : Type*) where
  startX : K
  goalX : K
  startY : K
  goalY : K

namespace GridRay

variable {K : Type*} [Field K] [LinearOrder K] (r : GridRay K)

/-- One coordinate grows and the other falls. -/
def Opposed : Prop := (r.startX < r.goalX ∧ r.goalY < r.startY) ∨ (r.goalX < r.startX ∧ r.startY < r.goalY)

/-- The point is a corner of the grid at time `t`. -/
def OnCorner (t : K) : Prop := ∃ i j : Int, pointAt r.startX r.goalX t = i ∧ pointAt r.startY r.goalY t = j

/-- At time `t` the point goes from a cell to the one diagonally opposite, over the corner `(i, j)`. -/
structure CrossesCorner (i j : Int) (t : K) : Prop where
  x : CrossesLine r.startX r.goalX i t
  y : CrossesLine r.startY r.goalY j t

/-- The latest of the first `n` lines, or the start. -/
def latest (s : Series (WithTop K)) : Nat → WithTop K
  | 0 => 0
  | k + 1 => s.time k

theorem le_latest {s : Series (WithTop K)} {k n : Nat} (hk : k < n) : s.time k ≤ latest s n := by
  cases n with
  | zero => exact absurd hk (Nat.not_lt_zero k)
  | succ n => exact s.mono (Nat.le_of_lt_succ hk)

theorem latest_lt {s : Series (WithTop K)} {n : Nat} {z : WithTop K} (h0 : 0 < z) (h : ∀ k < n, s.time k < z) :
    latest s n < z := by
  cases n with
  | zero => exact h0
  | succ k => exact h k (Nat.lt_succ_self k)

variable [FloorRing K]

/-- How many lines of each kind have been passed at time `t`. -/
def passed (t : K) : Nat × Nat := (passedLines r.startX r.goalX t, passedLines r.startY r.goalY t)

/-- The number of lines between the first and the last cell. -/
def last : Nat × Nat := r.passed 1

variable [IsStrictOrderedRing K]

def xs : Series (WithTop K) := lines r.startX r.goalX

def ys : Series (WithTop K) := lines r.startY r.goalY

variable {r} {p : Nat × Nat} {t : K}

theorem passed_le_last (ht : 0 ≤ t) (ht1 : t ≤ 1) : r.passed t ≤ r.last :=
  ⟨passedLines_mono ht ht1, passedLines_mono ht ht1⟩

theorem xs_le_one (h : p.1 < r.last.1) : r.xs.time p.1 ≤ (1 : K) := lineTime_le_of_lt zero_le_one h

theorem ys_le_one (h : p.2 < r.last.2) : r.ys.time p.2 ≤ (1 : K) := lineTime_le_of_lt zero_le_one h

/-- A line that is reached at a time after the start, by a coordinate that is not passing it: an integer coordinate. -/
theorem exists_eq_of_lineTime {a b t : K} {k : Nat} (h : lineTime a b k = t) : ∃ n : Int, pointAt a b t = n := by
  refine ⟨lineAt a b k, (lineTime_eq_coe_iff ?_).1 h⟩
  rintro rfl
  simp at h

/-- What has been passed at a time is in order, unless the point goes over a corner then with one coordinate growing and
the other falling. -/
theorem ordered_passed (ht : 0 ≤ t) (h : ¬ (r.Opposed ∧ 0 < t ∧ r.OnCorner t)) : r.xs.Ordered r.ys (r.passed t) := by
  -- a time at which one line is passed is not before `0`
  have hpos : ∀ {a b : K} {k : Nat}, k < passedLines a b t → 0 < t := fun {a b k} hk =>
    lt_of_le_of_ne ht (by rintro rfl; simp at hk)
  constructor
  · intro k hk
    have hx := lineTime_le_of_lt ht hk
    have hy := le_lineTime_of_le (a := r.startY) (b := r.goalY) ht le_rfl
    refine lt_of_le_of_ne (hx.trans hy) fun heq => h ?_
    have hxt := le_antisymm hx (hy.trans_eq heq.symm)
    have hyt := le_antisymm (heq.symm.trans_le hx) hy
    obtain ⟨i, hi⟩ := exists_eq_of_lineTime hxt
    obtain ⟨j, hj⟩ := exists_eq_of_lineTime hyt
    exact ⟨.inl ⟨lt_of_passed_at ht hk hxt, gt_of_not_passed_at ht le_rfl hyt⟩, hpos hk, i, j, hi, hj⟩
  · intro l hl
    have hy := lineTime_le_of_lt ht hl
    have hx := le_lineTime_of_le (a := r.startX) (b := r.goalX) ht le_rfl
    refine lt_of_le_of_ne (hy.trans hx) fun heq => h ?_
    have hyt := le_antisymm hy (hx.trans_eq heq.symm)
    have hxt := le_antisymm (heq.symm.trans_le hy) hx
    obtain ⟨i, hi⟩ := exists_eq_of_lineTime hxt
    obtain ⟨j, hj⟩ := exists_eq_of_lineTime hyt
    exact ⟨.inr ⟨gt_of_not_passed_at ht le_rfl hxt, lt_of_passed_at ht hl hyt⟩, hpos hl, i, j, hi, hj⟩

/-- The last cell is one of the walk unless the goal is a corner that is reached with opposed coordinates: then the line
of the coordinate that falls is due together with the last line of the other. -/
theorem ordered_last_iff : r.xs.Ordered r.ys r.last ↔ ¬ (r.Opposed ∧ r.OnCorner 1) := by
  constructor
  · rintro hord ⟨hopp, i, j, hi, hj⟩
    rw [pointAt_one] at hi hj
    rcases hopp with ⟨hx, hy⟩ | ⟨hx, hy⟩
    · obtain ⟨k, hk, htime⟩ := lineTime_last_of_lt hx hi
      have hlt : lineTime r.startX r.goalX k < lineTime r.startY r.goalY (passedLines r.startY r.goalY 1) :=
        hord.left k hk
      rw [htime, lineTime_last_of_gt hy hj] at hlt
      exact hlt.false
    · obtain ⟨l, hl, htime⟩ := lineTime_last_of_lt hy hj
      have hlt : lineTime r.startY r.goalY l < lineTime r.startX r.goalX (passedLines r.startX r.goalX 1) :=
        hord.right l hl
      rw [htime, lineTime_last_of_gt hx hi] at hlt
      exact hlt.false
  · exact fun h => ordered_passed zero_le_one fun ⟨hopp, _, hcorner⟩ => h ⟨hopp, hcorner⟩

theorem passedLines_eq_of_between {a b : K} {n : Nat} (ht : 0 ≤ t) (hbefore : ∀ k < n, lineTime a b k < t)
    (hafter : (t : WithTop K) < lineTime a b n) : passedLines a b t = n := by
  rcases lt_trichotomy a b with h | rfl | h
  · refine le_antisymm (not_lt.1 fun hlt => ?_) (not_lt.1 fun hlt => ?_)
    · exact absurd ((lineTime_le_iff h ht n).2 hlt) hafter.not_ge
    · exact absurd ((lineTime_le_iff h ht _).1 (hbefore _ hlt).le) (lt_irrefl _)
  · rw [passedLines_self]
    refine (Nat.eq_zero_of_not_pos fun hpos => ?_).symm
    simpa using hbefore 0 hpos
  · refine le_antisymm (not_lt.1 fun hlt => ?_) (not_lt.1 fun hlt => ?_)
    · exact absurd ((lineTime_lt_iff h ht n).2 hlt) hafter.asymm
    · exact absurd ((lineTime_lt_iff h ht _).1 (hbefore _ hlt)) (lt_irrefl _)

/-- A position in order on the way is that of some time, and no corner is gone over then with opposed coordinates. -/
theorem exists_passed (hgood : ¬ (r.Opposed ∧ r.OnCorner 1)) (hord : r.xs.Ordered r.ys p) (hp : p ≤ r.last) :
    ∃ t, 0 ≤ t ∧ t ≤ 1 ∧ r.passed t = p ∧ ¬ (r.Opposed ∧ 0 < t ∧ r.OnCorner t) := by
  by_cases hlast : p = r.last
  · exact ⟨1, zero_le_one, le_rfl, hlast.symm, fun ⟨hopp, _, hcorner⟩ => hgood ⟨hopp, hcorner⟩⟩
  by_cases hzero : p = (0, 0)
  · subst hzero
    exact ⟨0, le_rfl, zero_le_one, by simp [passed], fun ⟨_, h, _⟩ => h.false⟩
  -- the next line is due by time 1, and every line that has been passed was earlier
  have hnext : min (r.xs.time p.1) (r.ys.time p.2) ≤ (1 : K) := by
    rcases Prod.lt_iff.1 (lt_of_le_of_ne hp hlast) with ⟨h, -⟩ | ⟨-, h⟩
    · exact (min_le_left _ _).trans (xs_le_one h)
    · exact (min_le_right _ _).trans (ys_le_one h)
  have hx : ∀ k < p.1, r.xs.time k < min (r.xs.time p.1) (r.ys.time p.2) := by
    intro k hk
    have hlt := hord.left k hk
    exact lt_min ((r.xs.strict k hlt.ne_top).trans_le (r.xs.mono hk)) hlt
  have hy : ∀ l < p.2, r.ys.time l < min (r.xs.time p.1) (r.ys.time p.2) := by
    intro l hl
    have hlt := hord.right l hl
    exact lt_min hlt ((r.ys.strict l hlt.ne_top).trans_le (r.ys.mono hl))
  have hstart : 0 < min (r.xs.time p.1) (r.ys.time p.2) := by
    rcases Nat.eq_zero_or_pos p.1 with h1 | h1
    · have h2 : 0 < p.2 := Nat.pos_of_ne_zero fun h2 => hzero (Prod.ext h1 h2)
      exact (lineTime_nonneg _ _ 0).trans_lt (hy 0 h2)
    · exact (lineTime_nonneg _ _ 0).trans_lt (hx 0 h1)
  have hprev : max (latest r.xs p.1) (latest r.ys p.2) < min (r.xs.time p.1) (r.ys.time p.2) :=
    max_lt (latest_lt hstart hx) (latest_lt hstart hy)
  obtain ⟨u, hu⟩ := WithTop.ne_top_iff_exists.1 (hnext.trans_lt (WithTop.coe_lt_top 1)).ne
  obtain ⟨s, hs⟩ := WithTop.ne_top_iff_exists.1 hprev.ne_top
  rw [← hu] at hnext hprev
  rw [← hs, WithTop.coe_lt_coe] at hprev
  obtain ⟨t, hst, htu⟩ := exists_between hprev
  have hs0 : 0 ≤ s := by
    have h0 : (0 : WithTop K) ≤ latest r.xs p.1 := by
      cases p.1 with
      | zero => exact le_rfl
      | succ k => exact lineTime_nonneg _ _ k
    exact WithTop.coe_le_coe.1 ((h0.trans (le_max_left _ _)).trans_eq hs.symm)
  have ht0 : 0 < t := hs0.trans_lt hst
  have hbefore : ∀ {z : WithTop K}, z ≤ max (latest r.xs p.1) (latest r.ys p.2) → z < t := fun hz =>
    (hz.trans_eq hs.symm).trans_lt (WithTop.coe_lt_coe.2 hst)
  have hafter : ∀ {z : WithTop K}, min (r.xs.time p.1) (r.ys.time p.2) ≤ z → (t : WithTop K) < z := fun hz =>
    (WithTop.coe_lt_coe.2 htu).trans_le (hu.trans_le hz)
  have hxb : ∀ k < p.1, r.xs.time k < t := fun k hk => hbefore ((le_latest hk).trans (le_max_left _ _))
  have hyb : ∀ l < p.2, r.ys.time l < t := fun l hl => hbefore ((le_latest hl).trans (le_max_right _ _))
  have hxa : ∀ k, p.1 ≤ k → (t : WithTop K) < r.xs.time k := fun k hk =>
    hafter ((min_le_left _ _).trans (r.xs.mono hk))
  refine ⟨t, ht0.le, (htu.trans_le (WithTop.coe_le_coe.1 hnext)).le, ?_, ?_⟩
  · exact Prod.ext (passedLines_eq_of_between ht0.le hxb (hxa p.1 le_rfl))
      (passedLines_eq_of_between ht0.le hyb (hafter (min_le_right _ _)))
  · -- no line is reached just then
    rintro ⟨hopp, -, i, j, hi, -⟩
    have hne : r.startX ≠ r.goalX := hopp.elim (fun h => h.1.ne) fun h => h.1.ne'
    obtain ⟨k, rfl⟩ := exists_lineAt hi ((lt_or_gt_of_ne hne).imp (fun h => ⟨h, ht0⟩) fun h => ⟨h, ht0.le⟩)
    have htime : r.xs.time k = t := (lineTime_eq_coe_iff hne).2 hi
    rcases Nat.lt_or_ge k p.1 with hk | hk
    · exact (hxb k hk).ne htime
    · exact (hxa k hk).ne' htime

/-- A corner is gone over where two lines are due together before the last cell is reached. -/
theorem crossesCorner_iff {i j : Int} : r.CrossesCorner i j t ↔ ∃ p : Nat × Nat, p.1 < r.last.1 ∧ p.2 < r.last.2 ∧
    r.xs.time p.1 = t ∧ r.ys.time p.2 = t ∧ i = lineAt r.startX r.goalX p.1 ∧ j = lineAt r.startY r.goalY p.2 := by
  constructor
  · rintro ⟨hx, hy⟩
    obtain ⟨k, hk, hkt, hki⟩ := crossesLine_iff.1 hx
    obtain ⟨l, hl, hlt, hlj⟩ := crossesLine_iff.1 hy
    exact ⟨(k, l), hk, hl, hkt, hlt, hki, hlj⟩
  · rintro ⟨⟨k, l⟩, hk, hl, hkt, hlt, hki, hlj⟩
    exact ⟨crossesLine_iff.2 ⟨k, hk, hkt, hki⟩, crossesLine_iff.2 ⟨l, hl, hlt, hlj⟩⟩

end GridRay

/-! ## Rational motions in a larger field -/

section Cast

variable {K : Type*} [Field K] [LinearOrder K] [IsStrictOrderedRing K] {a b : Rat}

omit [LinearOrder K] [IsStrictOrderedRing K] in
theorem pointAt_ratCast [CharZero K] (a b t : Rat) : pointAt (a : K) b t = (pointAt a b t : Rat) := by
  unfold pointAt
  push_cast
  rfl

@[simp] theorem direction_ratCast : direction (a : K) b = direction a b := by
  unfold direction
  simp only [Rat.cast_lt]

variable [FloorRing K]

theorem lineTime_ratCast (k : Nat) : lineTime (a : K) b k = (lineTime a b k).map fun t : Rat => (t : K) := by
  rcases lt_trichotomy a b with h | rfl | h
  · rw [lineTime_of_lt h, lineTime_of_lt (Rat.cast_lt.2 h), Rat.floor_cast, WithTop.map_coe]
    push_cast
    rfl
  · rw [lineTime_self, lineTime_self, WithTop.map_top]
  · rw [lineTime_of_gt h, lineTime_of_gt (Rat.cast_lt.2 h), Rat.floor_cast, WithTop.map_coe]
    push_cast
    rfl

variable (K) in
def GridRay.ratCast (r : GridRay Rat) : GridRay K := ⟨r.startX, r.goalX, r.startY, r.goalY⟩

variable {r : GridRay Rat} {p : Nat × Nat}

theorem GridRay.xs_ratCast (k : Nat) : (r.ratCast K).xs.time k = (r.xs.time k).map fun t : Rat => (t : K) :=
  lineTime_ratCast k

theorem GridRay.ys_ratCast (k : Nat) : (r.ratCast K).ys.time k = (r.ys.time k).map fun t : Rat => (t : K) :=
  lineTime_ratCast k

/-- The lines come in the same order. -/
theorem GridRay.ordered_ratCast : (r.ratCast K).xs.Ordered (r.ratCast K).ys p ↔ r.xs.Ordered r.ys p := by
  have hmono : StrictMono (WithTop.map fun t : Rat => (t : K)) := Rat.cast_strictMono.withTop_map
  constructor
  · rintro ⟨hx, hy⟩
    refine ⟨fun k hk => hmono.lt_iff_lt.1 ?_, fun l hl => hmono.lt_iff_lt.1 ?_⟩
    · rw [← xs_ratCast, ← ys_ratCast]
      exact hx k hk
    · rw [← xs_ratCast, ← ys_ratCast]
      exact hy l hl
  · rintro ⟨hx, hy⟩
    refine ⟨fun k hk => ?_, fun l hl => ?_⟩
    · rw [xs_ratCast, ys_ratCast]
      exact hmono (hx k hk)
    · rw [xs_ratCast, ys_ratCast]
      exact hmono (hy l hl)

end Cast

end Zohar.Lib
