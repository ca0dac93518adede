/-
One coordinate of a point that moves on a straight line over a grid of unit cells. A point on a grid line belongs to the
upper cell, so the lines are passed when they are reached by a coordinate that grows, and when they are left behind by
one that falls.
-/
import Zohar.Lib.Staircase
import Mathlib.Algebra.Order.Floor.Ring
import Mathlib.Algebra.Order.Field.Basic
import Mathlib.Tactic.Linarith
import Mathlib.Tactic.FieldSimp

namespace Zohar.Lib

section

variable {K : Type*} [LinearOrder K]

/-- The sign of the motion. -/
def direction (a b : K) : Int := if a < b then 1 else if b < a then -1 else 0

theorem direction_of_lt {a b : K} (h : a < b) : direction a b = 1 := if_pos h

theorem direction_of_gt {a b : K} (h : b < a) : direction a b = -1 := by
  unfold direction
  rw [if_neg h.asymm, if_pos h]

@[simp] theorem direction_self (a : K) : direction a a = 0 := by simp [direction]

end

variable {K : Type*} [Field K]

/-- The coordinate at time `t`, from `a` at time 0 to `b` at time 1. -/
def pointAt (a b t : K) : K := a + t * (b - a)

@[simp] theorem pointAt_zero (a b : K) : pointAt a b 0 = a := by simp [pointAt]

@[simp] theorem pointAt_one (a b : K) : pointAt a b 1 = b := by simp [pointAt]

@[simp] theorem pointAt_self (a t : K) : pointAt a a t = a := by simp [pointAt]

variable [LinearOrder K]

/-! ## Crossings -/

/-- At time `t` the coordinate goes from one cell to the next, over the line `n`. -/
structure CrossesLine (a b : K) (n : Int) (t : K) : Prop where
  onLine : pointAt a b t = n
  within : (a < b ∧ 0 < t ∧ t ≤ 1) ∨ (b < a ∧ 0 ≤ t ∧ t < 1)

/-- The cells before and after the crossing of the line `n`. -/
def cellBefore (a b : K) (n : Int) : Int := if a < b then n - 1 else n

def cellAfter (a b : K) (n : Int) : Int := if a < b then n else n - 1

theorem CrossesLine.nonneg {a b t : K} {n : Int} (h : CrossesLine a b n t) : 0 ≤ t := by
  rcases h.within with ⟨_, h, _⟩ | ⟨_, h, _⟩
  · exact h.le
  · exact h

theorem CrossesLine.le_one {a b t : K} {n : Int} (h : CrossesLine a b n t) : t ≤ 1 := by
  rcases h.within with ⟨_, _, h⟩ | ⟨_, _, h⟩
  · exact h
  · exact h.le

/-! ## Lines -/

variable [FloorRing K]

/-- When the `k`-th grid line is reached. -/
def lineTime (a b : K) (k : Nat) : WithTop K :=
  if a < b then ((⌊a⌋ + 1 + k - a) / (b - a) : K) else if b < a then ((a - ⌊a⌋ + k) / (a - b) : K) else ⊤

theorem lineTime_of_lt {a b : K} (h : a < b) (k : Nat) : lineTime a b k = ((⌊a⌋ + 1 + k - a) / (b - a) : K) := if_pos h

theorem lineTime_of_gt {a b : K} (h : b < a) (k : Nat) : lineTime a b k = ((a - ⌊a⌋ + k) / (a - b) : K) := by
  unfold lineTime
  rw [if_neg h.asymm, if_pos h]

@[simp] theorem lineTime_self (a : K) (k : Nat) : lineTime a a k = ⊤ := by simp [lineTime]

/-- Where the `k`-th grid line is. -/
def lineAt (a b : K) (k : Nat) : Int := if a < b then ⌊a⌋ + 1 + k else ⌊a⌋ - k

theorem lineTime_eq_top_iff {a b : K} {k : Nat} : lineTime a b k = ⊤ ↔ a = b := by
  rcases lt_trichotomy a b with h | rfl | h
  · rw [lineTime_of_lt h]
    exact iff_of_false WithTop.coe_ne_top h.ne
  · simp
  · rw [lineTime_of_gt h]
    exact iff_of_false WithTop.coe_ne_top h.ne'

theorem cellBefore_lineAt {a b : K} (h : a ≠ b) (k : Nat) :
    cellBefore a b (lineAt a b k) = ⌊a⌋ + direction a b * k := by
  unfold cellBefore lineAt
  rcases lt_or_gt_of_ne h with h | h
  · rw [if_pos h, if_pos h, direction_of_lt h]
    omega
  · rw [if_neg h.asymm, if_neg h.asymm, direction_of_gt h]
    omega

theorem cellAfter_lineAt {a b : K} (h : a ≠ b) (k : Nat) :
    cellAfter a b (lineAt a b k) = ⌊a⌋ + direction a b * (k + 1 : Nat) := by
  unfold cellAfter lineAt
  rcases lt_or_gt_of_ne h with h | h
  · rw [if_pos h, if_pos h, direction_of_lt h]
    omega
  · rw [if_neg h.asymm, if_neg h.asymm, direction_of_gt h]
    omega

/-- How many lines have been passed at time `t`. -/
def passedLines (a b t : K) : Nat := (⌊pointAt a b t⌋ - ⌊a⌋).natAbs

@[simp] theorem passedLines_self (a t : K) : passedLines a a t = 0 := by simp [passedLines]

@[simp] theorem passedLines_zero (a b : K) : passedLines a b 0 = 0 := by simp [passedLines]

theorem passedLines_one (a b : K) : passedLines a b 1 = (⌊b⌋ - ⌊a⌋).natAbs := by
  unfold passedLines
  rw [pointAt_one]

variable [IsStrictOrderedRing K]

theorem lineTime_eq_coe_iff {a b t : K} (h : a ≠ b) {k : Nat} : lineTime a b k = t ↔ pointAt a b t = lineAt a b k := by
  unfold lineAt pointAt
  rcases lt_or_gt_of_ne h with h | h
  · rw [lineTime_of_lt h, WithTop.coe_eq_coe, div_eq_iff (sub_pos.2 h).ne', if_pos h]
    push_cast
    constructor
    · intro h
      linarith
    · intro h
      linarith
  · rw [lineTime_of_gt h, WithTop.coe_eq_coe, div_eq_iff (sub_pos.2 h).ne', if_neg h.asymm]
    push_cast
    constructor
    · intro h
      linarith
    · intro h
      linarith

theorem lineTime_lt_succ {a b : K} (h : a ≠ b) (k : Nat) : lineTime a b k < lineTime a b (k + 1) := by
  rcases lt_or_gt_of_ne h with h | h
  · rw [lineTime_of_lt h, lineTime_of_lt h, WithTop.coe_lt_coe, div_lt_div_iff_of_pos_right (sub_pos.2 h)]
    push_cast
    linarith
  · rw [lineTime_of_gt h, lineTime_of_gt h, WithTop.coe_lt_coe, div_lt_div_iff_of_pos_right (sub_pos.2 h)]
    push_cast
    linarith

/-- The grid lines of one coordinate. -/
def lines (a b : K) : Series (WithTop K) where
  time := lineTime a b
  mono := monotone_nat_of_le_succ fun k => by
    by_cases h : a = b
    · subst h
      simp
    · exact (lineTime_lt_succ h k).le
  strict := fun k hk => lineTime_lt_succ (fun h => hk (lineTime_eq_top_iff.2 h)) k

@[simp] theorem lines_time (a b : K) (k : Nat) : (lines a b).time k = lineTime a b k := rfl

theorem lineTime_nonneg (a b : K) (k : Nat) : 0 ≤ lineTime a b k := by
  have hfloor := Int.floor_le a
  have hceil := Int.lt_floor_add_one a
  have hk : (0 : K) ≤ k := Nat.cast_nonneg k
  rcases lt_trichotomy a b with h | rfl | h
  · rw [lineTime_of_lt h]
    exact WithTop.coe_le_coe.2 (div_nonneg (by linarith) (sub_pos.2 h).le)
  · simp
  · rw [lineTime_of_gt h]
    exact WithTop.coe_le_coe.2 (div_nonneg (by linarith) (sub_pos.2 h).le)

/-! ## Cells -/

theorem floor_pointAt {a b t : K} (ht : 0 ≤ t) : ⌊pointAt a b t⌋ = ⌊a⌋ + direction a b * passedLines a b t := by
  unfold passedLines
  rcases lt_trichotomy a b with h | rfl | h
  · have hle : ⌊a⌋ ≤ ⌊pointAt a b t⌋ := Int.floor_le_floor (by
      have := mul_nonneg ht (sub_pos.2 h).le
      unfold pointAt
      linarith)
    rw [direction_of_lt h]
    omega
  · simp
  · have hle : ⌊pointAt a b t⌋ ≤ ⌊a⌋ := Int.floor_le_floor (by
      have := mul_nonneg ht (sub_pos.2 h).le
      unfold pointAt
      linarith)
    rw [direction_of_gt h]
    omega

/-- A coordinate that grows has passed a line as soon as it is there. -/
theorem lineTime_le_iff {a b t : K} (h : a < b) (ht : 0 ≤ t) (k : Nat) :
    lineTime a b k ≤ t ↔ k < passedLines a b t := by
  have hfloor := floor_pointAt (a := a) (b := b) ht
  rw [direction_of_lt h] at hfloor
  rw [lineTime_of_lt h, WithTop.coe_le_coe, div_le_iff₀ (sub_pos.2 h)]
  have hline : (⌊a⌋ + 1 + k - a : K) ≤ t * (b - a) ↔ ((⌊a⌋ + 1 + k : Int) : K) ≤ pointAt a b t := by
    unfold pointAt
    push_cast
    constructor
    · intro h
      linarith
    · intro h
      linarith
  rw [hline, ← Int.le_floor, hfloor]
  omega

/-- A coordinate that falls has passed it only when it is below. -/
theorem lineTime_lt_iff {a b t : K} (h : b < a) (ht : 0 ≤ t) (k : Nat) :
    lineTime a b k < t ↔ k < passedLines a b t := by
  have hfloor := floor_pointAt (a := a) (b := b) ht
  rw [direction_of_gt h] at hfloor
  rw [lineTime_of_gt h, WithTop.coe_lt_coe, div_lt_iff₀ (sub_pos.2 h)]
  have hline : (a - ⌊a⌋ + k : K) < t * (a - b) ↔ pointAt a b t < ((⌊a⌋ - k : Int) : K) := by
    unfold pointAt
    push_cast
    constructor
    · intro h
      linarith
    · intro h
      linarith
  rw [hline, ← Int.floor_lt, hfloor]
  omega

/-- What has been passed was reached before. -/
theorem lineTime_le_of_lt {a b t : K} (ht : 0 ≤ t) {k : Nat} (hk : k < passedLines a b t) : lineTime a b k ≤ t := by
  rcases lt_trichotomy a b with h | rfl | h
  · exact (lineTime_le_iff h ht k).2 hk
  · simp at hk
  · exact ((lineTime_lt_iff h ht k).2 hk).le

/-- What has not been passed is reached later, or now. -/
theorem le_lineTime_of_le {a b t : K} (ht : 0 ≤ t) {k : Nat} (hk : passedLines a b t ≤ k) : t ≤ lineTime a b k := by
  rcases lt_trichotomy a b with h | rfl | h
  · exact (lt_of_not_ge fun hle => hk.not_gt ((lineTime_le_iff h ht k).1 hle)).le
  · simp
  · exact le_of_not_gt fun hlt => hk.not_gt ((lineTime_lt_iff h ht k).1 hlt)

theorem passedLines_mono {a b t u : K} (ht : 0 ≤ t) (htu : t ≤ u) : passedLines a b t ≤ passedLines a b u := by
  by_contra hlt
  have hk := not_le.1 hlt
  rcases lt_trichotomy a b with h | rfl | h
  · have := ((lineTime_le_iff h ht _).2 hk).trans (WithTop.coe_le_coe.2 htu)
    exact absurd ((lineTime_le_iff h (ht.trans htu) _).1 this) (lt_irrefl _)
  · simp at hk
  · have := ((lineTime_lt_iff h ht _).2 hk).trans_le (WithTop.coe_le_coe.2 htu)
    exact absurd ((lineTime_lt_iff h (ht.trans htu) _).1 this) (lt_irrefl _)

/-- A line that is passed just when it is reached: the coordinate grows. -/
theorem lt_of_passed_at {a b t : K} (ht : 0 ≤ t) {k : Nat} (hk : k < passedLines a b t) (hat : lineTime a b k = t) :
    a < b := by
  rcases lt_trichotomy a b with h | rfl | h
  · exact h
  · simp at hk
  · have := (lineTime_lt_iff h ht k).2 hk
    rw [hat] at this
    exact (this.false).elim

/-- A line that is reached and not passed: the coordinate falls. -/
theorem gt_of_not_passed_at {a b t : K} (ht : 0 ≤ t) {k : Nat} (hk : passedLines a b t ≤ k) (hat : lineTime a b k = t) :
    b < a := by
  rcases lt_trichotomy a b with h | rfl | h
  · exact absurd ((lineTime_le_iff h ht k).1 hat.le) hk.not_gt
  · simp at hat
  · exact h

/-- What is reached at some time after the start is one of the lines. -/
theorem exists_lineAt {a b t : K} {n : Int} (hon : pointAt a b t = n) (ht : (a < b ∧ 0 < t) ∨ (b < a ∧ 0 ≤ t)) :
    ∃ k, n = lineAt a b k := by
  unfold pointAt at hon
  unfold lineAt
  rcases ht with ⟨h, ht⟩ | ⟨h, ht⟩
  · have hmove := mul_pos ht (sub_pos.2 h)
    have hfloor : ⌊a⌋ < n := Int.floor_lt.2 (by linarith)
    refine ⟨(n - ⌊a⌋ - 1).toNat, ?_⟩
    rw [if_pos h]
    omega
  · have hmove := mul_nonneg ht (sub_pos.2 h).le
    have hfloor : n ≤ ⌊a⌋ := Int.le_floor.2 (by linarith)
    refine ⟨(⌊a⌋ - n).toNat, ?_⟩
    rw [if_neg h.asymm]
    omega

/-- The lines that are crossed are those the walk to the last cell has to pass. -/
theorem crossesLine_iff {a b t : K} {n : Int} :
    CrossesLine a b n t ↔ ∃ k < passedLines a b 1, lineTime a b k = t ∧ n = lineAt a b k := by
  constructor
  · rintro ⟨hon, hwithin⟩
    obtain ⟨k, rfl⟩ := exists_lineAt hon (hwithin.imp (fun h => ⟨h.1, h.2.1⟩) fun h => ⟨h.1, h.2.1⟩)
    have hne : a ≠ b := hwithin.elim (fun h => h.1.ne) fun h => h.1.ne'
    have htime := (lineTime_eq_coe_iff hne).2 hon
    refine ⟨k, ?_, htime, rfl⟩
    rcases hwithin with ⟨h, -, hle⟩ | ⟨h, -, hlt⟩
    · rw [← lineTime_le_iff h zero_le_one, htime]
      exact WithTop.coe_le_coe.2 hle
    · rw [← lineTime_lt_iff h zero_le_one, htime]
      exact WithTop.coe_lt_coe.2 hlt
  · rintro ⟨k, hk, htime, rfl⟩
    have hnonneg := lineTime_nonneg a b k
    rw [htime] at hnonneg
    replace hnonneg : 0 ≤ t := WithTop.coe_le_coe.1 hnonneg
    rcases lt_trichotomy a b with h | rfl | h
    · have hon := (lineTime_eq_coe_iff h.ne).1 htime
      refine ⟨hon, .inl ⟨h, lt_of_le_of_ne hnonneg ?_, ?_⟩⟩
      · rintro rfl
        rw [pointAt_zero, lineAt, if_pos h] at hon
        have hceil := Int.lt_floor_add_one a
        have hk0 : (0 : K) ≤ k := Nat.cast_nonneg k
        push_cast at hon
        linarith
      · have := (lineTime_le_iff h zero_le_one k).2 hk
        rw [htime] at this
        exact WithTop.coe_le_coe.1 this
    · simp at hk
    · refine ⟨(lineTime_eq_coe_iff h.ne').1 htime, .inr ⟨h, hnonneg, ?_⟩⟩
      have := (lineTime_lt_iff h zero_le_one k).2 hk
      rw [htime] at this
      exact WithTop.coe_lt_coe.1 this

/-! ## The end of the way -/

/-- On the way every cell is between the first and the last. -/
theorem cell_between {a b : K} {n : Nat} (hn : n ≤ passedLines a b 1) :
    min ⌊a⌋ ⌊b⌋ ≤ ⌊a⌋ + direction a b * n ∧ ⌊a⌋ + direction a b * n ≤ max ⌊a⌋ ⌊b⌋ := by
  have hlast := floor_pointAt (a := a) (b := b) zero_le_one
  rw [pointAt_one] at hlast
  rcases lt_trichotomy a b with h | rfl | h
  · rw [direction_of_lt h] at hlast ⊢
    omega
  · simp
  · rw [direction_of_gt h] at hlast ⊢
    omega

omit [IsStrictOrderedRing K] in
/-- No cell on the way is met twice. -/
theorem cell_injective {a b : K} {m n : Nat} (hm : m ≤ passedLines a b 1) (hn : n ≤ passedLines a b 1)
    (h : ⌊a⌋ + direction a b * m = ⌊a⌋ + direction a b * n) : m = n := by
  rcases lt_trichotomy a b with hab | rfl | hab
  · rw [direction_of_lt hab] at h
    omega
  · rw [passedLines_self] at hm hn
    omega
  · rw [direction_of_gt hab] at h
    omega

/-- A coordinate that grows to an integer passes its last line at the end. -/
theorem lineTime_last_of_lt {a b : K} (h : a < b) {n : Int} (hn : b = n) :
    ∃ k < passedLines a b 1, lineTime a b k = (1 : K) := by
  obtain ⟨k, hk, htime, -⟩ :=
    crossesLine_iff.1 (⟨by rw [pointAt_one, hn], .inl ⟨h, zero_lt_one, le_rfl⟩⟩ : CrossesLine a b n 1)
  exact ⟨k, hk, htime⟩

/-- One that falls to an integer has reached a line that it does not pass. -/
theorem lineTime_last_of_gt {a b : K} (h : b < a) {n : Int} (hn : b = n) :
    lineTime a b (passedLines a b 1) = (1 : K) := by
  have hon : pointAt a b 1 = n := by rw [pointAt_one, hn]
  obtain ⟨k, hline⟩ := exists_lineAt hon (.inr ⟨h, zero_le_one⟩)
  rw [hline] at hon
  have htime := (lineTime_eq_coe_iff h.ne').2 hon
  have hfloor := floor_pointAt (a := a) (b := b) zero_le_one
  rw [direction_of_gt h, hon, Int.floor_intCast, lineAt, if_neg h.asymm] at hfloor
  obtain rfl : k = passedLines a b 1 := by omega
  exact htime

end Zohar.Lib
