/-
Two series of events in the order of their times. A position says how many of each series have happened; a step takes
whatever is next, both at once if they are simultaneous. A position can be reached exactly if everything that has
happened in it is earlier than everything that has not, and the reachable positions form a chain.
-/
import Mathlib.Order.WithBot
import Mathlib.Data.Prod.Lex
import Mathlib.Logic.Function.Iterate
import Mathlib.Order.Monotone.Basic
import Mathlib.Data.Nat.Find
import Mathlib.Tactic.Common

namespace Zohar.Lib

/-- The times of a series of events; `⊤` is never, and no two events are simultaneous. -/
structure Series (T : Type*) [LinearOrder T] [OrderTop T] where
  time : Nat → T
  mono : Monotone time
  strict : ∀ k, time k ≠ ⊤ → time k < time (k + 1)

namespace Series

variable {T : Type*} [LinearOrder T] [OrderTop T] (x y : Series T)

/-- The next position of the pair of series. -/
def advance (c : Nat × Nat) : Nat × Nat :=
  if x.time c.1 < y.time c.2 then (c.1 + 1, c.2)
  else if y.time c.2 < x.time c.1 then (c.1, c.2 + 1)
  else (c.1 + 1, c.2 + 1)

/-- What has happened is earlier than what has not. -/
structure Ordered (c : Nat × Nat) : Prop where
  left : ∀ k < c.1, x.time k < y.time c.2
  right : ∀ l < c.2, y.time l < x.time c.1

variable {x y} {c d : Nat × Nat}

theorem ordered_zero : x.Ordered y (0, 0) where
  left := nofun
  right := nofun

theorem advance_of_lt (h : x.time c.1 < y.time c.2) : x.advance y c = (c.1 + 1, c.2) := if_pos h

theorem advance_of_gt (h : y.time c.2 < x.time c.1) : x.advance y c = (c.1, c.2 + 1) := by
  unfold advance
  rw [if_neg h.asymm, if_pos h]

theorem advance_of_eq (h : x.time c.1 = y.time c.2) : x.advance y c = (c.1 + 1, c.2 + 1) := by
  unfold advance
  rw [if_neg h.not_lt, if_neg h.symm.not_lt]

theorem lt_advance : c < x.advance y c := by
  rcases lt_trichotomy (x.time c.1) (y.time c.2) with h | h | h
  · rw [advance_of_lt h]
    exact Prod.mk_lt_mk.2 (.inl ⟨Nat.lt_succ_self _, le_rfl⟩)
  · rw [advance_of_eq h]
    exact Prod.mk_lt_mk.2 (.inl ⟨Nat.lt_succ_self _, Nat.le_succ _⟩)
  · rw [advance_of_gt h]
    exact Prod.mk_lt_mk.2 (.inr ⟨le_rfl, Nat.lt_succ_self _⟩)

/-- A step takes an event of each series that is due first. -/
theorem lt_advance_fst (h : x.time c.1 ≤ y.time c.2) : c.1 < (x.advance y c).1 := by
  rcases h.lt_or_eq with h | h
  · rw [advance_of_lt h]
    exact Nat.lt_succ_self _
  · rw [advance_of_eq h]
    exact Nat.lt_succ_self _

theorem lt_advance_snd (h : y.time c.2 ≤ x.time c.1) : c.2 < (x.advance y c).2 := by
  rcases h.lt_or_eq with h | h
  · rw [advance_of_gt h]
    exact Nat.lt_succ_self _
  · rw [advance_of_eq h.symm]
    exact Nat.lt_succ_self _

/-- Two events at the same time: all that is before them has happened. -/
theorem ordered_of_eq (h : x.time c.1 = y.time c.2) (hfin : x.time c.1 ≠ ⊤) : x.Ordered y c := by
  have hlt : ∀ {z : Series T} {k n : Nat}, k < n → z.time n ≠ ⊤ → z.time k < z.time n := by
    intro z k n hk hn
    have hle := z.mono (Nat.succ_le_of_lt hk)
    exact (z.strict k fun htop => hn (top_le_iff.1 (htop ▸ z.mono hk.le))).trans_le hle
  constructor
  · intro k hk
    rw [← h]
    exact hlt hk hfin
  · intro l hl
    rw [h]
    exact hlt hl (h ▸ hfin)

/-- A step keeps the order as long as something is still to happen. -/
theorem Ordered.advance (h : x.Ordered y c) (hfin : x.time c.1 ≠ ⊤ ∨ y.time c.2 ≠ ⊤) : x.Ordered y (x.advance y c) := by
  rcases lt_trichotomy (x.time c.1) (y.time c.2) with hlt | heq | hgt
  · rw [advance_of_lt hlt]
    refine ⟨fun k hk => ?_, fun l hl => (h.right l hl).trans_le (x.mono (Nat.le_succ _))⟩
    rcases Nat.lt_succ_iff_lt_or_eq.1 hk with hk | rfl
    · exact h.left k hk
    · exact hlt
  · rw [advance_of_eq heq]
    have hx : x.time c.1 ≠ ⊤ := hfin.elim id fun hy => heq ▸ hy
    have hxs := x.strict c.1 hx
    have hys := y.strict c.2 (heq ▸ hx)
    constructor
    · intro k hk
      exact (x.mono (Nat.le_of_lt_succ hk)).trans_lt (heq.trans_lt hys)
    · intro l hl
      exact (y.mono (Nat.le_of_lt_succ hl)).trans_lt (heq.symm.trans_lt hxs)
  · rw [advance_of_gt hgt]
    refine ⟨fun k hk => (h.left k hk).trans_le (y.mono (Nat.le_succ _)), fun l hl => ?_⟩
    rcases Nat.lt_succ_iff_lt_or_eq.1 hl with hl | rfl
    · exact h.right l hl
    · exact hgt

/-- Below a position that is in order, no step leaves it behind. -/
theorem Ordered.advance_le (hd : x.Ordered y d) (hcd : c < d) :
    x.advance y c ≤ d ∧ (x.time c.1 ≠ ⊤ ∨ y.time c.2 ≠ ⊤) := by
  have hle : c.1 ≤ d.1 ∧ c.2 ≤ d.2 := hcd.le
  have hne : c.1 < d.1 ∨ c.2 < d.2 := by
    rcases Prod.lt_iff.1 hcd with ⟨h, -⟩ | ⟨-, h⟩
    · exact .inl h
    · exact .inr h
  -- an event of one series that is due before `d` is earlier than an event of the other that is not
  have hx : c.1 < d.1 → x.time c.1 < y.time d.2 := hd.left c.1
  have hy : c.2 < d.2 → y.time c.2 < x.time d.1 := hd.right c.2
  constructor
  · rcases lt_trichotomy (x.time c.1) (y.time c.2) with h | h | h
    · rw [advance_of_lt h]
      refine ⟨Nat.succ_le_of_lt (lt_of_le_of_ne hle.1 fun he => ?_), hle.2⟩
      have := hy (hne.resolve_left (by omega))
      rw [← he] at this
      exact this.asymm h
    · rw [advance_of_eq h]
      refine ⟨Nat.succ_le_of_lt (lt_of_le_of_ne hle.1 fun he => ?_),
        Nat.succ_le_of_lt (lt_of_le_of_ne hle.2 fun he => ?_)⟩
      · have := hy (hne.resolve_left (by omega))
        rw [← he, h] at this
        exact this.false
      · have := hx (hne.resolve_right (by omega))
        rw [← he, h] at this
        exact this.false
    · rw [advance_of_gt h]
      refine ⟨hle.1, Nat.succ_le_of_lt (lt_of_le_of_ne hle.2 fun he => ?_)⟩
      have := hx (hne.resolve_right (by omega))
      rw [← he] at this
      exact this.asymm h
  · rcases hne with h | h
    · exact .inl (hx h).ne_top
    · exact .inr (hy h).ne_top

/-! ## Runs -/

variable (x y) in
/-- The position after `n` steps. -/
def position (n : Nat) : Nat × Nat := (x.advance y)^[n] (0, 0)

@[simp] theorem position_zero : x.position y 0 = (0, 0) := rfl

theorem position_succ (n : Nat) : x.position y (n + 1) = x.advance y (x.position y n) := Function.iterate_succ_apply' ..

theorem strictMono_position : StrictMono (x.position y) :=
  strictMono_nat_of_lt_succ fun n => by
    rw [position_succ]
    exact lt_advance

/-- Every step adds to the sum. -/
theorem le_position (n : Nat) : n ≤ (x.position y n).1 + (x.position y n).2 := by
  induction n with
  | zero => exact Nat.zero_le _
  | succ n ih =>
    rw [position_succ]
    rcases Prod.lt_iff.1 (lt_advance (x := x) (y := y) (c := x.position y n)) with ⟨h1, h2⟩ | ⟨h1, h2⟩
    · omega
    · omega

/-- A position in order is reached, over positions in order that are below it. -/
theorem Ordered.reached (hd : x.Ordered y d) : ∃ n ≤ d.1 + d.2, x.position y n = d ∧
    (∀ m ≤ n, x.Ordered y (x.position y m)) ∧ ∀ m < n, x.position y m < d := by
  -- the run stays below `d` until it is there, and its sum grows
  have hrun : ∀ n, (∀ m < n, x.position y m < d) → x.Ordered y (x.position y n) ∧ x.position y n ≤ d := by
    intro n
    induction n with
    | zero => exact fun _ => ⟨ordered_zero, Nat.zero_le _, Nat.zero_le _⟩
    | succ n ih =>
      intro hbelow
      have hlt := hbelow n (Nat.lt_succ_self n)
      obtain ⟨hle, hfin⟩ := hd.advance_le hlt
      rw [position_succ]
      exact ⟨(ih fun m hm => hbelow m (Nat.lt_succ_of_lt hm)).1.advance hfin, hle⟩
  have hex : ∃ n, x.position y n = d := by
    by_contra hnever
    have hlt : ∀ n, x.position y n < d := by
      intro n
      induction n using Nat.strong_induction_on with
      | _ n ih => exact lt_of_le_of_ne (hrun n ih).2 fun h => hnever ⟨n, h⟩
    have hsum := le_position (x := x) (y := y) (d.1 + d.2 + 1)
    have hle : (x.position y (d.1 + d.2 + 1)).1 ≤ d.1 ∧ (x.position y (d.1 + d.2 + 1)).2 ≤ d.2 := (hlt _).le
    omega
  -- the first time the run is there
  classical
  have hbefore : ∀ m < Nat.find hex, x.position y m < d := by
    intro m
    induction m using Nat.strong_induction_on with
    | _ m ih =>
      intro hm
      exact lt_of_le_of_ne (hrun m fun k hk => ih k hk (hk.trans hm)).2 (Nat.find_min hex hm)
  refine ⟨Nat.find hex, ?_, Nat.find_spec hex, fun m hm => (hrun m fun k hk => hbefore k (hk.trans_le hm)).1, hbefore⟩
  have hsum := le_position (x := x) (y := y) (Nat.find hex)
  rw [Nat.find_spec hex] at hsum
  exact hsum

/-- The positions in order that are below a position of the run are on it. -/
theorem Ordered.on_run (hc : x.Ordered y c) {n : Nat} (hcn : c ≤ x.position y n) : ∃ m ≤ n, x.position y m = c := by
  obtain ⟨m, -, hm, -⟩ := hc.reached
  refine ⟨m, ?_, hm⟩
  rw [← hm] at hcn
  exact strictMono_position.le_iff_le.1 hcn

/-- With a series that never ends every position of the run is in order. -/
theorem ordered_position (h : (∀ k, x.time k ≠ ⊤) ∨ ∀ l, y.time l ≠ ⊤) (n : Nat) : x.Ordered y (x.position y n) := by
  induction n with
  | zero => exact ordered_zero
  | succ n ih =>
    rw [position_succ]
    exact ih.advance (h.imp (fun hx => hx _) fun hy => hy _)

end Series

end Zohar.Lib
