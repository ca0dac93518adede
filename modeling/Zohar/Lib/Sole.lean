/-
A scan for the only hit: it keeps the first one it comes upon and gives up at a second. What it finds is the same
whatever the order of the scan.
-/
import Mathlib.Tactic

namespace Zohar.Lib

variable {α β : Type} {f : α → Option β}

/-- The scan with what it has found so far. -/
def sole (f : α → Option β) : Option β → List α → Option β
  | found, [] => found
  | found, a :: l =>
    match f a with
    | none => sole f found l
    | some b => if found.isSome then none else sole f (some b) l

theorem sole_some (b : β) (l : List α) : sole f (some b) l = if l.filterMap f = [] then some b else none := by
  induction l with
  | nil => rfl
  | cons a l ih =>
    unfold sole
    cases ha : f a with
    | none => rw [List.filterMap_cons_none ha, ← ih]
    | some c => simp [List.filterMap_cons_some ha]

theorem sole_none (b : β) (l : List α) : sole f none l = some b ↔ l.filterMap f = [b] := by
  induction l with
  | nil => simp [sole]
  | cons a l ih =>
    unfold sole
    cases ha : f a with
    | none => rw [List.filterMap_cons_none ha, ← ih]
    | some c =>
      rw [List.filterMap_cons_some ha, List.cons.injEq]
      simp only [Option.isSome_none, Bool.false_eq_true, if_false, sole_some]
      split
      · rename_i hl
        simp [hl]
      · rename_i hl
        simp [hl]

theorem sole_perm {l l' : List α} (h : l.Perm l') : sole f none l = sole f none l' := by
  refine Option.ext fun b => ?_
  rw [sole_none, sole_none]
  have hperm := h.filterMap f
  constructor
  · intro hl
    rw [hl] at hperm
    exact List.perm_singleton.1 hperm.symm
  · intro hl
    rw [hl] at hperm
    exact List.perm_singleton.1 hperm

/-- Where the members differ, the scan finds the value of a hit that is the only one. -/
theorem sole_eq_some_iff {l : List α} (hl : l.Nodup) {b : β} :
    sole f none l = some b ↔ ∃ a ∈ l, f a = some b ∧ ∀ x ∈ l, (f x).isSome → x = a := by
  rw [sole_none]
  induction l with
  | nil => simp
  | cons a l ih =>
    obtain ⟨hnew, hl⟩ := List.nodup_cons.1 hl
    cases ha : f a with
    | none =>
      rw [List.filterMap_cons_none ha, ih hl]
      constructor
      · rintro ⟨x, hx, hb, hsole⟩
        refine ⟨x, List.mem_cons_of_mem _ hx, hb, ?_⟩
        rintro y hy hsome
        rcases List.mem_cons.1 hy with rfl | hy
        · rw [ha] at hsome
          cases hsome
        · exact hsole y hy hsome
      · rintro ⟨x, hx, hb, hsole⟩
        rcases List.mem_cons.1 hx with rfl | hx
        · rw [ha] at hb
          cases hb
        · exact ⟨x, hx, hb, fun y hy => hsole y (List.mem_cons_of_mem _ hy)⟩
    | some c =>
      have hself : (f a).isSome := by rw [ha]; rfl
      rw [List.filterMap_cons_some ha, List.cons.injEq, List.filterMap_eq_nil_iff]
      constructor
      · rintro ⟨rfl, hnone⟩
        refine ⟨a, List.mem_cons_self .., ha, ?_⟩
        rintro y hy hsome
        rcases List.mem_cons.1 hy with rfl | hy
        · rfl
        · rw [hnone y hy] at hsome
          cases hsome
      · rintro ⟨x, hx, hb, hsole⟩
        obtain rfl := hsole a (List.mem_cons_self ..) hself
        refine ⟨Option.some.inj (ha.symm.trans hb), ?_⟩
        intro y hy
        rw [← Option.not_isSome_iff_eq_none]
        intro hsome
        obtain rfl := hsole y (List.mem_cons_of_mem _ hy) hsome
        exact hnew hy

end Zohar.Lib
