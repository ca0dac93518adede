/-
Computations that fail just where something is at fault. Each part says what its faults are and what holds of its value
where there is none; the rules compose the parts, and the faults of a whole are those of its parts.
-/
import Mathlib.Data.List.Forall2
import Mathlib.Tactic

namespace Zohar.Lib

variable {ε α β : Type} {F F' G : ε → Prop} {Q Q' : α → Prop} {R : β → Prop}

/-- Where nothing is at fault the computation returns a value of which `Q` holds, and where something is, it fails with
a fault. -/
inductive Reports (F : ε → Prop) (Q : α → Prop) : Except ε α → Prop where
  | ok {a : α} (ha : Q a) (hnone : ∀ e, ¬F e) : Reports F Q (.ok a)
  | error {e : ε} (he : F e) : Reports F Q (.error e)

namespace Reports

theorem weaken {r : Except ε α} (h : Reports F Q r) (hF : ∀ e, F e ↔ F' e) (hQ : ∀ a, Q a → Q' a) :
    Reports F' Q' r := by
  cases h with
  | ok ha hnone => exact .ok (hQ _ ha) fun e he => hnone e ((hF e).2 he)
  | error he => exact .error ((hF _).1 he)

/-- What follows a part that returns is left with the faults that are not of that part. -/
theorem bind {r : Except ε α} {f : α → Except ε β} (hr : Reports F Q r) (hF : ∀ e, F e → G e)
    (hf : ∀ a, Q a → (∀ e, ¬F e) → Reports G R (f a)) : Reports G R (r >>= f) := by
  cases hr with
  | ok ha hnone => exact hf _ ha hnone
  | error he => exact .error (hF _ he)

/-- The faults of a loop are those of its rounds. -/
theorem mapM {f : α → Except ε β} {F : α → ε → Prop} {R : α → β → Prop} {xs : List α}
    (h : ∀ x ∈ xs, Reports (F x) (R x) (f x)) : Reports (fun e => ∃ x ∈ xs, F x e) (List.Forall₂ R xs) (xs.mapM f) := by
  induction xs with
  | nil => exact .ok .nil (by simp)
  | cons x xs ih =>
    obtain ⟨hx, hxs⟩ := List.forall_mem_cons.1 h
    rw [List.mapM_cons]
    refine hx.bind (fun e he => ⟨x, List.mem_cons_self, he⟩) ?_
    intro y hy hfirst
    refine (ih hxs).bind (fun e he => List.exists_mem_cons_of_exists he) ?_
    intro ys hys hrest
    refine .ok (.cons hy hys) ?_
    intro e he
    exact (List.or_exists_of_exists_mem_cons he).elim (hfirst e) (hrest e)

end Reports

/-! ## What a loop returned -/

section
variable {R : α → β → Prop} {xs : List α} {ys : List β}

theorem exists_of_mem_right (h : List.Forall₂ R xs ys) {y : β} (hy : y ∈ ys) : ∃ x ∈ xs, R x y := by
  induction h with
  | nil => cases hy
  | @cons x z xs ys hz _ ih =>
    rcases List.mem_cons.1 hy with rfl | hy
    · exact ⟨x, List.mem_cons_self, hz⟩
    · obtain ⟨x', hx', hy⟩ := ih hy
      exact ⟨x', List.mem_cons_of_mem _ hx', hy⟩

theorem mem_right_iff (hfun : ∀ x y y', R x y → R x y' → y = y') (h : List.Forall₂ R xs ys) (y : β) :
    y ∈ ys ↔ ∃ x ∈ xs, R x y := by
  constructor
  · exact exists_of_mem_right h
  · rintro ⟨x, hx, hy⟩
    obtain ⟨y', hy', hx'⟩ := exists_of_mem_right h.flip hx
    exact hfun x y y' hy hx' ▸ hy'

theorem pairwise_right {S : α → α → Prop} {U : β → β → Prop}
    (hrel : ∀ {a b : α} {c d : β}, R a c → R b d → S a b → U c d) (h : List.Forall₂ R xs ys) (hxs : xs.Pairwise S) :
    ys.Pairwise U := by
  induction h with
  | nil => exact .nil
  | cons hz hall ih =>
    obtain ⟨hhead, htail⟩ := List.pairwise_cons.1 hxs
    refine List.pairwise_cons.2 ⟨?_, ih htail⟩
    intro d hd
    obtain ⟨b, hb, hbd⟩ := exists_of_mem_right hall hd
    exact hrel hz hbd (hhead b hb)

end

end Zohar.Lib
