/-
Sorting by a key without a promise about equal keys: the result is any arrangement of the list in
which the keys do not decrease. Which element comes last among those of a kind is then known as far
as its key goes, and no further.
-/
import Mathlib.Tactic
import Mathlib.Data.List.Sort

namespace Zohar.Lib

variable {α κ : Type} [LinearOrder κ] {key : α → κ} {l s : List α} {p : α → Bool}

/-- The results that an unstable sort by the key may have. -/
def SortsTo (key : α → κ) (l s : List α) : Prop := s.Perm l ∧ s.Pairwise fun a b => key a ≤ key b

/-- The last element of a kind has the largest key of its kind. -/
theorem SortsTo.last_of_kind (h : SortsTo key l s) {x : α} (hx : (s.filter p).getLast? = some x) :
    x ∈ l ∧ p x ∧ ∀ y ∈ l, p y → key y ≤ key x := by
  have hmem : x ∈ s.filter p := List.mem_of_getLast? hx
  obtain ⟨front, hfront⟩ := List.getLast?_eq_some_iff.1 hx
  refine ⟨h.1.subset (List.mem_filter.1 hmem).1, (List.mem_filter.1 hmem).2, fun y hy hpy => ?_⟩
  have hys : y ∈ front ++ [x] := by rw [← hfront]; exact List.mem_filter.2 ⟨h.1.symm.subset hy, hpy⟩
  have hsorted : (front ++ [x]).Pairwise fun a b => key a ≤ key b := by rw [← hfront]; exact h.2.filter p
  rcases List.mem_append.1 hys with hf | hl
  · exact (List.pairwise_append.1 hsorted).2.2 y hf x (List.mem_singleton_self x)
  · rw [List.mem_singleton.1 hl]

/-- Any element with the largest key of its kind may come last. -/
theorem exists_sortsTo_last {m : α} (hm : m ∈ l) (hp : p m) (hmax : ∀ y ∈ l, p y → key y ≤ key m) :
    ∃ s, SortsTo key l s ∧ (s.filter p).getLast? = some m := by
  obtain ⟨front, back, rfl⟩ := List.append_of_mem hm
  -- the others in order, and `m` behind all that are not larger
  let others := (front ++ back).mergeSort fun a b => key a ≤ key b
  have hperm : others.Perm (front ++ back) := List.mergeSort_perm _ _
  have htrans : ∀ a b c, decide (key a ≤ key b) = true → decide (key b ≤ key c) = true →
      decide (key a ≤ key c) = true := by
    intro a b c hab hbc
    simp only [decide_eq_true_eq] at hab hbc ⊢
    exact hab.trans hbc
  have htotal : ∀ a b, (decide (key a ≤ key b) || decide (key b ≤ key a)) = true := by
    intro a b
    simpa using le_total (key a) (key b)
  have hsorted : others.Pairwise fun a b => key a ≤ key b :=
    (List.pairwise_mergeSort htrans htotal (front ++ back)).imp fun hab => by simpa using hab
  let low := others.filter fun a => key a ≤ key m
  let high := others.filter fun a => !decide (key a ≤ key m)
  have hlow : ∀ a ∈ low, key a ≤ key m := fun a ha => by simpa using (List.mem_filter.1 ha).2
  have hhigh : ∀ a ∈ high, key m < key a := fun a ha => by simpa using (List.mem_filter.1 ha).2
  refine ⟨low ++ m :: high, ⟨?_, ?_⟩, ?_⟩
  · calc low ++ m :: high
      _ |>.Perm (m :: (low ++ high)) := List.perm_middle
      _ |>.Perm (m :: others) := .cons m (List.filter_append_perm _ others)
      _ |>.Perm (m :: (front ++ back)) := .cons m hperm
      _ |>.Perm (front ++ m :: back) := List.perm_middle.symm
  · refine List.pairwise_append.2 ⟨hsorted.filter _, List.pairwise_cons.2 ⟨?_, hsorted.filter _⟩, ?_⟩
    · exact fun b hb => (hhigh b hb).le
    · intro a ha b hb
      rcases List.mem_cons.1 hb with rfl | hb
      · exact hlow a ha
      · exact (hlow a ha).trans (hhigh b hb).le
  · have hnone : high.filter p = [] := by
      refine List.filter_eq_nil_iff.2 fun a ha hpa => ?_
      have hin : a ∈ front ++ m :: back := by
        have := hperm.subset (List.mem_filter.1 ha).1
        simp only [List.mem_append, List.mem_cons] at this ⊢
        tauto
      exact absurd (hmax a hin hpa) (not_le.2 (hhigh a ha))
    rw [List.filter_append, List.filter_cons, if_pos hp, hnone, List.getLast?_append]
    rfl

end Zohar.Lib
