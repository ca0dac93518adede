/-
Occurrences each of which sets the moment before which the next one may not come, and the gate that sees to it: it
carries the moment at which it is due and lets an occurrence through only from then on. The gate may be set again
without an occurrence, later at any time and earlier once it is due, so that it never forgets a moment that has not come
yet.
-/
import Mathlib.Data.List.Chain
import Mathlib.Tactic

namespace Zohar.Lib

section

variable {α : Type} (time free : α → Nat)

/-- No occurrence comes before the moment that the one before it has set. -/
def Spaced (log : List α) : Prop := log.IsChain fun a b => free a ≤ time b

/-- The occurrences that a gate has let through, and what the last of them has set: a moment that is past or that the
gate waits for. -/
structure Gated (clock due : Nat) (log : List α) : Prop where
  spaced : Spaced time free log
  last : ∀ a ∈ log.getLast?, free a ≤ max due clock

variable {time free} {clock clock' due due' : Nat} {log : List α}

theorem Gated.nil : Gated time free clock due [] := ⟨List.isChain_nil, fun _ h => by cases h⟩

theorem Gated.mono (h : Gated time free clock due log) (hle : max due clock ≤ max due' clock') :
    Gated time free clock' due' log :=
  ⟨h.spaced, fun a ha => (h.last a ha).trans hle⟩

theorem Gated.wait (h : Gated time free clock due log) (hle : clock ≤ clock') : Gated time free clock' due log :=
  h.mono (max_le_max_left due hle)

theorem Gated.delay (h : Gated time free clock due log) (hle : due ≤ due') : Gated time free clock due' log :=
  h.mono (max_le_max_right clock hle)

/-- A gate that is due may be set to any moment. -/
theorem Gated.reset (h : Gated time free clock due log) (hdue : due ≤ clock) : Gated time free clock due' log := by
  apply h.mono
  rw [max_eq_right hdue]
  exact le_max_right due' clock

/-- An occurrence at a gate that is due, which is set to the moment that the occurrence asks for. -/
theorem Gated.fire (h : Gated time free clock due log) (hdue : due ≤ clock) (a : α) (due' : Nat)
    (htime : time a = clock) (hfree : free a ≤ max due' clock) : Gated time free clock due' (log ++ [a]) := by
  constructor
  · refine h.spaced.append (List.isChain_singleton a) ?_
    intro last hlast b hb
    obtain rfl : a = b := by simpa using hb
    have hle := h.last last hlast
    omega
  · intro b hb
    obtain rfl : a = b := by simpa using hb
    exact hfree

/-- Where an occurrence sets no moment before its own, it holds back all that follow. -/
theorem Spaced.pairwise (hle : ∀ a ∈ log, time a ≤ free a) (h : Spaced time free log) :
    log.Pairwise fun a b => free a ≤ time b := by
  induction log with
  | nil => exact .nil
  | cons a l ih =>
    have hl := ih (fun b hb => hle b (List.mem_cons_of_mem a hb)) (List.isChain_cons.1 h).2
    refine List.pairwise_cons.2 ⟨?_, hl⟩
    intro b hb
    cases l with
    | nil => cases hb
    | cons c l =>
      have hac : free a ≤ time c := (List.isChain_cons_cons.1 h).1
      rcases List.mem_cons.1 hb with rfl | hb
      · exact hac
      · have hc := hle c (List.mem_cons_of_mem a List.mem_cons_self)
        have hcb := (List.pairwise_cons.1 hl).1 b hb
        omega

end

end Zohar.Lib
