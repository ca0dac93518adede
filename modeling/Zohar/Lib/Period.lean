/-
Instants that recur with a period: those of one phase, the remainder modulo the period. After any moment there is a
first one, it lies at most a period ahead, and it stays the first one until it is reached.
-/
import Mathlib.Data.Nat.ModEq
import Mathlib.Order.Bounds.Basic
import Mathlib.Tactic

namespace Zohar.Lib

/-- The first instant of a phase after `now`. -/
def FirstAfter (period phase now t : Nat) : Prop := IsLeast {u | now < u ∧ u ≡ phase [MOD period]} t

variable {period phase now now' t : Nat}

/-- An instant of the phase is the first one if it is at most a period ahead. -/
theorem firstAfter_of_le (hlt : now < t) (hle : t ≤ now + period) (hphase : t ≡ phase [MOD period]) :
    FirstAfter period phase now t := by
  refine ⟨⟨hlt, hphase⟩, ?_⟩
  rintro u ⟨hu, huphase⟩
  by_contra hut
  have hdvd : period ∣ t - u := (Nat.modEq_iff_dvd' (by omega)).1 (huphase.trans hphase.symm)
  have hpos : 0 < t - u := by omega
  have := Nat.le_of_dvd hpos hdvd
  omega

theorem FirstAfter.lt (h : FirstAfter period phase now t) : now < t := h.1.1

theorem FirstAfter.phase_eq (h : FirstAfter period phase now t) : t ≡ phase [MOD period] := h.1.2

/-- No more time passes than a period. -/
theorem FirstAfter.le_add (h : FirstAfter period phase now t) (hpos : 0 < period) : t ≤ now + period := by
  by_contra hlt
  have hphase : t - period ≡ phase [MOD period] := by
    have hsub : t - period + period ≡ phase [MOD period] := by
      rw [Nat.sub_add_cancel (by omega)]
      exact h.phase_eq
    exact (Nat.ModEq.symm (Nat.add_modEq_right)).trans hsub
  have := h.2 ⟨show now < t - period by omega, hphase⟩
  omega

/-- It is still the first one at any later moment before it. -/
theorem FirstAfter.later (h : FirstAfter period phase now t) (hle : now ≤ now') (hlt : now' < t) :
    FirstAfter period phase now' t :=
  ⟨⟨hlt, h.phase_eq⟩, fun _ hu => h.2 ⟨hle.trans_lt hu.1, hu.2⟩⟩

end Zohar.Lib
