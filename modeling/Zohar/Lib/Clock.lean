/-
The monotonic clock of the standard library: instants and spans of time in nanoseconds. An instant
is read off the clock, so two readings compare only by the span between them, and the span back to
a later instant is zero.
-/
import Mathlib.Tactic

namespace Zohar.Lib

/-- A span of time in nanoseconds. -/
abbrev Duration := Nat

/-- A reading of the clock, in nanoseconds since some fixed moment. -/
abbrev Instant := Nat

def Duration.fromSecs (secs : Nat) : Duration := secs * 1000000000

def Duration.fromMillis (millis : Nat) : Duration := millis * 1000000

/-- Whole milliseconds, the rest cut off. -/
def Duration.asMillis (d : Duration) : Nat := d / 1000000

/-- `Instant::duration_since` saturates: the span back to a later instant is zero. -/
def Instant.durationSince (now earlier : Instant) : Duration := now - earlier

@[simp] theorem asMillis_fromMillis (millis : Nat) : Duration.asMillis (.fromMillis millis) = millis := by
  unfold Duration.asMillis Duration.fromMillis; omega

theorem asMillis_mono {a b : Duration} (h : a ≤ b) : a.asMillis ≤ b.asMillis := Nat.div_le_div_right h

/-- Between two readings at most `millis` apart, the whole milliseconds grow by at most `millis`. -/
theorem asMillis_add_le {a d millis : Nat} (h : d ≤ Duration.fromMillis millis) :
    Duration.asMillis (a + d) ≤ Duration.asMillis a + millis := by
  have h' : d ≤ millis * 1000000 := h
  have hm : (a + d) / 1000000 ≤ a / 1000000 + millis := by omega
  exact hm

theorem durationSince_mono {a b : Nat} (h : a ≤ b) (earlier : Instant) :
    Instant.durationSince a earlier ≤ Instant.durationSince b earlier := Nat.sub_le_sub_right h earlier

theorem durationSince_add_le (now d earlier : Nat) :
    Instant.durationSince (now + d) earlier ≤ Instant.durationSince now earlier + d := by
  have h : now + d - earlier ≤ now - earlier + d := by omega
  exact h

end Zohar.Lib
