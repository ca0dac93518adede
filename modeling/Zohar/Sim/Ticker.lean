/-
The clock of a ticker: it is due at the instants of one phase, and a call that finds it due returns the time since the
last one that did. From zohar-sim/src/runtime/time.rs. Whatever the calls, no time is lost or counted twice.
-/
import Zohar.Lib.Period
import Zohar.Lib.Run
import Zohar.Spawn.Rules

namespace Zohar.Sim

open Zohar.Lib

/-! ## The clock -/

/-- Instants and durations in milliseconds. -/
structure SimTickerClock where
  lastProcessedAt : Nat
  nextDueAt : Nat
  cadence : Nat
  deriving DecidableEq, Repr

namespace SimTickerClock

/-- `none` where the assertion on the cadence fails. -/
def scheduled (lastProcessedAt nextDueAt cadence : Nat) : Option SimTickerClock :=
  if 0 < cadence then some ⟨lastProcessedAt, nextDueAt, cadence⟩ else none

def phased (seed : Int) (now cadence : Nat) : Option SimTickerClock :=
  if 0 < cadence then
    let phase := seed.natAbs % cadence
    let nowPhase := now % cadence
    let delay := if phase > nowPhase then phase - nowPhase else cadence - (nowPhase - phase)
    scheduled now (satAdd now (max delay 1)) cadence
  else none

def isDue (c : SimTickerClock) (now : Nat) : Bool := c.nextDueAt ≤ now

/-- The loop of `advance_past`, `none` while it still runs after so many passes. -/
def advancePast (now cadence : Nat) : Nat → Nat → Option Nat
  | 0, _ => none
  | fuel + 1, due => if due ≤ now then advancePast now cadence fuel (satAdd due cadence) else some due

def advanceDue (fuel : Nat) (c : SimTickerClock) (now : Nat) : Option (Option Nat × SimTickerClock) :=
  if !c.isDue now then some (none, c)
  else
    let elapsed := now - c.lastProcessedAt
    (advancePast now c.cadence fuel c.nextDueAt).map fun nextDueAt =>
      (some elapsed, { c with lastProcessedAt := now, nextDueAt })

def retryAfter (c : SimTickerClock) (now delay : Nat) : SimTickerClock :=
  { c with lastProcessedAt := now, nextDueAt := satAdd now delay }

end SimTickerClock

/-! ## One call -/

namespace SimTickerClock

variable {seed : Int} {start cadence : Nat}

/-- A new clock is first due at the first instant of the seed's phase. -/
theorem phased_spec (hpos : 0 < cadence) (hbelow : start + cadence ≤ u64Max) :
    ∃ due, phased seed start cadence = some ⟨start, due, cadence⟩ ∧ FirstAfter cadence seed.natAbs start due := by
  have hphase : seed.natAbs % cadence < cadence := Nat.mod_lt _ hpos
  have hnow : start % cadence < cadence := Nat.mod_lt _ hpos
  have hdiv := Nat.div_add_mod start cadence
  obtain ⟨delay, hdelay, h0, h1, hmod⟩ : ∃ delay,
      delay = max (if seed.natAbs % cadence > start % cadence then seed.natAbs % cadence - start % cadence
        else cadence - (start % cadence - seed.natAbs % cadence)) 1 ∧ 0 < delay ∧ delay ≤ cadence ∧
        start + delay ≡ seed.natAbs [MOD cadence] := by
    refine ⟨_, rfl, by omega, by split <;> omega, ?_⟩
    split
    · -- the phase lies ahead in this period
      have heq : start + max (seed.natAbs % cadence - start % cadence) 1 =
          cadence * (start / cadence) + seed.natAbs % cadence := by omega
      rw [heq]
      exact ((Nat.ModEq.refl _).add (Nat.mod_modEq _ _)).trans (by simp [Nat.ModEq])
    · have heq : start + max (cadence - (start % cadence - seed.natAbs % cadence)) 1 =
          cadence * (start / cadence + 1) + seed.natAbs % cadence := by
        rw [Nat.mul_add, Nat.mul_one]
        omega
      rw [heq]
      exact ((Nat.ModEq.refl _).add (Nat.mod_modEq _ _)).trans (by simp [Nat.ModEq])
  refine ⟨start + delay, ?_, firstAfter_of_le (by omega) (by omega) hmod⟩
  simp only [phased, scheduled, if_pos hpos, ← hdelay]
  rw [satAdd_of_le (by omega)]

/-- With enough passes the loop ends, at the first instant of the phase after `now`. -/
theorem advancePast_spec {phase now : Nat} (hpos : 0 < cadence) (hbelow : now + cadence ≤ u64Max) :
    ∀ (fuel due : Nat), due ≤ now + cadence → due ≡ phase [MOD cadence] → now + 1 - due < fuel →
      ∃ t, advancePast now cadence fuel due = some t ∧ FirstAfter cadence phase now t
  | fuel + 1, due, hdue, hphase, hfuel => by
    unfold advancePast
    split
    · rename_i hle
      rw [satAdd_of_le (by omega)]
      exact advancePast_spec hpos hbelow fuel (due + cadence) (by omega) (Nat.add_modEq_right.trans hphase) (by omega)
    · exact ⟨due, rfl, firstAfter_of_le (by omega) hdue hphase⟩

/-- What a call does to a clock that is due at instants of a phase: nothing before the next of them, and from it on the
time since the last such call is returned and the first instant after the call becomes the due one. -/
theorem advanceDue_spec {c : SimTickerClock} {phase before now fuel : Nat} (hpos : 0 < c.cadence)
    (hfirst : FirstAfter c.cadence phase before c.nextDueAt) (hle : before ≤ now) (hbelow : now + c.cadence ≤ u64Max)
    (hfuel : now + 1 < fuel) :
    (now < c.nextDueAt ∧ c.advanceDue fuel now = some (none, c)) ∨
      (c.nextDueAt ≤ now ∧ ∃ due, FirstAfter c.cadence phase now due ∧
        c.advanceDue fuel now = some (some (now - c.lastProcessedAt), ⟨now, due, c.cadence⟩)) := by
  unfold advanceDue isDue
  by_cases hdue : c.nextDueAt ≤ now
  · have hnear := (hfirst.le_add hpos).trans (Nat.add_le_add_right hle _)
    obtain ⟨due, hloop, hdue'⟩ := advancePast_spec hpos hbelow fuel c.nextDueAt (by omega) hfirst.phase_eq (by omega)
    exact .inr ⟨hdue, due, hdue', by simp [hdue, hloop]⟩
  · exact .inl ⟨by omega, by simp [hdue]⟩

end SimTickerClock

/-! ## Runs -/

/-- A clock and what its calls have returned, each with the time of its call. -/
structure TickerRun where
  clock : SimTickerClock
  returned : List (Nat × Nat)

namespace TickerRun

def note (r : TickerRun) (now : Nat) (elapsed : Option Nat) (clock : SimTickerClock) : TickerRun :=
  ⟨clock, r.returned ++ elapsed.toList.map fun elapsed => (now, elapsed)⟩

/-- One call of `advance_due`. -/
def step (fuel : Nat) (r : TickerRun) (now : Nat) : Option TickerRun :=
  (r.clock.advanceDue fuel now).map fun (elapsed, clock) => r.note now elapsed clock

/-- The time of the last call that returned something. -/
def lastReturned (r : TickerRun) (start : Nat) : Nat := (r.returned.getLast?.map (·.1)).getD start

def total (r : TickerRun) : Nat := (r.returned.map (·.2)).sum

/-- Between the calls, the last of which came at `now`. -/
structure Accounts (start cadence phase now : Nat) (r : TickerRun) : Prop where
  cadence_eq : r.clock.cadence = cadence
  last_eq : r.clock.lastProcessedAt = r.lastReturned start
  total_eq : start + r.total = r.lastReturned start
  last_le : r.lastReturned start ≤ now
  first : FirstAfter cadence phase now r.clock.nextDueAt

variable {start cadence phase now now' fuel : Nat} {r : TickerRun}

/-- One more call keeps the account. -/
theorem Accounts.step (h : r.Accounts start cadence phase now) (hpos : 0 < cadence) (hle : now ≤ now')
    (hbelow : now' + cadence ≤ u64Max) (hfuel : now' + 1 < fuel) :
    ∃ elapsed clock, r.clock.advanceDue fuel now' = some (elapsed, clock) ∧
      (elapsed.isSome = true ↔ r.clock.nextDueAt ≤ now') ∧
        (r.note now' elapsed clock).Accounts start cadence phase now' := by
  obtain ⟨hcad, hlast, htotal, hlastle, hfirst⟩ := h
  rw [← hcad] at hpos hbelow hfirst
  rcases SimTickerClock.advanceDue_spec hpos hfirst hle hbelow hfuel with ⟨hlt, hcall⟩ | ⟨hdue, due, hfirst', hcall⟩
  · have hsame : r.note now' none r.clock = r := by simp [note]
    refine ⟨none, r.clock, hcall, iff_of_false nofun (by omega), ?_⟩
    rw [hsame]
    exact ⟨hcad, hlast, htotal, hlastle.trans hle, hcad ▸ hfirst.later hle hlt⟩
  · have hlastReturned : (r.note now' (some (now' - r.clock.lastProcessedAt))
        ⟨now', due, r.clock.cadence⟩).lastReturned start = now' := by simp [lastReturned, note]
    refine ⟨_, _, hcall, iff_of_true rfl hdue, hcad, hlastReturned.symm, ?_, hlastReturned.le, hcad ▸ hfirst'⟩
    rw [hlastReturned]
    have hsum : (r.note now' (some (now' - r.clock.lastProcessedAt)) ⟨now', due, r.clock.cadence⟩).total =
        r.total + (now' - r.clock.lastProcessedAt) := by simp [total, note]
    omega

theorem run_accounts (hpos : 0 < cadence) : ∀ (nows : List Nat) {now : Nat} {r : TickerRun},
    r.Accounts start cadence phase now → (now :: nows).Pairwise (· ≤ ·) →
    (∀ t ∈ nows, t + cadence ≤ u64Max ∧ t + 1 < fuel) →
      ∃ r', run (TickerRun.step fuel) r nows = some r' ∧ r'.Accounts start cadence phase
        ((now :: nows).getLast (by simp))
  | [], now, r, h, _, _ => ⟨r, rfl, h⟩
  | t :: nows, now, r, h, hsorted, hbound => by
    obtain ⟨hhead, htail⟩ := List.pairwise_cons.1 hsorted
    obtain ⟨hbelow, hfuel⟩ := hbound t List.mem_cons_self
    obtain ⟨elapsed, clock, hcall, -, hnext⟩ := h.step hpos (hhead t List.mem_cons_self) hbelow hfuel
    obtain ⟨r', hr', hacc⟩ := run_accounts hpos nows hnext htail fun u hu => hbound u (List.mem_cons_of_mem _ hu)
    refine ⟨r', (run_cons_eq_some _).2 ⟨_, ?_, hr'⟩, by rwa [List.getLast_cons (by simp)]⟩
    rw [TickerRun.step, hcall]
    rfl

end TickerRun

/-- A new clock is due within a cadence, at the seed's phase. After any calls in the order of their times, one more call
returns something exactly if the clock is due; then and otherwise the times returned so far add up to the time from the
start to the last call that returned one, and the clock is next due at the first instant of the phase after the call. -/
theorem ticker_accounts {seed : Int} {start cadence fuel : Nat} (hpos : 0 < cadence) {nows : List Nat} {now : Nat}
    (hsorted : (start :: (nows ++ [now])).Pairwise (· ≤ ·)) (hbelow : now + cadence ≤ u64Max) (hfuel : now + 1 < fuel) :
    ∃ c r elapsed clock, SimTickerClock.phased seed start cadence = some c ∧
      (start < c.nextDueAt ∧ c.nextDueAt ≤ start + cadence ∧ c.nextDueAt ≡ seed.natAbs [MOD cadence]) ∧
      run (TickerRun.step fuel) ⟨c, []⟩ nows = some r ∧ r.clock.advanceDue fuel now = some (elapsed, clock) ∧
      (elapsed.isSome = true ↔ r.clock.nextDueAt ≤ now) ∧
      start + (r.note now elapsed clock).total = (r.note now elapsed clock).lastReturned start ∧
      FirstAfter cadence seed.natAbs now clock.nextDueAt ∧ clock.nextDueAt ≡ c.nextDueAt [MOD cadence] := by
  obtain ⟨hall, hlast⟩ := List.pairwise_cons.1 hsorted
  have hstart : start ≤ now := hall now (by simp)
  obtain ⟨due, hc, hfirst⟩ := @SimTickerClock.phased_spec seed start cadence hpos (by omega)
  have hle : ∀ t ∈ nows, t ≤ now := fun t ht => (List.pairwise_append.1 hlast).2.2 t ht now (by simp)
  have hinit : TickerRun.Accounts start cadence seed.natAbs start ⟨⟨start, due, cadence⟩, []⟩ :=
    ⟨rfl, rfl, rfl, le_rfl, hfirst⟩
  have hbound : ∀ t ∈ nows, t + cadence ≤ u64Max ∧ t + 1 < fuel := by
    intro t ht
    have := hle t ht
    omega
  have hbefores := hsorted.sublist (List.cons_sublist_cons.2 (List.sublist_append_left nows [now]))
  obtain ⟨r, hr, hacc⟩ := TickerRun.run_accounts hpos nows hinit hbefores hbound
  have hbefore : (start :: nows).getLast (by simp) ≤ now := by
    rcases List.mem_cons.1 (List.getLast_mem (l := start :: nows) (by simp)) with h | h
    · rwa [h]
    · exact hle _ h
  obtain ⟨elapsed, clock, hcall, hsome, hafter⟩ := hacc.step hpos hbefore hbelow hfuel
  exact ⟨_, r, elapsed, clock, hc, ⟨hfirst.lt, hfirst.le_add hpos, hfirst.phase_eq⟩, hr, hcall, hsome, hafter.total_eq,
    hafter.first, hafter.first.phase_eq.trans hfirst.phase_eq.symm⟩

/-- The phase of a negative seed is that of its absolute value; the last call catches up on two periods. -/
theorem ticker_accounts_negativeSeed :
    ∃ c r elapsed clock, SimTickerClock.phased (-1030) 7 250 = some c ∧
      (7 < c.nextDueAt ∧ c.nextDueAt ≤ 7 + 250 ∧ c.nextDueAt ≡ (-1030 : Int).natAbs [MOD 250]) ∧
      run (TickerRun.step 1000) ⟨c, []⟩ [29, 31, 300] = some r ∧ r.clock.advanceDue 1000 900 = some (elapsed, clock) ∧
      (elapsed.isSome = true ↔ r.clock.nextDueAt ≤ 900) ∧
      7 + (r.note 900 elapsed clock).total = (r.note 900 elapsed clock).lastReturned 7 ∧
      FirstAfter 250 (-1030 : Int).natAbs 900 clock.nextDueAt ∧ clock.nextDueAt ≡ c.nextDueAt [MOD 250] :=
  ticker_accounts (by decide) (by decide) (by decide) (by decide)

end Zohar.Sim
