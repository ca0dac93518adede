/-
Passive recovery does not depend on how time is cut into ticks: the accumulator keeps what a tick has not paid out, so
that paid out and kept add up to rate times time, and the saturations of the arithmetic only ever meet a resource that
they fill up.
-/
import Zohar.Lib.Run
import Zohar.Stats.Recovery

namespace Zohar.Stats

open Zohar.Lib

/-! ## The accumulator -/

/-- A period short enough that only payouts beyond 64 bits saturate. -/
structure DurationRate.Proper (rate : DurationRate) : Prop where
  amount_pos : 0 < rate.amount
  per_pos : 0 < rate.per
  per_le : (rate.per : Int) * i64Max ≤ i128Max

/-- The remainder is a fraction of one unit. -/
def RateAccumulator.Within (acc : RateAccumulator) (per : Duration) : Prop := 0 ≤ acc.remainder ∧ acc.remainder < per

theorem RateAccumulator.Within.zero {per : Duration} (h : 0 < per) : RateAccumulator.Within ⟨0⟩ per :=
  ⟨le_rfl, Int.natCast_pos.2 h⟩

theorem durationNanos_of_le {d : Duration} (h : (d : Int) ≤ i128Max) : durationNanos d = d := min_eq_left h

theorem DurationRate.Proper.durationNanos_per {rate : DurationRate} (h : rate.Proper) :
    durationNanos rate.per = rate.per := by
  have h1 := h.per_le
  have h2 := h.per_pos
  refine durationNanos_of_le ?_
  unfold i64Max at h1
  omega

/-- What an accumulator pays out and keeps is what it had and what the time brings, unless the payout saturates. -/
theorem RateAccumulator.accrue_spec {acc : RateAccumulator} {rate : DurationRate} (hrate : rate.Proper)
    (hacc : acc.Within rate.per) (elapsed : Duration) :
    (acc.accrue rate elapsed).2.Within rate.per ∧ 0 ≤ (acc.accrue rate elapsed).1 ∧
      ((acc.accrue rate elapsed).1 < i64Max →
        rate.per * (acc.accrue rate elapsed).1 + (acc.accrue rate elapsed).2.remainder =
          acc.remainder + rate.amount * elapsed) := by
  obtain ⟨hr0, hr1⟩ := hacc
  have hamount := hrate.amount_pos
  have hper : (0 : Int) < rate.per := by exact_mod_cast hrate.per_pos
  unfold accrue
  rw [hrate.durationNanos_per]
  dsimp only
  rw [if_neg (by omega)]
  by_cases hzero : durationNanos elapsed ≤ 0
  · have he : (elapsed : Int) = 0 := by
      unfold durationNanos i128Max at hzero
      omega
    rw [if_pos hzero, he]
    exact ⟨⟨hr0, hr1⟩, le_rfl, fun _ => by ring⟩
  · rw [if_neg hzero]
    dsimp only
    have hnanos : 0 < durationNanos elapsed := by omega
    have hprod : durationNanos elapsed ≤ rate.amount * durationNanos elapsed := le_mul_of_one_le_left hnanos.le hamount
    set total := satI128 (acc.remainder + satI128 (rate.amount * durationNanos elapsed)) with htotal
    have htotal0 : 0 ≤ total := by
      rw [htotal]
      unfold satI128 i128Min i128Max
      omega
    have hwhole : 0 ≤ total / rate.per := Int.ediv_nonneg htotal0 hper.le
    rw [Int.tdiv_eq_ediv_of_nonneg htotal0, Int.tmod_eq_emod_of_nonneg htotal0,
      wrapI64_of_mem (by unfold i64Min i64Max; omega) (min_le_right _ _)]
    refine ⟨⟨Int.emod_nonneg _ hper.ne', Int.emod_lt_of_pos _ hper⟩, le_min hwhole (by decide), fun hlt => ?_⟩
    have hwhole' : total / rate.per < i64Max := by omega
    rw [min_eq_left hwhole'.le, Int.mul_ediv_add_emod]
    -- a payout below the 64-bit limit leaves the total below the 128-bit limit, so nothing has saturated
    have hbound : total < rate.per * i64Max := by
      rw [mul_comm]
      exact (Int.ediv_lt_iff_lt_mul hper).1 hwhole'
    have hunsat : total < i128Max := lt_of_lt_of_le hbound hrate.per_le
    have hcut : durationNanos elapsed = elapsed := by
      refine durationNanos_of_le ?_
      by_contra hlong
      have : durationNanos elapsed = i128Max := min_eq_right (by omega)
      rw [htotal, this] at hunsat
      rw [this] at hprod
      unfold satI128 i128Min i128Max at hunsat
      unfold i128Max at hprod
      omega
    rw [hcut] at htotal hprod hnanos
    rw [htotal] at hunsat ⊢
    unfold satI128 i128Min i128Max at hunsat ⊢
    omega

/-! ## One tick -/

/-- A resource under recovery: its value, the accumulator, and what the ticks so far have given back. -/
structure PassiveRun where
  value : Int
  accumulator : RateAccumulator
  restored : Int

def PassiveRun.fresh (value : Int) : PassiveRun := ⟨value, .default, 0⟩

/-- The application of a tick made before the next one. -/
def PassiveRun.after (maxValue : Int) (r : PassiveRun) (tick : Option ResourceApplication × RateAccumulator) :
    Option PassiveRun :=
  match tick.1 with
  | none => some { r with accumulator := tick.2 }
  | some a => (a.next maxValue r.value).map fun value => ⟨value, tick.2, r.restored + a.delta⟩

def hpTick (maxHp : Int) (activity : PlayerStatActivity) (r : PassiveRun) (elapsed : Duration) : Option PassiveRun :=
  r.after maxHp
    ((tickPlayerPassiveHpRecovery ⟨r.accumulator⟩ r.value maxHp activity elapsed).map id (·.accumulator))

def spTick (hp maxHp maxSp : Int) (activity : PlayerStatActivity) (profile : PlayerSpRecoveryProfile) (r : PassiveRun)
    (elapsed : Duration) : Option PassiveRun :=
  r.after maxSp
    ((tickPlayerPassiveSpRecovery ⟨r.accumulator⟩ hp maxHp r.value maxSp activity profile elapsed).map id
      (·.accumulator))

/-- What the ticks of life and spirit have in common. -/
def restoreTick (stat : Stat) (maxValue : Int) (rate : DurationRate) (r : PassiveRun) (elapsed : Duration) :
    Option PassiveRun :=
  r.after maxValue ((accruePassive r.accumulator r.value maxValue rate elapsed).map (·.map (.restore stat)) id)

theorem hpTick_eq (maxHp : Int) (activity : PlayerStatActivity) :
    hpTick maxHp activity = restoreTick .hp maxHp (passiveHpRate maxHp activity) := rfl

theorem spTick_eq (hp maxHp maxSp : Int) (activity : PlayerStatActivity) (profile : PlayerSpRecoveryProfile) :
    spTick hp maxHp maxSp activity profile = restoreTick .sp maxSp
      (passiveSpRate hp maxHp maxSp activity profile) := rfl

/-- What is missing fits 32 bits, and the remainder is within the period. -/
structure PassiveRun.Ok (maxValue : Int) (per : Duration) (r : PassiveRun) : Prop where
  value_ge : i32Min ≤ r.value
  missing_le : maxValue - r.value ≤ i32Max
  within : r.accumulator.Within per

/-- What a tick gives back where the missing amount fits 32 bits. -/
theorem accruePassive_spec {acc : RateAccumulator} {value maxValue : Int} {rate : DurationRate}
    (hmissing : maxValue - value ≤ i32Max) (hrate : rate.Proper) (hacc : acc.Within rate.per) (elapsed : Duration) :
    (accruePassive acc value maxValue rate elapsed).2.Within rate.per ∧
      match (accruePassive acc value maxValue rate elapsed).1 with
      | none => value < maxValue →
        (accruePassive acc value maxValue rate elapsed).2.remainder = acc.remainder + rate.amount * elapsed
      | some amount => 0 < amount ∧ amount ≤ maxValue - value ∧ (amount < maxValue - value →
        rate.per * amount + (accruePassive acc value maxValue rate elapsed).2.remainder =
          acc.remainder + rate.amount * elapsed) := by
  obtain ⟨hwithin, hnonneg, hexact⟩ := RateAccumulator.accrue_spec hrate hacc elapsed
  have hsat : satI32 (maxValue - value) ≤ 0 ↔ maxValue ≤ value := by
    unfold satI32 i32Min i32Max
    omega
  unfold accruePassive
  dsimp only
  by_cases hfull : maxValue ≤ value
  · rw [if_pos (hsat.2 hfull)]
    exact ⟨.zero hrate.per_pos, fun hlt => absurd hfull hlt.not_ge⟩
  · have hmiss : satI32 (maxValue - value) = maxValue - value :=
      satI32_of_mem (by unfold i32Min; omega) hmissing
    rw [if_neg (mt hsat.1 hfull), hmiss]
    generalize acc.accrue rate elapsed = step at hwithin hnonneg hexact ⊢
    obtain ⟨accrued, acc'⟩ := step
    dsimp only at hwithin hnonneg hexact ⊢
    by_cases hnone : accrued ≤ 0
    · rw [if_pos hnone]
      have hzero : accrued = 0 := by omega
      refine ⟨hwithin, fun _ => ?_⟩
      rw [← hexact (by rw [hzero]; decide), hzero, mul_zero, zero_add]
    · have hamount : min (min accrued (maxValue - value)) i32Max = min accrued (maxValue - value) :=
        min_eq_left ((min_le_right _ _).trans hmissing)
      have hpos : 0 < min accrued (maxValue - value) := by omega
      rw [if_neg hnone, hamount, if_pos hpos]
      refine ⟨?_, hpos, min_le_right _ _, fun hlt => ?_⟩
      · dsimp only
        split
        · exact .zero hrate.per_pos
        · exact hwithin
      · rw [if_neg hlt.not_ge, min_eq_left (by omega)]
        exact hexact (by unfold i32Max at hmissing; unfold i64Max; omega)

/-- One tick: it gives back no more than is missing, and where the resource stays below its maximum nothing of rate
times time is lost. -/
theorem restoreTick_spec {stat : Stat} {maxValue : Int} {rate : DurationRate} {r : PassiveRun} (hmax : 0 < maxValue)
    (hmax' : maxValue ≤ i32Max) (hrate : rate.Proper) (hr : r.Ok maxValue rate.per) (elapsed : Duration) :
    ∃ t, restoreTick stat maxValue rate r elapsed = some t ∧ t.Ok maxValue rate.per ∧
      r.restored ≤ t.restored ∧ t.restored - r.restored ≤ max 0 (maxValue - r.value) ∧
      (r.value < maxValue → t.value < maxValue →
        rate.per * (t.restored - r.restored) + t.accumulator.remainder = r.accumulator.remainder +
          rate.amount * elapsed) ∧
      (0 ≤ r.value → t.value - r.value = t.restored - r.restored) := by
  obtain ⟨hv0, hmiss, hacc⟩ := hr
  have hspec := accruePassive_spec hmiss hrate hacc elapsed
  unfold restoreTick
  generalize accruePassive r.accumulator r.value maxValue rate elapsed = tick at hspec ⊢
  obtain ⟨amount, acc⟩ := tick
  obtain ⟨hwithin, hspec⟩ := hspec
  cases amount with
  | none =>
    refine ⟨_, rfl, ⟨hv0, hmiss, hwithin⟩, le_rfl, by simp, fun hlt _ => ?_, by simp⟩
    simpa using hspec hlt
  | some amount =>
    obtain ⟨hpos, hle, hexact⟩ := hspec
    have hsat : satI32 (r.value + amount) = r.value + amount :=
      satI32_of_mem (by unfold i32Min at *; omega) (by omega)
    have hnext : (ResourceApplication.restore stat amount).next maxValue r.value = some (max 0 (r.value + amount)) := by
      rw [ResourceApplication.restore, ResourceApplication.next_new hmax.le, hsat, min_eq_left (by omega)]
    refine ⟨⟨max 0 (r.value + amount), acc, r.restored + amount⟩, ?_, ⟨?_, ?_, hwithin⟩, ?_, ?_, fun _ hlt => ?_, ?_⟩
    · show ((ResourceApplication.restore stat amount).next maxValue r.value).map _ = _
      rw [hnext]
      rfl
    · show i32Min ≤ max 0 (r.value + amount)
      unfold i32Min
      omega
    · show maxValue - max 0 (r.value + amount) ≤ i32Max
      omega
    · show r.restored ≤ r.restored + amount
      omega
    · show r.restored + amount - r.restored ≤ max 0 (maxValue - r.value)
      omega
    · show rate.per * (r.restored + amount - r.restored) + acc.remainder = _
      have hbelow : max 0 (r.value + amount) < maxValue := hlt
      rw [add_sub_cancel_left]
      exact hexact (by omega)
    · show 0 ≤ r.value → max 0 (r.value + amount) - r.value = r.restored + amount - r.restored
      intro h
      omega

/-! ## Any number of ticks -/

/-- Over a run that stays below the maximum, paid out and kept are what was kept before and rate times time. -/
theorem run_restoreTick {stat : Stat} {maxValue : Int} {rate : DurationRate} (hmax : 0 < maxValue)
    (hmax' : maxValue ≤ i32Max)
    (hrate : rate.Proper) : ∀ (ticks : List Duration) {r : PassiveRun}, r.Ok maxValue rate.per →
    ∃ t, run (restoreTick stat maxValue rate) r ticks = some t ∧ t.Ok maxValue rate.per ∧
      (Along (restoreTick stat maxValue rate) (·.value < maxValue) r ticks →
        rate.per * (t.restored - r.restored) + t.accumulator.remainder =
          r.accumulator.remainder + rate.amount * ticks.sum ∧
        (0 ≤ r.value → t.value - r.value = t.restored - r.restored))
  | [], r, hr => ⟨r, rfl, hr, fun _ => ⟨by simp, fun _ => by omega⟩⟩
  | elapsed :: ticks, r, hr => by
    obtain ⟨t, ht, hok, hge, _, hexact, hvalue⟩ := @restoreTick_spec stat _ _ _ hmax hmax' hrate hr elapsed
    obtain ⟨u, hu, hok', hrun⟩ := run_restoreTick hmax hmax' hrate ticks hok
    refine ⟨u, (run_cons_eq_some _).2 ⟨t, ht, hu⟩, hok', fun hbelow => ?_⟩
    have htail := hbelow.2 t ht
    obtain ⟨hsum, hvalue'⟩ := hrun htail
    have hfirst := hexact hbelow.1 htail.head
    constructor
    · calc rate.per * (u.restored - r.restored) + u.accumulator.remainder
          = rate.per * (u.restored - t.restored) + u.accumulator.remainder +
            rate.per * (t.restored - r.restored) := by ring
        _ = t.accumulator.remainder + rate.amount * ticks.sum + rate.per * (t.restored - r.restored) := by rw [hsum]
        _ = r.accumulator.remainder + rate.amount * elapsed + rate.amount * ticks.sum := by rw [← hfirst]; ring
        _ = r.accumulator.remainder + rate.amount * (elapsed :: ticks).sum := by rw [List.sum_cons]; push_cast; ring
    · intro h0
      have h1 := hvalue h0
      have h2 := hvalue' (by omega)
      omega

/-! ## The rates of life and spirit -/

theorem FractionalShare.ofResource_nonneg {share : FractionalShare} {maxResource : Int} (hs : 0 ≤ share.basisPoints)
    (hm : 0 ≤ maxResource) : 0 ≤ share.ofResource maxResource := by
  unfold ofResource basisPointsDenominator
  have hprod : 0 ≤ maxResource * share.basisPoints := mul_nonneg hm hs
  exact Int.tdiv_nonneg (by unfold satI64 i64Min i64Max; omega) (by decide)

/-- A positive base makes the rate positive, whatever the share of the resource. -/
theorem DurationRate.Proper.of_base {base share : Int} (hbase : 0 < base) (hshare : 0 ≤ share) :
    DurationRate.Proper ⟨satI64 (base + share), .fromSecs 3⟩ where
  amount_pos := by
    show 0 < satI64 (base + share)
    unfold satI64 i64Min i64Max
    omega
  per_pos := show 0 < Duration.fromSecs 3 by decide
  per_le := show (Duration.fromSecs 3 : Int) * i64Max ≤ i128Max by decide

theorem passiveHpRate_proper {maxHp : Int} (h : 0 < maxHp) (activity : PlayerStatActivity) :
    (passiveHpRate maxHp activity).Proper := by
  unfold passiveHpRate
  dsimp only
  split_ifs
  · exact .of_base (by decide) (FractionalShare.ofResource_nonneg (by decide) h.le)
  · exact .of_base (by decide) (FractionalShare.ofResource_nonneg (by decide) h.le)

theorem passiveSpRate_proper {maxSp : Int} (h : 0 < maxSp) (hp maxHp : Int) (activity : PlayerStatActivity)
    (profile : PlayerSpRecoveryProfile) : (passiveSpRate hp maxHp maxSp activity profile).Proper := by
  unfold passiveSpRate
  cases profile with
  | standard =>
    dsimp only
    split_ifs
    · exact .of_base (by decide) (FractionalShare.ofResource_nonneg (by decide) h.le)
    · exact .of_base (by decide) (FractionalShare.ofResource_nonneg (by decide) h.le)
    · exact .of_base (by decide) (FractionalShare.ofResource_nonneg (by decide) h.le)
  | caster =>
    dsimp only
    split_ifs
    · exact .of_base (by decide) (FractionalShare.ofResource_nonneg (by decide) h.le)
    · exact .of_base (by decide) (FractionalShare.ofResource_nonneg (by decide) h.le)
    · exact .of_base (by decide) (FractionalShare.ofResource_nonneg (by decide) h.le)

/-! ## Independence of the tick rate -/

/-- What a tick function owes to a rate: after any ticks from a fresh state the remainder is a fraction of the period,
the next tick gives back no more than is missing, and while the resource stays below its maximum the sum given back is
that of the whole time in one piece. -/
def RateFree (tick : PassiveRun → Duration → Option PassiveRun) (rate : DurationRate) (value maxValue : Int) : Prop :=
  ∀ ticks : List Duration, ∃ r, run tick (.fresh value) ticks = some r ∧
    0 ≤ r.accumulator.remainder ∧ r.accumulator.remainder < rate.per ∧
    (∀ elapsed, ∃ t, tick r elapsed = some t ∧ t.restored - r.restored ≤ max 0 (maxValue - r.value)) ∧
    (Along tick (·.value < maxValue) (.fresh value) ticks →
      r.restored = rate.amount * ticks.sum / rate.per ∧ (0 ≤ value → r.value = value + r.restored))

theorem rateFree_restoreTick {stat : Stat} {value maxValue : Int} {rate : DurationRate} (hmax : 0 < maxValue)
    (hmax' : maxValue ≤ i32Max) (hvalue : i32Min ≤ value) (hmissing : maxValue - value ≤ i32Max) (hrate : rate.Proper) :
    RateFree (restoreTick stat maxValue rate) rate value maxValue := by
  intro ticks
  obtain ⟨r, hr, hok, hsum⟩ := @run_restoreTick stat _ _ hmax hmax' hrate ticks (.fresh value)
    ⟨hvalue, hmissing, .zero hrate.per_pos⟩
  obtain ⟨h0, h1⟩ := hok.within
  refine ⟨r, hr, h0, h1, fun elapsed => ?_, fun hbelow => ?_⟩
  · obtain ⟨t, ht, _, _, hle, _⟩ := @restoreTick_spec stat _ _ _ hmax hmax' hrate hok elapsed
    exact ⟨t, ht, hle⟩
  · obtain ⟨hexact, hvalue'⟩ := hsum hbelow
    have hper : (0 : Int) < rate.per := Int.natCast_pos.2 hrate.per_pos
    constructor
    · have htotal : rate.amount * ticks.sum = r.accumulator.remainder + rate.per * r.restored := by
        simp only [PassiveRun.fresh, RateAccumulator.default, sub_zero, zero_add] at hexact
        rw [← hexact, add_comm]
      rw [htotal, Int.add_mul_ediv_left _ _ hper.ne', Int.ediv_eq_zero_of_lt h0 h1, zero_add]
    · intro hv
      have h2 := hvalue' hv
      simp only [PassiveRun.fresh, sub_zero] at h2
      omega

/-- However a time is split into ticks, life and spirit are given back at their rate times the whole time, rounded down
once. What is missing has to fit 32 bits, as it does for every value that is not below zero. -/
theorem passive_recovery_rateFree {hp maxHp sp maxSp : I32} (hmaxHp : 0 < maxHp.val) (hmaxSp : 0 < maxSp.val)
    (hhp : maxHp.val - hp.val ≤ i32Max) (hsp : maxSp.val - sp.val ≤ i32Max) (activity : PlayerStatActivity)
    (profile : PlayerSpRecoveryProfile) :
    RateFree (hpTick maxHp.val activity) (passiveHpRate maxHp.val activity) hp.val maxHp.val ∧
      RateFree (spTick hp.val maxHp.val maxSp.val activity profile)
        (passiveSpRate hp.val maxHp.val maxSp.val activity profile) sp.val maxSp.val := by
  constructor
  · rw [hpTick_eq]
    exact rateFree_restoreTick hmaxHp maxHp.property.2 hp.property.1 hhp (passiveHpRate_proper hmaxHp activity)
  · rw [spTick_eq]
    exact rateFree_restoreTick hmaxSp maxSp.property.2 sp.property.1 hsp
      (passiveSpRate_proper hmaxSp hp.val maxHp.val activity profile)

/-- A resting warrior, half wounded. -/
theorem passive_recovery_rateFree_resting :
    RateFree (hpTick 1000 ⟨.idle, none, none⟩) (passiveHpRate 1000 ⟨.idle, none, none⟩) 500 1000 ∧
      RateFree (spTick 500 1000 200 ⟨.idle, none, none⟩ .standard)
        (passiveSpRate 500 1000 200 ⟨.idle, none, none⟩ .standard) 100 200 :=
  @passive_recovery_rateFree ⟨500, by decide⟩ ⟨1000, by decide⟩ ⟨100, by decide⟩ ⟨200, by decide⟩ (by decide)
    (by decide) (by decide) (by decide) ⟨.idle, none, none⟩ .standard

end Zohar.Stats
