/-
The delay of a mob's melee attack against the windows in which its motions hit: the instant that they share, if they
share one, and an average of their starts otherwise. Neither it nor the choice between melee and projectile depends on
the order of the rows.
-/
import Zohar.Combat.Timing

namespace Zohar.Combat

open Zohar.Lib
open Zohar.Sim (FlyTiming)
open Zohar.Spawn (MobId)

/-! ## First windows -/

theorem clampToU32_max (a b : Int) : clampToU32 (max a b) = max (clampToU32 a) (clampToU32 b) := by
  unfold clampToU32
  omega

/-- No motion has two windows with the same start. -/
def DistinctStarts (hitWindows : List MotionHitWindow) : Prop :=
  hitWindows.Pairwise fun a b => a.motionId = b.motionId → a.startMs ≠ b.startMs

/-- The first window of a motion among those that do not start before it. -/
structure FirstWindow (hitWindows : List MotionHitWindow) (motionId : Int) (window : MotionHitWindow) : Prop where
  mem : window ∈ hitWindows
  motion : window.motionId = motionId
  nonneg : 0 ≤ window.startMs
  least : ∀ other ∈ hitWindows, other.motionId = motionId → 0 ≤ other.startMs → window.startMs ≤ other.startMs

/-- The instants of a window, its times clamped. A window with no end is its start. -/
def MotionHitWindow.Covers (window : MotionHitWindow) (t : Nat) : Prop :=
  clampToU32 window.startMs ≤ t ∧ t ≤ clampToU32 (window.endMs.getD window.startMs)

/-- A window that covers something hits where it covers. -/
theorem MotionHitWindow.covers_iff {window : MotionHitWindow} {t u : Nat} (h : window.Covers t) :
    window.Covers u ↔ window.hit.startMs ≤ u ∧ u ≤ window.hit.endMs := by
  have hend : window.hit.endMs = max (clampToU32 (window.endMs.getD window.startMs)) (clampToU32 window.startMs) :=
    clampToU32_max _ _
  obtain ⟨h0, h1⟩ := h
  rw [hend, max_eq_left (h0.trans h1)]
  exact Iff.rfl

variable {hitWindows : List MotionHitWindow} {motionId : Int}

theorem DistinctStarts.eq (hdistinct : DistinctStarts hitWindows) {v w : MotionHitWindow} (hv : v ∈ hitWindows)
    (hw : w ∈ hitWindows) (hmotion : v.motionId = w.motionId) (hstart : v.startMs = w.startMs) : v = w := by
  have : Std.Symm fun a b : MotionHitWindow => a.motionId = b.motionId → a.startMs ≠ b.startMs :=
    ⟨fun _ _ h he hs => h he.symm hs.symm⟩
  by_contra hne
  exact hdistinct.forall hv hw hne hmotion hstart

theorem exists_firstWindow (h : ∃ w ∈ hitWindows, w.motionId = motionId ∧ 0 ≤ w.startMs) :
    ∃ w, FirstWindow hitWindows motionId w := by
  obtain ⟨w, hw, hmotion, hnonneg⟩ := h
  have hmem : w ∈ hitWindows.filter fun v => decide (v.motionId = motionId ∧ 0 ≤ v.startMs) :=
    List.mem_filter.2 ⟨hw, decide_eq_true ⟨hmotion, hnonneg⟩⟩
  cases hv : (hitWindows.filter fun v => decide (v.motionId = motionId ∧ 0 ≤ v.startMs)).argmin (·.startMs) with
  | none =>
    rw [List.argmin_eq_none.1 hv] at hmem
    cases hmem
  | some v =>
    obtain ⟨hvmem, hvcond⟩ := List.mem_filter.1 (List.argmin_mem hv)
    obtain ⟨hvmotion, hvnonneg⟩ := of_decide_eq_true hvcond
    refine ⟨v, hvmem, hvmotion, hvnonneg, fun other hother hom hon => ?_⟩
    exact List.le_of_mem_argmin (List.mem_filter.2 ⟨hother, decide_eq_true ⟨hom, hon⟩⟩) hv

/-- A motion's hit is that of its first window. Two windows that start beyond the range of `u32` hit at the same
instant. -/
theorem get?_firstHitByMotion (hdistinct : DistinctStarts hitWindows) {w : MotionHitWindow}
    (hfirst : FirstWindow hitWindows motionId w) : (firstHitByMotion hitWindows).get? motionId = some w.hit := by
  rw [firstHitByMotion, get?_gather, OrdMap.get?_empty, foldl_keepLeast]
  generalize hrows : ((hitWindows.filter fun v => decide (v.startMs ≥ 0)).filter fun v => v.motionId = motionId) = rows
  have hmem : ∀ v, v ∈ rows ↔ v ∈ hitWindows ∧ v.motionId = motionId ∧ 0 ≤ v.startMs := by
    intro v
    rw [← hrows]
    simp only [List.mem_filter, decide_eq_true_eq]
    tauto
  have hw : w ∈ rows := (hmem w).2 ⟨hfirst.mem, hfirst.motion, hfirst.nonneg⟩
  cases hleast : (rows.map MotionHitWindow.hit).argmin MotionHit.startMs with
  | none =>
    have hnil := List.argmin_eq_none.1 hleast
    rw [List.map_eq_nil_iff] at hnil
    rw [hnil] at hw
    cases hw
  | some hit =>
    obtain ⟨v, hv, rfl⟩ := List.mem_map.1 (List.argmin_mem hleast)
    obtain ⟨hvmem, hvmotion, hvnonneg⟩ := (hmem v).1 hv
    have hle : v.hit.startMs ≤ w.hit.startMs := List.le_of_mem_argmin (List.mem_map_of_mem hw) hleast
    have hge : w.startMs ≤ v.startMs := hfirst.least v hvmem hvmotion hvnonneg
    rcases hge.eq_or_lt with heq | hlt
    · rw [hdistinct.eq hfirst.mem hvmem (hfirst.motion.trans hvmotion.symm) heq]
    · -- both starts are clamped
      have hw0 := hfirst.nonneg
      unfold MotionHitWindow.hit clampToU32 at hle ⊢
      dsimp only at hle
      rw [Option.some.injEq, MotionHit.mk.injEq]
      constructor
      · omega
      · omega

theorem firstHitByMotion_isSome_iff :
    ((firstHitByMotion hitWindows).get? motionId).isSome = true ↔ ∃ w ∈ hitWindows, w.motionId = motionId ∧
      0 ≤ w.startMs := by
  unfold firstHitByMotion
  rw [gather_isSome_iff]
  constructor
  · rintro ⟨w, hw, hmotion⟩
    obtain ⟨hw, hnonneg⟩ := List.mem_filter.1 hw
    exact ⟨w, hw, hmotion, of_decide_eq_true hnonneg⟩
  · rintro ⟨w, hw, hmotion, hnonneg⟩
    exact ⟨w, List.mem_filter.2 ⟨hw, decide_eq_true hnonneg⟩, hmotion⟩

theorem get?_firstHitByMotion_eq_some_iff (hdistinct : DistinctStarts hitWindows) {hit : MotionHit} :
    (firstHitByMotion hitWindows).get? motionId = some hit ↔ ∃ w, FirstWindow hitWindows motionId w ∧ hit = w.hit := by
  constructor
  · intro h
    obtain ⟨w, hw⟩ := exists_firstWindow (firstHitByMotion_isSome_iff.1 (by rw [h]; rfl))
    refine ⟨w, hw, ?_⟩
    rw [get?_firstHitByMotion hdistinct hw] at h
    exact (Option.some.inj h).symm
  · rintro ⟨w, hw, rfl⟩
    exact get?_firstHitByMotion hdistinct hw

/-! ## What a mob gathers -/

/-- What an accumulator knows of the rows that it has gathered. -/
structure Gathered (rows : List (MobAttackMotion × MotionHit)) (acc : MeleeAccumulator) : Prop where
  latest_ge : ∀ r ∈ rows, r.2.startMs ≤ acc.latestStartMs
  latest_mem : ∃ r ∈ rows, r.2.startMs = acc.latestStartMs
  earliest : ∃ e, acc.earliestEndMs = some e ∧ (∀ r ∈ rows, e ≤ r.2.endMs) ∧ ∃ r ∈ rows, r.2.endMs = e
  total_pos : 0 < acc.totalWeight
  sum_ge : ∀ lo, (∀ r ∈ rows, lo ≤ r.2.startMs) → lo * acc.totalWeight ≤ acc.weightedStartSum
  sum_le : ∀ hi, (∀ r ∈ rows, r.2.startMs ≤ hi) → acc.weightedStartSum ≤ hi * acc.totalWeight
  duration_ge : ∀ r ∈ rows, clampToU32 r.1.durationMs ≤ acc.maxDurationMs
  duration_mem : ∃ r ∈ rows, clampToU32 r.1.durationMs = acc.maxDurationMs

theorem gathered_one (row : MobAttackMotion × MotionHit) : Gathered [row] (pushHit none row) := by
  have hweight : 0 < (max row.1.weight 1).toNat := by omega
  refine ⟨?_, ⟨row, by simp, ?_⟩, ⟨row.2.endMs, rfl, by simp, row, by simp, rfl⟩, ?_, ?_, ?_, ?_, ⟨row, by simp, ?_⟩⟩
  · intro r hr
    rw [List.mem_singleton.1 hr]
    exact le_max_right 0 _
  · exact (Nat.zero_max _).symm
  · exact hweight.trans_eq (Nat.zero_add _).symm
  · intro lo hlo
    show lo * (0 + _) ≤ 0 + row.2.startMs * _
    rw [Nat.zero_add, Nat.zero_add]
    exact Nat.mul_le_mul_right _ (hlo row (by simp))
  · intro hi hhi
    show 0 + row.2.startMs * _ ≤ hi * (0 + _)
    rw [Nat.zero_add, Nat.zero_add]
    exact Nat.mul_le_mul_right _ (hhi row (by simp))
  · intro r hr
    rw [List.mem_singleton.1 hr]
    exact le_max_right 0 _
  · exact (Nat.zero_max _).symm

theorem Gathered.push {rows : List (MobAttackMotion × MotionHit)} {acc : MeleeAccumulator} (h : Gathered rows acc)
    (row : MobAttackMotion × MotionHit) : Gathered (rows ++ [row]) (pushHit (some acc) row) := by
  obtain ⟨hge, ⟨r0, hr0, hlatest⟩, ⟨e, he, hele, r1, hr1, heq⟩, hpos, hsum, hsum', hdge, ⟨r2, hr2, hdur⟩⟩ := h
  have hall : ∀ {P : MobAttackMotion × MotionHit → Prop}, (∀ r ∈ rows ++ [row], P r) ↔ (∀ r ∈ rows, P r) ∧ P row := by
    intro P
    rw [List.forall_mem_append, List.forall_mem_singleton]
  refine ⟨?_, ?_, ⟨min e row.2.endMs, ?_, ?_, ?_⟩, ?_, ?_, ?_, ?_, ?_⟩
  · exact hall.2 ⟨fun r hr => (hge r hr).trans (le_max_left _ _), le_max_right _ _⟩
  · rcases max_choice acc.latestStartMs row.2.startMs with hmax | hmax
    · exact ⟨r0, List.mem_append_left _ hr0, hlatest.trans hmax.symm⟩
    · exact ⟨row, by simp, hmax.symm⟩
  · show some (acc.earliestEndMs.elim _ _) = _
    rw [he]
    rfl
  · exact hall.2 ⟨fun r hr => (min_le_left _ _).trans (hele r hr), min_le_right _ _⟩
  · rcases min_choice e row.2.endMs with hmin | hmin
    · exact ⟨r1, List.mem_append_left _ hr1, heq.trans hmin.symm⟩
    · exact ⟨row, by simp, hmin.symm⟩
  · exact Nat.add_pos_left hpos _
  · intro lo hlo
    obtain ⟨hrows, hrow⟩ := hall.1 hlo
    show lo * (acc.totalWeight + _) ≤ acc.weightedStartSum + row.2.startMs * _
    rw [Nat.mul_add]
    exact Nat.add_le_add (hsum lo hrows) (Nat.mul_le_mul_right _ hrow)
  · intro hi hhi
    obtain ⟨hrows, hrow⟩ := hall.1 hhi
    show acc.weightedStartSum + row.2.startMs * _ ≤ hi * (acc.totalWeight + _)
    rw [Nat.mul_add]
    exact Nat.add_le_add (hsum' hi hrows) (Nat.mul_le_mul_right _ hrow)
  · exact hall.2 ⟨fun r hr => (hdge r hr).trans (le_max_left _ _), le_max_right _ _⟩
  · rcases max_choice acc.maxDurationMs (clampToU32 row.1.durationMs) with hmax | hmax
    · exact ⟨r2, List.mem_append_left _ hr2, hdur.trans hmax.symm⟩
    · exact ⟨row, by simp, hmax.symm⟩

theorem exists_gathered {rows : List (MobAttackMotion × MotionHit)} (h : rows ≠ []) :
    ∃ acc, rows.foldl (fun o r => some (pushHit o r)) none = some acc ∧ Gathered rows acc := by
  induction rows using List.reverseRecOn with
  | nil => exact absurd rfl h
  | append_singleton rows row ih =>
    rw [List.foldl_append]
    by_cases hrows : rows = []
    · subst hrows
      exact ⟨_, rfl, gathered_one row⟩
    · obtain ⟨acc, hacc, hgathered⟩ := ih hrows
      rw [hacc]
      exact ⟨_, rfl, hgathered.push row⟩

/-- What one row adds to the sums is bounded by the ranges of its numbers. -/
theorem foldl_pushHit_sums_le {maxWeight maxStart : Nat} (hweight : 1 ≤ maxWeight) :
    ∀ (rows : List (MobAttackMotion × MotionHit)), (∀ r ∈ rows, r.1.weight ≤ maxWeight ∧ r.2.startMs ≤ maxStart) →
    ∀ o : Option MeleeAccumulator, ∀ acc, rows.foldl (fun o r => some (pushHit o r)) o = some acc →
      acc.weightedStartSum ≤ (o.getD .default).weightedStartSum + rows.length * (maxStart * maxWeight) ∧
      acc.totalWeight ≤ (o.getD .default).totalWeight + rows.length * maxWeight
  | [], _, o, acc, hacc => by
    obtain rfl : o = some acc := hacc
    simp
  | row :: rows, hrows, o, acc, hacc => by
    obtain ⟨hw, hs⟩ := hrows row (by simp)
    obtain ⟨hsum, htotal⟩ := foldl_pushHit_sums_le hweight rows
      (fun r hr => hrows r (List.mem_cons_of_mem _ hr)) _ acc hacc
    have hpushed : (max row.1.weight 1).toNat ≤ maxWeight := by omega
    have hadded : row.2.startMs * (max row.1.weight 1).toNat ≤ maxStart * maxWeight := Nat.mul_le_mul hs hpushed
    simp only [Option.getD_some, pushHit, MeleeAccumulator.push] at hsum htotal
    rw [List.length_cons, Nat.succ_mul, Nat.succ_mul]
    constructor
    · omega
    · omega

/-- The sums of up to `2 ^ 33` rows stay in the range of `u128`. -/
theorem foldl_pushHit_sums_lt {rows : List (MobAttackMotion × MotionHit)} {acc : MeleeAccumulator}
    (hrows : ∀ r ∈ rows, r.1.weight ≤ 9223372036854775807 ∧ r.2.startMs ≤ 4294967295)
    (hlength : rows.length ≤ 8589934592) (hacc : rows.foldl (fun o r => some (pushHit o r)) none = some acc) :
    acc.weightedStartSum < 2 ^ 128 ∧ acc.totalWeight < 2 ^ 128 := by
  obtain ⟨hsum, htotal⟩ := foldl_pushHit_sums_le (by decide : 1 ≤ 9223372036854775807) rows hrows none acc hacc
  simp only [Option.getD_none, MeleeAccumulator.default] at hsum htotal
  constructor
  · omega
  · omega

/-- Not every start lies above the average. -/
theorem Gathered.exists_le_average {rows : List (MobAttackMotion × MotionHit)} {acc : MeleeAccumulator}
    (h : Gathered rows acc) : ∃ r ∈ rows, r.2.startMs ≤ acc.weightedStartSum / acc.totalWeight := by
  by_contra hnone
  have habove : ∀ r ∈ rows, acc.weightedStartSum / acc.totalWeight + 1 ≤ r.2.startMs := by
    intro r hr
    by_contra hle
    exact hnone ⟨r, hr, by omega⟩
  have hsum := h.sum_ge _ habove
  have hlt := Nat.lt_mul_div_succ acc.weightedStartSum h.total_pos
  rw [Nat.mul_comm] at hlt
  omega

/-- The delay lies in every hit, if they share an instant; in any case it lies between two of their starts. -/
theorem Gathered.timingParts {rows : List (MobAttackMotion × MotionHit)} {acc : MeleeAccumulator}
    (h : Gathered rows acc) (hclamped : ∀ r ∈ rows, r.2.startMs ≤ 4294967295) :
    ∃ delay, acc.timingParts = some (delay, acc.maxDurationMs) ∧
      ((∃ t, ∀ r ∈ rows, r.2.startMs ≤ t ∧ t ≤ r.2.endMs) → ∀ r ∈ rows, r.2.startMs ≤ delay ∧ delay ≤ r.2.endMs) ∧
      (∃ r ∈ rows, r.2.startMs ≤ delay) ∧ ∃ r ∈ rows, delay ≤ r.2.startMs := by
  obtain ⟨last, hlastmem, hlast⟩ := h.latest_mem
  obtain ⟨e, he, hele, r1, hr1, heq⟩ := h.earliest
  have hpos := h.total_pos
  unfold MeleeAccumulator.timingParts
  rw [if_neg hpos.ne', he]
  by_cases hshare : acc.latestStartMs ≤ e
  · refine ⟨acc.latestStartMs, by simp [hshare], fun _ r hr => ⟨h.latest_ge r hr, hshare.trans (hele r hr)⟩, ?_, ?_⟩
    · exact ⟨last, hlastmem, hlast.le⟩
    · exact ⟨last, hlastmem, hlast.ge⟩
  · refine ⟨min (acc.weightedStartSum / acc.totalWeight) 4294967295, by simp [hshare], ?_, ?_, ?_⟩
    · -- the last start and the first end exclude a common instant
      rintro ⟨t, ht⟩
      have hlo := (ht last hlastmem).1
      have hhi := (ht r1 hr1).2
      omega
    · obtain ⟨r, hr, hle⟩ := h.exists_le_average
      refine ⟨r, hr, ?_⟩
      apply le_min
      · exact hle
      · exact hclamped r hr
    · refine ⟨last, hlastmem, (min_le_left _ _).trans ?_⟩
      rw [hlast]
      apply Nat.div_le_of_le_mul
      rw [Nat.mul_comm]
      exact h.sum_le _ h.latest_ge

/-! ## Attacks -/

/-- An attack of a mob: one of its motions of positive weight, with the first window of the motion. -/
structure Attack (motions : List MobAttackMotion) (hitWindows : List MotionHitWindow) (mob : MobId)
    (motion : MobAttackMotion) (window : MotionHitWindow) : Prop where
  mem : motion ∈ motions
  mob_eq : motion.mobId = mob
  weight_pos : 0 < motion.weight
  first : FirstWindow hitWindows motion.motionId window

variable {motions motions' : List MobAttackMotion} {mob : MobId}

theorem mem_hitRows_iff (hdistinct : DistinctStarts hitWindows) {row : MobAttackMotion × MotionHit} :
    row ∈ motions.filterMap (hitRow (firstHitByMotion hitWindows)) ∧ row.1.mobId = mob ↔
      ∃ window, Attack motions hitWindows mob row.1 window ∧ row.2 = window.hit := by
  rw [List.mem_filterMap]
  constructor
  · rintro ⟨⟨motion, hmotion, hrow⟩, hmob⟩
    unfold hitRow at hrow
    split at hrow
    · cases hrow
    · rename_i hweight
      obtain ⟨hit, hhit, rfl⟩ := Option.map_eq_some_iff.1 hrow
      obtain ⟨window, hfirst, rfl⟩ := (get?_firstHitByMotion_eq_some_iff hdistinct).1 hhit
      exact ⟨window, ⟨hmotion, hmob, not_le.1 hweight, hfirst⟩, rfl⟩
  · rintro ⟨window, ⟨hmotion, hmob, hweight, hfirst⟩, hhit⟩
    refine ⟨⟨row.1, hmotion, ?_⟩, hmob⟩
    unfold hitRow
    rw [if_neg (not_le.2 hweight), get?_firstHitByMotion hdistinct hfirst, ← hhit]
    rfl

theorem MotionHitWindow.hit_startMs_le (window : MotionHitWindow) : window.hit.startMs ≤ 4294967295 := by
  show clampToU32 window.startMs ≤ _
  unfold clampToU32
  omega

/-- What a mob gathers from its attacks. -/
theorem exists_meleeByMob (hdistinct : DistinctStarts hitWindows)
    (h : ∃ motion window, Attack motions hitWindows mob motion window) :
    ∃ rows acc, (meleeByMob (firstHitByMotion hitWindows) motions).get? mob = some acc ∧ Gathered rows acc ∧
      ∀ row, row ∈ rows ↔ ∃ window, Attack motions hitWindows mob row.1 window ∧ row.2 = window.hit := by
  obtain ⟨motion, window, hattack⟩ := h
  unfold meleeByMob
  rw [get?_gather, OrdMap.get?_empty]
  generalize hrows : List.filter _ (motions.filterMap _) = rows
  have hmem : ∀ row, row ∈ rows ↔ ∃ window, Attack motions hitWindows mob row.1 window ∧ row.2 = window.hit := by
    intro row
    simp only [← hrows, List.mem_filter, decide_eq_true_eq]
    exact mem_hitRows_iff hdistinct
  have hne : rows ≠ [] := List.ne_nil_of_mem ((hmem (motion, window.hit)).2 ⟨window, hattack, rfl⟩)
  obtain ⟨acc, hacc, hgathered⟩ := exists_gathered hne
  exact ⟨rows, acc, hacc, hgathered, hmem⟩

theorem meleeByMob_eq_none (hdistinct : DistinctStarts hitWindows)
    (h : ¬ ∃ motion window, Attack motions hitWindows mob motion window) :
    (meleeByMob (firstHitByMotion hitWindows) motions).get? mob = none := by
  by_contra hsome
  obtain ⟨row, hrow, hmob⟩ := gather_isSome_iff.1 (Option.isSome_iff_ne_none.2 hsome)
  obtain ⟨window, hattack, _⟩ := (mem_hitRows_iff hdistinct).1 ⟨hrow, hmob⟩
  exact h ⟨row.1, window, hattack⟩

/-! ## Order -/

theorem pushHit_comm (acc : Option MeleeAccumulator) (r s : MobAttackMotion × MotionHit) :
    pushHit (some (pushHit acc r)) s = pushHit (some (pushHit acc s)) r := by
  unfold pushHit
  generalize acc.getD MeleeAccumulator.default = a
  simp only [Option.getD_some]
  unfold MeleeAccumulator.push
  rw [MeleeAccumulator.mk.injEq]
  refine ⟨max_right_comm _ _ _, ?_, Nat.add_right_comm _ _ _, Nat.add_right_comm _ _ _, max_right_comm _ _ _⟩
  cases a.earliestEndMs with
  | none => exact congrArg some (min_comm _ _)
  | some e => exact congrArg some (min_right_comm _ _ _)

theorem DistinctStarts.perm {hitWindows' : List MotionHitWindow} (hdistinct : DistinctStarts hitWindows)
    (h : hitWindows.Perm hitWindows') : DistinctStarts hitWindows' :=
  h.pairwise hdistinct fun hne heq hstart => hne heq.symm hstart.symm

theorem FirstWindow.perm {hitWindows' : List MotionHitWindow} {window : MotionHitWindow}
    (h : hitWindows.Perm hitWindows') (hfirst : FirstWindow hitWindows motionId window) :
    FirstWindow hitWindows' motionId window := by
  constructor
  · exact h.mem_iff.1 hfirst.mem
  · exact hfirst.motion
  · exact hfirst.nonneg
  · exact fun other hother => hfirst.least other (h.mem_iff.2 hother)

theorem firstHitByMotion_perm {hitWindows' : List MotionHitWindow} (hdistinct : DistinctStarts hitWindows)
    (h : hitWindows.Perm hitWindows') : firstHitByMotion hitWindows = firstHitByMotion hitWindows' := by
  refine OrdMap.ext_get? fun motionId => Option.ext fun hit => ?_
  rw [get?_firstHitByMotion_eq_some_iff hdistinct, get?_firstHitByMotion_eq_some_iff (hdistinct.perm h)]
  constructor
  · rintro ⟨window, hfirst, hhit⟩
    exact ⟨window, hfirst.perm h, hhit⟩
  · rintro ⟨window, hfirst, hhit⟩
    exact ⟨window, hfirst.perm h.symm, hhit⟩

theorem meleeByMob_perm (hits : OrdMap Int MotionHit) (h : motions.Perm motions') :
    meleeByMob hits motions = meleeByMob hits motions' :=
  gather_perm pushHit_comm (h.filterMap _)

/-! ## Choice -/

section
variable {F : Type} {flyTiming : F → F → F → FlyTiming} {flyEvents : List MotionFlyEvent}
  {flyData : List (MotionFlyData F)}

theorem firstFlyByMotion_isSome_iff :
    ((firstFlyByMotion flyTiming flyEvents flyData).get? motionId).isSome = true ↔
      ∃ event ∈ flyEvents, event.motionId = motionId ∧ 0 ≤ event.releaseMs := by
  unfold firstFlyByMotion
  rw [gather_isSome_iff]
  constructor
  · rintro ⟨event, hevent, hmotion⟩
    obtain ⟨hevent, hnonneg⟩ := List.mem_filter.1 hevent
    exact ⟨event, hevent, hmotion, of_decide_eq_true hnonneg⟩
  · rintro ⟨event, hevent, hmotion, hnonneg⟩
    exact ⟨event, List.mem_filter.2 ⟨hevent, decide_eq_true hnonneg⟩, hmotion⟩

theorem projectileTiming_isSome {rows : List (MobAttackMotion × MotionFly)} :
    ((rows.foldl (fun o r => some (pushFly o r)) none).bind projectileTiming).isSome = !rows.isEmpty := by
  rcases rows.eq_nil_or_concat with rfl | ⟨rows, row, rfl⟩
  · rfl
  · rw [List.concat_eq_append, List.foldl_append]
    simp [projectileTiming, ProjectileAccumulator.timing, pushFly, ProjectileAccumulator.push]

/-- A mob with a motion of positive weight that does not hit and lets something fly. -/
def Throws (motions : List MobAttackMotion) (hitWindows : List MotionHitWindow) (flyEvents : List MotionFlyEvent)
    (mob : MobId) : Prop :=
  ∃ motion ∈ motions, motion.mobId = mob ∧ 0 < motion.weight ∧
    (¬ ∃ w ∈ hitWindows, w.motionId = motion.motionId ∧ 0 ≤ w.startMs) ∧
    ∃ event ∈ flyEvents, event.motionId = motion.motionId ∧ 0 ≤ event.releaseMs

theorem projectile_isSome_iff :
    (((projectileByMob (firstHitByMotion hitWindows) (firstFlyByMotion flyTiming flyEvents flyData) motions).get?
      mob).bind projectileTiming).isSome = true ↔ Throws motions hitWindows flyEvents mob := by
  unfold projectileByMob
  rw [get?_gather, OrdMap.get?_empty, projectileTiming_isSome]
  simp only [Bool.not_eq_true', List.isEmpty_eq_false_iff, ne_eq, List.filter_eq_nil_iff, decide_eq_true_eq, not_forall,
    not_not, List.mem_filterMap, exists_prop]
  constructor
  · rintro ⟨row, ⟨motion, hmotion, hrow⟩, hmob⟩
    unfold flyRow at hrow
    split at hrow
    · cases hrow
    · rename_i hnot
      obtain ⟨hweight, hhit⟩ := not_or.1 hnot
      obtain ⟨fly, hfly, rfl⟩ := Option.map_eq_some_iff.1 hrow
      refine ⟨motion, hmotion, hmob, not_le.1 hweight, ?_, ?_⟩
      · exact fun hwindow => hhit (firstHitByMotion_isSome_iff.2 hwindow)
      · exact firstFlyByMotion_isSome_iff.1 (by rw [hfly]; rfl)
  · rintro ⟨motion, hmotion, hmob, hweight, hwindow, hevent⟩
    have hsome : ((firstFlyByMotion flyTiming flyEvents flyData).get? motion.motionId).isSome = true :=
      firstFlyByMotion_isSome_iff.2 hevent
    obtain ⟨fly, hfly⟩ := Option.isSome_iff_exists.1 hsome
    refine ⟨(motion, fly), ⟨motion, hmotion, ?_⟩, hmob⟩
    unfold flyRow
    rw [if_neg (not_or.2 ⟨not_le.2 hweight, fun hhit => hwindow (firstHitByMotion_isSome_iff.1 hhit)⟩), hfly]
    rfl

end

/-! ## Timings of mobs -/

/-- A mob with a motion of positive weight that has a hit window. -/
def Hits (motions : List MobAttackMotion) (hitWindows : List MotionHitWindow) (mob : MobId) : Prop :=
  ∃ motion ∈ motions, motion.mobId = mob ∧ 0 < motion.weight ∧
    ∃ w ∈ hitWindows, w.motionId = motion.motionId ∧ 0 ≤ w.startMs

theorem Hits.exists_attack (h : Hits motions hitWindows mob) :
    ∃ motion window, Attack motions hitWindows mob motion window := by
  obtain ⟨motion, hmotion, hmob, hweight, hwindow⟩ := h
  obtain ⟨window, hfirst⟩ := exists_firstWindow hwindow
  exact ⟨motion, window, hmotion, hmob, hweight, hfirst⟩

/-- What a mob's attacks make of its timing: the delay lies in the first window of each of them, if these share an
instant, and always between two of their starts; the duration is the longest. -/
structure MeleeTiming (motions : List MobAttackMotion) (hitWindows : List MotionHitWindow) (mob : MobId)
    (delayMs durationMs : Nat) : Prop where
  covers : (∃ t, ∀ motion window, Attack motions hitWindows mob motion window → window.Covers t) →
    ∀ motion window, Attack motions hitWindows mob motion window → window.Covers delayMs
  ge_start : ∃ motion window, Attack motions hitWindows mob motion window ∧ clampToU32 window.startMs ≤ delayMs
  le_start : ∃ motion window, Attack motions hitWindows mob motion window ∧ delayMs ≤ clampToU32 window.startMs
  duration_ge : ∀ motion window, Attack motions hitWindows mob motion window → clampToU32 motion.durationMs ≤ durationMs
  duration_mem : ∃ motion window, Attack motions hitWindows mob motion window ∧
    clampToU32 motion.durationMs = durationMs

theorem exists_meleeTiming (hdistinct : DistinctStarts hitWindows)
    (h : ∃ motion window, Attack motions hitWindows mob motion window) :
    ∃ delayMs durationMs,
      ((meleeByMob (firstHitByMotion hitWindows) motions).get? mob).bind meleeTiming =
        some ⟨.melee delayMs, durationMs⟩ ∧
      MeleeTiming motions hitWindows mob delayMs durationMs := by
  obtain ⟨rows, acc, hacc, hgathered, hmem⟩ := exists_meleeByMob hdistinct h
  have hclamped : ∀ r ∈ rows, r.2.startMs ≤ 4294967295 := by
    intro r hr
    obtain ⟨window, _, hhit⟩ := (hmem r).1 hr
    rw [hhit]
    exact window.hit_startMs_le
  have hrow : ∀ {motion window}, Attack motions hitWindows mob motion window → (motion, window.hit) ∈ rows :=
    fun {motion window} hattack => (hmem (motion, window.hit)).2 ⟨window, hattack, rfl⟩
  obtain ⟨delay, hparts, hshare, ⟨r0, hr0, hge⟩, r1, hr1, hle⟩ := hgathered.timingParts hclamped
  refine ⟨delay, acc.maxDurationMs, ?_, ?_⟩
  · rw [hacc, Option.bind_some, meleeTiming, hparts]
    rfl
  constructor
  · rintro ⟨t, ht⟩ motion window hattack
    rw [MotionHitWindow.covers_iff (ht motion window hattack)]
    apply hshare ⟨t, fun r hr => ?_⟩ (motion, window.hit) (hrow hattack)
    obtain ⟨v, hv, hhit⟩ := (hmem r).1 hr
    rw [hhit]
    exact (MotionHitWindow.covers_iff (ht r.1 v hv)).1 (ht r.1 v hv)
  · obtain ⟨v, hv, hhit⟩ := (hmem r0).1 hr0
    rw [hhit] at hge
    exact ⟨r0.1, v, hv, hge⟩
  · obtain ⟨v, hv, hhit⟩ := (hmem r1).1 hr1
    rw [hhit] at hle
    exact ⟨r1.1, v, hv, hle⟩
  · intro motion window hattack
    exact hgathered.duration_ge _ (hrow hattack)
  · obtain ⟨r, hr, hduration⟩ := hgathered.duration_mem
    obtain ⟨v, hv, _⟩ := (hmem r).1 hr
    exact ⟨r.1, v, hv, hduration⟩

/-- A timing without what is particular to a projectile: all of a melee timing, and of a projectile only that it is
one. -/
def meleePart (timing : MobAttackTiming) : Option MobAttackTiming :=
  match timing.proc with
  | .melee _ => some timing
  | .projectile .. => none

theorem map_meleePart_projectile (acc : Option ProjectileAccumulator) :
    (acc.bind projectileTiming).map meleePart = if (acc.bind projectileTiming).isSome then some none else none := by
  cases htiming : acc.bind projectileTiming with
  | none => rfl
  | some timing =>
    obtain ⟨a, _, htiming⟩ := Option.bind_eq_some_iff.1 htiming
    obtain ⟨parts, _, rfl⟩ := Option.map_eq_some_iff.1 htiming
    rfl

section
variable {F : Type} {flyTiming : F → F → F → FlyTiming} {flyEvents flyEvents' : List MotionFlyEvent}
  {flyData flyData' : List (MotionFlyData F)} {hitWindows' : List MotionHitWindow}

/-- What a mob throws may depend on the order of the rows; that it throws does not. -/
theorem projectileByMob_perm (hmotions : motions.Perm motions') (hwindows : hitWindows.Perm hitWindows')
    (hevents : flyEvents.Perm flyEvents') :
    (((projectileByMob (firstHitByMotion hitWindows) (firstFlyByMotion flyTiming flyEvents flyData) motions).get?
      mob).bind projectileTiming).map meleePart =
    (((projectileByMob (firstHitByMotion hitWindows') (firstFlyByMotion flyTiming flyEvents' flyData') motions').get?
      mob).bind projectileTiming).map meleePart := by
  have hthrows : Throws motions hitWindows flyEvents mob ↔ Throws motions' hitWindows' flyEvents' mob := by
    unfold Throws
    simp only [hmotions.mem_iff, hwindows.mem_iff, hevents.mem_iff]
  rw [map_meleePart_projectile, map_meleePart_projectile]
  exact if_congr (projectile_isSome_iff.trans (hthrows.trans projectile_isSome_iff.symm)) rfl rfl

theorem Hits.exists_timing (h : Hits motions hitWindows mob) (hdistinct : DistinctStarts hitWindows) :
    ∃ delayMs durationMs,
      (mobAttackTimingsFromMotion flyTiming motions hitWindows flyEvents flyData).get? mob =
        some ⟨.melee delayMs, durationMs⟩ ∧ MeleeTiming motions hitWindows mob delayMs durationMs := by
  obtain ⟨delay, duration, htiming, hspec⟩ := exists_meleeTiming hdistinct h.exists_attack
  refine ⟨delay, duration, ?_, hspec⟩
  rw [get?_mobAttackTimings, htiming]
  rfl

/-- A mob throws exactly if none of its motions hits and one of them lets something fly. -/
theorem projectile_timing_iff (hdistinct : DistinctStarts hitWindows) :
    ((mobAttackTimingsFromMotion flyTiming motions hitWindows flyEvents flyData).get? mob).map meleePart = some none ↔
      ¬ Hits motions hitWindows mob ∧ Throws motions hitWindows flyEvents mob := by
  by_cases hhits : Hits motions hitWindows mob
  · obtain ⟨delay, duration, htiming, _⟩ := @Hits.exists_timing _ _ _ F flyTiming flyEvents flyData hhits hdistinct
    rw [htiming]
    simp [meleePart, hhits]
  · have hnone : ¬ ∃ motion window, Attack motions hitWindows mob motion window := by
      rintro ⟨motion, window, hattack⟩
      apply hhits
      exact ⟨motion, hattack.mem, hattack.mob_eq, hattack.weight_pos, window, hattack.first.mem, hattack.first.motion,
        hattack.first.nonneg⟩
    rw [get?_mobAttackTimings, meleeByMob_eq_none hdistinct hnone, Option.bind_none, Option.none_or,
      map_meleePart_projectile]
    simp only [Option.ite_none_right_eq_some, and_true, projectile_isSome_iff, hhits, not_false_eq_true, true_and]

end

/-- A mob attacks with what its motions hit with, and throws only if none of them hits. Its melee timing and the choice
do not depend on the order of the rows. -/
theorem mob_attack_timings {F : Type} (flyTiming : F → F → F → FlyTiming) (motions : List MobAttackMotion)
    (hitWindows : List MotionHitWindow) (flyEvents : List MotionFlyEvent) (flyData : List (MotionFlyData F))
    (hdistinct : DistinctStarts hitWindows) :
    let timings := mobAttackTimingsFromMotion flyTiming motions hitWindows flyEvents flyData
    (∀ mob, Hits motions hitWindows mob →
      ∃ delayMs durationMs, timings.get? mob = some ⟨.melee delayMs, durationMs⟩ ∧
        MeleeTiming motions hitWindows mob delayMs durationMs) ∧
    (∀ mob releaseMs flight durationMs, timings.get? mob = some ⟨.projectile releaseMs flight, durationMs⟩ →
      ¬ Hits motions hitWindows mob) ∧
    ∀ motions' hitWindows' flyEvents' flyData', motions.Perm motions' → hitWindows.Perm hitWindows' →
      flyEvents.Perm flyEvents' → flyData.Perm flyData' →
      ∀ mob, (timings.get? mob).map meleePart =
        ((mobAttackTimingsFromMotion flyTiming motions' hitWindows' flyEvents' flyData').get? mob).map meleePart := by
  intro timings
  refine ⟨fun mob hmob => hmob.exists_timing hdistinct, ?_, ?_⟩
  · intro mob releaseMs flight durationMs hprojectile hmob
    obtain ⟨delay, duration, htiming, _⟩ := hmob.exists_timing hdistinct
    cases hprojectile.symm.trans htiming
  · intro motions' hitWindows' flyEvents' flyData' hmotions hwindows hevents _ mob
    have hmelee : meleeByMob (firstHitByMotion hitWindows) motions =
        meleeByMob (firstHitByMotion hitWindows') motions' := by
      rw [firstHitByMotion_perm hdistinct hwindows, meleeByMob_perm _ hmotions]
    rw [get?_mobAttackTimings, get?_mobAttackTimings, ← hmelee]
    cases ((meleeByMob (firstHitByMotion hitWindows) motions).get? mob).bind meleeTiming with
    | some timing => rfl
    | none =>
      rw [Option.none_or, Option.none_or]
      exact projectileByMob_perm hmotions hwindows hevents

/-- Two windows of a mob that share an instant, and an arrow of another. -/
theorem mob_attack_timings_overlap :
    let flyTiming : Int → Int → Int → FlyTiming := fun initVel accelY bombRange =>
      ⟨clampToU32 (max initVel 1), clampToU32 (-accelY), clampToU32 bombRange⟩
    let motions : List MobAttackMotion := [⟨1, ⟨101⟩, 50, 700⟩, ⟨2, ⟨101⟩, 50, 900⟩, ⟨3, ⟨102⟩, 50, 800⟩]
    let hitWindows : List MotionHitWindow := [⟨1, 369, some 569⟩, ⟨2, 564, some 711⟩]
    let timings := mobAttackTimingsFromMotion flyTiming motions hitWindows [⟨3, 320, some "c:/arrow.fly"⟩]
      [⟨"c:/arrow.fly", 650, 25, 0⟩]
    timings.get? ⟨101⟩ = some ⟨.melee 564, 900⟩ ∧ MeleeTiming motions hitWindows ⟨101⟩ 564 900 ∧
      timings.get? ⟨102⟩ = some ⟨.projectile 320 ⟨650, 0, 25⟩, 800⟩ ∧ ¬ Hits motions hitWindows ⟨102⟩ := by
  intro flyTiming motions hitWindows timings
  have hmelee : timings.get? ⟨101⟩ = some ⟨.melee 564, 900⟩ := by decide
  have hprojectile : timings.get? ⟨102⟩ = some ⟨.projectile 320 ⟨650, 0, 25⟩, 800⟩ := by decide
  have hhits : Hits motions hitWindows ⟨101⟩ := by
    refine ⟨⟨1, ⟨101⟩, 50, 700⟩, by decide, rfl, by decide, ⟨1, 369, some 569⟩, by decide, rfl, by decide⟩
  obtain ⟨htimings, hnot, _⟩ := mob_attack_timings flyTiming motions hitWindows [⟨3, 320, some "c:/arrow.fly"⟩]
    [⟨"c:/arrow.fly", 650, 25, 0⟩] (by unfold DistinctStarts; decide)
  obtain ⟨delay, duration, htiming, hspec⟩ := htimings ⟨101⟩ hhits
  cases hmelee.symm.trans htiming
  exact ⟨hmelee, hspec, hprojectile, hnot _ _ _ _ hprojectile⟩

/-- A window that starts before its motion does not count, and times are clamped to `u32`. -/
theorem mob_attack_timings_clamps :
    let motions : List MobAttackMotion := [⟨1, ⟨101⟩, 50, 700⟩]
    let early : List MotionHitWindow := [⟨1, -5, some 100⟩]
    let late : List MotionHitWindow := [⟨1, 8589934592, some 8589934692⟩]
    let timings := fun hitWindows => mobAttackTimingsFromMotion (fun _ _ _ : Int => defaultProjectile) motions
      hitWindows [] []
    DistinctStarts early ∧ (timings early).get? ⟨101⟩ = none ∧
      DistinctStarts late ∧ (timings late).get? ⟨101⟩ = some ⟨.melee 4294967295, 700⟩ := by
  unfold DistinctStarts
  decide

end Zohar.Combat
