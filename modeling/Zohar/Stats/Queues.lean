/-
The recovery queues: life and spirit each have a bucket of recovery still to come, filled by
`queue_recovery` and `queue_auto_recovery` and emptied into the resource by `apply_pending_recovery`.
Over any sequence of these calls nothing is created: what a resource gains was taken from its bucket.
-/
import Zohar.Lib.Run
import Zohar.Stats.Api

namespace Zohar.Stats

open Zohar.Lib

variable {Source Detail : Type} [LinearOrder Source]

/-! ## The two pools -/

/-- A resource that has a recovery bucket. -/
inductive Pool where
  | hp | sp
  deriving DecidableEq, Repr

namespace Pool

def stat : Pool → Stat
  | hp => .hp
  | sp => .sp

def bucket : Pool → Stat
  | hp => .hpRecovery
  | sp => .spRecovery

def value (st : ActorStatState Source Detail) : Pool → Int
  | hp => st.resources.hp
  | sp => st.resources.sp

def pending (st : ActorStatState Source Detail) : Pool → Int
  | hp => st.resources.hpRecovery
  | sp => st.resources.spRecovery

def cap (st : ActorStatState Source Detail) : Pool → Int
  | hp => st.computed.get .maxHp
  | sp => st.computed.get .maxSp

@[simp] theorem recoveryBucketForResource_stat (p : Pool) : recoveryBucketForResource p.stat = .ok p.bucket := by
  cases p <;> rfl

@[simp] theorem currentResourceValue_stat (st : ActorStatState Source Detail) (p : Pool) :
    currentResourceValue st p.stat = .ok (p.value st) := by
  cases p <;> rfl

@[simp] theorem currentResourceValue_bucket (st : ActorStatState Source Detail) (p : Pool) :
    currentResourceValue st p.bucket = .ok (p.pending st) := by
  cases p <;> rfl

@[simp] theorem currentResourceCap_stat (st : ActorStatState Source Detail) (p : Pool) :
    currentResourceCap st p.stat = .ok (p.cap st) := by
  cases p <;> rfl

/-- A statistic is the resource of a pool, or has no bucket. -/
theorem exists_or_notResource (stat : Stat) :
    (∃ p : Pool, stat = p.stat) ∨ recoveryBucketForResource stat = .error (.notResource stat) := by
  cases stat with
  | hp => exact .inl ⟨hp, rfl⟩
  | sp => exact .inl ⟨sp, rfl⟩
  | _ => exact .inr rfl

/-- The capacities and the other pool are as before. -/
structure Frame (p : Pool) (s t : ActorStatState Source Detail) : Prop where
  computed : t.computed = s.computed
  other : ∀ q, q ≠ p → q.value t = q.value s ∧ q.pending t = q.pending s

theorem Frame.refl (p : Pool) (s : ActorStatState Source Detail) : p.Frame s s := ⟨rfl, fun _ _ => ⟨rfl, rfl⟩⟩

theorem Frame.trans {p : Pool} {s t u : ActorStatState Source Detail} (h : p.Frame s t) (h' : p.Frame t u) :
    p.Frame s u :=
  ⟨h'.computed.trans h.computed, fun q hq =>
    ⟨(h'.other q hq).1.trans (h.other q hq).1, (h'.other q hq).2.trans (h.other q hq).2⟩⟩

theorem Frame.cap_eq {p : Pool} {s t : ActorStatState Source Detail} (h : p.Frame s t) (q : Pool) :
    q.cap t = q.cap s := by
  cases q <;> simp only [cap, h.computed]

theorem exists_setResourceStat_stat (st : ActorStatState Source Detail) (p : Pool) (v : Int) :
    ∃ t, st.setResourceStat p.stat v = .ok t ∧ p.value t = v ∧ p.pending t = p.pending st ∧ p.Frame st t := by
  cases p with
  | hp =>
    by_cases hv : st.resources.hp = v
    · exact ⟨st, if_neg (not_not.2 hv), hv, rfl, .refl _ _⟩
    · refine ⟨_, if_pos hv, rfl, rfl, rfl, fun q hq => ?_⟩
      cases q with
      | hp => exact absurd rfl hq
      | sp => exact ⟨rfl, rfl⟩
  | sp =>
    by_cases hv : st.resources.sp = v
    · exact ⟨st, if_neg (not_not.2 hv), hv, rfl, .refl _ _⟩
    · refine ⟨_, if_pos hv, rfl, rfl, rfl, fun q hq => ?_⟩
      cases q with
      | hp => exact ⟨rfl, rfl⟩
      | sp => exact absurd rfl hq

theorem exists_setResourceStat_bucket (st : ActorStatState Source Detail) (p : Pool) (v : Int) :
    ∃ t, st.setResourceStat p.bucket v = .ok t ∧ p.value t = p.value st ∧ p.pending t = v ∧ p.Frame st t := by
  cases p with
  | hp =>
    by_cases hv : st.resources.hpRecovery = v
    · exact ⟨st, if_neg (not_not.2 hv), rfl, hv, .refl _ _⟩
    · refine ⟨_, if_pos hv, rfl, rfl, rfl, fun q hq => ?_⟩
      cases q with
      | hp => exact absurd rfl hq
      | sp => exact ⟨rfl, rfl⟩
  | sp =>
    by_cases hv : st.resources.spRecovery = v
    · exact ⟨st, if_neg (not_not.2 hv), rfl, hv, .refl _ _⟩
    · refine ⟨_, if_pos hv, rfl, rfl, rfl, fun q hq => ?_⟩
      cases q with
      | hp => exact ⟨rfl, rfl⟩
      | sp => exact absurd rfl hq

end Pool

/-! ## The calls -/

inductive RecoveryCall where
  | queueRecovery (stat : Stat) (amount : I32)
  | queueAutoRecovery (stat : Stat) (availableAmount : I32)
  | applyPendingRecovery (stat : Stat) (amount : I32)

/-- The state after a call, whatever it returned. -/
def recoveryStep (st : ActorStatState Source Detail) : RecoveryCall → Option (ActorStatState Source Detail)
  | .queueRecovery stat amount => (GameStatsApi.queueRecovery stat amount.val).exec st
  | .queueAutoRecovery stat availableAmount => (GameStatsApi.queueAutoRecovery stat availableAmount.val).exec st
  | .applyPendingRecovery stat amount => (GameStatsApi.applyPendingRecovery stat amount.val).exec st

def RecoveryCall.stat : RecoveryCall → Stat
  | .queueRecovery stat _ | .queueAutoRecovery stat _ | .applyPendingRecovery stat _ => stat

/-- Buckets and capacities of 32 bits, none below zero, and resources between zero and their capacity. -/
structure RecoveryOk (st : ActorStatState Source Detail) : Prop where
  pending : ∀ p : Pool, 0 ≤ p.pending st ∧ p.pending st ≤ i32Max
  value : ∀ p : Pool, 0 ≤ p.value st ∧ p.value st ≤ p.cap st
  cap : ∀ p : Pool, p.cap st ≤ i32Max

/-- What a call does to the pool it is about. -/
def Conserves (p : Pool) (s t : ActorStatState Source Detail) : RecoveryCall → Prop
  | .queueRecovery _ amount => p.value t = p.value s ∧
    p.pending t = if p.cap s ≤ p.value s + p.pending s then p.pending s else satI32 (p.pending s + max amount.val 0)
  | .queueAutoRecovery _ availableAmount => p.value t = p.value s ∧
    p.pending t = p.pending s + max 0 (min availableAmount.val (p.cap s - (p.value s + p.pending s)))
  | .applyPendingRecovery _ amount =>
    (p.cap s ≤ p.value s → p.pending t = 0 ∧ p.value t = p.value s) ∧
    (p.value s < p.cap s → p.pending t = p.pending s - min (max amount.val 0) (p.pending s) ∧
      p.value t = min (p.cap s) (p.value s + min (max amount.val 0) (p.pending s)))

namespace GameStatsApi

theorem queueRecovery_run (st : ActorStatState Source Detail) (p : Pool) (amount : Int) :
    ∃ r t, (queueRecovery p.stat amount).run st = some (r, t) ∧ p.Frame st t ∧ p.value t = p.value st ∧
      p.pending t = if p.cap st ≤ satI32 (p.value st + p.pending st) then p.pending st
        else satI32 (p.pending st + max amount 0) := by
  unfold queueRecovery
  obtain ⟨t, ht, hv, hp, hf⟩ := p.exists_setResourceStat_bucket st (satI32 (p.pending st + max amount 0))
  rw [Cmd.run_bind_ok (t := st) (a := p.bucket) (by simp [Cmd.check])]
  rw [Cmd.run_bind_ok (t := st) (a := p.pending st) (by simp [Cmd.tryRead])]
  rw [Cmd.run_bind_ok (t := st) (a := p.value st) (by simp [Cmd.tryRead])]
  rw [Cmd.run_bind_ok (t := st) (a := p.cap st) (by simp [Cmd.tryRead])]
  by_cases hfull : p.cap st ≤ satI32 (p.value st + p.pending st)
  · rw [if_pos hfull]
    exact ⟨_, st, rfl, .refl _ _, rfl, (if_pos hfull).symm⟩
  · rw [if_neg hfull, Cmd.run_bind_ok (t := t) (a := ()) (by simp only [Cmd.update, ht])]
    exact ⟨_, t, rfl, hf, hv, hp.trans (if_neg hfull).symm⟩


theorem queueAutoRecovery_run (st : ActorStatState Source Detail) (p : Pool) (amount : Int) :
    ∃ r t, (queueAutoRecovery p.stat amount).run st = some (r, t) ∧ p.Frame st t ∧ p.value t = p.value st ∧
      p.pending t =
        if min (max amount 0) (satI32 (p.cap st - satI32 (p.value st + p.pending st))) ≤ 0 then p.pending st
        else satI32 (p.pending st + min (max amount 0) (satI32 (p.cap st - satI32 (p.value st + p.pending st)))) := by
  unfold queueAutoRecovery
  obtain ⟨t, ht, hv, hp, hf⟩ := p.exists_setResourceStat_bucket st
    (satI32 (p.pending st + min (max amount 0) (satI32 (p.cap st - satI32 (p.value st + p.pending st)))))
  rw [Cmd.run_bind_ok (t := st) (a := p.bucket) (by simp [Cmd.check])]
  rw [Cmd.run_bind_ok (t := st) (a := p.pending st) (by simp [Cmd.tryRead])]
  rw [Cmd.run_bind_ok (t := st) (a := p.cap st) (by simp [Cmd.tryRead])]
  rw [Cmd.run_bind_ok (t := st) (a := p.value st) (by simp [Cmd.tryRead])]
  by_cases hnone : min (max amount 0) (satI32 (p.cap st - satI32 (p.value st + p.pending st))) ≤ 0
  · simp only [if_pos hnone]
    exact ⟨_, st, rfl, .refl _ _, rfl, rfl⟩
  · simp only [if_neg hnone]
    rw [Cmd.run_bind_ok (t := t) (a := ()) (by simp only [Cmd.update, ht])]
    exact ⟨_, t, rfl, hf, hv, hp⟩

/-- Restoring never fails an assertion where the capacity is not below zero. -/
theorem applyResource_restore_run (st : ActorStatState Source Detail) (p : Pool) (amount : Int) (hcap : 0 ≤ p.cap st) :
    ∃ r t, (applyResource (.restore p.stat amount)).run st = some (.ok r, t) ∧ p.Frame st t ∧
      p.value t = max 0 (min (satI32 (p.value st + amount)) (p.cap st)) ∧ p.pending t = p.pending st := by
  unfold applyResource
  obtain ⟨t, ht, hv, hp, hf⟩ := p.exists_setResourceStat_stat st (max 0 (min (satI32 (p.value st + amount)) (p.cap st)))
  have hclamp : clamp? 0 (p.cap st) (satI32 (p.value st + amount)) =
      some (max 0 (min (satI32 (p.value st + amount)) (p.cap st))) := clamp?_eq_some.2 ⟨hcap, rfl⟩
  simp only [ResourceApplication.restore, ResourceApplication.new, if_true]
  rw [Cmd.run_bind_ok (t := st) (a := p.value st) (by simp [Cmd.tryRead])]
  rw [Cmd.run_bind_ok (t := st) (a := p.cap st) (by simp [Cmd.tryRead])]
  rw [Cmd.run_bind_ok (t := st) (by simp only [Cmd.expect, Cmd.check, hclamp]; rfl)]
  rw [Cmd.run_bind_ok (t := t) (a := ()) (by simp only [Cmd.updateExpect, ht])]
  exact ⟨_, t, rfl, hf, hv, hp⟩

/-- A full resource only loses its bucket; otherwise what was scheduled is taken from the bucket and restored. -/
theorem applyPendingRecovery_run (st : ActorStatState Source Detail) (p : Pool) (amount : Int) (hcap : 0 ≤ p.cap st) :
    ∃ r t, (applyPendingRecovery p.stat amount).run st = some (r, t) ∧ p.Frame st t ∧
      (p.cap st ≤ p.value st → p.pending t = 0 ∧ p.value t = max 0 (min (satI32 (p.value st)) (p.cap st))) ∧
      (p.value st < p.cap st →
        p.pending t = (if min (max amount 0) (p.pending st) > 0 then
          satI32 (p.pending st - min (max amount 0) (p.pending st)) else p.pending st) ∧
        p.value t = max 0 (min (satI32 (p.value st + min (max amount 0) (p.pending st))) (p.cap st))) := by
  unfold applyPendingRecovery
  rw [Cmd.run_bind_ok (t := st) (a := p.bucket) (by simp [Cmd.check])]
  rw [Cmd.run_bind_ok (t := st) (a := p.pending st) (by simp [Cmd.tryRead])]
  rw [Cmd.run_bind_ok (t := st) (a := p.value st) (by simp [Cmd.tryRead])]
  rw [Cmd.run_bind_ok (t := st) (a := p.cap st) (by simp [Cmd.tryRead])]
  by_cases hfull : p.value st ≥ p.cap st
  · simp only [if_pos hfull]
    obtain ⟨t, ht, hv, hp, hf⟩ := p.exists_setResourceStat_bucket st 0
    obtain ⟨r, u, hu, hf', hv', hp'⟩ := applyResource_restore_run t p 0 (by rw [hf.cap_eq]; exact hcap)
    rw [Cmd.run_bind_ok (t := t) (a := ()) (by simp only [Cmd.update, ht])]
    refine ⟨_, u, hu, hf.trans hf', fun _ => ⟨hp'.trans hp, ?_⟩, fun h => absurd hfull (by omega)⟩
    rw [hv', hv, hf.cap_eq, Int.add_zero]
  · simp only [if_neg hfull]
    obtain ⟨r, t, ht, hf, hv, hp⟩ := applyResource_restore_run st p (min (max amount 0) (p.pending st)) hcap
    rw [Cmd.run_bind_ok ht]
    refine ?_
    by_cases hs : min (max amount 0) (p.pending st) > 0
    · simp only [if_pos hs]
      obtain ⟨u, hu, hv', hp', hf'⟩ := p.exists_setResourceStat_bucket t
        (satI32 (p.pending st - min (max amount 0) (p.pending st)))
      rw [Cmd.run_bind_ok (t := u) (a := ()) (by simp only [Cmd.update, hu])]
      exact ⟨_, u, rfl, hf.trans hf', fun h => absurd h hfull, fun _ => ⟨hp', hv'.trans hv⟩⟩
    · simp only [if_neg hs]
      exact ⟨_, t, rfl, hf, fun h => absurd h hfull, fun _ => ⟨hp, hv⟩⟩

end GameStatsApi

/-! ## One call -/

/-- A call about a statistic without a bucket is refused and changes nothing. -/
theorem recoveryStep_of_notResource (st : ActorStatState Source Detail) {call : RecoveryCall}
    (h : recoveryBucketForResource call.stat = .error (.notResource call.stat)) : recoveryStep st call = some st := by
  cases call with
  | queueRecovery stat amount =>
    show (GameStatsApi.queueRecovery stat amount.val).exec st = some st
    simp only [RecoveryCall.stat] at h
    simp only [Cmd.exec, GameStatsApi.queueRecovery, Cmd.run_bind, Cmd.check, h, Option.map_some]
    rfl
  | queueAutoRecovery stat amount =>
    show (GameStatsApi.queueAutoRecovery stat amount.val).exec st = some st
    simp only [RecoveryCall.stat] at h
    simp only [Cmd.exec, GameStatsApi.queueAutoRecovery, Cmd.run_bind, Cmd.check, h, Option.map_some]
    rfl
  | applyPendingRecovery stat amount =>
    show (GameStatsApi.applyPendingRecovery stat amount.val).exec st = some st
    simp only [RecoveryCall.stat] at h
    simp only [Cmd.exec, GameStatsApi.applyPendingRecovery, Cmd.run_bind, Cmd.check, h, Option.map_some]
    rfl

/-- The bounds of one pool and what the others keep give the bounds of all. -/
theorem RecoveryOk.of_frame {s t : ActorStatState Source Detail} (h : RecoveryOk s) {p : Pool} (hf : p.Frame s t)
    (hp : 0 ≤ p.pending t ∧ p.pending t ≤ i32Max) (hv : 0 ≤ p.value t ∧ p.value t ≤ p.cap s) : RecoveryOk t where
  pending q := by
    by_cases hq : q = p
    · subst hq; exact hp
    · rw [(hf.other q hq).2]; exact h.pending q
  value q := by
    rw [hf.cap_eq]
    by_cases hq : q = p
    · subst hq; exact hv
    · rw [(hf.other q hq).1]; exact h.value q
  cap q := by rw [hf.cap_eq]; exact h.cap q

/-- One call on a pool: it succeeds, touches no other pool and accounts for what it moves. -/
theorem recoveryStep_spec {st : ActorStatState Source Detail} (h : RecoveryOk st) {p : Pool} {call : RecoveryCall}
    (hc : call.stat = p.stat) :
    ∃ t, recoveryStep st call = some t ∧ p.Frame st t ∧ Conserves p st t call ∧ RecoveryOk t := by
  obtain ⟨hp0, hp1⟩ := h.pending p
  obtain ⟨hv0, hv1⟩ := h.value p
  have hcap := h.cap p
  unfold i32Max at hp1 hcap
  cases call with
  | queueRecovery stat amount =>
    have ha := amount.property
    simp only [RecoveryCall.stat] at hc
    subst hc
    obtain ⟨r, t, ht, hf, hv, hp⟩ := GameStatsApi.queueRecovery_run st p amount.val
    -- the sum saturates only above every capacity
    have hsat : p.cap st ≤ satI32 (p.value st + p.pending st) ↔ p.cap st ≤ p.value st + p.pending st := by
      unfold satI32 i32Min i32Max; omega
    simp only [hsat] at hp
    refine ⟨t, Cmd.exec_eq_some.2 ⟨r, ht⟩, hf, ⟨hv, hp⟩, h.of_frame hf ?_ (by omega)⟩
    rw [hp]
    unfold satI32 i32Min i32Max
    split <;> omega
  | queueAutoRecovery stat amount =>
    have ha := amount.property
    unfold i32Min i32Max at ha
    simp only [RecoveryCall.stat] at hc
    subst hc
    obtain ⟨r, t, ht, hf, hv, hp⟩ := GameStatsApi.queueAutoRecovery_run st p amount.val
    -- the room that is left saturates only where there is none
    have hroom : max 0 (satI32 (p.cap st - satI32 (p.value st + p.pending st))) =
        max 0 (p.cap st - (p.value st + p.pending st)) := by
      unfold satI32 i32Min i32Max
      omega
    have hnext : p.pending t = p.pending st + max 0 (min amount.val (p.cap st - (p.value st + p.pending st))) := by
      rw [hp]
      generalize satI32 (p.cap st - satI32 (p.value st + p.pending st)) = room at hroom ⊢
      split
      · omega
      · rw [satI32_of_mem (by unfold i32Min; omega) (by unfold i32Max; omega)]
        omega
    refine ⟨t, Cmd.exec_eq_some.2 ⟨r, ht⟩, hf, ⟨hv, hnext⟩, h.of_frame hf ?_ (by omega)⟩
    rw [hnext]
    unfold i32Max
    omega
  | applyPendingRecovery stat amount =>
    have ha := amount.property
    unfold i32Min i32Max at ha
    simp only [RecoveryCall.stat] at hc
    subst hc
    obtain ⟨r, t, ht, hf, hfull, hmissing⟩ := GameStatsApi.applyPendingRecovery_run st p amount.val (by omega)
    have hfull' : p.cap st ≤ p.value st → p.pending t = 0 ∧ p.value t = p.value st := by
      intro hle
      obtain ⟨h1, h2⟩ := hfull hle
      refine ⟨h1, h2.trans ?_⟩
      unfold satI32 i32Min i32Max
      omega
    have hmissing' : p.value st < p.cap st →
        p.pending t = p.pending st - min (max amount.val 0) (p.pending st) ∧
          p.value t = min (p.cap st) (p.value st + min (max amount.val 0) (p.pending st)) := by
      intro hlt
      obtain ⟨h1, h2⟩ := hmissing hlt
      constructor
      · rw [h1]
        unfold satI32 i32Min i32Max
        split <;> omega
      · rw [h2]
        unfold satI32 i32Min i32Max
        omega
    refine ⟨t, Cmd.exec_eq_some.2 ⟨r, ht⟩, hf, ⟨hfull', hmissing'⟩, h.of_frame hf ?_ ?_⟩
    · unfold i32Max
      rcases le_or_gt (p.cap st) (p.value st) with hle | hlt
      · have := hfull' hle; omega
      · have := hmissing' hlt; omega
    · rcases le_or_gt (p.cap st) (p.value st) with hle | hlt
      · have := hfull' hle; omega
      · have := hmissing' hlt; omega

/-- Every call succeeds and keeps the bounds. -/
theorem exists_recoveryStep {st : ActorStatState Source Detail} (h : RecoveryOk st) (call : RecoveryCall) :
    ∃ t, recoveryStep st call = some t ∧ RecoveryOk t := by
  rcases Pool.exists_or_notResource call.stat with ⟨p, hp⟩ | hn
  · obtain ⟨t, ht, _, _, hok⟩ := recoveryStep_spec h hp
    exact ⟨t, ht, hok⟩
  · exact ⟨st, recoveryStep_of_notResource st hn, h⟩

/-! ## Any sequence of calls -/

theorem exists_run_recoveryStep : ∀ (calls : List RecoveryCall) {st : ActorStatState Source Detail}, RecoveryOk st →
    ∃ t, run recoveryStep st calls = some t ∧ RecoveryOk t
  | [], st, h => ⟨st, rfl, h⟩
  | call :: calls, st, h => by
    obtain ⟨t, ht, hok⟩ := exists_recoveryStep h call
    obtain ⟨u, hu, hok'⟩ := exists_run_recoveryStep calls hok
    exact ⟨u, (run_cons_eq_some recoveryStep).2 ⟨t, ht, hu⟩, hok'⟩

/-- After any sequence of calls every further call succeeds and keeps the bounds. Queueing automatically does not lift
value and bucket above the capacity. Applying takes exactly the smaller of the amount and the bucket, or empties the
bucket of a full resource; the resource gains at most that and stops at its capacity. -/
theorem recovery_conserves {st : ActorStatState Source Detail} (h : RecoveryOk st) (calls : List RecoveryCall)
    (call : RecoveryCall) :
    ∃ s t, run recoveryStep st calls = some s ∧ recoveryStep s call = some t ∧ RecoveryOk s ∧ RecoveryOk t ∧
      (∀ (p : Pool) (amount : I32), call = .queueAutoRecovery p.stat amount →
        p.value s + p.pending s ≤ p.cap s → p.value t + p.pending t ≤ p.cap t) ∧
      ∀ (p : Pool) (amount : I32), call = .applyPendingRecovery p.stat amount →
        (p.value s = p.cap s → p.pending t = 0) ∧
        (p.value s ≠ p.cap s → p.pending t = p.pending s - min (max amount.val 0) (p.pending s)) ∧
        p.value s ≤ p.value t ∧ p.value t - p.value s ≤ p.pending s - p.pending t ∧ p.value t ≤ p.cap t := by
  obtain ⟨s, hs, hok⟩ := exists_run_recoveryStep calls h
  obtain ⟨t, ht, hok'⟩ := exists_recoveryStep hok call
  refine ⟨s, t, hs, ht, hok, hok', ?_, ?_⟩
  · rintro p amount rfl hfit
    obtain ⟨t', ht', hf, hcons, _⟩ :=
      recoveryStep_spec hok (show (RecoveryCall.queueAutoRecovery p.stat amount).stat = p.stat from rfl)
    obtain rfl : t' = t := Option.some.inj (ht'.symm.trans ht)
    obtain ⟨hv, hp⟩ := hcons
    rw [hf.cap_eq, hv, hp]
    omega
  · rintro p amount rfl
    obtain ⟨t', ht', hf, hcons, _⟩ :=
      recoveryStep_spec hok (show (RecoveryCall.applyPendingRecovery p.stat amount).stat = p.stat from rfl)
    obtain rfl : t' = t := Option.some.inj (ht'.symm.trans ht)
    obtain ⟨hfull, hmissing⟩ := hcons
    have hle := (hok.value p).2
    have hpending := (hok.pending p).1
    have hcap := (hok'.value p).2
    refine ⟨fun he => (hfull he.ge).1, fun hne => (hmissing (by omega)).1, ?_, ?_, hcap⟩
    · rcases le_or_gt (p.cap s) (p.value s) with hge | hlt
      · exact (hfull hge).2.ge
      · rw [(hmissing hlt).2]
        omega
    · rcases le_or_gt (p.cap s) (p.value s) with hge | hlt
      · have := hfull hge; omega
      · have := hmissing hlt; omega

/-- A wounded player with some life on the way. -/
def woundedState : ActorStatState Nat Unit :=
  { ActorStatState.new .player with
    computed := (PointValueStore.new.set .maxHp 760).set .maxSp 220
    resources := ⟨25, 200, 0, 10, 0⟩ }

theorem recovery_conserves_woundedState :
    ∃ s t, run recoveryStep woundedState [.queueRecovery .hp ⟨100, by decide⟩,
      .queueAutoRecovery .sp ⟨50, by decide⟩] = some s ∧
      recoveryStep s (.applyPendingRecovery .hp ⟨56, by decide⟩) = some t ∧
      Pool.pending t .hp = Pool.pending s .hp - min (max 56 0) (Pool.pending s .hp) := by
  have hok : RecoveryOk woundedState :=
    ⟨fun p => by cases p <;> decide, fun p => by cases p <;> decide, fun p => by cases p <;> decide⟩
  obtain ⟨s, t, hs, ht, _, _, _, happly⟩ := recovery_conserves hok
    [.queueRecovery .hp ⟨100, by decide⟩, .queueAutoRecovery .sp ⟨50, by decide⟩]
      (.applyPendingRecovery .hp ⟨56, by decide⟩)
  refine ⟨s, t, hs, ht, (happly .hp ⟨56, by decide⟩ rfl).2.1 ?_⟩
  have hwounded :
    (run recoveryStep woundedState [.queueRecovery .hp ⟨100, by decide⟩, .queueAutoRecovery .sp ⟨50, by decide⟩]).all
      (fun s => decide (Pool.value s .hp ≠ Pool.cap s .hp)) = true := by decide
  rw [hs] at hwounded
  exact of_decide_eq_true hwounded

end Zohar.Stats
