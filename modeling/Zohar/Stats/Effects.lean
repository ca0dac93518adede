/-
What the operations on an actor's statistics can do to its state, said once: a relation between states
that the single writes satisfy holds across every mutator, and a recomputation ends in one form.
-/
import Zohar.Stats.Api

namespace Zohar.Stats

open Zohar.Lib

variable {Source Detail : Type} [LinearOrder Source]

/-! ## Writes -/

/-- A relation that holds across every write of a resource. -/
structure ResourceRel (R : ActorStatState Source Detail → ActorStatState Source Detail → Prop) : Prop where
  refl : ∀ s, R s s
  trans : ∀ s t u, R s t → R t u → R s u
  resource : ∀ s t stat value, s.setResourceStat stat value = .ok t → R s t

/-- A relation that holds across every single write of a mutator, the modifier channel apart. -/
structure WriteRel (R : ActorStatState Source Detail → ActorStatState Source Detail → Prop) : Prop extends
    ResourceRel R where
  stored : ∀ s t stat, ∀ value : Int, i32Min ≤ value → value ≤ i32Max → s.setStoredStat stat value = .ok t → R s t
  progression : ∀ s p, p.level ≤ i32Max → R s (s.setPlayerProgression p)
  flags : ∀ s flags, R s (s.setExternalImmuneFlags flags)
  stableId : ∀ s id, R s (s.setStableId id)

/-! ## Resources that can be read -/

/-- Whatever can be read can be written. -/
theorem exists_setResourceStat {st : ActorStatState Source Detail} {stat : Stat} {value : Int}
    (h : currentResourceValue st stat = .ok value) (next : Int) : ∃ t, st.setResourceStat stat next = .ok t := by
  have write : ∀ {p : Prop} [Decidable p] (s t : ActorStatState Source Detail),
      ∃ u, (if p then Except.ok s else .ok t : Except StatWriteError _) = .ok u := by
    intro p _ s t
    split
    · exact ⟨s, rfl⟩
    · exact ⟨t, rfl⟩
  cases stat with
  | hp | sp | stamina | hpRecovery | spRecovery => exact write _ _
  | _ => cases h

theorem exists_currentResourceValue {st : ActorStatState Source Detail} {stat : Stat} {cap : Int}
    (h : currentResourceCap st stat = .ok cap) : ∃ value, currentResourceValue st stat = .ok value := by
  cases stat with
  | hp | sp | stamina => exact ⟨_, rfl⟩
  | _ => cases h

/-- The value up to which an application raises a resource. -/
def upperBound (st : ActorStatState Source Detail) (stat : Stat) (clampToCap : Bool) : Except StatWriteError Int :=
  if clampToCap then currentResourceCap st stat else .ok i32Max

namespace GameStatsApi

/-- Setting a resource whose capacity is not negative. -/
theorem setResource_run_ok {st : ActorStatState Source Detail} {stat : Stat} {cap : Int}
    (hc : currentResourceCap st stat = .ok cap) (h0 : 0 ≤ cap) (value : Int) :
    ∃ t, st.setResourceStat stat (max 0 (min value cap)) = .ok t ∧
      (setResource stat value).run st = some (.ok (max 0 (min value cap)), t) := by
  obtain ⟨current, hv⟩ := exists_currentResourceValue hc
  obtain ⟨t, ht⟩ := exists_setResourceStat hv (max 0 (min value cap))
  have hclamp : clamp? 0 cap value = some (max 0 (min value cap)) := clamp?_eq_some.2 ⟨h0, rfl⟩
  refine ⟨t, ht, ?_⟩
  unfold setResource
  rw [Cmd.run_tryRead_bind, hc]
  dsimp only
  rw [Cmd.run_expect_bind, hclamp, Option.bind_some, Cmd.run_updateExpect_bind _ ht]
  rfl

theorem upperBound_bind {β : Type} (st : ActorStatState Source Detail) (stat : Stat) (clampToCap : Bool)
    (g : Int → WriteCmd Source Detail β) :
    ((if clampToCap then Cmd.tryRead (currentResourceCap · stat) else pure i32Max) >>= g).run st =
      match upperBound st stat clampToCap with
      | .error e => some (.error e, st)
      | .ok bound => (g bound).run st := by
  cases clampToCap with
  | false => rfl
  | true =>
    have hcap : upperBound st stat true = currentResourceCap st stat := rfl
    rw [if_pos rfl, Cmd.run_tryRead_bind, hcap]
    cases currentResourceCap st stat <;> rfl

/-- How an application runs: it reads the value and the bound, and writes the clamped value. -/
theorem applyResource_run (st : ActorStatState Source Detail) (a : ResourceApplication) :
    (applyResource a).run st =
      match currentResourceValue st a.stat, upperBound st a.stat a.clampToCap with
      | .error e, _ | .ok _, .error e => some (.error e, st)
      | .ok value, .ok bound => (clamp? a.minValue bound (satI32 (value + a.delta))).bind fun next =>
        (st.setResourceStat a.stat next).toOption.map fun t =>
          (.ok ⟨a.stat, value, next, subI32 next value, decide (next ≠ satI32 (value + a.delta))⟩, t) := by
  unfold applyResource
  rw [Cmd.run_tryRead_bind]
  cases hv : currentResourceValue st a.stat with
  | error e => rfl
  | ok value =>
    dsimp only
    rw [upperBound_bind]
    cases upperBound st a.stat a.clampToCap with
    | error e => rfl
    | ok bound =>
      dsimp only
      rw [Cmd.run_expect_bind]
      congr 1
      funext next
      obtain ⟨t, ht⟩ := exists_setResourceStat hv next
      rw [Cmd.run_updateExpect_bind _ ht, ht]
      rfl

/-! ## Recovery buckets only hold values of 32 bits -/

section
variable {R : ActorStatState Source Detail → ActorStatState Source Detail → Prop} (hr : ∀ s, R s s)
  (ht : ∀ s t u, R s t → R t u → R s u)
  (hw : ∀ stat value, i32Min ≤ value ∧ value ≤ i32Max →
    Cmd.Keeps R (Cmd.update (·.setResourceStat stat value) : WriteCmd Source Detail Unit))
include hr ht hw

theorem keeps_queueRecovery_of (stat : Stat) (amount : Int) :
    Cmd.Keeps R (queueRecovery stat amount : WriteCmd Source Detail (Option QueuedRecovery)) := by
  unfold queueRecovery
  refine Cmd.keeps_bind ht (Cmd.keeps_check hr _) fun bucket => ?_
  refine Cmd.keeps_bind ht (Cmd.keeps_tryRead hr _) fun previous => ?_
  refine Cmd.keeps_bind ht (Cmd.keeps_tryRead hr _) fun current => ?_
  refine Cmd.keeps_bind ht (Cmd.keeps_tryRead hr _) fun cap => ?_
  refine Cmd.keeps_ite (Cmd.keeps_pure hr _) ?_
  exact Cmd.keeps_bind ht (hw bucket _ (satI32_mem _)) fun _ => Cmd.keeps_pure hr _

theorem keeps_queueAutoRecovery_of (stat : Stat) (availableAmount : Int) :
    Cmd.Keeps R (queueAutoRecovery stat availableAmount : WriteCmd Source Detail (Option QueuedRecovery)) := by
  unfold queueAutoRecovery
  refine Cmd.keeps_bind ht (Cmd.keeps_check hr _) fun bucket => ?_
  refine Cmd.keeps_bind ht (Cmd.keeps_tryRead hr _) fun previous => ?_
  refine Cmd.keeps_bind ht (Cmd.keeps_tryRead hr _) fun cap => ?_
  refine Cmd.keeps_bind ht (Cmd.keeps_tryRead hr _) fun current => ?_
  refine Cmd.keeps_ite (Cmd.keeps_pure hr _) ?_
  exact Cmd.keeps_bind ht (hw bucket _ (satI32_mem _)) fun _ => Cmd.keeps_pure hr _

theorem keeps_applyPendingRecovery_of
    (ha : ∀ a, Cmd.Keeps R (applyResource a : WriteCmd Source Detail ResourceApplicationResult)) (stat : Stat)
    (amount : Int) :
    Cmd.Keeps R (applyPendingRecovery stat amount : WriteCmd Source Detail ResourceApplicationResult) := by
  unfold applyPendingRecovery
  refine Cmd.keeps_bind ht (Cmd.keeps_check hr _) fun bucket => ?_
  refine Cmd.keeps_bind ht (Cmd.keeps_tryRead hr _) fun pending => ?_
  refine Cmd.keeps_bind ht (Cmd.keeps_tryRead hr _) fun current => ?_
  refine Cmd.keeps_bind ht (Cmd.keeps_tryRead hr _) fun cap => ?_
  refine Cmd.keeps_ite ?_ ?_
  · exact Cmd.keeps_bind ht (hw bucket 0 (by decide)) fun _ => ha _
  · refine Cmd.keeps_bind ht (ha _) fun result => ?_
    refine Cmd.keeps_bind ht ?_ fun _ => Cmd.keeps_pure hr _
    exact Cmd.keeps_ite (hw bucket _ (satI32_mem _)) (Cmd.keeps_pure hr _)

end

/-! ## Writes of a resource -/

section
variable {R : ActorStatState Source Detail → ActorStatState Source Detail → Prop} (hR : ResourceRel R)
include hR

theorem keeps_writeResource (stat : Stat) (value : Int) :
    Cmd.Keeps R (Cmd.update (·.setResourceStat stat value) : WriteCmd Source Detail Unit) :=
  Cmd.keeps_update hR.refl fun s t h => hR.resource s t stat value h

theorem keeps_expectResource (stat : Stat) (value : Int) :
    Cmd.Keeps R (Cmd.updateExpect (·.setResourceStat stat value) : WriteCmd Source Detail Unit) :=
  Cmd.keeps_updateExpect fun s t h => hR.resource s t stat value h

theorem keeps_setResource (stat : Stat) (value : Int) :
    Cmd.Keeps R (setResource stat value : WriteCmd Source Detail Int) := by
  unfold setResource
  refine Cmd.keeps_bind hR.trans (Cmd.keeps_tryRead hR.refl _) fun cap => ?_
  refine Cmd.keeps_bind hR.trans (Cmd.keeps_expect hR.refl _) fun capped => ?_
  exact Cmd.keeps_bind hR.trans (keeps_expectResource hR stat capped) fun _ => Cmd.keeps_pure hR.refl _

theorem keeps_changeResource (stat : Stat) (delta : Int) :
    Cmd.Keeps R (changeResource stat delta : WriteCmd Source Detail Int) :=
  Cmd.keeps_bind hR.trans (Cmd.keeps_tryRead hR.refl _) fun _ => keeps_setResource hR stat _

theorem keeps_applyResource (application : ResourceApplication) :
    Cmd.Keeps R (applyResource application : WriteCmd Source Detail ResourceApplicationResult) := by
  unfold applyResource
  refine Cmd.keeps_bind hR.trans (Cmd.keeps_tryRead hR.refl _) fun previous => ?_
  refine Cmd.keeps_bind hR.trans (Cmd.keeps_ite (Cmd.keeps_tryRead hR.refl _) (Cmd.keeps_pure hR.refl _)) fun cap => ?_
  refine Cmd.keeps_bind hR.trans (Cmd.keeps_expect hR.refl _) fun next => ?_
  exact Cmd.keeps_bind hR.trans (keeps_expectResource hR _ next) fun _ => Cmd.keeps_pure hR.refl _

theorem keeps_queueRecovery (stat : Stat) (amount : Int) :
    Cmd.Keeps R (queueRecovery stat amount : WriteCmd Source Detail (Option QueuedRecovery)) :=
  keeps_queueRecovery_of hR.refl hR.trans (fun bucket value _ => keeps_writeResource hR bucket value) stat amount

theorem keeps_queueAutoRecovery (stat : Stat) (availableAmount : Int) :
    Cmd.Keeps R (queueAutoRecovery stat availableAmount : WriteCmd Source Detail (Option QueuedRecovery)) :=
  keeps_queueAutoRecovery_of hR.refl hR.trans (fun bucket value _ => keeps_writeResource hR bucket value) stat
    availableAmount

theorem keeps_applyPendingRecovery (stat : Stat) (amount : Int) :
    Cmd.Keeps R (applyPendingRecovery stat amount : WriteCmd Source Detail ResourceApplicationResult) :=
  keeps_applyPendingRecovery_of hR.refl hR.trans (fun bucket value _ => keeps_writeResource hR bucket value)
    (keeps_applyResource hR) stat amount

end

theorem keeps_setStoredStat {R : ActorStatState Source Detail → ActorStatState Source Detail → Prop} (hR : WriteRel R)
    (source : ActorStatSource) (stat : Stat) (value : I32) :
    Cmd.Keeps R (setStoredStat source stat value.val : WriteCmd Source Detail Unit) :=
  Cmd.keeps_bind hR.trans (Cmd.keeps_check hR.refl _) fun _ =>
    Cmd.keeps_update hR.refl fun s t h => hR.stored s t stat value.val value.property.1 value.property.2 h

/-! ## Bundles -/

/-- A refused bundle leaves the state as it was; an accepted one becomes its source's entry of the ledger. -/
theorem replaceSourceBundle_eq_some {src : Source} {c : CompiledStatContribution Detail}
    {st t : ActorStatState Source Detail} {r : Except SourceBundleError Unit}
    (h : (replaceSourceBundle src c).run st = some (r, t)) :
    (∃ e, r = .error e ∧ validateModifiers c.modifiers = .error e ∧ t = st) ∨
      (r = .ok () ∧ validateModifiers c.modifiers = .ok () ∧
        t = st.replaceModifierSource src (c.modifiers.map (compiledModifierToInstance src))) := by
  unfold replaceSourceBundle at h
  rcases Cmd.bind_eq_some h with ⟨e, h1, rfl⟩ | ⟨_, _, h1, h2⟩
  · simp only [Cmd.check, Option.map_some, Option.some.injEq, Prod.mk.injEq] at h1
    exact .inl ⟨e, rfl, h1.1, h1.2.symm⟩
  · simp only [Cmd.check, Option.map_some, Option.some.injEq, Prod.mk.injEq] at h1
    simp only [Cmd.update, Option.some.injEq, Prod.mk.injEq] at h2
    obtain ⟨rfl, rfl⟩ := h2
    exact .inr ⟨rfl, h1.1, by rw [h1.2]⟩

/-- What a mutator does: a sequence of writes, or one change of the ledger. -/
theorem mutate_cases {R : ActorStatState Source Detail → ActorStatState Source Detail → Prop} (hR : WriteRel R)
    {source : ActorStatSource} {st t : ActorStatState Source Detail} {m : Mutator Source Detail}
    (h : mutate source st m = some t) :
    (R st t ∧ (∀ src c, m ≠ .replaceSourceBundle src c) ∧ ∀ src, m ≠ .removeSourceBundle src) ∨
      (∃ src c e, m = .replaceSourceBundle src c ∧ validateModifiers c.modifiers = .error e ∧ t = st) ∨
      (∃ src c, m = .replaceSourceBundle src c ∧ validateModifiers c.modifiers = .ok () ∧
        t = st.replaceModifierSource src (c.modifiers.map (compiledModifierToInstance src))) ∨
      ∃ src, m = .removeSourceBundle src ∧ t = st.removeModifierSource src := by
  have keeps : ∀ {ε α : Type} {c : Cmd ε (ActorStatState Source Detail) α}, Cmd.Keeps R c →
      c.exec st = some t → R st t :=
    fun hc hx => let ⟨r, hr⟩ := Cmd.exec_eq_some.1 hx; hc st r t hr
  cases m with
  | setStoredStat stat value => exact .inl ⟨keeps (keeps_setStoredStat hR source stat value) h, nofun, nofun⟩
  | setPlayerProgression level e n =>
    cases h
    exact .inl ⟨hR.progression st ⟨level.val, e, n⟩ level.property.2, nofun, nofun⟩
  | setResource stat value => exact .inl ⟨keeps (keeps_setResource hR.toResourceRel stat _) h, nofun, nofun⟩
  | changeResource stat delta => exact .inl ⟨keeps (keeps_changeResource hR.toResourceRel stat _) h, nofun, nofun⟩
  | applyResource a => exact .inl ⟨keeps (keeps_applyResource hR.toResourceRel a) h, nofun, nofun⟩
  | queueRecovery stat amount => exact .inl ⟨keeps (keeps_queueRecovery hR.toResourceRel stat _) h, nofun, nofun⟩
  | queueAutoRecovery stat amount =>
    exact .inl ⟨keeps (keeps_queueAutoRecovery hR.toResourceRel stat _) h, nofun, nofun⟩
  | applyPendingRecovery stat amount =>
    exact .inl ⟨keeps (keeps_applyPendingRecovery hR.toResourceRel stat _) h, nofun, nofun⟩
  | replaceSourceBundle src c =>
    obtain ⟨r, hr⟩ := Cmd.exec_eq_some.1 h
    rcases replaceSourceBundle_eq_some hr with ⟨e, _, hv, ht⟩ | ⟨_, hv, ht⟩
    · exact .inr (.inl ⟨src, c, e, rfl, hv, ht⟩)
    · exact .inr (.inr (.inl ⟨src, c, rfl, hv, ht⟩))
  | removeSourceBundle src => cases h; exact .inr (.inr (.inr ⟨src, rfl, rfl⟩))
  | setExternalImmuneFlags flags => cases h; exact .inl ⟨hR.flags st flags, nofun, nofun⟩
  | setStableId id => cases h; exact .inl ⟨hR.stableId st (some id), nofun, nofun⟩
  | clearStableId => cases h; exact .inl ⟨hR.stableId st none, nofun, nofun⟩

/-! ## Recomputation -/

theorem clampToCaps_eq_some {r r' : ActorResources} {p : PointValueStore} (h : r.clampToCaps p = some r') :
    clamp? 0 (p.get .maxHp) r.hp = some r'.hp ∧ clamp? 0 (p.get .maxSp) r.sp = some r'.sp ∧
      clamp? 0 (p.get .maxStamina) r.stamina = some r'.stamina ∧ r'.hpRecovery = r.hpRecovery ∧
      r'.spRecovery = r.spRecovery := by
  unfold ActorResources.clampToCaps at h
  simp only [Option.bind_eq_bind, Option.bind_eq_some_iff, Option.pure_def, Option.some.injEq] at h
  obtain ⟨a, ha, b, hb, c, hc, rfl⟩ := h
  exact ⟨ha, hb, hc, rfl, rfl⟩

end GameStatsApi

/-- No capacity is negative. -/
def CapsOk (p : PointValueStore) : Prop := 0 ≤ p.get .maxHp ∧ 0 ≤ p.get .maxSp ∧ 0 ≤ p.get .maxStamina

theorem capsOk_of_clampToCaps {r r' : ActorResources} {p : PointValueStore} (h : r.clampToCaps p = some r') :
    CapsOk p := by
  obtain ⟨h1, h2, h3, _⟩ := GameStatsApi.clampToCaps_eq_some h
  exact ⟨(clamp?_eq_some.1 h1).1, (clamp?_eq_some.1 h2).1, (clamp?_eq_some.1 h3).1⟩

theorem clampToCaps_of_capsOk (r : ActorResources) {p : PointValueStore} (h : CapsOk p) :
    ∃ r', r.clampToCaps p = some r' := by
  obtain ⟨h1, h2, h3⟩ := h
  unfold ActorResources.clampToCaps clamp?
  simp only [if_pos h1, if_pos h2, if_pos h3]
  exact ⟨_, rfl⟩

namespace GameStatsApi

variable [GrowthRng]

/-- The store a recomputation installs. -/
def derivedStore (source : ActorStatSource) (st : ActorStatState Source Detail) : PointValueStore :=
  rebuildDerivedState st.stableId source (seedRebuildState st source)

def derivedFlags (source : ActorStatSource) (st : ActorStatState Source Detail) : ActorImmuneFlags :=
  deriveImmuneFlags { st with computed := derivedStore source st }

/-- The state a recomputation ends in, given the clamped resources. -/
def recomputed (source : ActorStatSource) (st : ActorStatState Source Detail) (resources : ActorResources) :
    ActorStatState Source Detail :=
  { st with
    computed := derivedStore source st
    resources
    runtime := { st.runtime with immuneFlags := derivedFlags source st }
    explicitChanges := ∅
    dirty := false
    runtimeDirty := false }

/-- A recomputation fails only where a capacity is negative; otherwise it ends in `recomputed`. -/
theorem recomputeReport_eq (source : ActorStatSource) (st : ActorStatState Source Detail) :
    recomputeReport source st = (st.resources.clampToCaps (derivedStore source st)).map fun resources =>
      (⟨diffStore st.computed (derivedStore source st) ∪ resourceChanges st.resources resources ∪ st.explicitChanges,
        st.runtimeDirty || decide (st.runtime.immuneFlags ≠ derivedFlags source st)⟩,
        recomputed source st resources) := by
  unfold recomputeReport
  simp only [ActorStatState.replaceComputed, ActorStatState.clampResourcesToComputedCaps,
    ActorStatState.setDerivedImmuneFlags_eq, Option.bind_eq_bind, Option.pure_def, Option.bind_map]
  exact Option.map_eq_bind.symm

theorem recomputeReport_eq_some {source : ActorStatSource} {st t : ActorStatState Source Detail}
    {report : StatRecomputeReport} (h : recomputeReport source st = some (report, t)) :
    ∃ resources, st.resources.clampToCaps (derivedStore source st) = some resources ∧
      t = recomputed source st resources ∧
      report.changes = diffStore st.computed (derivedStore source st) ∪ resourceChanges st.resources resources ∪
        st.explicitChanges ∧
      report.runtimeDirty = (st.runtimeDirty || decide (st.runtime.immuneFlags ≠ derivedFlags source st)) := by
  rw [recomputeReport_eq, Option.map_eq_some_iff] at h
  obtain ⟨resources, hc, he⟩ := h
  cases he
  exact ⟨resources, hc, rfl, rfl, rfl⟩

/-- An operation is a mutator, recomputes, or leaves a clean state alone. -/
theorem apply_cases {source : ActorStatSource} {st t : ActorStatState Source Detail} {op : ApiOp Source Detail}
    (h : GameStatsApi.apply source st op = some t) :
    (∃ m, op = .mutate m ∧ mutate source st m = some t) ∨
      (∀ m, op ≠ .mutate m) ∧ (t = st ∨ ∃ report, recomputeReport source st = some (report, t)) := by
  have hsync : ∀ {u}, sync source st = some u → ∃ report, recomputeReport source st = some (report, u.2) := by
    intro u hu
    simp only [sync, Option.bind_eq_bind, Option.bind_eq_some_iff, Option.pure_def, Option.some.injEq] at hu
    obtain ⟨⟨report, st'⟩, hr, sy, _, rfl⟩ := hu
    exact ⟨report, hr⟩
  unfold GameStatsApi.apply at h
  split at h
  · cases h
  · cases op with
    | mutate m => exact .inl ⟨m, rfl, h⟩
    | recompute =>
      obtain ⟨⟨report, u⟩, hr, rfl⟩ := Option.map_eq_some_iff.1 h
      exact .inr ⟨(fun _ he => by cases he), .inr ⟨report, hr⟩⟩
    | sync =>
      obtain ⟨u, hu, rfl⟩ := Option.map_eq_some_iff.1 h
      exact .inr ⟨(fun _ he => by cases he), .inr (hsync hu)⟩
    | bootstrapSync =>
      obtain ⟨u, hu, rfl⟩ := Option.map_eq_some_iff.1 h
      simp only [bootstrapSync, Option.bind_eq_bind, Option.bind_eq_some_iff, Option.pure_def, Option.some.injEq] at hu
      obtain ⟨⟨report, st'⟩, hr, ps, _, rfl⟩ := hu
      exact .inr ⟨(fun _ he => by cases he), .inr ⟨report, hr⟩⟩
    | syncIfDirty =>
      obtain ⟨u, hu, rfl⟩ := Option.map_eq_some_iff.1 h
      unfold syncIfDirty at hu
      split at hu
      · exact .inr ⟨(fun _ he => by cases he), .inr (hsync hu)⟩
      · obtain ⟨sy, _, rfl⟩ := Option.map_eq_some_iff.1 hu
        exact .inr ⟨(fun _ he => by cases he), .inl rfl⟩

end GameStatsApi

end Zohar.Stats
