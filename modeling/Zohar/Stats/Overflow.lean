/-
Where the arithmetic of the statistics is safe: in which reachable states a recomputation and the operations on
the resources run through in a build that checks for overflow, and end as they do in one that wraps. Capacities
are recomputed from unchecked sums and bundles of any amount are accepted, so this takes a condition on the
state and the request.
-/
import Zohar.Stats.Formula

namespace Zohar.Stats

open Zohar.Lib

variable {Source Detail : Type} [LinearOrder Source]

/-! ## Operations with overflow checks -/

namespace GameStatsApi

def changeResourceChecked (stat : Stat) (delta : Int) : WriteCmd Source Detail Int := do
  let current ← Cmd.tryRead (currentResourceValue · stat)
  let next ← Cmd.expect (IntOp.checked .i32 .add current delta)
  setResource stat next

def applyResourceChecked (application : ResourceApplication) : WriteCmd Source Detail ResourceApplicationResult := do
  let previous ← Cmd.tryRead (currentResourceValue · application.stat)
  let upperBound ← (if application.clampToCap then Cmd.tryRead (currentResourceCap · application.stat) else pure i32Max)
  let next ← Cmd.expect (clamp? application.minValue upperBound (satI32 (previous + application.delta)))
  Cmd.updateExpect (·.setResourceStat application.stat next)
  let appliedDelta ← Cmd.expect (IntOp.checked .i32 .sub next previous)
  return {
    stat := application.stat
    previous
    current := next
    appliedDelta
    wasClamped := decide (next ≠ satI32 (previous + application.delta)) }

def recomputeReportChecked [GrowthRng] (source : ActorStatSource) (st : ActorStatState Source Detail) :
    Option (StatRecomputeReport × ActorStatState Source Detail) := do
  let oldComputed := st.computed
  let explicitChanges := st.explicitChanges
  let st := { st with explicitChanges := ∅ }
  let derived ← (derivedExprs source st).checked
  let st := st.replaceComputed derived
  let previousResources := st.resources
  let st ← st.clampResourcesToComputedCaps
  let resourceChanges := resourceChanges previousResources st.resources
  let st := st.setDerivedImmuneFlags (deriveImmuneFlags st)
  let finalComputedChanges := diffStore oldComputed st.computed
  let runtimeDirty := st.runtimeDirty
  let st := { st with runtimeDirty := false, dirty := false }
  return (⟨finalComputedChanges ∪ resourceChanges ∪ explicitChanges, runtimeDirty⟩, st)

end GameStatsApi

/-! ## Calls -/

/-- The operations whose arithmetic is at stake. -/
inductive StatCall where
  | recompute
  | setResource (stat : Stat) (value : I32)
  | changeResource (stat : Stat) (delta : I32)
  | applyResource (stat : Stat) (delta minValue : I32) (clampToCap : Bool)

namespace StatCall

def op : StatCall → ApiOp Source Detail
  | recompute => .recompute
  | setResource stat value => .mutate (.setResource stat value)
  | changeResource stat delta => .mutate (.changeResource stat delta)
  | applyResource stat delta minValue clampToCap => .mutate (.applyResource ⟨stat, delta.val, minValue.val, clampToCap⟩)

/-- The state after a call in a build with overflow checks, whatever it returned. -/
def checked [GrowthRng] (source : ActorStatSource) (st : ActorStatState Source Detail) :
    StatCall → Option (ActorStatState Source Detail)
  | recompute => (GameStatsApi.recomputeReportChecked source st).map (·.2)
  | setResource stat value => (GameStatsApi.setResource stat value.val).exec st
  | changeResource stat delta => (GameStatsApi.changeResourceChecked stat delta.val).exec st
  | applyResource stat delta minValue clampToCap =>
    (GameStatsApi.applyResourceChecked ⟨stat, delta.val, minValue.val, clampToCap⟩).exec st

end StatCall

def ActorResources.value (r : ActorResources) : PlayerResourceCapacity → Int
  | .hp => r.hp
  | .sp => r.sp
  | .stamina => r.stamina

/-- Every resource is between zero and its capacity. -/
def WithinCaps (st : ActorStatState Source Detail) : Prop :=
  ∀ resource, 0 ≤ st.resources.value resource ∧ st.resources.value resource ≤ st.computed.get resource.capStat

/-- The call neither fails an assertion nor overflows: with and without checks it ends in the same state. A
recomputation leaves the resources within their capacities. -/
def CallSafe [GrowthRng] (source : ActorStatSource) (st : ActorStatState Source Detail) (call : StatCall) : Prop :=
  ∃ t, call.checked source st = some t ∧ GameStatsApi.apply source st call.op = some t ∧
    (call = .recompute → WithinCaps t)

/-- What a call needs. A recomputation: over the integers, every sum, product and quotient of its formulas is in
`i32`, and no capacity is negative. A change: the new value is in `i32`. An application: its minimum is not above
its upper bound, and not too far above a value that it lifts to the minimum. -/
def CallFits [GrowthRng] (source : ActorStatSource) (st : ActorStatState Source Detail) : StatCall → Prop
  | .recompute => (derivedExprs source st).Fits ∧ ∀ resource, 0 ≤ capacity source st resource
  | .setResource _ _ => True
  | .changeResource stat delta => ∀ value, currentResourceValue st stat = .ok value →
    i32Min ≤ value + delta.val ∧ value + delta.val ≤ i32Max
  | .applyResource stat delta minValue clampToCap => ∀ value bound, currentResourceValue st stat = .ok value →
    upperBound st stat clampToCap = .ok bound →
    minValue.val ≤ bound ∧ (value + delta.val < minValue.val → minValue.val - value ≤ i32Max)

/-! ## Reachable states -/

/-- All values are of 32 bits. -/
structure ActorResources.InRange (r : ActorResources) : Prop where
  hp : IntType.i32.Mem r.hp
  sp : IntType.i32.Mem r.sp
  stamina : IntType.i32.Mem r.stamina
  hpRecovery : IntType.i32.Mem r.hpRecovery
  spRecovery : IntType.i32.Mem r.spRecovery

/-- Resources of 32 bits, and capacities that are not negative. -/
structure Sound (st : ActorStatState Source Detail) : Prop where
  resources : st.resources.InRange
  capacities : ∀ resource : PlayerResourceCapacity, 0 ≤ st.computed.get resource.capStat ∧
    st.computed.get resource.capStat ≤ i32Max

theorem Sound.congr {s t : ActorStatState Source Detail} (h : Sound s) (hr : t.resources = s.resources)
    (hc : t.computed = s.computed) : Sound t := by
  constructor
  · rw [hr]; exact h.resources
  · rw [hc]; exact h.capacities

theorem sound_new (kind : ActorKind) : Sound (ActorStatState.new kind : ActorStatState Source Detail) where
  resources :=
    have h0 : IntType.i32.Mem 0 := by decide
    ⟨h0, h0, h0, h0, h0⟩
  capacities _ := show (0 : Int) ≤ 0 ∧ (0 : Int) ≤ i32Max by decide

theorem Sound.value_mem {st : ActorStatState Source Detail} (h : Sound st) {stat : Stat} {value : Int}
    (hv : currentResourceValue st stat = .ok value) : i32Min ≤ value ∧ value ≤ i32Max := by
  cases stat with
  | hp => cases hv; exact h.resources.hp
  | sp => cases hv; exact h.resources.sp
  | stamina => cases hv; exact h.resources.stamina
  | hpRecovery => cases hv; exact h.resources.hpRecovery
  | spRecovery => cases hv; exact h.resources.spRecovery
  | _ => cases hv

theorem Sound.cap_mem {st : ActorStatState Source Detail} (h : Sound st) {stat : Stat} {cap : Int}
    (hc : currentResourceCap st stat = .ok cap) : 0 ≤ cap ∧ cap ≤ i32Max := by
  cases stat with
  | hp => cases hc; exact h.capacities .hp
  | sp => cases hc; exact h.capacities .sp
  | stamina => cases hc; exact h.capacities .stamina
  | _ => cases hc

theorem Sound.upperBound_mem {st : ActorStatState Source Detail} (h : Sound st) {stat : Stat} {clampToCap : Bool}
    {bound : Int} (hb : upperBound st stat clampToCap = .ok bound) : 0 ≤ bound ∧ bound ≤ i32Max := by
  unfold upperBound at hb
  split at hb
  · exact h.cap_mem hb
  · cases hb
    exact ⟨by decide, Int.le_refl _⟩

theorem sound_setResourceStat {s t : ActorStatState Source Detail} {stat : Stat} {value : Int} (h : Sound s)
    (hv : IntType.i32.Mem value) (ht : s.setResourceStat stat value = .ok t) : Sound t := by
  obtain ⟨h1, h2, h3, h4, h5⟩ := h.resources
  have key : ∀ r : ActorResources, r.InRange → Sound ({ s with resources := r }.recordExplicitChange stat) :=
    fun r hr => ⟨hr, h.capacities⟩
  unfold ActorStatState.setResourceStat at ht
  cases stat <;> first
    | cases ht
    | (simp only at ht
       split at ht
       · cases ht
         exact key _ (by constructor <;> assumption)
       · cases ht
         exact h)

/-! ## Mutators keep sound states -/

/-- A command keeps this relation where it takes sound states to sound states. -/
def KeepsSound (s t : ActorStatState Source Detail) : Prop := Sound s → Sound t

theorem keepsSound_refl (s : ActorStatState Source Detail) : KeepsSound s s := id

theorem keepsSound_trans (s t u : ActorStatState Source Detail) (h : KeepsSound s t) (h' : KeepsSound t u) :
    KeepsSound s u :=
  h' ∘ h

namespace GameStatsApi

theorem keepsSound_writeResource (stat : Stat) {value : Int} (hv : IntType.i32.Mem value) :
    Cmd.Keeps KeepsSound (Cmd.update (·.setResourceStat stat value) : WriteCmd Source Detail Unit) :=
  Cmd.keeps_update keepsSound_refl fun _ _ ht hs => sound_setResourceStat hs hv ht

theorem keepsSound_setResource (stat : Stat) {value : Int} (hv : value ≤ i32Max) :
    Cmd.Keeps KeepsSound (setResource stat value : WriteCmd Source Detail Int) := by
  refine Cmd.keeps_bind keepsSound_trans (Cmd.keeps_tryRead keepsSound_refl _) fun cap => ?_
  refine Cmd.keeps_expect_bind fun capped hcapped => ?_
  obtain ⟨h0, rfl⟩ := clamp?_eq_some.1 hcapped
  have hmem : IntType.i32.Mem (max 0 (min value cap)) := by
    rw [IntType.mem_i32]
    unfold i32Min i32Max at *
    omega
  refine Cmd.keeps_bind keepsSound_trans ?_ fun _ => Cmd.keeps_pure keepsSound_refl _
  exact Cmd.keeps_updateExpect fun _ _ ht hs => sound_setResourceStat hs hmem ht

theorem keepsSound_changeResource (stat : Stat) (delta : Int) :
    Cmd.Keeps KeepsSound (changeResource stat delta : WriteCmd Source Detail Int) :=
  Cmd.keeps_bind keepsSound_trans (Cmd.keeps_tryRead keepsSound_refl _) fun _ =>
    keepsSound_setResource stat (wrapI32_mem _).2

/-- The same with checks: the applied difference has to fit. -/
theorem applyResourceChecked_run (st : ActorStatState Source Detail) (a : ResourceApplication) :
    (applyResourceChecked a).run st =
      match currentResourceValue st a.stat, upperBound st a.stat a.clampToCap with
      | .error e, _ | .ok _, .error e => some (.error e, st)
      | .ok value, .ok bound => (clamp? a.minValue bound (satI32 (value + a.delta))).bind fun next =>
        (st.setResourceStat a.stat next).toOption.bind fun t =>
          (IntOp.checked .i32 .sub next value).map fun appliedDelta =>
            (.ok ⟨a.stat, value, next, appliedDelta, decide (next ≠ satI32 (value + a.delta))⟩, t) := by
  unfold applyResourceChecked
  rw [Cmd.run_tryRead_bind]
  cases hv : currentResourceValue st a.stat with
  | error e => rfl
  | ok value =>
    dsimp only
    rw [upperBound_bind]
    cases upperBound st a.stat a.clampToCap with
    | error e => rfl
    | ok bound =>
      dsimp only
      rw [Cmd.run_expect_bind]
      congr 1
      funext next
      obtain ⟨t, ht⟩ := exists_setResourceStat hv next
      rw [Cmd.run_updateExpect_bind _ ht, ht]
      exact (Cmd.run_expect_bind _ _ t).trans Option.map_eq_bind.symm

/-- The difference that is left to apply fits unless a far lower value is lifted to the minimum. -/
theorem fits_appliedDelta_iff {value delta minValue bound next : Int} (hv : i32Min ≤ value ∧ value ≤ i32Max)
    (hd : i32Min ≤ delta ∧ delta ≤ i32Max) (hb : 0 ≤ bound ∧ bound ≤ i32Max)
    (h : clamp? minValue bound (satI32 (value + delta)) = some next) (hm : i32Min ≤ minValue) :
    IntOp.Fits .i32 .sub next value ↔ (value + delta < minValue → minValue - value ≤ i32Max) := by
  obtain ⟨hle, rfl⟩ := clamp?_eq_some.1 h
  show i32Min ≤ _ - value ∧ _ - value ≤ i32Max ↔ _
  unfold satI32 i32Min i32Max at *
  omega

theorem keepsSound_applyResource {a : ResourceApplication} :
    Cmd.Keeps KeepsSound (applyResource a : WriteCmd Source Detail ResourceApplicationResult) := by
  intro st r t h hst
  rw [applyResource_run] at h
  split at h
  · cases h; exact hst
  · cases h; exact hst
  · rename_i value bound hv hb
    obtain ⟨next, hnext, h⟩ := Option.bind_eq_some_iff.1 h
    obtain ⟨u, hu⟩ := exists_setResourceStat hv next
    rw [hu] at h
    cases h
    obtain ⟨hle, rfl⟩ := clamp?_eq_some.1 hnext
    have hsat := satI32_mem (value + a.delta)
    have hbound := hst.upperBound_mem hb
    refine sound_setResourceStat hst ?_ hu
    rw [IntType.mem_i32]
    unfold i32Min i32Max at *
    omega

theorem keepsSound_setStoredStat (source : ActorStatSource) (stat : Stat) (value : Int) :
    Cmd.Keeps KeepsSound (setStoredStat source stat value : WriteCmd Source Detail Unit) := by
  refine Cmd.keeps_bind keepsSound_trans (Cmd.keeps_check keepsSound_refl _) fun _ => ?_
  refine Cmd.keeps_update keepsSound_refl fun s t ht hs => ?_
  unfold ActorStatState.setStoredStat at ht
  split at ht
  · cases ht
  · split at ht
    · cases ht
    · split at ht
      · cases ht; exact hs.congr rfl rfl
      · cases ht; exact hs

end GameStatsApi

theorem keepsSound_setBaseProjectionStat (s : ActorStatState Source Detail) (stat : Stat) (value : Int) :
    KeepsSound s (s.setBaseProjectionStat stat value) := by
  intro hs
  unfold ActorStatState.setBaseProjectionStat
  split
  · exact hs.congr rfl rfl
  · exact hs

theorem keepsSound_setPlayerProgression (s : ActorStatState Source Detail) (p : PlayerProgressionState) :
    KeepsSound s (s.setPlayerProgression p) := by
  intro hs
  have h0 : Sound { s with progression := p.normalized } := hs.congr rfl rfl
  have h1 := keepsSound_setBaseProjectionStat _ .level p.normalized.level h0
  have h2 := keepsSound_setBaseProjectionStat _ .exp (clampU32ToI32 p.normalized.expInLevel) h1
  have h3 := keepsSound_setBaseProjectionStat _ .nextExp (clampU32ToI32 p.normalized.nextExpInLevel) h2
  exact keepsSound_setBaseProjectionStat _ .levelStep p.normalized.levelStep h3

theorem mutate_sound {source : ActorStatSource} {st t : ActorStatState Source Detail} {m : Mutator Source Detail}
    (h : Sound st) (hm : GameStatsApi.mutate source st m = some t) : Sound t := by
  have keeps : ∀ {ε α : Type} {c : Cmd ε (ActorStatState Source Detail) α}, Cmd.Keeps KeepsSound c →
      c.exec st = some t → Sound t :=
    fun hc hx => let ⟨r, hr⟩ := Cmd.exec_eq_some.1 hx; hc st r t hr h
  cases m with
  | setStoredStat stat value => exact keeps (GameStatsApi.keepsSound_setStoredStat source stat _) hm
  | setPlayerProgression level e n =>
    cases hm
    exact keepsSound_setPlayerProgression st _ h
  | setResource stat value => exact keeps (GameStatsApi.keepsSound_setResource stat value.property.2) hm
  | changeResource stat delta => exact keeps (GameStatsApi.keepsSound_changeResource stat _) hm
  | applyResource a => exact keeps GameStatsApi.keepsSound_applyResource hm
  | queueRecovery stat amount =>
    exact keeps (GameStatsApi.keeps_queueRecovery_of keepsSound_refl keepsSound_trans
      (fun stat _ hv => GameStatsApi.keepsSound_writeResource stat hv) stat _) hm
  | queueAutoRecovery stat amount =>
    exact keeps (GameStatsApi.keeps_queueAutoRecovery_of keepsSound_refl keepsSound_trans
      (fun stat _ hv => GameStatsApi.keepsSound_writeResource stat hv) stat _) hm
  | applyPendingRecovery stat amount =>
    exact keeps (GameStatsApi.keeps_applyPendingRecovery_of keepsSound_refl keepsSound_trans
      (fun stat _ hv => GameStatsApi.keepsSound_writeResource stat hv)
      (fun _ => GameStatsApi.keepsSound_applyResource) stat _) hm
  | replaceSourceBundle src c =>
    obtain ⟨r, hr⟩ := Cmd.exec_eq_some.1 hm
    rcases GameStatsApi.replaceSourceBundle_eq_some hr with ⟨_, _, _, rfl⟩ | ⟨_, _, rfl⟩
    · exact h
    · exact h.congr rfl rfl
  | removeSourceBundle src => cases hm; exact h.congr rfl rfl
  | setExternalImmuneFlags flags =>
    cases hm
    unfold ActorStatState.setExternalImmuneFlags
    split
    · exact h.congr rfl rfl
    · exact h
  | setStableId id | clearStableId =>
    cases hm
    unfold ActorStatState.setStableId
    split
    · exact h.congr rfl rfl
    · exact h

/-! ## Recomputations keep sound states -/

omit [LinearOrder Source] in
theorem inRange_foldl_addModifier (l : List (GenericModifierInstance Source Detail)) {p : PointValueStore}
    (hp : InRange p) : InRange (l.foldl addModifier p) := by
  induction l generalizing p with
  | nil => exact hp
  | cons m l ih =>
    refine ih ?_
    unfold addModifier
    split
    · exact inRange_add hp _ _
    · exact hp

section
variable [GrowthRng]

theorem inRange_derivedStore {st : ActorStatState Source Detail} (h : InRange st.base) (source : ActorStatSource) :
    InRange (GameStatsApi.derivedStore source st) := by
  have hwrap : ∀ {p : PointValueStore} {stat : Stat} {x : Int}, InRange p → InRange (p.set stat (wrapI32 x)) :=
    fun hp => inRange_set hp (wrapI32_mem _).1 (wrapI32_mem _).2
  have hseed : InRange (seedRebuildState st source) := inRange_foldl_addModifier _ (inRange_applySourceSeed h source)
  cases source with
  | player player =>
    refine hwrap (hwrap (hwrap (hwrap (hwrap (hwrap (hwrap (hwrap ?_)))))))
    exact hwrap (hwrap (hwrap hseed))
  | mob mob => exact hwrap (hwrap (hwrap (hwrap (hwrap (hwrap (hwrap (hwrap (hwrap hseed))))))))

omit [GrowthRng] in
/-- Clamped resources are within their capacities. -/
theorem within_of_clampToCaps {r r' : ActorResources} {p : PointValueStore} (h : r.clampToCaps p = some r')
    (resource : PlayerResourceCapacity) : 0 ≤ p.get resource.capStat ∧ 0 ≤ r'.value resource ∧
      r'.value resource ≤ p.get resource.capStat := by
  obtain ⟨h1, h2, h3, -, -⟩ := GameStatsApi.clampToCaps_eq_some h
  have within : ∀ {cap x y : Int}, clamp? 0 cap x = some y → 0 ≤ cap ∧ 0 ≤ y ∧ y ≤ cap := by
    intro cap x y hc
    obtain ⟨h0, rfl⟩ := clamp?_eq_some.1 hc
    omega
  cases resource with
  | hp => exact within h1
  | sp => exact within h2
  | stamina => exact within h3

theorem sound_recomputed {source : ActorStatSource} {st : ActorStatState Source Detail} {r : ActorResources}
    (h : Sound st) (hbase : InRange st.base)
    (hr : st.resources.clampToCaps (GameStatsApi.derivedStore source st) = some r) :
    Sound (GameStatsApi.recomputed source st r) := by
  have hwithin := within_of_clampToCaps hr
  obtain ⟨-, -, -, h4, h5⟩ := GameStatsApi.clampToCaps_eq_some hr
  have hcap : ∀ resource : PlayerResourceCapacity,
      (GameStatsApi.derivedStore source st).get resource.capStat ≤ i32Max :=
    fun resource => (inRange_derivedStore hbase source _).2
  have hmem : ∀ resource, IntType.i32.Mem (r.value resource) := by
    intro resource
    have h1 := hwithin resource
    have h2 := hcap resource
    rw [IntType.mem_i32]
    unfold i32Min
    omega
  refine ⟨⟨hmem .hp, hmem .sp, hmem .stamina, ?_, ?_⟩, fun resource => ⟨(hwithin resource).1, hcap resource⟩⟩
  · show IntType.i32.Mem r.hpRecovery
    rw [h4]
    exact h.resources.hpRecovery
  · show IntType.i32.Mem r.spRecovery
    rw [h5]
    exact h.resources.spRecovery

theorem apply_sound {source : ActorStatSource} {st t : ActorStatState Source Detail} {op : ApiOp Source Detail}
    (h : Sound st) (hbase : InRange st.base) (ha : GameStatsApi.apply source st op = some t) : Sound t := by
  rcases GameStatsApi.apply_cases ha with ⟨m, rfl, hm⟩ | ⟨_, rfl | ⟨report, hr⟩⟩
  · exact mutate_sound h hm
  · exact h
  · obtain ⟨r, hc, rfl, _⟩ := GameStatsApi.recomputeReport_eq_some hr
    exact sound_recomputed h hbase hc

/-- Every state that a history leads to is sound; its stored values are those of the ledger's invariant. -/
theorem run_sound : ∀ (ops : List (ActorStatSource × ApiOp Source Detail)) {b : Bundles Source Detail}
    {st t : ActorStatState Source Detail}, LedgerOk b st → Sound st → run apiStep st ops = some t → Sound t
  | [], _, _, _, _, h, hr => by cases hr; exact h
  | op :: ops, b, st, u, hl, h, hr => by
    obtain ⟨t, ht, hr⟩ := (run_cons_eq_some apiStep).1 hr
    exact run_sound ops (apply_ledgerOk hl ht) (apply_sound h hl.base ht) hr

/-! ## Each call is safe exactly where it fits -/

/-- A checked recomputation is the recomputation, where every expression fits. -/
theorem recomputeReportChecked_eq (source : ActorStatSource) (st : ActorStatState Source Detail) :
    GameStatsApi.recomputeReportChecked source st =
      if (derivedExprs source st).Fits then GameStatsApi.recomputeReport source st else none := by
  have hexprs : derivedExprs source { st with explicitChanges := ∅ } = derivedExprs source st := rfl
  unfold GameStatsApi.recomputeReportChecked
  dsimp only
  rw [hexprs]
  by_cases h : (derivedExprs source st).Fits
  · have hd : (derivedExprs source st).checked = some (GameStatsApi.derivedStore source st) :=
      ExprStore.checked_eq_some_iff.2 ⟨h, (wrapped_derivedExprs source st).symm⟩
    rw [if_pos h, hd]
    rfl
  · have hd : (derivedExprs source st).checked = none := by
      cases hc : (derivedExprs source st).checked with
      | none => rfl
      | some p => exact absurd (ExprStore.checked_eq_some_iff.1 hc).1 h
    rw [if_neg h, hd]
    rfl

/-- Where every expression fits, the capacities a recomputation installs are the exact ones. -/
theorem derivedStore_capStat {source : ActorStatSource} {st : ActorStatState Source Detail}
    (h : (derivedExprs source st).Fits) (resource : PlayerResourceCapacity) :
    (GameStatsApi.derivedStore source st).get resource.capStat = capacity source st resource := by
  rw [← wrapped_derivedExprs, ExprStore.wrapped_get_of_fits h, exact_capStat]

theorem recompute_safe_iff {source : ActorStatSource} {st : ActorStatState Source Detail}
    (hkind : st.kind = source.actorKind) : CallSafe source st .recompute ↔ CallFits source st .recompute := by
  have happly : GameStatsApi.apply source st (StatCall.op .recompute) =
      (GameStatsApi.recomputeReport source st).map (·.2) := if_neg (not_not.2 hkind)
  simp only [CallSafe, CallFits, StatCall.checked, happly, recomputeReportChecked_eq]
  constructor
  · rintro ⟨t, hc, -, hw⟩
    split at hc
    · rename_i hfits
      obtain ⟨⟨report, u⟩, hr, rfl⟩ := Option.map_eq_some_iff.1 hc
      obtain ⟨r, hclamp, -⟩ := GameStatsApi.recomputeReport_eq_some hr
      refine ⟨hfits, fun resource => ?_⟩
      rw [← derivedStore_capStat hfits]
      exact (within_of_clampToCaps hclamp resource).1
    · cases hc
  · rintro ⟨hfits, hcap⟩
    have hstore : ∀ resource : PlayerResourceCapacity,
        0 ≤ (GameStatsApi.derivedStore source st).get resource.capStat := by
      intro resource
      rw [derivedStore_capStat hfits]
      exact hcap resource
    obtain ⟨r, hr⟩ := clampToCaps_of_capsOk st.resources ⟨hstore .hp, hstore .sp, hstore .stamina⟩
    rw [if_pos hfits, GameStatsApi.recomputeReport_eq, hr]
    refine ⟨_, rfl, rfl, fun _ resource => ?_⟩
    exact (within_of_clampToCaps hr resource).2

omit [GrowthRng] in
/-- Setting a resource never fails an assertion in a sound state. -/
theorem exists_setResource {st : ActorStatState Source Detail} (h : Sound st) (stat : Stat) (value : Int) :
    ∃ t, (GameStatsApi.setResource stat value).exec st = some t := by
  cases hc : currentResourceCap st stat with
  | error e =>
    unfold Cmd.exec GameStatsApi.setResource
    rw [Cmd.run_tryRead_bind, hc]
    exact ⟨st, rfl⟩
  | ok cap =>
    obtain ⟨t, -, hrun⟩ := GameStatsApi.setResource_run_ok hc (h.cap_mem hc).1 value
    exact ⟨t, Cmd.exec_eq_some.2 ⟨_, hrun⟩⟩

theorem setResource_safe {source : ActorStatSource} {st : ActorStatState Source Detail} (h : Sound st)
    (hkind : st.kind = source.actorKind) (stat : Stat) (value : I32) :
    CallSafe source st (.setResource stat value) := by
  obtain ⟨t, ht⟩ := exists_setResource h stat value.val
  have happly : GameStatsApi.apply source st (StatCall.op (.setResource stat value)) = some t :=
    (if_neg (not_not.2 hkind)).trans ht
  exact ⟨t, ht, happly, nofun⟩

theorem changeResource_safe_iff {source : ActorStatSource} {st : ActorStatState Source Detail} (h : Sound st)
    (hkind : st.kind = source.actorKind) (stat : Stat) (delta : I32) :
    CallSafe source st (.changeResource stat delta) ↔ CallFits source st (.changeResource stat delta) := by
  have happly : GameStatsApi.apply source st (StatCall.op (.changeResource stat delta)) =
      (GameStatsApi.changeResource stat delta.val).exec st := if_neg (not_not.2 hkind)
  have hchecked : StatCall.checked source st (.changeResource stat delta) =
      (GameStatsApi.changeResourceChecked stat delta.val).exec st := rfl
  simp only [CallSafe, CallFits, happly, hchecked, Cmd.exec, GameStatsApi.changeResource,
    GameStatsApi.changeResourceChecked, Cmd.run_tryRead_bind]
  cases hv : currentResourceValue st stat with
  | error e => exact ⟨fun _ _ hval => (nomatch hval), fun _ => ⟨st, rfl, rfl, nofun⟩⟩
  | ok value =>
    simp only [Cmd.run_expect_bind, Except.ok.injEq, forall_eq']
    constructor
    · rintro ⟨t, hc, -⟩
      obtain ⟨u, hu, -⟩ := Option.map_eq_some_iff.1 hc
      obtain ⟨next, hnext, -⟩ := Option.bind_eq_some_iff.1 hu
      exact (IntOp.checked_eq_some_iff.1 hnext).1
    · intro hfits
      have hnext : IntOp.checked .i32 .add value delta.val = some (value + delta.val) :=
        IntOp.checked_eq_some_iff.2 ⟨hfits, rfl⟩
      obtain ⟨t, ht⟩ := exists_setResource h stat (value + delta.val)
      rw [hnext, Option.bind_some, addI32_of_mem hfits.1 hfits.2]
      exact ⟨t, ht, ht, nofun⟩

theorem applyResource_safe_iff {source : ActorStatSource} {st : ActorStatState Source Detail} (h : Sound st)
    (hkind : st.kind = source.actorKind) (stat : Stat) (delta minValue : I32) (clampToCap : Bool) :
    CallSafe source st (.applyResource stat delta minValue clampToCap) ↔
      CallFits source st (.applyResource stat delta minValue clampToCap) := by
  have happly : GameStatsApi.apply source st (StatCall.op (.applyResource stat delta minValue clampToCap)) =
      (GameStatsApi.applyResource ⟨stat, delta.val, minValue.val, clampToCap⟩).exec st := if_neg (not_not.2 hkind)
  have hchecked : StatCall.checked source st (.applyResource stat delta minValue clampToCap) =
      (GameStatsApi.applyResourceChecked ⟨stat, delta.val, minValue.val, clampToCap⟩).exec st := rfl
  simp only [CallSafe, CallFits, happly, hchecked, Cmd.exec, GameStatsApi.applyResource_run,
    GameStatsApi.applyResourceChecked_run]
  cases hv : currentResourceValue st stat with
  | error e => exact ⟨by rintro - _ _ ⟨⟩, fun _ => ⟨st, rfl, rfl, by rintro ⟨⟩⟩⟩
  | ok value =>
    cases hb : upperBound st stat clampToCap with
    | error e => exact ⟨by rintro - _ _ - ⟨⟩, fun _ => ⟨st, rfl, rfl, by rintro ⟨⟩⟩⟩
    | ok bound =>
      have hvalue := h.value_mem hv
      have hbound := h.upperBound_mem hb
      constructor
      · rintro ⟨t, hc, -⟩ _ _ ⟨⟩ ⟨⟩
        obtain ⟨u, hu, -⟩ := Option.map_eq_some_iff.1 hc
        obtain ⟨next, hnext, hu⟩ := Option.bind_eq_some_iff.1 hu
        obtain ⟨_, -, hu⟩ := Option.bind_eq_some_iff.1 hu
        obtain ⟨applied, happlied, -⟩ := Option.map_eq_some_iff.1 hu
        exact ⟨(clamp?_eq_some.1 hnext).1, (GameStatsApi.fits_appliedDelta_iff hvalue delta.property hbound hnext
          minValue.property.1).1 (IntOp.checked_eq_some_iff.1 happlied).1⟩
      · intro hfits
        obtain ⟨hle, hlift⟩ := hfits value bound rfl rfl
        obtain ⟨next, hnext⟩ : ∃ next, clamp? minValue.val bound (satI32 (value + delta.val)) = some next :=
          ⟨_, clamp?_eq_some.2 ⟨hle, rfl⟩⟩
        have happlied : IntOp.checked .i32 .sub next value = some (next - value) :=
          IntOp.checked_eq_some_iff.2 ⟨(GameStatsApi.fits_appliedDelta_iff hvalue delta.property hbound hnext
            minValue.property.1).2 hlift, rfl⟩
        obtain ⟨t, ht⟩ := exists_setResourceStat hv next
        simp only [hnext, Option.bind_some, ht, happlied]
        exact ⟨t, rfl, rfl, by rintro ⟨⟩⟩

/-- In every state that a history of operations reaches, a call runs through without a failed assertion or an
overflow, and a recomputation leaves the resources within their capacities, exactly where the call fits. -/
theorem stat_arithmetic_safe_iff {kind : ActorKind} {ops : List (ActorStatSource × ApiOp Source Detail)}
    {source : ActorStatSource} {st : ActorStatState Source Detail}
    (hrun : run apiStep (ActorStatState.new kind) ops = some st) (hkind : st.kind = source.actorKind)
    (call : StatCall) :
    CallSafe source st call ↔ CallFits source st call := by
  have h : Sound st := run_sound ops (ledgerOk_new kind) (sound_new kind) hrun
  cases call with
  | recompute => exact recompute_safe_iff hkind
  | setResource stat value => exact ⟨fun _ => trivial, fun _ => setResource_safe h hkind stat value⟩
  | changeResource stat delta => exact changeResource_safe_iff h hkind stat delta
  | applyResource stat delta minValue clampToCap => exact applyResource_safe_iff h hkind stat delta minValue clampToCap

end

/-- A warrior with full life, before it is wounded. -/
def healthyHistory : List (ActorStatSource × ApiOp Unit Unit) :=
  [(warriorSource, .recompute), (warriorSource, .mutate (.setResource .hp ⟨600, by decide⟩))]

theorem stat_arithmetic_safe_iff_healthyHistory :
    letI := splitMix64Rolls
    ∃ st, run apiStep (ActorStatState.new .player) healthyHistory = some st ∧
      CallSafe warriorSource st (.changeResource .hp ⟨-100, by decide⟩) := by
  let := splitMix64Rolls
  have hlife : (run apiStep (ActorStatState.new .player) healthyHistory).map (fun st => (st.kind, st.resources.hp)) =
      some (.player, 600) := by decide
  obtain ⟨st, hst, he⟩ := Option.map_eq_some_iff.1 hlife
  obtain ⟨hkind, hhp⟩ := Prod.mk.inj he
  have hkind : st.kind = warriorSource.actorKind := hkind
  refine ⟨st, hst, (stat_arithmetic_safe_iff hst hkind _).2 ?_⟩
  intro value hv
  have hvalue : value = 600 := (Except.ok.inj hv).symm.trans hhp
  subst hvalue
  decide

/-- After the history, the call on the warrior is not safe. -/
def FailsAfter [GrowthRng] (ops : List (ActorStatSource × ApiOp Unit Unit)) (call : StatCall) : Prop :=
  ∃ st, run apiStep (ActorStatState.new .player) ops = some st ∧ st.kind = warriorSource.actorKind ∧
    ¬ CallSafe warriorSource st call

theorem failsAfter_of_checked [GrowthRng] {ops : List (ActorStatSource × ApiOp Unit Unit)} {call : StatCall}
    (h : (run apiStep (ActorStatState.new .player) ops).map
      (fun st => (st.kind, (call.checked warriorSource st).isSome)) = some (.player, false)) :
    FailsAfter ops call := by
  obtain ⟨st, hst, he⟩ := Option.map_eq_some_iff.1 h
  obtain ⟨hkind, hnone⟩ := Prod.mk.inj he
  refine ⟨st, hst, hkind, ?_⟩
  rintro ⟨t, ht, -⟩
  rw [ht] at hnone
  cases hnone

/-- A bundle on the life of a warrior. -/
def lifeBundle (amount : Int) : List (ActorStatSource × ApiOp Unit Unit) :=
  [(warriorSource, .mutate (.replaceSourceBundle () ⟨[⟨.bonusMaxHp, amount, ()⟩]⟩))]

/-- A bundle that takes more life than the base has makes the capacity negative; a change is added to the value before
it is clamped; and a minimum of one is above a capacity of zero. -/
theorem stat_arithmetic_fails :
    letI := splitMix64Rolls
    FailsAfter (lifeBundle (-700)) .recompute ∧
      FailsAfter healthyHistory (.changeResource .hp ⟨i32Max, by decide⟩) ∧
      FailsAfter (lifeBundle (-600) ++ [(warriorSource, .recompute)])
        (.applyResource .hp ⟨-10, by decide⟩ ⟨1, by decide⟩ true) := by
  let := splitMix64Rolls
  refine ⟨failsAfter_of_checked ?_, failsAfter_of_checked ?_, failsAfter_of_checked ?_⟩
  · decide
  · decide
  · decide

end Zohar.Stats
