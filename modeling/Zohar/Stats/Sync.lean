/-
A client that starts with the values of an actor and applies every drained report holds the actor's values
after each drain. Between drains the client's values with the pending report laid over them agree with the
actor on every statistic that is not marked as explicitly changed, and a marked statistic makes the state
dirty, so the next recomputation reports it.
-/
import Zohar.Stats.Canonical

namespace Zohar.Stats

open Zohar.Lib

variable {Source Detail : Type} [LinearOrder Source]

/-! ## Mutators mark what they change -/

/-- The stored copies of the experience values follow the progression. -/
structure Projected (st : ActorStatState Source Detail) : Prop where
  exp : st.base.get .exp = clampU32ToI32 st.progression.expInLevel
  nextExp : st.base.get .nextExp = clampU32ToI32 st.progression.nextExpInLevel

/-- Whatever the client sees differently in `t` is marked there, and a mark makes the state dirty. -/
structure Marked (s t : ActorStatState Source Detail) : Prop where
  kind : t.kind = s.kind
  computed : t.computed = s.computed
  immuneFlags : t.runtime.immuneFlags = s.runtime.immuneFlags
  grows : s.explicitChanges ⊆ t.explicitChanges
  marks : ∀ stat, stat ∉ t.explicitChanges → t.readWireCompatibleValue stat = s.readWireCompatibleValue stat
  dirty : s.dirty = true → t.dirty = true
  explicitDirty : t.explicitChanges = s.explicitChanges ∨ t.dirty = true

theorem Marked.refl (s : ActorStatState Source Detail) : Marked s s :=
  ⟨rfl, rfl, rfl, Finset.Subset.refl _, fun _ _ => rfl, id, .inl rfl⟩

theorem Marked.trans {s t u : ActorStatState Source Detail} (h1 : Marked s t) (h2 : Marked t u) : Marked s u := by
  refine ⟨h2.kind.trans h1.kind, h2.computed.trans h1.computed, h2.immuneFlags.trans h1.immuneFlags,
    h1.grows.trans h2.grows, fun stat hs => ?_, fun h => h2.dirty (h1.dirty h), ?_⟩
  · rw [h2.marks stat hs, h1.marks stat fun h => hs (h2.grows h)]
  · rcases h2.explicitDirty with h | h
    · rcases h1.explicitDirty with h' | h'
      · exact .inl (h.trans h')
      · exact .inr (h2.dirty h')
    · exact .inr h

/-- A write of a stored value that is marked; the experience values are written together with the progression. -/
theorem marked_base {s : ActorStatState Source Detail} (stat : Stat) (v : Int) :
    Marked s ({ s with base := s.base.set stat v }.recordExplicitChange stat) := by
  refine ⟨rfl, rfl, rfl, Finset.subset_insert _ _, fun t ht => ?_, fun _ => rfl, .inr rfl⟩
  have hne : t ≠ stat := fun he => ht (he ▸ Finset.mem_insert_self _ _)
  have hb : (s.base.set stat v).get t = s.base.get t := PointValueStore.get_set_of_ne hne
  cases t <;> first | rfl | exact hb

/-- Writing a projected value: the value is there afterwards, and either it was before or it is marked. -/
theorem setBaseProjectionStat_marked (s : ActorStatState Source Detail) (stat : Stat) (v : Int) :
    Marked s (s.setBaseProjectionStat stat v) ∧ (s.setBaseProjectionStat stat v).base = s.base.set stat v ∧
      (s.setBaseProjectionStat stat v).progression = s.progression ∧
      (s.base.get stat = v ∨ stat ∈ (s.setBaseProjectionStat stat v).explicitChanges) := by
  unfold ActorStatState.setBaseProjectionStat
  split
  · exact ⟨marked_base stat v, rfl, rfl, .inr (Finset.mem_insert_self _ _)⟩
  · rename_i h
    rw [not_not] at h
    refine ⟨Marked.refl s, ?_, rfl, .inl h⟩
    rw [← h, PointValueStore.set_get_self]

/-- What a mutator's writes keep: the stored copies stay true, and the change is marked. -/
def MarksChange (s t : ActorStatState Source Detail) : Prop := Projected s → Projected t ∧ Marked s t

theorem marksChange_setPlayerProgression (s : ActorStatState Source Detail) (p : PlayerProgressionState) :
    MarksChange s (s.setPlayerProgression p) := by
  intro hs
  set q := p.normalized with hq
  set s0 : ActorStatState Source Detail := { s with progression := q } with hs0
  obtain ⟨m1, b1, p1, _⟩ := setBaseProjectionStat_marked s0 .level q.level
  set s1 := s0.setBaseProjectionStat .level q.level
  obtain ⟨m2, b2, p2, e2⟩ := setBaseProjectionStat_marked s1 .exp (clampU32ToI32 q.expInLevel)
  set s2 := s1.setBaseProjectionStat .exp (clampU32ToI32 q.expInLevel)
  obtain ⟨m3, b3, p3, e3⟩ := setBaseProjectionStat_marked s2 .nextExp (clampU32ToI32 q.nextExpInLevel)
  set s3 := s2.setBaseProjectionStat .nextExp (clampU32ToI32 q.nextExpInLevel)
  obtain ⟨m4, b4, p4, _⟩ := setBaseProjectionStat_marked s3 .levelStep q.levelStep
  have ht : s.setPlayerProgression p = s3.setBaseProjectionStat .levelStep q.levelStep := rfl
  rw [ht]
  set t := s3.setBaseProjectionStat .levelStep q.levelStep
  have hprog : t.progression = q := by rw [p4, p3, p2, p1]
  have hm : Marked s0 t := ((m1.trans m2).trans m3).trans m4
  have hexp : s1.base.get .exp = clampU32ToI32 s.progression.expInLevel := by
    rw [b1, PointValueStore.get_set_of_ne (by decide)]; exact hs.exp
  have hnext : s2.base.get .nextExp = clampU32ToI32 s.progression.nextExpInLevel := by
    rw [b2, PointValueStore.get_set_of_ne (by decide), b1, PointValueStore.get_set_of_ne (by decide)]; exact hs.nextExp
  refine ⟨⟨?_, ?_⟩, hm.kind, hm.computed, hm.immuneFlags, hm.grows, fun stat hstat => ?_, hm.dirty, hm.explicitDirty⟩
  · rw [hprog, b4, PointValueStore.get_set_of_ne (by decide), b3, PointValueStore.get_set_of_ne (by decide), b2,
      PointValueStore.get_set_self]
  · rw [hprog, b4, PointValueStore.get_set_of_ne (by decide), b3, PointValueStore.get_set_self]
  · rw [hm.marks stat hstat]
    -- the experience values are read from the progression: unmarked, they equal the stored copies of before
    by_cases he : stat = .exp
    · subst he
      have h := e2.resolve_right fun h => hstat (m4.grows (m3.grows h))
      exact h.symm.trans hexp
    · by_cases hn : stat = .nextExp
      · subst hn
        have h := e3.resolve_right fun h => hstat (m4.grows h)
        exact h.symm.trans hnext
      · cases stat <;> first | rfl | exact absurd rfl he | exact absurd rfl hn

theorem marksChange_setResourceStat {s t : ActorStatState Source Detail} {stat : Stat} {v : Int}
    (h : s.setResourceStat stat v = .ok t) : MarksChange s t := by
  intro hs
  have key : ∀ r : ActorResources, (∀ u, u ≠ stat →
      ({ s with resources := r } : ActorStatState Source Detail).readWireCompatibleValue u =
        s.readWireCompatibleValue u) →
      Projected ({ s with resources := r }.recordExplicitChange stat) ∧
        Marked s ({ s with resources := r }.recordExplicitChange stat) := by
    intro r hr
    refine ⟨⟨hs.exp, hs.nextExp⟩, rfl, rfl, rfl, Finset.subset_insert _ _, fun u hu => ?_, fun _ => rfl, .inr rfl⟩
    exact hr u fun he => hu (he ▸ Finset.mem_insert_self _ _)
  unfold ActorStatState.setResourceStat at h
  cases stat <;> first
    | cases h
    | (simp only at h
       split at h
       · cases h
         exact key _ fun u hu => by cases u <;> first | rfl | exact absurd rfl hu
       · cases h; exact ⟨hs, Marked.refl s⟩)

theorem writeRel_marksChange : WriteRel (@MarksChange Source Detail _) where
  refl s hs := ⟨hs, Marked.refl s⟩
  trans s t u h1 h2 hs := ⟨(h2 (h1 hs).1).1, (h1 hs).2.trans (h2 (h1 hs).1).2⟩
  stored s t stat v _ _ h hs := by
    unfold ActorStatState.setStoredStat at h
    split at h
    · cases h
    · rename_i htyped
      split at h
      · cases h
      · split at h
        · cases h
          have hexp : Stat.exp ≠ stat := by rintro rfl; exact htyped (by decide)
          have hnext : Stat.nextExp ≠ stat := by rintro rfl; exact htyped (by decide)
          exact ⟨⟨(PointValueStore.get_set_of_ne hexp).trans hs.exp,
            (PointValueStore.get_set_of_ne hnext).trans hs.nextExp⟩,
            marked_base stat v⟩
        · cases h; exact ⟨hs, Marked.refl s⟩
  progression s p _ := marksChange_setPlayerProgression s p
  resource _ _ _ _ h := marksChange_setResourceStat h
  flags s flags hs := by
    unfold ActorStatState.setExternalImmuneFlags
    split
    · exact ⟨⟨hs.exp, hs.nextExp⟩, rfl, rfl, rfl, Finset.Subset.refl _,
        fun stat _ => by cases stat <;> rfl, fun _ => rfl, .inl rfl⟩
    · exact ⟨hs, Marked.refl s⟩
  stableId s id hs := by
    unfold ActorStatState.setStableId
    split
    · exact ⟨⟨hs.exp, hs.nextExp⟩, rfl, rfl, rfl, Finset.Subset.refl _,
        fun stat _ => by cases stat <;> rfl, fun _ => rfl, .inl rfl⟩
    · exact ⟨hs, Marked.refl s⟩

theorem mutate_marksChange {source : ActorStatSource} {st t : ActorStatState Source Detail} {m : Mutator Source Detail}
    (h : GameStatsApi.mutate source st m = some t) : MarksChange st t := by
  have ledger : ∀ l, MarksChange st { st with modifiers := l, dirty := true } := fun l hs =>
    ⟨⟨hs.exp, hs.nextExp⟩, rfl, rfl, rfl, Finset.Subset.refl _, fun stat _ => by cases stat <;> rfl,
      fun _ => rfl, .inl rfl⟩
  rcases GameStatsApi.mutate_cases writeRel_marksChange h with
    ⟨hm, _, _⟩ | ⟨src, c, e, rfl, _, rfl⟩ | ⟨src, c, rfl, _, rfl⟩ | ⟨src, rfl, rfl⟩
  · exact hm
  · exact writeRel_marksChange.refl _
  · exact ledger _
  · exact ledger _

/-! ## Reachable states -/

/-- What holds of every state the interface can produce. -/
structure StateOk (st : ActorStatState Source Detail) : Prop where
  projected : Projected st
  explicitDirty : st.explicitChanges.Nonempty → st.dirty = true

theorem StateOk.of_marksChange {s t : ActorStatState Source Detail} (h : StateOk s) (hm : MarksChange s t) :
    StateOk t := by
  obtain ⟨hp, hk⟩ := hm h.projected
  refine ⟨hp, fun hne => ?_⟩
  rcases hk.explicitDirty with he | hd
  · exact hk.dirty (h.explicitDirty (he ▸ hne))
  · exact hd

theorem stateOk_new (kind : ActorKind) : StateOk (ActorStatState.new kind : ActorStatState Source Detail) :=
  ⟨⟨rfl, rfl⟩, fun _ => rfl⟩

section
variable [GrowthRng]

theorem StateOk.recomputed {st : ActorStatState Source Detail} (h : StateOk st) (source : ActorStatSource)
    (r : ActorResources) : StateOk (GameStatsApi.recomputed source st r) :=
  ⟨⟨h.projected.exp, h.projected.nextExp⟩, fun hne => absurd hne (Finset.not_nonempty_empty)⟩

theorem StateOk.apply {source : ActorStatSource} {st t : ActorStatState Source Detail} {op : ApiOp Source Detail}
    (h : StateOk st) (ha : GameStatsApi.apply source st op = some t) : StateOk t := by
  rcases GameStatsApi.apply_cases ha with ⟨m, rfl, hm⟩ | ⟨_, rfl | ⟨report, hr⟩⟩
  · exact h.of_marksChange (mutate_marksChange hm)
  · exact h
  · obtain ⟨r, _, rfl, _⟩ := GameStatsApi.recomputeReport_eq_some hr
    exact h.recomputed source r

theorem run_stateOk {kind : ActorKind} {ops : List (ActorStatSource × ApiOp Source Detail)}
    {st : ActorStatState Source Detail} (h : run apiStep (ActorStatState.new kind) ops = some st) : StateOk st :=
  run_inv (fun _ _ _ hs ht => hs.apply ht) (stateOk_new kind) h

/-! ## What a recomputation leaves unreported is unchanged -/

omit [GrowthRng] in
theorem resourceChanges_unchanged {old new : ActorResources} {stat : Stat} (h : stat ∉ resourceChanges old new) :
    (stat = .hp → new.hp = old.hp) ∧ (stat = .sp → new.sp = old.sp) ∧
    (stat = .stamina → new.stamina = old.stamina) := by
  unfold resourceChanges at h
  simp only [Finset.mem_union, not_or] at h
  obtain ⟨⟨h1, h2⟩, h3⟩ := h
  refine ⟨?_, ?_, ?_⟩
  · rintro rfl; by_contra hne; exact h1 (by rw [if_pos (Ne.symm hne)]; exact Finset.mem_singleton_self _)
  · rintro rfl; by_contra hne; exact h2 (by rw [if_pos (Ne.symm hne)]; exact Finset.mem_singleton_self _)
  · rintro rfl; by_contra hne; exact h3 (by rw [if_pos (Ne.symm hne)]; exact Finset.mem_singleton_self _)

theorem readWire_recomputed {source : ActorStatSource} {st : ActorStatState Source Detail} {r : ActorResources}
    (hc : st.resources.clampToCaps (GameStatsApi.derivedStore source st) = some r) {stat : Stat}
    (hd : stat ∉ diffStore st.computed (GameStatsApi.derivedStore source st))
    (hr : stat ∉ resourceChanges st.resources r) :
    (GameStatsApi.recomputed source st r).readWireCompatibleValue stat = st.readWireCompatibleValue stat := by
  obtain ⟨-, -, -, h4, h5⟩ := GameStatsApi.clampToCaps_eq_some hc
  have hcomp : (GameStatsApi.derivedStore source st).get stat = st.computed.get stat := by
    by_contra hne
    exact hd (mem_diffStore.2 (Ne.symm hne))
  cases stat with
  | hp => exact (resourceChanges_unchanged hr).1 rfl
  | sp => exact (resourceChanges_unchanged hr).2.1 rfl
  | stamina => exact (resourceChanges_unchanged hr).2.2 rfl
  | hpRecovery => exact h4
  | spRecovery => exact h5
  | _ => first | rfl | exact hcomp

omit [GrowthRng] in
/-- The public state is a function of the level sent, the two speeds and the flags. -/
theorem publicState_congr {source : ActorStatSource} {s t : ActorStatState Source Detail}
    (hl : t.readWireCompatibleValue .level = s.readWireCompatibleValue .level)
    (hm : t.readEffectiveValue .movSpeed = s.readEffectiveValue .movSpeed)
    (ha : t.readEffectiveValue .attSpeed = s.readEffectiveValue .attSpeed)
    (hf : t.runtime.immuneFlags = s.runtime.immuneFlags) :
    GameStatsApi.publicState source t = GameStatsApi.publicState source s := by
  have hm' : t.readLimitedValue source .movSpeed = s.readLimitedValue source .movSpeed := by
    unfold ActorStatState.readLimitedValue; rw [hm]
  have ha' : t.readLimitedValue source .attSpeed = s.readLimitedValue source .attSpeed := by
    unfold ActorStatState.readLimitedValue; rw [ha]
  unfold GameStatsApi.publicState GameStatsApi.publicStats
  rw [hl, hm', ha', hf]

/-! ## Reports -/

omit [GrowthRng] in
/-- Merging a report lays its values over the pending ones. -/
theorem merge_deltas (f : Stat → Int) : ∀ (l : List Stat) (p : PendingPlayerStatsSync),
    let q := (l.map fun stat => StatDelta.mk stat (f stat)).foldl
      (fun p delta => { p with stats := p.stats.set delta.stat delta.value, changed := insert delta.stat p.changed }) p
    (∀ stat, stat ∈ q.changed ↔ stat ∈ l ∨ stat ∈ p.changed) ∧
      (∀ stat, q.stats.get stat = if stat ∈ l then f stat else p.stats.get stat) ∧ q.publicState = p.publicState
  | [], p => by simp
  | a :: l, p => by
    obtain ⟨h1, h2, h3⟩ := merge_deltas f l { p with stats := p.stats.set a (f a), changed := insert a p.changed }
    refine ⟨fun stat => ?_, fun stat => ?_, h3⟩
    · rw [List.map_cons, List.foldl_cons, h1 stat, Finset.mem_insert, List.mem_cons]
      tauto
    · rw [List.map_cons, List.foldl_cons, h2 stat, PointValueStore.get_set]
      by_cases ha : stat = a
      · subst ha; simp
      · simp [ha]

omit [GrowthRng] in
theorem merge_spec {f : Stat → Int} {sync : StatsSync}
    (h : sync.statDeltas = (StatChangeSet.iter sync.changes).map fun stat => ⟨stat, f stat⟩)
    (p : PendingPlayerStatsSync) :
    (∀ stat, stat ∈ (p.merge sync).changed ↔ stat ∈ sync.changes ∨ stat ∈ p.changed) ∧
      (∀ stat, (p.merge sync).stats.get stat = if stat ∈ sync.changes then f stat else p.stats.get stat) ∧
      (p.merge sync).publicState = sync.publicState.or p.publicState := by
  obtain ⟨h1, h2, h3⟩ := merge_deltas f (StatChangeSet.iter sync.changes) p
  rw [← h] at h1 h2 h3
  simp only [StatChangeSet.mem_iter] at h1 h2
  refine ⟨h1, h2, ?_⟩
  rw [← h3]
  rfl

/-- What a normalisation reports: every value that differs, with its new value, and the public state if it differs. -/
structure SyncSpec (source : ActorStatSource) (s t : ActorStatState Source Detail) (sync : StatsSync) : Prop where
  deltas : sync.statDeltas = (StatChangeSet.iter sync.changes).map fun stat => ⟨stat, t.readWireCompatibleValue stat⟩
  unchanged : ∀ stat, stat ∉ sync.changes → stat ∉ s.explicitChanges ∧
    t.readWireCompatibleValue stat = s.readWireCompatibleValue stat
  clean : t.explicitChanges = ∅
  publicSome : ∀ p, sync.publicState = some p → GameStatsApi.publicState source t = some p
  publicNone : sync.publicState = none → Stat.level ∉ s.explicitChanges ∧
    GameStatsApi.publicState source t = GameStatsApi.publicState source s

omit [GrowthRng] in
theorem buildSync_eq_some {source : ActorStatSource} {st : ActorStatState Source Detail} {changes : StatChangeSet}
    {runtimeDirty : Bool} {sync : StatsSync} (h : GameStatsApi.buildSync source st changes runtimeDirty = some sync) :
    sync.changes = changes ∧
      sync.statDeltas = (StatChangeSet.iter changes).map (fun stat => ⟨stat, st.readWireCompatibleValue stat⟩) ∧
      (∀ p, sync.publicState = some p → GameStatsApi.publicState source st = some p) ∧
      (sync.publicState = none → runtimeDirty = false ∧ publicStatsChanged changes = false) := by
  unfold GameStatsApi.buildSync at h
  simp only [Option.bind_eq_bind, Option.bind_eq_some_iff, Option.pure_def, Option.some.injEq] at h
  obtain ⟨ps, hps, rfl⟩ := h
  refine ⟨rfl, rfl, ?_, ?_⟩
  · rintro p rfl
    split at hps
    · obtain ⟨q, hq, he⟩ := Option.map_eq_some_iff.1 hps
      cases he; exact hq
    · cases hps
  · rintro rfl
    split at hps
    · obtain ⟨q, _, he⟩ := Option.map_eq_some_iff.1 hps
      cases he
    · rename_i hc
      simpa using hc

theorem syncIfDirty_spec {source : ActorStatSource} {s t : ActorStatState Source Detail} {sync : StatsSync}
    (hs : StateOk s) (h : GameStatsApi.syncIfDirty source s = some (sync, t)) :
    SyncSpec source s t sync ∧ StateOk t := by
  unfold GameStatsApi.syncIfDirty at h
  split at h
  · simp only [GameStatsApi.sync, Option.bind_eq_bind, Option.bind_eq_some_iff, Option.pure_def, Option.some.injEq] at h
    obtain ⟨⟨report, t'⟩, hr, sy, hb, he⟩ := h
    cases he
    obtain ⟨r, hc, rfl, hch, hrd⟩ := GameStatsApi.recomputeReport_eq_some hr
    obtain ⟨h1, h2, h3, h4⟩ := buildSync_eq_some hb
    have hun : ∀ stat, stat ∉ sync.changes → stat ∉ diffStore s.computed (GameStatsApi.derivedStore source s) ∧
        stat ∉ resourceChanges s.resources r ∧ stat ∉ s.explicitChanges := by
      intro stat hstat
      rw [h1, hch] at hstat
      simpa only [Finset.mem_union, not_or, and_assoc] using hstat
    refine ⟨⟨by rw [h1]; exact h2, fun stat hstat => ?_, rfl, h3, fun hn => ?_⟩, hs.recomputed source r⟩
    · obtain ⟨hd, hr', hx⟩ := hun stat hstat
      exact ⟨hx, readWire_recomputed hc hd hr'⟩
    · obtain ⟨hd, hpc⟩ := h4 hn
      rw [hrd] at hd
      rw [← h1] at hpc
      simp only [publicStatsChanged, Bool.or_eq_false_iff, decide_eq_false_iff_not] at hpc hd
      obtain ⟨hdl, hrl, hxl⟩ := hun .level hpc.1.1
      have hcomp : ∀ stat, stat ∉ sync.changes → (GameStatsApi.recomputed source s r).computed.get stat =
          s.computed.get stat := by
        intro stat hstat
        by_contra hne
        exact (hun stat hstat).1 (mem_diffStore.2 (Ne.symm hne))
      refine ⟨hxl, publicState_congr (readWire_recomputed hc hdl hrl) (hcomp _ hpc.1.2) (hcomp _ hpc.2) ?_⟩
      by_contra hne
      exact hd.2 (Ne.symm hne)
  · rename_i hdirty
    obtain ⟨sy, hb, he⟩ := Option.map_eq_some_iff.1 h
    cases he
    obtain ⟨h1, h2, h3, -⟩ := buildSync_eq_some hb
    -- a clean state has nothing marked
    have hx : s.explicitChanges = ∅ := by
      by_contra hne
      have hd := hs.explicitDirty (Finset.nonempty_iff_ne_empty.2 hne)
      exact hdirty (by simp [ActorStatState.isDirty, hd])
    exact ⟨⟨by rw [h1]; exact h2, fun stat _ => ⟨by simp [hx], rfl⟩, hx, h3, fun _ => ⟨by simp [hx], rfl⟩⟩, hs⟩

/-! ## The client -/

/-- What a client knows: a value for each statistic and the last public state it was told. -/
structure Client where
  view : Stat → Int
  publicState : Option ActorPublicState

/-- Apply a drained report. -/
def Client.receive (c : Client) (d : DrainedPlayerStatsSync) : Client where
  view := d.statDeltas.foldl (fun v delta => Function.update v delta.stat delta.value) c.view
  publicState := d.publicState.or c.publicState

inductive RuntimeEvent where
  | mutate (m : Mutator Unit Unit)
  | normalize
  | drainSync

/-- One event of the runtime; the client receives what is drained. -/
def runtimeStep (s : ActorStatsRuntime × Client) : RuntimeEvent → Option (ActorStatsRuntime × Client)
  | .mutate m => (s.1.withApiMut m).map fun rt => (rt, s.2)
  | .normalize => s.1.normalize.map fun r => (r.2, s.2)
  | .drainSync => s.1.drainSync.map fun r => (r.2, s.2.receive r.1)

omit [GrowthRng] in
theorem foldl_update_deltas (f : Stat → Int) : ∀ (l : List Stat) (v : Stat → Int) (stat : Stat),
    (l.map fun s => StatDelta.mk s (f s)).foldl (fun v delta => Function.update v delta.stat delta.value) v stat =
      if stat ∈ l then f stat else v stat
  | [], _, _ => by simp
  | a :: l, v, stat => by
    rw [List.map_cons, List.foldl_cons, foldl_update_deltas f l]
    by_cases ha : stat = a
    · subst ha; simp
    · simp [ha]

/-- The client's values with the pending report laid over them. -/
def overlaid (rt : ActorStatsRuntime) (c : Client) (stat : Stat) : Int :=
  if stat ∈ rt.pending.changed then rt.pending.stats.get stat else c.view stat

omit [GrowthRng] in
theorem receive_drain_view (rt : ActorStatsRuntime) (c : Client) (stat : Stat) :
    (c.receive rt.pending.drain).view stat = overlaid rt c stat := by
  refine (foldl_update_deltas rt.pending.stats.get (StatChangeSet.iter rt.pending.changed) c.view stat).trans ?_
  simp only [StatChangeSet.mem_iter, overlaid]

/-- The invariant between drains. -/
structure InSync (s : ActorStatsRuntime × Client) : Prop where
  state : StateOk s.1.state
  values : ∀ stat, stat ∉ s.1.state.explicitChanges → overlaid s.1 s.2 stat = s.1.readPacket stat
  publicState : Stat.level ∉ s.1.state.explicitChanges → s.1.pending.publicState.or s.2.publicState = s.1.publicState

theorem inSync_mutate {s t : ActorStatsRuntime × Client} {m : Mutator Unit Unit} (h : InSync s)
    (ht : runtimeStep s (.mutate m) = some t) : InSync t := by
  obtain ⟨rt, hrt, rfl⟩ := Option.map_eq_some_iff.1 ht
  obtain ⟨st, hst, rfl⟩ := Option.map_eq_some_iff.1 hrt
  rcases GameStatsApi.apply_cases hst with ⟨m', he, hm⟩ | ⟨hop, _⟩
  · cases he
    have hmc := mutate_marksChange hm
    obtain ⟨_, hk⟩ := hmc h.state.projected
    refine ⟨h.state.of_marksChange hmc, fun stat hs => ?_, fun hl => ?_⟩
    · exact (h.values stat fun hx => hs (hk.grows hx)).trans (hk.marks stat hs).symm
    · refine (h.publicState fun hx => hl (hk.grows hx)).trans
        (publicState_congr (hk.marks _ hl) ?_ ?_ hk.immuneFlags).symm
      · exact congrArg (·.get .movSpeed) hk.computed
      · exact congrArg (·.get .attSpeed) hk.computed
  · exact absurd rfl (hop m)

/-- After a normalisation nothing is marked and the pending report is complete. -/
theorem inSync_normalize {s : ActorStatsRuntime × Client} {rt : ActorStatsRuntime} {sync : StatsSync} (h : InSync s)
    (hn : s.1.normalize = some (sync, rt)) : InSync (rt, s.2) ∧ rt.state.explicitChanges = ∅ := by
  unfold ActorStatsRuntime.normalize at hn
  split at hn
  · cases hn
  · obtain ⟨⟨sync', st⟩, hs, he⟩ := Option.map_eq_some_iff.1 hn
    obtain ⟨rfl, rfl⟩ := Prod.mk.inj he
    obtain ⟨spec, hok⟩ := syncIfDirty_spec h.state hs
    obtain ⟨m1, m2, m3⟩ := merge_spec spec.deltas s.1.pending
    refine ⟨⟨hok, fun stat _ => ?_, fun _ => ?_⟩, spec.clean⟩
    · have hch := m1 stat
      have hst := m2 stat
      show (if stat ∈ (s.1.pending.merge sync').changed then (s.1.pending.merge sync').stats.get stat
        else s.2.view stat) = _
      by_cases hc : stat ∈ sync'.changes
      · rw [if_pos (hch.2 (.inl hc))]
        exact hst.trans (if_pos hc)
      · -- unreported: the pending and the client's values are those of before, and so is the actor's
        obtain ⟨hx, hsame⟩ := spec.unchanged stat hc
        have hold := h.values stat hx
        unfold overlaid at hold
        show _ = st.readWireCompatibleValue stat
        rw [hsame]
        refine Eq.trans ?_ hold
        by_cases hp : stat ∈ s.1.pending.changed
        · rw [if_pos (hch.2 (.inr hp)), if_pos hp]
          exact hst.trans (if_neg hc)
        · rw [if_neg fun hx => (hch.1 hx).elim hc hp, if_neg hp]
    · show (s.1.pending.merge sync').publicState.or s.2.publicState = GameStatsApi.publicState s.1.source st
      rw [m3]
      rcases hp : sync'.publicState with _ | p
      · obtain ⟨hl, hpub⟩ := spec.publicNone hp
        rw [Option.none_or, hpub]
        exact h.publicState hl
      · rw [spec.publicSome p hp]
        rfl

theorem inSync_step {s t : ActorStatsRuntime × Client} {e : RuntimeEvent} (h : InSync s)
    (ht : runtimeStep s e = some t) :
    InSync t := by
  cases e with
  | mutate m => exact inSync_mutate h ht
  | normalize =>
    obtain ⟨⟨sync, rt⟩, hn, rfl⟩ := Option.map_eq_some_iff.1 ht
    exact (inSync_normalize h hn).1
  | drainSync =>
    obtain ⟨⟨drained, rt⟩, hd, rfl⟩ := Option.map_eq_some_iff.1 ht
    obtain ⟨⟨sync, rt'⟩, hn, he⟩ := Option.map_eq_some_iff.1 hd
    cases he
    have hin := (inSync_normalize h hn).1
    refine ⟨hin.state, fun stat hs => ?_, fun hl => ?_⟩
    · exact (receive_drain_view rt' s.2 stat).trans (hin.values stat hs)
    · exact (Option.none_or).trans (hin.publicState hl)

/-- After a drain the client holds exactly the values of the actor. -/
theorem view_eq_of_drainSync {s t : ActorStatsRuntime × Client} (h : InSync s)
    (ht : runtimeStep s .drainSync = some t) :
    (∀ stat, t.2.view stat = t.1.readPacket stat) ∧ t.2.publicState = t.1.publicState := by
  have hin := inSync_step h ht
  obtain ⟨⟨drained, rt⟩, hd, rfl⟩ := Option.map_eq_some_iff.1 ht
  obtain ⟨⟨sync, rt'⟩, hn, he⟩ := Option.map_eq_some_iff.1 hd
  cases he
  have hclean : rt'.state.explicitChanges = ∅ := (inSync_normalize h hn).2
  have hall : ∀ stat, stat ∉ rt'.state.explicitChanges := fun stat => by rw [hclean]; exact Finset.notMem_empty stat
  refine ⟨fun stat => ?_, ?_⟩
  · exact (if_neg (Finset.notMem_empty stat)).symm.trans (hin.values stat (hall stat))
  · exact hin.publicState (hall _)

/-- A runtime over any state the interface can produce, and a client that starts with its values: whatever mutators,
normalisations and drains follow, each drain leaves the client with the values and the public state of the actor. -/
theorem drainSync_complete {kind : ActorKind} {ops : List (ActorStatSource × ApiOp Unit Unit)}
    {st : ActorStatState Unit Unit} (hst : run apiStep (ActorStatState.new kind) ops = some st)
    {source : ActorStatSource} {events : List RuntimeEvent} {rt : ActorStatsRuntime} {c : Client}
    (hrun : run runtimeStep (ActorStatsRuntime.new source st,
      ⟨(ActorStatsRuntime.new source st).readPacket, (ActorStatsRuntime.new source st).publicState⟩)
      (events ++ [.drainSync]) = some (rt, c)) :
    (∀ stat, c.view stat = rt.readPacket stat) ∧ c.publicState = rt.publicState := by
  obtain ⟨s, hs, hd⟩ := (run_append_eq_some runtimeStep).1 hrun
  obtain ⟨t, ht, he⟩ := (run_cons_eq_some runtimeStep).1 hd
  cases he
  have hinit : InSync (ActorStatsRuntime.new source st,
      ⟨(ActorStatsRuntime.new source st).readPacket, (ActorStatsRuntime.new source st).publicState⟩) :=
    ⟨run_stateOk hst, fun _ _ => if_neg (Finset.notMem_empty _), fun _ => rfl⟩
  exact view_eq_of_drainSync (run_inv (fun _ _ _ h ht => inSync_step h ht) hinit hs) ht

end

/-- A level, a core statistic and a modifier change between two normalisations and a drain. -/
def syncEvents : List RuntimeEvent :=
  [.mutate (.setPlayerProgression firstLevel 20 300), .mutate (.setStoredStat .st ⟨6, by decide⟩), .normalize,
   .mutate (.replaceSourceBundle () ⟨[⟨.movSpeed, 20, ()⟩]⟩), .mutate (.setResource .hp ⟨5, by decide⟩),
   .mutate (.setStoredStat .st ⟨7, by decide⟩)]

theorem drainSync_complete_syncEvents :
    let := splitMix64Rolls
    let start := ActorStatsRuntime.new warriorSource (ActorStatState.new .player)
    ∃ rt c, run runtimeStep (start, ⟨start.readPacket, start.publicState⟩) (syncEvents ++ [.drainSync]) = some (rt, c) ∧
      (∀ stat, c.view stat = rt.readPacket stat) ∧ c.publicState = rt.publicState := by
  intro rng start
  have hrun : (run runtimeStep (start, ⟨start.readPacket, start.publicState⟩) (syncEvents ++ [.drainSync])).isSome := by
    decide
  obtain ⟨⟨rt, c⟩, h⟩ := Option.isSome_iff_exists.1 hrun
  exact ⟨rt, c, h, @drainSync_complete _ .player [] _ rfl _ _ _ _ h⟩

end Zohar.Stats
