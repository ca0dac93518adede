/-
The snapshot a player is sent at loading and the deltas that follow it. A snapshot reads the experience as the `u32` it
is, a delta reads it through an `i32`, so the two agree only as long as the experience stays in the range of both. From
zohar-gameplay/src/stats/game/api.rs and view.rs and zohar-gamesrv/src/adapters.rs.
-/
import Zohar.Stats.Formula
import Zohar.Stats.Sync

namespace Zohar.Stats

open Zohar.Lib

/-! ## The client's points -/

/-- Whether `to_protocol` has a point for the statistic. -/
def Stat.hasWirePoint (stat : Stat) : Bool :=
  decide (stat ∉ [Stat.armorDefence, .maxHpPrePctBonus, .bonusMaxHp, .bonusMaxSp, .bonusMaxStamina])

/-- The statistics whose values a snapshot takes from the progression. -/
def experienceStats : List Stat := [.exp, .nextExp]

def PlayerProgressionState.experience (p : PlayerProgressionState) (stat : Stat) : Nat :=
  if stat = .exp then p.expInLevel else p.nextExpInLevel

/-- What a delta makes of a point. -/
def pointValue (value : Int) : Nat := (max value 0).toNat

namespace StatSnapshot

/-- A statistic without an entry counts as zero. -/
def get (s : StatSnapshot) (stat : Stat) : Nat := (s.values stat).getD 0

def receive (s : StatSnapshot) (d : DrainedPlayerStatsSync) : StatSnapshot :=
  d.statDeltas.foldl (fun s delta => s.insert delta.stat (pointValue delta.value)) s

theorem get_insert (s : StatSnapshot) (stat t : Stat) (value : Nat) :
    (s.insert stat value).get t = if t = stat then value else s.get t := by
  unfold get insert
  dsimp only
  split <;> rfl

theorem get_foldl_insert (f : Stat → Nat) : ∀ (l : List Stat) (s : StatSnapshot) (stat : Stat),
    (l.foldl (fun s stat => s.insert stat (f stat)) s).get stat = if stat ∈ l then f stat else s.get stat
  | [], _, _ => by simp
  | a :: l, s, stat => by
    rw [List.foldl_cons, get_foldl_insert f l, get_insert]
    by_cases ha : stat = a
    · subst ha; simp
    · simp [ha]

theorem get_receive_drain (p : PendingPlayerStatsSync) (s : StatSnapshot) (stat : Stat) :
    (s.receive p.drain).get stat = if stat ∈ p.changed then pointValue (p.stats.get stat) else s.get stat := by
  unfold receive PendingPlayerStatsSync.drain
  rw [List.foldl_map]
  refine (get_foldl_insert (fun stat => pointValue (p.stats.get stat)) _ s stat).trans ?_
  simp only [StatChangeSet.mem_iter]

section
variable {Source Detail : Type} [LinearOrder Source] {st : ActorStatState Source Detail} {stat : Stat}

theorem get_fromState_experience (h : stat ∈ experienceStats) :
    (fromState st).get stat = st.progression.experience stat := by
  simp only [experienceStats, List.mem_cons, List.not_mem_nil, or_false] at h
  rcases h with rfl | rfl <;> rfl

/-- Only what is zero is left out of a snapshot. -/
theorem get_fromState (hw : stat.hasWirePoint = true) (h : stat ∉ experienceStats) :
    (fromState st).get stat = pointValue (st.readWireCompatibleValue stat) := by
  simp only [experienceStats, List.mem_cons, List.not_mem_nil, or_false, not_or] at h
  have hwire : stat ∉ [Stat.armorDefence, .maxHpPrePctBonus, .bonusMaxHp, .bonusMaxSp, .bonusMaxStamina] := by
    simpa [Stat.hasWirePoint] using hw
  have hfold : ∀ (l : List Stat) (s : StatSnapshot), (l.foldl (fun s stat =>
      s.insert stat (max (st.readWireCompatibleValue stat) 0).toNat) s).get stat =
        if stat ∈ l then pointValue (st.readWireCompatibleValue stat) else s.get stat :=
    fun l s => get_foldl_insert (fun stat => pointValue (st.readWireCompatibleValue stat)) l s stat
  unfold fromState
  simp only [get_insert, if_neg h.1, if_neg h.2, hfold]
  split_ifs with hresource hbase hcomputed
  · rfl
  · rfl
  · rfl
  · rw [List.mem_filter, PointValueStore.mem_iter, decide_eq_true_eq, not_and, not_imp_not] at hbase
    rw [List.mem_filter, PointValueStore.mem_iter, decide_eq_true_eq, not_and', not_not] at hcomputed
    have hzero : st.readWireCompatibleValue stat = 0 := by
      have hcomp := hcomputed hwire
      cases stat with
      | exp => exact absurd rfl h.1
      | nextExp => exact absurd rfl h.2
      | level | gold => exact hbase (by decide)
      | hp | sp | stamina | hpRecovery | spRecovery => exact absurd (by decide) hresource
      | _ => exact hcomp
    rw [hzero]
    rfl

end

end StatSnapshot

section
variable [GrowthRng]

/-- One event of a runtime whose drained deltas are laid over the snapshot of its client. -/
def snapshotStep (s : ActorStatsRuntime × StatSnapshot) : RuntimeEvent → Option (ActorStatsRuntime × StatSnapshot)
  | .mutate m => (s.1.withApiMut m).map fun rt => (rt, s.2)
  | .normalize => s.1.normalize.map fun r => (r.2, s.2)
  | .drainSync => s.1.drainSync.map fun r => (r.2, s.2.receive r.1)

/-- Whenever the state is drained, the client holds what a snapshot from scratch would give it. -/
def DrainAgrees (s : ActorStatsRuntime × StatSnapshot) : Prop :=
  ∀ t, snapshotStep s .drainSync = some t → ∀ stat, stat.hasWirePoint = true →
    t.2.get stat = (StatSnapshot.fromState t.1.state).get stat

/-- A value of the experience that a delta carries as it is: it fits, and it is not what an overlong value before it
was cut to. -/
def Carried (old new : Nat) : Prop := new = old ∨ (new : Int) ≤ i32Max ∧ clampU32ToI32 old ≠ new

instance (old new : Nat) : Decidable (Carried old new) := inferInstanceAs (Decidable (_ ∨ _))

/-- The progression is set to a value that a delta carries, or its experience stays as it is. -/
def CarriesExperience (s : ActorStatsRuntime × StatSnapshot) : RuntimeEvent → Prop
  | .mutate (.setPlayerProgression _ expInLevel nextExpInLevel) =>
    Carried s.1.state.progression.expInLevel expInLevel ∧ Carried s.1.state.progression.nextExpInLevel nextExpInLevel
  | _ => True

instance : ∀ s e, Decidable (CarriesExperience s e)
  | _, .mutate (.setPlayerProgression _ _ _) => inferInstanceAs (Decidable (Carried _ _ ∧ Carried _ _))
  | _, .mutate (.setStoredStat ..) | _, .mutate (.setResource ..) | _, .mutate (.changeResource ..)
  | _, .mutate (.applyResource ..) | _, .mutate (.queueRecovery ..) | _, .mutate (.queueAutoRecovery ..)
  | _, .mutate (.applyPendingRecovery ..) | _, .mutate (.replaceSourceBundle ..) | _, .mutate (.removeSourceBundle ..)
  | _, .mutate (.setExternalImmuneFlags ..) | _, .mutate (.setStableId ..) | _, .mutate .clearStableId
  | _, .normalize | _, .drainSync => inferInstanceAs (Decidable True)

/-! ## What the client holds after the next drain -/

/-- The client's point with the pending and the marked values laid over it. -/
def told (s : ActorStatsRuntime × StatSnapshot) (stat : Stat) : Nat :=
  if stat ∈ s.1.state.explicitChanges ∨ stat ∈ s.1.pending.changed then
    pointValue (s.1.readPacket stat)
  else s.2.get stat

/-- A client that holds the same values as numbers, what it knows of the experience apart, and stored copies that are
computed from unless they are marked. -/
structure Tracks (s : ActorStatsRuntime × StatSnapshot) (c : Client) : Prop where
  inSync : InSync (s.1, c)
  points : ∀ stat, stat.hasWirePoint = true → stat ∉ experienceStats → s.2.get stat = pointValue (c.view stat)
  copies : ∀ stat ∈ experienceStats, stat ∉ s.1.state.explicitChanges →
    s.1.state.computed.get stat = s.1.state.base.get stat

end

/-! ## What the mutators do to the experience -/

section
variable {Source Detail : Type} [LinearOrder Source]

/-- A write that leaves the progression alone and marks no value of it. -/
def KeepsExperience (s t : ActorStatState Source Detail) : Prop :=
  t.progression = s.progression ∧ ∀ stat ∈ experienceStats, stat ∈ t.explicitChanges ↔ stat ∈ s.explicitChanges

theorem keepsExperience_record (s t : ActorStatState Source Detail) {stat : Stat} (h : stat ∉ experienceStats)
    (hp : t.progression = s.progression) (he : t.explicitChanges = s.explicitChanges) :
    KeepsExperience s (t.recordExplicitChange stat) := by
  refine ⟨hp, fun other hother => ?_⟩
  have hne : other ≠ stat := fun heq => h (heq ▸ hother)
  show other ∈ insert stat t.explicitChanges ↔ _
  rw [he, Finset.mem_insert, or_iff_right hne]

theorem resourceRel_keepsExperience : ResourceRel (@KeepsExperience Source Detail _) where
  refl s := ⟨rfl, fun _ _ => Iff.rfl⟩
  trans s t u hst htu := ⟨htu.1.trans hst.1, fun stat h => (htu.2 stat h).trans (hst.2 stat h)⟩
  resource s t stat v h := by
    unfold ActorStatState.setResourceStat at h
    cases stat <;> first
      | cases h
      | (simp only at h
         split at h
         · cases h
           exact keepsExperience_record s _ (by decide) rfl rfl
         · cases h
           exact ⟨rfl, fun _ _ => Iff.rfl⟩)

theorem keepsExperience_setStoredStat (source : ActorStatSource) (stat : Stat) (value : Int) :
    Cmd.Keeps KeepsExperience (GameStatsApi.setStoredStat source stat value : GameStatsApi.WriteCmd Source
      Detail Unit) := by
  have hrefl := (@resourceRel_keepsExperience Source Detail _).refl
  refine Cmd.keeps_bind resourceRel_keepsExperience.trans (Cmd.keeps_check hrefl _) fun _ => ?_
  refine Cmd.keeps_update hrefl fun s t ht => ?_
  unfold ActorStatState.setStoredStat at ht
  split at ht
  · cases ht
  · rename_i htyped
    split at ht
    · cases ht
    · split at ht
      · cases ht
        refine keepsExperience_record s _ ?_ rfl rfl
        simp only [experienceStats, List.mem_cons, List.not_mem_nil, or_false]
        rintro (rfl | rfl)
        · exact htyped (by decide)
        · exact htyped (by decide)
      · cases ht
        exact hrefl s

theorem mutate_keepsExperience {source : ActorStatSource} {st t : ActorStatState Source Detail}
    {m : Mutator Source Detail} (h : GameStatsApi.mutate source st m = some t)
    (hm : ∀ level e n, m ≠ .setPlayerProgression level e n) :
    KeepsExperience st t := by
  have hR := @resourceRel_keepsExperience Source Detail _
  have keeps : ∀ {ε α : Type} {c : Cmd ε (ActorStatState Source Detail) α}, Cmd.Keeps KeepsExperience c →
      c.exec st = some t → KeepsExperience st t :=
    fun hc hx => let ⟨r, hr⟩ := Cmd.exec_eq_some.1 hx; hc st r t hr
  cases m with
  | setStoredStat stat value => exact keeps (keepsExperience_setStoredStat source stat _) h
  | setPlayerProgression level e n => exact absurd rfl (hm level e n)
  | setResource stat value => exact keeps (GameStatsApi.keeps_setResource hR stat _) h
  | changeResource stat delta => exact keeps (GameStatsApi.keeps_changeResource hR stat _) h
  | applyResource a => exact keeps (GameStatsApi.keeps_applyResource hR a) h
  | queueRecovery stat amount => exact keeps (GameStatsApi.keeps_queueRecovery hR stat _) h
  | queueAutoRecovery stat amount => exact keeps (GameStatsApi.keeps_queueAutoRecovery hR stat _) h
  | applyPendingRecovery stat amount => exact keeps (GameStatsApi.keeps_applyPendingRecovery hR stat _) h
  | replaceSourceBundle src c =>
    obtain ⟨r, hr⟩ := Cmd.exec_eq_some.1 h
    rcases GameStatsApi.replaceSourceBundle_eq_some hr with ⟨_, _, _, rfl⟩ | ⟨_, _, rfl⟩
    · exact hR.refl _
    · exact ⟨rfl, fun _ _ => Iff.rfl⟩
  | removeSourceBundle src => cases h; exact ⟨rfl, fun _ _ => Iff.rfl⟩
  | setExternalImmuneFlags flags =>
    cases h
    unfold ActorStatState.setExternalImmuneFlags
    split <;> exact ⟨rfl, fun _ _ => Iff.rfl⟩
  | setStableId id | clearStableId =>
    cases h
    unfold ActorStatState.setStableId
    split <;> exact ⟨rfl, fun _ _ => Iff.rfl⟩

theorem mem_explicitChanges_setBaseProjectionStat (s : ActorStatState Source Detail) (stat other : Stat) (v : Int) :
    other ∈ (s.setBaseProjectionStat stat v).explicitChanges ↔
      other ∈ s.explicitChanges ∨ other = stat ∧ s.base.get stat ≠ v := by
  unfold ActorStatState.setBaseProjectionStat
  split
  · rename_i hne
    show other ∈ insert stat s.explicitChanges ↔ _
    rw [Finset.mem_insert]
    tauto
  · rename_i heq
    tauto

/-- A value of the experience is marked if its stored copy changes. -/
theorem setPlayerProgression_experience {s : ActorStatState Source Detail} (hs : Projected s)
    (p : PlayerProgressionState) :
    (s.setPlayerProgression p).progression = p.normalized ∧ ∀ stat ∈ experienceStats,
      (stat ∈ (s.setPlayerProgression p).explicitChanges ↔ stat ∈ s.explicitChanges ∨
        clampU32ToI32 (s.progression.experience stat) ≠ clampU32ToI32 (p.experience stat)) := by
  have hprog : ∀ (s : ActorStatState Source Detail) stat v, (s.setBaseProjectionStat stat v).progression =
      s.progression :=
    fun s stat v => (setBaseProjectionStat_marked s stat v).2.2.1
  have hbase : ∀ (s : ActorStatState Source Detail) stat v, (s.setBaseProjectionStat stat v).base = s.base.set stat v :=
    fun s stat v => (setBaseProjectionStat_marked s stat v).2.1
  unfold ActorStatState.setPlayerProgression
  dsimp only
  refine ⟨by simp only [hprog], fun stat hstat => ?_⟩
  simp only [experienceStats, List.mem_cons, List.not_mem_nil, or_false] at hstat
  simp only [mem_explicitChanges_setBaseProjectionStat, hbase, PointValueStore.get_set]
  rcases hstat with rfl | rfl
  · simp [PlayerProgressionState.experience, hs.exp, PlayerProgressionState.normalized]
  · simp [PlayerProgressionState.experience, hs.nextExp, PlayerProgressionState.normalized]

end

/-! ## What a normalisation and a drain do to it -/

section
variable [GrowthRng]

/-- Nothing adds to the stored copies of the experience. -/
theorem derivedStore_experience {Source Detail : Type} [LinearOrder Source] (source : ActorStatSource)
    (st : ActorStatState Source Detail) {stat : Stat} (h : stat ∈ experienceStats) :
    (GameStatsApi.derivedStore source st).get stat = st.base.get stat := by
  have hget : (derivedExprs source st).get stat = (seedRebuildExprs st source).get stat := by
    simp only [experienceStats, List.mem_cons, List.not_mem_nil, or_false] at h
    cases source <;> rcases h with rfl | rfl <;> rfl
  have hterms : seedTerms source st stat = [] := by
    simp only [experienceStats, List.mem_cons, List.not_mem_nil, or_false] at h
    cases source <;> rcases h with rfl | rfl <;> rfl
  rw [← wrapped_derivedExprs, ExprStore.get_wrapped, hget, get_seedRebuildExprs, hterms, IntExpr.sum_nil,
    IntExpr.wrapped_lit]

/-- A normalisation reports the marked values of the experience and no others. -/
theorem syncIfDirty_experience {source : ActorStatSource} {s t : ActorStatState Unit Unit} {sync : StatsSync}
    (hs : StateOk s)
    (hcopies : ∀ stat ∈ experienceStats, stat ∉ s.explicitChanges → s.computed.get stat = s.base.get stat)
    (h : GameStatsApi.syncIfDirty source s = some (sync, t)) :
    t.progression = s.progression ∧ (∀ stat ∈ experienceStats, t.computed.get stat = t.base.get stat) ∧
      ∀ stat ∈ experienceStats, stat ∈ sync.changes ↔ stat ∈ s.explicitChanges := by
  unfold GameStatsApi.syncIfDirty at h
  split at h
  · simp only [GameStatsApi.sync, Option.bind_eq_bind, Option.bind_eq_some_iff, Option.pure_def, Option.some.injEq] at h
    obtain ⟨⟨report, t'⟩, hr, sy, hb, he⟩ := h
    cases he
    obtain ⟨r, hc, rfl, hch, -⟩ := GameStatsApi.recomputeReport_eq_some hr
    obtain ⟨hchanges, -, -, -⟩ := buildSync_eq_some hb
    refine ⟨rfl, fun stat hstat => derivedStore_experience source s hstat, fun stat hstat => ?_⟩
    have hresource : stat ∉ resourceChanges s.resources r := by
      simp only [experienceStats, List.mem_cons, List.not_mem_nil, or_false] at hstat
      unfold resourceChanges
      rcases hstat with rfl | rfl <;> split_ifs <;> decide
    rw [hchanges, hch, Finset.mem_union, Finset.mem_union, mem_diffStore, derivedStore_experience source s hstat]
    constructor
    · rintro ((hdiff | hres) | hexplicit)
      · by_contra hne
        exact hdiff (hcopies stat hstat hne)
      · exact absurd hres hresource
      · exact hexplicit
    · exact .inr
  · rename_i hclean
    obtain ⟨sy, hb, he⟩ := Option.map_eq_some_iff.1 h
    cases he
    obtain ⟨hchanges, -, -, -⟩ := buildSync_eq_some hb
    have hempty : s.explicitChanges = ∅ := by
      by_contra hne
      exact hclean (by simp [ActorStatState.isDirty, hs.explicitDirty (Finset.nonempty_iff_ne_empty.2 hne)])
    refine ⟨rfl, fun stat hstat => hcopies stat hstat (by simp [hempty]), fun stat _ => ?_⟩
    rw [hchanges, hempty]

theorem tracks_normalize {s : ActorStatsRuntime × StatSnapshot} {c : Client} {sync : StatsSync} {rt : ActorStatsRuntime}
    (h : Tracks s c) (hn : s.1.normalize = some (sync, rt)) :
    Tracks (rt, s.2) c ∧ rt.state.explicitChanges = ∅ ∧ rt.state.progression = s.1.state.progression ∧
      ∀ stat ∈ experienceStats, told (rt, s.2) stat = told s stat := by
  obtain ⟨hin, hclean⟩ := inSync_normalize h.inSync hn
  unfold ActorStatsRuntime.normalize at hn
  split at hn
  · cases hn
  obtain ⟨⟨sync', st⟩, hs, he⟩ := Option.map_eq_some_iff.1 hn
  obtain ⟨rfl, rfl⟩ := Prod.mk.inj he
  obtain ⟨hprog, hcopies, hchanges⟩ := syncIfDirty_experience h.inSync.state h.copies hs
  obtain ⟨spec, -⟩ := syncIfDirty_spec h.inSync.state hs
  obtain ⟨hchanged, -, -⟩ := merge_spec spec.deltas s.1.pending
  refine ⟨⟨hin, h.points, fun stat hstat _ => hcopies stat hstat⟩, hclean, hprog, fun stat hstat => ?_⟩
  have hread : st.readWireCompatibleValue stat = s.1.state.readWireCompatibleValue stat := by
    simp only [experienceStats, List.mem_cons, List.not_mem_nil, or_false] at hstat
    rcases hstat with rfl | rfl
    · exact congrArg (fun p => clampU32ToI32 p.expInLevel) hprog
    · exact congrArg (fun p => clampU32ToI32 p.nextExpInLevel) hprog
  have hmark : (stat ∈ st.explicitChanges ∨ stat ∈ (s.1.pending.merge sync').changed) ↔
      stat ∈ s.1.state.explicitChanges ∨ stat ∈ s.1.pending.changed := by
    have hnone : stat ∉ st.explicitChanges := by
      rw [show st.explicitChanges = ∅ from hclean]
      exact Finset.notMem_empty stat
    rw [or_iff_right hnone, hchanged, hchanges stat hstat]
  unfold told
  exact if_congr hmark (congrArg pointValue hread) rfl

/-- After a drain the client holds what it was to be told. -/
theorem tracks_drainSync {s t : ActorStatsRuntime × StatSnapshot} {c : Client} (h : Tracks s c)
    (ht : snapshotStep s .drainSync = some t) :
    (∃ c', Tracks t c' ∧ ∀ stat, c'.view stat = t.1.readPacket stat) ∧
      t.1.state.progression = s.1.state.progression ∧
      ∀ stat ∈ experienceStats, t.2.get stat = told s stat ∧ told t stat = told s stat := by
  obtain ⟨⟨drained, rt⟩, hd, rfl⟩ := Option.map_eq_some_iff.1 ht
  have hrun : runtimeStep (s.1, c) .drainSync = some (rt, c.receive drained) := Option.map_eq_some_iff.2 ⟨_, hd, rfl⟩
  have hview := (view_eq_of_drainSync h.inSync hrun).1
  obtain ⟨⟨sync, rt'⟩, hn, he⟩ := Option.map_eq_some_iff.1 hd
  cases he
  obtain ⟨hnormal, hclean, hprog, htold⟩ := tracks_normalize h hn
  have hunmarked : ∀ stat, stat ∉ rt'.state.explicitChanges := fun stat => by
    rw [hclean]
    exact Finset.notMem_empty stat
  refine ⟨⟨_, ⟨inSync_step h.inSync hrun, ?_, ?_⟩, hview⟩, hprog, ?_⟩
  · intro stat hw hne
    have hpoints := h.points stat hw hne
    rw [StatSnapshot.get_receive_drain, receive_drain_view, hpoints]
    unfold overlaid
    split <;> rfl
  · exact fun stat hstat _ => hnormal.copies stat hstat (hunmarked stat)
  · intro stat hstat
    have hget : (s.2.receive rt'.pending.drain).get stat = told s stat := by
      rw [← htold stat hstat, StatSnapshot.get_receive_drain]
      have hpending := hnormal.inSync.values stat (hunmarked stat)
      unfold told overlaid at *
      by_cases hchanged : stat ∈ rt'.pending.changed
      · rw [if_pos hchanged] at hpending
        rw [if_pos hchanged, if_pos (.inr hchanged)]
        exact congrArg pointValue hpending
      · rw [if_neg hchanged, if_neg (not_or.2 ⟨hunmarked stat, hchanged⟩)]
    refine ⟨hget, ?_⟩
    have hempty : stat ∉ PendingPlayerStatsSync.empty.changed := Finset.notMem_empty stat
    exact (if_neg (not_or.2 ⟨hunmarked stat, hempty⟩)).trans hget

/-- What the client holds of the experience after the next drain is the experience. -/
def ToldTrue (s : ActorStatsRuntime × StatSnapshot) : Prop :=
  ∀ stat ∈ experienceStats, told s stat = s.1.state.progression.experience stat

theorem drainAgrees_of_toldTrue {s : ActorStatsRuntime × StatSnapshot} {c : Client} (h : Tracks s c) (hs : ToldTrue s) :
    DrainAgrees s := by
  intro t ht stat hw
  obtain ⟨⟨c', htracks, hview⟩, hprog, htold⟩ := tracks_drainSync h ht
  by_cases hstat : stat ∈ experienceStats
  · rw [(htold stat hstat).1, hs stat hstat, StatSnapshot.get_fromState_experience hstat, hprog]
  · rw [htracks.points stat hw hstat, hview, StatSnapshot.get_fromState hw hstat]
    rfl

theorem toldTrue_of_drainAgrees {s : ActorStatsRuntime × StatSnapshot} {c : Client} (h : Tracks s c)
    (hd : (snapshotStep s .drainSync).isSome) (hs : DrainAgrees s) : ToldTrue s := by
  intro stat hstat
  obtain ⟨t, ht⟩ := Option.isSome_iff_exists.1 hd
  obtain ⟨-, hprog, htold⟩ := tracks_drainSync h ht
  have hw : stat.hasWirePoint = true := by
    revert stat
    decide
  have hagrees := hs t ht stat hw
  rw [(htold stat hstat).1, StatSnapshot.get_fromState_experience hstat, hprog] at hagrees
  exact hagrees

omit [GrowthRng] in
/-- A value of the experience reaches the client exactly if a delta carries it. -/
theorem told_eq_iff_carried {marked : Prop} [Decidable marked] {held old new : Nat}
    (hold : (if marked then pointValue (clampU32ToI32 old) else held) = old) :
    (if marked ∨ clampU32ToI32 old ≠ clampU32ToI32 new then pointValue (clampU32ToI32 new) else held) = new ↔
      Carried old new := by
  unfold Carried pointValue clampU32ToI32 i32Max at *
  by_cases hm : marked
  · rw [if_pos hm] at hold
    rw [if_pos (.inl hm)]
    omega
  · rw [if_neg hm] at hold
    split
    · rename_i hclamp
      have := hclamp.resolve_left hm
      omega
    · rename_i hclamp
      have := not_not.1 (not_or.1 hclamp).2
      omega

/-- A mutator leaves the client alone, and keeps what it tracks. -/
theorem tracks_mutate {s t : ActorStatsRuntime × StatSnapshot} {c : Client} {m : Mutator Unit Unit} (h : Tracks s c)
    (ht : snapshotStep s (.mutate m) = some t) :
    Tracks t c ∧ t.2 = s.2 ∧ t.1.pending = s.1.pending ∧ GameStatsApi.mutate s.1.source s.1.state m =
      some t.1.state := by
  obtain ⟨rt, hrt, rfl⟩ := Option.map_eq_some_iff.1 ht
  have hin : InSync (rt, c) := inSync_step h.inSync (e := .mutate m) (Option.map_eq_some_iff.2 ⟨rt, hrt, rfl⟩)
  obtain ⟨st, hst, rfl⟩ := Option.map_eq_some_iff.1 hrt
  rcases GameStatsApi.apply_cases hst with ⟨m', he, hm⟩ | ⟨hop, -⟩
  · cases he
    obtain ⟨hprojected, hk⟩ := mutate_marksChange hm h.inSync.state.projected
    refine ⟨⟨hin, h.points, fun stat hstat hnew => ?_⟩, rfl, rfl, hm⟩
    -- an unmarked copy has not changed, and the store computed from it has not either
    have hold := h.copies stat hstat fun hx => hnew (hk.grows hx)
    have hread := hk.marks stat hnew
    have hbase : st.base.get stat = s.1.state.base.get stat := by
      simp only [experienceStats, List.mem_cons, List.not_mem_nil, or_false] at hstat
      rcases hstat with rfl | rfl
      · exact (hprojected.exp.trans hread).trans h.inSync.state.projected.exp.symm
      · exact (hprojected.nextExp.trans hread).trans h.inSync.state.projected.nextExp.symm
    show st.computed.get stat = st.base.get stat
    rw [hk.computed, hold, hbase]
  · exact absurd rfl (hop m)

omit [GrowthRng] in
theorem readPacket_experience (rt : ActorStatsRuntime) {stat : Stat} (h : stat ∈ experienceStats) :
    rt.readPacket stat = clampU32ToI32 (rt.state.progression.experience stat) := by
  simp only [experienceStats, List.mem_cons, List.not_mem_nil, or_false] at h
  rcases h with rfl | rfl <;> rfl

theorem tracks_step {s t : ActorStatsRuntime × StatSnapshot} {e : RuntimeEvent} (h : ∃ c, Tracks s c)
    (ht : snapshotStep s e = some t) : ∃ c, Tracks t c := by
  obtain ⟨c, h⟩ := h
  cases e with
  | mutate m => exact ⟨c, (tracks_mutate h ht).1⟩
  | normalize =>
    obtain ⟨⟨sync, rt⟩, hn, rfl⟩ := Option.map_eq_some_iff.1 ht
    exact ⟨c, (tracks_normalize h hn).1⟩
  | drainSync =>
    obtain ⟨⟨c', htracks, -⟩, -⟩ := tracks_drainSync h ht
    exact ⟨c', htracks⟩

/-- Setting the progression keeps the client to be told the truth exactly if deltas carry the new experience. -/
theorem toldTrue_setPlayerProgression {s t : ActorStatsRuntime × StatSnapshot} {c : Client} {level : I32}
    {exp nextExp : Nat} (h : Tracks s c) (hs : ToldTrue s)
    (ht : snapshotStep s (.mutate (.setPlayerProgression level exp nextExp)) = some t) :
    ToldTrue t ↔ CarriesExperience s (.mutate (.setPlayerProgression level exp nextExp)) := by
  obtain ⟨-, hclient, hpending, hm⟩ := tracks_mutate h ht
  let p : PlayerProgressionState := ⟨level.val, exp, nextExp⟩
  have hstate : t.1.state = s.1.state.setPlayerProgression p := (Option.some.inj hm).symm
  obtain ⟨hprog, hmarked⟩ := setPlayerProgression_experience h.inSync.state.projected p
  have hexperience : ∀ stat, t.1.state.progression.experience stat = p.experience stat := by
    intro stat
    rw [hstate, hprog]
    rfl
  have hvalue : ∀ stat ∈ experienceStats, told t stat = t.1.state.progression.experience stat ↔
      Carried (s.1.state.progression.experience stat) (p.experience stat) := by
    intro stat hstat
    have hold := hs stat hstat
    unfold told at hold ⊢
    have hmark : (stat ∈ t.1.state.explicitChanges ∨ stat ∈ t.1.pending.changed) ↔
        (stat ∈ s.1.state.explicitChanges ∨ stat ∈ s.1.pending.changed) ∨
          clampU32ToI32 (s.1.state.progression.experience stat) ≠ clampU32ToI32 (p.experience stat) := by
      rw [hpending, hstate, hmarked stat hstat, or_right_comm]
    rw [readPacket_experience _ hstat] at hold ⊢
    rw [if_congr hmark rfl rfl, hexperience, hclient]
    exact told_eq_iff_carried hold
  unfold ToldTrue
  simp only [experienceStats, List.forall_mem_cons, List.not_mem_nil, false_implies, implies_true, and_true]
  rw [hvalue .exp (by decide), hvalue .nextExp (by decide)]
  rfl

/-- One event: the client stays to be told the truth exactly if the event sets no experience that deltas do not
carry. -/
theorem toldTrue_step {s t : ActorStatsRuntime × StatSnapshot} {e : RuntimeEvent} {c : Client} (h : Tracks s c)
    (hs : ToldTrue s) (ht : snapshotStep s e = some t) : ToldTrue t ↔ CarriesExperience s e := by
  cases e with
  | normalize =>
    obtain ⟨⟨sync, rt⟩, hn, rfl⟩ := Option.map_eq_some_iff.1 ht
    obtain ⟨-, -, hprog, htold⟩ := tracks_normalize h hn
    refine iff_of_true (fun stat hstat => ?_) trivial
    rw [htold stat hstat, hs stat hstat, hprog]
  | drainSync =>
    obtain ⟨-, hprog, htold⟩ := tracks_drainSync h ht
    refine iff_of_true (fun stat hstat => ?_) trivial
    rw [(htold stat hstat).2, hs stat hstat, hprog]
  | mutate m =>
    by_cases hset : ∃ level exp nextExp, m = .setPlayerProgression level exp nextExp
    · obtain ⟨level, exp, nextExp, rfl⟩ := hset
      exact toldTrue_setPlayerProgression h hs ht
    · have hne : ∀ level exp nextExp, m ≠ .setPlayerProgression level exp nextExp :=
        fun level exp nextExp he => hset ⟨level, exp, nextExp, he⟩
      have hcarries : CarriesExperience s (.mutate m) := by
        cases m <;> first | trivial | exact absurd rfl (hne _ _ _)
      obtain ⟨-, hclient, hpending, hm⟩ := tracks_mutate h ht
      obtain ⟨hprog, hmarked⟩ := mutate_keepsExperience hm hne
      refine iff_of_true (fun stat hstat => ?_) hcarries
      have hold := hs stat hstat
      unfold told at hold ⊢
      rw [readPacket_experience _ hstat] at hold ⊢
      rw [if_congr (or_congr_left (hmarked stat hstat)) rfl rfl, hprog, hclient, hpending]
      exact hold

/-! ## Snapshots and deltas -/

/-- A snapshot of any state the interface can produce, and the runtime that goes on from it. -/
theorem tracks_bootstrap {kind : ActorKind} {ops : List (ActorStatSource × ApiOp Unit Unit)}
    {st st' : ActorStatState Unit Unit} {source : ActorStatSource} {boot : BootstrapStatsSync}
    (hst : run apiStep (.new kind) ops = some st) (hboot : GameStatsApi.bootstrapSync source st = some (boot, st')) :
    (∃ c, Tracks (ActorStatsRuntime.new source st', boot.statSnapshot) c) ∧
      ToldTrue (ActorStatsRuntime.new source st', boot.statSnapshot) := by
  simp only [GameStatsApi.bootstrapSync, Option.bind_eq_bind, Option.bind_eq_some_iff, Option.pure_def,
    Option.some.injEq] at hboot
  obtain ⟨⟨report, t⟩, hr, public', -, he⟩ := hboot
  cases he
  obtain ⟨r, -, rfl, -⟩ := GameStatsApi.recomputeReport_eq_some hr
  have hok := (run_stateOk hst).recomputed source r
  let rt := ActorStatsRuntime.new source (GameStatsApi.recomputed source st r)
  refine ⟨⟨⟨rt.readPacket, rt.publicState⟩, ?_, ?_, ?_⟩, ?_⟩
  · exact ⟨hok, fun _ _ => if_neg (Finset.notMem_empty _), fun _ => rfl⟩
  · intro stat hw hne
    exact StatSnapshot.get_fromState hw hne
  · intro stat hstat _
    exact derivedStore_experience source st hstat
  · intro stat hstat
    have hunmarked : stat ∉ rt.state.explicitChanges := Finset.notMem_empty stat
    have hempty : stat ∉ rt.pending.changed := Finset.notMem_empty stat
    exact (if_neg (not_or.2 ⟨hunmarked, hempty⟩)).trans (StatSnapshot.get_fromState_experience hstat)

/-- From the snapshot of any player state on, whatever mutators, normalisations and drains follow: if each of them sets
only experience that a delta carries, every drain leaves the client with the points of a snapshot from scratch; and
where a drain is always possible, it does so only then. -/
theorem snapshot_deltas_iff {ops : List (ActorStatSource × ApiOp Unit Unit)} {st st' : ActorStatState Unit Unit}
    {source : ActorStatSource} {boot : BootstrapStatsSync} {events : List RuntimeEvent}
    {u : ActorStatsRuntime × StatSnapshot} (hst : run apiStep (.new .player) ops = some st)
    (hboot : GameStatsApi.bootstrapSync source st = some (boot, st'))
    (hrun : run snapshotStep (ActorStatsRuntime.new source st', boot.statSnapshot) events = some u) :
    (Meets snapshotStep CarriesExperience (ActorStatsRuntime.new source st', boot.statSnapshot) events →
      Along snapshotStep DrainAgrees (ActorStatsRuntime.new source st', boot.statSnapshot) events) ∧
    (Along snapshotStep (fun s => (snapshotStep s .drainSync).isSome)
        (ActorStatsRuntime.new source st', boot.statSnapshot) events →
      Along snapshotStep DrainAgrees (ActorStatsRuntime.new source st', boot.statSnapshot) events →
      Meets snapshotStep CarriesExperience (ActorStatsRuntime.new source st', boot.statSnapshot) events) := by
  obtain ⟨htracks, htold⟩ := tracks_bootstrap hst hboot
  have hkeep : ∀ s e t, (∃ c, Tracks s c) → snapshotStep s e = some t → ∃ c, Tracks t c :=
    fun _ _ _ h ht => tracks_step h ht
  have hiff : Along snapshotStep ToldTrue (ActorStatsRuntime.new source st', boot.statSnapshot) events ↔
      Meets snapshotStep CarriesExperience (ActorStatsRuntime.new source st', boot.statSnapshot) events := by
    refine along_iff_meets (I := fun s => ∃ c, Tracks s c) ?_ htracks htold hrun
    rintro s e t ⟨c, h⟩ hs ht
    exact ⟨tracks_step ⟨c, h⟩ ht, toldTrue_step h hs ht⟩
  rw [← hiff]
  constructor
  · intro hall
    exact hall.of_inv hkeep (fun _ ⟨_, h⟩ hs => drainAgrees_of_toldTrue h hs) htracks
  · intro hdrains hall
    exact (hdrains.and hall).of_inv hkeep (fun _ ⟨_, h⟩ hs => toldTrue_of_drainAgrees h hs.1 hs.2) htracks

end

theorem snapshot_deltas_iff_syncEvents :
    letI := splitMix64Rolls
    ∃ boot st', GameStatsApi.bootstrapSync warriorSource (.new .player : ActorStatState Unit Unit) = some (boot, st') ∧
      Along snapshotStep DrainAgrees (ActorStatsRuntime.new warriorSource st', boot.statSnapshot) syncEvents := by
  let := splitMix64Rolls
  have hruns : (GameStatsApi.bootstrapSync warriorSource (.new .player : ActorStatState Unit Unit)).map (fun b =>
      decide ((run snapshotStep (ActorStatsRuntime.new warriorSource b.2, b.1.statSnapshot) syncEvents).isSome ∧
        Meets snapshotStep CarriesExperience (ActorStatsRuntime.new warriorSource b.2, b.1.statSnapshot) syncEvents)) =
      some true := by
    decide +kernel
  obtain ⟨⟨boot, st'⟩, hboot, hfacts⟩ := Option.map_eq_some_iff.1 hruns
  obtain ⟨hrun, hmeets⟩ := of_decide_eq_true hfacts
  obtain ⟨u, hu⟩ := Option.isSome_iff_exists.1 hrun
  have hst : run apiStep (.new .player : ActorStatState Unit Unit) [] = some (.new .player) := rfl
  exact ⟨boot, st', hboot, (snapshot_deltas_iff hst hboot hu).1 hmeets⟩

/-- Three thousand million points of experience, more than an `i32` holds. -/
def longExperience : List RuntimeEvent := [.mutate (.setPlayerProgression firstLevel 3000000000 4000000000)]

theorem snapshot_deltas_part :
    letI := splitMix64Rolls
    ∃ boot st' u t, GameStatsApi.bootstrapSync warriorSource (.new .player : ActorStatState Unit Unit) =
      some (boot, st') ∧
      run snapshotStep (ActorStatsRuntime.new warriorSource st', boot.statSnapshot) longExperience = some u ∧
      snapshotStep u .drainSync = some t ∧ t.2.get .exp = 2147483647 ∧
      (StatSnapshot.fromState t.1.state).get .exp = 3000000000 ∧ ¬ DrainAgrees u := by
  let := splitMix64Rolls
  have hruns : (GameStatsApi.bootstrapSync warriorSource (.new .player : ActorStatState Unit Unit)).bind (fun b =>
      (run snapshotStep (ActorStatsRuntime.new warriorSource b.2, b.1.statSnapshot) longExperience).bind fun u =>
        (snapshotStep u .drainSync).map fun t => (t.2.get .exp, (StatSnapshot.fromState t.1.state).get .exp)) =
      some (2147483647, 3000000000) := by
    decide +kernel
  obtain ⟨⟨boot, st'⟩, hboot, hrest⟩ := Option.bind_eq_some_iff.1 hruns
  obtain ⟨u, hu, hrest⟩ := Option.bind_eq_some_iff.1 hrest
  obtain ⟨t, ht, hvalues⟩ := Option.map_eq_some_iff.1 hrest
  obtain ⟨hheld, hfresh⟩ := Prod.mk.inj hvalues
  refine ⟨boot, st', u, t, hboot, hu, ht, hheld, hfresh, fun hagrees => ?_⟩
  have hsame := hagrees t ht .exp rfl
  omega

end Zohar.Stats
