/-
A recomputation depends only on what an actor holds now: its stored values, its stable id, its source and
the modifiers of the bundle each source installed last. The bundles in force are read off the history of
operations; the ledger holds exactly them, so the order in which they came and the bundles since replaced
or removed leave no trace.
-/
import Mathlib.Algebra.BigOperators.Finprod
import Zohar.Lib.Run
import Zohar.Stats.Effects

namespace Zohar.Stats

open Zohar.Lib

variable {Source Detail : Type} [LinearOrder Source]

/-! ## Bundles in force -/

/-- The modifiers of the bundle in force for each source; none for a source without one. -/
abbrev Bundles (Source Detail : Type) := Source → List (CompiledModifier Detail)

/-- What one operation does to the bundles in force: only an accepted replacement and a removal count. -/
def Bundles.after (b : Bundles Source Detail) : ApiOp Source Detail → Bundles Source Detail
  | .mutate (.replaceSourceBundle src c) =>
    match validateModifiers c.modifiers with
    | .ok () => Function.update b src c.modifiers
    | .error _ => b
  | .mutate (.removeSourceBundle src) => Function.update b src []
  | _ => b

/-- The last accepted bundle of each source after a history of operations. -/
def installedBundles (ops : List (ActorStatSource × ApiOp Source Detail)) : Bundles Source Detail :=
  ops.foldl (fun b op => b.after op.2) fun _ => []

/-- What a list of modifiers adds to a statistic. -/
def modifierSum (stat : Stat) (ms : List (CompiledModifier Detail)) : Int :=
  ((ms.filter fun m => decide (m.stat = stat)).map (·.amount)).sum

/-- What the bundles in force add to a statistic, over all sources. -/
noncomputable def modifierTotal (b : Bundles Source Detail) (stat : Stat) : Int := ∑ᶠ src, modifierSum stat (b src)

/-! ## The formula -/

/-- Stored values, source values and modifiers of each statistic, as one 32-bit sum. -/
noncomputable def canonicalSeed (source : ActorStatSource) (base : PointValueStore) (b : Bundles Source Detail) :
    PointValueStore :=
  ⟨fun stat => wrapI32 ((applySourceSeed base source).get stat + modifierTotal b stat)⟩

noncomputable def canonicalStore [GrowthRng] (source : ActorStatSource) (base : PointValueStore)
    (stableId : Option UInt64) (b : Bundles Source Detail) : PointValueStore :=
  rebuildDerivedState stableId source (canonicalSeed source base b)

/-! ## Seeding by folding over the ledger -/

def InRange (p : PointValueStore) : Prop := ∀ stat, i32Min ≤ p.get stat ∧ p.get stat ≤ i32Max

theorem inRange_set {p : PointValueStore} (hp : InRange p) {stat : Stat} {v : Int} (hl : i32Min ≤ v) (hh : v ≤ i32Max) :
    InRange (p.set stat v) := by
  intro t
  rw [PointValueStore.get_set]
  split
  · exact ⟨hl, hh⟩
  · exact hp t

theorem inRange_add {p : PointValueStore} (hp : InRange p) (stat : Stat) (d : Int) : InRange (p.add stat d) :=
  inRange_set hp (wrapI32_mem _).1 (wrapI32_mem _).2

theorem inRange_applySourceSeed {p : PointValueStore} (hp : InRange p) (source : ActorStatSource) :
    InRange (applySourceSeed p source) := by
  cases source with
  | player _ => exact hp
  | mob _ => exact inRange_add (inRange_add (inRange_add (inRange_add (inRange_add hp _ _) _ _) _ _) _ _) _ _

/-- The amounts that a list of modifier instances adds to a statistic. -/
def amountsFor (stat : Stat) (l : List (GenericModifierInstance Source Detail)) : List Int :=
  (l.filter fun m => decide (m.stat = stat)).map (·.amount)

omit [LinearOrder Source] in
theorem get_foldl_addModifier (stat : Stat) :
    ∀ (l : List (GenericModifierInstance Source Detail)) (p : PointValueStore),
      (∀ m ∈ l, m.stat.acceptsSourceContribution = true) →
      (l.foldl addModifier p).get stat = (amountsFor stat l).foldl addI32 (p.get stat)
  | [], p, _ => rfl
  | m :: l, p, h => by
    have hm : m.stat.acceptsSourceContribution = true := h m (List.mem_cons_self ..)
    rw [List.foldl_cons, get_foldl_addModifier stat l _ fun x hx => h x (List.mem_cons_of_mem _ hx),
      addModifier, if_pos hm,
      PointValueStore.get_add]
    by_cases hs : m.stat = stat
    · subst hs
      rw [if_pos rfl, amountsFor, amountsFor, List.filter_cons_of_pos (by simp), List.map_cons, List.foldl_cons]
    · rw [if_neg (Ne.symm hs), amountsFor, amountsFor, List.filter_cons_of_neg (by simpa using hs)]

theorem foldl_addI32_of_mem {x : Int} (hl : i32Min ≤ x) (hh : x ≤ i32Max) (l : List Int) :
    l.foldl addI32 x = wrapI32 (x + l.sum) := by
  cases l with
  | nil => rw [List.foldl_nil, List.sum_nil, Int.add_zero, wrapI32_of_mem hl hh]
  | cons a l => exact foldl_addI32 (a :: l) x (List.cons_ne_nil _ _)

/-! ## The ledger holds the bundles in force -/

structure LedgerOk (b : Bundles Source Detail) (st : ActorStatState Source Detail) : Prop where
  entry : ∀ src, st.modifiers.bySource.get? src =
    if b src = [] then none else some ((b src).map (compiledModifierToInstance src))
  accepted : ∀ src, ∀ m ∈ b src, m.stat.acceptsSourceContribution = true
  base : InRange st.base

omit [LinearOrder Source] in
theorem amountsFor_map (stat : Stat) (src : Source) (ms : List (CompiledModifier Detail)) :
    (amountsFor stat (ms.map (compiledModifierToInstance src))).sum = modifierSum stat ms := by
  unfold amountsFor modifierSum
  rw [List.filter_map, List.map_map]
  rfl

omit [LinearOrder Source] in
theorem amountsFor_flatten (stat : Stat) : ∀ ls : List (List (GenericModifierInstance Source Detail)),
    (amountsFor stat ls.flatten).sum = (ls.map fun l => (amountsFor stat l).sum).sum
  | [] => rfl
  | l :: ls => by
    have ih := amountsFor_flatten stat ls
    unfold amountsFor at ih ⊢
    rw [List.flatten_cons, List.filter_append, List.map_append, List.sum_append, ih, List.map_cons, List.sum_cons]

/-- The modifiers of the ledger sum up to those of the bundles in force. -/
theorem sum_iter_eq_modifierTotal {b : Bundles Source Detail} {st : ActorStatState Source Detail} (h : LedgerOk b st)
    (stat : Stat) : (amountsFor stat st.modifiers.iter).sum = modifierTotal b stat := by
  have hentry : ∀ e ∈ st.modifiers.bySource.entries, (amountsFor stat e.2).sum = modifierSum stat (b e.1) := by
    intro e he
    have hg := OrdMap.get?_eq_some_iff.2 he
    rw [h.entry] at hg
    split at hg
    · cases hg
    · rw [← Option.some.inj hg]; exact amountsFor_map stat e.1 (b e.1)
  have hsupport : Function.support (fun src => modifierSum stat (b src)) ⊆
      (st.modifiers.bySource.keys.toFinset : Set Source) := by
    intro src hsrc
    have hne : b src ≠ [] := by
      rintro he
      exact hsrc (by simp [he, modifierSum])
    simp only [Finset.mem_coe, List.mem_toFinset]
    rw [OrdMap.mem_keys_iff, h.entry, if_neg hne]
    rfl
  have hnodup : st.modifiers.bySource.keys.Nodup := st.modifiers.bySource.keys_pairwise.imp ne_of_lt
  calc (amountsFor stat st.modifiers.iter).sum
      = (st.modifiers.bySource.entries.map fun e => (amountsFor stat e.2).sum).sum := by
        rw [GenericModifierLedger.iter, amountsFor_flatten, OrdMap.values, List.map_map]; rfl
    _ = (st.modifiers.bySource.entries.map fun e => modifierSum stat (b e.1)).sum := by
        rw [List.map_congr_left hentry]
    _ = (st.modifiers.bySource.keys.map fun src => modifierSum stat (b src)).sum := by
        rw [OrdMap.keys, List.map_map]; rfl
    _ = ∑ src ∈ st.modifiers.bySource.keys.toFinset, modifierSum stat (b src) := (List.sum_toFinset _ hnodup).symm
    _ = modifierTotal b stat := (finsum_eq_sum_of_support_subset _ hsupport).symm

theorem seedRebuildState_eq {b : Bundles Source Detail} {st : ActorStatState Source Detail} (h : LedgerOk b st)
    (source : ActorStatSource) : seedRebuildState st source = canonicalSeed source st.base b := by
  have hacc : ∀ m ∈ st.modifiers.iter, m.stat.acceptsSourceContribution = true := by
    intro m hm
    obtain ⟨l, hl, hm⟩ := List.mem_flatten.1 hm
    obtain ⟨e, he, rfl⟩ := List.mem_map.1 hl
    have hg := OrdMap.get?_eq_some_iff.2 he
    rw [h.entry] at hg
    split at hg
    · cases hg
    · rw [← Option.some.inj hg] at hm
      obtain ⟨c, hc, rfl⟩ := List.mem_map.1 hm
      exact h.accepted e.1 c hc
  refine PointValueStore.ext_get fun stat => ?_
  have hr := inRange_applySourceSeed h.base source stat
  rw [seedRebuildState, get_foldl_addModifier stat _ _ hacc, foldl_addI32_of_mem hr.1 hr.2,
    sum_iter_eq_modifierTotal h stat]
  rfl

/-! ## Operations keep the ledger -/

theorem inRange_setBaseProjectionStat {s : ActorStatState Source Detail} (hs : InRange s.base) (stat : Stat) {v : Int}
    (hl : i32Min ≤ v) (hh : v ≤ i32Max) : InRange (s.setBaseProjectionStat stat v).base := by
  unfold ActorStatState.setBaseProjectionStat
  split
  · exact inRange_set hs hl hh
  · exact hs

theorem clampU32ToI32_mem (n : Nat) : i32Min ≤ clampU32ToI32 n ∧ clampU32ToI32 n ≤ i32Max := by
  unfold clampU32ToI32 i32Min i32Max; omega

/-- A write keeps the ledger and the range of the stored values. -/
def KeepsLedger (s t : ActorStatState Source Detail) : Prop :=
  t.modifiers = s.modifiers ∧ (InRange s.base → InRange t.base)

theorem keepsLedger_setBaseProjectionStat (s : ActorStatState Source Detail) (stat : Stat) {v : Int}
    (hl : i32Min ≤ v) (hh : v ≤ i32Max) : KeepsLedger s (s.setBaseProjectionStat stat v) := by
  refine ⟨?_, fun hs => inRange_setBaseProjectionStat hs stat hl hh⟩
  unfold ActorStatState.setBaseProjectionStat
  split <;> rfl

theorem writeRel_keepsLedger : WriteRel (@KeepsLedger Source Detail _) where
  refl s := ⟨rfl, id⟩
  trans s t u h1 h2 := ⟨h2.1.trans h1.1, fun h => h2.2 (h1.2 h)⟩
  stored s t stat v hl hh h := by
    unfold ActorStatState.setStoredStat at h
    split at h
    · cases h
    · split at h
      · cases h
      · split at h
        · cases h; exact ⟨rfl, fun hs => inRange_set hs hl hh⟩
        · cases h; exact ⟨rfl, id⟩
  progression s p hp := by
    have hlevel : i32Min ≤ p.normalized.level ∧ p.normalized.level ≤ i32Max := by
      unfold PlayerProgressionState.normalized i32Min i32Max at *; dsimp only; omega
    have hstep : i32Min ≤ p.normalized.levelStep ∧ p.normalized.levelStep ≤ i32Max := by
      have := p.normalized.levelStep_mem
      unfold i32Min i32Max; omega
    have h1 := keepsLedger_setBaseProjectionStat { s with progression := p.normalized } .level hlevel.1 hlevel.2
    have h2 := keepsLedger_setBaseProjectionStat _ .exp (clampU32ToI32_mem p.normalized.expInLevel).1
      (clampU32ToI32_mem p.normalized.expInLevel).2 |>.imp (·.trans h1.1) fun h hs => h (h1.2 hs)
    have h3 := keepsLedger_setBaseProjectionStat _ .nextExp (clampU32ToI32_mem p.normalized.nextExpInLevel).1
      (clampU32ToI32_mem p.normalized.nextExpInLevel).2 |>.imp (·.trans h2.1) fun h hs => h (h2.2 hs)
    exact keepsLedger_setBaseProjectionStat _ .levelStep hstep.1 hstep.2 |>.imp (·.trans h3.1) fun h hs => h (h3.2 hs)
  resource s t stat v h := by
    unfold ActorStatState.setResourceStat at h
    cases stat <;> first
      | cases h
      | (simp only at h; split at h <;> cases h <;> exact ⟨rfl, id⟩)
  flags s flags := by
    unfold ActorStatState.setExternalImmuneFlags
    split <;> exact ⟨rfl, id⟩
  stableId s id := by
    unfold ActorStatState.setStableId
    split <;> exact ⟨rfl, fun h => h⟩

theorem ledgerOk_replace {b : Bundles Source Detail} {st : ActorStatState Source Detail} (h : LedgerOk b st)
    (src : Source) {ms : List (CompiledModifier Detail)} (hms : ∀ m ∈ ms, m.stat.acceptsSourceContribution = true) :
    LedgerOk (Function.update b src ms) (st.replaceModifierSource src (ms.map (compiledModifierToInstance src))) where
  entry k := by
    show (st.modifiers.replaceSource src (ms.map (compiledModifierToInstance src))).bySource.get? k = _
    unfold GenericModifierLedger.replaceSource
    split
    · rename_i hm
      have he : ms = [] := List.map_eq_nil_iff.1 (List.isEmpty_iff.1 hm)
      rw [OrdMap.get?_erase, h.entry]
      by_cases hk : k = src
      · subst hk; simp [he]
      · rw [if_neg hk, Function.update_of_ne hk]
    · rename_i hm
      have he : ms ≠ [] := fun he => hm (by simp [he])
      rw [OrdMap.get?_insert, h.entry]
      by_cases hk : k = src
      · subst hk; simp [he]
      · rw [if_neg hk, Function.update_of_ne hk]
  accepted k m hm := by
    by_cases hk : k = src
    · subst hk; rw [Function.update_self] at hm; exact hms m hm
    · rw [Function.update_of_ne hk] at hm; exact h.accepted k m hm
  base := h.base

theorem ledgerOk_remove {b : Bundles Source Detail} {st : ActorStatState Source Detail} (h : LedgerOk b st)
    (src : Source) : LedgerOk (Function.update b src []) (st.removeModifierSource src) where
  entry k := by
    show (st.modifiers.removeSource src).bySource.get? k = _
    rw [GenericModifierLedger.removeSource, OrdMap.get?_erase, h.entry]
    by_cases hk : k = src
    · subst hk; simp
    · rw [if_neg hk, Function.update_of_ne hk]
  accepted k m hm := by
    by_cases hk : k = src
    · subst hk; rw [Function.update_self] at hm; cases hm
    · rw [Function.update_of_ne hk] at hm; exact h.accepted k m hm
  base := h.base

theorem validateModifiers_ok : ∀ {ms : List (CompiledModifier Detail)}, validateModifiers ms = .ok () →
    ∀ m ∈ ms, m.stat.acceptsSourceContribution = true
  | [], _, _, hm => by cases hm
  | a :: ms, h, m, hm => by
    rw [validateModifiers] at h
    split at h
    · cases h
    · rename_i ha
      rcases List.mem_cons.1 hm with rfl | hm
      · unfold validateModifierStat at ha
        split at ha
        · cases ha
        · split at ha
          · assumption
          · cases ha
      · exact validateModifiers_ok h m hm

/-- A recomputation keeps everything it is computed from. -/
theorem ledgerOk_recomputed [GrowthRng] {b : Bundles Source Detail} {st : ActorStatState Source Detail}
    (h : LedgerOk b st) (source : ActorStatSource) (r : ActorResources) :
    LedgerOk b (GameStatsApi.recomputed source st r) :=
  ⟨h.entry, h.accepted, h.base⟩

theorem mutate_ledgerOk {b : Bundles Source Detail} {source : ActorStatSource} {st t : ActorStatState Source Detail}
    {m : Mutator Source Detail} (h : LedgerOk b st) (hm : GameStatsApi.mutate source st m = some t) :
    LedgerOk (b.after (.mutate m)) t := by
  rcases GameStatsApi.mutate_cases writeRel_keepsLedger hm with
    ⟨hk, hr, hx⟩ | ⟨src, c, e, rfl, hv, rfl⟩ | ⟨src, c, rfl, hv, rfl⟩ | ⟨src, rfl, rfl⟩
  · have hb : b.after (.mutate m) = b := by
      cases m <;> first | rfl | exact absurd rfl (hr _ _) | exact absurd rfl (hx _)
    rw [hb]
    exact ⟨fun src => by rw [hk.1, h.entry], h.accepted, hk.2 h.base⟩
  · simpa only [Bundles.after, hv] using h
  · simpa only [Bundles.after, hv] using ledgerOk_replace h src (validateModifiers_ok hv)
  · exact ledgerOk_remove h src

section
variable [GrowthRng]

theorem apply_ledgerOk {b : Bundles Source Detail} {source : ActorStatSource} {st t : ActorStatState Source Detail}
    {op : ApiOp Source Detail} (h : LedgerOk b st) (ha : GameStatsApi.apply source st op = some t) :
    LedgerOk (b.after op) t := by
  rcases GameStatsApi.apply_cases ha with ⟨m, rfl, hm⟩ | ⟨hop, rest⟩
  · exact mutate_ledgerOk h hm
  · have hb : b.after op = b := by
      cases op <;> first | rfl | exact absurd rfl (hop _)
    rw [hb]
    rcases rest with rfl | ⟨report, hr⟩
    · exact h
    · obtain ⟨r, _, rfl, _⟩ := GameStatsApi.recomputeReport_eq_some hr
      exact ledgerOk_recomputed h source r

/-- A history of operations, each through an interface opened with its own source. -/
def apiStep (st : ActorStatState Source Detail) (op : ActorStatSource × ApiOp Source Detail) :
    Option (ActorStatState Source Detail) :=
  GameStatsApi.apply op.1 st op.2

/-- From a state that holds the bundles `b`, a history ends in a state that holds `b` as the history changes them. -/
theorem run_ledgerOk : ∀ (ops : List (ActorStatSource × ApiOp Source Detail)) {b : Bundles Source Detail}
    {st t : ActorStatState Source Detail}, LedgerOk b st → run apiStep st ops = some t →
    LedgerOk (ops.foldl (fun b op => b.after op.2) b) t
  | [], _, _, _, h, hr => by cases hr; exact h
  | op :: ops, b, st, u, h, hr => by
    obtain ⟨t, ht, hr⟩ := (run_cons_eq_some apiStep).1 hr
    exact run_ledgerOk ops (apply_ledgerOk h ht) hr

omit [GrowthRng] in
theorem ledgerOk_new (kind : ActorKind) :
    LedgerOk (fun _ => []) (ActorStatState.new kind : ActorStatState Source Detail) where
  entry _ := rfl
  accepted _ _ hm := by cases hm
  base stat := by
    show i32Min ≤ 0 ∧ (0 : Int) ≤ i32Max
    decide

/-! ## Recomputation is canonical -/

theorem derivedStore_eq {b : Bundles Source Detail} {st : ActorStatState Source Detail} (h : LedgerOk b st)
    (source : ActorStatSource) : GameStatsApi.derivedStore source st = canonicalStore source st.base st.stableId b := by
  rw [GameStatsApi.derivedStore, seedRebuildState_eq h]
  rfl

/-- Recomputing a recomputed state changes nothing and reports nothing. -/
theorem recomputeReport_recomputed {source : ActorStatSource} {st t : ActorStatState Source Detail}
    {report : StatRecomputeReport} (h : GameStatsApi.recomputeReport source st = some (report, t)) :
    ∃ report', GameStatsApi.recomputeReport source t = some (report', t) ∧ report'.changes = ∅ := by
  obtain ⟨r, hr, rfl, _⟩ := GameStatsApi.recomputeReport_eq_some h
  obtain ⟨h1, h2, h3, -, -⟩ := GameStatsApi.clampToCaps_eq_some hr
  -- the clamped resources are within the capacities, so clamping them again keeps them
  have hc : r.clampToCaps (GameStatsApi.derivedStore source st) = some r := by
    unfold ActorResources.clampToCaps
    simp only [clamp?_clamp? h1, clamp?_clamp? h2, clamp?_clamp? h3, Option.bind_eq_bind, Option.bind_some,
      Option.pure_def]
  have hd : GameStatsApi.derivedStore source (GameStatsApi.recomputed source st r) =
    GameStatsApi.derivedStore source st := rfl
  rw [GameStatsApi.recomputeReport_eq, hd]
  refine ⟨_, Option.map_eq_some_iff.2 ⟨r, hc, rfl⟩, ?_⟩
  show diffStore (GameStatsApi.derivedStore source st) (GameStatsApi.derivedStore source st) ∪
    resourceChanges r r ∪ ∅ = ∅
  simp [resourceChanges]

/-- After any history, the recomputed store is the formula applied to the stored values, the stable id, the source and
the bundles in force. Two histories that agree on these end in the same store, a refused bundle changes nothing, and a
second recomputation reports no change. -/
theorem recompute_canonical {kind : ActorKind} {ops : List (ActorStatSource × ApiOp Source Detail)}
    {source : ActorStatSource} {st t : ActorStatState Source Detail} {report : StatRecomputeReport}
    (hrun : run apiStep (ActorStatState.new kind) ops = some st)
    (hrec : GameStatsApi.recomputeReport source st = some (report, t)) :
    t.computed = canonicalStore source st.base st.stableId (installedBundles ops) ∧
      (∀ (kind' : ActorKind) (ops' : List (ActorStatSource × ApiOp Source Detail))
        (st' t' : ActorStatState Source Detail)
        (report' : StatRecomputeReport), run apiStep (ActorStatState.new kind') ops' = some st' →
        GameStatsApi.recomputeReport source st' = some (report', t') → st'.base = st.base → st'.stableId = st.stableId →
        installedBundles ops' = installedBundles ops → t'.computed = t.computed) ∧
      (∀ (src : Source) (c : CompiledStatContribution Detail) (e : SourceBundleError)
        (u : ActorStatState Source Detail),
        (GameStatsApi.replaceSourceBundle src c).run st = some (.error e, u) → u = st) ∧
      ∃ report', GameStatsApi.recomputeReport source t = some (report', t) ∧ report'.changes = ∅ := by
  have canonical : ∀ {kind : ActorKind} {ops : List (ActorStatSource × ApiOp Source Detail)}
      {st t : ActorStatState Source Detail} {report : StatRecomputeReport},
      run apiStep (ActorStatState.new kind) ops = some st → GameStatsApi.recomputeReport source st = some (report, t) →
      t.computed = canonicalStore source st.base st.stableId (installedBundles ops) := by
    intro kind ops st t report hrun hrec
    obtain ⟨r, _, rfl, _⟩ := GameStatsApi.recomputeReport_eq_some hrec
    exact derivedStore_eq (run_ledgerOk ops (ledgerOk_new kind) hrun) source
  refine ⟨canonical hrun hrec, ?_, ?_, recomputeReport_recomputed hrec⟩
  · intro kind' ops' st' t' report' hrun' hrec' hbase hid hops
    rw [canonical hrun' hrec', canonical hrun hrec, hbase, hid, hops]
  · intro src c e u hu
    rcases GameStatsApi.replaceSourceBundle_eq_some hu with ⟨_, _, _, hu⟩ | ⟨hr, _, _⟩
    · exact hu
    · cases hr

end

def firstLevel : I32 := ⟨1, by decide⟩

/-- Two sources, one with a replaced bundle and one with a removed one. -/
def bundleHistory : List (ActorStatSource × ApiOp Nat Unit) :=
  [(warriorSource, .mutate (.setPlayerProgression firstLevel 0 300)),
   (warriorSource, .mutate (.replaceSourceBundle 2 ⟨[⟨.ht, 4, ()⟩]⟩)),
   (warriorSource, .mutate (.replaceSourceBundle 1 ⟨[⟨.st, 7, ()⟩]⟩)),
   (warriorSource, .mutate (.replaceSourceBundle 1 ⟨[⟨.st, 3, ()⟩, ⟨.movSpeed, 20, ()⟩]⟩)),
   (warriorSource, .mutate (.removeSourceBundle 2))]

theorem recompute_canonical_bundleHistory :
    letI := splitMix64Rolls
    ∃ st t report, run apiStep (ActorStatState.new .player) bundleHistory = some st ∧
      GameStatsApi.recomputeReport warriorSource st = some (report, t) ∧
      t.computed = canonicalStore warriorSource st.base st.stableId (installedBundles bundleHistory) := by
  let := splitMix64Rolls
  have hrun : (run apiStep (ActorStatState.new .player) bundleHistory).isSome := by decide
  have hrec : ((run apiStep (ActorStatState.new .player) bundleHistory).bind
      (GameStatsApi.recomputeReport warriorSource)).isSome := by decide
  obtain ⟨st, hst⟩ := Option.isSome_iff_exists.1 hrun
  rw [hst, Option.bind_some] at hrec
  obtain ⟨⟨report, t⟩, hr⟩ := Option.isSome_iff_exists.1 hrec
  exact ⟨st, t, report, hst, hr, (recompute_canonical hst hr).1⟩

end Zohar.Stats
