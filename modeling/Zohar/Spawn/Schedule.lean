/-
When a rule comes to its turn. A rule below its cap must carry an instant that is in the heap, or nothing ever calls
it again.
-/
import Zohar.Spawn.Rules

namespace Zohar.Spawn

open Zohar.Lib Zohar.Replication

/-- Every rule below its cap has an attempt ahead. -/
def SpawnWorld.Scheduled (w : SpawnWorld) : Prop :=
  ∀ i r, w.rules[i]? = some r → r.activeInstances < r.rule.maxCount →
    ∃ t, r.respawnAt = some t ∧ toLex (t, i) ∈ w.scheduledSpawns

section
variable {cfg : SpawnConfig} {w w' : SpawnWorld}

theorem SpawnWorld.setRule_rules (w : SpawnWorld) (i j : Nat) (f : SpawnRuleState → SpawnRuleState) :
    (w.setRule i f).rules[j]? = if i = j then w.rules[j]?.map f else w.rules[j]? := by
  rw [SpawnWorld.setRule, List.getElem?_modify]
  split <;> simp

theorem SpawnWorld.addInstance_rules (w : SpawnWorld) (i j : Nat) (members : List SpawnedMob) :
    (w.addInstance i members).rules[j]? =
      if i = j then w.rules[j]?.map fun r => { r with
        entities := r.entities ++ members.map (·.netId)
        activeInstances := r.activeInstances + 1 } else w.rules[j]? :=
  w.setRule_rules i j _

/-! ## The loop ends -/

/-- All but the rule itself stays as it is. -/
structure FillFrame (i : Nat) (w w' : SpawnWorld) : Prop where
  heap : w'.scheduledSpawns = w.scheduledSpawns
  length : w'.rules.length = w.rules.length
  others : ∀ j, j ≠ i → w'.rules[j]? = w.rules[j]?

theorem fillRule_frame {rule : SpawnRule} {i n : Nat} {rolls rolls' : List SpawnRoll}
    (h : fillRule cfg rule i n w rolls = some (w', rolls')) : FillFrame i w w' := by
  obtain ⟨_, _, hP⟩ := fillRule_induction (i := i) (P := fun _ w' => FillFrame i w w')
    (fun n w w' hP hb => ⟨hb.scheduledSpawns.trans hP.heap, by rw [hb.rules, hP.length],
      fun j hj => by rw [hb.rules, hP.others j hj]⟩)
    (fun n w w' members hP hb _ _ => by
      refine ⟨hb.scheduledSpawns.trans hP.heap, ?_, fun j hj => ?_⟩
      · rw [← hP.length, ← hb.rules]
        exact List.length_modify ..
      · rw [SpawnWorld.addInstance_rules, if_neg (Ne.symm hj), hb.rules, hP.others j hj])
    n w rolls ⟨rfl, rfl, fun _ _ => rfl⟩ h
  exact hP

theorem fillRule_rolls {rule : SpawnRule} {i : Nat} : ∀ {n : Nat} {w w' : SpawnWorld} {rolls rolls' : List SpawnRoll},
    fillRule cfg rule i n w rolls = some (w', rolls') → rolls'.length + min n 1 ≤ rolls.length
  | 0, w, w', rolls, rolls', h => by
    cases h
    simp
  | n + 1, w, w', [], rolls', h => by cases h
  | n + 1, w, w', roll :: rolls, rolls', h => by
    simp only [fillRule] at h
    split at h
    · cases h
      simp
    · have := fillRule_rolls h
      simp only [List.length_cons]
      omega

theorem rescheduleRule_heap (w : SpawnWorld) (i : Nat) :
    (rescheduleRule w i).scheduledSpawns.toList.length ≤ w.scheduledSpawns.toList.length + 1 := by
  unfold rescheduleRule
  split
  · exact Nat.le_succ _
  · split
    · exact (MinHeap.length_push _ _).le
    · exact Nat.le_succ _

/-- A turn that puts an entry back has used a roll. -/
theorem spawnEntry_measure {t i : Nat} {rolls rolls' : List SpawnRoll}
    (h : spawnEntry cfg w t i rolls = some (w', rolls')) :
    w'.scheduledSpawns.toList.length + rolls'.length ≤ w.scheduledSpawns.toList.length + rolls.length := by
  unfold spawnEntry at h
  split at h
  · cases h
    exact le_rfl
  · split at h
    · cases h
      exact le_rfl
    · split at h
      · cases h
        exact le_rfl
      · rename_i r hr hdue hcap
        obtain ⟨⟨w1, rolls1⟩, hfill, heq⟩ := Option.map_eq_some_iff.1 h
        cases heq
        have hheap := rescheduleRule_heap w1 i
        rw [(fillRule_frame hfill).heap] at hheap
        have hrolls := fillRule_rolls hfill
        omega

theorem spawnLoop_ne_outOfFuel : ∀ (fuel : Nat) (w : SpawnWorld) (rolls : List SpawnRoll),
    w.scheduledSpawns.toList.length + rolls.length < fuel → spawnLoop cfg fuel w rolls ≠ .error .outOfFuel
  | 0, w, rolls, h => absurd h (Nat.not_lt_zero _)
  | fuel + 1, w, rolls, h => by
    simp only [spawnLoop]
    split
    · simp
    · rename_i entry hpeek
      split
      · simp
      · split
        · simp
        · rename_i w1 rolls1 hentry
          have hm := spawnEntry_measure hentry
          have hp := MinHeap.length_pop hpeek
          dsimp only at hm
          exact spawnLoop_ne_outOfFuel fuel w1 rolls1 (by omega)

/-- `spawn_rules` ends, also where the clock is at its last instant and a failed attempt is due again at once. -/
theorem spawnRules_ne_outOfFuel (w : SpawnWorld) (rolls : List SpawnRoll) :
    spawnRules cfg w rolls ≠ .error .outOfFuel :=
  spawnLoop_ne_outOfFuel _ w rolls (Nat.lt_succ_self _)

/-! ## Ticks and cleanups keep the schedule -/

theorem rescheduleRule_scheduled {i : Nat}
    (h : ∀ j r, j ≠ i → w.rules[j]? = some r → r.activeInstances < r.rule.maxCount →
      ∃ t, r.respawnAt = some t ∧ toLex (t, j) ∈ w.scheduledSpawns) : (rescheduleRule w i).Scheduled := by
  intro j r hr hlt
  unfold rescheduleRule at hr ⊢
  cases hi : w.rules[i]? with
  | none =>
    simp only [hi] at hr ⊢
    by_cases hj : j = i
    · subst hj
      rw [hi] at hr
      cases hr
    · exact h j r hj hr hlt
  | some ri =>
    simp only [hi] at hr ⊢
    by_cases hj : j = i
    · subst hj
      split at hr
      · rename_i hbelow
        simp only [SpawnWorld.schedule, SpawnWorld.setRule_rules, if_true, hi, Option.map_some, Option.some.injEq] at hr
        subst hr
        rw [if_pos hbelow]
        exact ⟨_, rfl, MinHeap.mem_push.2 (.inl rfl)⟩
      · rename_i hfull
        simp only [SpawnWorld.setRule_rules, if_true, hi, Option.map_some, Option.some.injEq] at hr
        subst hr
        exact absurd hlt hfull
    · split at hr
      · rename_i hbelow
        simp only [SpawnWorld.schedule, SpawnWorld.setRule_rules, if_neg (Ne.symm hj)] at hr
        obtain ⟨t, ht, hmem⟩ := h j r hj hr hlt
        rw [if_pos hbelow]
        exact ⟨t, ht, MinHeap.mem_push.2 (.inr hmem)⟩
      · rename_i hfull
        simp only [SpawnWorld.setRule_rules, if_neg (Ne.symm hj)] at hr
        rw [if_neg hfull]
        exact h j r hj hr hlt

theorem spawnEntry_scheduled {t i : Nat} {rolls rolls' : List SpawnRoll}
    (h : ∀ j r, w.rules[j]? = some r → r.activeInstances < r.rule.maxCount →
      ∃ u, r.respawnAt = some u ∧ (toLex (u, j) ∈ w.scheduledSpawns ∨ (u, j) = (t, i)))
    (hs : spawnEntry cfg w t i rolls = some (w', rolls')) : w'.Scheduled := by
  have hothers : ∀ j r, j ≠ i → w.rules[j]? = some r → r.activeInstances < r.rule.maxCount →
      ∃ u, r.respawnAt = some u ∧ toLex (u, j) ∈ w.scheduledSpawns := by
    intro j r hj hr hlt
    obtain ⟨u, hu, hmem | heq⟩ := h j r hr hlt
    · exact ⟨u, hu, hmem⟩
    · exact absurd (Prod.mk.inj heq).2 hj
  unfold spawnEntry at hs
  split at hs
  · rename_i hnone
    cases hs
    intro j r hr hlt
    refine hothers j r ?_ hr hlt
    rintro rfl
    rw [hnone] at hr
    cases hr
  · rename_i ri hi
    split at hs
    · -- the entry is stale: the rule's own is another one
      rename_i hstale
      cases hs
      intro j r hr hlt
      obtain ⟨u, hu, hmem | heq⟩ := h j r hr hlt
      · exact ⟨u, hu, hmem⟩
      · obtain ⟨rfl, rfl⟩ := Prod.mk.inj heq
        rw [hi] at hr
        cases hr
        exact absurd hu hstale
    · split at hs
      · rename_i hcap
        cases hs
        intro j r hr hlt
        rw [SpawnWorld.setRule_rules] at hr
        split at hr
        · rename_i hij
          subst hij
          rw [hi] at hr
          cases hr
          exact absurd hlt (not_lt.2 hcap)
        · rename_i hij
          exact hothers j r (Ne.symm hij) hr hlt
      · obtain ⟨⟨w1, rolls1⟩, hfill, heq⟩ := Option.map_eq_some_iff.1 hs
        cases heq
        obtain ⟨hheap, _, hrules⟩ := fillRule_frame hfill
        refine rescheduleRule_scheduled fun j r hj hr hlt => ?_
        rw [hrules j hj] at hr
        rw [hheap]
        exact hothers j r hj hr hlt

theorem spawnLoop_scheduled : ∀ {fuel : Nat} {w w' : SpawnWorld} {rolls rolls' : List SpawnRoll}, w.Scheduled →
    spawnLoop cfg fuel w rolls = .ok (w', rolls') → w'.Scheduled
  | 0, w, w', rolls, rolls', _, hs => by cases hs
  | fuel + 1, w, w', rolls, rolls', h, hs => by
    simp only [spawnLoop] at hs
    split at hs
    · cases hs
      exact h
    · rename_i entry hpeek
      split at hs
      · cases hs
        exact h
      · split at hs
        · cases hs
        · rename_i w1 rolls1 hentry
          refine spawnLoop_scheduled (spawnEntry_scheduled (fun j r hr hlt => ?_) hentry) hs
          obtain ⟨u, hu, hmem⟩ := h j r hr hlt
          refine ⟨u, hu, ?_⟩
          by_cases he : toLex (u, j) = entry
          · exact .inr (by rw [← he]; rfl)
          · exact .inl (MinHeap.mem_pop hpeek hmem he)

theorem releaseMobSpawnSlot_scheduled (h : w.Scheduled) (id : EntityId) : (releaseMobSpawnSlot w id).Scheduled := by
  unfold releaseMobSpawnSlot
  split
  · exact h
  · split
    · exact h
    · rename_i i _ ri hi
      intro j r hr hlt
      simp only [SpawnWorld.schedule, SpawnWorld.setRule_rules] at hr ⊢
      split at hr
      · rename_i hij
        subst hij
        rw [hi] at hr
        cases hr
        exact ⟨_, rfl, MinHeap.mem_push.2 (.inl rfl)⟩
      · obtain ⟨t, ht, hmem⟩ := h j r hr hlt
        exact ⟨t, ht, MinHeap.mem_push.2 (.inr hmem)⟩

theorem spawnStep_scheduled {ev : SpawnEvent} (h : w.Scheduled) (hev : ∀ rolls, ev ≠ .preload rolls)
    (hs : spawnStep cfg w ev = some w') : w'.Scheduled := by
  cases ev with
  | preload rolls => exact absurd rfl (hev rolls)
  | tick now rolls =>
    simp only [spawnStep] at hs
    split at hs
    · rename_i w1 hloop
      cases hs
      exact spawnLoop_scheduled (w := { w with simNow := now }) h hloop
    · cases hs
  | cleanup mob =>
    simp only [spawnStep, destroyMobEntity] at hs
    split at hs
    · cases hs
      exact releaseMobSpawnSlot_scheduled h mob.netId
    · cases hs
  | reserveNetId =>
    cases hs
    exact h

/-! ## The preload -/

/-- The first member of the template has a prototype and finds a place. -/
def SpawnRule.yields (cfg : SpawnConfig) (rule : SpawnRule) (roll : SpawnRoll) : Bool :=
  match expandSpawnTemplate rule.template roll.ticket with
  | [] => false
  | mobId :: _ => roll.places.headD false && mobId ∈ cfg.mobs

/-- Every attempt of the preload yields a mob: each rule in turn makes as many as its cap. -/
def PreloadYields (cfg : SpawnConfig) : List SpawnRule → List SpawnRoll → Prop
  | [], _ => True
  | rule :: rules, rolls =>
    (∀ roll ∈ rolls.take rule.maxCount, rule.yields cfg roll) ∧ PreloadYields cfg rules (rolls.drop rule.maxCount)

theorem spawnOneTemplate_eq_nil {rule : SpawnRule} {roll : SpawnRoll} :
    (spawnOneTemplate cfg w rule roll).1 = [] ↔ ¬ rule.yields cfg roll := by
  unfold spawnOneTemplate SpawnRule.yields
  cases expandSpawnTemplate rule.template roll.ticket with
  | nil => simp [spawnMembers]
  | cons mobId mobIds =>
    simp only [spawnMembers, spawnOneMob]
    generalize roll.places.headD false = place
    cases place with
    | false => simp
    | true => by_cases hmob : mobId ∈ cfg.mobs <;> simp [hmob]

-- the weights come to 2^32, which is 0 in the code's u32: no group is picked
example : SpawnRule.yields ⟨[⟨101⟩]⟩ ⟨.groupGroup [⟨[⟨101⟩], 4294967295⟩, ⟨[⟨101⟩], 1⟩], 1, 60000⟩
    ⟨0, [true]⟩ = false := by
  decide

/-- A fill goes all the way exactly if all its attempts yield a mob. -/
theorem fillRule_active {rule : SpawnRule} {i : Nat} : ∀ {n : Nat} {w w' : SpawnWorld} {rolls rolls' : List SpawnRoll}
    {r : SpawnRuleState}, fillRule cfg rule i n w rolls = some (w', rolls') → w.rules[i]? = some r →
    ∃ r', w'.rules[i]? = some r' ∧ r'.rule = r.rule ∧
      ((∀ roll ∈ rolls.take n, rule.yields cfg roll) ∧ r'.activeInstances = r.activeInstances + n ∧
        rolls' = rolls.drop n ∨
        ¬ (∀ roll ∈ rolls.take n, rule.yields cfg roll) ∧ r'.activeInstances < r.activeInstances + n)
  | 0, w, w', rolls, rolls', r, h, hr => by
    cases h
    exact ⟨r, hr, rfl, .inl ⟨by simp, rfl, rfl⟩⟩
  | n + 1, w, w', [], rolls', r, h, hr => by cases h
  | n + 1, w, w', roll :: rolls, rolls', r, h, hr => by
    have hyields : (spawnOneTemplate cfg w rule roll).1 = [] ↔ ¬ rule.yields cfg roll := spawnOneTemplate_eq_nil
    obtain ⟨hb, _⟩ := @spawnOneTemplate_spec cfg w rule roll
    simp only [fillRule] at h
    generalize spawnOneTemplate cfg w rule roll = result at hb hyields h
    obtain ⟨members, w1⟩ := result
    rw [List.take_succ_cons, List.drop_succ_cons]
    simp only [List.forall_mem_cons]
    cases members with
    | nil =>
      cases h
      refine ⟨r, by rw [hb.rules]; exact hr, rfl, .inr ⟨fun hall => hyields.1 rfl hall.1, by omega⟩⟩
    | cons mob mobs =>
      have hroll : rule.yields cfg roll = true := by
        by_contra hno
        cases hyields.2 hno
      have hr1 : (w1.addInstance i (mob :: mobs)).rules[i]? = some { r with
          entities := r.entities ++ (mob :: mobs).map (·.netId)
          activeInstances := r.activeInstances + 1 } := by
        rw [SpawnWorld.addInstance_rules, if_pos rfl, hb.rules, hr, Option.map_some]
      obtain ⟨r', hr', hrule, hcase⟩ := fillRule_active h hr1
      refine ⟨r', hr', hrule, ?_⟩
      simp only [hroll, true_and] at hcase ⊢
      rcases hcase with ⟨hall, hactive, hrolls⟩ | ⟨hno, hlt⟩
      · exact .inl ⟨hall, by rw [hactive]; omega, hrolls⟩
      · exact .inr ⟨hno, by omega⟩

/-- The preload from the `k`-th rule on, where none of these has an instance yet. -/
theorem preloadRules_full : ∀ (n k : Nat) {w w' : SpawnWorld} {rolls rolls' : List SpawnRoll}, w.rules.length = k + n →
    (∀ j r, k ≤ j → w.rules[j]? = some r → r.activeInstances = 0) →
    preloadRules cfg (List.range' k n) w rolls = some (w', rolls') →
    (∀ j, j < k → w'.rules[j]? = w.rules[j]?) ∧
      ((∀ j r, k ≤ j → w'.rules[j]? = some r → r.rule.maxCount ≤ r.activeInstances) ↔
        PreloadYields cfg ((w.rules.drop k).map SpawnRuleState.rule) rolls)
  | 0, k, w, w', rolls, rolls', hlen, hzero, h => by
    cases h
    refine ⟨fun _ _ => rfl, ?_⟩
    rw [List.drop_eq_nil_of_le (by omega)]
    refine iff_of_true (fun j r hj hr => ?_) trivial
    have := (List.getElem?_eq_some_iff.1 hr).1
    omega
  | n + 1, k, w, w', rolls, rolls', hlen, hzero, h => by
    have hk : k < w.rules.length := by omega
    have hr : w.rules[k]? = some w.rules[k] := List.getElem?_eq_getElem hk
    generalize w.rules[k] = r at hr
    simp only [List.range'_succ, preloadRules, hr] at h
    obtain ⟨⟨w1, rolls1⟩, hfill, h⟩ := Option.bind_eq_some_iff.1 h
    obtain ⟨r1, hr1, hrule, hcase⟩ := fillRule_active hfill hr
    obtain ⟨_, hlen1, hothers⟩ := fillRule_frame hfill
    have hactive := hzero k r le_rfl hr
    dsimp only at h hr1
    obtain ⟨hkept, hrest⟩ := preloadRules_full n (k + 1) (by omega)
      (fun j q hj hq => hzero j q (by omega) (by rw [← hothers j (by omega)]; exact hq)) h
    have hk' : w'.rules[k]? = some r1 := (hkept k (Nat.lt_succ_self k)).trans hr1
    have hdrop : (w.rules.drop k).map SpawnRuleState.rule = r.rule ::
        (w1.rules.drop (k + 1)).map SpawnRuleState.rule := by
      rw [← List.map_cons]
      congr 1
      refine List.ext_getElem? fun j => ?_
      cases j with
      | zero => simpa using hr
      | succ j =>
        rw [List.getElem?_drop, List.getElem?_cons_succ, List.getElem?_drop, hothers _ (by omega)]
        congr 1
        omega
    refine ⟨fun j hj => (hkept j (by omega)).trans (hothers j (by omega)), ?_⟩
    rw [hdrop, PreloadYields]
    rcases hcase with ⟨hall, hfull, rfl⟩ | ⟨hno, hlt⟩
    · have hcap : r1.rule.maxCount = r1.activeInstances := by rw [hrule, hfull, hactive]; omega
      rw [hactive, Nat.sub_zero] at hall hrest
      rw [← hrest]
      refine ⟨fun hfulls => ⟨hall, fun j q hj hq => hfulls j q (by omega) hq⟩, fun hfulls j q hj hq => ?_⟩
      by_cases hjk : j = k
      · subst hjk
        obtain rfl := Option.some.inj (hk'.symm.trans hq)
        exact hcap.le
      · exact hfulls.2 j q (by omega) hq
    · refine iff_of_false (fun hall => ?_) fun hyields => ?_
      · have := hall k r1 le_rfl hk'
        rw [hrule] at this
        omega
      · rw [hactive, Nat.sub_zero] at hno
        exact hno hyields.1

theorem SpawnWorld.start_rules (rules : List SpawnRule) (now : Nat) :
    (SpawnWorld.start rules now).rules.map SpawnRuleState.rule = rules := by
  simp [SpawnWorld.start, List.map_map, Function.comp_def]

/-- After the bootstrap nothing is scheduled, so that it all depends on the preload. -/
theorem bootstrapMapRuntime_scheduled {rules : List SpawnRule} {now : Nat} {rolls rolls' : List SpawnRoll}
    (h : bootstrapMapRuntime cfg rules now rolls = some (w, rolls')) : w.Scheduled ↔ PreloadYields cfg rules rolls := by
  obtain ⟨⟨w1, rolls1⟩, hpre, heq⟩ := Option.map_eq_some_iff.1 h
  cases heq
  have hlen : (SpawnWorld.start rules now).rules.length = rules.length := by simp [SpawnWorld.start]
  rw [hlen, List.range_eq_range'] at hpre
  have hzero : ∀ j r, 0 ≤ j → (SpawnWorld.start rules now).rules[j]? = some r → r.activeInstances = 0 := by
    intro j r _ hr
    simp only [SpawnWorld.start, List.getElem?_map, Option.map_eq_some_iff] at hr
    obtain ⟨rule, _, rfl⟩ := hr
    rfl
  obtain ⟨_, hfull⟩ := preloadRules_full rules.length 0 (by rw [hlen, Nat.zero_add]) hzero hpre
  rw [List.drop_zero, SpawnWorld.start_rules] at hfull
  rw [← hfull]
  constructor
  · intro hs j r _ hr
    by_contra hlt
    obtain ⟨t, ht, _⟩ := hs j { r with respawnAt := none } (by simp [hr]) (not_le.1 hlt)
    cases ht
  · intro hall j r hr hlt
    simp only [List.getElem?_map, Option.map_eq_some_iff] at hr
    obtain ⟨q, hq, rfl⟩ := hr
    exact absurd hlt (not_lt.2 (hall j q (Nat.zero_le j) hq))

/-- For every list of rules, every clock and every outcome of the attempts: no rule goes dormant below its cap in any
run of ticks and cleanups after the bootstrap, if and only if every attempt of the preload yields a mob. -/
theorem no_dormant_rule {rules : List SpawnRule} {now : Nat} {rolls rolls' : List SpawnRoll}
    (h : bootstrapMapRuntime cfg rules now rolls = some (w, rolls')) :
    (∀ es w', (∀ ev ∈ es, ∀ rolls, ev ≠ SpawnEvent.preload rolls) → run (spawnStep cfg) w es = some w' → w'.Scheduled) ↔
      PreloadYields cfg rules rolls := by
  rw [← bootstrapMapRuntime_scheduled h]
  constructor
  · intro hall
    exact hall [] w (by simp) rfl
  · intro hs es w' hes hr
    refine run_inv_of_meets (C := fun _ ev => ∀ rolls, ev ≠ SpawnEvent.preload rolls) (fun _ _ _ hI hC hstep => ?_) hs
      (.of_forall hes) hr
    exact spawnStep_scheduled hI hC hstep

end

/-! ## The runs -/

def wolfConfig : SpawnConfig := ⟨[⟨101⟩]⟩

/-- One wolf, back a minute after its corpse is gone. -/
def wolfRule : SpawnRule := ⟨.mob ⟨101⟩, 1, 60000⟩

def found : SpawnRoll := ⟨0, [true]⟩

def notFound : SpawnRoll := ⟨0, [false]⟩

/-- The wolf is killed, and the first attempt to bring it back finds no place. -/
theorem no_dormant_rule_wolf :
    ∃ w w', bootstrapMapRuntime wolfConfig [wolfRule] 0 [found] = some (w, []) ∧
      run (spawnStep wolfConfig) w [.cleanup ⟨0, ⟨1⟩⟩, .tick 60000 [notFound]] = some w' ∧ w'.mobs = [] ∧
      w'.Scheduled := by
  have hboot : ((bootstrapMapRuntime wolfConfig [wolfRule] 0 [found]).bind fun r =>
      (run (spawnStep wolfConfig) r.1 [.cleanup ⟨0, ⟨1⟩⟩, .tick 60000 [notFound]]).map fun w' => (r.2, w'.mobs)) =
        some ([], []) := by
    decide +kernel
  obtain ⟨⟨w, rest⟩, hw, hp⟩ := Option.bind_eq_some_iff.1 hboot
  obtain ⟨w', hw', hp⟩ := Option.map_eq_some_iff.1 hp
  obtain ⟨rfl, hmobs⟩ := Prod.mk.inj hp
  have hyields : PreloadYields wolfConfig [wolfRule] [found] := ⟨by decide, trivial⟩
  exact ⟨w, w', hw, hw', hmobs, (no_dormant_rule hw).2 hyields _ w' (by rintro ev hev rolls rfl; simp at hev) hw'⟩

/-- The preload finds no place for the wolf: no attempt is scheduled, and a day later there is still none. -/
theorem no_dormant_rule_unplaced :
    ∃ w w' r, bootstrapMapRuntime wolfConfig [wolfRule] 0 [notFound] = some (w, []) ∧
      run (spawnStep wolfConfig) w [.tick 86400000 []] = some w' ∧ w'.rules[0]? = some r ∧ r.rule = wolfRule ∧
      r.activeInstances = 0 ∧ r.respawnAt = none ∧ ¬ w'.Scheduled := by
  have hboot : ((bootstrapMapRuntime wolfConfig [wolfRule] 0 [notFound]).bind fun r =>
      (run (spawnStep wolfConfig) r.1 [.tick 86400000 []]).bind fun w' =>
        w'.rules[0]?.map fun rule => (r.2, rule.rule, rule.activeInstances, rule.respawnAt)) =
          some ([], wolfRule, 0, none) := by
    decide +kernel
  obtain ⟨⟨w, rest⟩, hw, hp⟩ := Option.bind_eq_some_iff.1 hboot
  obtain ⟨w', hw', hp⟩ := Option.bind_eq_some_iff.1 hp
  obtain ⟨r, hr, hp⟩ := Option.map_eq_some_iff.1 hp
  simp only [Prod.mk.injEq] at hp
  obtain ⟨rfl, hrule, hactive, hrespawn⟩ := hp
  refine ⟨w, w', r, hw, hw', hr, hrule, hactive, hrespawn, fun hs => ?_⟩
  obtain ⟨t, ht, _⟩ := hs 0 r hr (by rw [hrule, hactive]; decide)
  rw [hrespawn] at ht
  cases ht

end Zohar.Spawn
