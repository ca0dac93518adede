/-
What one turn of each loop of a frame can do to the map, said once: every function of the frame leaves the map alone
or ends in one of a few forms.
-/
import Zohar.Sim.Life

namespace Zohar.Sim

open Zohar.Lib Zohar.Stats
open Zohar.Replication (EntityId)

/-! ## Resources -/

theorem setResourceStat_hp {st t : ActorStatState Unit Unit} {v : Int} (h : st.setResourceStat .hp v = .ok t) :
    t.resources.hp = v := by
  simp only [ActorStatState.setResourceStat] at h
  split at h
  · cases h; rfl
  · rename_i hv
    cases h
    simpa using hv

/-- A write of another resource leaves the HP. -/
theorem setResourceStat_of_ne {st t : ActorStatState Unit Unit} {stat : Stat} {v : Int} (hne : stat ≠ .hp)
    (h : st.setResourceStat stat v = .ok t) : t.resources.hp = st.resources.hp := by
  unfold ActorStatState.setResourceStat at h
  cases stat <;> simp only at h <;> first
    | exact absurd rfl hne
    | cases h
    | (split at h <;> cases h <;> rfl)

/-- A write of the HP ends between zero and the capacity. -/
theorem setResource_hp {st t : ActorStatState Unit Unit} {v : Int} {r : Except StatWriteError Int}
    (h : (GameStatsApi.setResource .hp v).run st = some (r, t)) :
    t.resources.hp = max 0 (min v (st.computed.get .maxHp)) := by
  unfold GameStatsApi.setResource at h
  rw [Cmd.run_bind_ok (a := st.computed.get .maxHp) (t := st) rfl] at h
  rcases Cmd.bind_eq_some h with ⟨e, h1, _⟩ | ⟨capped, s1, h1, h2⟩
  · obtain ⟨_, _, he, _⟩ := Cmd.expect_eq_some h1
    cases he
  · obtain ⟨_, hc, he, rfl⟩ := Cmd.expect_eq_some h1
    cases he
    rcases Cmd.bind_eq_some h2 with ⟨e, h3, _⟩ | ⟨_, s2, h3, h4⟩
    · cases (Cmd.updateExpect_eq_some h3).1
    · cases h4
      rw [setResourceStat_hp (Cmd.updateExpect_eq_some h3).2]
      exact (clamp?_eq_some.1 hc).2.symm

/-- A change of the HP, and the report of it. -/
theorem applyResource_hp {st t : ActorStatState Unit Unit} {delta minValue : Int}
    {r : Except StatWriteError ResourceApplicationResult}
    (h : (GameStatsApi.applyResource ⟨.hp, delta, minValue, true⟩).run st = some (r, t)) :
    t.resources.hp = max minValue (min (satI32 (st.resources.hp + delta)) (st.computed.get .maxHp)) ∧
      ∃ result, r = .ok result ∧ result.stat = .hp ∧ result.previous = st.resources.hp ∧
        result.current = t.resources.hp := by
  unfold GameStatsApi.applyResource at h
  rw [Cmd.run_bind_ok (a := st.resources.hp) (t := st) rfl, Cmd.run_bind_ok (a := st.computed.get .maxHp) (t := st) rfl]
    at h
  rcases Cmd.bind_eq_some h with ⟨e, h1, _⟩ | ⟨next, s1, h1, h2⟩
  · obtain ⟨_, _, he, _⟩ := Cmd.expect_eq_some h1
    cases he
  · obtain ⟨_, hc, he, rfl⟩ := Cmd.expect_eq_some h1
    cases he
    rcases Cmd.bind_eq_some h2 with ⟨e, h3, _⟩ | ⟨_, s2, h3, h4⟩
    · cases (Cmd.updateExpect_eq_some h3).1
    · cases h4
      have hhp := setResourceStat_hp (Cmd.updateExpect_eq_some h3).2
      exact ⟨hhp.trans (clamp?_eq_some.1 hc).2.symm, _, rfl, rfl, rfl, hhp.symm⟩

def SameHp (s t : ActorStatState Unit Unit) : Prop := t.resources.hp = s.resources.hp

theorem SameHp.trans (s t u : ActorStatState Unit Unit) (h : SameHp s t) (h' : SameHp t u) : SameHp s u := Eq.trans h' h

/-- A change of another resource leaves the HP. -/
theorem applyResource_of_ne {application : ResourceApplication} (hne : application.stat ≠ .hp) :
    Cmd.Keeps SameHp (GameStatsApi.applyResource application) := by
  have hrefl : ∀ s, SameHp s s := fun _ => rfl
  unfold GameStatsApi.applyResource
  refine Cmd.keeps_bind SameHp.trans (Cmd.keeps_tryRead hrefl _) fun previous => ?_
  refine Cmd.keeps_bind SameHp.trans (Cmd.keeps_ite (Cmd.keeps_tryRead hrefl _) (Cmd.keeps_pure hrefl _)) fun cap => ?_
  refine Cmd.keeps_bind SameHp.trans (Cmd.keeps_expect hrefl _) fun next => ?_
  refine Cmd.keeps_bind SameHp.trans (Cmd.keeps_updateExpect fun s t h => ?_) fun _ => Cmd.keeps_pure hrefl _
  exact setResourceStat_of_ne hne h

theorem setResource_of_ne {stat : Stat} (hne : stat ≠ .hp) (v : Int) :
    Cmd.Keeps SameHp (GameStatsApi.setResource stat v : GameStatsApi.WriteCmd Unit Unit Int) := by
  have hrefl : ∀ s, SameHp s s := fun _ => rfl
  unfold GameStatsApi.setResource
  refine Cmd.keeps_bind SameHp.trans (Cmd.keeps_tryRead hrefl _) fun cap => ?_
  refine Cmd.keeps_bind SameHp.trans (Cmd.keeps_expect hrefl _) fun capped => ?_
  refine Cmd.keeps_bind SameHp.trans (Cmd.keeps_updateExpect fun s t h => ?_) fun _ => Cmd.keeps_pure hrefl _
  exact setResourceStat_of_ne hne h

/-! ## Mobs -/

section
variable [GrowthRng]

/-- The prototype's HP, at least one, is the capacity of a new mob. -/
theorem mob_maxHp (proto : MobPrototypeDef) :
    (GameStatsApi.derivedStore (.mob (mobSource proto)) (ActorStatState.new .mob : ActorStatState Unit Unit)).get
      .maxHp =
      max proto.combat.maxHp.val 1 := by
  have hbonus : (seedRebuildState (ActorStatState.new .mob : ActorStatState Unit Unit) (.mob (mobSource proto))).get
      .bonusMaxHp = 0 := by
    simp [seedRebuildState, applySourceSeed, ActorStatState.new, GenericModifierLedger.iter,
      GenericModifierLedger.empty,
      OrdMap.values, OrdMap.empty, PointValueStore.get_add]
  have hset : ∀ (p : PointValueStore) (m : MobStatSource), (rebuildMobState p m).get .maxHp =
      addI32 (p.get .bonusMaxHp) m.maxHp := by
    intro p m
    simp [rebuildMobState, PointValueStore.get_set]
  unfold GameStatsApi.derivedStore rebuildDerivedState
  rw [hset, hbonus]
  rw [addI32_of_mem]
  · simp [mobSource]
  · simp only [mobSource]
    have := proto.combat.maxHp.property.1
    unfold i32Min at *
    omega
  · simp only [mobSource]
    have := proto.combat.maxHp.property.2
    unfold i32Max at *
    omega

/-- A mob spawns with the HP of its prototype, at least one. -/
theorem mobStatsFromProto_hp {proto : MobPrototypeDef} {stats : ActorStatsRuntime}
    (h : mobStatsFromProto proto = some stats) :
    0 < stats.state.resources.hp ∧ stats.state.resources.hp = stats.state.computed.get .maxHp := by
  unfold mobStatsFromProto at h
  simp only [Option.bind_eq_bind, Option.bind_eq_some_iff, Option.pure_def, Option.some.injEq] at h
  obtain ⟨⟨sync, st⟩, hsync, maxHp, hmax, ⟨r, st'⟩, hset, rfl⟩ := h
  simp only [GameStatsApi.sync, Option.bind_eq_bind, Option.bind_eq_some_iff, Option.pure_def,
    Option.some.injEq] at hsync
  obtain ⟨⟨report, st1⟩, hr, _, _, he⟩ := hsync
  cases he
  obtain ⟨resources, _, rfl, _, _⟩ := GameStatsApi.recomputeReport_eq_some hr
  have hcap := mob_maxHp proto
  have hv : maxHp = max proto.combat.maxHp.val 1 := (Option.some.inj hmax).symm.trans hcap
  have hhp := setResource_hp hset
  have hcomp : st'.computed = _ := (GameStatsApi.keeps_setResource resourceRel_keepsStores _ _ _ _ _ hset).2
  simp only [GameStatsApi.recomputed] at hhp hcomp
  rw [hcap, hv] at hhp
  simp only [ActorStatsRuntime.new, hcomp, hcap]
  rw [hhp]
  omega

end

/-! ## Hits -/

theorem normalHitDamage_pos (roll : HitRoll) (defenceGrade : Int) : 1 ≤ normalHitDamage roll defenceGrade := by
  unfold normalHitDamage battleDamageFloor clampInt
  split <;> omega

/-- What a hit does to the statistics of its victim. -/
structure Hurt (before after : ActorStatsRuntime) : Prop where
  computed : after.state.computed = before.state.computed
  depleted : before.state.resources.hp ≤ 0 → after.state.resources.hp ≤ 0

theorem damage_hurt {before after : ActorStatsRuntime} {damage : Int} (hd : 0 ≤ damage)
    {r : Except StatWriteError ResourceApplicationResult}
    (h : (withApi (GameStatsApi.applyResource (ResourceApplication.damage damage))).run before = some (r, after)) :
    Hurt before after ∧
      after.state.resources.hp =
        max i32Min (min (satI32 (before.state.resources.hp - damage)) (before.state.computed.get .maxHp)) ∧
      ∃ result, r = .ok result ∧ result.stat = .hp ∧
        result.previous = before.state.resources.hp ∧ result.current = after.state.resources.hp := by
  obtain ⟨st, hst, rfl⟩ := withApi_eq_some h
  obtain ⟨hhp, hr⟩ := applyResource_hp hst
  rw [← sub_eq_add_neg] at hhp
  refine ⟨⟨(GameStatsApi.keeps_applyResource resourceRel_keepsStores _ _ _ _ hst).2, fun hle => ?_⟩, hhp, hr⟩
  show st.resources.hp ≤ 0
  rw [hhp]
  unfold satI32 i32Min i32Max
  omega

/-- A hit that was struck: both sides could fight, and it took the damage from the HP of the victim. -/
structure Struck (cfg : LifeConfig) (roll : HitRoll) (a v : Actor) (stats : ActorStatsRuntime) : Prop where
  attacker : a.life.isAlive
  combatants : cfg.hasCombatant a ∧ cfg.hasCombatant v
  took : ∃ grade, readLimitedOf v.stats .defGrade = some grade ∧
    stats.state.resources.hp = max i32Min (min (satI32 (v.hp - normalHitDamage roll grade)) v.maxHp)

namespace LifeWorld

variable {cfg : LifeConfig} {w w' : LifeWorld} {e : Entity}

/-! ## Turns -/

/-- The victim of a hit, with the record and the fact that it leaves. -/
def afterHit (w : LifeWorld) (attacker victim : ActorRef) (v : Actor) (stats : ActorStatsRuntime) : LifeWorld :=
  { (w.put victim.entity { v with stats }).record (.hit attacker victim.entity v.hp stats.state.resources.hp) with
    hpDepleted := if 0 < v.hp ∧ stats.state.resources.hp ≤ 0 then w.hpDepleted ++ [⟨victim, some attacker⟩]
      else w.hpDepleted }

theorem applyCombatOutcome_eq_some {attacker victim : ActorRef} {v : Actor} {damage : Int} (hd : 0 ≤ damage)
    (h : w.applyCombatOutcome attacker victim v damage = some w') :
    ∃ stats, Hurt v.stats stats ∧ stats.state.resources.hp = max i32Min (min (satI32 (v.hp - damage)) v.maxHp) ∧
      w' = w.afterHit attacker victim v stats := by
  obtain ⟨⟨r, stats⟩, hr, he⟩ := Option.map_eq_some_iff.1 h
  obtain ⟨hurt, hhp, result, rfl, hstat, hprev, hcur⟩ := damage_hurt hd hr
  refine ⟨stats, hurt, hhp, he.symm.trans ?_⟩
  by_cases hk : 0 < v.stats.state.resources.hp ∧ stats.state.resources.hp ≤ 0
  · simp [hstat, hprev, hcur, afterHit, Actor.hp, hk, record, put]
  · simp [hstat, hprev, hcur, afterHit, Actor.hp, hk, record, put]

/-- An attack does nothing, ends the dying of its victim, or hits it. -/
theorem processAttackCommand_eq_some {c : AttackCommand} {roll : HitRoll}
    (h : w.processAttackCommand cfg c roll = some w') :
    w' = w ∨
      (∃ v, w.actors.get? c.victim = some v ∧ v.life.isDying ∧ w' = w.bury c.victim v) ∨
      ∃ a v stats, w.actors.get? c.attacker = some a ∧ w.actors.get? c.victim = some v ∧ v.life = .alive ∧
        Hurt v.stats stats ∧ Struck cfg roll a v stats ∧
        w' = w.afterHit ⟨c.attacker, a.netId⟩ ⟨c.victim, v.netId⟩ v stats := by
  unfold processAttackCommand at h
  split at h
  · rename_i a v ha hv
    split at h
    · rename_i hdy
      cases h
      refine .inr (.inl ⟨v, hv, hdy.2.1, ?_⟩)
      simp [finalizeDyingActorDeath, hv, hdy.2.1]
    · split at h
      · rename_i hal
        obtain ⟨g, hg, h⟩ := Option.bind_eq_some_iff.1 h
        obtain ⟨stats, hurt, htook, rfl⟩ := applyCombatOutcome_eq_some (by have := normalHitDamage_pos roll g; omega) h
        refine .inr (.inr ⟨a, v, stats, ha, hv, ?_, hurt, ⟨hal.1, hal.2.2, g, hg, htook⟩, rfl⟩)
        cases hl : v.life with
        | alive => rfl
        | dying _ _ => simp [hl, ActorLifePhase.isAlive] at hal
        | dead _ _ _ _ _ => simp [hl, ActorLifePhase.isAlive] at hal
      · cases h; exact .inl rfl
  · cases h; exact .inl rfl

/-- An actor begins to die if it is the one that is meant and alive. -/
theorem beginActorDying_cases (w : LifeWorld) (actor : ActorRef) :
    (w.beginActorDying actor = w ∧ ∀ a, w.actors.get? actor.entity = some a → a.netId = actor.id → a.life ≠ .alive) ∨
      ∃ a t t', w.actors.get? actor.entity = some a ∧ a.netId = actor.id ∧ a.life = .alive ∧
        w.beginActorDying actor = (w.put actor.entity { a with life := .dying t t' }).record (.dying actor.entity) := by
  unfold beginActorDying
  cases ha : w.actors.get? actor.entity with
  | none => exact .inl ⟨rfl, fun _ h => by cases h⟩
  | some a =>
    by_cases hid : a.netId = actor.id
    · cases hl : a.life with
      | alive =>
        refine .inr ⟨a, w.simNow, satAdd w.simNow dyingToDeadDelay, rfl, hid, hl, ?_⟩
        simp only [ActorLifePhase.beginDying, ActorLifePhase.isAlive, hl, hid, ne_eq, not_true_eq_false,
          if_false, if_true]
      | dying _ _ =>
        refine .inl ⟨?_, by rintro _ ⟨⟩ _ h; rw [hl] at h; cases h⟩
        simp [ActorLifePhase.beginDying, ActorLifePhase.isAlive, hl]
      | dead _ _ _ _ _ =>
        refine .inl ⟨?_, by rintro _ ⟨⟩ _ h; rw [hl] at h; cases h⟩
        simp [ActorLifePhase.beginDying, ActorLifePhase.isAlive, hl]
    · exact .inl ⟨if_pos hid, by rintro _ ⟨⟩ h; exact absurd h hid⟩

/-- Time ends the dying of an actor, or makes the corpse of a mob due. -/
theorem ageActor_cases (w : LifeWorld) (e : Entity) :
    w.ageActor e = w ∨ (∃ a, w.actors.get? e = some a ∧ a.life.isDying ∧ w.ageActor e = w.bury e a) ∨
      ∃ a, w.actors.get? e = some a ∧ a.isMob ∧ a.life.isDead ∧
        w.ageActor e = { w with cleanupDue := w.cleanupDue ++ [⟨e, a.netId⟩] } := by
  unfold ageActor
  split
  · exact .inl rfl
  · rename_i a ha
    split
    · rename_i hl
      split
      · exact .inr (.inl ⟨a, ha, by rw [hl]; rfl, rfl⟩)
      · exact .inl rfl
    · rename_i hl
      split
      · rename_i hm
        exact .inr (.inr ⟨a, ha, hm.1, by rw [hl]; rfl, rfl⟩)
      · exact .inl rfl
    · exact .inl rfl

theorem recordMobDeathRewardClaim_cases (cfg : LifeConfig) (w : LifeWorld) (d : ActorHpDepleted) :
    w.recordMobDeathRewardClaim cfg d = w ∨
      ∃ killer v m, d.killer = some killer ∧ w.actors.get? d.victim.entity = some v ∧ v.role = .mob m ∧
        w.recordMobDeathRewardClaim cfg d =
          w.put d.victim.entity { v with role := .mob { m with claim := some killer } } := by
  unfold recordMobDeathRewardClaim
  split
  · exact .inl rfl
  · rename_i killer hk
    split
    · rename_i v k hv _
      split
      · rename_i m _ hm _
        split
        · exact .inl rfl
        · split
          · exact .inl rfl
          · exact .inr ⟨killer, v, m, hk, hv, hm, rfl⟩
      · exact .inl rfl
    · exact .inl rfl

theorem updatePlayer_eq_some {f : Actor → PlayerComps → Option Actor} (h : w.updatePlayer e f = some w') :
    w' = w ∨ ∃ a p a', w.actors.get? e = some a ∧ a.role = .player p ∧ f a p = some a' ∧ w' = w.put e a' := by
  unfold updatePlayer at h
  split at h
  · cases h; exact .inl rfl
  · rename_i a ha
    split at h
    · cases h; exact .inl rfl
    · rename_i p hp
      obtain ⟨a', hf, rfl⟩ := Option.map_eq_some_iff.1 h
      exact .inr ⟨a, p, a', ha, hp, hf, rfl⟩

theorem updatePlayer_stage {f : Actor → PlayerComps → Option Actor} (h : w.updatePlayer e f = some w') :
    w'.stage = w.stage := by
  rcases updatePlayer_eq_some h with rfl | ⟨_, _, _, _, _, _, rfl⟩ <;> rfl

theorem restartPlayer_eq_some {hp : RestartHp} (h : w.restartPlayer e hp = some w') :
    w' = w ∨ ∃ a p stats, w.actors.get? e = some a ∧ a.role = .player p ∧
      (withApi (GameStatsApi.setResource .hp (hp.value a.stats))).exec a.stats = some stats ∧
      w' = w.put e { a with life := a.life.restart, stats } := by
  rcases updatePlayer_eq_some h with rfl | ⟨a, p, a', ha, hp', hf, rfl⟩
  · exact .inl rfl
  · obtain ⟨stats, hs, rfl⟩ := Option.map_eq_some_iff.1 hf
    exact .inr ⟨a, p, stats, ha, hp', hs, rfl⟩

/-- A request takes its queue away, and restarts a player that is dead. -/
theorem processRequestedRestart_eq_some (h : w.processRequestedRestart e = some w') :
    w' = w ∨ ∃ a p, w.actors.get? e = some a ∧ a.role = .player p ∧
      (w' = w.put e { a with role := .player { p with restartIntents := [] } } ∨
        (a.life.isDead ∧
          (w.put e { a with role := .player { p with restartIntents := [] } }).restartPlayer e
            (.fixed manualRestartHp) = some w')) := by
  unfold processRequestedRestart at h
  split at h
  · cases h; exact .inl rfl
  · rename_i a ha
    split at h
    · cases h; exact .inl rfl
    · rename_i p hp
      split at h
      · cases h; exact .inl rfl
      · refine .inr ⟨a, p, ha, hp, ?_⟩
        simp only at h
        split at h
        · cases h; exact .inl rfl
        · rename_i hd
          split at h
          · exact .inr ⟨by simpa using hd, h⟩
          · cases h; exact .inl rfl
          · cases h; exact .inl rfl

theorem processRequestedRestart_stage (h : w.processRequestedRestart e = some w') : w'.stage = w.stage := by
  rcases processRequestedRestart_eq_some h with rfl | ⟨_, _, _, _, rfl | ⟨_, h⟩⟩
  · rfl
  · rfl
  · exact (updatePlayer_stage h).trans rfl

theorem despawn_cases (w : LifeWorld) (e : Entity) :
    (w.despawn e = w ∧ w.actors.get? e = none) ∨
      (∃ a m, w.actors.get? e = some a ∧ a.role = .mob m ∧ w.despawn e = { w with actors := w.actors.erase e }) ∨
      ∃ a p, w.actors.get? e = some a ∧ a.role = .player p ∧ w.despawn e =
        { w with actors := w.actors.erase e, playerIndex := w.playerIndex.erase p.playerId }.record
          (.left ⟨e, a.netId⟩) := by
  unfold despawn
  split
  · rename_i ha; exact .inl ⟨rfl, ha⟩
  · rename_i a ha
    cases hr : a.role with
    | mob m => exact .inr (.inl ⟨a, m, ha, hr, by simp⟩)
    | player p => exact .inr (.inr ⟨a, p, ha, hr, by simp⟩)

theorem despawn_stage (w : LifeWorld) (e : Entity) : (w.despawn e).stage = w.stage := by
  rcases despawn_cases w e with ⟨h, _⟩ | ⟨_, _, _, _, h⟩ | ⟨_, _, _, _, h⟩
  · rw [h]
  · rw [h]
  · rw [h]; rfl

/-! ## Grants -/

variable [GrowthRng]

/-- The map after a reward: the player's components, the record unless there was nothing to give, and the claim gone. -/
def afterReward (w : LifeWorld) (mob : Entity) (v : Actor) (m : MobComps) (killer : ActorRef) (k : Actor)
    (p : PlayerComps) (r : Except RewardError (Option AppliedExpReward)) (q : LivePlayer) : LifeWorld :=
  { (w.put killer.entity (k.withLive p q)).put mob { v with role := .mob { m with claim := none } } with
    log := match r with
      | .ok none => w.log
      | .ok (some _) | .error _ => w.log ++ [.awarded mob killer] }

/-- A grant finds no claim or no prototype, drops a claim whose player is gone, or rewards the player. -/
theorem grantMobDeathReward_eq_some {death : ActorRef} (h : w.grantMobDeathReward cfg death = some w') :
    w' = w ∨ ∃ v m killer, w.actors.get? death.entity = some v ∧ v.role = .mob m ∧ m.claim = some killer ∧
      (w' = w.put death.entity { v with role := .mob { m with claim := none } } ∨
        ∃ k p reward r q, w.actors.get? killer.entity = some k ∧ k.role = .player p ∧ k.netId = killer.id ∧
          cfg.mobExpReward m.mobId = some reward ∧
          (applyPlayerExpReward cfg.playerStats reward).run (k.live p) = some (r, q) ∧
          w' = w.afterReward death.entity v m killer k p r q) := by
  unfold grantMobDeathReward at h
  split at h
  · cases h; exact .inl rfl
  · rename_i killer hc
    -- a claim is on a mob
    obtain ⟨v, m, hv, hm, hmc⟩ : ∃ v m, w.actors.get? death.entity = some v ∧ v.role = .mob m ∧
        m.claim = some killer := by
      unfold claimOf at hc
      split at hc
      · rename_i n l st m hv
        exact ⟨_, m, hv, rfl, hc⟩
      · cases hc
    obtain ⟨netId, life, stats, role⟩ := v
    cases hm
    have hremove : ∀ w0 : LifeWorld, w0.actors.get? death.entity = some ⟨netId, life, stats, .mob m⟩ →
        w0.removeClaim death.entity = w0.put death.entity ⟨netId, life, stats, .mob { m with claim := none }⟩ := by
      intro w0 h0
      simp only [removeClaim, h0]
    split at h
    · cases h
      exact .inr ⟨_, m, killer, hv, rfl, hmc, .inl (hremove w hv)⟩
    · rename_i k p hcl
      obtain ⟨hk, hp, hid⟩ : w.actors.get? killer.entity = some k ∧ k.role = .player p ∧ k.netId = killer.id := by
        unfold claimant at hcl
        split at hcl
        · rename_i k' hk
          split at hcl
          · rename_i p' hp
            split at hcl
            · cases hcl
            · rename_i hid
              cases hcl
              exact ⟨hk, hp, by simpa using hid⟩
          · cases hcl
        · cases hcl
      simp only [mobExpRewardOf, hv] at h
      split at h
      · cases h; exact .inl rfl
      · rename_i reward hrw
        obtain ⟨w1, h1, rfl⟩ := Option.map_eq_some_iff.1 h
        obtain ⟨⟨r, q⟩, hrun, rfl⟩ := Option.map_eq_some_iff.1 h1
        -- the player is not the mob, so the claim is where it was
        have hne : death.entity ≠ killer.entity := by
          intro he
          rw [he, hk] at hv
          cases hv
          cases hp
        refine .inr ⟨_, m, killer, hv, rfl, hmc, .inr ⟨k, p, reward, r, q, hk, hp, hid, hrw, hrun, ?_⟩⟩
        rw [hremove]
        · cases r with
          | error _ => rfl
          | ok o => cases o <;> rfl
        · have hget : (w.put killer.entity (k.withLive p q)).actors.get? death.entity =
              some ⟨netId, life, stats, .mob m⟩ := by
            rw [put, OrdMap.get?_insert, if_neg hne]
            exact hv
          cases r with
          | error _ => exact hget
          | ok o => cases o <;> exact hget

end LifeWorld

end Zohar.Sim
