/-
Life and HP stay coupled. Outside of a fight a step can change an actor in a few ways only, and each of them leaves HP
above zero to the living and none to the others, except a reward with a level step that reaches a player that is not
alive. During a fight an actor without HP may still count as alive, and then its dying is owed.
-/
import Zohar.Sim.Vitals

namespace Zohar.Sim

open Zohar.Lib Zohar.Stats
open Zohar.Replication (EntityId)
open Zohar.Spawn (MobId)

/-! ## Conditions -/

/-- At the end of the lifecycle: the living have HP, the others have none. -/
def Coupled (w : LifeWorld) : Prop :=
  ∀ e a, w.actors.get? e = some a → (a.life = .alive → 0 < a.hp) ∧ (a.life ≠ .alive → a.hp ≤ 0)

/-- It is the turn of a player to be restarted, on its request or by force. -/
def RestartTurn (w : LifeWorld) (e : Entity) : Prop :=
  ∃ rest, w.stage = .restarting (e :: rest) ∨ w.stage = .respawning (e :: rest)

namespace LifeWorld

/-- The capacity of every player leaves room for HP, and so does half of it. -/
def hale (w : LifeWorld) : Bool :=
  w.actors.keys.all fun e =>
    match w.actors.get? e with
    | some a => a.isMob || decide (2 ≤ a.maxHp)
    | none => true

section
variable [GrowthRng]

/-- A player enters with HP. -/
def entersAlive (cfg : LifeConfig) : LifeEvent → Bool
  | .playerEnter msg =>
    match cfg.playerStats.hydratePlayer msg.gameplay with
    | some (some hydrated) => decide (0 < hydrated.state.resources.hp)
    | some none | none => true
  | _ => true

/-- A reward with a level step is about to reach only a player that is alive. -/
def rewardsTheLiving (cfg : LifeConfig) (w : LifeWorld) : LifeEvent → Bool
  | .next =>
    match w.stage with
    | .granting (d :: _) =>
      match w.claimOf d.entity with
      | none => true
      | some killer =>
        match w.claimant killer, w.mobExpRewardOf cfg d.entity with
        | some (k, p), some reward => k.life.isAlive || !bringsLevelStep cfg.playerStats reward (k.live p)
        | _, _ => true
    | _ => true
  | _ => true

end

/-- A hit that is about to reach a player takes no more than the HP it has. -/
def measured (cfg : LifeConfig) (w : LifeWorld) : LifeEvent → Bool
  | .attack roll =>
    match w.stage with
    | .attacking (c :: _) =>
      match w.actors.get? c.attacker, w.actors.get? c.victim with
      | some a, some v =>
        v.isMob || !(a.life.isAlive && v.life.isAlive && cfg.hasCombatant a && cfg.hasCombatant v) ||
          match readLimitedOf v.stats .defGrade with
          | some grade => decide (normalHitDamage roll grade ≤ v.hp)
          | none => true
      | _, _ => true
    | _ => true
  | _ => true

theorem hale_iff (w : LifeWorld) : w.hale ↔ ∀ e a, w.actors.get? e = some a → a.isMob = false → 2 ≤ a.maxHp := by
  unfold hale
  rw [List.all_eq_true]
  constructor
  · intro h e a ha hm
    have := h e (OrdMap.mem_keys_iff.2 (by rw [ha]; rfl))
    simpa [ha, hm] using this
  · intro h e _
    cases ha : w.actors.get? e with
    | none => rfl
    | some a =>
      cases hm : a.isMob with
      | true => simp [hm]
      | false => simpa [hm] using h e a ha hm

/-! ## Depletions -/

/-- The depletions whose dying is due. -/
def owed (w : LifeWorld) : List ActorHpDepleted :=
  match w.stage with
  | .attacking _ => w.hpDepleted
  | .dying rest => rest
  | _ => []

end LifeWorld

/-- A stage at which nothing is owed and nobody waits for a respawn. -/
def Stage.quiet : Stage → Bool
  | .attacking _ | .dying _ | .respawning _ => false
  | _ => true

theorem LifeWorld.owed_of_quiet {w : LifeWorld} (h : w.stage.quiet) : w.owed = [] := by
  unfold LifeWorld.owed
  cases hs : w.stage <;> first | rfl | (rw [hs] at h; cases h)

/-- What holds of an actor that owes nothing; with `sound`, players keep their HP at zero or above. -/
structure Fit (sound : Prop) (a : Actor) : Prop where
  alive : a.life = .alive → 0 < a.hp
  down : a.life ≠ .alive → a.hp ≤ 0
  whole : sound → a.isMob = false → 0 ≤ a.hp

/-- The invariant: whoever is not fit is alive, out of HP, and owes its dying. -/
structure Vital (sound : Prop) (w : LifeWorld) : Prop where
  alive : ∀ e a, w.actors.get? e = some a → a.life = .alive → 0 < a.hp ∨ ∃ d ∈ w.owed, d.victim = ⟨e, a.netId⟩
  down : ∀ e a, w.actors.get? e = some a → a.life ≠ .alive → a.hp ≤ 0
  whole : sound → ∀ e a, w.actors.get? e = some a → a.isMob = false → 0 ≤ a.hp
  owes : ∀ d ∈ w.owed, ∀ a, w.actors.get? d.victim.entity = some a → a.hp ≤ 0
  respawns : ∀ rest, w.stage = .respawning rest → ∀ e ∈ rest, ∀ a, w.actors.get? e = some a → a.life.isDying = false

theorem Vital.fit {sound : Prop} {w : LifeWorld} (h : Vital sound w) (ho : w.owed = []) {e : Entity} {a : Actor}
    (ha : w.actors.get? e = some a) : Fit sound a where
  alive hl := by
    rcases h.alive e a ha hl with hp | ⟨d, hd, _⟩
    · exact hp
    · rw [ho] at hd; cases hd
  down := h.down e a ha
  whole hs := h.whole hs e a ha

theorem Vital.of_fit {sound : Prop} {w : LifeWorld} (ho : w.owed = [])
    (hf : ∀ e a, w.actors.get? e = some a → Fit sound a)
    (hr : ∀ rest, w.stage = .respawning rest → ∀ e ∈ rest, ∀ a, w.actors.get? e = some a → a.life.isDying = false) :
    Vital sound w where
  alive e a ha hl := .inl ((hf e a ha).alive hl)
  down e a ha := (hf e a ha).down
  whole hs e a ha := (hf e a ha).whole hs
  owes d hd := by rw [ho] at hd; cases hd
  respawns := hr

/-! ## How an actor can change outside of a fight -/

section
variable [GrowthRng] {cfg : LifeConfig} {w w' : LifeWorld} {ev : LifeEvent}

/-- The ways in which a step that is no fight changes an actor. -/
inductive Changes (cfg : LifeConfig) (w : LifeWorld) (ev : LifeEvent) (e : Entity) (a a' : Actor) : Prop
  | still (life : a'.life = a.life) (stats : a'.stats = a.stats)
  | settled (player : a.isMob = false) (life : a'.life = a.life) (stats : Settles a.stats a'.stats)
  | ticked (player : a.isMob = false) (life : a.life = .alive) (life' : a'.life = .alive) (accrual : Accrual)
      (stats : tickPlayerStats accrual a.stats = some a'.stats)
  | buried (life : a.life.isDying) (life' : a'.life.isDead) (stats : a'.stats = a.stats)
  | restarted (player : a.isMob = false) (turn : RestartTurn w e) (hp : LifeWorld.RestartHp)
      (value : hp = .fixed LifeWorld.manualRestartHp ∨ hp = .halfMax)
      (dead : a.life.isDead ∨ ∃ rest, w.stage = .respawning (e :: rest)) (life : a'.life = a.life.restart)
      (stats : (withApi (GameStatsApi.setResource .hp (hp.value a.stats))).exec a.stats = some a'.stats)
  | rewarded (player : a.isMob = false) (life : a'.life = a.life) (lives : Lives a.stats a'.stats)
      (whole : 0 ≤ a.hp → 0 ≤ a'.hp) (settles : w.rewardsTheLiving cfg ev → a.life ≠ .alive → Settles a.stats a'.stats)

/-- Somebody new: a mob at full HP, or a player as it was hydrated. -/
def Newcomer (cfg : LifeConfig) (ev : LifeEvent) (a : Actor) : Prop :=
  a.life = .alive ∧ (0 < a.hp ∨ ∃ msg hydrated, ev = .playerEnter msg ∧
    cfg.playerStats.hydratePlayer msg.gameplay = some (some hydrated) ∧ a.stats.state = hydrated.state)

/-- The actors after a step: each was there before and has changed in one of the ways, or is new. -/
def Moves (cfg : LifeConfig) (w : LifeWorld) (ev : LifeEvent) (actors : OrdMap Entity Actor) : Prop :=
  ∀ e a', actors.get? e = some a' →
    (∃ a, w.actors.get? e = some a ∧ a'.isMob = a.isMob ∧ Changes cfg w ev e a a') ∨
      (w.actors.get? e = none ∧ Newcomer cfg ev a')

theorem Moves.refl (w : LifeWorld) (ev : LifeEvent) : Moves cfg w ev w.actors :=
  fun _ a ha => .inl ⟨a, ha, rfl, .still rfl rfl⟩

theorem Moves.erase {actors : OrdMap Entity Actor} (h : Moves cfg w ev actors) (e0 : Entity) :
    Moves cfg w ev (actors.erase e0) := by
  intro e a' ha'
  exact h e a' (OrdMap.get?_erase_eq_some_iff.1 ha').2

theorem Moves.insert {actors : OrdMap Entity Actor} (h : Moves cfg w ev actors) {e0 : Entity} {a0 a0' : Actor}
    (h0 : w.actors.get? e0 = some a0) (hm : a0'.isMob = a0.isMob) (hc : Changes cfg w ev e0 a0 a0') :
    Moves cfg w ev (actors.insert e0 a0') := by
  intro e a' ha'
  rw [OrdMap.get?_insert] at ha'
  split at ha'
  · rename_i he
    cases ha'
    exact .inl ⟨a0, by rw [he]; exact h0, hm, he ▸ hc⟩
  · exact h e a' ha'

omit [GrowthRng] in
theorem isMob_of_player {a : Actor} {p : PlayerComps} (h : a.role = .player p) : a.isMob = false := by
  simp [Actor.isMob, h]

/-- A change of a player, on the map at the stage that the step leads to. -/
theorem moves_updatePlayer {w1 : LifeWorld} {e : Entity} {f : Actor → PlayerComps → Option Actor}
    (hu : w1.updatePlayer e f = some w') (hw : w1.actors = w.actors)
    (hf : ∀ a p a', w.actors.get? e = some a → a.role = .player p → f a p = some a' →
      a'.isMob = false ∧ Changes cfg w ev e a a') : Moves cfg w ev w'.actors := by
  rcases LifeWorld.updatePlayer_eq_some hu with rfl | ⟨a, p, a', ha, hp, hfa, rfl⟩
  · rw [hw]; exact .refl w ev
  · rw [hw] at ha
    obtain ⟨hm, hc⟩ := hf a p a' ha hp hfa
    rw [LifeWorld.put, hw]
    exact (Moves.refl w ev).insert ha (hm.trans (isMob_of_player hp).symm) hc

omit [GrowthRng] in
theorem isAlive_iff {life : ActorLifePhase} : life.isAlive ↔ life = .alive := by
  cases life <;> simp [ActorLifePhase.isAlive]

/-- What a step leaves that is no fight. -/
structure Peace (cfg : LifeConfig) (w : LifeWorld) (ev : LifeEvent) (w' : LifeWorld) : Prop where
  moves : Moves cfg w ev w'.actors
  owed : w'.owed = []
  respawns : ∀ rest, w'.stage = .respawning rest → (∃ e, w.stage = .respawning (e :: rest)) ∨
    ∀ e ∈ rest, ∀ a, w'.actors.get? e = some a → a.life.isDying = false

theorem Moves.peace (h : Moves cfg w ev w'.actors) (hq : w'.stage.quiet) : Peace cfg w ev w' where
  moves := h
  owed := LifeWorld.owed_of_quiet hq
  respawns rest hr := by rw [hr] at hq; cases hq

/-- A restart of a player whose turn it is. -/
theorem moves_restartPlayer {w1 : LifeWorld} {e : Entity} {hp : LifeWorld.RestartHp}
    (hv : hp = .fixed LifeWorld.manualRestartHp ∨ hp = .halfMax) (hturn : RestartTurn w e)
    (hdead : (∃ a, w.actors.get? e = some a ∧ a.life.isDead) ∨ ∃ rest, w.stage = .respawning (e :: rest))
    (h : w1.restartPlayer e hp = some w')
    (hput : w1.actors = w.actors ∨ ∃ a p, w.actors.get? e = some a ∧ a.role = .player p ∧
      w1.actors = w.actors.insert e { a with role := .player { p with restartIntents := [] } }) :
    Moves cfg w ev w'.actors := by
  have hreq : ∀ {a p}, w.actors.get? e = some a → a.role = .player p →
      Moves cfg w ev (w.actors.insert e { a with role := .player { p with restartIntents := [] } }) :=
    fun ha hp => (Moves.refl w ev).insert ha (isMob_of_player hp).symm (.still rfl rfl)
  rcases LifeWorld.restartPlayer_eq_some h with rfl | ⟨a1, p1, stats, ha1, hp1, hs, rfl⟩
  · rcases hput with hw | ⟨a, p, ha, hp, hw⟩
    · rw [hw]; exact .refl w ev
    · rw [hw]; exact hreq ha hp
  · -- the player is the one on the map, with the same life and statistics
    obtain ⟨a, ha, hm, hl, hst⟩ : ∃ a, w.actors.get? e = some a ∧ a.isMob = false ∧ a1.life = a.life ∧
        a1.stats = a.stats := by
      rcases hput with hw | ⟨a, p, ha, hp, hw⟩
      · rw [hw] at ha1; exact ⟨a1, ha1, isMob_of_player hp1, rfl, rfl⟩
      · rw [hw, OrdMap.get?_insert, if_pos rfl] at ha1
        cases ha1
        exact ⟨a, ha, isMob_of_player hp, rfl, rfl⟩
    have hc : Changes cfg w ev e a { a1 with life := a1.life.restart, stats } := by
      refine .restarted hm hturn hp hv (hdead.imp ?_ id) (by rw [← hl]) (by rw [← hst]; exact hs)
      rintro ⟨a', ha', hd⟩
      rw [ha] at ha'
      cases ha'
      exact hd
    have hm1 : ({ a1 with life := a1.life.restart, stats } : Actor).isMob = a.isMob :=
      (isMob_of_player hp1).trans hm.symm
    rw [LifeWorld.put]
    rcases hput with hw | ⟨a0, p0, ha0, hp0, hw⟩
    · rw [hw]; exact (Moves.refl w ev).insert ha hm1 hc
    · rw [hw]; exact (hreq ha0 hp0).insert ha hm1 hc

theorem moves_processRequestedRestart {w1 : LifeWorld} {e : Entity} {rest : List Entity}
    (hst : w.stage = .restarting (e :: rest)) (h : w1.processRequestedRestart e = some w') (hw : w1.actors = w.actors) :
    Moves cfg w ev w'.actors := by
  rcases LifeWorld.processRequestedRestart_eq_some h with rfl | ⟨a, p, ha, hp, hcase⟩
  · rw [hw]; exact .refl w ev
  · rw [hw] at ha
    rcases hcase with rfl | ⟨hd, h⟩
    · rw [LifeWorld.put, hw]
      exact (Moves.refl w ev).insert ha (isMob_of_player hp).symm (.still rfl rfl)
    · exact moves_restartPlayer (.inl rfl) ⟨rest, .inl hst⟩ (.inl ⟨a, ha, hd⟩) h
        (.inr ⟨a, p, ha, hp, by rw [LifeWorld.put, hw]⟩)

/-- A grant reaches the mob, whose claim goes, and the player that it rewards. -/
theorem moves_grantMobDeathReward {w1 : LifeWorld} {d : ActorRef} {rest : List ActorRef}
    (hst : w.stage = .granting (d :: rest)) (hev : ev = .next) (h : w1.grantMobDeathReward cfg d = some w')
    (hw : w1.actors = w.actors) : Moves cfg w ev w'.actors := by
  have hmob : ∀ {actors : OrdMap Entity Actor} {v m}, Moves cfg w ev actors → w.actors.get? d.entity = some v →
    v.role = .mob m →
      Moves cfg w ev (actors.insert d.entity { v with role := .mob { m with claim := none } }) := by
    intro actors v m hmv hv hm
    refine hmv.insert hv ?_ (.still rfl rfl)
    simp [Actor.isMob, hm]
  rcases LifeWorld.grantMobDeathReward_eq_some h with rfl | ⟨v, m, killer, hv, hm, hclaim, hcase⟩
  · rw [hw]; exact .refl w ev
  · rw [hw] at hv
    rcases hcase with rfl | ⟨k, p, reward, r, q, hk, hp, hid, hreward, hrun, rfl⟩
    · rw [LifeWorld.put, hw]
      exact hmob (.refl w ev) hv hm
    · rw [hw] at hk
      show Moves cfg w ev ((w1.actors.insert killer.entity (k.withLive p q)).insert d.entity _)
      rw [hw]
      refine hmob ((Moves.refl w ev).insert hk ?_ ?_) hv hm
      · exact (isMob_of_player hp).symm
      · obtain ⟨hlives, hwhole, hset⟩ := applyPlayerExpReward_hp hrun
        refine .rewarded (isMob_of_player hp) rfl hlives hwhole fun hcond hdown => hset ?_
        -- the condition looks at this very grant
        obtain ⟨vnet, vlife, vstats, vrole⟩ := v
        cases hm
        have hclaimOf : w.claimOf d.entity = some killer := by simp only [LifeWorld.claimOf, hv]; exact hclaim
        have hrewardOf : w.mobExpRewardOf cfg d.entity = some reward := by
          simp only [LifeWorld.mobExpRewardOf, hv]; exact hreward
        have hclaimant : w.claimant killer = some (k, p) := by
          simp only [LifeWorld.claimant, hk, hp, hid, ne_eq, not_true_eq_false, if_false]
        subst hev
        simp only [LifeWorld.rewardsTheLiving, hst, hclaimOf, hclaimant, hrewardOf, Bool.or_eq_true,
          Bool.not_eq_true'] at hcond
        exact hcond.resolve_left fun hal => hdown (isAlive_iff.1 hal)

omit [GrowthRng] in
theorem forcedRespawn_dead {e : Entity} (he : e ∈ w.forcedRespawnPlayers) {a : Actor} (ha : w.actors.get? e = some a) :
    a.life.isDying = false := by
  unfold LifeWorld.forcedRespawnPlayers at he
  have hdue := (List.mem_filter.1 he).2
  rw [ha] at hdue
  simp only [Bool.and_eq_true] at hdue
  cases hl : a.life with
  | dying _ _ => rw [hl] at hdue; cases hdue.2
  | alive => rfl
  | dead _ _ _ _ _ => rfl

/-- Every stage but those of a fight. -/
def Stage.peaceful : Stage → Bool
  | .attacking _ | .dying _ => false
  | _ => true

theorem moves_settled {w1 : LifeWorld} {e : Entity} {f : Actor → PlayerComps → Option Actor}
    (hu : w1.updatePlayer e f = some w') (hw : w1.actors = w.actors)
    (hf : ∀ a p a', a.role = .player p → f a p = some a' → a'.isMob = false ∧ a'.life = a.life ∧
      Settles a.stats a'.stats) :
    Moves cfg w ev w'.actors := by
  refine moves_updatePlayer hu hw fun a p a' _ hp hfa => ?_
  obtain ⟨hm, hl, hs⟩ := hf a p a' hp hfa
  exact ⟨hm, .settled (isMob_of_player hp) hl hs⟩

theorem peace_next (hp : w.stage.peaceful) (h : w.next cfg = some w') : Peace cfg w .next w' := by
  unfold LifeWorld.next at h
  have hquiet : ∀ s : Stage, s.quiet → Peace cfg w .next { w with stage := s } :=
    fun s hs => Moves.peace (.refl w _) hs
  cases hst : w.stage with
  | startup => simp only [hst] at h; cases h; exact hquiet _ rfl
  | inbound => simp only [hst] at h; cases h
  | sense => simp only [hst] at h; cases h; exact hquiet _ rfl
  | progressing => simp only [hst] at h; cases h; exact hquiet _ rfl
  | normalizing rest =>
    cases rest with
    | nil => simp only [hst] at h; cases h; exact hquiet _ rfl
    | cons e es =>
      simp only [hst] at h
      refine Moves.peace (moves_settled h rfl fun a p a' hr hf => ?_) (by rw [LifeWorld.updatePlayer_stage h]; rfl)
      obtain ⟨⟨sync, rt⟩, hn, rfl⟩ := Option.map_eq_some_iff.1 hf
      exact ⟨rfl, rfl, normalize_settles hn⟩
  | acting => simp only [hst] at h; cases h
  | attacking rest => rw [hst] at hp; cases hp
  | dying rest => rw [hst] at hp; cases hp
  | claiming rest =>
    cases rest with
    | nil => simp only [hst] at h; cases h
    | cons d ds =>
      simp only [hst] at h
      cases h
      rcases LifeWorld.recordMobDeathRewardClaim_cases cfg { w with stage := .claiming ds } d with
        heq | ⟨killer, v, m, _, hv, hm, heq⟩
      · rw [heq]; exact hquiet _ rfl
      · rw [heq]
        refine Moves.peace ((Moves.refl w _).insert hv ?_ (.still rfl rfl)) rfl
        simp [Actor.isMob, hm]
  | aging rest =>
    cases rest with
    | nil => simp only [hst] at h; cases h; exact hquiet _ rfl
    | cons e es =>
      simp only [hst] at h
      cases h
      rcases LifeWorld.ageActor_cases { w with stage := .aging es } e
        with heq | ⟨a, ha, hdy, heq⟩ | ⟨a, ha, hm, hd, heq⟩
      · rw [heq]; exact hquiet _ rfl
      · rw [heq]
        exact Moves.peace ((Moves.refl w _).insert ha rfl (.buried hdy (isDead_deathPhase _ a) rfl)) rfl
      · rw [heq]; exact Moves.peace (.refl w _) rfl
  | restarting rest =>
    cases rest with
    | nil =>
      simp only [hst] at h
      cases h
      refine ⟨.refl w _, rfl, fun rest hr => .inr fun e he a ha => ?_⟩
      cases hr
      exact forcedRespawn_dead he ha
    | cons e es =>
      simp only [hst] at h
      exact Moves.peace (moves_processRequestedRestart hst h rfl)
        (by rw [LifeWorld.processRequestedRestart_stage h]; rfl)
  | respawning rest =>
    cases rest with
    | nil => simp only [hst] at h; cases h; exact hquiet _ rfl
    | cons e es =>
      simp only [hst] at h
      have hstage : w'.stage = .respawning es := LifeWorld.updatePlayer_stage h
      refine ⟨moves_restartPlayer (.inr rfl) ⟨es, .inr hst⟩ (.inr ⟨es, hst⟩) h (.inl rfl), ?_,
        fun rest hr => .inl ⟨e, ?_⟩⟩
      · simp only [LifeWorld.owed, hstage]
      · rw [hstage] at hr
        cases hr
        exact hst
  | granting rest =>
    cases rest with
    | nil => simp only [hst] at h; cases h; exact hquiet _ rfl
    | cons d ds =>
      simp only [hst] at h
      have hmoves : Moves cfg w .next w'.actors := moves_grantMobDeathReward hst rfl h rfl
      rcases LifeWorld.grantMobDeathReward_eq_some h
        with rfl | ⟨_, _, _, _, _, _, rfl | ⟨_, _, _, _, _, _, _, _, _, _, rfl⟩⟩
      · exact hmoves.peace rfl
      · exact hmoves.peace rfl
      · exact hmoves.peace rfl
  | cleaning rest =>
    cases rest with
    | nil => simp only [hst] at h; cases h; exact hquiet _ rfl
    | cons d ds =>
      simp only [hst] at h
      cases h
      unfold LifeWorld.destroyMobEntity
      split
      · exact Moves.peace ((Moves.refl w _).erase d.entity) rfl
      · exact hquiet _ rfl
  | lifecycleEnd => simp only [hst] at h; cases h; exact hquiet _ rfl
  | regenerating rest =>
    cases rest with
    | nil => simp only [hst] at h; cases h; exact Moves.peace (.refl w _) rfl
    | cons e es => simp only [hst] at h; cases h
  | flushing rest =>
    cases rest with
    | nil => simp only [hst] at h; cases h; exact hquiet _ rfl
    | cons e es =>
      simp only [hst] at h
      refine Moves.peace (moves_settled h rfl fun a p a' hr hf => ?_) (by rw [LifeWorld.updatePlayer_stage h]; rfl)
      obtain ⟨⟨sync, rt⟩, hn, rfl⟩ := Option.map_eq_some_iff.1 hf
      exact ⟨rfl, rfl, drainSync_settles hn⟩

omit [GrowthRng] in
theorem releaseDueAttackCommands_actors (w : LifeWorld) (travel : AttackCommand → FlyTiming → Nat) :
    (w.releaseDueAttackCommands travel).actors = w.actors := by
  unfold LifeWorld.releaseDueAttackCommands
  simp only
  refine List.foldlRecOn (motive := fun v : LifeWorld => v.actors = w.actors) _ _ rfl fun v hv scheduled _ => ?_
  have hlive : ∀ c, (v.enqueueLiveAttackCommand c).actors = w.actors := by
    intro c
    unfold LifeWorld.enqueueLiveAttackCommand
    split <;> exact hv
  unfold LifeWorld.releaseAttackCommand
  split
  · exact hlive _
  · split
    · simp only
      split
      · exact hlive _
      · exact hv
    · exact hv

omit [GrowthRng] in
theorem moves_despawn [GrowthRng] (e : Entity) : Moves cfg w ev (w.despawn e).actors := by
  rcases LifeWorld.despawn_cases w e with ⟨h, _⟩ | ⟨_, _, _, _, h⟩ | ⟨_, _, _, _, h⟩
  · rw [h]; exact .refl w ev
  · rw [h]; exact (Moves.refl w ev).erase e
  · rw [h]; exact (Moves.refl w ev).erase e

theorem Moves.arrive {actors : OrdMap Entity Actor} (h : Moves cfg w ev actors) {e0 : Entity} {a0 : Actor}
    (h0 : w.actors.get? e0 = none) (hn : Newcomer cfg ev a0) : Moves cfg w ev (actors.insert e0 a0) := by
  intro e a' ha'
  rw [OrdMap.get?_insert] at ha'
  split at ha'
  · rename_i he
    cases ha'
    exact .inr ⟨by rw [he]; exact h0, hn⟩
  · exact h e a' ha'

omit [GrowthRng] in
/-- The next entity is not on the map. -/
theorem Kept.fresh (h : Kept w) : w.actors.get? ⟨w.nextEntity⟩ = none := by
  obtain ⟨_, _, _, hl⟩ := h.ledger
  cases ha : w.actors.get? ⟨w.nextEntity⟩ with
  | none => rfl
  | some a => exact absurd (hl.below _ a ha) (lt_irrefl _)

/-- A step at a peaceful stage is no fight, whatever the event. -/
theorem peace_step (hk : Kept w) (hp : w.stage.peaceful) (h : w.step cfg ev = some w') : Peace cfg w ev w' := by
  cases ev with
  | spawnMob mobId netId =>
    simp only [LifeWorld.step] at h
    split at h
    · rename_i hst
      have hq : w.stage.quiet := by rcases hst with hst | hst <;> (rw [hst]; rfl)
      unfold LifeWorld.spawnOneMob at h
      split at h
      · cases h; exact Moves.peace (.refl w _) hq
      · obtain ⟨stats, hstats, rfl⟩ := Option.map_eq_some_iff.1 h
        exact Moves.peace ((Moves.refl w _).arrive hk.fresh ⟨rfl, .inl (mobStatsFromProto_hp hstats).1⟩) hq
    · cases h
  | playerEnter msg =>
    simp only [LifeWorld.step] at h
    split at h
    · rename_i hst
      unfold LifeWorld.handlePlayerEnter at h
      split at h
      · rename_i hydrated hhy
        cases h
        have hnew : Newcomer cfg (.playerEnter msg) (LifeWorld.enteringActor msg hydrated) :=
          ⟨rfl, .inr ⟨msg, hydrated, rfl, hhy, rfl⟩⟩
        unfold LifeWorld.despawnExisting
        split
        · rename_i e _
          have hne : (w.despawn e).nextEntity = w.nextEntity := by
            rcases LifeWorld.despawn_cases w e with ⟨h, _⟩ | ⟨_, _, _, _, h⟩ | ⟨_, _, _, _, h⟩
            · rw [h]
            · rw [h]
            · rw [h]; rfl
          refine Moves.peace ((moves_despawn e).arrive (by rw [hne]; exact hk.fresh) hnew) ?_
          show ((w.despawn e).stage).quiet
          rw [LifeWorld.despawn_stage, hst]
          rfl
        · exact Moves.peace ((Moves.refl w _).arrive hk.fresh hnew) (by show w.stage.quiet; rw [hst]; rfl)
      · cases h
      · cases h
    · cases h
  | playerLeave playerId playerNetId =>
    simp only [LifeWorld.step] at h
    split at h
    · rename_i hst
      cases h
      have hq : w.stage.quiet := by rw [hst]; rfl
      unfold LifeWorld.handlePlayerLeave
      split
      · exact Moves.peace (.refl w _) hq
      · split
        · exact Moves.peace (.refl w _) hq
        · split
          · exact Moves.peace (.refl w _) hq
          · exact Moves.peace (moves_despawn _) (by rw [LifeWorld.despawn_stage]; exact hq)
    · cases h
  | restartIntent playerId intent =>
    simp only [LifeWorld.step] at h
    split at h
    · rename_i hst
      have hq : w.stage.quiet := by rw [hst]; rfl
      unfold LifeWorld.handleRestartIntent at h
      split at h
      · cases h; exact Moves.peace (.refl w _) hq
      · refine Moves.peace (moves_updatePlayer h rfl fun a p a' _ hr hf => ?_)
          (by rw [LifeWorld.updatePlayer_stage h]; exact hq)
        cases hf
        exact ⟨rfl, .still rfl rfl⟩
    · cases h
  | tick now =>
    simp only [LifeWorld.step] at h
    split at h
    · cases h; exact Moves.peace (.refl w _) rfl
    · cases h
  | coreStat e stat delta =>
    simp only [LifeWorld.step] at h
    split at h
    · rename_i hst
      refine Moves.peace (moves_settled h rfl fun a p a' hr hf => ?_) (by rw [LifeWorld.updatePlayer_stage h, hst]; rfl)
      obtain ⟨q, hq, rfl⟩ := Option.map_eq_some_iff.1 hf
      exact ⟨rfl, rfl, progressStep_coreStat_settles hq⟩
    · cases h
  | schedule command schedule =>
    simp only [LifeWorld.step] at h
    split at h
    · rename_i hst
      cases h
      have hq : w.stage.quiet := by rw [hst]; rfl
      cases schedule with
      | immediate => exact Moves.peace (.refl w _) hq
      | delayed delay => exact Moves.peace (.refl w _) hq
      | projectile delay flight => exact Moves.peace (.refl w _) hq
    · cases h
  | release travel =>
    simp only [LifeWorld.step] at h
    split at h
    · rename_i hst
      cases h
      have hcalm := ((kept_iff_calm (by rw [hst]; rfl)).1 hk).release travel
      refine ⟨?_, hcalm.noDepletion, by rintro _ ⟨⟩⟩
      show Moves cfg w _ (w.releaseDueAttackCommands travel).actors
      rw [releaseDueAttackCommands_actors]
      exact .refl w _
    · cases h
  | attack roll =>
    simp only [LifeWorld.step] at h
    split at h
    · rename_i hst
      rw [hst] at hp
      cases hp
    · cases h
  | age order =>
    simp only [LifeWorld.step] at h
    split at h
    · cases h; exact Moves.peace (.refl w _) rfl
    · cases h
  | regenerate accrual =>
    simp only [LifeWorld.step] at h
    split at h
    · refine Moves.peace (moves_updatePlayer h rfl fun a p a' _ hr hf => ?_)
        (by rw [LifeWorld.updatePlayer_stage h]; rfl)
      split at hf
      · rename_i hal
        obtain ⟨stats, hs, rfl⟩ := Option.map_eq_some_iff.1 hf
        exact ⟨rfl, .ticked (isMob_of_player hr) (isAlive_iff.1 hal) (isAlive_iff.1 hal) accrual hs⟩
      · cases hf
        exact ⟨isMob_of_player hr, .still rfl rfl⟩
    · cases h
  | next => exact peace_next hp h

/-! ## Peace -/

omit [GrowthRng] in
theorem owed_of_peaceful (hp : w.stage.peaceful) : w.owed = [] := by
  unfold LifeWorld.owed
  cases hs : w.stage <;> first | rfl | (rw [hs] at hp; cases hp)

omit [GrowthRng] in
/-- Every way to change leaves an actor fit that was fit. -/
theorem Changes.fit {sound : Prop} {e : Entity} {a a' : Actor} (h : Changes cfg w ev e a a') (hf : Fit sound a)
    (hm : a'.isMob = a.isMob) (hcap : a.isMob = false → 2 ≤ a.maxHp) (hcap' : a'.isMob = false → 2 ≤ a'.maxHp)
    (hr : ∀ rest, w.stage = .respawning (e :: rest) → a.life.isDying = false) (hl : w.rewardsTheLiving cfg ev) :
    Fit sound a' := by
  cases h with
  | still life stats =>
    have hhp : a'.hp = a.hp := congrArg hpOf stats
    refine ⟨fun hal => ?_, fun hd => ?_, fun hs hp => ?_⟩
    · rw [hhp]; exact hf.alive (life.symm.trans hal)
    · rw [hhp]; exact hf.down (life ▸ hd)
    · rw [hhp]; exact hf.whole hs (hm.symm.trans hp)
  | settled player life stats =>
    refine ⟨fun hal => ?_, fun hd => ?_, fun hs _ => stats.whole (hf.whole hs player)⟩
    · exact stats.lives (hcap player) (hcap' (hm.trans player)) (hf.alive (life.symm.trans hal))
    · exact stats.down (hf.down (life ▸ hd))
  | ticked player life life' accrual stats =>
    obtain ⟨hlive, hwhole⟩ := tickPlayerStats_hp stats
    exact ⟨fun _ => hlive (hcap player) (hf.alive life), fun hd => absurd life' hd,
      fun hs _ => hwhole (hf.whole hs player)⟩
  | buried life life' stats =>
    have hhp : a'.hp = a.hp := congrArg hpOf stats
    have hdown : a.life ≠ .alive := by intro hal; rw [hal] at life; cases life
    refine ⟨fun hal => ?_, fun _ => ?_, fun hs hp => ?_⟩
    · rw [hal] at life'; cases life'
    · rw [hhp]; exact hf.down hdown
    · rw [hhp]; exact hf.whole hs (hm.symm.trans hp)
  | restarted player turn hp value dead life stats =>
    have hpos := restart_hp value stats (hcap player)
    refine ⟨fun _ => hpos, fun hd => absurd ?_ hd, fun _ _ => le_of_lt hpos⟩
    -- a player that waits for its restart is not dying, so the restart brings it back
    rw [life]
    have hnd : a.life.isDying = false := by
      rcases dead with hdead | ⟨rest, hst⟩
      · cases hl : a.life with
        | dying _ _ => rw [hl] at hdead; cases hdead
        | alive => rfl
        | dead _ _ _ _ _ => rfl
      · exact hr rest hst
    cases hl : a.life with
    | dying _ _ => rw [hl] at hnd; cases hnd
    | alive => rfl
    | dead _ _ _ _ _ => rfl
  | rewarded player life lives whole settles =>
    refine ⟨fun hal => ?_, fun hd => ?_, fun hs _ => whole (hf.whole hs player)⟩
    · exact lives (hcap player) (hcap' (hm.trans player)) (hf.alive (life.symm.trans hal))
    · have hd' : a.life ≠ .alive := life ▸ hd
      exact (settles hl hd').down (hf.down hd')

omit [GrowthRng] in
/-- Only a restart brings an actor back to life. -/
theorem Changes.revived {e : Entity} {a a' : Actor} (h : Changes cfg w ev e a a') (hd : a.life ≠ .alive)
    (hl : a'.life = .alive) : RestartTurn w e := by
  cases h with
  | still life _ => exact absurd (life.symm.trans hl) hd
  | settled _ life _ => exact absurd (life.symm.trans hl) hd
  | ticked _ life _ _ _ => exact absurd life hd
  | buried _ life' _ => rw [hl] at life'; cases life'
  | restarted _ turn _ _ _ _ _ => exact turn
  | rewarded _ life _ _ _ => exact absurd (life.symm.trans hl) hd

theorem Vital.peace {sound : Prop} (h : Vital sound w) (hp : w.stage.peaceful) (hpc : Peace cfg w ev w')
    (hale : w.hale) (hale' : w'.hale) (henter : LifeWorld.entersAlive cfg ev) (hl : w.rewardsTheLiving cfg ev) :
    Vital sound w' := by
  rw [LifeWorld.hale_iff] at hale hale'
  have hfit : ∀ {e a}, w.actors.get? e = some a → Fit sound a := fun ha => h.fit (owed_of_peaceful hp) ha
  refine .of_fit hpc.owed (fun e a' ha' => ?_) fun rest hr e he a' ha' => ?_
  · rcases hpc.moves e a' ha' with ⟨a, ha, hm, hc⟩ | ⟨_, hal, hnew⟩
    · refine hc.fit (hfit ha) hm (hale e a ha) (hale' e a' ha') (fun rest hr => ?_) hl
      exact h.respawns _ hr e List.mem_cons_self a ha
    · have hpos : 0 < a'.hp := by
        rcases hnew with hpos | ⟨msg, hydrated, rfl, hhy, hstate⟩
        · exact hpos
        · simp only [LifeWorld.entersAlive, hhy, decide_eq_true_eq] at henter
          show 0 < a'.stats.state.resources.hp
          rw [hstate]
          exact henter
      exact ⟨fun _ => hpos, fun hd => absurd hal hd, fun _ _ => le_of_lt hpos⟩
  · rcases hpc.respawns rest hr with ⟨e0, hst⟩ | hnd
    · -- nobody begins to die at this stage
      rcases hpc.moves e a' ha' with ⟨a, ha, _, hc⟩ | ⟨_, hal, _⟩
      · have hnd := h.respawns _ hst e (List.mem_cons_of_mem _ he) a ha
        cases hc with
        | still life _ => rw [life]; exact hnd
        | settled _ life _ => rw [life]; exact hnd
        | ticked _ _ life' _ _ => rw [life']; rfl
        | buried life _ _ => rw [hnd] at life; cases life
        | restarted _ _ _ _ _ life _ =>
          rw [life]
          unfold ActorLifePhase.restart
          split
          · rfl
          · exact hnd
        | rewarded _ life _ _ _ => rw [life]; exact hnd
      · rw [hal]; rfl
    · exact hnd e he a' ha'

/-! ## Fights -/

omit [GrowthRng] in
/-- One actor changes, and the depletions that name others stay. -/
theorem Vital.change {sound : Prop} (h : Vital sound w) {e0 : Entity} {a0' : Actor}
    (hact : w'.actors = w.actors.insert e0 a0') (hst : ∀ rest, w'.stage ≠ .respawning rest)
    (hother : ∀ d ∈ w.owed, d.victim.entity ≠ e0 → d ∈ w'.owed)
    (hself : a0'.life = .alive → 0 < a0'.hp ∨ ∃ d ∈ w'.owed, d.victim = ⟨e0, a0'.netId⟩)
    (hdown : a0'.life ≠ .alive → a0'.hp ≤ 0) (hwhole : sound → a0'.isMob = false → 0 ≤ a0'.hp)
    (howes : ∀ d ∈ w'.owed, (d.victim.entity = e0 → a0'.hp ≤ 0) ∧ (d.victim.entity ≠ e0 → d ∈ w.owed)) :
    Vital sound w' := by
  refine ⟨?_, ?_, ?_, ?_, fun rest hr => absurd hr (hst rest)⟩
  all_goals simp only [hact, OrdMap.get?_insert]
  · intro e a ha hl
    split at ha
    · rename_i he
      cases ha
      rw [he]
      exact hself hl
    · rename_i he
      exact (h.alive e a ha hl).imp id fun ⟨d, hd, hv⟩ => ⟨d, hother d hd (by rw [hv]; exact he), hv⟩
  · intro e a ha hl
    split at ha
    · cases ha; exact hdown hl
    · exact h.down e a ha hl
  · intro hs e a ha hm
    split at ha
    · cases ha; exact hwhole hs hm
    · exact h.whole hs e a ha hm
  · intro d hd a ha
    split at ha
    · rename_i he
      cases ha
      exact (howes d hd).1 he
    · rename_i he
      exact h.owes d ((howes d hd).2 he) a ha

omit [GrowthRng] in
/-- The actors stay as they are, and so do the depletions that somebody owes. -/
theorem Vital.same {sound : Prop} (h : Vital sound w) (hact : w'.actors = w.actors)
    (hst : ∀ rest, w'.stage ≠ .respawning rest)
    (hkeep : ∀ d ∈ w.owed, d ∈ w'.owed ∨ ∀ a, w.actors.get? d.victim.entity = some a → a.netId = d.victim.id →
      a.life ≠ .alive)
    (hless : ∀ d ∈ w'.owed, d ∈ w.owed) : Vital sound w' where
  alive e a ha hl := by
    rw [hact] at ha
    refine (h.alive e a ha hl).imp id fun ⟨d, hd, hv⟩ => ⟨d, (hkeep d hd).resolve_right fun hno => ?_, hv⟩
    exact hno a (by rw [hv]; exact ha) (by rw [hv]) hl
  down := by rw [hact]; exact h.down
  whole := by rw [hact]; exact h.whole
  owes d hd := by rw [hact]; exact h.owes d (hless d hd)
  respawns rest hr := absurd hr (hst rest)

/-- The way back to life is closed to all that are on the map. -/
def NoneRevived (w w' : LifeWorld) : Prop :=
  ∀ e a a', w.actors.get? e = some a → w'.actors.get? e = some a' → a.life ≠ .alive → a'.life ≠ .alive

omit [GrowthRng] in
theorem noneRevived_of_same (hact : w'.actors = w.actors) : NoneRevived w w' := by
  intro e a a' ha ha' hd
  rw [hact, ha] at ha'
  cases ha'
  exact hd

omit [GrowthRng] in
theorem noneRevived_insert {e0 : Entity} {a0 a0' : Actor} (h0 : w.actors.get? e0 = some a0)
    (hact : w'.actors = w.actors.insert e0 a0') (hl : a0.life ≠ .alive → a0'.life ≠ .alive) : NoneRevived w w' := by
  intro e a a' ha ha' hd
  rw [hact, OrdMap.get?_insert] at ha'
  split at ha'
  · rename_i he
    cases ha'
    rw [he, h0] at ha
    cases ha
    exact hl hd
  · rw [ha] at ha'
    cases ha'
    exact hd

omit [GrowthRng] in
theorem dead_ne_alive {life : ActorLifePhase} (h : life.isDead) : life ≠ .alive := by
  intro hl
  rw [hl] at h
  cases h

omit [GrowthRng] in
/-- A measured hit leaves a player its HP at zero or above. -/
theorem Struck.whole {roll : HitRoll} {a v : Actor} {stats : ActorStatsRuntime} {c : AttackCommand}
    {cs : List AttackCommand} (h : Struck cfg roll a v stats) (hst : w.stage = .attacking (c :: cs))
    (ha : w.actors.get? c.attacker = some a) (hv : w.actors.get? c.victim = some v) (hal : v.life = .alive)
    (hm : v.isMob = false) (hcap : 2 ≤ v.maxHp) (hmeas : w.measured cfg (.attack roll)) :
    0 ≤ stats.state.resources.hp := by
  obtain ⟨hatt, ⟨hca, hcv⟩, grade, hgrade, htook⟩ := h
  have hle : normalHitDamage roll grade ≤ v.hp := by
    simpa [LifeWorld.measured, hst, ha, hv, hm, hatt, hca, hcv, hgrade, isAlive_iff.2 hal] using hmeas
  rw [htook]
  unfold satI32 i32Min i32Max
  omega

omit [GrowthRng] in
theorem Vital.attack {sound : Prop} {c : AttackCommand} {cs : List AttackCommand} {roll : HitRoll} (h : Vital sound w)
    (hst : w.stage = .attacking (c :: cs)) (hale : w.hale) (hmeas : sound → w.measured cfg (.attack roll))
    (hs : { w with stage := .attacking cs }.processAttackCommand cfg c roll = some w') :
    Vital sound w' ∧ NoneRevived w w' := by
  have howed : w.owed = w.hpDepleted := by simp only [LifeWorld.owed, hst]
  rcases LifeWorld.processAttackCommand_eq_some hs
    with rfl | ⟨v, hv, hdy, rfl⟩ | ⟨a, v, stats, ha, hv, hal, hurt, struck, rfl⟩
  · exact ⟨h.same rfl (by rintro _ ⟨⟩) (fun d hd => .inl (howed ▸ hd)) (fun d hd => by rw [howed]; exact hd),
      noneRevived_of_same rfl⟩
  · have hnot : v.life ≠ .alive := by intro hl; rw [hl] at hdy; cases hdy
    have hdead : ∀ now, deathPhase now v ≠ .alive := fun now => dead_ne_alive (isDead_deathPhase now v)
    refine ⟨h.change rfl (by rintro _ ⟨⟩) (fun d hd _ => howed ▸ hd) (fun hl => absurd hl (hdead _))
      (fun _ => h.down _ v hv hnot)
      (fun hsd hm => h.whole hsd _ v hv hm)
        (fun d hd => ⟨fun _ => h.down _ v hv hnot, fun _ => by rw [howed]; exact hd⟩), ?_⟩
    exact noneRevived_insert hv rfl fun _ => hdead _
  · -- the depletions after the hit: those before it, and the victim if the hit took its HP
    set w' := LifeWorld.afterHit { w with stage := .attacking cs } ⟨c.attacker, a.netId⟩ ⟨c.victim, v.netId⟩ v
      stats with hw'
    have hmem : ∀ d, d ∈ w'.owed ↔ d ∈ w.hpDepleted ∨ ((0 < v.hp ∧ stats.state.resources.hp ≤ 0) ∧
        d = ⟨⟨c.victim, v.netId⟩, some ⟨c.attacker, a.netId⟩⟩) := by
      intro d
      show d ∈ w'.hpDepleted ↔ _
      by_cases hk : 0 < v.hp ∧ stats.state.resources.hp ≤ 0
      · simp [hw', LifeWorld.afterHit, hk]
      · simp [hw', LifeWorld.afterHit, hk]
    have hhp : ({ v with stats } : Actor).hp = stats.state.resources.hp := rfl
    refine ⟨h.change rfl (by rintro _ ⟨⟩) (fun d hd _ => (hmem d).2 (.inl (howed ▸ hd))) (fun _ => ?_)
      (fun hd => absurd hal hd)
      (fun hsd hm => ?_) (fun d hd => ?_), noneRevived_insert hv rfl fun hd => absurd hal hd⟩
    · by_cases hpos : 0 < stats.state.resources.hp
      · exact .inl hpos
      · refine .inr ?_
        rcases h.alive _ v hv hal with hv0 | ⟨d, hd, hdv⟩
        · exact ⟨_, (hmem _).2 (.inr ⟨⟨hv0, not_lt.1 hpos⟩, rfl⟩), rfl⟩
        · exact ⟨d, (hmem d).2 (.inl (howed ▸ hd)), hdv⟩
    · exact struck.whole hst ha hv hal hm ((LifeWorld.hale_iff w).1 hale _ v hv hm) (hmeas hsd)
    · rcases (hmem d).1 hd with hd | ⟨⟨_, hle⟩, rfl⟩
      · rw [← howed] at hd
        exact ⟨fun he => hurt.depleted (h.owes d hd v (by rw [he]; exact hv)), fun _ => hd⟩
      · exact ⟨fun _ => hle, fun hne => absurd rfl hne⟩

omit [GrowthRng] in
theorem Vital.beginActorDying {sound : Prop} {d : ActorHpDepleted} {ds : List ActorHpDepleted} (h : Vital sound w)
    (hst : w.stage = .dying (d :: ds)) : let w' := { w with stage := .dying ds }.beginActorDying d.victim
    Vital sound w' ∧ NoneRevived w w' := by
  have howed : w.owed = d :: ds := by simp only [LifeWorld.owed, hst]
  rcases LifeWorld.beginActorDying_cases { w with stage := .dying ds } d.victim
    with ⟨heq, hno⟩ | ⟨a, t, t', ha, hid, hl, heq⟩
  · rw [heq]
    refine ⟨h.same rfl nofun (fun d' hd' => ?_) (fun d' hd' => by rw [howed]; exact List.mem_cons_of_mem _ hd'),
      noneRevived_of_same rfl⟩
    rw [howed] at hd'
    rcases List.mem_cons.1 hd' with rfl | hd'
    · exact .inr hno
    · exact .inl hd'
  · rw [heq]
    have hzero : a.hp ≤ 0 := h.owes d (by rw [howed]; exact List.mem_cons_self) a ha
    refine ⟨h.change rfl nofun (fun d' hd' hne => ?_) (fun hal => by cases hal) (fun _ => hzero)
      (fun hsd hm => h.whole hsd _ a ha hm) (fun d' hd' => ⟨fun _ => hzero, fun _ => ?_⟩),
        noneRevived_insert ha rfl fun _ => nofun⟩
    · rw [howed] at hd'
      rcases List.mem_cons.1 hd' with rfl | hd'
      · exact absurd rfl hne
      · exact hd'
    · rw [howed]; exact List.mem_cons_of_mem _ hd'

theorem Vital.fight {sound : Prop} (h : Vital sound w) (hf : w.stage.peaceful = false) (hale : w.hale)
    (hmeas : sound → w.measured cfg ev) (hs : w.step cfg ev = some w') : Vital sound w' ∧ NoneRevived w w' := by
  cases hst : w.stage with
  | attacking rest =>
    cases rest with
    | nil =>
      cases ev <;> simp [LifeWorld.step, LifeWorld.next, hst] at hs
      subst hs
      have howed : w.owed = w.hpDepleted := by simp only [LifeWorld.owed, hst]
      exact ⟨h.same rfl (by rintro _ ⟨⟩) (fun d hd => .inl (howed ▸ hd)) (fun d hd => by rw [howed]; exact hd),
        noneRevived_of_same rfl⟩
    | cons c cs =>
      cases ev with
      | attack roll =>
        simp only [LifeWorld.step, hst] at hs
        exact h.attack hst hale hmeas hs
      | _ => simp [LifeWorld.step, LifeWorld.next, hst] at hs
  | dying rest =>
    cases rest with
    | nil =>
      cases ev <;> simp [LifeWorld.step, LifeWorld.next, hst] at hs
      subst hs
      have howed : w.owed = [] := by simp only [LifeWorld.owed, hst]
      exact ⟨h.same rfl (by rintro _ ⟨⟩) (fun d hd => by rw [howed] at hd; cases hd) (by rintro _ ⟨⟩),
        noneRevived_of_same rfl⟩
    | cons d ds =>
      cases ev <;> simp [LifeWorld.step, LifeWorld.next, hst] at hs
      subst hs
      exact h.beginActorDying hst
  | _ => rw [hst] at hf; cases hf

/-! ## Coupling -/

/-- What one step keeps, and who it brings back to life. -/
theorem Vital.step {sound : Prop} (hk : Kept w) (h : Vital sound w) (hale : w.hale) (hale' : w'.hale)
    (henter : LifeWorld.entersAlive cfg ev) (hl : w.rewardsTheLiving cfg ev) (hmeas : sound → w.measured cfg ev)
    (hs : w.step cfg ev = some w') : Vital sound w' ∧ ∀ e a a', w.actors.get? e = some a → w'.actors.get? e = some a' →
      a.life ≠ .alive → a'.life = .alive → RestartTurn w e := by
  cases hp : w.stage.peaceful with
  | true =>
    have hpc := peace_step hk hp hs
    refine ⟨h.peace hp hpc hale hale' henter hl, fun e a a' ha ha' hd hal => ?_⟩
    rcases hpc.moves e a' ha' with ⟨a0, ha0, _, hc⟩ | ⟨hnone, _⟩
    · rw [ha] at ha0
      cases ha0
      exact hc.revived hd hal
    · rw [ha] at hnone
      cases hnone
  | false =>
    obtain ⟨hv, hnone⟩ := h.fight hp hale hmeas hs
    exact ⟨hv, fun e a a' ha ha' hd hal => absurd hal (hnone e a a' ha ha' hd)⟩

omit [GrowthRng] in
theorem vital_empty (sound : Prop) : Vital sound .empty where
  alive _ _ h := by cases h
  down _ _ h := by cases h
  whole _ _ _ h := by cases h
  owes _ h := by cases h
  respawns _ h := by cases h

theorem vital_run {sound : Prop} {es : List LifeEvent} (h : run (LifeWorld.step cfg) .empty es = some w)
    (hale : Along (LifeWorld.step cfg) (fun w => w.hale) .empty es)
    (henter : Meets (LifeWorld.step cfg) (fun _ ev => LifeWorld.entersAlive cfg ev) .empty es)
    (hl : Meets (LifeWorld.step cfg) (fun w ev => w.rewardsTheLiving cfg ev) .empty es)
    (hmeas : Meets (LifeWorld.step cfg) (fun w ev => sound → w.measured cfg ev) .empty es) :
    (Kept w ∧ Vital sound w) ∧ w.hale := by
  refine run_inv_along (I := fun w => Kept w ∧ Vital sound w) (fun s ev t hI hP hP' hC hs => ?_)
    ⟨kept_empty, vital_empty sound⟩ hale (henter.and (hl.and hmeas)) h
  exact ⟨hI.1.step hs, (hI.2.step hI.1 hP hP' hC.1 hC.2.1 hC.2.2 hs).1⟩

/-- In every run in which players enter with HP, no reward with a level step reaches a player that is not alive and the
capacity of a player's HP is never below two, life and HP are coupled at the end of every lifecycle. If moreover no hit
takes more HP than a player has, then nothing raises the HP of a player that is not alive but its restart. -/
theorem life_hp_coupled {es : List LifeEvent} (h : run (LifeWorld.step cfg) .empty es = some w)
    (henter : Meets (LifeWorld.step cfg) (fun _ ev => LifeWorld.entersAlive cfg ev) .empty es)
    (hl : Meets (LifeWorld.step cfg) (fun w ev => w.rewardsTheLiving cfg ev) .empty es)
    (hale : Along (LifeWorld.step cfg) (fun w => w.hale) .empty es) :
    (w.stage = .lifecycleEnd → Coupled w) ∧
    (Meets (LifeWorld.step cfg) (fun w ev => w.measured cfg ev) .empty es → ∀ ev w', w.step cfg ev = some w' →
      LifeWorld.entersAlive cfg ev → w.rewardsTheLiving cfg ev → w.measured cfg ev → w'.hale →
      ∀ e a a', w.actors.get? e = some a → a.isMob = false → a.life ≠ .alive → w'.actors.get? e = some a' →
        a.hp < a'.hp →
        RestartTurn w e) := by
  refine ⟨fun hst e a ha => ?_, fun hmeas ev w' hs he hlv hm hale' e a a' ha hmob hd ha' hlt => ?_⟩
  · obtain ⟨⟨_, hv⟩, _⟩ := @vital_run _ _ _ False _ h hale henter hl (hl.of_imp fun _ _ _ => nofun)
    have hf := hv.fit (by simp only [LifeWorld.owed, hst]) ha
    exact ⟨hf.alive, hf.down⟩
  · obtain ⟨⟨hk, hv⟩, hh⟩ := @vital_run _ _ _ True _ h hale henter hl (hmeas.of_imp fun _ _ hm _ => hm)
    obtain ⟨hv', hrevived⟩ := hv.step hk hh hale' he hlv (fun _ => hm) hs
    refine hrevived e a a' ha ha' hd ?_
    -- it had no HP and has some now, so it is alive
    by_contra hd'
    have h0 := hv.whole trivial e a ha hmob
    have h1 := hv'.down e a' ha' hd'
    omega

end

/-- The wolf dies at the novice's hands and the novice, alive, is rewarded with a level step. -/
theorem life_hp_coupled_wolf :
    let := splitMix64Rolls
    ∃ w, run (LifeWorld.step wolfMap) .empty wolfSlain = some w ∧ w.stage = .lifecycleEnd ∧ Coupled w := by
  intro rng
  have hrun : (run (LifeWorld.step wolfMap) .empty wolfSlain).map (fun w => decide (w.stage = .lifecycleEnd)) =
      some true := by
    decide +kernel
  obtain ⟨w, hw, hst⟩ := Option.map_eq_some_iff.1 hrun
  have hst' := of_decide_eq_true hst
  refine ⟨w, hw, hst', (life_hp_coupled hw ?_ ?_ ?_).1 hst'⟩
  · decide +kernel
  · decide +kernel
  · decide +kernel

/-- The novice kills a wolf, is killed by the other one while the first is still dying, and is rewarded for it. -/
def wolfAvenged : List LifeEvent :=
  wolvesAndNovice ++ threeActorFrame 1000 [.playerBasicAttack ⟨2⟩ ⟨0⟩] 1 0 ++ threeActorRest ++
    threeActorFrame 3000 [.mobBasicAttack ⟨1⟩ ⟨2⟩] 1 0 ++ threeActorRest ++ threeActorFrame 4000 [] 0 1

/-- Everybody enters with HP, and yet at the end of a lifecycle a dying player has all of it. -/
theorem dying_player_refilled :
    let := splitMix64Rolls
    ∃ w a, run (LifeWorld.step wolfMap) .empty wolfAvenged = some w ∧
      Meets (LifeWorld.step wolfMap) (fun _ ev => LifeWorld.entersAlive wolfMap ev) .empty wolfAvenged ∧
      w.stage = .lifecycleEnd ∧ w.actors.get? ⟨2⟩ = some a ∧ a.isMob = false ∧ a.life.isDying ∧ a.hp = 760 ∧
        ¬ Coupled w := by
  intro rng
  have hrun : (run (LifeWorld.step wolfMap) .empty wolfAvenged).bind (fun w => (w.actors.get? ⟨2⟩).map fun a =>
      decide (w.stage = .lifecycleEnd ∧ a.isMob = false ∧ a.life.isDying ∧ a.hp = 760)) = some true := by
    decide +kernel
  obtain ⟨w, hw, hrun⟩ := Option.bind_eq_some_iff.1 hrun
  obtain ⟨a, ha, hrun⟩ := Option.map_eq_some_iff.1 hrun
  obtain ⟨hst, hm, hdy, hhp⟩ := of_decide_eq_true hrun
  refine ⟨w, a, hw, by decide +kernel, hst, ha, hm, hdy, hhp, fun hc => ?_⟩
  have hle := (hc _ a ha).2 (by intro hl; rw [hl] at hdy; cases hdy)
  omega

end Zohar.Sim
