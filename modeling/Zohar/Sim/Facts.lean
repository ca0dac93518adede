/-
The facts of a frame, from zohar-sim/src/runtime: facts.rs, projection.rs, the mob attacks of mob/ai.rs, action/plan.rs
and action/apply.rs, and apply_combat_outcome of combat.rs. A hit and an aimed projectile leave a fact that names
actors; the corpses of the frame are removed before the facts are projected, and the projection does not ask again
whether an actor is there. The frame itself is that of the life model, with what its attacks leave written down.
-/
import Zohar.Sim.Coupling

namespace Zohar.Sim

open Zohar.Lib Zohar.Stats
open Zohar.Replication (EntityId)
open Zohar.Spawn (MobId)

/-! ## Facts -/

/-- A hit. Its flags are left out: `resolve_normal_hit` only makes normal ones. -/
structure ActorDamaged where
  attacker : ActorRef
  victim : ActorRef
  damage : Int
  deriving DecidableEq

structure ProjectileTargetedFact where
  caster : ActorRef
  target : ActorRef
  deriving DecidableEq

/-- What `build_mob_attack_action` puts into a `MobAttack`, without its place, direction and duration. -/
structure MobAttack where
  mobEntity : Entity
  targetEntity : Entity
  damageSchedule : AttackDamageSchedule
  setProjectileTarget : Bool

/-- The action buffer: filled by the systems before `process_actions`, which takes it and goes through it. -/
inductive ActionBuffer where
  | filling (actions : List MobAttack)
  | applying (rest : List MobAttack)

def ActionBuffer.pending : ActionBuffer → List MobAttack
  | .filling actions | .applying actions => actions

/-- What the projection sends. -/
inductive Projected where
  | healthBar (victim : EntityId)
  | damageInfoIfSelected (attacker : Entity) (victim : EntityId) (damage : Int)
  | damageInfo (player : Entity) (victim : EntityId) (damage : Int)
  | projectileTarget (caster target : EntityId)
  deriving DecidableEq

structure FactsWorld where
  life : LifeWorld
  actions : ActionBuffer
  damaged : List ActorDamaged
  projectileTargets : List ProjectileTargetedFact
  projected : List Projected

namespace FactsWorld

def empty : FactsWorld where
  life := .empty
  actions := .filling []
  damaged := []
  projectileTargets := []
  projected := []

/-- Every entity that a fact names to the projection. -/
def named (w : FactsWorld) : List Entity :=
  (w.damaged.flatMap fun fact => [fact.attacker.entity, fact.victim.entity]) ++
    w.projectileTargets.map fun fact => fact.target.entity

/-! ## Mobs that attack -/

/-- One mob of `process_mob_ai` that would attack: `collect_mob_context`, `validate_target` and
`build_mob_attack_action`. The target is what the net id index gives for the target of its brain. -/
def processMobAi (cfg : LifeConfig) (w : FactsWorld) (actions : List MobAttack) (attack : MobAttack) :
    Option FactsWorld :=
  match w.life.actors.get? attack.mobEntity with
  | none => some w
  | some m =>
    if m.isMob = false ∨ m.life.isAlive = false ∨ cfg.hasCombatant m = false then some w
    else
      match w.life.actors.get? attack.targetEntity with
      | none => none
      | some t =>
        -- not a combat target, or no `player_position`
        if t.life.isDead ∨ t.isMob then some w else some { w with actions := .filling (actions ++ [attack]) }

/-- `apply_action` of a `MobAttack`. -/
def applyMobAttack (w : FactsWorld) (attack : MobAttack) : Option FactsWorld :=
  match w.life.actors.get? attack.mobEntity with
  | none => none
  | some m =>
    if m.life.isAlive = false then some w
    else
      match w.life.actors.get? attack.targetEntity with
      | none => none
      | some t =>
        if t.life.isDead then some w
        else
          let targeted : ProjectileTargetedFact := ⟨⟨attack.mobEntity, m.netId⟩, ⟨attack.targetEntity, t.netId⟩⟩
          some { w with
            life := w.life.scheduleAttackDamage (.mobBasicAttack attack.mobEntity attack.targetEntity)
              attack.damageSchedule
            projectileTargets :=
              if attack.setProjectileTarget then w.projectileTargets ++ [targeted] else w.projectileTargets }

/-! ## Hits -/

/-- `resolve_attack_command`, with the hit that it resolves to. -/
def resolveAttackCommand (cfg : LifeConfig) (w : LifeWorld) (command : AttackCommand) (roll : HitRoll) :
    Option ActorDamaged :=
  match w.actors.get? command.attacker, w.actors.get? command.victim with
  | some a, some v =>
    if a.life.isAlive ∧ v.life.isAlive ∧ cfg.hasCombatant a ∧ cfg.hasCombatant v then
      (readLimitedOf v.stats .defGrade).map fun defenceGrade =>
        ⟨⟨command.attacker, a.netId⟩, ⟨command.victim, v.netId⟩, normalHitDamage roll defenceGrade⟩
    else none
  | _, _ => none

/-- The fact that `apply_combat_outcome` pushes, when the victim's HP takes the damage. -/
def damageFact (cfg : LifeConfig) (w : LifeWorld) (command : AttackCommand) (roll : HitRoll) : Option ActorDamaged :=
  (resolveAttackCommand cfg w command roll).filter fun fact =>
    match w.actors.get? fact.victim.entity with
    | none => false
    | some v =>
      match (withApi (GameStatsApi.applyResource (ResourceApplication.damage fact.damage))).run v.stats with
      | some (.ok _, _) => true
      | some (.error _, _) | none => false

/-! ## The projection -/

/-- The projection of a hit. `world.entity` panics on an entity that is gone. -/
def projectDamaged (w : LifeWorld) (fact : ActorDamaged) : Option (List Projected) := do
  let victim ← w.actors.get? fact.victim.entity
  let attacker ← w.actors.get? fact.attacker.entity
  return (if victim.isMob then [.healthBar fact.victim.id] else []) ++
    (if attacker.isMob then [] else [.damageInfoIfSelected fact.attacker.entity fact.victim.id fact.damage]) ++
    (if victim.isMob then [] else [.damageInfo fact.victim.entity fact.victim.id fact.damage])

def projectTargeted (w : LifeWorld) (fact : ProjectileTargetedFact) : Option Projected := do
  let _ ← w.actors.get? fact.target.entity
  return .projectileTarget fact.caster.id fact.target.id

/-- `project_frame_facts`, on the facts that name entities. -/
def projectFrameFacts (w : FactsWorld) : Option FactsWorld := do
  let hits ← w.damaged.mapM (projectDamaged w.life)
  let targets ← w.projectileTargets.mapM (projectTargeted w.life)
  return { w with damaged := [], projectileTargets := [], projected := w.projected ++ hits.flatten ++ targets }

end FactsWorld

/-! ## Steps -/

inductive FactsEvent where
  | think (attack : MobAttack)
  | processActions
  | applyAction
  | life (ev : LifeEvent)

namespace FactsWorld

variable [GrowthRng]

/-- The steps of the life model, with the facts that they leave, and the actions of the mobs between them. -/
def step (cfg : LifeConfig) (w : FactsWorld) : FactsEvent → Option FactsWorld
  | .think attack =>
    match w.life.stage, w.actions with
    | .acting, .filling actions => w.processMobAi cfg actions attack
    | _, _ => none
  | .processActions =>
    match w.life.stage, w.actions with
    | .acting, .filling actions => some { w with actions := .applying actions }
    | _, _ => none
  | .applyAction =>
    match w.life.stage, w.actions with
    | .acting, .applying (attack :: rest) => { w with actions := .applying rest }.applyMobAttack attack
    | _, _ => none
  | .life ev =>
    match w.life.stage, w.actions, ev with
    -- `process_attack_commands` starts when `process_actions` is through
    | .acting, .applying [], .release travel => do
      let life ← w.life.step cfg (.release travel)
      return { w with life, actions := .filling [] }
    | .acting, _, .release _ => none
    | .attacking (command :: _), _, .attack roll => do
      let life ← w.life.step cfg (.attack roll)
      return { w with life, damaged := w.damaged ++ (damageFact cfg w.life command roll).toList }
    | .regenerating [], _, .next => do
      let w' ← w.projectFrameFacts
      let life ← w.life.step cfg .next
      return { w' with life }
    | _, _, ev => do
      let life ← w.life.step cfg ev
      return { w with life }

end FactsWorld

/-! ## Who stays until the projection -/

/-- What keeps an actor of a fact on the map at each stage of the frame: a mob is alive while there are attacks, is not
dead before the corpses are looked for, and is then not among the corpses that are due. No fact is left at the
others. -/
def Spared (stage : Stage) (due : List ActorRef) (e : Entity) (a : Actor) : Prop :=
  match stage with
  | .acting | .attacking _ => a.isMob → a.life.isAlive
  | .dying _ | .claiming _ => a.isMob → a.life.isDead = false
  | .aging rest => e ∉ due.map (·.entity) ∧ (a.isMob → e ∈ rest → a.life.isDead = false)
  | .restarting _ | .respawning _ | .granting _ => e ∉ due.map (·.entity)
  | .cleaning rest => e ∉ rest.map (·.entity)
  | .lifecycleEnd | .regenerating _ => True
  | .startup | .inbound | .sense | .progressing | .normalizing _ | .flushing _ => False

def LifeWorld.Spares (w : LifeWorld) (e : Entity) : Prop :=
  ∃ a, w.actors.get? e = some a ∧ Spared w.stage w.cleanupDue e a

/-- Where hits can be owed a dying. -/
def Stage.fighting : Stage → Bool
  | .attacking _ | .dying _ | .claiming _ => true
  | _ => false

/-- The invariant of the life model here: no corpse is due before they are looked for, each actor is looked at once. -/
structure FrameKept (w : LifeWorld) : Prop where
  kept : Kept w
  due : w.stage.fighting → w.cleanupDue = []
  order : ∀ rest, w.stage = .aging rest → rest.Nodup

theorem frameKept_empty : FrameKept .empty where
  kept := kept_empty
  due := nofun
  order := nofun

namespace LifeWorld

variable {w w' : LifeWorld}

theorem scheduleAttackDamage_same (w : LifeWorld) (command : AttackCommand) (schedule : AttackDamageSchedule) :
    (w.scheduleAttackDamage command schedule).stage = w.stage ∧
      (w.scheduleAttackDamage command schedule).actors = w.actors := by
  cases schedule <;> exact ⟨rfl, rfl⟩

theorem Spares.of_same (ha : w'.actors = w.actors)
    (hi : ∀ e a, Spared w.stage w.cleanupDue e a → Spared w'.stage w'.cleanupDue e a) :
    ∀ e, w.Spares e → w'.Spares e := by
  rintro e ⟨a, hget, hsp⟩
  exact ⟨a, by rw [ha]; exact hget, hi e a hsp⟩

/-- One actor has changed. -/
theorem Spares.of_insert {x : Entity} {a z : Actor} (hx : w.actors.get? x = some a)
    (ha : w'.actors = w.actors.insert x z)
    (hi : ∀ e b, Spared w.stage w.cleanupDue e b → Spared w'.stage w'.cleanupDue e b)
    (hz : Spared w.stage w.cleanupDue x a → Spared w'.stage w'.cleanupDue x z) : ∀ e, w.Spares e → w'.Spares e := by
  rintro e ⟨b, hget, hsp⟩
  by_cases he : e = x
  · subst he
    cases hx.symm.trans hget
    exact ⟨z, by rw [ha, OrdMap.get?_insert, if_pos rfl], hz hsp⟩
  · exact ⟨b, by rw [ha, OrdMap.get?_insert, if_neg he]; exact hget, hi e b hsp⟩

end LifeWorld

/-- Being spared depends on the life of mobs only. -/
theorem Spared.follow {stage : Stage} {due : List ActorRef} {e : Entity} {a z : Actor} (h : Spared stage due e a)
    (hz : z.isMob → a.isMob ∧ z.life = a.life) : Spared stage due e z := by
  unfold Spared at h ⊢
  split at h
  all_goals first
    | exact h
    | (intro hm
       obtain ⟨hm', hl⟩ := hz hm
       rw [hl]
       exact h hm')
    | (refine ⟨h.1, fun hm he => ?_⟩
       obtain ⟨hm', hl⟩ := hz hm
       rw [hl]
       exact h.2 hm' he)

theorem Spared.follow_player {stage : Stage} {due : List ActorRef} {e : Entity} {a z : Actor} (h : Spared stage due e a)
    (hz : z.isMob = false) : Spared stage due e z := h.follow fun hm => by rw [hz] at hm; cases hm

/-! ## Steps of the frame -/

/-- What a step carries over, up to the projection. -/
structure Onward (w w' : LifeWorld) : Prop where
  due : w'.stage.fighting → w'.cleanupDue = []
  order : ∀ rest, w'.stage = .aging rest → rest.Nodup
  spares : ∀ e, w.Spares e → w'.Spares e

section
variable [GrowthRng] {cfg : LifeConfig} {w w' : LifeWorld}

omit [GrowthRng] in
/-- Only the stage is another. -/
theorem Onward.at {s : Stage} (hd : s.fighting → w.cleanupDue = []) (ho : ∀ rest, s = .aging rest → rest.Nodup)
    (hi : ∀ e a, Spared w.stage w.cleanupDue e a → Spared s w.cleanupDue e a) : Onward w { w with stage := s } :=
  ⟨hd, ho, LifeWorld.Spares.of_same rfl hi⟩

omit [GrowthRng] in
theorem Onward.trans {v : LifeWorld} (h : Onward w v) (hstage : w'.stage = v.stage)
    (hdue : w'.cleanupDue = v.cleanupDue) (hs : ∀ e, v.Spares e → w'.Spares e) : Onward w w' where
  due hf := by rw [hdue]; exact h.due (by rw [← hstage]; exact hf)
  order rest hr := h.order rest (by rw [← hstage]; exact hr)
  spares e he := hs e (h.spares e he)

omit [GrowthRng] in
/-- A player has changed. -/
theorem Onward.updatePlayer {v : LifeWorld} (h : Onward w v) {e : Entity} {f : Actor → PlayerComps → Option Actor}
    (hu : v.updatePlayer e f = some w') (hf : ∀ a p z, a.role = .player p → f a p = some z → z.isMob = false) :
    Onward w w' := by
  rcases LifeWorld.updatePlayer_eq_some hu with rfl | ⟨a, p, z, hget, hp, hfa, rfl⟩
  · exact h
  · exact h.trans rfl rfl (LifeWorld.Spares.of_insert hget rfl (fun _ _ => id) fun hsp =>
      hsp.follow_player (hf a p z hp hfa))

/-- A death takes its turn. -/
theorem FrameKept.onward_dying (h : FrameKept w) {rest : List ActorHpDepleted} (hst : w.stage = .dying rest)
    (hs : w.next cfg = some w') : Onward w w' := by
  unfold LifeWorld.next at hs
  have hdue := h.due (by rw [hst]; rfl)
  have hi : ∀ {r : List ActorHpDepleted} e a, Spared w.stage w.cleanupDue e a → Spared (.dying r) w.cleanupDue e a :=
    fun e a hsp => by rw [hst] at hsp; exact hsp
  cases rest with
  | nil => simp only [hst] at hs; cases hs; exact .at (fun _ => hdue) nofun fun e a hsp => by rw [hst] at hsp; exact hsp
  | cons d ds =>
    simp only [hst] at hs
    cases hs
    rcases LifeWorld.beginActorDying_cases { w with stage := .dying ds } d.victim with
      ⟨heq, _⟩ | ⟨a, t, t', hget, _, _, heq⟩
    · rw [heq]; exact .at (fun _ => hdue) nofun hi
    · rw [heq]
      refine ⟨fun _ => hdue, nofun, LifeWorld.Spares.of_insert hget rfl hi fun _ _ => ?_⟩
      rfl

/-- A claim is recorded, or not. -/
theorem FrameKept.onward_claiming (h : FrameKept w) {rest : List ActorHpDepleted} (hst : w.stage = .claiming rest)
    (hs : w.next cfg = some w') : Onward w w' := by
  unfold LifeWorld.next at hs
  have hdue := h.due (by rw [hst]; rfl)
  have hi : ∀ {r : List ActorHpDepleted} e a, Spared w.stage w.cleanupDue e a → Spared (.claiming r) w.cleanupDue e a :=
    fun e a hsp => by rw [hst] at hsp; exact hsp
  cases rest with
  | nil => simp only [hst] at hs; cases hs
  | cons d ds =>
    simp only [hst] at hs
    cases hs
    rcases LifeWorld.recordMobDeathRewardClaim_cases cfg { w with stage := .claiming ds } d with
      heq | ⟨killer, v, m, _, hget, hm, heq⟩
    · rw [heq]; exact .at (fun _ => hdue) nofun hi
    · rw [heq]
      refine ⟨fun _ => hdue, nofun, LifeWorld.Spares.of_insert hget rfl hi fun hsp => ?_⟩
      exact (hi _ _ hsp).follow fun _ => ⟨by simp [Actor.isMob, hm], rfl⟩

/-- An actor ages by a frame: whoever is dead at its turn is due for cleanup. -/
theorem FrameKept.onward_aging (h : FrameKept w) {rest : List Entity} (hst : w.stage = .aging rest)
    (hs : w.next cfg = some w') : Onward w w' := by
  unfold LifeWorld.next at hs
  have hnd := h.order rest hst
  cases rest with
  | nil =>
    simp only [hst] at hs
    cases hs
    refine .at nofun nofun fun e a hsp => ?_
    rw [hst] at hsp
    exact hsp.1
  | cons x es =>
    simp only [hst] at hs
    cases hs
    obtain ⟨hx, hes⟩ := List.nodup_cons.1 hnd
    have hi : ∀ e a, Spared w.stage w.cleanupDue e a → Spared (.aging es) w.cleanupDue e a := by
      intro e a hsp
      rw [hst] at hsp
      exact ⟨hsp.1, fun hm he => hsp.2 hm (List.mem_cons_of_mem _ he)⟩
    have horder : ∀ rest, Stage.aging es = .aging rest → rest.Nodup := by
      rintro rest ⟨⟩
      exact hes
    rcases LifeWorld.ageActor_cases { w with stage := .aging es } x
      with heq | ⟨a, hget, _, heq⟩ | ⟨a, hget, hm, hd, heq⟩
    · rw [heq]; exact .at nofun horder hi
    · rw [heq]
      -- it has had its turn, so that it is not looked at again
      refine ⟨nofun, horder, LifeWorld.Spares.of_insert hget rfl hi fun hsp =>
        ⟨(hi _ _ hsp).1, fun _ he => absurd he hx⟩⟩
    · rw [heq]
      -- whoever is dead at its turn is not spared
      refine ⟨nofun, horder, ?_⟩
      rintro e ⟨b, hb, hsp⟩
      refine ⟨b, hb, fun he => ?_, (hi e b hsp).2⟩
      rw [hst] at hsp
      simp only [List.map_append, List.map_cons, List.map_nil, List.mem_append, List.mem_singleton] at he
      rcases he with he | rfl
      · exact hsp.1 he
      · cases hget.symm.trans hb
        have := hsp.2 hm List.mem_cons_self
        rw [hd] at this
        cases this

/-- A restart that was asked for. -/
theorem Onward.restarting {rest : List Entity} (hst : w.stage = .restarting rest) (hs : w.next cfg = some w') :
    Onward w w' := by
  unfold LifeWorld.next at hs
  have hi : ∀ {r : List Entity} e a, Spared w.stage w.cleanupDue e a → Spared (.restarting r) w.cleanupDue e a :=
    fun e a hsp => by rw [hst] at hsp; exact hsp
  cases rest with
  | nil => simp only [hst] at hs; cases hs; exact .at nofun nofun fun e a hsp => by rw [hst] at hsp; exact hsp
  | cons e es =>
    simp only [hst] at hs
    rcases LifeWorld.processRequestedRestart_eq_some hs with rfl | ⟨a, p, hget, hr, hw⟩
    · exact .at nofun nofun hi
    · have hquiet :
          Onward w ({ w with stage := .restarting es }.put e
          { a with role := .player { p with restartIntents := [] } }) :=
        ⟨nofun, nofun, LifeWorld.Spares.of_insert hget rfl hi fun hsp => (hi _ _ hsp).follow_player rfl⟩
      rcases hw with rfl | ⟨_, hw⟩
      · exact hquiet
      · refine hquiet.updatePlayer hw fun b q z hq hf => ?_
        obtain ⟨_, _, rfl⟩ := Option.map_eq_some_iff.1 hf
        exact isMob_of_player (p := q) hq

/-- A reward is granted to its killer, and the claim is gone. -/
theorem Onward.granting {rest : List ActorRef} (hst : w.stage = .granting rest) (hs : w.next cfg = some w') :
    Onward w w' := by
  unfold LifeWorld.next at hs
  have hi : ∀ {r : List ActorRef} e a, Spared w.stage w.cleanupDue e a → Spared (.granting r) w.cleanupDue e a :=
    fun e a hsp => by rw [hst] at hsp; exact hsp
  cases rest with
  | nil =>
    simp only [hst] at hs
    cases hs
    exact .at (by rintro ⟨⟩) (by rintro _ ⟨⟩) fun e a hsp => by rw [hst] at hsp; exact hsp
  | cons d ds =>
    simp only [hst] at hs
    rcases LifeWorld.grantMobDeathReward_eq_some hs with
      rfl | ⟨v, m, killer, hv, hm, _, rfl | ⟨k, p, reward, r, q, hk, hr, _, _, _, rfl⟩⟩
    · exact .at (by rintro ⟨⟩) (by rintro _ ⟨⟩) hi
    · refine ⟨by rintro ⟨⟩, by rintro _ ⟨⟩, LifeWorld.Spares.of_insert hv rfl hi fun hsp =>
        (hi _ _ hsp).follow fun _ => ⟨?_, rfl⟩⟩
      simp [Actor.isMob, hm]
    · have hne : d.entity ≠ killer.entity := by
        intro he
        cases (he ▸ hv : w.actors.get? killer.entity = some v).symm.trans hk
        rw [hr] at hm
        cases hm
      -- first the player, then the mob
      have hplayer : Onward w ({ w with stage := .granting ds }.put killer.entity (k.withLive p q)) :=
        ⟨by rintro ⟨⟩, by rintro _ ⟨⟩, LifeWorld.Spares.of_insert hk rfl hi fun hsp => (hi _ _ hsp).follow_player rfl⟩
      refine hplayer.trans rfl rfl
        (LifeWorld.Spares.of_insert (x := d.entity) (a := v) ?_ rfl (fun _ _ => id) fun hsp =>
        hsp.follow fun _ => ⟨by simp [Actor.isMob, hm], rfl⟩)
      rw [LifeWorld.put, OrdMap.get?_insert, if_neg hne]
      exact hv

/-- A mob that is due is destroyed. -/
theorem Onward.cleaning {rest : List ActorRef} (hst : w.stage = .cleaning rest) (hs : w.next cfg = some w') :
    Onward w w' := by
  unfold LifeWorld.next at hs
  cases rest with
  | nil => simp only [hst] at hs; cases hs; exact .at nofun nofun fun _ _ _ => trivial
  | cons d ds =>
    simp only [hst] at hs
    cases hs
    refine ⟨?_, ?_, ?_⟩
    · unfold LifeWorld.destroyMobEntity; split <;> nofun
    · unfold LifeWorld.destroyMobEntity; split <;> nofun
    · rintro e ⟨a, hget, hsp⟩
      rw [hst] at hsp
      obtain ⟨hed, heds⟩ : e ≠ d.entity ∧ e ∉ ds.map (·.entity) := by simpa [Spared] using hsp
      unfold LifeWorld.destroyMobEntity
      split
      · exact ⟨a, by rw [LifeWorld.record, OrdMap.get?_erase, if_neg hed]; exact hget, heds⟩
      · exact ⟨a, hget, heds⟩

theorem FrameKept.onward_next (h : FrameKept w) (hs : w.next cfg = some w') (hp : w.stage ≠ .regenerating []) :
    Onward w w' := by
  have hs' := hs
  unfold LifeWorld.next at hs
  have hnone : ∀ {s : Stage}, w.stage = s → (∀ e a, ¬ Spared s w.cleanupDue e a) →
      ∀ {t : Stage} e a, Spared w.stage w.cleanupDue e a → Spared t w.cleanupDue e a :=
    fun hst hno _ e a hsp => absurd (hst ▸ hsp) (hno e a)
  cases hst : w.stage with
  | startup => simp only [hst] at hs; cases hs; exact .at nofun nofun (hnone hst fun _ _ => id)
  | inbound => simp only [hst] at hs; cases hs
  | sense => simp only [hst] at hs; cases hs; exact .at nofun nofun (hnone hst fun _ _ => id)
  | progressing => simp only [hst] at hs; cases hs; exact .at nofun nofun (hnone hst fun _ _ => id)
  | normalizing rest =>
    cases rest with
    | nil => simp only [hst] at hs; cases hs; exact .at nofun nofun (hnone hst fun _ _ => id)
    | cons e es =>
      simp only [hst] at hs
      refine (Onward.at (s := .normalizing es) nofun nofun (hnone hst fun _ _ => id)).updatePlayer hs
        fun a p z _ hf => ?_
      obtain ⟨_, _, rfl⟩ := Option.map_eq_some_iff.1 hf
      rfl
  | acting => simp only [hst] at hs; cases hs
  | attacking rest =>
    cases rest with
    | cons c cs => simp only [hst] at hs; cases hs
    | nil =>
      simp only [hst] at hs
      cases hs
      refine .at (fun _ => h.due (by rw [hst]; rfl)) nofun fun e a hsp hm => ?_
      rw [hst] at hsp
      have hal := hsp hm
      cases hl : a.life with
      | alive => rfl
      | dying _ _ => rfl
      | dead _ _ _ _ _ => rw [hl] at hal; cases hal
  | dying rest => exact h.onward_dying hst hs'
  | claiming rest => exact h.onward_claiming hst hs'
  | aging rest => exact h.onward_aging hst hs'
  | restarting rest => exact .restarting hst hs'
  | respawning rest =>
    cases rest with
    | nil => simp only [hst] at hs; cases hs; exact .at nofun nofun fun e a hsp => by rw [hst] at hsp; exact hsp
    | cons e es =>
      simp only [hst] at hs
      have hon : Onward w { w with stage := .respawning es } :=
        .at nofun nofun fun e a hsp => by rw [hst] at hsp; exact hsp
      refine hon.updatePlayer hs fun a p z hr hf => ?_
      obtain ⟨_, _, rfl⟩ := Option.map_eq_some_iff.1 hf
      exact isMob_of_player (p := p) hr
  | granting rest => exact .granting hst hs'
  | cleaning rest => exact .cleaning hst hs'
  | lifecycleEnd => simp only [hst] at hs; cases hs; exact .at nofun nofun fun _ _ _ => trivial
  | regenerating rest =>
    cases rest with
    | nil => exact absurd hst hp
    | cons e es => simp only [hst] at hs; cases hs
  | flushing rest =>
    cases rest with
    | nil => simp only [hst] at hs; cases hs; exact .at nofun nofun (hnone hst fun _ _ => id)
    | cons e es =>
      simp only [hst] at hs
      refine (Onward.at (s := .flushing es) nofun nofun (hnone hst fun _ _ => id)).updatePlayer hs fun a p z _ hf => ?_
      obtain ⟨_, _, rfl⟩ := Option.map_eq_some_iff.1 hf
      rfl

omit [GrowthRng] in
/-- Outside of the frame nothing is spared, so that nothing has to be kept. -/
theorem Onward.of_idle (hno : ∀ e a, ¬ Spared w.stage w.cleanupDue e a) (hf : w'.stage.fighting = false)
    (ha : ∀ rest, w'.stage ≠ .aging rest) : Onward w w' where
  due h := by rw [hf] at h; cases h
  order rest h := absurd h (ha rest)
  spares := fun e ⟨a, _, hsp⟩ => absurd hsp (hno e a)

omit [GrowthRng] in
theorem Onward.of_inbound (hst : w.stage = .inbound) (hs : w'.stage = .inbound ∨ w'.stage = .sense) : Onward w w' := by
  refine .of_idle (by rw [hst]; exact fun _ _ => id) ?_ fun rest hr => ?_
  · rcases hs with hs | hs <;> (rw [hs]; rfl)
  · rcases hs with hs | hs <;> (rw [hs] at hr; cases hr)

omit [GrowthRng] in
theorem Onward.schedule (hst : w.stage = .acting) (command : AttackCommand) (schedule : AttackDamageSchedule) :
    Onward w (w.scheduleAttackDamage command schedule) := by
  obtain ⟨hstage, hactors⟩ := LifeWorld.scheduleAttackDamage_same w command schedule
  refine ⟨by rw [hstage, hst]; nofun, by rw [hstage, hst]; nofun, LifeWorld.Spares.of_same hactors fun e a hsp => ?_⟩
  rw [hstage]
  rw [hst] at hsp ⊢
  exact hsp

/-- An attack takes its turn. -/
theorem FrameKept.onward_attack {roll : HitRoll} (h : FrameKept w) (hs : w.step cfg (.attack roll) = some w') :
    Onward w w' := by
  simp only [LifeWorld.step] at hs
  split at hs
  · rename_i c cs hst
    have hdue := h.due (by rw [hst]; rfl)
    have hi : ∀ e a, Spared w.stage w.cleanupDue e a → Spared (.attacking cs) w.cleanupDue e a := by
      intro e a hsp
      rw [hst] at hsp
      exact hsp
    rcases LifeWorld.processAttackCommand_eq_some hs with rfl | ⟨v, hv, hdy, rfl⟩ | ⟨a, v, stats, _, hv, _, _, _, rfl⟩
    · exact .at (fun _ => hdue) (by rintro _ ⟨⟩) hi
    · -- the one whose dying ends here was no mob that is spared
      refine ⟨fun _ => hdue, by rintro _ ⟨⟩, LifeWorld.Spares.of_insert hv rfl hi fun hsp hm => ?_⟩
      have hal := hi _ _ hsp hm
      cases hl : v.life with
      | alive => rw [hl] at hdy; cases hdy
      | dying _ _ => rw [hl] at hal; cases hal
      | dead _ _ _ _ _ => rw [hl] at hdy; cases hdy
    · exact ⟨fun _ => hdue, by rintro _ ⟨⟩, LifeWorld.Spares.of_insert hv rfl hi fun hsp =>
        (hi _ _ hsp).follow fun hm => ⟨hm, rfl⟩⟩
  · cases hs

theorem FrameKept.onward {ev : LifeEvent} (h : FrameKept w) (hs : w.step cfg ev = some w')
    (hp : w.stage = .regenerating [] → ev ≠ .next) : Onward w w' := by
  cases ev with
  | spawnMob mobId netId =>
    simp only [LifeWorld.step] at hs
    split at hs
    · rename_i hst
      have hstage := (((kept_iff_calm (by rcases hst with hst | hst <;> (rw [hst]; rfl))).1 h.kept).spawnOneMob hs).2
      rcases hst with hst | hst
      · exact .of_idle (by rw [hst]; exact fun _ _ => id) (by rw [hstage, hst]; rfl) (by rw [hstage, hst]; rintro _ ⟨⟩)
      · exact .of_idle (by rw [hst]; exact fun _ _ => id) (by rw [hstage, hst]; rfl) (by rw [hstage, hst]; rintro _ ⟨⟩)
    · cases hs
  | playerEnter msg =>
    simp only [LifeWorld.step] at hs
    split at hs
    · rename_i hst
      exact .of_inbound hst (.inl ((((kept_iff_calm (by rw [hst]; rfl)).1 h.kept).handlePlayerEnter hs).2.trans hst))
    · cases hs
  | playerLeave playerId playerNetId =>
    simp only [LifeWorld.step] at hs
    split at hs
    · rename_i hst
      cases hs
      exact .of_inbound hst (.inl (((kept_iff_calm (by rw [hst]; rfl)).1 h.kept).handlePlayerLeave.2.trans hst))
    · cases hs
  | restartIntent playerId intent =>
    simp only [LifeWorld.step] at hs
    split at hs
    · rename_i hst
      unfold LifeWorld.handleRestartIntent at hs
      split at hs
      · cases hs; exact .of_inbound hst (.inl hst)
      · exact .of_inbound hst (.inl ((LifeWorld.updatePlayer_stage hs).trans hst))
    · cases hs
  | tick now =>
    simp only [LifeWorld.step] at hs
    split at hs
    · rename_i hst
      cases hs
      exact .of_inbound hst.1 (.inr rfl)
    · cases hs
  | coreStat e stat delta =>
    simp only [LifeWorld.step] at hs
    split at hs
    · rename_i hst
      have hstage := LifeWorld.updatePlayer_stage hs
      exact .of_idle (by rw [hst]; exact fun _ _ => id) (by rw [hstage, hst]; rfl) (by rw [hstage, hst]; rintro _ ⟨⟩)
    · cases hs
  | schedule command schedule =>
    simp only [LifeWorld.step] at hs
    split at hs
    · rename_i hst
      cases hs
      exact .schedule hst command schedule
    · cases hs
  | release travel =>
    simp only [LifeWorld.step] at hs
    split at hs
    · rename_i hst
      cases hs
      have hc := ((kept_iff_calm (by rw [hst]; rfl)).1 h.kept).release travel
      refine ⟨fun _ => hc.noCleanup, by rintro _ ⟨⟩,
        LifeWorld.Spares.of_same (releaseDueAttackCommands_actors w travel) fun e a hsp => ?_⟩
      rw [hst] at hsp
      exact hsp
    · cases hs
  | attack roll => exact h.onward_attack hs
  | age order =>
    simp only [LifeWorld.step] at hs
    split at hs
    · rename_i hst
      cases hs
      refine .at (by rintro ⟨⟩) ?_ fun e a hsp => ?_
      · rintro rest ⟨⟩
        refine hst.2.nodup_iff.2 (w.actors.keys_pairwise.imp fun hlt => ne_of_lt hlt)
      · rw [hst.1] at hsp
        refine ⟨?_, fun hm _ => hsp hm⟩
        rw [h.due (by rw [hst.1]; rfl)]
        rintro ⟨⟩
    · cases hs
  | regenerate accrual =>
    simp only [LifeWorld.step] at hs
    split at hs
    · rename_i e es hst
      have hon : Onward w { w with stage := .regenerating es } :=
        .at (by rintro ⟨⟩) (by rintro _ ⟨⟩) fun _ _ _ => trivial
      refine hon.updatePlayer hs fun a p z hr hf => ?_
      split at hf
      · obtain ⟨_, _, rfl⟩ := Option.map_eq_some_iff.1 hf
        rfl
      · cases hf
        exact isMob_of_player hr
    · cases hs
  | next => exact h.onward_next hs fun hst => hp hst rfl

theorem FrameKept.step {ev : LifeEvent} (h : FrameKept w) (hs : w.step cfg ev = some w') : FrameKept w' := by
  by_cases hp : w.stage = .regenerating [] ∧ ev = .next
  · obtain ⟨hst, rfl⟩ := hp
    have hk := h.kept.step hs
    simp only [LifeWorld.step, LifeWorld.next, hst] at hs
    cases hs
    exact ⟨hk, by rintro ⟨⟩, by rintro _ ⟨⟩⟩
  · have hon := h.onward hs fun hst hev => hp ⟨hst, hev⟩
    exact ⟨h.kept.step hs, hon.due, hon.order⟩

/-! ## Facts of a run -/

/-- A mob attack that waits in the buffer is aimed at a player, and whatever a fact names stays. -/
structure FactsKept (w : FactsWorld) : Prop where
  frame : FrameKept w.life
  aimed : ∀ attack ∈ w.actions.pending, w.life.stage = .acting ∧
    ∃ t, w.life.actors.get? attack.targetEntity = some t ∧ t.isMob = false
  named : ∀ e ∈ w.named, w.life.Spares e

omit [GrowthRng] in
theorem factsKept_empty : FactsKept .empty where
  frame := frameKept_empty
  aimed := nofun
  named := nofun

omit [GrowthRng] in
/-- A hit leaves a fact only if both sides are alive. -/
theorem FactsWorld.damageFact_eq_some {life : LifeWorld} {command : AttackCommand} {roll : HitRoll}
    {fact : ActorDamaged} (h : damageFact cfg life command roll = some fact) :
    (∃ a, life.actors.get? fact.attacker.entity = some a ∧ a.life.isAlive) ∧
      ∃ v, life.actors.get? fact.victim.entity = some v ∧ v.life.isAlive := by
  obtain ⟨h, _⟩ := Option.filter_eq_some_iff.1 h
  unfold resolveAttackCommand at h
  split at h
  · rename_i a v ha hv
    split at h
    · rename_i hal
      obtain ⟨_, _, rfl⟩ := Option.map_eq_some_iff.1 h
      exact ⟨⟨a, ha, hal.1⟩, v, hv, hal.2.1⟩
    · cases h
  · cases h

namespace FactsKept

variable {w w' : FactsWorld}

omit [GrowthRng] in
theorem processMobAi {actions : List MobAttack} {attack : MobAttack} (h : FactsKept w) (hst : w.life.stage = .acting)
    (ha : w.actions = .filling actions) (hs : w.processMobAi cfg actions attack = some w') : FactsKept w' := by
  unfold FactsWorld.processMobAi at hs
  split at hs
  · cases hs; exact h
  · split at hs
    · cases hs; exact h
    · split at hs
      · cases hs
      · rename_i t ht
        split at hs
        · cases hs; exact h
        · rename_i hplayer
          cases hs
          refine ⟨h.frame, fun b hb => ?_, h.named⟩
          rcases List.mem_append.1 hb with hb | hb
          · exact h.aimed b (by rw [ha]; exact hb)
          · cases List.mem_singleton.1 hb
            exact ⟨hst, t, ht, by simpa using fun hm => hplayer (.inr hm)⟩

omit [GrowthRng] in
theorem applyMobAttack {attack : MobAttack} {rest : List MobAttack} (h : FactsKept w) (hst : w.life.stage = .acting)
    (ha : w.actions = .applying (attack :: rest))
    (hs : { w with actions := .applying rest }.applyMobAttack attack = some w') : FactsKept w' := by
  have hrest : ∀ b ∈ rest, w.life.stage = .acting ∧ ∃ t, w.life.actors.get? b.targetEntity = some t ∧ t.isMob = false :=
    fun b hb => h.aimed b (by rw [ha]; exact List.mem_cons_of_mem _ hb)
  unfold FactsWorld.applyMobAttack at hs
  split at hs
  · cases hs
  · rename_i m _
    split at hs
    · cases hs; exact ⟨h.frame, hrest, h.named⟩
    · split at hs
      · cases hs
      · rename_i t ht
        split at hs
        · cases hs; exact ⟨h.frame, hrest, h.named⟩
        · cases hs
          have hon := Onward.schedule hst (.mobBasicAttack attack.mobEntity attack.targetEntity) attack.damageSchedule
          obtain ⟨hstage, hactors⟩ := LifeWorld.scheduleAttackDamage_same w.life
            (.mobBasicAttack attack.mobEntity attack.targetEntity) attack.damageSchedule
          have hkept := h.frame.kept.carry (by rw [hst]; rfl) fun hc =>
            hc.schedule (.mobBasicAttack attack.mobEntity attack.targetEntity) attack.damageSchedule
          refine ⟨⟨hkept, hon.due, hon.order⟩, fun b hb => ?_, fun e he => ?_⟩
          · simp only [hstage, hactors]
            exact hrest b hb
          · -- the new fact is about a player
            obtain ⟨_, p, hp, hm⟩ := h.aimed attack (by rw [ha]; exact List.mem_cons_self)
            refine hon.spares e ?_
            simp only [FactsWorld.named] at he
            split at he
            · rw [List.map_append, ← List.append_assoc] at he
              rcases List.mem_append.1 he with he | he
              · exact h.named e he
              · cases List.mem_singleton.1 he
                refine ⟨p, hp, ?_⟩
                rw [hst]
                exact fun hmob => by rw [hm] at hmob; cases hmob
            · exact h.named e he

/-- A step of the frame that leaves no fact, before the projection. -/
theorem life {ev : LifeEvent} {life' : LifeWorld} (h : FactsKept w) (hs : w.life.step cfg ev = some life')
    (hp : w.life.stage = .regenerating [] → ev ≠ .next) (ha : ∀ attack ∈ w.actions.pending, life'.stage = .acting ∧
      life'.actors = w.life.actors) : FactsKept { w with life := life' } where
  frame := h.frame.step hs
  aimed attack hmem := by
    obtain ⟨hst, hactors⟩ := ha attack hmem
    exact ⟨hst, by rw [hactors]; exact (h.aimed attack hmem).2⟩
  named e he := (h.frame.onward hs hp).spares e (h.named e he)

/-- The hits of a turn are between actors that are alive. -/
theorem attack {command : AttackCommand} {rest : List AttackCommand} {roll : HitRoll} {life' : LifeWorld}
    (h : FactsKept w) (hst : w.life.stage = .attacking (command :: rest))
    (hs : w.life.step cfg (.attack roll) = some life') :
    FactsKept { w with
      life := life', damaged := w.damaged ++ (FactsWorld.damageFact cfg w.life command roll).toList } := by
  have hpend : ∀ attack ∈ w.actions.pending, False := fun a ha => by
    have := (h.aimed a ha).1
    rw [hst] at this
    cases this
  have hold := h.life hs (by rw [hst]; nofun) fun a ha => (hpend a ha).elim
  refine ⟨hold.frame, hold.aimed, fun e he => ?_⟩
  simp only [FactsWorld.named, List.flatMap_append] at he
  rcases List.mem_append.1 he with he | he
  · rcases List.mem_append.1 he with he | he
    · exact hold.named e (List.mem_append_left _ he)
    · obtain ⟨fact, hfact, he⟩ := List.mem_flatMap.1 he
      obtain ⟨⟨a, ha, hal⟩, v, hv, hvl⟩ := FactsWorld.damageFact_eq_some (Option.mem_toList.1 hfact)
      refine (h.frame.onward hs (by rw [hst]; nofun)).spares e ?_
      simp only [List.mem_cons, List.not_mem_nil, or_false] at he
      rcases he with rfl | rfl
      · exact ⟨a, ha, by rw [hst]; exact fun _ => hal⟩
      · exact ⟨v, hv, by rw [hst]; exact fun _ => hvl⟩
  · exact hold.named e (List.mem_append_right _ he)

/-- What one step keeps. -/
theorem step {ev : FactsEvent} (h : FactsKept w) (hs : w.step cfg ev = some w') : FactsKept w' := by
  cases ev with
  | think attack =>
    simp only [FactsWorld.step] at hs
    split at hs
    · rename_i actions hst ha
      exact h.processMobAi hst ha hs
    · cases hs
  | processActions =>
    simp only [FactsWorld.step] at hs
    split at hs
    · rename_i actions hst ha
      cases hs
      exact ⟨h.frame, fun a hm => h.aimed a (by rw [ha]; exact hm), h.named⟩
    · cases hs
  | applyAction =>
    simp only [FactsWorld.step] at hs
    split at hs
    · rename_i attack rest hst ha
      exact h.applyMobAttack hst ha hs
    · cases hs
  | life ev =>
    simp only [FactsWorld.step] at hs
    split at hs
    · rename_i travel hst _ _
      obtain ⟨life', hl, hs⟩ := Option.bind_eq_some_iff.1 hs
      cases hs
      exact ⟨h.frame.step hl, nofun, fun e he => (h.frame.onward hl fun _ => nofun).spares e (h.named e he)⟩
    · cases hs
    · rename_i command rest roll hst
      obtain ⟨life', hl, hs⟩ := Option.bind_eq_some_iff.1 hs
      cases hs
      exact h.attack hst hl
    · rename_i hst
      obtain ⟨w1, hproj, hs⟩ := Option.bind_eq_some_iff.1 hs
      obtain ⟨life', hl, hs⟩ := Option.bind_eq_some_iff.1 hs
      cases hs
      obtain ⟨_, _, hproj⟩ := Option.bind_eq_some_iff.1 hproj
      obtain ⟨_, _, hproj⟩ := Option.bind_eq_some_iff.1 hproj
      cases hproj
      refine ⟨h.frame.step hl, fun a ha => ?_, nofun⟩
      have := (h.aimed a ha).1
      rw [hst] at this
      cases this
    · rename_i ev _ _ _ hrel _ hproj _
      obtain ⟨life', hl, hs⟩ := Option.bind_eq_some_iff.1 hs
      cases hs
      refine h.life hl (fun hst hev => hproj hst hev) fun a ha => ?_
      -- only attacks are scheduled while actions wait
      have hst := (h.aimed a ha).1
      cases ev with
      | schedule command schedule =>
        simp only [LifeWorld.step, hst, if_true] at hl
        cases hl
        obtain ⟨hstage, hactors⟩ := LifeWorld.scheduleAttackDamage_same w.life command schedule
        exact ⟨hstage.trans hst, hactors⟩
      | release travel => exact absurd rfl (hrel travel hst)
      | spawnMob _ _ => simp [LifeWorld.step, hst] at hl
      | playerEnter _ => simp [LifeWorld.step, hst] at hl
      | playerLeave _ _ => simp [LifeWorld.step, hst] at hl
      | restartIntent _ _ => simp [LifeWorld.step, hst] at hl
      | tick _ => simp [LifeWorld.step, hst] at hl
      | coreStat _ _ _ => simp [LifeWorld.step, hst] at hl
      | attack _ => simp [LifeWorld.step, hst] at hl
      | age _ => simp [LifeWorld.step, hst] at hl
      | regenerate _ => simp [LifeWorld.step, hst] at hl
      | next => simp [LifeWorld.step, LifeWorld.next, hst] at hl

end FactsKept

/-! ## The projection finds everybody -/

omit [GrowthRng] in
theorem isSome_mapM {α β : Type} {f : α → Option β} : ∀ {l : List α}, (∀ a ∈ l, (f a).isSome) → (l.mapM f).isSome
  | [], _ => rfl
  | a :: l, h => by
    obtain ⟨b, hb⟩ := Option.isSome_iff_exists.1 (h a List.mem_cons_self)
    obtain ⟨bs, hbs⟩ := Option.isSome_iff_exists.1 (isSome_mapM fun x hx => h x (List.mem_cons_of_mem a hx))
    rw [List.mapM_cons, hb, hbs]
    rfl

omit [GrowthRng] in
/-- The projection goes through when every entity that a fact names is there. -/
theorem FactsWorld.projectFrameFacts_isSome {w : FactsWorld} (h : ∀ e ∈ w.named, (w.life.actors.get? e).isSome) :
    w.projectFrameFacts.isSome := by
  have hhits : (w.damaged.mapM (projectDamaged w.life)).isSome := isSome_mapM fun fact hf => by
    have hmem : ∀ e ∈ [fact.attacker.entity, fact.victim.entity], (w.life.actors.get? e).isSome := fun e he =>
      h e (List.mem_append_left _ (List.mem_flatMap.2 ⟨fact, hf, he⟩))
    obtain ⟨a, ha⟩ := Option.isSome_iff_exists.1 (hmem fact.attacker.entity (by simp))
    obtain ⟨v, hv⟩ := Option.isSome_iff_exists.1 (hmem fact.victim.entity (by simp))
    simp [projectDamaged, ha, hv]
  have htargets : (w.projectileTargets.mapM (projectTargeted w.life)).isSome := isSome_mapM fun fact hf => by
    obtain ⟨t, ht⟩ := Option.isSome_iff_exists.1
      (h fact.target.entity (List.mem_append_right _ (List.mem_map_of_mem hf)))
    simp [projectTargeted, ht]
  obtain ⟨hits, hhits⟩ := Option.isSome_iff_exists.1 hhits
  obtain ⟨targets, htargets⟩ := Option.isSome_iff_exists.1 htargets
  simp [projectFrameFacts, hhits, htargets]

/-- Over every run of frames, when the facts of a frame are projected, the attacker and the victim of each hit and the
target of each projectile are on the map, so that the projection does not panic; and no fact is left when players enter
and leave. -/
theorem projected_facts_exist {w : FactsWorld} {es : List FactsEvent}
    (h : run (FactsWorld.step cfg) .empty es = some w) :
    (w.life.stage = .regenerating [] →
      (∀ fact ∈ w.damaged, (w.life.actors.get? fact.attacker.entity).isSome ∧
        (w.life.actors.get? fact.victim.entity).isSome) ∧
      (∀ fact ∈ w.projectileTargets, (w.life.actors.get? fact.target.entity).isSome) ∧ w.projectFrameFacts.isSome) ∧
    (w.life.stage = .inbound → w.damaged = [] ∧ w.projectileTargets = []) := by
  have hk : FactsKept w := run_inv (fun _ _ _ hk hs => FactsKept.step hk hs) factsKept_empty h
  constructor
  · intro _
    have hthere : ∀ e ∈ w.named, (w.life.actors.get? e).isSome := fun e he => by
      obtain ⟨a, ha, _⟩ := hk.named e he
      rw [ha]
      rfl
    refine ⟨fun fact hf => ⟨hthere _ ?_, hthere _ ?_⟩, fun fact hf => hthere _ ?_,
      FactsWorld.projectFrameFacts_isSome hthere⟩
    · exact List.mem_append_left _ (List.mem_flatMap.2 ⟨fact, hf, by simp⟩)
    · exact List.mem_append_left _ (List.mem_flatMap.2 ⟨fact, hf, by simp⟩)
    · exact List.mem_append_right _ (List.mem_map_of_mem hf)
  · intro hst
    have hno : w.named = [] := List.eq_nil_iff_forall_not_mem.2 fun e he => by
      obtain ⟨a, _, hsp⟩ := hk.named e he
      rw [hst] at hsp
      exact hsp
    obtain ⟨hd, ht⟩ := List.append_eq_nil_iff.1 hno
    refine ⟨?_, List.map_eq_nil_iff.1 ht⟩
    rw [List.flatMap_eq_nil_iff] at hd
    exact List.eq_nil_iff_forall_not_mem.2 fun fact hf => by cases hd fact hf

end

/-- The novice hits the other wolf, once the actions of the mobs are through. Both hits are deadly. -/
def twoDeadlyHits : List LifeEvent :=
  [LifeEvent.schedule (.playerBasicAttack ⟨2⟩ ⟨1⟩) .immediate, .release fun _ _ => 0, .attack ⟨100, 3⟩,
    .attack ⟨100, 3⟩] ++
    List.replicate 6 LifeEvent.next ++ [LifeEvent.age [⟨0⟩, ⟨1⟩, ⟨2⟩]] ++ List.replicate 12 LifeEvent.next ++
    List.replicate 3 (LifeEvent.regenerate noTick)

/-- A wolf shoots at the novice and hits it. -/
def wolfShoots : List FactsEvent :=
  (wolvesAndNovice ++ LifeEvent.tick 1000 :: List.replicate 6 LifeEvent.next).map .life ++
    [.think ⟨⟨0⟩, ⟨2⟩, .immediate, true⟩, .processActions, .applyAction] ++ twoDeadlyHits.map .life

theorem projected_facts_exist_wolf :
    let := splitMix64Rolls
    ∃ w, run (FactsWorld.step wolfMap) .empty wolfShoots = some w ∧ w.life.stage = .regenerating [] ∧
      w.damaged.length = 2 ∧ w.projectileTargets = [⟨⟨⟨0⟩, ⟨1⟩⟩, ⟨⟨2⟩, ⟨3⟩⟩⟩] ∧ w.projectFrameFacts.isSome := by
  intro rng
  have hrun : (run (FactsWorld.step wolfMap) .empty wolfShoots).map (fun w =>
      (decide (w.life.stage = .regenerating []), w.damaged.length, w.projectileTargets)) =
      some (true, 2, [⟨⟨⟨0⟩, ⟨1⟩⟩, ⟨⟨2⟩, ⟨3⟩⟩⟩]) := by decide +kernel
  obtain ⟨w, hw, hfacts⟩ := Option.map_eq_some_iff.1 hrun
  obtain ⟨hst, hdamaged, htargets⟩ := by simpa only [Prod.mk.injEq] using hfacts
  have hst := of_decide_eq_true hst
  exact ⟨w, hw, hst, hdamaged, htargets, ((projected_facts_exist hw).1 hst).2.2⟩

end Zohar.Sim
