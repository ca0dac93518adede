/-
Whom a pack turns on. What attacks one mob of a pack provokes all of them, and of the last attackers of a frame the mobs
that are awake take the latest who can be fought. From zohar-sim/src/runtime: mob/aggro.rs, spatial.rs and mob/ai.rs.
-/
import Zohar.Mob.Cadence

namespace Zohar.Mob

open Zohar.Lib
open Zohar.Replication (EntityId)
open Zohar.Sim (Entity)
open Zohar.Spawn (MobId)

/-! ## Routing -/

structure PackMob (F : Type) where
  packId : Option Nat
  body : MobBody F

/-- The mobs of a map, in the order of their entities, which stands for the order of the query. -/
abbrev MobMap (F : Type) := OrdMap Entity (PackMob F)

structure MobAggroDispatch where
  attackedMobEntity : Entity
  attacker : EntityId
  deriving DecidableEq, Repr

section
variable {F : Type} (mobs : MobMap F)

def packOf (entity : Entity) : Option Nat := (mobs.get? entity).bind (·.packId)

def mobPackMembers (attackedMobEntity : Entity) : List Entity :=
  match packOf mobs attackedMobEntity with
  | some packId => mobs.keys.filter fun entity => packOf mobs entity = some packId
  | none => [attackedMobEntity]

def queueMobAggro (mobs : MobMap F) (mobEntity : Entity) (attacker : EntityId) : MobMap F :=
  match mobs.get? mobEntity with
  | none => mobs
  | some mob => mobs.insert mobEntity { mob with body := mob.body.queueAggro attacker }

/-- A round of the loop of `route_mob_aggro`. -/
def routeDispatch (mobs : MobMap F) (dispatch : MobAggroDispatch) : MobMap F :=
  if (mobs.get? dispatch.attackedMobEntity).isNone then mobs
  else (mobPackMembers mobs dispatch.attackedMobEntity).foldl
    (fun mobs entity => queueMobAggro mobs entity dispatch.attacker) mobs

def routeMobAggro (mobs : MobMap F) (dispatches : List MobAggroDispatch) : MobMap F :=
  dispatches.foldl routeDispatch mobs

/-! ## Who hears of an attack -/

/-- The attack is on the mob or on one of its pack. -/
def Concerns (entity : Entity) (dispatch : MobAggroDispatch) : Prop :=
  (mobs.get? dispatch.attackedMobEntity).isSome ∧ (dispatch.attackedMobEntity = entity ∨
    (packOf mobs dispatch.attackedMobEntity).isSome ∧ packOf mobs dispatch.attackedMobEntity = packOf mobs entity)

instance (entity : Entity) (dispatch : MobAggroDispatch) : Decidable (Concerns mobs entity dispatch) :=
  inferInstanceAs (Decidable (_ ∧ (_ ∨ _ ∧ _)))

/-- The attackers that a mob hears of. -/
def heard (entity : Entity) (dispatches : List MobAggroDispatch) : List EntityId :=
  (dispatches.filter fun dispatch => decide (Concerns mobs entity dispatch)).map (·.attacker)

variable {mobs} {entity : Entity} {dispatch : MobAggroDispatch} {attacker : EntityId}

theorem get?_queueMobAggro (member : Entity) :
    (queueMobAggro mobs member attacker).get? entity = (mobs.get? entity).map fun mob =>
      if entity = member then { mob with body := mob.body.queueAggro attacker } else mob := by
  unfold queueMobAggro
  cases hmember : mobs.get? member with
  | none =>
    by_cases heq : entity = member
    · rw [heq, hmember]
      rfl
    · simp [heq]
  | some mob =>
    rw [OrdMap.get?_insert]
    by_cases heq : entity = member
    · rw [if_pos heq, heq, hmember]
      simp
    · simp [heq]

/-- Members that differ are provoked once each. -/
theorem get?_foldl_queueMobAggro : ∀ {members : List Entity} {mobs : MobMap F}, members.Nodup →
    (members.foldl (fun mobs member => queueMobAggro mobs member attacker) mobs).get? entity =
      (mobs.get? entity).map fun mob => if entity ∈ members then
        { mob with body := mob.body.queueAggro attacker } else mob
  | [], mobs, _ => by simp
  | member :: members, mobs, hnodup => by
    obtain ⟨hnotin, hnodup⟩ := List.nodup_cons.1 hnodup
    rw [List.foldl_cons, get?_foldl_queueMobAggro hnodup, get?_queueMobAggro, Option.map_map]
    congr 1
    funext mob
    by_cases heq : entity = member
    · subst heq
      simp [hnotin]
    · simp [heq]

theorem packOf_map (mobs : MobMap F) (f : Entity → PackMob F → PackMob F) (hf : ∀ e m, (f e m).packId = m.packId)
    {mobs' : MobMap F} (h : ∀ e, mobs'.get? e = (mobs.get? e).map (f e)) (e : Entity) :
    packOf mobs' e = packOf mobs e := by
  unfold packOf
  rw [h]
  cases mobs.get? e with
  | none => rfl
  | some mob => exact hf e mob

theorem mobPackMembers_nodup (attacked : Entity) : (mobPackMembers mobs attacked).Nodup := by
  unfold mobPackMembers
  split
  · exact (mobs.keys_pairwise.imp fun h => h.ne).filter _
  · exact List.nodup_singleton _

theorem mem_mobPackMembers_iff {entity : Entity}
    (hattacked : (mobs.get? dispatch.attackedMobEntity).isSome) (hentity : (mobs.get? entity).isSome) :
    entity ∈ mobPackMembers mobs dispatch.attackedMobEntity ↔ Concerns mobs entity dispatch := by
  unfold mobPackMembers Concerns
  cases hpack : packOf mobs dispatch.attackedMobEntity with
  | none => simp [hattacked, eq_comm]
  | some packId =>
    rw [List.mem_filter, OrdMap.mem_keys_iff]
    constructor
    · rintro ⟨-, hsame⟩
      exact ⟨hattacked, .inr ⟨rfl, (of_decide_eq_true hsame).symm⟩⟩
    · rintro ⟨-, heq | ⟨-, hsame⟩⟩
      · exact ⟨hentity, by rw [← heq, hpack]; simp⟩
      · exact ⟨hentity, decide_eq_true hsame.symm⟩

theorem get?_routeDispatch :
    (routeDispatch mobs dispatch).get? entity = (mobs.get? entity).map fun mob =>
      if Concerns mobs entity dispatch then { mob with body := mob.body.queueAggro dispatch.attacker } else mob := by
  unfold routeDispatch
  split
  · rename_i hnone
    have hnot : ¬ Concerns mobs entity dispatch := by
      rintro ⟨hsome, -⟩
      rw [Option.isNone_iff_eq_none.1 hnone] at hsome
      cases hsome
    simp [hnot]
  · rename_i hsome
    have hattacked : (mobs.get? dispatch.attackedMobEntity).isSome := by
      exact Option.isSome_iff_ne_none.2 (by simpa using hsome)
    rw [get?_foldl_queueMobAggro (mobPackMembers_nodup _)]
    cases hentity : mobs.get? entity with
    | none => rfl
    | some mob =>
      have hiff := mem_mobPackMembers_iff hattacked (show (mobs.get? entity).isSome by rw [hentity]; rfl)
      simp [hiff]

/-- Nothing but the queues changes, so that the packs stay what they are. -/
theorem concerns_routeDispatch {other : MobAggroDispatch} :
    Concerns (routeDispatch mobs dispatch) entity other ↔ Concerns mobs entity other := by
  have hget : ∀ e, (routeDispatch mobs dispatch).get? e = (mobs.get? e).map fun mob =>
      if Concerns mobs e dispatch then { mob with body := mob.body.queueAggro dispatch.attacker } else mob :=
    fun e => get?_routeDispatch
  have hpack : ∀ e, packOf (routeDispatch mobs dispatch) e = packOf mobs e := by
    refine packOf_map mobs
      (fun e mob => if Concerns mobs e dispatch then { mob with body := mob.body.queueAggro dispatch.attacker }
      else mob) ?_ hget
    intro e mob
    split <;> rfl
  unfold Concerns
  simp only [hpack, hget, Option.isSome_map]

/-- A mob is provoked by the attackers that it hears of, one after the other. -/
theorem get?_routeMobAggro (mobs : MobMap F) (entity : Entity) (dispatches : List MobAggroDispatch) :
    (routeMobAggro mobs dispatches).get? entity = (mobs.get? entity).map fun mob =>
      { mob with body := (heard mobs entity dispatches).foldl MobBody.queueAggro mob.body } := by
  induction dispatches generalizing mobs with
  | nil =>
    show mobs.get? entity = _
    simp [heard]
  | cons dispatch dispatches ih =>
    have hsame : heard (routeDispatch mobs dispatch) entity dispatches = heard mobs entity dispatches := by
      unfold heard
      congr 1
      refine List.filter_congr ?_
      intro other _
      exact decide_eq_decide.2 concerns_routeDispatch
    show (routeMobAggro (routeDispatch mobs dispatch) dispatches).get? entity = _
    rw [ih, get?_routeDispatch, Option.map_map, hsame]
    congr 1
    funext mob
    unfold heard
    by_cases hconcerns : Concerns mobs entity dispatch
    · simp [hconcerns]
    · simp [hconcerns]

/-! ## The queue -/

/-- The last of a list, as many as a queue holds. -/
def newest {α : Type} (l : List α) : List α := l.drop (l.length - maxMobStimuliPerTick)

theorem newest_of_le {α : Type} {l : List α} (h : l.length ≤ maxMobStimuliPerTick) : newest l = l := by
  unfold newest
  rw [Nat.sub_eq_zero_of_le h, List.drop_zero]

theorem length_newest_le {α : Type} (l : List α) : (newest l).length ≤ maxMobStimuliPerTick := by
  unfold newest
  rw [List.length_drop]
  omega

theorem newest_append_singleton {α : Type} (l : List α) (a : α) : newest (newest l ++ [a]) = newest (l ++ [a]) := by
  rcases Nat.le_total l.length maxMobStimuliPerTick with h | h
  · rw [newest_of_le h]
  · unfold newest
    have hpos : 0 < maxMobStimuliPerTick := by decide
    simp only [List.length_append, List.length_drop, List.length_singleton]
    rw [List.drop_append_of_le_length (by rw [List.length_drop]; omega), List.drop_append_of_le_length (by omega),
      List.drop_drop]
    congr 2
    omega

theorem aggro_foldl_queueAggro {attackers : List EntityId} {body : MobBody F}
    (h : body.aggro.length ≤ maxMobStimuliPerTick) :
    attackers.foldl MobBody.queueAggro body = { body with aggro := newest (body.aggro ++ attackers) } := by
  induction attackers using List.reverseRecOn with
  | nil => simp [newest_of_le h]
  | append_singleton attackers attacker ih =>
    rw [List.foldl_append, List.foldl_cons, List.foldl_nil, ih]
    show ({ body with aggro := newest (newest (body.aggro ++ attackers) ++ [attacker]) } : MobBody F) = _
    rw [newest_append_singleton, List.append_assoc]

end

/-! ## Turning on an attacker -/

section
variable {F : Type} [F32 F] {cfg : MobConfig F} {v : MobView F} {roll : WanderRoll F} {r r' : MobRun F}

/-- The brain that a turn leaves behind, at once or with what it has planned. -/
def mindAfter {F : Type} (thought : MobBody F × Option (MobAction F)) : MobBrainState :=
  (thought.2.map MobAction.nextBrain).getD thought.1.brain

theorem Turn.target_mindAfter {now : Nat} {mob mob' : MobBody F} {c : MobContext F} {brain brain' : MobBrainState}
    {planned : Option (MobAction F)} (h : Turn cfg v now mob c brain brain' planned mob') :
    (mindAfter (mob', planned)).target = brain.target ∧ (mindAfter (mob', planned)).Coherent := by
  have hafter := h.after
  cases h.outcome with
  | stay hsettled _ htarget =>
    rw [hafter]
    exact ⟨htarget, hsettled.coherent⟩
  | move hsettled _ htarget => exact ⟨htarget, hsettled.coherent⟩
  | @strike _ _ _ _ _ _ _ _ _ nextBrain _ hknown _ _ _ _ _ hwindup _ =>
    obtain ⟨hmode, htarget, -⟩ := hwindup
    have hsome : nextBrain.target.isSome = true := by
      rw [htarget]
      rfl
    exact ⟨htarget.trans hknown.symm, ⟨iff_of_true hsome (.inr hmode), fun _ => hmode⟩⟩

theorem aggro_think (cfg : MobConfig F) (v : MobView F) (roll : WanderRoll F) (now : Nat) {mob : MobBody F}
    (h : mob.brain.Coherent) :
    (mob.think cfg v roll now).1.aggro = mob.aggro ∨ (mob.think cfg v roll now).1.aggro = [] := by
  rcases think_cases cfg v roll now h with ⟨-, heq⟩ | ⟨c, brain, brain', hturn⟩
  · exact .inl (by rw [heq])
  · right
    rw [hturn.after]
    unfold MobBody.decided
    split <;> rfl

theorem aggro_act {actView planView : MobView F} {action : MobAction F} :
    (r.act cfg actView planView action).body.aggro = r.body.aggro := by
  unfold MobRun.act
  split
  · cases action with
    | motion _ _ _ _ _ _ _ => rfl
    | attack _ _ _ _ _ _ _ _ => rfl
  · cases action with
    | motion _ _ _ _ _ _ _ => rfl
    | attack _ _ _ _ _ _ _ _ => rfl

/-- A queue never holds more than a frame's worth of attackers. -/
theorem aggro_length_step {e : MobEvent F} (h : MobRun.Kept cfg r ∧ r.body.aggro.length ≤ maxMobStimuliPerTick)
    (hs : r.step cfg e = some r') : MobRun.Kept cfg r' ∧ r'.body.aggro.length ≤ maxMobStimuliPerTick := by
  refine ⟨h.1.step hs, ?_⟩
  cases e with
  | tick now =>
    simp only [MobRun.step] at hs
    split at hs
    · cases hs
      exact h.2
    · cases hs
  | provoke attacker =>
    simp only [MobRun.step] at hs
    split at hs
    · cases hs
      exact length_newest_le _
    · cases hs
  | think v roll =>
    simp only [MobRun.step] at hs
    split at hs
    · cases hs
      rcases aggro_think cfg v roll r.simNow h.1.coherent with heq | heq
      · rw [heq]
        exact h.2
      · rw [heq]
        exact Nat.zero_le _
    · cases hs
  | act v =>
    obtain ⟨planned, -, rfl⟩ := Option.map_eq_some_iff.1 hs
    rw [aggro_act]
    exact h.2
  | die =>
    simp only [MobRun.step] at hs
    split at hs
    · cases hs
      unfold MobBody.beginDying
      split
      · exact h.2
      · exact Nat.zero_le _
    · cases hs

/-- A mob of a pack that is alive and not in a windup turns on the last of the newest attackers of the pack who can be
fought, if that one is a player with a place on the map. -/
theorem pack_turns_on_last_attacker {proto proto' : MobPrototype} {mobId : MobId} {pos : LocalPos F} {rot : UInt8}
    {now pause : Nat} {es : List (MobEvent F)} (hclock : now ≤ u64Max)
    (hrun : run (MobRun.step cfg) (.fresh (.spawned cfg proto mobId pos rot now pause) now) es = some r)
    {mobs : MobMap F} {entity : Entity} {packId : Option Nat} (hmob : mobs.get? entity = some ⟨packId, r.body⟩)
    (halive : r.body.life.isAlive = true) (hproto : cfg.mobs r.body.mobId = some proto')
    (hawake : r.body.brain.windupDue ≤ r.simNow) {dispatches : List MobAggroDispatch} {id : EntityId}
    (hlatest : v.provokers.latestLiveProvoker (newest (r.body.aggro ++ heard mobs entity dispatches)) = some id)
    (hplace : (v.playerPosition id (toClientTimestamp r.simNow)).isSome) :
    ∃ body, (routeMobAggro mobs dispatches).get? entity = some ⟨packId, body⟩ ∧
      (mindAfter (body.think cfg v roll r.simNow)).target = some id ∧
      ((mindAfter (body.think cfg v roll r.simNow)).mode = .pursuit ∨
        (mindAfter (body.think cfg v roll r.simNow)).mode = .attackWindup) := by
  obtain ⟨hkept, hqueue⟩ : MobRun.Kept cfg r ∧ r.body.aggro.length ≤ maxMobStimuliPerTick :=
    run_inv (fun _ _ _ h hs => aggro_length_step h hs) ⟨MobRun.kept_fresh hclock, Nat.zero_le _⟩ hrun
  have hrouted := get?_routeMobAggro mobs entity dispatches
  rw [hmob, Option.map_some, aggro_foldl_queueAggro hqueue] at hrouted
  refine ⟨_, hrouted, ?_⟩
  generalize hbody : ({ r.body with aggro := newest (r.body.aggro ++ heard mobs entity dispatches) } : MobBody F) = body
  have hbrain : body.brain = r.body.brain := by rw [← hbody]
  have hcoherent : body.brain.Coherent := by
    rw [hbrain]
    exact hkept.coherent
  have hcontext : collectMobContext cfg body r.simNow ≠ none := by
    unfold collectMobContext
    rw [← hbody]
    simp [halive, hproto]
  rcases think_cases cfg v roll r.simNow hcoherent with
    ⟨hasleep, -⟩ | ⟨c, brain, brain', hturn⟩
  · exfalso
    rcases hasleep with hnone | hlt
    · exact hcontext hnone
    · rw [hbrain] at hlt
      omega
  · obtain ⟨htarget, hmind⟩ := hturn.target_mindAfter
    have hid : brain.target = some id := by
      refine hturn.provoked id ?_ ?_
      · rw [← hbody]
        exact hlatest
      · rw [(collectMobContext_spec hturn.context).nowTs]
        exact hplace
    have hsome : (mindAfter (body.think cfg v roll r.simNow)).target = some id := htarget.trans hid
    exact ⟨hsome, hmind.target_iff.1 (by rw [hsome]; rfl)⟩

end

/-- Two wolves of one pack, each as it has spawned. -/
def wolfPack : MobMap Rat :=
  (OrdMap.empty.insert ⟨1⟩ ⟨some 9, wolfAtSpawn.body⟩).insert ⟨2⟩ ⟨some 9, wolfAtSpawn.body⟩

/-- The player hits the second wolf, and the first turns on it. -/
theorem pack_turns_on_last_attacker_wolf :
    ∃ body, (routeMobAggro wolfPack [⟨⟨2⟩, ⟨7⟩⟩]).get? ⟨1⟩ = some ⟨some 9, body⟩ ∧
    (mindAfter (body.think wolfConfig wolfView stillRoll 0)).target = some ⟨7⟩ ∧
    ((mindAfter (body.think wolfConfig wolfView stillRoll 0)).mode = .pursuit ∨
      (mindAfter (body.think wolfConfig wolfView stillRoll 0)).mode = .attackWindup) :=
  have hrun : run (MobRun.step wolfConfig) wolfAtSpawn [] = some wolfAtSpawn := rfl
  have hmob : wolfPack.get? ⟨1⟩ = some ⟨some 9, wolfAtSpawn.body⟩ := rfl
  have hproto : wolfConfig.mobs wolfAtSpawn.body.mobId = some wolf := rfl
  pack_turns_on_last_attacker (Nat.zero_le _) hrun hmob rfl hproto (by decide) (by decide +kernel) (by decide +kernel)

end Zohar.Mob
