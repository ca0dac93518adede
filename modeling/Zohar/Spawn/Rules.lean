/-
How a map fills itself with mobs, from zohar-sim/src/runtime/mob/spawn.rs, cleanup.rs, spatial.rs and resources.rs.
Every spawn rule counts its active instances and carries the instant of its next attempt; the attempts wait in a heap
whose entries are stale unless the rule still carries their instant. Instants and durations are milliseconds in a `u64`,
and net ids are counted in a `u32` that wraps and steps over zero, so that after 2^32 of them a mob may get the id of
another. The random number generator and the geometry of the map are not ours: every call of `spawn_one_template` takes
the next roll of a list, with the pick among weighted groups and whether each member in turn finds a place to stand.
-/
import Zohar.Lib.MinHeap
import Zohar.Lib.Run
import Zohar.Replication.Events
import Zohar.Spawn.Tickets
import Mathlib.Data.Prod.Lex

namespace Zohar.Spawn

open Zohar.Lib Zohar.Replication
open Zohar.Tickets (WeightedGroupChoice)

/-! ## Rules -/

inductive SpawnTemplate where
  | mob (mobId : MobId)
  | group (members : List MobId)
  | groupGroup (choices : List WeightedGroupChoice)
  deriving DecidableEq, Repr

/-- A rule without its area and facing, which only the rolls depend on. -/
structure SpawnRule where
  template : SpawnTemplate
  maxCount : Nat
  regenTime : Nat
  deriving DecidableEq, Repr

/-- What is random in one call of `spawn_one_template`. -/
structure SpawnRoll where
  ticket : Nat
  places : List Bool
  deriving DecidableEq, Repr

/-- `pick_group_group_choice` of a build without overflow checks. One with them picks the same or panics in the sum of
the weights, and a map that panics goes no further. -/
def pickGroupGroupChoice (choices : List WeightedGroupChoice) (roll : Nat) : Option WeightedGroupChoice :=
  match Tickets.pickGroupGroupChoice false choices fun total => .ofNat (1 + roll % total.toNat) with
  | some (some (.choice i)) => choices[i]?
  | some (some .last) => choices.getLast?
  | some none | none => none

def expandSpawnTemplate (template : SpawnTemplate) (roll : Nat) : List MobId :=
  match template with
  | .mob mobId => [mobId]
  | .group members => members
  | .groupGroup choices => ((pickGroupGroupChoice choices roll).map WeightedGroupChoice.members).getD []

/-! ## The map -/

structure SpawnRuleState where
  rule : SpawnRule
  activeInstances : Nat
  entities : List EntityId
  respawnAt : Option Nat

/-- A mob, with the number of its entity. -/
structure SpawnedMob where
  entity : Nat
  netId : EntityId
  deriving DecidableEq, Repr

/-- One template that was spawned: its rule and the mobs that it brought. -/
structure TemplateInstance where
  ruleIndex : Nat
  members : List SpawnedMob
  deriving DecidableEq, Repr

/-- The spawn rules of a map with the mobs on it, whose entities are numbered as they are made. No function reads
`spawned`, the list of all instances there ever were. -/
structure SpawnWorld where
  rules : List SpawnRuleState
  scheduledSpawns : MinHeap (ℕ ×ₗ ℕ)
  simNow : Nat
  nextNetId : UInt32
  nextEntity : Nat
  mobs : List SpawnedMob
  spawned : List TemplateInstance

/-- The mobs that have a prototype. -/
structure SpawnConfig where
  mobs : List MobId

namespace SpawnWorld

/-- `next_entity_id` -/
def takeNetId (w : SpawnWorld) : EntityId × SpawnWorld :=
  let nextNetId := nextEntityId w.nextNetId
  (⟨nextNetId.toNat⟩, { w with nextNetId })

def setRule (w : SpawnWorld) (i : Nat) (f : SpawnRuleState → SpawnRuleState) : SpawnWorld :=
  { w with rules := w.rules.modify i f }

def schedule (w : SpawnWorld) (due : Nat) (i : Nat) : SpawnWorld :=
  { w with scheduledSpawns := w.scheduledSpawns.push (toLex (due, i)) }

/-- The rule takes the net ids of the spawned mobs, as one more active instance. -/
def addInstance (w : SpawnWorld) (i : Nat) (members : List SpawnedMob) : SpawnWorld :=
  { w.setRule i fun r => { r with
      entities := r.entities ++ members.map (·.netId)
      activeInstances := r.activeInstances + 1 } with
    spawned := w.spawned ++ [⟨i, members⟩] }

/-- The first rule that holds a net id. -/
def holder (w : SpawnWorld) (id : EntityId) : Option Nat := w.rules.findIdx? fun r => id ∈ r.entities

end SpawnWorld

section
variable (cfg : SpawnConfig)

def spawnOneMob (w : SpawnWorld) (mobId : MobId) : Option (SpawnedMob × SpawnWorld) :=
  if mobId ∈ cfg.mobs then
    let (netId, w) := w.takeNetId
    let mob : SpawnedMob := ⟨w.nextEntity, netId⟩
    some (mob, { w with nextEntity := w.nextEntity + 1, mobs := w.mobs ++ [mob] })
  else none

/-- The loop of `spawn_one_template`: nothing is spawned unless the first member is. -/
def spawnMembers : SpawnWorld → Bool → List MobId → List Bool → List SpawnedMob × SpawnWorld
  | w, _, [], _ => ([], w)
  | w, placed, mobId :: mobIds, places =>
    match if places.headD false then spawnOneMob cfg w mobId else none with
    | none => if placed then spawnMembers w true mobIds places.tail else ([], w)
    | some (mob, w) =>
      let (mobs, w) := spawnMembers w true mobIds places.tail
      (mob :: mobs, w)

def spawnOneTemplate (w : SpawnWorld) (rule : SpawnRule) (roll : SpawnRoll) : List SpawnedMob × SpawnWorld :=
  spawnMembers cfg w false (expandSpawnTemplate rule.template roll.ticket) roll.places

/-- The loop that `spawn_rules` and `preload_map_to_spawn_cap_world` share: spawn the rule's template until it has as
many instances as are missing, or an attempt comes to nothing. Where the rolls end, so does the run. -/
def fillRule (rule : SpawnRule) (i : Nat) : Nat → SpawnWorld → List SpawnRoll → Option (SpawnWorld × List SpawnRoll)
  | 0, w, rolls => some (w, rolls)
  | _ + 1, _, [] => none
  | remaining + 1, w, roll :: rolls =>
    match spawnOneTemplate cfg w rule roll with
    | ([], w) => some (w, rolls)
    | (members, w) => fillRule rule i remaining (w.addInstance i members) rolls

/-- What follows the fill in `spawn_rules`: a rule below its cap tries again a millisecond later. -/
def rescheduleRule (w : SpawnWorld) (i : Nat) : SpawnWorld :=
  match w.rules[i]? with
  | none => w
  | some r =>
    if r.activeInstances < r.rule.maxCount then
      let retryAt := satAdd w.simNow 1
      (w.setRule i fun r => { r with respawnAt := some retryAt }).schedule retryAt i
    else w.setRule i fun r => { r with respawnAt := none }

/-- One turn of the loop of `spawn_rules`, for an entry that was taken from the heap. -/
def spawnEntry (w : SpawnWorld) (respawnAt i : Nat) (rolls : List SpawnRoll) : Option (SpawnWorld × List SpawnRoll) :=
  match w.rules[i]? with
  | none => some (w, rolls)
  | some r =>
    if r.respawnAt ≠ some respawnAt then some (w, rolls)
    else if r.rule.maxCount ≤ r.activeInstances then some (w.setRule i fun r => { r with respawnAt := none }, rolls)
    else
      (fillRule cfg r.rule i (r.rule.maxCount - r.activeInstances) w rolls).map fun (w, rolls) =>
        (rescheduleRule w i, rolls)

/-- Why the loop of `spawn_rules` has no result. -/
inductive LoopEnd where
  | outOfFuel | outOfRolls
  deriving DecidableEq, Repr

def spawnLoop : Nat → SpawnWorld → List SpawnRoll → Except LoopEnd (SpawnWorld × List SpawnRoll)
  | 0, _, _ => .error .outOfFuel
  | fuel + 1, w, rolls =>
    match w.scheduledSpawns.peek with
    | none => .ok (w, rolls)
    | some entry =>
      if w.simNow < (ofLex entry).1 then .ok (w, rolls)
      else
        match spawnEntry cfg { w with scheduledSpawns := w.scheduledSpawns.pop } (ofLex entry).1
          (ofLex entry).2 rolls with
        | none => .error .outOfRolls
        | some (w, rolls) => spawnLoop fuel w rolls

/-- `spawn_rules`; every turn takes an entry away or uses a roll. -/
def spawnRules (w : SpawnWorld) (rolls : List SpawnRoll) : Except LoopEnd (SpawnWorld × List SpawnRoll) :=
  spawnLoop cfg (w.scheduledSpawns.toList.length + rolls.length + 1) w rolls

/-- The loop over the rules in `preload_map_to_spawn_cap_world`. -/
def preloadRules : List Nat → SpawnWorld → List SpawnRoll → Option (SpawnWorld × List SpawnRoll)
  | [], w, rolls => some (w, rolls)
  | i :: is, w, rolls =>
    match w.rules[i]? with
    | none => preloadRules is w rolls
    | some r =>
      (fillRule cfg r.rule i (r.rule.maxCount - r.activeInstances) w rolls).bind fun (w, rolls) =>
        preloadRules is w rolls

def preloadMapToSpawnCapWorld (w : SpawnWorld) (rolls : List SpawnRoll) : Option (SpawnWorld × List SpawnRoll) :=
  (preloadRules cfg (List.range w.rules.length) w rolls).map fun (w, rolls) =>
    ({ w with rules := w.rules.map fun r => { r with respawnAt := none }, scheduledSpawns := .empty }, rolls)

end

/-- The map entity that `bootstrap_map_runtime` spawns, before the preload. -/
def SpawnWorld.start (rules : List SpawnRule) (simNow : Nat) : SpawnWorld where
  rules := rules.map fun rule => ⟨rule, 0, [], some simNow⟩
  scheduledSpawns := (List.range rules.length).foldl (fun h i => h.push (toLex (simNow, i))) .empty
  simNow
  nextNetId := 0
  nextEntity := 0
  mobs := []
  spawned := []

def bootstrapMapRuntime (cfg : SpawnConfig) (rules : List SpawnRule) (simNow : Nat) (rolls : List SpawnRoll) :
    Option (SpawnWorld × List SpawnRoll) :=
  preloadMapToSpawnCapWorld cfg (.start rules simNow) rolls

/-- The loop of `release_mob_spawn_slot`: the first rule that holds the entity gives a slot back. -/
def releaseMobSpawnSlot (w : SpawnWorld) (id : EntityId) : SpawnWorld :=
  match w.holder id with
  | none => w
  | some i =>
    match w.rules[i]? with
    | none => w
    | some r =>
      let respawnAt := satAdd w.simNow (min r.rule.regenTime u64Max)
      (w.setRule i fun r => { r with
        entities := r.entities.filter fun e => e ≠ id
        activeInstances := r.activeInstances - 1
        respawnAt := some respawnAt }).schedule respawnAt i

/-- `destroy_mob_entity`, as far as the spawn rules see it. -/
def destroyMobEntity (w : SpawnWorld) (mob : SpawnedMob) : Option SpawnWorld :=
  if mob ∈ w.mobs then
    let w := releaseMobSpawnSlot w mob.netId
    some { w with mobs := w.mobs.filter fun m => m ≠ mob }
  else none

inductive SpawnEvent where
  | preload (rolls : List SpawnRoll)
  /-- A frame: the clock is read and the due rules spawn. -/
  | tick (now : Nat) (rolls : List SpawnRoll)
  | cleanup (mob : SpawnedMob)
  /-- A player who enters takes the next net id. -/
  | reserveNetId

/-- An event with rolls is given exactly those that it uses. -/
def spawnStep (cfg : SpawnConfig) (w : SpawnWorld) : SpawnEvent → Option SpawnWorld
  | .preload rolls =>
    match preloadMapToSpawnCapWorld cfg w rolls with
    | some (w, []) => some w
    | _ => none
  | .tick now rolls =>
    match spawnRules cfg { w with simNow := now } rolls with
    | .ok (w, []) => some w
    | _ => none
  | .cleanup mob => destroyMobEntity w mob
  | .reserveNetId => some w.takeNetId.2

/-! ## What a template brings -/

/-- The mobs are new, and they are all that is new. -/
structure Brought (w : SpawnWorld) (members : List SpawnedMob) (w' : SpawnWorld) : Prop where
  mobs : w'.mobs = w.mobs ++ members
  rules : w'.rules = w.rules
  scheduledSpawns : w'.scheduledSpawns = w.scheduledSpawns
  simNow : w'.simNow = w.simNow
  spawned : w'.spawned = w.spawned
  nextEntity : w.nextEntity ≤ w'.nextEntity
  fresh : ∀ m ∈ members, w.nextEntity ≤ m.entity ∧ m.entity < w'.nextEntity
  nodup : members.Nodup

section
variable {cfg : SpawnConfig} {w w' : SpawnWorld}

theorem Brought.refl (w : SpawnWorld) : Brought w [] w :=
  ⟨(List.append_nil _).symm, rfl, rfl, rfl, rfl, le_rfl, by simp, List.nodup_nil⟩

theorem spawnOneMob_spec {mobId : MobId} {mob : SpawnedMob} (h : spawnOneMob cfg w mobId = some (mob, w')) :
    mob.entity = w.nextEntity ∧ w'.nextEntity = w.nextEntity + 1 ∧ Brought w [mob] w' := by
  unfold spawnOneMob at h
  split at h
  · cases h
    refine ⟨rfl, rfl, rfl, rfl, rfl, rfl, rfl, Nat.le_succ _, ?_, List.nodup_singleton _⟩
    intro m hm
    cases List.mem_singleton.1 hm
    exact ⟨le_rfl, Nat.lt_succ_self _⟩
  · cases h

theorem spawnMembers_spec : ∀ (mobIds : List MobId) (w : SpawnWorld) (placed : Bool) (places : List Bool),
    Brought w (spawnMembers cfg w placed mobIds places).1 (spawnMembers cfg w placed mobIds places).2 ∧
      (spawnMembers cfg w placed mobIds places).1.length ≤ mobIds.length
  | [], w, placed, places => ⟨.refl w, le_rfl⟩
  | mobId :: mobIds, w, placed, places => by
    simp only [spawnMembers]
    split
    · split
      · obtain ⟨hb, hlen⟩ := spawnMembers_spec mobIds w true places.tail
        exact ⟨hb, Nat.le_succ_of_le hlen⟩
      · exact ⟨.refl w, Nat.zero_le _⟩
    · rename_i mob w1 hspawn
      split at hspawn
      · obtain ⟨hentity, hnext, hone⟩ := spawnOneMob_spec hspawn
        obtain ⟨hb, hlen⟩ := spawnMembers_spec mobIds w1 true places.tail
        have hmono := hb.nextEntity
        refine ⟨⟨?_, hb.rules.trans hone.rules, hb.scheduledSpawns.trans hone.scheduledSpawns,
          hb.simNow.trans hone.simNow,
          hb.spawned.trans hone.spawned, hone.nextEntity.trans hmono, ?_, ?_⟩, Nat.succ_le_succ hlen⟩
        · rw [hb.mobs, hone.mobs, List.append_assoc]
          rfl
        · intro m hm
          dsimp only at hm ⊢
          rcases List.mem_cons.1 hm with rfl | hm
          · omega
          · have := hb.fresh m hm
            omega
        · refine List.nodup_cons.2 ⟨fun hmem => ?_, hb.nodup⟩
          have := hb.fresh mob hmem
          omega
      · cases hspawn

theorem spawnOneTemplate_spec (w : SpawnWorld) (rule : SpawnRule) (roll : SpawnRoll) :
    Brought w (spawnOneTemplate cfg w rule roll).1 (spawnOneTemplate cfg w rule roll).2 ∧
      (spawnOneTemplate cfg w rule roll).1.length ≤ (expandSpawnTemplate rule.template roll.ticket).length :=
  spawnMembers_spec ..

/-- The rule of filling: what every further instance keeps, the whole fill keeps. -/
theorem fillRule_induction {rule : SpawnRule} {i : Nat} {P : Nat → SpawnWorld → Prop}
    (hfail : ∀ n w w', P (n + 1) w → Brought w [] w' → P (n + 1) w')
    (hadd : ∀ n w w' members, P (n + 1) w → Brought w members w' → members ≠ [] →
      (∃ roll, members.length ≤ (expandSpawnTemplate rule.template roll).length) → P n (w'.addInstance i members)) :
    ∀ (n : Nat) (w : SpawnWorld) (rolls : List SpawnRoll) {w' : SpawnWorld} {rolls' : List SpawnRoll}, P n w →
      fillRule cfg rule i n w rolls = some (w', rolls') → ∃ m, m ≤ n ∧ P m w'
  | 0, w, rolls, w', rolls', hP, h => by
    cases h
    exact ⟨0, le_rfl, hP⟩
  | n + 1, w, [], w', rolls', hP, h => by cases h
  | n + 1, w, roll :: rolls, w', rolls', hP, h => by
    obtain ⟨hb, hlen⟩ := @spawnOneTemplate_spec cfg w rule roll
    simp only [fillRule] at h
    generalize spawnOneTemplate cfg w rule roll = result at hb hlen h
    obtain ⟨members, w1⟩ := result
    cases members with
    | nil =>
      cases h
      exact ⟨n + 1, le_rfl, hfail n w _ hP hb⟩
    | cons mob mobs =>
      obtain ⟨m, hm, hP'⟩ := fillRule_induction hfail hadd n _ rolls
        (hadd n w w1 (mob :: mobs) hP hb (by simp) ⟨_, hlen⟩) h
      exact ⟨m, Nat.le_succ_of_le hm, hP'⟩

end

end Zohar.Spawn
