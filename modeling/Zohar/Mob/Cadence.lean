/-
Runs of a mob: how often it strikes, and whom. Between two strikes lies the gate of its attack speed and the windup of
the first, and while it winds up it does nothing at all, whatever provokes it, whoever dies and however often its mind
is reset; and every strike is at a player who was in its reach when it was planned and can still be fought when it is
done.
-/
import Zohar.Lib.Spaced
import Zohar.Mob.Mind

namespace Zohar.Mob

open Zohar.Lib
open Zohar.Replication (EntityId MovementKind)
open Zohar.Sim (Entity ActorLifePhase MobBrainMode AttackDamageSchedule)
open Zohar.Spawn (MobId)

/-! ## Runs -/

/-- A strike that was done, with what the mob saw when it planned it and when it did it. -/
structure Strike (F : Type) where
  doneAt : Nat
  gate : Nat
  windup : Nat
  target : Option EntityId
  targetEntity : Entity
  damageSchedule : AttackDamageSchedule
  standingAt : LocalPos F
  planView : MobView F
  actView : MobView F

inductive Deed (F : Type) where
  | moved (doneAt : Nat)
  | struck (strike : Strike F)

namespace Deed

variable {F : Type}

def doneAt : Deed F → Nat
  | moved doneAt => doneAt
  | struck strike => strike.doneAt

/-- The end of the windup that the deed begins. -/
def heldUntil : Deed F → Nat
  | moved doneAt => doneAt
  | struck strike => satAdd strike.doneAt strike.windup

def strike? : Deed F → Option (Strike F)
  | moved _ => none
  | struck strike => some strike

end Deed

def Strike.gateUntil {F : Type} (strike : Strike F) : Nat := satAdd strike.doneAt strike.gate

/-- One mob on its map. The deeds and the view of a plan are its history; no function reads them. -/
structure MobRun (F : Type) where
  body : MobBody F
  simNow : Nat
  planned : Option (MobAction F × MobView F)
  movements : List (PendingMovement F)
  deeds : List (Deed F)

/-- What happens to a mob. All but its turn to act comes before it has planned an action or after that is done. -/
inductive MobEvent (F : Type) where
  | tick (now : Nat)
  | provoke (attacker : EntityId)
  | think (v : MobView F) (roll : WanderRoll F)
  | act (v : MobView F)
  | die

section
variable {F : Type} [F32 F] (cfg : MobConfig F)

/-- A mob as `spawn_one_mob` makes it. -/
def MobBody.spawned (proto : MobPrototype) (mobId : MobId) (pos : LocalPos F) (rot : UInt8) (now roll : Nat) :
    MobBody F where
  mobId := mobId
  brain := { MobBrainState.default with
    wanderNextDecisionAt :=
      if proto.bhvFlags.canWander then
        satAdd now (randomDurationBetweenMs roll cfg.wander.decisionPauseIdleMin cfg.wander.decisionPauseIdleMax)
      else 0 }
  aggro := []
  pos := pos
  rot := rot
  motion := ⟨pos, pos, 0, 0⟩
  homePos := pos
  life := .alive

namespace MobRun

variable (r : MobRun F)

def strikes {F : Type} (r : MobRun F) : List (Strike F) := r.deeds.filterMap Deed.strike?

/-- The gate of the mob's attack speed. -/
def gate : Nat := ((cfg.mobs r.body.mobId).map fun proto => (attackTimingForMob proto.attackSpeed).attackGate).getD 0

def deed (planView actView : MobView F) : MobAction F → Deed F
  | .motion .. => .moved r.simNow
  | .attack targetEntity _ _ _ duration damageSchedule _ nextBrain =>
    .struck
      { doneAt := r.simNow
        gate := r.gate cfg
        windup := duration
        target := nextBrain.target
        targetEntity, damageSchedule
        standingAt := r.body.motion.sampleAt r.simNow
        planView, actView }

/-- `apply_action` -/
def act (actView planView : MobView F) (action : MobAction F) : MobRun F :=
  if r.body.mayPerform actView action then
    let (body, movement) := r.body.perform r.simNow action
    { r with
      body
      planned := none
      movements := r.movements ++ [movement]
      deeds := r.deeds ++ [r.deed cfg planView actView action] }
  else { r with body := r.body.refuse action, planned := none }

def step : MobEvent F → Option (MobRun F)
  | .tick now => if r.planned.isNone ∧ r.simNow ≤ now ∧ now ≤ u64Max then some { r with simNow := now } else none
  | .provoke attacker => if r.planned.isNone then some { r with body := r.body.queueAggro attacker } else none
  | .think v roll =>
    if r.planned.isNone then
      let (body, planned) := r.body.think cfg v roll r.simNow
      some { r with body, planned := planned.map fun action => (action, v) }
    else none
  | .act v => r.planned.map fun planned => r.act cfg v planned.2 planned.1
  | .die => if r.planned.isNone then some { r with body := r.body.beginDying r.simNow } else none

/-- Nothing has happened to the mob yet. -/
def fresh {F : Type} (body : MobBody F) (now : Nat) : MobRun F := ⟨body, now, none, [], []⟩

end MobRun

/-! ## What every run keeps -/

variable {cfg} {r r' : MobRun F} {brain : MobBrainState}

/-- A strike is at a player in reach, who can be fought when it is planned and when it is done. -/
structure Strike.Sound (cfg : MobConfig F) (mobId : MobId) (s : Strike F) : Prop where
  sight : ∃ target targetPos proto, s.target = some target ∧ cfg.mobs mobId = some proto ∧
    Sighting s.planView (toClientTimestamp s.doneAt) target s.targetEntity targetPos ∧
    distance cfg.libm s.standingAt targetPos ≤ attackThresholdM proto.attackRange
  alive : s.actView.actorCanBeCombatTarget s.targetEntity = true

namespace MobRun

/-- An action that is planned, and that it was due when it was. -/
structure Ready (cfg : MobConfig F) (r : MobRun F) (action : MobAction F) (v : MobView F) : Prop where
  awake : r.body.brain.windupDue ≤ r.simNow
  plan : ∃ c brain brain', collectMobContext cfg r.body r.simNow = some c ∧
    brain.nextAttackAt = r.body.brain.nextAttackAt ∧ Outcome cfg v c brain (some action) brain'

structure Kept (cfg : MobConfig F) (r : MobRun F) : Prop where
  clock : r.simNow ≤ u64Max
  coherent : r.body.brain.Coherent
  spaced : Spaced Deed.doneAt Deed.heldUntil r.deeds
  held : r.body.life.isAlive = true → Gated Deed.doneAt Deed.heldUntil r.simNow r.body.brain.windupDue r.deeds
  gated : Gated Strike.doneAt Strike.gateUntil r.simNow r.body.brain.nextAttackAt r.strikes
  past : ∀ d ∈ r.deeds, d.doneAt ≤ u64Max
  sound : ∀ s ∈ r.strikes, s.Sound cfg r.body.mobId
  winding : r.body.brain.mode = .attackWindup → ∃ s, r.deeds.getLast? = some (.struck s) ∧
    r.body.brain.target = s.target ∧ r.body.brain.attackWindupUntil = satAdd s.doneAt s.windup
  ready : ∀ action v, r.planned = some (action, v) → Ready cfg r action v

theorem kept_fresh {proto : MobPrototype} {mobId : MobId} {pos : LocalPos F} {rot : UInt8} {now roll : Nat}
    (hclock : now ≤ u64Max) : Kept cfg (fresh (.spawned cfg proto mobId pos rot now roll) now) where
  clock := hclock
  coherent := ⟨MobBrainState.coherent_default.target_iff, MobBrainState.coherent_default.windup⟩
  spaced := List.isChain_nil
  held _ := .nil
  gated := .nil
  past _ hd := by cases hd
  sound _ hs := by cases hs
  winding hmode := by cases hmode
  ready _ _ hplan := by cases hplan

theorem Kept.tick {now : Nat} (h : Kept cfg r) (hidle : r.planned.isNone) (hle : r.simNow ≤ now) (hmax : now ≤ u64Max) :
    Kept cfg { r with simNow := now } where
  clock := hmax
  coherent := h.coherent
  spaced := h.spaced
  held halive := (h.held halive).wait hle
  gated := h.gated.wait hle
  past := h.past
  sound := h.sound
  winding := h.winding
  ready action v hplan := by
    rw [show r.planned = some (action, v) from hplan] at hidle
    cases hidle

theorem Kept.provoke {attacker : EntityId} (h : Kept cfg r) (hidle : r.planned.isNone) :
    Kept cfg { r with body := r.body.queueAggro attacker } where
  clock := h.clock
  coherent := h.coherent
  spaced := h.spaced
  held := h.held
  gated := h.gated
  past := h.past
  sound := h.sound
  winding := h.winding
  ready action v hplan := by
    rw [show r.planned = some (action, v) from hplan] at hidle
    cases hidle

/-- Whoever dies does nothing any more, so that its windup may be forgotten; its gate is not. -/
theorem Kept.die (h : Kept cfg r) (hidle : r.planned.isNone) :
    Kept cfg { r with body := r.body.beginDying r.simNow } := by
  have hready : ∀ action v, r.planned = some (action, v) → False := by
    intro action v hplan
    rw [hplan] at hidle
    cases hidle
  unfold MobBody.beginDying
  split
  · exact { h with ready := fun action v hplan => (hready action v hplan).elim }
  · refine ⟨h.clock, ⟨?_, ?_⟩, h.spaced, ?_, h.gated, h.past, h.sound, ?_,
      fun action v hplan => (hready action v hplan).elim⟩
    · simp
    · intro hne
      exact absurd rfl hne
    · intro halive
      cases halive
    · intro hmode
      cases hmode

/-- What is kept when a mob that is awake has another brain. -/
theorem Kept.rebrain (h : Kept cfg r) (hawake : r.body.brain.windupDue ≤ r.simNow) (hsettled : brain.Settled)
    (hgate : Gated Strike.doneAt Strike.gateUntil r.simNow brain.nextAttackAt r.strikes) (aggro : List EntityId) :
    Kept cfg { r with body := { r.body with aggro, brain }, planned := none } where
  clock := h.clock
  coherent := hsettled.coherent
  spaced := h.spaced
  held halive := (h.held halive).reset hawake
  gated := hgate
  past := h.past
  sound := h.sound
  winding hmode := absurd hmode hsettled.awake
  ready _ _ hplan := by cases hplan

theorem Kept.think {v : MobView F} {roll : WanderRoll F} (h : Kept cfg r) :
    Kept cfg { r with
      body := (r.body.think cfg v roll r.simNow).1
      planned := (r.body.think cfg v roll r.simNow).2.map fun action => (action, v) } := by
  rcases think_cases cfg v roll r.simNow h.coherent with ⟨-, heq⟩ | ⟨c, brain, brain', hturn⟩
  · rw [heq]
    exact ⟨h.clock, h.coherent, h.spaced, h.held, h.gated, h.past, h.sound, h.winding, fun _ _ hplan => by cases hplan⟩
  · generalize hthought : r.body.think cfg v roll r.simNow = thought at hturn ⊢
    obtain ⟨body, planned⟩ := thought
    dsimp only at hturn ⊢
    have hafter := hturn.after
    cases planned with
    | none =>
      obtain rfl : body = { r.body with aggro := [], brain := brain' } := hafter
      cases hturn.outcome with
      | stay hsettled hgate _ =>
        refine h.rebrain hturn.awake hsettled ?_ []
        rw [hgate, hturn.gate]
        exact h.gated
    | some action =>
      obtain rfl : body = { r.body with aggro := [] } := hafter
      refine ⟨h.clock, h.coherent, h.spaced, h.held, h.gated, h.past, h.sound, h.winding, ?_⟩
      rintro _ _ ⟨⟩
      exact ⟨hturn.awake, c, brain, brain', hturn.context, hturn.gate, hturn.outcome⟩

theorem Kept.unplan (h : Kept cfg r) : Kept cfg { r with planned := none } :=
  { h with ready := fun _ _ hplan => by cases hplan }

theorem Kept.move {actView planView : MobView F} {startPos endPos : LocalPos F} {rot : UInt8} {kind : MovementKind}
    {ts duration : Nat} {nextBrain : MobBrainState} (h : Kept cfg r)
    (hplan : r.planned = some (.motion startPos endPos rot kind ts duration nextBrain, planView)) :
    Kept cfg (r.act cfg actView planView (.motion startPos endPos rot kind ts duration nextBrain)) := by
  obtain ⟨hawake, c, brain, brain', -, hgate, houtcome⟩ := h.ready _ _ hplan
  unfold act
  split
  · rename_i halive
    obtain ⟨hsettled, hnext⟩ : nextBrain.Settled ∧ nextBrain.nextAttackAt = r.body.brain.nextAttackAt := by
      cases houtcome with
      | move hsettled hnext _ => exact ⟨hsettled, hnext.trans hgate⟩
    have hstrikes : (r.deeds ++ [Deed.moved r.simNow]).filterMap Deed.strike? = r.strikes := by
      rw [List.filterMap_append]
      exact List.append_nil _
    have hfire := (h.held halive).fire hawake (Deed.moved r.simNow) nextBrain.windupDue rfl (le_max_right _ _)
    refine ⟨h.clock, hsettled.coherent, hfire.spaced, fun _ => hfire, ?_, ?_, ?_, ?_, fun _ _ hplan => by cases hplan⟩
    · show Gated _ _ _ nextBrain.nextAttackAt ((r.deeds ++ [Deed.moved r.simNow]).filterMap Deed.strike?)
      rw [hstrikes, hnext]
      exact h.gated
    · intro d hd
      rcases List.mem_append.1 hd with hd | hd
      · exact h.past d hd
      · rw [List.mem_singleton.1 hd]
        exact h.clock
    · intro s hs
      replace hs : s ∈ (r.deeds ++ [Deed.moved r.simNow]).filterMap Deed.strike? := hs
      rw [hstrikes] at hs
      exact h.sound s hs
    · exact fun hmode => absurd hmode hsettled.awake
  · exact h.unplan

theorem Kept.strike {actView planView : MobView F} {targetEntity : Entity} {pos : LocalPos F} {rot : UInt8}
    {ts duration : Nat} {damageSchedule : AttackDamageSchedule} {setProjectileTarget : Bool} {nextBrain : MobBrainState}
    (h : Kept cfg r)
    (hplan : r.planned =
      some (.attack targetEntity pos rot ts duration damageSchedule setProjectileTarget nextBrain, planView)) :
    Kept cfg (r.act cfg actView planView
      (.attack targetEntity pos rot ts duration damageSchedule setProjectileTarget nextBrain)) := by
  obtain ⟨hawake, c, brain, brain', hcontext, hgate, houtcome⟩ := h.ready _ _ hplan
  obtain ⟨-, hproto, hnow, hts, hpos, -⟩ := collectMobContext_spec hcontext
  cases houtcome with
  | @strike target _ targetPos _ _ _ _ _ _ _ _ hknown hsight hreach hrest hdue heffect hwindup hnext =>
    rw [hnow, hgate] at hdue
    rw [hnow] at hwindup hnext
    obtain ⟨hmode, htarget, huntil⟩ := hwindup
    unfold act
    split
    · rename_i hmay
      obtain ⟨halive, hlive⟩ : r.body.life.isAlive = true ∧ actView.actorCanBeCombatTarget targetEntity = true := by
        simpa [MobBody.mayPerform] using hmay
      have hgateEq : r.gate cfg = (attackTimingForMob c.proto.attackSpeed).attackGate := by
        unfold gate
        rw [hproto]
        rfl
      generalize hs : (⟨r.simNow, r.gate cfg, duration, nextBrain.target, targetEntity, damageSchedule,
        r.body.motion.sampleAt r.simNow, planView, actView⟩ : Strike F) = s
      have hdoneAt : s.doneAt = r.simNow := by rw [← hs]
      have hduration : s.windup = duration := by rw [← hs]
      have hsGate : s.gate = r.gate cfg := by rw [← hs]
      have hstrikes : (r.deeds ++ [Deed.struck s]).filterMap Deed.strike? = r.strikes ++ [s] := by
        rw [List.filterMap_append]
        rfl
      have hfire := (h.held halive).fire hawake (Deed.struck s) nextBrain.windupDue hdoneAt (by
        rw [MobBrainState.windupDue, if_pos hmode, huntil]
        show satAdd s.doneAt s.windup ≤ _
        rw [hdoneAt, hduration]
        exact le_max_left _ _)
      have hgated := h.gated.fire hdue s nextBrain.nextAttackAt hdoneAt (by
        rw [hnext, Strike.gateUntil, hdoneAt, hsGate, hgateEq]
        exact le_max_left _ _)
      have hsound : s.Sound cfg r.body.mobId := by
        rw [← hs]
        refine ⟨⟨target, targetPos, c.proto, htarget, hproto, ?_, ?_⟩, hlive⟩
        · rw [← hts]
          exact hsight
        · show distance cfg.libm (r.body.motion.sampleAt r.simNow) targetPos ≤ _
          rw [← hpos]
          exact hreach
      simp only [MobBody.perform, deed, hs]
      refine ⟨h.clock, ⟨?_, fun _ => hmode⟩, hfire.spaced, fun _ => hfire, ?_, ?_, ?_, ?_,
        fun _ _ hplan => by cases hplan⟩
      · exact iff_of_true (by rw [htarget]; rfl) (.inr hmode)
      · show Gated _ _ _ nextBrain.nextAttackAt ((r.deeds ++ [Deed.struck s]).filterMap Deed.strike?)
        rw [hstrikes]
        exact hgated
      · intro d hd
        rcases List.mem_append.1 hd with hd | hd
        · exact h.past d hd
        · rw [List.mem_singleton.1 hd]
          exact hdoneAt.trans_le h.clock
      · intro s' hs'
        replace hs' : s' ∈ (r.deeds ++ [Deed.struck s]).filterMap Deed.strike? := hs'
        rw [hstrikes] at hs'
        rcases List.mem_append.1 hs' with hs' | hs'
        · exact h.sound s' hs'
        · rw [List.mem_singleton.1 hs']
          exact hsound
      · intro _
        refine ⟨s, List.getLast?_concat, ?_, ?_⟩
        · rw [← hs]
        · show nextBrain.attackWindupUntil = _
          rw [huntil, hdoneAt, hduration]
    · exact h.unplan.rebrain hawake MobBrainState.settled_default
        (h.gated.reset hdue) r.body.aggro

theorem Kept.step {e : MobEvent F} (h : Kept cfg r) (hs : r.step cfg e = some r') : Kept cfg r' := by
  cases e with
  | tick now =>
    simp only [MobRun.step] at hs
    split at hs
    · rename_i hcond
      cases hs
      exact h.tick hcond.1 hcond.2.1 hcond.2.2
    · cases hs
  | provoke attacker =>
    simp only [MobRun.step] at hs
    split at hs
    · rename_i hidle
      cases hs
      exact h.provoke hidle
    · cases hs
  | think v roll =>
    simp only [MobRun.step] at hs
    split at hs
    · cases hs
      exact h.think
    · cases hs
  | act v =>
    obtain ⟨⟨action, planView⟩, hplan, rfl⟩ := Option.map_eq_some_iff.1 hs
    cases action with
    | motion _ _ _ _ _ _ _ => exact h.move hplan
    | attack _ _ _ _ _ _ _ _ => exact h.strike hplan
  | die =>
    simp only [MobRun.step] at hs
    split at hs
    · rename_i hidle
      cases hs
      exact h.die hidle
    · cases hs

theorem kept_of_run {proto : MobPrototype} {mobId : MobId} {pos : LocalPos F} {rot : UInt8} {now roll : Nat}
    {es : List (MobEvent F)} (hclock : now ≤ u64Max)
    (hrun : run (MobRun.step cfg) (fresh (.spawned cfg proto mobId pos rot now roll) now) es = some r) : Kept cfg r :=
  run_inv (fun _ _ _ h hs => h.step hs) (kept_fresh hclock) hrun

/-! ## The cadence of strikes -/

section

variable {proto : MobPrototype} {mobId : MobId} {pos : LocalPos F} {rot : UInt8} {now roll : Nat}
  {es : List (MobEvent F)}

/-- Nothing that a mob does comes before the end of an earlier strike's windup, and no strike comes before an earlier
one's gate has passed. -/
theorem strikes_keep_their_distance (hclock : now ≤ u64Max)
    (hrun : run (MobRun.step cfg) (fresh (.spawned cfg proto mobId pos rot now roll) now) es = some r) :
    (r.deeds.Pairwise fun a b => a.heldUntil ≤ b.doneAt) ∧
      r.strikes.Pairwise fun a b => satAdd a.doneAt a.gate ≤ b.doneAt := by
  have hkept := kept_of_run hclock hrun
  constructor
  · refine hkept.spaced.pairwise ?_
    intro d hd
    cases d with
    | moved _ => exact le_rfl
    | struck strike => exact le_satAdd (hkept.past _ hd)
  · refine hkept.gated.spaced.pairwise ?_
    intro s hs
    obtain ⟨d, hd, hstrike⟩ := List.mem_filterMap.1 hs
    cases d with
    | moved _ => cases hstrike
    | struck strike =>
      cases hstrike
      exact le_satAdd (hkept.past _ hd)

/-- Every strike was planned at a living player in reach whom the mob knew as its target, and done while that one could
still be fought. -/
theorem strikes_are_sound (hclock : now ≤ u64Max)
    (hrun : run (MobRun.step cfg) (fresh (.spawned cfg proto mobId pos rot now roll) now) es = some r) :
    ∀ s ∈ r.strikes, s.Sound cfg r.body.mobId :=
  (kept_of_run hclock hrun).sound

/-- In every state a mob has a target exactly while it pursues or winds up, and it winds up only after a strike that it
has done, at the target of that strike and up to the end of its windup. -/
theorem windup_only_after_strike (hclock : now ≤ u64Max)
    (hrun : run (MobRun.step cfg) (fresh (.spawned cfg proto mobId pos rot now roll) now) es = some r) :
    r.body.brain.Coherent ∧ (r.body.brain.mode = .attackWindup → ∃ s, r.deeds.getLast? = some (.struck s) ∧
      r.body.brain.target = s.target ∧ r.body.brain.attackWindupUntil = satAdd s.doneAt s.windup) :=
  ⟨(kept_of_run hclock hrun).coherent, (kept_of_run hclock hrun).winding⟩

end

end MobRun

end

/-! ## A wolf and a player who stands in it -/

/-- Of the numbers that occur the root is the number itself, and nothing is turned. -/
def unitLibm : Libm Rat where
  sqrt q := q
  sin _ := 0
  cos _ := 1
  atan2 _ _ := 0
  toDegrees q := q
  remEuclid q _ := q

def wolf : MobPrototype where
  mobId := ⟨101⟩
  battleType := .melee
  moveSpeed := 100
  attackSpeed := 100
  aggressiveSight := 2000
  attackRange := 150
  bhvFlags := ⟨false, true⟩

/-- The defaults of the source, no motions and no terrain. -/
def wolfConfig : MobConfig Rat where
  libm := unitLibm
  mobs _ := some wolf
  runSpeed _ := none
  mobAttackTimings _ := none
  wander := ⟨3000, 5000, 1000, 3000, 7, 3, 7⟩
  localSize := ⟨100, 100⟩
  navigator := none

/-- The player with the net id 7, alone on the map with the wolf. -/
def wolfView : MobView Rat where
  netEntities id := if id.raw = 7 then some ⟨7⟩ else none
  entities _ := ⟨true, some ⟨10, 10⟩, none, some .alive⟩
  spatial := none

def wolfAtSpawn : MobRun Rat := .fresh (.spawned wolfConfig wolf ⟨101⟩ ⟨10, 10⟩ 0 0 0) 0

/-- What a wolf rolls that never wanders. -/
def stillRoll : WanderRoll Rat := ⟨0, 1, fun _ _ _ => 0, 0⟩

/-- It is provoked and strikes, winds up for two seconds and settles for a tenth of one, and strikes again. -/
def wolfEvents : List (MobEvent Rat) :=
  [.provoke ⟨7⟩, .think wolfView stillRoll, .act wolfView, .tick 2000, .think wolfView stillRoll, .tick 2100,
    .think wolfView stillRoll, .act wolfView]

/-- The wolf in the windup of its second strike. -/
theorem run_wolfEvents : ∃ r, run (MobRun.step wolfConfig) wolfAtSpawn wolfEvents = some r ∧
    r.strikes.map (fun s => (s.doneAt, s.gate)) = [(0, 2000), (2100, 2000)] ∧ r.body.brain.mode = .attackWindup := by
  have h : (run (MobRun.step wolfConfig) wolfAtSpawn wolfEvents).map
      (fun r => (r.strikes.map (fun s => (s.doneAt, s.gate)), r.body.brain.mode)) =
      some ([(0, 2000), (2100, 2000)], .attackWindup) := by decide +kernel
  obtain ⟨r, hr, heq⟩ := Option.map_eq_some_iff.1 h
  obtain ⟨hstrikes, hmode⟩ := Prod.mk.inj heq
  exact ⟨r, hr, hstrikes, hmode⟩

theorem strikes_keep_their_distance_wolf : ∃ r, run (MobRun.step wolfConfig) wolfAtSpawn wolfEvents = some r ∧
    r.strikes.map (fun s => (s.doneAt, s.gate)) = [(0, 2000), (2100, 2000)] ∧
    (r.deeds.Pairwise fun a b => a.heldUntil ≤ b.doneAt) ∧ r.strikes.Pairwise fun a b =>
      satAdd a.doneAt a.gate ≤ b.doneAt := by
  obtain ⟨r, hr, hstrikes, -⟩ := run_wolfEvents
  exact ⟨r, hr, hstrikes, MobRun.strikes_keep_their_distance (Nat.zero_le _) hr⟩

theorem strikes_are_sound_wolf : ∃ r, run (MobRun.step wolfConfig) wolfAtSpawn wolfEvents = some r ∧
    r.strikes.map (fun s => (s.doneAt, s.gate)) = [(0, 2000), (2100, 2000)] ∧
    ∀ s ∈ r.strikes, s.Sound wolfConfig r.body.mobId := by
  obtain ⟨r, hr, hstrikes, -⟩ := run_wolfEvents
  exact ⟨r, hr, hstrikes, MobRun.strikes_are_sound (Nat.zero_le _) hr⟩

theorem windup_only_after_strike_wolf : ∃ r, run (MobRun.step wolfConfig) wolfAtSpawn wolfEvents = some r ∧
    r.body.brain.mode = .attackWindup ∧ r.body.brain.Coherent ∧ (r.body.brain.mode = .attackWindup →
      ∃ s, r.deeds.getLast? = some (.struck s) ∧ r.body.brain.target = s.target ∧
        r.body.brain.attackWindupUntil = satAdd s.doneAt s.windup) := by
  obtain ⟨r, hr, -, hmode⟩ := run_wolfEvents
  exact ⟨r, hr, hmode, MobRun.windup_only_after_strike (Nat.zero_le _) hr⟩

end Zohar.Mob
