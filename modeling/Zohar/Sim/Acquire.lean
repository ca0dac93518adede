/-
How a mob comes by a target: the last attacker that can still be fought, or the nearest player in its sight. From
zohar-sim/src/runtime/mob/ai.rs, spatial.rs and life.rs. Places and the distances between them are of any kind; a player
is in the spatial index at the place where it stands, and the index answers in any order.
-/
import Mathlib.Data.List.MinMax
import Zohar.Sim.Life
import Zohar.Space

namespace Zohar.Sim

open Zohar.Lib
open Zohar.Replication (EntityId)

/-! ## Worlds -/

/-- The components that the search for a target reads. -/
structure TargetComps (P : Type) where
  isPlayer : Bool
  pos : Option P
  life : Option ActorLifePhase

/-- Who goes by which net id. -/
structure MapActors (P : Type) where
  netEntities : EntityId → Option Entity
  entities : Entity → TargetComps P

/-- The entities of a map with its spatial index. A player is put into the index when it enters, and each of its moves
and restarts ends with `maintain`, so that it is there where it stands. -/
structure TargetWorld (P D : Type) [LinearOrder D] extends MapActors P where
  distance : P → P → D
  centimetres : UInt16 → D
  nonneg : ∀ a b, centimetres 0 ≤ distance a b
  spatial : Option (OrdMap EntityId P)
  query : Space.RadiusQuery EntityId distance
  placed : ∀ id entity pos, netEntities id = some entity → (entities entity).isPlayer = true →
    (entities entity).pos = some pos → ∃ grid, spatial = some grid ∧ grid.get? id = some pos

/-- A player in the sight of a mob. -/
structure Sighted (D : Type) where
  id : EntityId
  distance : D
  deriving DecidableEq

/-- What a prototype says about aggression; the sight is in centimetres. -/
structure AggroProto where
  aggressive : Bool
  aggressiveSight : UInt16
  deriving DecidableEq, Repr

inductive MobBrainMode where
  | idle | pursuit | return | attackWindup
  deriving DecidableEq, Repr

/-- The fields of a brain that a new target changes. -/
structure MobBrainState where
  mode : MobBrainMode
  target : Option EntityId
  nextRethinkAt : Nat
  deriving DecidableEq, Repr

def ActorLifePhase.canBeCombatTarget (life : ActorLifePhase) : Bool := !life.isDead

section
variable {P D : Type} [LinearOrder D]

namespace MapActors

variable (w : MapActors P)

def actorCanBeCombatTarget (entity : Entity) : Bool :=
  match (w.entities entity).life with
  | none => true
  | some life => life.canBeCombatTarget

/-- Whether the entity with a net id is there and can be fought. -/
def targetable (id : EntityId) : Bool :=
  match w.netEntities id with
  | none => false
  | some entity => w.actorCanBeCombatTarget entity

/-- The last of the attackers in the queue that can be fought. -/
def latestLiveProvoker (attackers : List EntityId) : Option EntityId := attackers.reverse.find? w.targetable

def applyNewAggro (attackers : List EntityId) (now : Nat) (brain : MobBrainState) : Bool × MobBrainState :=
  match w.latestLiveProvoker attackers with
  | none => (false, brain)
  | some targetId =>
    if brain.target = some targetId ∧ brain.mode = .pursuit then (false, brain)
    else (true, ⟨.pursuit, some targetId, now⟩)

/-- An attacker who has fallen hides none of the others. -/
theorem latestLiveProvoker_eq_some_iff {attackers : List EntityId} {id : EntityId} :
    w.latestLiveProvoker attackers = some id ↔ ∃ earlier later, attackers = earlier ++ id :: later ∧
      w.targetable id = true ∧ ∀ other ∈ later, w.targetable other = false := by
  unfold latestLiveProvoker
  rw [List.find?_eq_some_iff_append]
  constructor
  · rintro ⟨ht, later, earlier, heq, hlater⟩
    refine ⟨earlier.reverse, later.reverse, by simpa using congrArg List.reverse heq, ht, ?_⟩
    intro other hother
    simpa using hlater other (List.mem_reverse.1 hother)
  · rintro ⟨earlier, later, rfl, ht, hlater⟩
    refine ⟨ht, later.reverse, earlier.reverse, by simp, ?_⟩
    intro other hother
    simpa using hlater other (List.mem_reverse.1 hother)

end MapActors

namespace TargetWorld

variable (w : TargetWorld P D)

/-- A candidate of the query and its distance, if it is a player with a place. -/
def candidateAt (currentPos : P) (candidate : EntityId) : Option (Sighted D) := do
  let entity ← w.netEntities candidate
  if (w.entities entity).isPlayer then
    let pos ← (w.entities entity).pos
    return ⟨candidate, w.distance currentPos pos⟩
  else none

/-- The candidates of `acquire_aggressive_target`, in the order of the query. Without a sight there are none. -/
def sightedPlayers (currentPos : P) (proto : AggroProto) : List (Sighted D) :=
  let sightM := w.centimetres proto.aggressiveSight
  if sightM ≤ w.centimetres 0 then []
  else match w.spatial with
    | none => []
    | some grid => (w.query.ids grid currentPos sightM).filterMap (w.candidateAt currentPos)

/-- Of several that are nearest `min_by` takes the first. -/
def acquireAggressiveTarget (currentPos : P) (proto : AggroProto) : Option EntityId :=
  if proto.aggressive then ((w.sightedPlayers currentPos proto).argmin (·.distance)).map (·.id) else none

def acquireIdleTarget (currentPos : P) (proto : AggroProto) (now : Nat) (brain : MobBrainState) :
    Bool × MobBrainState :=
  if brain.target.isSome || brain.mode ≠ .idle then (false, brain)
  else match w.acquireAggressiveTarget currentPos proto with
    | none => (false, brain)
    | some acquired =>
      if w.targetable acquired then (true, ⟨.pursuit, some acquired, now⟩) else (false, brain)

/-! ## In sight -/

/-- A player whose distance from the mob is less than the mob's sight. -/
def InSight (currentPos : P) (proto : AggroProto) (c : Sighted D) : Prop :=
  ∃ entity pos, w.netEntities c.id = some entity ∧ (w.entities entity).isPlayer = true ∧
    (w.entities entity).pos = some pos ∧ c.distance = w.distance currentPos pos ∧
    w.distance currentPos pos < w.centimetres proto.aggressiveSight

theorem candidateAt_eq_some_iff {currentPos : P} {candidate : EntityId} {c : Sighted D} :
    w.candidateAt currentPos candidate = some c ↔ ∃ entity pos, w.netEntities candidate = some entity ∧
      (w.entities entity).isPlayer = true ∧ (w.entities entity).pos = some pos ∧
      c = ⟨candidate, w.distance currentPos pos⟩ := by
  unfold candidateAt
  simp only [Option.bind_eq_bind, Option.bind_eq_some_iff]
  constructor
  · rintro ⟨entity, hentity, h⟩
    split at h
    · rename_i hplayer
      obtain ⟨pos, hpos, h⟩ := Option.bind_eq_some_iff.1 h
      cases h
      exact ⟨entity, pos, hentity, hplayer, hpos, rfl⟩
    · cases h
  · rintro ⟨entity, pos, hentity, hplayer, hpos, rfl⟩
    refine ⟨entity, hentity, ?_⟩
    rw [if_pos hplayer, hpos]
    rfl

/-- The search goes over the players in sight, and no others. -/
theorem mem_sightedPlayers {currentPos : P} {proto : AggroProto} {c : Sighted D} :
    c ∈ w.sightedPlayers currentPos proto ↔ w.InSight currentPos proto c := by
  unfold sightedPlayers InSight
  constructor
  · intro h
    dsimp only at h
    split at h
    · cases h
    · split at h
      · cases h
      · rename_i grid hgrid
        obtain ⟨candidate, hin, hc⟩ := List.mem_filterMap.1 h
        obtain ⟨entity, pos, hentity, hplayer, hpos, rfl⟩ := w.candidateAt_eq_some_iff.1 hc
        obtain ⟨indexed, hindexed, hnear⟩ := w.query.mem_ids.1 hin
        obtain ⟨grid', hgrid', hplaced⟩ := w.placed candidate entity pos hentity hplayer hpos
        cases hgrid.symm.trans hgrid'
        cases hindexed.symm.trans hplaced
        exact ⟨entity, pos, hentity, hplayer, hpos, rfl, hnear⟩
  · rintro ⟨entity, pos, hentity, hplayer, hpos, hdist, hnear⟩
    obtain ⟨grid, hgrid, hplaced⟩ := w.placed c.id entity pos hentity hplayer hpos
    have hsight : ¬ w.centimetres proto.aggressiveSight ≤ w.centimetres 0 :=
      not_le.2 ((w.nonneg currentPos pos).trans_lt hnear)
    simp only [if_neg hsight, hgrid]
    refine List.mem_filterMap.2 ⟨c.id, w.query.mem_ids.2 ⟨pos, hplaced, hnear⟩, ?_⟩
    exact w.candidateAt_eq_some_iff.2 ⟨entity, pos, hentity, hplayer, hpos, by rw [← hdist]⟩

/-! ## The nearest target -/

/-- The target a mob should have acquired: if there is any player in its sight that can be fought, then one of the
nearest of these. -/
def AcquiresNearest (currentPos : P) (proto : AggroProto) (brain : MobBrainState) : Prop :=
  (∃ c, w.InSight currentPos proto c ∧ w.targetable c.id = true) →
    ∃ c, w.InSight currentPos proto c ∧ w.targetable c.id = true ∧
      (∀ d, w.InSight currentPos proto d → w.targetable d.id = true → c.distance ≤ d.distance) ∧
        brain.target = some c.id

/-- One candidate comes before another: nearer, or as near and earlier in the query. -/
def Before (l : List (Sighted D)) (c d : Sighted D) : Prop :=
  c.distance < d.distance ∨ c.distance = d.distance ∧ l.idxOf c < l.idxOf d

/-- Nobody in sight can be fought, or somebody who can comes before everybody who cannot. -/
def NoneShadowed (currentPos : P) (proto : AggroProto) : Prop :=
  (∀ c, w.InSight currentPos proto c → w.targetable c.id = false) ∨
    ∃ c, w.InSight currentPos proto c ∧ w.targetable c.id = true ∧
      ∀ d, w.InSight currentPos proto d → w.targetable d.id = false → Before (w.sightedPlayers currentPos proto) c d

variable {w} {currentPos : P} {proto : AggroProto} {brain : MobBrainState}

/-- What an idle mob without a target does: it takes the nearest player, if that one can be fought. -/
theorem acquireIdleTarget_target (haggro : proto.aggressive = true) (hidle : brain.mode = .idle)
    (hnone : brain.target = none) (now : Nat) {id : EntityId} :
    (w.acquireIdleTarget currentPos proto now brain).2.target = some id ↔
      w.targetable id = true ∧ ∃ c ∈ (w.sightedPlayers currentPos proto).argmin (·.distance), c.id = id := by
  have hgate : ¬ (brain.target.isSome || decide (brain.mode ≠ .idle)) = true := by simp [hidle, hnone]
  unfold acquireIdleTarget acquireAggressiveTarget
  rw [if_neg hgate, if_pos haggro]
  cases hmin : (w.sightedPlayers currentPos proto).argmin (·.distance) with
  | none => simp [hnone]
  | some c =>
    simp only [Option.map_some, Option.mem_def, Option.some.injEq, exists_eq_left']
    by_cases ht : w.targetable c.id = true
    · rw [if_pos ht]
      constructor
      · rintro h
        cases h
        exact ⟨ht, rfl⟩
      · rintro ⟨-, rfl⟩
        rfl
    · rw [if_neg ht, hnone]
      constructor
      · nofun
      · rintro ⟨h, rfl⟩
        exact absurd h ht

/-- The first of the nearest comes before every other one. -/
theorem not_before_argmin {l : List (Sighted D)} {c m : Sighted D} (hc : c ∈ l) (hm : m ∈ l.argmin (·.distance)) :
    ¬ Before l c m := by
  obtain ⟨-, hle, hfirst⟩ := List.mem_argmin_iff.1 hm
  rintro (hlt | ⟨heq, hlt⟩)
  · exact absurd hlt (not_lt_of_ge (hle c hc))
  · have := hfirst c hc heq.le
    omega

theorem argmin_before {l : List (Sighted D)} {d m : Sighted D} (hm : m ∈ l.argmin (·.distance)) (hd : d ∈ l)
    (hne : d ≠ m) : Before l m d := by
  obtain ⟨hmem, hle, hfirst⟩ := List.mem_argmin_iff.1 hm
  rcases lt_or_eq_of_le (hle d hd) with hlt | heq
  · exact .inl hlt
  · have hidx := hfirst d hd heq.ge
    have hidx' : l.idxOf m ≠ l.idxOf d := fun h => hne ((List.idxOf_inj hmem).1 h).symm
    exact .inr ⟨heq, by omega⟩

/-- An idle aggressive mob acquires the nearest target exactly where no player who cannot be fought shadows it. -/
theorem acquires_nearest_iff (haggro : proto.aggressive = true) (hidle : brain.mode = .idle)
    (hnone : brain.target = none) (now : Nat) :
    w.AcquiresNearest currentPos proto (w.acquireIdleTarget currentPos proto now brain).2 ↔
      w.NoneShadowed currentPos proto := by
  unfold AcquiresNearest NoneShadowed
  simp only [acquireIdleTarget_target haggro hidle hnone, ← mem_sightedPlayers]
  constructor
  · intro h
    by_cases hvalid : ∃ c ∈ w.sightedPlayers currentPos proto, w.targetable c.id = true
    · obtain ⟨c, hc, ht, -, -, m, hm, heq⟩ := h hvalid
      refine .inr ⟨m, List.argmin_mem hm, heq ▸ ht, ?_⟩
      intro d hd hdead
      refine argmin_before hm hd ?_
      rintro rfl
      rw [heq, ht] at hdead
      cases hdead
    · left
      intro c hc
      exact Bool.eq_false_iff.2 fun ht => hvalid ⟨c, hc, ht⟩
  · rintro (hall | ⟨c, hc, ht, hbefore⟩) ⟨e, he, hte⟩
    · rw [hall e he] at hte
      cases hte
    · obtain ⟨m, hm⟩ : ∃ m, (w.sightedPlayers currentPos proto).argmin (·.distance) = some m := by
        refine Option.ne_none_iff_exists'.1 fun h => ?_
        rw [List.argmin_eq_none.1 h] at hc
        cases hc
      have hmt : w.targetable m.id = true := by
        by_contra hdead
        exact not_before_argmin hc hm (hbefore m (List.argmin_mem hm) (Bool.eq_false_iff.2 hdead))
      exact ⟨m, List.argmin_mem hm, hmt, fun d hd _ => List.le_of_mem_argmin hd hm, hmt, m, hm, rfl⟩

end TargetWorld

end

/-! ## A fallen player and one who stands behind -/

/-- Two players on a map, a fallen one and one who stands. A distance is given by its square. -/
def twoPlayers (fallen standing : Space.LocalPos Rat) : TargetWorld (Space.LocalPos Rat) Rat where
  netEntities id := if id = ⟨1⟩ then some ⟨1⟩ else if id = ⟨2⟩ then some ⟨2⟩ else none
  entities e :=
    if e = ⟨1⟩ then ⟨true, some fallen, some (.dead 0 (some 10000) (some 7000) (some 180000) none)⟩
    else ⟨true, some standing, some .alive⟩
  distance a b := (b.sub a).squareLength
  centimetres n := ((n.toNat : Rat) / 100) ^ 2
  nonneg a b := by
    show ((0 : Rat) / 100) ^ 2 ≤ _
    rw [zero_div, zero_pow two_ne_zero]
    exact add_nonneg (mul_self_nonneg _) (mul_self_nonneg _)
  spatial := some ((OrdMap.empty.insert ⟨1⟩ fallen).insert ⟨2⟩ standing)
  query := .inOrder EntityId _
  placed := by
    intro id entity pos hnet _ hpos
    refine ⟨_, rfl, ?_⟩
    rw [OrdMap.get?_insert, OrdMap.get?_insert]
    split at hnet
    · rename_i hid
      cases hnet
      cases hpos
      rw [hid]
      rfl
    · split at hnet
      · rename_i hid
        cases hnet
        cases hpos
        rw [if_pos hid]
      · cases hnet

/-- The fallen one at one metre, the other at five. -/
def fallenInFront : TargetWorld (Space.LocalPos Rat) Rat := twoPlayers ⟨1, 0⟩ ⟨5, 0⟩

theorem acquires_nearest_misses :
    ¬ fallenInFront.AcquiresNearest ⟨0, 0⟩ ⟨true, 2000⟩
      (fallenInFront.acquireIdleTarget ⟨0, 0⟩ ⟨true, 2000⟩ 0 ⟨.idle, none, 0⟩).2 := by
  intro h
  have hsees : fallenInFront.InSight ⟨0, 0⟩ ⟨true, 2000⟩ ⟨⟨2⟩, 25⟩ :=
    ⟨⟨2⟩, ⟨5, 0⟩, by decide, by decide, by decide, by decide +kernel, by decide +kernel⟩
  obtain ⟨c, -, -, -, htarget⟩ := h ⟨_, hsees, by decide⟩
  have hnone : (fallenInFront.acquireIdleTarget ⟨0, 0⟩ ⟨true, 2000⟩ 0 ⟨.idle, none, 0⟩).2.target = none := by
    decide +kernel
  rw [hnone] at htarget
  cases htarget

/-- The same two with the fallen one farther away than the other. -/
def fallenBehind : TargetWorld (Space.LocalPos Rat) Rat := twoPlayers ⟨5, 0⟩ ⟨1, 0⟩

theorem acquires_nearest_iff_fallenBehind :
    fallenBehind.AcquiresNearest ⟨0, 0⟩ ⟨true, 2000⟩
      (fallenBehind.acquireIdleTarget ⟨0, 0⟩ ⟨true, 2000⟩ 0 ⟨.idle, none, 0⟩).2 := by
  have hsees : fallenBehind.InSight ⟨0, 0⟩ ⟨true, 2000⟩ ⟨⟨2⟩, 1⟩ :=
    ⟨⟨2⟩, ⟨1, 0⟩, by decide, by decide, by decide, by decide +kernel, by decide +kernel⟩
  refine (TargetWorld.acquires_nearest_iff rfl rfl rfl 0).2 (.inr ⟨_, hsees, by decide, ?_⟩)
  intro d hd hdead
  have hall : ∀ d ∈ fallenBehind.sightedPlayers ⟨0, 0⟩ ⟨true, 2000⟩, fallenBehind.targetable d.id = false →
      1 < d.distance := by decide +kernel
  exact .inl (hall d (fallenBehind.mem_sightedPlayers.2 hd) hdead)

end Zohar.Sim
