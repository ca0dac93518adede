/-
The movements of a player in one tick, from the commands in its queue to the events in the outboxes of its observers.
From zohar-sim/src/runtime: player/actions.rs, action/plan.rs, action/apply.rs, spatial.rs and net/replication.rs. The
commands are applied in the order in which they came; what they leave to be told is sorted by timestamp before it is
told. Arithmetic on coordinates is that of `f32` and is not looked into: it is a parameter, and so is what the player
finds around it.
-/
import Zohar.Replication.Outbox
import Zohar.Lib.UnstableSort

namespace Zohar.Replication

open Zohar.Lib

/-! ## Commands -/

/-- What `f32` arithmetic answers on positions. -/
structure Geometry where
  /-- The point at `elapsed` of `total` milliseconds on the way from one position to the other. -/
  interpolate : LocalPos → LocalPos → Nat → Nat → LocalPos
  sanitizePacketTarget : LocalPos → LocalPos → LocalPos
  sanitizePlayerTargetToMap : LocalPos → LocalPos
  calculateMoveDurationMs : MovementAnimation → LocalPos → LocalPos → Nat
  rotationFromDelta : LocalPos → LocalPos → UInt8 → UInt8

/-- What a player's commands find in the world while they are applied. -/
structure Surroundings where
  geometry : Geometry
  validatePlayerAttack : LocalPos → EntityId → Bool
  entityPosition : EntityId → Option LocalPos
  /-- The server's clock, as a timestamp. -/
  packetNow : Nat

structure PlayerMotionState where
  segmentStartPos : LocalPos
  segmentEndPos : LocalPos
  segmentStartTs : Nat
  segmentEndTs : Nat
  lastClientTs : Nat
  deriving DecidableEq, Repr

inductive PlayerCommand where
  | move (kind : MovementKind) (arg rot : UInt8) (target : LocalPos) (ts : Nat)
  | setMovementAnimation (animation : MovementAnimation)
  | selectTarget (target : EntityId)
  | attack (target : EntityId)
  deriving DecidableEq, Repr

/-- A player as its commands see it: `LocalTransform`, `PlayerMotion` and `PlayerMovementAnimation`. -/
structure Mover where
  playerId : PlayerId
  entityId : EntityId
  pos : LocalPos
  rot : UInt8
  motion : PlayerMotionState
  animation : MovementAnimation
  deriving DecidableEq, Repr

structure PendingMovement where
  moverPlayerId : Option PlayerId
  entityId : EntityId
  newPos : LocalPos
  kind : MovementKind
  reliable : Bool
  arg : UInt8
  rot : UInt8
  ts : Nat
  duration : Nat
  deriving DecidableEq, Repr

/-- `sample_player_motion_state_at`: where the player is at the time of a packet. -/
def samplePlayerMotionStateAt (g : Geometry) (currentPos : LocalPos) (motion : PlayerMotionState) (packetTs : Nat) :
    LocalPos :=
  if motion.lastClientTs = 0 ∨ packetTs ≤ motion.lastClientTs then currentPos
  else if motion.segmentEndTs ≤ motion.segmentStartTs then currentPos
  else if motion.segmentEndTs ≤ packetTs then motion.segmentEndPos
  else g.interpolate motion.segmentStartPos motion.segmentEndPos (packetTs - motion.segmentStartTs)
    (motion.segmentEndTs - motion.segmentStartTs)

/-- `ClientTimestamp::saturating_add`. -/
def tsSaturatingAdd (ts duration : Nat) : Nat := min (ts + duration) 4294967295

namespace Mover

variable (w : Surroundings)

/-- The end of the way that a move asks for, and the time it takes. -/
def planMove (m : Mover) (kind : MovementKind) (target : LocalPos) (ts : Nat) : LocalPos × Nat × PlayerMotionState :=
  let oldPos := samplePlayerMotionStateAt w.geometry m.pos m.motion ts
  let endPos := w.geometry.sanitizePlayerTargetToMap (w.geometry.sanitizePacketTarget oldPos target)
  let duration := if kind = .move then w.geometry.calculateMoveDurationMs m.animation oldPos endPos else 0
  (endPos, duration,
    if kind = .move ∧ 0 < duration then ⟨oldPos, endPos, ts, tsSaturatingAdd ts duration, ts⟩
    else ⟨endPos, endPos, ts, ts, ts⟩)

/-- One command of `process_player_actions`: the player after it, and the movement it leaves to be told. -/
def applyCommand (m : Mover) : PlayerCommand → Mover × Option PendingMovement
  | .move kind arg rot target ts =>
    let (endPos, duration, motion) := m.planMove w kind target ts
    ({ m with pos := endPos, rot, motion },
      some ⟨some m.playerId, m.entityId, endPos, kind, false, arg, rot, ts, duration⟩)
  | .setMovementAnimation animation => ({ m with animation }, none)
  | .selectTarget _ => (m, none)
  | .attack target =>
    if w.validatePlayerAttack m.pos target then
      let rot := match w.entityPosition target with
        | some targetPos => w.geometry.rotationFromDelta m.pos targetPos m.rot
        | none => m.rot
      ({ m with rot }, some ⟨some m.playerId, m.entityId, m.pos, .attack, true, 0, rot, w.packetNow, 600⟩)
    else (m, none)

/-- The commands of a tick in order. -/
def applyCommands : Mover → List PlayerCommand → Mover × List PendingMovement
  | m, [] => (m, [])
  | m, c :: cs =>
    let (m', movement) := m.applyCommand w c
    let (m'', movements) := applyCommands m' cs
    (m'', movement.toList ++ movements)

/-- `process_player_actions` for one player: one that cannot act drops its commands. -/
def processPlayerActions (m : Mover) (canAct : Bool) (commands : List PlayerCommand) : Mover × List PendingMovement :=
  if canAct then m.applyCommands w commands else (m, [])

end Mover

/-! ## Flush -/

def movementKindPriority : MovementKind → Nat
  | .move => 0
  | .wait => 1
  | .attack | .combo => 2

/-- The key that the pending movements are sorted by. -/
def PendingMovement.sortKey (m : PendingMovement) : EntityId ×ₗ Nat ×ₗ Nat :=
  toLex (m.entityId, toLex (m.ts, movementKindPriority m.kind))

/-- Who is told about an entity: the observers of the replication graph, and which entities are players. -/
structure Audience where
  observersFor : EntityId → List EntityId
  isPlayer : EntityId → Bool

/-- `observer_recipients`. -/
def Audience.observerRecipients (a : Audience) (subject : EntityId) (includeSubject : Bool) : List EntityId :=
  ((a.observersFor subject ++ if includeSubject then [subject] else []).mergeSort.dedup).filter a.isPlayer

def PendingMovement.event (m : PendingMovement) : MovementEvent :=
  ⟨m.entityId, m.kind, m.arg, m.rot, m.newPos, m.ts, m.duration⟩

/-- `push_movement_event`: the call on the recipient's outbox. -/
def PendingMovement.push (m : PendingMovement) : OutboxEvent :=
  if m.reliable then .pushReliable (.entityMove m.event)
  else if m.moverPlayerId.isSome ∧ (m.kind = .move ∨ m.kind = .wait) then .setLatestMovementWithPriority m.event true
  else .pushRemoteMovement m.event

/-- `flush_pending_movements`: the calls on the outboxes, in order. -/
def flushPendingMovements (a : Audience) (movements : List PendingMovement) : List (EntityId × OutboxEvent) :=
  movements.flatMap fun m =>
    (a.observerRecipients m.entityId (m.moverPlayerId.isSome && m.kind == .attack)).map fun recipient =>
      (recipient, m.push)

/-- The movement that a call on an outbox pushes. -/
def OutboxEvent.movement? : OutboxEvent → Option MovementEvent
  | .pushReliable (.entityMove m) => some m
  | .setLatestMovementWithPriority m _ => some m
  | .pushRemoteMovement m => some m
  | _ => none

/-- The last movement of an entity that a recipient is pushed. -/
def lastMovementOf (entity recipient : EntityId) (calls : List (EntityId × OutboxEvent)) : Option MovementEvent :=
  ((calls.filterMap fun x => if x.1 = recipient then x.2.movement? else none).filter fun e =>
    e.entityId = entity).getLast?

/-! ## What an observer is told -/

@[simp] theorem PendingMovement.push_movement? (m : PendingMovement) : m.push.movement? = some m.event := by
  unfold push
  split
  · rfl
  · split <;> rfl

theorem filterMap_of_nodup {α β : Type} [DecidableEq α] {x : α} (y : β) {l : List α} (hn : l.Nodup) (hx : x ∈ l) :
    (l.filterMap fun r => if r = x then some y else none) = [y] := by
  induction l with
  | nil => cases hx
  | cons r l ih =>
    obtain ⟨hr, hl⟩ := List.nodup_cons.1 hn
    rw [List.filterMap_cons]
    by_cases h : r = x
    · have hrest : (l.filterMap fun r => if r = x then some y else none) = [] := by
        refine List.filterMap_eq_nil_iff.2 fun z hz => if_neg ?_
        rintro rfl
        exact hr (h ▸ hz)
      simp only [if_pos h, hrest]
    · simp only [if_neg h]
      exact ih hl ((List.mem_cons.1 hx).resolve_left (Ne.symm h))

theorem Audience.observerRecipients_nodup (a : Audience) (subject : EntityId) (includeSubject : Bool) :
    (a.observerRecipients subject includeSubject).Nodup := (List.nodup_dedup _).filter _

theorem Audience.mem_observerRecipients {a : Audience} {subject observer : EntityId} {includeSubject : Bool}
    (ho : observer ∈ a.observersFor subject) (hp : a.isPlayer observer) :
    observer ∈ a.observerRecipients subject includeSubject := by
  refine List.mem_filter.2 ⟨List.mem_dedup.2 ?_, hp⟩
  rw [List.mem_mergeSort]
  exact List.mem_append_left _ ho

/-- An observer is told all pending movements of what it observes, in the order in which they are flushed. -/
theorem lastMovementOf_flush {a : Audience} {entity observer : EntityId} (ho : observer ∈ a.observersFor entity)
    (hp : a.isPlayer observer) (movements : List PendingMovement) :
    lastMovementOf entity observer (flushPendingMovements a movements) =
      (movements.filter fun m => m.entityId = entity).getLast?.map PendingMovement.event := by
  rw [← List.getLast?_map]
  unfold lastMovementOf
  congr 1
  induction movements with
  | nil => rfl
  | cons m movements ih =>
    rw [flushPendingMovements, List.flatMap_cons, List.filterMap_append, List.filter_append,
      ← flushPendingMovements, ih, List.filterMap_map]
    simp only [Function.comp_def, PendingMovement.push_movement?]
    by_cases hm : m.entityId = entity
    · subst hm
      rw [filterMap_of_nodup m.event (a.observerRecipients_nodup _ _) (Audience.mem_observerRecipients ho hp)]
      simp [PendingMovement.event]
    · -- what is told of another entity is not about this one
      rw [List.filter_cons_of_neg (by simpa using hm)]
      rw [List.filter_eq_nil_iff.2, List.nil_append]
      intro e he
      obtain ⟨r, -, hr⟩ := List.mem_filterMap.1 he
      split at hr <;> cases hr
      simp [PendingMovement.event, hm]

/-! ## Where the commands leave the player -/

/-- A command that is told to others: its timestamp, its priority, and where the player stands after it. -/
structure Stop where
  ts : Nat
  priority : Nat
  pos : LocalPos
  deriving DecidableEq, Repr

def Stop.key (s : Stop) : Nat ×ₗ Nat := toLex (s.ts, s.priority)

namespace Mover

variable (w : Surroundings)

/-- The timestamp and the priority of a command: a move has those of its packet, an attack those of the server. -/
def stamp (m : Mover) : PlayerCommand → Option (Nat × Nat)
  | .move kind _ _ _ ts => some (ts, movementKindPriority kind)
  | .attack target => if w.validatePlayerAttack m.pos target then some (w.packetNow, 2) else none
  | .setMovementAnimation _ | .selectTarget _ => none

/-- The way of the player through its commands. -/
def stops : Mover → List PlayerCommand → List Stop
  | _, [] => []
  | m, c :: cs =>
    let m' := (m.applyCommand w c).1
    ((m.stamp w c).map fun s => ⟨s.1, s.2, m'.pos⟩).toList ++ stops m' cs

end Mover

def PendingMovement.stop (p : PendingMovement) : Stop := ⟨p.ts, movementKindPriority p.kind, p.newPos⟩

/-- Every command with the latest timestamp and priority left the player where the last command left it. -/
def LatestStandsLast (stops : List Stop) : Prop :=
  ∀ s ∈ stops, (∀ t ∈ stops, t.key ≤ s.key) → ∀ last ∈ stops.getLast?, s.pos = last.pos

instance (stops : List Stop) : Decidable (LatestStandsLast stops) := by
  unfold LatestStandsLast; infer_instance

namespace Mover

variable {w : Surroundings}

/-- One command: the movement it leaves says where the player stands after it. -/
theorem applyCommand_spec (m : Mover) (c : PlayerCommand) :
    (m.applyCommand w c).1.entityId = m.entityId ∧
      (∀ p ∈ (m.applyCommand w c).2, p.entityId = m.entityId) ∧
      (m.applyCommand w c).2.map PendingMovement.stop =
        (m.stamp w c).map (fun s => ⟨s.1, s.2, (m.applyCommand w c).1.pos⟩) ∧
      ((m.applyCommand w c).2 = none → (m.applyCommand w c).1.pos = m.pos) := by
  cases c with
  | move kind arg rot target ts =>
    refine ⟨rfl, ?_, rfl, nofun⟩
    rintro p ⟨⟩
    rfl
  | setMovementAnimation animation => exact ⟨rfl, nofun, rfl, fun _ => rfl⟩
  | selectTarget target => exact ⟨rfl, nofun, rfl, fun _ => rfl⟩
  | attack target =>
    simp only [applyCommand, stamp]
    split
    · refine ⟨rfl, ?_, rfl, nofun⟩
      rintro p ⟨⟩
      rfl
    · exact ⟨rfl, nofun, rfl, fun _ => rfl⟩

theorem applyCommands_cons (m : Mover) (c : PlayerCommand) (cs : List PlayerCommand) :
    m.applyCommands w (c :: cs) = (((m.applyCommand w c).1.applyCommands w cs).1,
      (m.applyCommand w c).2.toList ++ ((m.applyCommand w c).1.applyCommands w cs).2) := rfl

theorem stops_cons (m : Mover) (c : PlayerCommand) (cs : List PlayerCommand) :
    m.stops w (c :: cs) = ((m.stamp w c).map fun s => ⟨s.1, s.2, (m.applyCommand w c).1.pos⟩).toList ++
      (m.applyCommand w c).1.stops w cs := rfl

/-- A whole queue: the movements are the stops of the player, and it stands at the last of them. -/
theorem applyCommands_spec (cs : List PlayerCommand) : ∀ m : Mover,
    (∀ p ∈ (m.applyCommands w cs).2, p.entityId = m.entityId) ∧
      (m.applyCommands w cs).2.map PendingMovement.stop = m.stops w cs ∧
      (m.applyCommands w cs).1.pos = ((m.stops w cs).getLast?.map Stop.pos).getD m.pos := by
  induction cs with
  | nil => exact fun m => ⟨nofun, rfl, rfl⟩
  | cons c cs ih =>
    intro m
    obtain ⟨hid, hown, hstop, hstay⟩ := applyCommand_spec (w := w) m c
    obtain ⟨hids, hstops, hpos⟩ := ih (m.applyCommand w c).1
    rw [applyCommands_cons, stops_cons, ← hstop]
    refine ⟨?_, ?_, ?_⟩
    · intro p hp
      rcases List.mem_append.1 hp with hp | hp
      · exact hown p (Option.mem_toList.1 hp)
      · rw [hids p hp, hid]
    · rw [List.map_append, hstops]
      cases (m.applyCommand w c).2 <;> rfl
    · rw [hpos, List.getLast?_append]
      cases hp : (m.applyCommand w c).2 with
      | none => simp [hstay hp]
      | some p =>
        have hpp : (m.applyCommand w c).1.pos = p.stop.pos := by
          rw [hp] at hstop
          cases hst : m.stamp w c with
          | none => rw [hst] at hstop; cases hstop
          | some s => rw [hst] at hstop; simp only [Option.map_some, Option.some.injEq] at hstop; rw [hstop]
        cases (stops w (m.applyCommand w c).1 cs).getLast? <;> simp [hpp]

end Mover

/-! ## Convergence -/

/-- A tick as one player and its observers see it: its commands, and the pending movements of everyone else. -/
structure Tick where
  world : Surroundings
  mover : Mover
  canAct : Bool
  commands : List PlayerCommand
  audience : Audience
  before : List PendingMovement
  after : List PendingMovement
  others : ∀ m ∈ before ++ after, m.entityId ≠ mover.entityId

namespace Tick

/-- The commands that are applied. -/
def applied (t : Tick) : List PlayerCommand := if t.canAct then t.commands else []

/-- The player after its commands, and its pending movements. -/
def played (t : Tick) : Mover × List PendingMovement := t.mover.processPlayerActions t.world t.canAct t.commands

def pending (t : Tick) : List PendingMovement := t.before ++ t.played.2 ++ t.after

/-- Whatever the sort makes of equal keys: the last movement of the player that the observer is pushed carries the
position that the player has. -/
def Converges (t : Tick) (observer : EntityId) : Prop :=
  ∀ sorted, SortsTo PendingMovement.sortKey t.pending sorted →
    ∀ e ∈ lastMovementOf t.mover.entityId observer (flushPendingMovements t.audience sorted),
      e.position = t.played.1.pos

theorem played_eq (t : Tick) : t.played = t.mover.applyCommands t.world t.applied := by
  unfold played Mover.processPlayerActions applied
  cases t.canAct <;> rfl

/-- The pending movements of the player are those that its commands left. -/
theorem mem_pending {t : Tick} {m : PendingMovement} (h : m.entityId = t.mover.entityId) :
    m ∈ t.pending ↔ m ∈ t.played.2 := by
  constructor
  · intro hm
    rcases List.mem_append.1 hm with hm | hm
    · rcases List.mem_append.1 hm with hm | hm
      · exact absurd h (t.others m (List.mem_append_left _ hm))
      · exact hm
    · exact absurd h (t.others m (List.mem_append_right _ hm))
  · exact fun hm => List.mem_append_left _ (List.mem_append_right _ hm)

theorem sortKey_le_iff {x y : PendingMovement} (h : x.entityId = y.entityId) :
    x.sortKey ≤ y.sortKey ↔ x.stop.key ≤ y.stop.key := by
  unfold PendingMovement.sortKey
  rw [h, Prod.Lex.toLex_le_toLex]
  simp [PendingMovement.stop, Stop.key]

variable {t : Tick}

/-- In terms of the pending movements: those with the largest key are where the player stands. -/
theorem converges_iff_pending {observer : EntityId} (ho : observer ∈ t.audience.observersFor t.mover.entityId)
    (hp : t.audience.isPlayer observer) :
    t.Converges observer ↔
      ∀ m ∈ t.played.2, (∀ y ∈ t.played.2, y.stop.key ≤ m.stop.key) → m.newPos = t.played.1.pos := by
  have hids : ∀ m ∈ t.played.2, m.entityId = t.mover.entityId := by
    rw [played_eq]
    exact (Mover.applyCommands_spec t.applied t.mover).1
  constructor
  · intro h m hm hmax
    -- the sort may put any movement with the largest key last
    obtain ⟨sorted, hsorts, hlast⟩ : ∃ sorted, SortsTo PendingMovement.sortKey t.pending sorted ∧
        (sorted.filter fun x => x.entityId = t.mover.entityId).getLast? = some m := by
      refine exists_sortsTo_last ((mem_pending (hids m hm)).2 hm) (by simpa using hids m hm) fun y hy hpy => ?_
      have hy' : y.entityId = t.mover.entityId := by simpa using hpy
      exact (sortKey_le_iff (hy'.trans (hids m hm).symm)).2 (hmax y ((mem_pending hy').1 hy))
    have hflush := lastMovementOf_flush ho hp sorted
    rw [hlast] at hflush
    exact h sorted hsorts m.event hflush
  · intro h sorted hsorts e he
    rw [lastMovementOf_flush ho hp, Option.mem_def, Option.map_eq_some_iff] at he
    obtain ⟨m, hlast, rfl⟩ := he
    obtain ⟨hmem, hpm, hmax⟩ := hsorts.last_of_kind hlast
    have hm : m.entityId = t.mover.entityId := by simpa using hpm
    refine h m ((mem_pending hm).1 hmem) fun y hy => ?_
    exact (sortKey_le_iff ((hids y hy).trans hm.symm)).1
      (hmax y ((mem_pending (hids y hy)).2 hy) (by simpa using hids y hy))

/-- The observers of a player end a tick with its position exactly if each of its commands with the latest timestamp and
priority left it where the last command did. Moves carry the timestamp of their packet, attacks that of the server. -/
theorem observers_converge {observer : EntityId} (ho : observer ∈ t.audience.observersFor t.mover.entityId)
    (hp : t.audience.isPlayer observer) :
    t.Converges observer ↔ LatestStandsLast (t.mover.stops t.world t.applied) := by
  rw [converges_iff_pending ho hp, played_eq]
  obtain ⟨-, hstops, hpos⟩ := Mover.applyCommands_spec (w := t.world) t.applied t.mover
  unfold LatestStandsLast
  rw [← hstops]
  constructor
  · intro h s hs hmax last hlast
    obtain ⟨m, hm, rfl⟩ := List.mem_map.1 hs
    rw [← hstops, Option.mem_def.1 hlast] at hpos
    exact (h m hm fun y hy => hmax y.stop (List.mem_map.2 ⟨y, hy, rfl⟩)).trans hpos
  · intro h m hm hmax
    cases hlast : ((t.mover.applyCommands t.world t.applied).2.map PendingMovement.stop).getLast? with
    | none => rw [List.getLast?_eq_none_iff, List.map_eq_nil_iff] at hlast; rw [hlast] at hm; cases hm
    | some last =>
      rw [← hstops, hlast] at hpos
      rw [hpos]
      refine h m.stop (List.mem_map.2 ⟨m, hm, rfl⟩) ?_ last hlast
      intro u hu
      obtain ⟨y, hy, rfl⟩ := List.mem_map.1 hu
      exact hmax y hy

end Tick

/-! ## A player that strikes and steps away -/

/-- The arithmetic on the positions below: all are near and on the map. -/
def nearby : Geometry where
  interpolate _ endPos _ _ := endPos
  sanitizePacketTarget _ target := target
  sanitizePlayerTargetToMap pos := pos
  calculateMoveDurationMs _ _ _ := 220
  rotationFromDelta _ _ _ := 18

/-- At one metre east and north. -/
def fencePos : LocalPos := ⟨0x3f800000, 0x3f800000⟩

/-- One metre further east. -/
def gatePos : LocalPos := ⟨0x40000000, 0x3f800000⟩

/-- The guard strikes the wolf while the server's clock is at 5000, and then walks to the gate; the traveller
watches. -/
def strikeAndStep (ts : Nat) : Tick where
  world := ⟨nearby, fun _ _ => true, fun _ => some ⟨0x3fc00000, 0x3f800000⟩, 5000⟩
  mover := ⟨⟨1⟩, guard, fencePos, 0, ⟨fencePos, fencePos, 0, 0, 0⟩, .run⟩
  canAct := true
  commands := [.attack wolf, .move .move 0 18 gatePos ts]
  audience := ⟨fun _ => [⟨8⟩], fun _ => true⟩
  before := []
  after := []
  others := nofun

/-- A step stamped after the strike is what the traveller is told last. -/
theorem observers_converge_strikeAndStep :
    (strikeAndStep 5040).Converges ⟨8⟩ ∧ (strikeAndStep 5040).played.1.pos = gatePos :=
  ⟨(Tick.observers_converge (t := strikeAndStep 5040) (by decide) (by decide)).2 (by decide), by decide⟩

/-- A step whose packet is a tenth of a second old: however the two are sorted, the traveller is told of the strike
last, at the fence, and the guard is at the gate. -/
theorem observers_converge_laggingStep :
    (strikeAndStep 4900).played.1.pos = gatePos ∧
      (∀ sorted, SortsTo PendingMovement.sortKey (strikeAndStep 4900).pending sorted →
        ∃ e, lastMovementOf guard ⟨8⟩ (flushPendingMovements (strikeAndStep 4900).audience sorted) = some e ∧
          e.position = fencePos) ∧
      ¬(strikeAndStep 4900).Converges ⟨8⟩ := by
  have hstand : (strikeAndStep 4900).played.1.pos = gatePos := by decide
  have htold : ∀ sorted, SortsTo PendingMovement.sortKey (strikeAndStep 4900).pending sorted →
      ∃ e, lastMovementOf guard ⟨8⟩ (flushPendingMovements (strikeAndStep 4900).audience sorted) = some e ∧
        e.position = fencePos := by
    intro sorted hsorts
    rw [lastMovementOf_flush (by decide) (by decide)]
    cases hlast : (sorted.filter fun m => m.entityId = guard).getLast? with
    | none =>
      rw [List.getLast?_eq_none_iff, List.filter_eq_nil_iff] at hlast
      have hall : ∀ m ∈ (strikeAndStep 4900).pending, ¬m.entityId = guard :=
        fun m hm => by simpa using hlast m (hsorts.1.symm.subset hm)
      exact absurd hall (by decide)
    | some m =>
      obtain ⟨hmem, -, hmax⟩ := hsorts.last_of_kind hlast
      have hall : ∀ m ∈ (strikeAndStep 4900).pending,
          (∀ y ∈ (strikeAndStep 4900).pending, decide (y.entityId = guard) = true → y.sortKey ≤ m.sortKey) →
            m.event.position = fencePos := by decide
      exact ⟨m.event, rfl, hall m hmem hmax⟩
  refine ⟨hstand, htold, fun hconv => ?_⟩
  obtain ⟨sorted, hsorts⟩ : ∃ sorted, SortsTo PendingMovement.sortKey (strikeAndStep 4900).pending sorted :=
    ⟨(strikeAndStep 4900).pending.reverse, by decide, by decide⟩
  obtain ⟨e, he, hpos⟩ := htold sorted hsorts
  have hgate := hconv sorted hsorts e he
  rw [hpos, hstand] at hgate
  exact absurd hgate (by decide)

end Zohar.Replication
