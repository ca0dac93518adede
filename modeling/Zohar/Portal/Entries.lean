/-
The poll that finds out which players have walked into a portal. From zohar-sim/src/runtime: portal.rs, with
player/actions.rs, player/lifecycle.rs and player/restart.rs for what moves a player between two polls and aoi.rs for
the spatial index. The candidates come from the index, where a player lies at the end of its way; they are judged by
where the player is seen.
-/
import Zohar.Game.Chat
import Zohar.Lib.Gather
import Zohar.Lib.Run
import Zohar.Net.EntityKind
import Zohar.Portal.Motion
import Zohar.Spawn.Rules

namespace Zohar.Portal

open Zohar.Lib
open Zohar.Game (Text wordsFrom)
open Zohar.Net (MobKind PortalBehavior)
open Zohar.Replication (EntityId)
open Zohar.Spawn (MobId)
open Zohar.Space (samplePlayerVisualPositionAt)

/-! ## Portals -/

/-- An entity of the ECS: a slot, of which it is the only living owner, and how often the slot had owners before. -/
structure Entity where
  index : Nat
  generation : Nat
  deriving Repr

instance : LinearOrder Entity :=
  LinearOrder.lift' (fun e => toLex (e.index, e.generation)) fun ⟨_, _⟩ ⟨_, _⟩ h => by simpa using h

inductive PortalDestination where
  | mapTransfer (worldPos : LocalPos)
  | localReposition (localPos : LocalPos)

structure PortalEntry where
  entity : Entity
  pos : LocalPos
  destination : PortalDestination

structure PortalOverlap where
  portalEntity : Entity
  destination : PortalDestination

structure MobProto where
  mobKind : MobKind
  name : Text

/-- A mob of the world as the query of the portals finds it. -/
structure MobRow where
  entity : Entity
  pos : LocalPos
  mobId : MobId

/-- What the poll and the moves read of `MapConfig` and `SharedConfig`, and `str::parse::<f32>` where it answers a
finite number. -/
structure PortalConfig where
  localSize : LocalSize
  mobs : MobId → Option MobProto
  parseF32 : Text → Option ℝ

/-- `parse_portal_destination`: the last two words of the name. -/
def parsePortalDestination (parseF32 : Text → Option ℝ) (behavior : PortalBehavior) (name : Text) :
    Option PortalDestination :=
  match (wordsFrom [] name).reverse with
  | yWord :: xWord :: _ =>
    (parseF32 yWord).bind fun y => (parseF32 xWord).map fun x =>
      match behavior with
      | .mapTransfer => .mapTransfer ⟨x, y⟩
      | .localReposition => .localReposition ⟨x, y⟩
  | _ => none

def portalEntry (cfg : PortalConfig) (row : MobRow) : Option PortalEntry :=
  (cfg.mobs row.mobId).bind fun proto =>
    match proto.mobKind with
    | .portal behavior => (parsePortalDestination cfg.parseF32 behavior proto.name).map fun destination =>
        ⟨row.entity, row.pos, destination⟩
    | _ => none

def collectPortals (cfg : PortalConfig) (mobs : List MobRow) : List PortalEntry := mobs.filterMap (portalEntry cfg)

/-! ## The map -/

structure PortalPollState where
  nextPollAt : Nat
  overlaps : OrdMap Entity Entity

/-- The players by their entities, the portal events in their outboxes, and the two indices. The mobs are in the index
of the net ids like the players. -/
structure MapWorld where
  players : OrdMap Entity PlayerBody
  outboxes : OrdMap Entity (List PortalDestination)
  netIndex : OrdMap EntityId Entity
  spatial : OrdMap EntityId LocalPos
  pollState : PortalPollState

/-- The queries of the spatial index: what lies at the radius is not in the answer. -/
abbrev RadiusQuery := Space.RadiusQuery EntityId distance

/-- A call of `process_portal_entries`: the clocks, the mobs in the order of the query, the spatial query and the order
in which the hash map of the overlaps is gone over. -/
structure Poll where
  simNow : Nat
  packetNow : Nat
  mobs : List MobRow
  distinct : (mobs.map fun row => row.entity.index).Nodup
  query : RadiusQuery
  order : List (Entity × PortalOverlap) → List (Entity × PortalOverlap)
  order_perm : ∀ l, (order l).Perm l

/-! ## The poll -/

noncomputable def portalOverlapRadiusM : ℝ := 3

def portalPollInterval : Nat := 200

/-- A net id of a mob leads to an entity without the marker of a player. -/
def resolvePlayerEntity (w : MapWorld) (entityId : EntityId) : Option Entity :=
  (w.netIndex.get? entityId).filter fun entity => (w.players.get? entity).isSome

noncomputable def samplePlayerPosition (w : MapWorld) (player : Entity) (packetNow : Nat) : Option LocalPos :=
  (w.players.get? player).map fun b => samplePlayerVisualPositionAt b.motion packetNow

def candidateIsNearer (current : Option (PortalOverlap × ℝ)) (candidate : PortalOverlap × ℝ) : Prop :=
  match current with
  | none => True
  | some current =>
    candidate.2 < current.2 ∨
      (candidate.2 = current.2 ∧ candidate.1.portalEntity.index < current.1.portalEntity.index)

open Classical in
/-- The body of the inner loop of `collect_current_player_portal_overlaps`. -/
noncomputable def considerEntity (w : MapWorld) (packetNow : Nat) (portal : PortalEntry)
    (bestByPlayer : OrdMap Entity (PortalOverlap × ℝ)) (entityId : EntityId) : OrdMap Entity (PortalOverlap × ℝ) :=
  match resolvePlayerEntity w entityId with
  | none => bestByPlayer
  | some player =>
    match samplePlayerPosition w player packetNow with
    | none => bestByPlayer
    | some playerPos =>
      let distSq := distanceSq playerPos portal.pos
      if portalOverlapRadiusM * portalOverlapRadiusM < distSq then bestByPlayer
      else
        let candidate := ((⟨portal.entity, portal.destination⟩ : PortalOverlap), distSq)
        if candidateIsNearer (bestByPlayer.get? player) candidate then bestByPlayer.insert player candidate
        else bestByPlayer

noncomputable def collectCurrentPlayerPortalOverlaps (w : MapWorld) (query : RadiusQuery) (portals : List PortalEntry)
    (packetNow : Nat) : OrdMap Entity PortalOverlap :=
  let bestByPlayer := portals.foldl (fun best portal =>
    (query.ids w.spatial portal.pos (maxMovePacketStepM + portalOverlapRadiusM)).foldl
      (considerEntity w packetNow portal)
      best) .empty
  bestByPlayer.map Prod.fst

/-- `push_reliable` of `PortalEntered`, for one of the overlaps. -/
def pushEntered (outboxes : OrdMap Entity (List PortalDestination)) (e : Entity × PortalOverlap) :
    OrdMap Entity (List PortalDestination) :=
  match outboxes.get? e.1 with
  | none => outboxes
  | some outbox => outboxes.insert e.1 (outbox ++ [e.2.destination])

noncomputable def processPortalEntries (cfg : PortalConfig) (p : Poll) (w : MapWorld) : MapWorld :=
  if p.simNow < w.pollState.nextPollAt then w
  else
    let previousOverlaps := w.pollState.overlaps
    let currentOverlaps := collectCurrentPlayerPortalOverlaps w p.query (collectPortals cfg p.mobs) p.packetNow
    -- trigger on rising edge only
    let newOverlaps := (p.order currentOverlaps.entries).filter fun e =>
      previousOverlaps.get? e.1 ≠ some e.2.portalEntity
    { w with
      outboxes := newOverlaps.foldl pushEntered w.outboxes
      pollState := ⟨satAdd p.simNow portalPollInterval, currentOverlaps.map PortalOverlap.portalEntity⟩ }

/-! ## Steps of the map -/

/-- What happens to the players of a map and to its portals. A mob is spawned, moved or gone under a net id that is no
player's. -/
inductive PortalEvent where
  | enter (player : Entity) (netId : EntityId) (initialPos : LocalPos)
  | leave (player : Entity)
  | move (player : Entity) (request : MoveRequest)
  | restart (player : Entity) (moveTo : Option LocalPos) (packetNow : Nat)
  | mobAt (netId : EntityId) (mob : Entity) (pos : LocalPos)
  | mobGone (netId : EntityId)
  | poll (p : Poll)

namespace MapWorld

/-- A map without players. -/
def start : MapWorld := ⟨.empty, .empty, .empty, .empty, 0, .empty⟩

/-- `update_position`, applied: `maintain` is called before the next query. -/
def updatePosition (spatial : OrdMap EntityId LocalPos) (netId : EntityId) (pos : LocalPos) :
    OrdMap EntityId LocalPos :=
  if (spatial.get? netId).isSome then spatial.insert netId pos else spatial

/-- No player goes by the net id. -/
def noPlayer (w : MapWorld) (netId : EntityId) : Bool := (resolvePlayerEntity w netId).isNone

/-- `on_player_added`, with the outbox empty: it is flushed when the player enters. -/
def addPlayer (w : MapWorld) (player : Entity) (netId : EntityId) (initialPos : LocalPos) : MapWorld where
  players := w.players.insert player ⟨netId, initialPos, .standing initialPos 0⟩
  outboxes := w.outboxes.insert player []
  netIndex := w.netIndex.insert netId player
  spatial := w.spatial.insert netId initialPos
  pollState := w.pollState

/-- `on_player_removed`. -/
def removePlayer (w : MapWorld) (player : Entity) (b : PlayerBody) : MapWorld where
  players := w.players.erase player
  outboxes := w.outboxes.erase player
  netIndex := w.netIndex.erase b.netId
  spatial := w.spatial.erase b.netId
  pollState := w.pollState

/-- `apply_player_motion`. -/
def applyPlayerMotion (w : MapWorld) (player : Entity) (b : PlayerBody) (endPos : LocalPos)
    (motion : PlayerMotionState) :
    MapWorld :=
  { w with
    players := w.players.insert player ⟨b.netId, endPos, motion⟩
    spatial := updatePosition w.spatial b.netId endPos }

/-- `apply_restart_state`. -/
def applyRestartState (w : MapWorld) (player : Entity) (b : PlayerBody) (moveTo : Option LocalPos) (packetNow : Nat) :
    MapWorld :=
  let pos := moveTo.getD b.pos
  { w with
    players := w.players.insert player ⟨b.netId, pos, .standing pos packetNow⟩
    spatial := match moveTo with
      | none => w.spatial
      | some pos => updatePosition w.spatial b.netId pos }

/-- Entities and net ids are taken when they are free, and a player that is not there does nothing. A move that panics
has no next state. -/
noncomputable def step (cfg : PortalConfig) (w : MapWorld) : PortalEvent → Option MapWorld
  | .enter player netId initialPos =>
    if (w.players.get? player).isNone ∧ (w.netIndex.get? netId).isNone then some (w.addPlayer player netId initialPos)
    else none
  | .leave player => (w.players.get? player).map fun b => w.removePlayer player b
  | .move player request =>
    (w.players.get? player).bind fun b =>
      (buildPlayerMoveAction cfg.localSize b request).map fun (endPos, motion) =>
        w.applyPlayerMotion player b endPos motion
  | .restart player moveTo packetNow =>
    (w.players.get? player).map fun b => w.applyRestartState player b moveTo packetNow
  | .mobAt netId mob pos =>
    if w.noPlayer netId ∧ (w.players.get? mob).isNone then
      some { w with netIndex := w.netIndex.insert netId mob, spatial := w.spatial.insert netId pos }
    else none
  | .mobGone netId =>
    if w.noPlayer netId then
      some { w with netIndex := w.netIndex.erase netId, spatial := w.spatial.erase netId }
    else none
  | .poll p => some (processPortalEntries cfg p w)

end MapWorld

/-! ## The candidates of a poll -/

section Candidates

variable {w : MapWorld} {packetNow : Nat} {portal : PortalEntry} {portals : List PortalEntry} {query : RadiusQuery}
  {player : Entity} {b : PlayerBody}

/-- The order of the candidates: by the distance, and by the slot of the portal where that is the same. -/
noncomputable def nearness (c : PortalOverlap × ℝ) : ℝ ×ₗ Nat := toLex (c.2, c.1.portalEntity.index)

theorem candidateIsNearer_some {a c : PortalOverlap × ℝ} : candidateIsNearer (some a) c ↔ nearness c < nearness a := by
  rw [nearness, nearness, Prod.Lex.toLex_lt_toLex]
  exact Iff.rfl

noncomputable def PortalEntry.offer (portal : PortalEntry) (playerPos : LocalPos) : PortalOverlap × ℝ :=
  (⟨portal.entity, portal.destination⟩, distanceSq playerPos portal.pos)

/-- What a turn of the inner loop offers, and to whom. -/
noncomputable def candidate (w : MapWorld) (packetNow : Nat) (portal : PortalEntry) (entityId : EntityId) :
    Option (Entity × (PortalOverlap × ℝ)) :=
  (resolvePlayerEntity w entityId).bind fun player =>
    (samplePlayerPosition w player packetNow).bind fun playerPos =>
      if portalOverlapRadiusM * portalOverlapRadiusM < distanceSq playerPos portal.pos then none
      else some (player, portal.offer playerPos)

theorem considerEntity_eq (best : OrdMap Entity (PortalOverlap × ℝ)) (entityId : EntityId) :
    considerEntity w packetNow portal best entityId = match candidate w packetNow portal entityId with
      | some r => best.insert r.1 (keepLeast nearness (best.get? r.1) r.2)
      | none => best := by
  unfold considerEntity candidate
  cases resolvePlayerEntity w entityId with
  | none => rfl
  | some player =>
    cases hpos : samplePlayerPosition w player packetNow with
    | none => simp only [hpos, Option.bind_some, Option.bind_none]
    | some playerPos =>
      simp only [hpos, Option.bind_some]
      by_cases hfar : portalOverlapRadiusM * portalOverlapRadiusM < distanceSq playerPos portal.pos
      · simp only [if_pos hfar]
      · simp only [if_neg hfar, PortalEntry.offer]
        cases hbest : best.get? player with
        | none => exact if_pos trivial
        | some a =>
          simp only [candidateIsNearer_some, keepLeast]
          split
          · rfl
          · exact (OrdMap.insert_of_get?_some hbest).symm

/-- Everything that the two loops offer. -/
noncomputable def candidates (w : MapWorld) (query : RadiusQuery) (portals : List PortalEntry) (packetNow : Nat) :
    List (Entity × (PortalOverlap × ℝ)) :=
  portals.flatMap fun portal =>
    (query.ids w.spatial portal.pos (maxMovePacketStepM + portalOverlapRadiusM)).filterMap
      (candidate w packetNow portal)

/-- What a player is offered. -/
noncomputable def offers (w : MapWorld) (query : RadiusQuery) (portals : List PortalEntry) (packetNow : Nat)
    (player : Entity) : List (PortalOverlap × ℝ) :=
  ((candidates w query portals packetNow).filter fun r => r.1 = player).map Prod.snd

/-- Each player keeps the nearest of what it is offered, whatever the two orders are. -/
theorem get?_collect (player : Entity) : (collectCurrentPlayerPortalOverlaps w query portals packetNow).get? player =
    ((offers w query portals packetNow player).argmin nearness).map Prod.fst := by
  have hloops : (portals.foldl (fun best portal =>
      (query.ids w.spatial portal.pos (maxMovePacketStepM + portalOverlapRadiusM)).foldl
        (considerEntity w packetNow portal) best) .empty) =
      gather Prod.fst (fun o r => keepLeast nearness o r.2) .empty (candidates w query portals packetNow) := by
    unfold gather candidates
    rw [List.foldl_flatMap]
    congr 1
    funext best portal
    rw [List.foldl_filterMap]
    congr 1
    funext best entityId
    rw [considerEntity_eq]
    cases candidate w packetNow portal entityId with
    | none => rfl
    | some r => rfl
  unfold collectCurrentPlayerPortalOverlaps
  rw [OrdMap.get?_map, hloops, get?_gather, OrdMap.get?_empty, foldl_keepLeast]
  rfl

/-! ## The nearest portal -/

/-- The position overlaps the portal. -/
def PortalEntry.Overlaps (q : PortalEntry) (pos : LocalPos) : Prop := distance q.pos pos ≤ portalOverlapRadiusM

/-- The portal overlaps the position, and of those that do it is the nearest, with the lowest slot of the nearest. -/
structure IsNearest (portals : List PortalEntry) (pos : LocalPos) (q : PortalEntry) : Prop where
  mem : q ∈ portals
  overlaps : q.Overlaps pos
  least : ∀ r ∈ portals, r.Overlaps pos → distance q.pos pos < distance r.pos pos ∨
    (distance q.pos pos = distance r.pos pos ∧ q.entity.index ≤ r.entity.index)

theorem portalOverlapRadiusM_nonneg : 0 ≤ portalOverlapRadiusM := by norm_num [portalOverlapRadiusM]

theorem overlaps_iff {q : PortalEntry} {pos : LocalPos} :
    q.Overlaps pos ↔ distanceSq pos q.pos ≤ portalOverlapRadiusM * portalOverlapRadiusM := by
  rw [distanceSq_le_iff portalOverlapRadiusM_nonneg, dist_comm, ← distance_eq]
  exact Iff.rfl

theorem nearness_le_iff {q r : PortalEntry} {pos : LocalPos} : nearness (q.offer pos) ≤ nearness (r.offer pos) ↔
    distance q.pos pos < distance r.pos pos ∨
      (distance q.pos pos = distance r.pos pos ∧ q.entity.index ≤ r.entity.index) := by
  unfold nearness PortalEntry.offer
  rw [Prod.Lex.toLex_le_toLex, distanceSq_eq, distanceSq_eq, dist_comm pos.plane, dist_comm pos.plane, ← distance_eq,
    ← distance_eq, sq_lt_sq₀ (distance_nonneg _ _) (distance_nonneg _ _),
    sq_eq_sq₀ (distance_nonneg _ _) (distance_nonneg _ _)]

/-- Portals that live at the same time have different slots, so there is at most one nearest. -/
theorem IsNearest.unique (hslots : ∀ q ∈ portals, ∀ r ∈ portals, q.entity.index = r.entity.index → q = r)
    {pos : LocalPos} {q r : PortalEntry} (hq : IsNearest portals pos q) (hr : IsNearest portals pos r) : q = r := by
  have hqr := nearness_le_iff.2 (hq.least r hr.mem hr.overlaps)
  have hrq := nearness_le_iff.2 (hr.least q hq.mem hq.overlaps)
  have heq : nearness (q.offer pos) = nearness (r.offer pos) := le_antisymm hqr hrq
  have hslot : q.entity.index = r.entity.index := congrArg (fun k => (ofLex k).2) heq
  exact hslots q hq.mem r hr.mem hslot

end Candidates

/-! ## Where the players are -/

/-- Each player is found in the indices at the place where it stands. -/
structure MapWorld.Settled (w : MapWorld) : Prop where
  indexed : ∀ e b, w.players.get? e = some b → w.netIndex.get? b.netId = some e
  placed : ∀ e b, w.players.get? e = some b → w.spatial.get? b.netId = some b.pos
  hasOutbox : ∀ e b, w.players.get? e = some b → ∃ outbox, w.outboxes.get? e = some outbox

/-- No segment is longer than one packet may go. -/
def MapWorld.InStep (w : MapWorld) : Prop := ∀ e b, w.players.get? e = some b → b.InStep

/-- Whoever is seen to overlap a portal stands nearer to it than the query reaches. -/
def InReach (w : MapWorld) (portals : List PortalEntry) (packetNow : Nat) : Prop :=
  ∀ player b, w.players.get? player = some b → ∀ q ∈ portals,
    q.Overlaps (samplePlayerVisualPositionAt b.motion packetNow) →
    distance q.pos b.pos < maxMovePacketStepM + portalOverlapRadiusM

/-- Nobody who is seen to overlap a portal stands as far from it as the query reaches. -/
def OffRim (w : MapWorld) (portals : List PortalEntry) (packetNow : Nat) : Prop :=
  ∀ player b, w.players.get? player = some b → ∀ q ∈ portals,
    q.Overlaps (samplePlayerVisualPositionAt b.motion packetNow) →
    distance q.pos b.pos ≠ maxMovePacketStepM + portalOverlapRadiusM

section Settled

variable {w : MapWorld} {packetNow : Nat} {portal : PortalEntry} {portals : List PortalEntry} {query : RadiusQuery}
  {player : Entity} {b : PlayerBody}

theorem MapWorld.InStep.inReach (hw : w.InStep) (hrim : OffRim w portals packetNow) : InReach w portals packetNow := by
  intro player b hb q hq hov
  refine lt_of_le_of_ne ?_ (hrim player b hb q hq hov)
  have hseen := (hw player b hb).dist_visual packetNow
  unfold PortalEntry.Overlaps at hov
  rw [distance_eq] at hov ⊢
  calc dist q.pos.plane b.pos.plane
      ≤ dist q.pos.plane (samplePlayerVisualPositionAt b.motion packetNow).plane +
          dist (samplePlayerVisualPositionAt b.motion packetNow).plane b.pos.plane := dist_triangle _ _ _
    _ ≤ portalOverlapRadiusM + maxMovePacketStepM := add_le_add hov hseen
    _ = maxMovePacketStepM + portalOverlapRadiusM := add_comm _ _

theorem resolvePlayerEntity_eq_some_iff {entityId : EntityId} : resolvePlayerEntity w entityId = some player ↔
    w.netIndex.get? entityId = some player ∧ ∃ b, w.players.get? player = some b := by
  unfold resolvePlayerEntity
  rw [Option.filter_eq_some_iff, Option.isSome_iff_exists]

/-- The query finds the players that stand nearer than it reaches. -/
theorem MapWorld.Settled.found_iff (hw : w.Settled) (hb : w.players.get? player = some b) :
    b.netId ∈ query.ids w.spatial portal.pos (maxMovePacketStepM + portalOverlapRadiusM) ↔
      distance portal.pos b.pos < maxMovePacketStepM + portalOverlapRadiusM := by
  simp [query.mem_ids, hw.placed player b hb]

theorem candidate_eq_some_iff {entityId : EntityId} {c : PortalOverlap × ℝ} :
    candidate w packetNow portal entityId = some (player, c) ↔ ∃ b, w.players.get? player = some b ∧
      w.netIndex.get? entityId = some player ∧ portal.Overlaps (samplePlayerVisualPositionAt b.motion packetNow) ∧
      c = portal.offer (samplePlayerVisualPositionAt b.motion packetNow) := by
  unfold candidate
  simp only [Option.bind_eq_some_iff, resolvePlayerEntity_eq_some_iff, samplePlayerPosition, Option.map_eq_some_iff]
  constructor
  · rintro ⟨e, ⟨hid, -⟩, pos, ⟨b, hb, rfl⟩, h⟩
    split at h
    · cases h
    · rename_i hnear
      cases h
      exact ⟨b, hb, hid, overlaps_iff.2 (not_lt.1 hnear), rfl⟩
  · rintro ⟨b, hb, hid, hov, rfl⟩
    refine ⟨player, ⟨hid, b, hb⟩, _, ⟨b, hb, rfl⟩, ?_⟩
    rw [if_neg (not_lt.2 (overlaps_iff.1 hov))]

theorem mem_offers {c : PortalOverlap × ℝ} : c ∈ offers w query portals packetNow player ↔
    ∃ q ∈ portals, ∃ entityId ∈ query.ids w.spatial q.pos (maxMovePacketStepM + portalOverlapRadiusM),
      candidate w packetNow q entityId = some (player, c) := by
  unfold offers candidates
  simp only [List.mem_map, List.mem_filter, List.mem_flatMap, List.mem_filterMap, decide_eq_true_eq]
  constructor
  · rintro ⟨⟨e, c'⟩, ⟨⟨q, hq, id, hid, hc⟩, rfl⟩, rfl⟩
    exact ⟨q, hq, id, hid, hc⟩
  · rintro ⟨q, hq, id, hid, hc⟩
    exact ⟨(player, c), ⟨⟨q, hq, id, hid, hc⟩, rfl⟩, rfl⟩

/-- A player is offered the portals that it is seen to overlap, and no others. -/
theorem MapWorld.Settled.mem_offers_iff (hw : w.Settled) (hreach : InReach w portals packetNow)
    (hb : w.players.get? player = some b) {c : PortalOverlap × ℝ} :
    c ∈ offers w query portals packetNow player ↔ ∃ q ∈ portals,
      q.Overlaps (samplePlayerVisualPositionAt b.motion packetNow) ∧
      c = q.offer (samplePlayerVisualPositionAt b.motion packetNow) := by
  rw [mem_offers]
  constructor
  · rintro ⟨q, hq, id, -, hc⟩
    obtain ⟨b', hb', -, hov, rfl⟩ := candidate_eq_some_iff.1 hc
    cases hb.symm.trans hb'
    exact ⟨q, hq, hov, rfl⟩
  · rintro ⟨q, hq, hov, rfl⟩
    exact ⟨q, hq, b.netId, (hw.found_iff hb).2 (hreach player b hb q hq hov),
      candidate_eq_some_iff.2 ⟨b, hb, hw.indexed player b hb, hov, rfl⟩⟩

/-- What the poll collects is the nearest portal of each player. -/
theorem MapWorld.Settled.get?_collect_iff (hw : w.Settled) (hreach : InReach w portals packetNow)
    (hslots : ∀ q ∈ portals, ∀ r ∈ portals, q.entity.index = r.entity.index → q = r) {o : PortalOverlap} :
    (collectCurrentPlayerPortalOverlaps w query portals packetNow).get? player = some o ↔
      ∃ b, w.players.get? player = some b ∧
        ∃ q, IsNearest portals (samplePlayerVisualPositionAt b.motion packetNow) q ∧ o = ⟨q.entity, q.destination⟩ := by
  -- the least offer is that of the nearest portal
  have hleast : ∀ {b c}, w.players.get? player = some b →
    (offers w query portals packetNow player).argmin nearness = some c →
      ∃ q, IsNearest portals (samplePlayerVisualPositionAt b.motion packetNow) q ∧ c.1 = ⟨q.entity, q.destination⟩ := by
    intro b c hb hc
    obtain ⟨q, hq, hov, rfl⟩ := (hw.mem_offers_iff hreach hb).1 (List.argmin_mem hc)
    refine ⟨q, ⟨hq, hov, fun r hr hrov => ?_⟩, rfl⟩
    exact nearness_le_iff.1 (List.le_of_mem_argmin ((hw.mem_offers_iff hreach hb).2 ⟨r, hr, hrov, rfl⟩) hc)
  rw [get?_collect, Option.map_eq_some_iff]
  constructor
  · rintro ⟨c, hc, rfl⟩
    obtain ⟨q, hq, id, -, hcand⟩ := mem_offers.1 (List.argmin_mem hc)
    obtain ⟨b, hb, -⟩ := candidate_eq_some_iff.1 hcand
    exact ⟨b, hb, hleast hb hc⟩
  · rintro ⟨b, hb, q, hq, rfl⟩
    have hmem : q.offer (samplePlayerVisualPositionAt b.motion packetNow) ∈ offers w query portals packetNow player :=
      (hw.mem_offers_iff hreach hb).2 ⟨q, hq.mem, hq.overlaps, rfl⟩
    cases hc : (offers w query portals packetNow player).argmin nearness with
    | none =>
      rw [List.argmin_eq_none.1 hc] at hmem
      cases hmem
    | some c =>
      obtain ⟨r, hr, hcr⟩ := hleast hb hc
      rw [hq.unique hslots hr]
      exact ⟨c, rfl, hcr⟩

theorem mem_collectPortals {cfg : PortalConfig} {mobs : List MobRow} {q : PortalEntry}
    (h : q ∈ collectPortals cfg mobs) :
    ∃ row ∈ mobs, portalEntry cfg row = some q ∧ q.entity = row.entity := by
  obtain ⟨row, hrow, hq⟩ := List.mem_filterMap.1 h
  refine ⟨row, hrow, hq, ?_⟩
  obtain ⟨proto, -, hq⟩ := Option.bind_eq_some_iff.1 hq
  split at hq
  · obtain ⟨_, -, rfl⟩ := Option.map_eq_some_iff.1 hq
    rfl
  · cases hq

theorem Poll.slots (cfg : PortalConfig) (p : Poll) : ∀ q ∈ collectPortals cfg p.mobs, ∀ r ∈ collectPortals cfg p.mobs,
    q.entity.index = r.entity.index → q = r := by
  intro q hq r hr hslot
  obtain ⟨row, hrow, hq, hqe⟩ := mem_collectPortals hq
  obtain ⟨row', hrow', hr, hre⟩ := mem_collectPortals hr
  rw [hqe, hre] at hslot
  cases List.inj_on_of_nodup_map p.distinct hrow hrow' hslot
  exact Option.some.inj (hq.symm.trans hr)

end Settled

end Zohar.Portal
