/-
The indices that a map keeps of its entities: `PlayerIndex`, `NetEntityIndex`, the spatial index, `PlayerCount` and the
edges of the replication graph. From zohar-sim/src: runtime/player/lifecycle.rs and persistence.rs,
runtime/mob/spawn.rs, runtime/cleanup.rs, runtime/net/replication.rs, runtime/resources.rs and aoi.rs. Each is written
by hand wherever an entity comes or goes. Net ids are counted in a `u32` that wraps and steps over zero; nobody looks
whether an id is still in use.
-/
import Zohar.Lib.Index
import Zohar.Replication.Visibility
import Zohar.Sim.Life

namespace Zohar.Indices

open Zohar.Lib Zohar.Replication
open Zohar.Spawn (MobId)
open Zohar.Replication.MapWorld (EnterMsg)
open Zohar.Sim (Entity ActorRef)

/-! ## The spatial index -/

/-- The grid goes by handles of its own, and an insertion makes a new one. -/
structure SpatialIndex where
  nextHandle : Nat
  grid : OrdMap Nat (EntityId × LocalPos)
  handles : OrdMap EntityId Nat

namespace SpatialIndex

def new : SpatialIndex := ⟨0, .empty, .empty⟩

def insert (s : SpatialIndex) (id : EntityId) (pos : LocalPos) : SpatialIndex where
  nextHandle := s.nextHandle + 1
  grid := s.grid.insert s.nextHandle (id, pos)
  handles := s.handles.insert id s.nextHandle

def remove (s : SpatialIndex) (id : EntityId) : SpatialIndex :=
  match s.handles.get? id with
  | some handle => { s with grid := s.grid.erase handle, handles := s.handles.erase id }
  | none => s

def queryInRadius (cfg : MapConfig) (s : SpatialIndex) (center : LocalPos) (radius : UInt32) : Finset EntityId :=
  ((s.grid.values.filter fun x => cfg.within radius center x.2).map (·.1)).toFinset

/-- The id of a value of the grid. -/
def gridKey (x : EntityId × LocalPos) : Option EntityId := some x.1

end SpatialIndex

/-! ## The map -/

inductive ActorKind where
  | player (playerId : PlayerId)
  | mob (mobId : MobId)
  deriving DecidableEq, Repr

/-- The components of an actor that the indices are about. -/
structure ActorComps where
  netId : EntityId
  pos : LocalPos
  kind : ActorKind
  deriving DecidableEq, Repr

namespace ActorComps

def playerKey (c : ActorComps) : Option PlayerId :=
  match c.kind with
  | .player playerId => some playerId
  | .mob _ => none

def netKey (c : ActorComps) : Option EntityId := some c.netId

def isPlayer (c : ActorComps) : Bool := c.playerKey.isSome

end ActorComps

/-- `reserved` are the net ids that were given to a connection which has not entered with them. -/
structure MapState where
  nextNetId : UInt32
  reserved : List EntityId
  entities : OrdMap Entity ActorComps
  playerIndex : OrdMap PlayerId Entity
  netIndex : OrdMap EntityId Entity
  playerCount : UInt32
  spatial : SpatialIndex
  graph : ReplicationGraph

def saturatingAddU32 (a b : UInt32) : UInt32 := .ofNat (min (a.toNat + b.toNat) 4294967295)

def saturatingSubU32 (a b : UInt32) : UInt32 := .ofNat (a.toNat - b.toNat)

inductive LeaveError where
  | notActive
  | missingNetId
  | staleNetId (requested expected : EntityId)
  deriving DecidableEq, Repr

namespace MapState

/-- Before the spawn rules put their mobs on the map. -/
def start : MapState := ⟨0, [], .empty, .empty, .empty, 0, .new, .empty⟩

/-! ## Visibility -/

section
variable (cfg : MapConfig) (it : Iteration)

def visibilityCandidates (s : MapState) (observerPos : LocalPos) (radius : UInt32) (observerNetId : EntityId) :
    Finset EntityId :=
  (s.spatial.queryInRadius cfg observerPos radius).erase observerNetId

/-- `make_entity_snapshot` finds the target and, of a mob, its prototype. -/
def hasSnapshot (s : MapState) (targetId : EntityId) : Bool :=
  match (s.netIndex.get? targetId).bind s.entities.get? with
  | some ⟨_, _, .player _⟩ => true
  | some ⟨_, _, .mob mobId⟩ => decide (mobId ∈ cfg.mobs)
  | none => false

def rollbackEnteredVisibility (s : MapState) (observerNetId : EntityId) (targetIds : List EntityId) : MapState :=
  { s with graph := targetIds.foldl (fun g targetId => (g.removeVisibility observerNetId targetId).2) s.graph }

/-- What it pushes to the outbox of the observer is left out. -/
def queueVisibilityDiff (s : MapState) (playerId : PlayerId) (observerNetId : EntityId) (diff : VisibilityDiff) :
    MapState :=
  match s.playerIndex.get? playerId with
  | none => s.rollbackEnteredVisibility observerNetId diff.entered
  | some observerEntity =>
    let s := s.rollbackEnteredVisibility observerNetId (diff.entered.filter fun targetId => !s.hasSnapshot cfg targetId)
    match s.entities.get? observerEntity with
    | some ⟨_, _, .player _⟩ => s
    | some ⟨_, _, .mob _⟩ | none =>
      s.rollbackEnteredVisibility observerNetId (diff.entered.filter fun targetId => s.hasSnapshot cfg targetId)

def reconcileOneObserver (s : MapState) (playerId : PlayerId) (observerNetId : EntityId) (observerPos : LocalPos) :
    MapState :=
  let spawnCandidates := s.visibilityCandidates cfg observerPos InterestConfig.default.spawnRadius observerNetId
  let retainCandidates := s.visibilityCandidates cfg observerPos InterestConfig.default.despawnRadius observerNetId
  let (diff, graph) := s.graph.reconcileObserver it observerNetId spawnCandidates retainCandidates
  { s with graph }.queueVisibilityDiff cfg playerId observerNetId diff

/-! ## Coming -/

def onPlayerAdded (s : MapState) (e : Entity) : MapState :=
  match s.entities.get? e with
  | some ⟨netId, pos, .player playerId⟩ =>
    { s with
      playerIndex := s.playerIndex.insert playerId e
      netIndex := s.netIndex.insert netId e
      playerCount := saturatingAddU32 s.playerCount 1
      spatial := s.spatial.insert netId pos }
  | some ⟨_, _, .mob _⟩ | none => s

/-- `spawn` with the observer of the player's marker. -/
def spawnPlayer (s : MapState) (e : Entity) (msg : EnterMsg) : MapState :=
  { s with entities := s.entities.insert e ⟨msg.playerNetId, msg.initialPos, .player msg.playerId⟩ }.onPlayerAdded e

/-- A mob without a prototype is not spawned, and takes no net id. -/
def spawnOneMob (s : MapState) (e : Entity) (mobId : MobId) (pos : LocalPos) : MapState :=
  if mobId ∈ cfg.mobs then
    let nextNetId := nextEntityId s.nextNetId
    { s with
      nextNetId
      spatial := s.spatial.insert ⟨nextNetId.toNat⟩ pos
      entities := s.entities.insert e ⟨⟨nextNetId.toNat⟩, pos, .mob mobId⟩
      netIndex := s.netIndex.insert ⟨nextNetId.toNat⟩ e }
  else s

/-! ## Going -/

/-- It runs before the components are gone. -/
def onPlayerRemoved (s : MapState) (e : Entity) : MapState :=
  match s.entities.get? e with
  | some ⟨netId, _, .player playerId⟩ =>
    { s with
      graph := ((s.graph.removeObserver it netId).2.removeTarget it netId).2
      spatial := s.spatial.remove netId
      playerIndex := s.playerIndex.erase playerId
      netIndex := s.netIndex.erase netId
      playerCount := saturatingSubU32 s.playerCount 1 }
  | some ⟨_, _, .mob _⟩ | none => s

def despawn (s : MapState) (e : Entity) : MapState :=
  { s.onPlayerRemoved it e with entities := s.entities.erase e }

def despawnExisting (s : MapState) (playerId : PlayerId) : MapState :=
  match s.playerIndex.get? playerId with
  | some existing => s.despawn it existing
  | none => s

def handlePlayerEnter (s : MapState) (e : Entity) (msg : EnterMsg) : MapState :=
  ((s.despawnExisting it msg.playerId).spawnPlayer e msg).reconcileOneObserver cfg it msg.playerId msg.playerNetId
    msg.initialPos

def activePlayerEntity (s : MapState) (playerId : PlayerId) (playerNetId : EntityId) : Except LeaveError Entity :=
  match s.playerIndex.get? playerId with
  | none => .error .notActive
  | some e =>
    match s.entities.get? e with
    | none => .error .missingNetId
    | some c => if c.netId = playerNetId then .ok e else .error (.staleNetId playerNetId c.netId)

/-- A leave with another net id is ignored. -/
def handlePlayerLeave (s : MapState) (playerId : PlayerId) (playerNetId : EntityId) : MapState :=
  match s.activePlayerEntity playerId playerNetId with
  | .ok e => s.despawn it e
  | .error _ => s

/-- What the snapshot says is left out. -/
def leavePlayerAndSnapshot (s : MapState) (playerId : PlayerId) (playerNetId : EntityId) :
    Except LeaveError Unit × MapState :=
  match s.activePlayerEntity playerId playerNetId with
  | .ok e => (.ok (), s.despawn it e)
  | .error error => (.error error, s)

def destroyMobEntity (s : MapState) (actor : ActorRef) : MapState :=
  match s.entities.get? actor.entity with
  | none => s
  | some _ =>
    { s with
      graph := (s.graph.removeTarget it actor.id).2
      spatial := s.spatial.remove actor.id
      netIndex := s.netIndex.erase actor.id
      entities := s.entities.erase actor.entity }

end

end MapState

/-! ## Runs -/

/-- A spawn brings the entity that the ECS makes; a cleanup the mob that the life phases found to be due. -/
inductive IndexEvent where
  | reserveNetId
  | playerEnter (entity : Entity) (msg : EnterMsg) (order : Iteration)
  | playerLeave (playerId : PlayerId) (playerNetId : EntityId) (order : Iteration)
  | playerLeaveAndSnapshot (playerId : PlayerId) (playerNetId : EntityId) (order : Iteration)
  | spawnMob (entity : Entity) (mobId : MobId) (pos : LocalPos)
  | cleanup (actor : ActorRef) (order : Iteration)
  /-- One observer's turn in `aoi_reconcile`. -/
  | reconcile (observer : Entity) (order : Iteration)

section
variable (cfg : MapConfig)

open MapState in
/-- A connection enters once, with the net id that it has reserved; a new entity is none that is alive; who is cleaned
up is a mob, or is gone already. -/
def indexStep (s : MapState) : IndexEvent → Option MapState
  | .reserveNetId =>
    let nextNetId := nextEntityId s.nextNetId
    some { s with nextNetId, reserved := ⟨nextNetId.toNat⟩ :: s.reserved }
  | .playerEnter e msg order =>
    if msg.playerNetId ∈ s.reserved ∧ (s.entities.get? e).isNone then
      some ({ s with reserved := s.reserved.erase msg.playerNetId }.handlePlayerEnter cfg order e msg)
    else none
  | .playerLeave playerId playerNetId order => some (s.handlePlayerLeave order playerId playerNetId)
  | .playerLeaveAndSnapshot playerId playerNetId order => some (s.leavePlayerAndSnapshot order playerId playerNetId).2
  | .spawnMob e mobId pos => if (s.entities.get? e).isNone then some (s.spawnOneMob cfg e mobId pos) else none
  | .cleanup actor order =>
    match s.entities.get? actor.entity with
    | none => some (s.destroyMobEntity order actor)
    | some ⟨_, _, .player _⟩ => none
    | some ⟨netId, _, .mob _⟩ => if netId = actor.id then some (s.destroyMobEntity order actor) else none
  | .reconcile e order =>
    match s.entities.get? e with
    | some ⟨netId, pos, .player playerId⟩ => some (s.reconcileOneObserver cfg order playerId netId pos)
    | some ⟨_, _, .mob _⟩ | none => none

end

/-! ## What the indices owe -/

open ActorComps SpatialIndex

namespace MapState

/-- `PlayerIndex` and `NetEntityIndex` lead from the player ids and the net ids of the live entities to these and have
no other entries, the spatial index holds each of these net ids once, the count is that of the players, and the edges
are between indexed ids. -/
structure Coherent (s : MapState) : Prop where
  players : Indexes playerKey s.entities s.playerIndex
  nets : Indexes netKey s.entities s.netIndex
  grid : Indexes gridKey s.spatial.grid s.spatial.handles
  spatial : ∀ id, (s.spatial.handles.get? id).isSome ↔ (s.netIndex.get? id).isSome
  count : s.playerCount.toNat = s.entities.count isPlayer
  edges : ∀ o t, t ∈ s.graph.visible o → (s.netIndex.get? o).isSome ∧ (s.netIndex.get? t).isSome

/-- The player is not on the map with this net id. -/
def StaleLeave (s : MapState) (playerId : PlayerId) (playerNetId : EntityId) : Prop :=
  ∀ e c, s.entities.get? e = some c → c.playerKey = some playerId → c.netId ≠ playerNetId

/-- Stale leaves change nothing. -/
def IgnoresStaleLeaves (s : MapState) : Prop :=
  ∀ it playerId playerNetId, s.StaleLeave playerId playerNetId →
    s.handlePlayerLeave it playerId playerNetId = s ∧ (s.leavePlayerAndSnapshot it playerId playerNetId).2 = s ∧
      ∃ error, (s.leavePlayerAndSnapshot it playerId playerNetId).1 = .error error

/-- The net ids that can be given out. -/
def netIds : Finset EntityId := (Finset.Ico 1 4294967296).map ⟨EntityId.mk, fun _ _ h => congrArg EntityId.raw h⟩

/-- What holds whatever ids are given out. -/
structure Ranged (s : MapState) : Prop where
  ids : ∀ e c, s.entities.get? e = some c → c.netId ∈ netIds
  reserved : ∀ id ∈ s.reserved, id ∈ netIds
  handles : ∀ h x, s.spatial.grid.get? h = some x → h < s.spatial.nextHandle
  observers : ∀ o t, t ∈ s.graph.visible o → ∃ e c, s.entities.get? e = some c ∧ c.netId = o ∧ c.isPlayer

end MapState

/-- The step puts no net id on an entity that another live entity has. -/
def FreshId (cfg : MapConfig) (s : MapState) : IndexEvent → Prop
  | .playerEnter _ msg _ =>
    s.netIndex.get? msg.playerNetId = none ∨ ∃ e, s.netIndex.get? msg.playerNetId = some e ∧
      s.playerIndex.get? msg.playerId = some e
  | .spawnMob _ mobId _ => mobId ∈ cfg.mobs → s.netIndex.get? ⟨(nextEntityId s.nextNetId).toNat⟩ = none
  | .reserveNetId | .playerLeave .. | .playerLeaveAndSnapshot .. | .cleanup .. | .reconcile .. => True

/-! ## Net ids and the grid -/

theorem mem_netIds {id : EntityId} : id ∈ MapState.netIds ↔ 1 ≤ id.raw ∧ id.raw < 4294967296 := by
  unfold MapState.netIds
  rw [Finset.mem_map]
  constructor
  · rintro ⟨n, hn, rfl⟩
    exact Finset.mem_Ico.1 hn
  · intro h
    exact ⟨id.raw, Finset.mem_Ico.2 h, rfl⟩

theorem card_netIds : MapState.netIds.card = 4294967295 := by
  unfold MapState.netIds
  rw [Finset.card_map, Nat.card_Ico]

/-- The wrap steps over zero. -/
theorem nextEntityId_mem (n : UInt32) : (⟨(nextEntityId n).toNat⟩ : EntityId) ∈ MapState.netIds := by
  rw [mem_netIds]
  refine ⟨?_, UInt32.toNat_lt _⟩
  show 1 ≤ (nextEntityId n).toNat
  unfold nextEntityId
  split
  · decide
  · rename_i h
    rw [Nat.one_le_iff_ne_zero]
    exact fun h0 => h (UInt32.toNat_inj.1 h0)

namespace SpatialIndex

variable {s : SpatialIndex}

/-- The handle of an insertion is new, so the id is held once if it was not held before. -/
theorem indexes_insert (h : Indexes gridKey s.grid s.handles) (hlt : ∀ k x, s.grid.get? k = some x → k < s.nextHandle)
    {id : EntityId} (hid : s.handles.get? id = none) (pos : LocalPos) :
    Indexes gridKey (s.insert id pos).grid (s.insert id pos).handles := by
  have hnew : s.grid.get? s.nextHandle = none := by
    rw [Option.eq_none_iff_forall_ne_some]
    intro x hx
    exact absurd (hlt _ _ hx) (Nat.lt_irrefl _)
  exact (h.insert_iff hnew rfl).2 hid

theorem indexes_remove (h : Indexes gridKey s.grid s.handles) (id : EntityId) :
    Indexes gridKey (s.remove id).grid (s.remove id).handles := by
  unfold remove
  cases hid : s.handles.get? id with
  | none => exact h
  | some handle =>
    obtain ⟨x, hx, hk⟩ := (h id handle).1 hid
    exact h.erase hx hk

theorem get?_handles_insert (id id' : EntityId) (pos : LocalPos) :
    ((s.insert id pos).handles.get? id').isSome ↔ id' = id ∨ (s.handles.get? id').isSome := by
  unfold insert
  rw [OrdMap.get?_insert]
  split
  · rename_i h
    simp [h]
  · rename_i h
    simp [h]

theorem get?_handles_remove (id id' : EntityId) :
    ((s.remove id).handles.get? id').isSome ↔ id' ≠ id ∧ (s.handles.get? id').isSome := by
  unfold remove
  cases hid : s.handles.get? id with
  | none =>
    constructor
    · intro h
      refine ⟨?_, h⟩
      rintro rfl
      rw [hid] at h
      cases h
    · exact fun h => h.2
  | some handle =>
    dsimp only
    rw [OrdMap.get?_erase]
    split
    · rename_i h
      simp [h]
    · rename_i h
      simp [h]

theorem nextHandle_remove (id : EntityId) : (s.remove id).nextHandle = s.nextHandle := by
  unfold remove
  split <;> rfl

theorem get?_grid_remove {id : EntityId} {k : Nat} {x : EntityId × LocalPos} (h : (s.remove id).grid.get? k = some x) :
    s.grid.get? k = some x := by
  unfold remove at h
  split at h
  · exact (OrdMap.get?_erase_eq_some_iff.1 h).2
  · exact h

/-- What a query finds is held. -/
theorem get?_of_mem_query (h : Indexes gridKey s.grid s.handles) {cfg : MapConfig} {center : LocalPos} {radius : UInt32}
    {id : EntityId} (hid : id ∈ s.queryInRadius cfg center radius) : (s.handles.get? id).isSome := by
  unfold queryInRadius at hid
  rw [List.mem_toFinset] at hid
  obtain ⟨x, hx, rfl⟩ := List.mem_map.1 hid
  obtain ⟨⟨k, y⟩, hy, rfl⟩ := List.mem_map.1 (List.mem_filter.1 hx).1
  rw [h.get?_of_key (OrdMap.get?_eq_some_iff.2 hy) rfl]
  rfl

end SpatialIndex

/-! ## Reconciling -/

namespace MapState

variable {cfg : MapConfig} {it : Iteration} {s : MapState}

theorem visible_foldl_removeVisibility {observer o t : EntityId} : ∀ {targets : List EntityId} {g : ReplicationGraph},
    t ∈ (targets.foldl (fun g target => (g.removeVisibility observer target).2) g).visible o → t ∈ g.visible o
  | [], _, h => h
  | target :: targets, g, h => by
    have hm : t ∈ (g.removeVisibility observer target).2.visible o := visible_foldl_removeVisibility h
    rw [ReplicationGraph.visible_removeVisibility] at hm
    split at hm
    · rename_i ho
      rw [ho]
      exact Finset.mem_of_mem_erase hm
    · exact hm

/-- A rollback writes the graph alone, and takes edges away. -/
theorem queueVisibilityDiff_graph (cfg : MapConfig) (playerId : PlayerId) (observer : EntityId)
    (diff : VisibilityDiff) :
    ∃ graph, s.queueVisibilityDiff cfg playerId observer diff = { s with graph } ∧
      ∀ o t, t ∈ graph.visible o → t ∈ s.graph.visible o := by
  unfold queueVisibilityDiff
  split
  · exact ⟨_, rfl, fun o t => visible_foldl_removeVisibility⟩
  · dsimp only
    split
    · exact ⟨_, rfl, fun o t => visible_foldl_removeVisibility⟩
    · exact ⟨_, rfl, fun o t h => visible_foldl_removeVisibility (visible_foldl_removeVisibility h)⟩
    · exact ⟨_, rfl, fun o t h => visible_foldl_removeVisibility (visible_foldl_removeVisibility h)⟩

/-- A reconcile writes the graph alone; the edges that come lead from the observer to what the spatial index holds. -/
theorem reconcileOneObserver_graph (cfg : MapConfig) (it : Iteration) (s : MapState) (playerId : PlayerId)
    (observer : EntityId) (pos : LocalPos) :
    ∃ graph, s.reconcileOneObserver cfg it playerId observer pos = { s with graph } ∧
      ∀ o t, t ∈ graph.visible o → t ∈ s.graph.visible o ∨ o = observer ∧ ∃ radius,
        t ∈ s.spatial.queryInRadius cfg pos radius := by
  unfold reconcileOneObserver
  dsimp only
  obtain ⟨graph, heq, hsub⟩ := queueVisibilityDiff_graph cfg
    (s := { s with graph := (s.graph.reconcileObserver it observer
      (s.visibilityCandidates cfg pos InterestConfig.default.spawnRadius observer)
      (s.visibilityCandidates cfg pos InterestConfig.default.despawnRadius observer)).2 }) playerId observer
    (s.graph.reconcileObserver it observer (s.visibilityCandidates cfg pos InterestConfig.default.spawnRadius observer)
      (s.visibilityCandidates cfg pos InterestConfig.default.despawnRadius observer)).1
  refine ⟨graph, heq, fun o t ht => ?_⟩
  have hm := hsub o t ht
  rw [ReplicationGraph.visible_reconcileObserver] at hm
  split at hm
  · rename_i ho
    rw [ho]
    rcases Finset.mem_union.1 hm with hm | hm
    · exact .inl (Finset.mem_of_mem_inter_left hm)
    · exact .inr ⟨rfl, _, Finset.mem_of_mem_erase hm⟩
  · exact .inl hm

theorem Ranged.reconcile (hr : s.Ranged) {e : Entity} {c : ActorComps} (he : s.entities.get? e = some c)
    (hc : c.isPlayer) (playerId : PlayerId) (pos : LocalPos) :
    (s.reconcileOneObserver cfg it playerId c.netId pos).Ranged := by
  obtain ⟨graph, heq, hsub⟩ := reconcileOneObserver_graph cfg it s playerId c.netId pos
  rw [heq]
  refine { hr with observers := fun o t ht => ?_ }
  rcases hsub o t ht with hm | ⟨rfl, -⟩
  · exact hr.observers o t hm
  · exact ⟨e, c, he, rfl, hc⟩

/-- A reconcile for a player on the map. -/
theorem Coherent.reconcile (h : s.Coherent) {e : Entity} {c : ActorComps} (he : s.entities.get? e = some c)
    (playerId : PlayerId) (pos : LocalPos) : (s.reconcileOneObserver cfg it playerId c.netId pos).Coherent := by
  obtain ⟨graph, heq, hsub⟩ := reconcileOneObserver_graph cfg it s playerId c.netId pos
  rw [heq]
  refine { h with edges := fun o t ht => ?_ }
  rcases hsub o t ht with hm | ⟨rfl, _, hm⟩
  · exact h.edges o t hm
  · refine ⟨?_, (h.spatial t).1 (SpatialIndex.get?_of_mem_query h.grid hm)⟩
    show (s.netIndex.get? c.netId).isSome
    rw [h.nets.get?_of_key he rfl]
    rfl

/-! ## Going -/

theorem toNat_saturatingSubU32_one (a : UInt32) : (saturatingSubU32 a 1).toNat = a.toNat - 1 := by
  unfold saturatingSubU32
  rw [UInt32.toNat_ofNat_of_lt' (Nat.lt_of_le_of_lt (Nat.sub_le _ _) a.toNat_lt)]
  rfl

/-- An entity goes, with its entries, and no edge is left at its id. -/
theorem Coherent.remove {s' : MapState} (h : s.Coherent) {e : Entity} {c : ActorComps} (he : s.entities.get? e = some c)
    (hent : s'.entities = s.entities.erase e) (hplayers : Indexes playerKey s'.entities s'.playerIndex)
    (hnet : s'.netIndex = s.netIndex.erase c.netId) (hspatial : s'.spatial = s.spatial.remove c.netId)
    (hcount : s'.playerCount.toNat + c.isPlayer.toNat = s.playerCount.toNat)
    (hedges : ∀ o t, t ∈ s'.graph.visible o → t ∈ s.graph.visible o ∧ o ≠ c.netId ∧ t ≠ c.netId) : s'.Coherent where
  players := hplayers
  nets := by
    rw [hent, hnet]
    exact h.nets.erase he rfl
  grid := by
    rw [hspatial]
    exact SpatialIndex.indexes_remove h.grid _
  spatial := by
    intro id
    rw [hspatial, hnet, SpatialIndex.get?_handles_remove, h.spatial, OrdMap.get?_erase]
    split
    · rename_i hid
      simp [hid]
    · rename_i hid
      simp [hid]
  count := by
    have hc := OrdMap.count_of_get?_some he isPlayer
    rw [← h.count] at hc
    rw [hent]
    omega
  edges := by
    intro o t ht
    obtain ⟨hm, ho, hne⟩ := hedges o t ht
    rw [hnet, OrdMap.get?_erase, OrdMap.get?_erase, if_neg ho, if_neg hne]
    exact h.edges o t hm

theorem Ranged.remove {s' : MapState} (hr : s.Ranged) {e : Entity} {c : ActorComps} (he : s.entities.get? e = some c)
    (hres : s'.reserved = s.reserved) (hent : s'.entities = s.entities.erase e)
    (hspatial : s'.spatial = s.spatial.remove c.netId)
    (hedges : ∀ o t, t ∈ s'.graph.visible o → t ∈ s.graph.visible o ∧ o ≠ c.netId ∧ t ≠ c.netId) : s'.Ranged where
  ids := by
    intro f d hf
    rw [hent] at hf
    exact hr.ids f d (OrdMap.get?_erase_eq_some_iff.1 hf).2
  reserved := by
    rw [hres]
    exact hr.reserved
  handles := by
    intro k x hk
    rw [hspatial] at hk ⊢
    rw [SpatialIndex.nextHandle_remove]
    exact hr.handles k x (SpatialIndex.get?_grid_remove hk)
  observers := by
    intro o t ht
    obtain ⟨hm, ho, -⟩ := hedges o t ht
    obtain ⟨f, d, hf, hd, hp⟩ := hr.observers o t hm
    refine ⟨f, d, ?_, hd, hp⟩
    rw [hent]
    apply OrdMap.get?_erase_eq_some_iff.2
    refine ⟨?_, hf⟩
    rintro rfl
    rw [he] at hf
    cases hf
    exact ho hd.symm

/-- A player is despawned. -/
theorem Coherent.despawn (h : s.Coherent) (hr : s.Ranged) (it : Iteration) {e : Entity} {netId : EntityId}
    {pos : LocalPos} {playerId : PlayerId} (he : s.entities.get? e = some ⟨netId, pos, .player playerId⟩) :
    (s.despawn it e).Coherent ∧ (s.despawn it e).Ranged := by
  have hremoved : s.despawn it e =
      { s with
        graph := ((s.graph.removeObserver it netId).2.removeTarget it netId).2
        spatial := s.spatial.remove netId
        playerIndex := s.playerIndex.erase playerId
        netIndex := s.netIndex.erase netId
        playerCount := saturatingSubU32 s.playerCount 1
        entities := s.entities.erase e } := by
    unfold MapState.despawn onPlayerRemoved
    rw [he]
  have hedges : ∀ o t, t ∈ ((s.graph.removeObserver it netId).2.removeTarget it netId).2.visible o →
      t ∈ s.graph.visible o ∧ o ≠ netId ∧ t ≠ netId := by
    intro o t ht
    rw [ReplicationGraph.visible_removeTarget, Finset.mem_erase, ReplicationGraph.visible_removeObserver] at ht
    obtain ⟨hne, ht⟩ := ht
    split at ht
    · cases ht
    · rename_i ho
      exact ⟨ht, ho, hne⟩
  have hcount := OrdMap.count_of_get?_some he isPlayer
  rw [← h.count] at hcount
  rw [hremoved]
  constructor
  · refine h.remove he rfl (h.players.erase he rfl) rfl rfl ?_ hedges
    rw [toNat_saturatingSubU32_one]
    have hone : (isPlayer ⟨netId, pos, .player playerId⟩).toNat = 1 := rfl
    omega
  · exact hr.remove he rfl rfl rfl hedges

/-- A mob is destroyed. Nobody is shown anything for a mob, so it is enough that the edges to it go. -/
theorem Coherent.destroyMobEntity (h : s.Coherent) (hr : s.Ranged) (it : Iteration) {actor : ActorRef} {pos : LocalPos}
    {mobId : MobId} (he : s.entities.get? actor.entity = some ⟨actor.id, pos, .mob mobId⟩) :
    (s.destroyMobEntity it actor).Coherent ∧ (s.destroyMobEntity it actor).Ranged := by
  have hremoved : s.destroyMobEntity it actor =
      { s with
        graph := (s.graph.removeTarget it actor.id).2
        spatial := s.spatial.remove actor.id
        netIndex := s.netIndex.erase actor.id
        entities := s.entities.erase actor.entity } := by
    unfold MapState.destroyMobEntity
    rw [he]
  have hedges : ∀ o t, t ∈ (s.graph.removeTarget it actor.id).2.visible o → t ∈ s.graph.visible o ∧ o ≠ actor.id ∧
      t ≠ actor.id := by
    intro o t ht
    rw [ReplicationGraph.visible_removeTarget, Finset.mem_erase] at ht
    refine ⟨ht.2, ?_, ht.1⟩
    rintro rfl
    obtain ⟨f, d, hf, hd, hp⟩ := hr.observers _ t ht.2
    have hfe : f = actor.entity := h.nets.unique hf he (congrArg some hd) rfl
    rw [hfe, he] at hf
    cases hf
    cases hp
  rw [hremoved]
  constructor
  · exact h.remove he rfl (h.players.erase_keyless he rfl) rfl rfl (by rfl) hedges
  · exact hr.remove he rfl rfl rfl hedges

/-! ## Coming -/

/-- There are never more actors than net ids. -/
theorem count_le (hn : Indexes netKey s.entities s.netIndex)
    (hids : ∀ e c, s.entities.get? e = some c → c.netId ∈ netIds) (p : ActorComps → Bool) :
    s.entities.count p ≤ 4294967295 := by
  rw [← card_netIds]
  exact (List.countP_le_length).trans (hn.length_le netIds fun e c he => ⟨c.netId, hids e c he, rfl⟩)

/-- A new entity and its entries keep the indices coherent exactly if its net id is not in use. -/
theorem Coherent.add_iff {s' : MapState} (h : s.Coherent) (hr : s.Ranged) {e : Entity} {c : ActorComps}
    (he : s.entities.get? e = none) (hent : s'.entities = s.entities.insert e c) (hc : c.netId ∈ netIds)
    (hplayers : Indexes playerKey s'.entities s'.playerIndex) (hnet : s'.netIndex = s.netIndex.insert c.netId e)
    (hspatial : s'.spatial = s.spatial.insert c.netId c.pos)
    (hcount : s'.playerCount = if c.isPlayer then saturatingAddU32 s.playerCount 1 else s.playerCount)
    (hgraph : s'.graph = s.graph) : s'.Coherent ↔ s.netIndex.get? c.netId = none := by
  have hiff := h.nets.insert_iff he (show c.netKey = some c.netId from rfl)
  constructor
  · intro h'
    have hn := h'.nets
    rw [hent, hnet] at hn
    exact hiff.1 hn
  · intro hfresh
    have hnets : Indexes netKey s'.entities s'.netIndex := by
      rw [hent, hnet]
      exact hiff.2 hfresh
    have hids : ∀ f d, s'.entities.get? f = some d → d.netId ∈ netIds := by
      intro f d hf
      rw [hent, OrdMap.get?_insert] at hf
      split at hf
      · cases hf
        exact hc
      · exact hr.ids f d hf
    have hcnt : s'.entities.count isPlayer = s.entities.count isPlayer + c.isPlayer.toNat := by
      rw [hent, OrdMap.count_insert, OrdMap.erase_of_get?_none he]
    have hle := count_le hnets hids isPlayer
    exact {
      players := hplayers
      nets := hnets
      grid := by
        rw [hspatial]
        apply SpatialIndex.indexes_insert h.grid hr.handles
        rw [← Option.not_isSome_iff_eq_none, h.spatial, hfresh]
        simp
      spatial := by
        intro id
        rw [hspatial, hnet, SpatialIndex.get?_handles_insert, h.spatial, OrdMap.get?_insert]
        split
        · rename_i hid
          simp [hid]
        · rename_i hid
          simp [hid]
      count := by
        rw [hcount, hcnt]
        split
        · -- the count does not saturate: there are fewer players than net ids
          rename_i hp
          rw [hp, Bool.toNat_true] at hcnt
          rw [hp, Bool.toNat_true]
          unfold saturatingAddU32
          have hsum : s.playerCount.toNat + (1 : UInt32).toNat ≤ 4294967295 := by
            rw [h.count]
            show s.entities.count isPlayer + 1 ≤ _
            omega
          rw [UInt32.toNat_ofNat_of_lt' (by rw [min_eq_left hsum]; exact Nat.lt_succ_of_le hsum),
            min_eq_left hsum, h.count]
          rfl
        · rename_i hp
          rw [Bool.not_eq_true] at hp
          rw [hp, Bool.toNat_false, Nat.add_zero]
          exact h.count
      edges := by
        intro o t ht
        rw [hgraph] at ht
        obtain ⟨ho, ht⟩ := h.edges o t ht
        rw [hnet, OrdMap.get?_insert, OrdMap.get?_insert]
        constructor
        · split
          · rfl
          · exact ho
        · split
          · rfl
          · exact ht }

theorem Ranged.add {s' : MapState} (hr : s.Ranged) {e : Entity} {c : ActorComps} (he : s.entities.get? e = none)
    (hc : c.netId ∈ netIds) (hres : ∀ id ∈ s'.reserved, id ∈ s.reserved) (hent : s'.entities = s.entities.insert e c)
    (hspatial : s'.spatial = s.spatial.insert c.netId c.pos) (hgraph : s'.graph = s.graph) : s'.Ranged where
  ids := by
    intro f d hf
    rw [hent, OrdMap.get?_insert] at hf
    split at hf
    · cases hf
      exact hc
    · exact hr.ids f d hf
  reserved := fun id hid => hr.reserved id (hres id hid)
  handles := by
    intro k x hk
    rw [hspatial] at hk ⊢
    unfold SpatialIndex.insert at hk ⊢
    dsimp only at hk ⊢
    rw [OrdMap.get?_insert] at hk
    split at hk
    · rename_i hkn
      omega
    · exact (hr.handles k x hk).trans (Nat.lt_succ_self _)
  observers := by
    intro o t ht
    rw [hgraph] at ht
    obtain ⟨f, d, hf, hd, hp⟩ := hr.observers o t ht
    refine ⟨f, d, ?_, hd, hp⟩
    rw [hent, OrdMap.get?_insert, if_neg]
    · exact hf
    · rintro rfl
      rw [he] at hf
      cases hf

theorem spawnPlayer_eq (s : MapState) (e : Entity) (msg : EnterMsg) :
    s.spawnPlayer e msg =
      { s with
        entities := s.entities.insert e ⟨msg.playerNetId, msg.initialPos, .player msg.playerId⟩
        playerIndex := s.playerIndex.insert msg.playerId e
        netIndex := s.netIndex.insert msg.playerNetId e
        playerCount := saturatingAddU32 s.playerCount 1
        spatial := s.spatial.insert msg.playerNetId msg.initialPos } := by
  unfold spawnPlayer onPlayerAdded
  dsimp only
  rw [OrdMap.get?_insert, if_pos rfl]

/-- A player who is not on the map is spawned. -/
theorem Coherent.spawnPlayer_iff (h : s.Coherent) (hr : s.Ranged) {e : Entity} {msg : EnterMsg}
    (he : s.entities.get? e = none) (hp : s.playerIndex.get? msg.playerId = none) (hid : msg.playerNetId ∈ netIds) :
    (s.spawnPlayer e msg).Ranged ∧ ((s.spawnPlayer e msg).Coherent ↔ s.netIndex.get? msg.playerNetId = none) := by
  rw [spawnPlayer_eq]
  constructor
  · exact hr.add (c := ⟨msg.playerNetId, msg.initialPos, .player msg.playerId⟩) he hid (fun _ h => h) rfl rfl rfl
  · exact h.add_iff hr (c := ⟨msg.playerNetId, msg.initialPos, .player msg.playerId⟩) he rfl hid
      ((h.players.insert_iff he rfl).2 hp) rfl rfl rfl rfl

theorem Coherent.spawnOneMob_iff (h : s.Coherent) (hr : s.Ranged) (pos : LocalPos) {e : Entity} {mobId : MobId}
    (he : s.entities.get? e = none) (hm : mobId ∈ cfg.mobs) :
    (s.spawnOneMob cfg e mobId pos).Ranged ∧
    ((s.spawnOneMob cfg e mobId pos).Coherent ↔ s.netIndex.get? ⟨(nextEntityId s.nextNetId).toNat⟩ = none) := by
  have hid := nextEntityId_mem s.nextNetId
  unfold spawnOneMob
  rw [if_pos hm]
  constructor
  · exact hr.add (c := ⟨⟨(nextEntityId s.nextNetId).toNat⟩, pos, .mob mobId⟩) he hid (fun _ h => h) rfl rfl rfl
  · exact h.add_iff hr (c := ⟨⟨(nextEntityId s.nextNetId).toNat⟩, pos, .mob mobId⟩) he rfl hid
      (h.players.insert_keyless he rfl) rfl rfl rfl rfl

/-! ## Entering and leaving -/

theorem player_of_key {c : ActorComps} {playerId : PlayerId} (h : c.playerKey = some playerId) :
    c = ⟨c.netId, c.pos, .player playerId⟩ := by
  obtain ⟨netId, pos, kind⟩ := c
  cases kind with
  | player p => cases h; rfl
  | mob m => cases h

/-- Whoever the player index finds is a player. -/
theorem Coherent.get?_playerIndex (h : s.Coherent) {playerId : PlayerId} {e : Entity}
    (hp : s.playerIndex.get? playerId = some e) :
    ∃ netId pos, s.entities.get? e = some ⟨netId, pos, .player playerId⟩ := by
  obtain ⟨c, hc, hk⟩ := (h.players playerId e).1 hp
  exact ⟨c.netId, c.pos, by rw [hc, ← player_of_key hk]⟩

/-- What is left of a player who enters again. -/
theorem Coherent.despawnExisting (h : s.Coherent) (hr : s.Ranged) (it : Iteration) (playerId : PlayerId) :
    (s.despawnExisting it playerId).Coherent ∧ (s.despawnExisting it playerId).Ranged ∧
    (s.despawnExisting it playerId).playerIndex.get? playerId = none ∧
    (∀ e, s.entities.get? e = none → (s.despawnExisting it playerId).entities.get? e = none) ∧
    ∀ id, (s.despawnExisting it playerId).netIndex.get? id = none ↔
      s.netIndex.get? id = none ∨ ∃ e, s.netIndex.get? id = some e ∧ s.playerIndex.get? playerId = some e := by
  unfold MapState.despawnExisting
  cases hp : s.playerIndex.get? playerId with
  | none => exact ⟨h, hr, hp, fun _ he => he, fun id => by simp⟩
  | some existing =>
    obtain ⟨netId, pos, he⟩ := h.get?_playerIndex hp
    obtain ⟨hco, hra⟩ := h.despawn hr it he
    have hent : (s.despawn it existing).entities = s.entities.erase existing := rfl
    have hplayers : (s.despawn it existing).playerIndex = s.playerIndex.erase playerId := by
      unfold MapState.despawn onPlayerRemoved
      rw [he]
    have hnet : (s.despawn it existing).netIndex = s.netIndex.erase netId := by
      unfold MapState.despawn onPlayerRemoved
      rw [he]
    refine ⟨hco, hra, ?_, fun e hn => ?_, fun id => ?_⟩
    · rw [hplayers, OrdMap.get?_erase, if_pos rfl]
    · rw [hent, OrdMap.get?_erase]
      split
      · rfl
      · exact hn
    · rw [hnet, OrdMap.get?_erase]
      have hown : s.netIndex.get? netId = some existing := h.nets.get?_of_key he rfl
      by_cases hid : id = netId
      · subst hid
        exact iff_of_true (if_pos rfl) (.inr ⟨existing, hown, rfl⟩)
      · rw [if_neg hid]
        constructor
        · exact .inl
        · rintro (hn | ⟨e, hn, heq⟩)
          · exact hn
          · -- the entity has one net id
            cases heq
            obtain ⟨c, hc, hk⟩ := (h.nets id existing).1 hn
            rw [he] at hc
            cases hc
            exact absurd (Option.some.inj hk).symm hid

/-- An entry keeps the indices coherent exactly if no other entity has the net id. -/
theorem Coherent.handlePlayerEnter_iff (h : s.Coherent) (hr : s.Ranged) {e : Entity} {msg : EnterMsg}
    (he : s.entities.get? e = none) (hid : msg.playerNetId ∈ netIds) :
    (s.handlePlayerEnter cfg it e msg).Ranged ∧
    ((s.handlePlayerEnter cfg it e msg).Coherent ↔ s.netIndex.get? msg.playerNetId = none ∨
      ∃ f, s.netIndex.get? msg.playerNetId = some f ∧ s.playerIndex.get? msg.playerId = some f) := by
  obtain ⟨h1, hr1, hp1, he1, hn1⟩ := h.despawnExisting hr it msg.playerId
  obtain ⟨hr2, h2⟩ := h1.spawnPlayer_iff hr1 (he1 e he) hp1 hid
  rw [← hn1, ← h2]
  have hentity : ((s.despawnExisting it msg.playerId).spawnPlayer e msg).entities.get? e =
      some ⟨msg.playerNetId, msg.initialPos, .player msg.playerId⟩ := by
    rw [spawnPlayer_eq]
    exact (OrdMap.get?_insert ..).trans (if_pos rfl)
  refine ⟨hr2.reconcile hentity rfl msg.playerId msg.initialPos, ?_,
    fun hco => hco.reconcile hentity msg.playerId msg.initialPos⟩
  intro hco
  -- the reconcile at the end writes the graph alone, so the net ids were in order before it
  obtain ⟨graph, heq, -⟩ := reconcileOneObserver_graph cfg it
    ((s.despawnExisting it msg.playerId).spawnPlayer e msg) msg.playerId msg.playerNetId msg.initialPos
  have hnets := hco.nets
  unfold MapState.handlePlayerEnter at hnets
  rw [heq, spawnPlayer_eq] at hnets
  exact h2.2 ((h1.nets.insert_iff (he1 e he) rfl).1 hnets)

/-- The entity that a leave with the current net id is about. -/
theorem Coherent.activePlayerEntity (h : s.Coherent) {playerId : PlayerId} {playerNetId : EntityId} {e : Entity}
    (ha : s.activePlayerEntity playerId playerNetId = .ok e) :
    ∃ pos, s.entities.get? e = some ⟨playerNetId, pos, .player playerId⟩ := by
  unfold MapState.activePlayerEntity at ha
  cases hp : s.playerIndex.get? playerId with
  | none => rw [hp] at ha; cases ha
  | some f =>
    obtain ⟨netId, pos, hf⟩ := h.get?_playerIndex hp
    rw [hp] at ha
    dsimp only at ha
    rw [hf] at ha
    dsimp only at ha
    split at ha
    · rename_i hid
      cases ha
      exact ⟨pos, by rw [hf, hid]⟩
    · cases ha

theorem Coherent.handlePlayerLeave (h : s.Coherent) (hr : s.Ranged) (it : Iteration) (playerId : PlayerId)
    (playerNetId : EntityId) :
    (s.handlePlayerLeave it playerId playerNetId).Coherent ∧ (s.handlePlayerLeave it playerId playerNetId).Ranged := by
  unfold MapState.handlePlayerLeave
  cases ha : s.activePlayerEntity playerId playerNetId with
  | ok e =>
    obtain ⟨pos, he⟩ := h.activePlayerEntity ha
    exact h.despawn hr it he
  | error _ => exact ⟨h, hr⟩

/-- The two leaves do the same to the map. -/
theorem leavePlayerAndSnapshot_snd (s : MapState) (playerId : PlayerId) (playerNetId : EntityId) :
    (s.leavePlayerAndSnapshot it playerId playerNetId).2 = s.handlePlayerLeave it playerId playerNetId := by
  unfold MapState.leavePlayerAndSnapshot MapState.handlePlayerLeave
  split <;> rfl

theorem Coherent.ignoresStaleLeaves (h : s.Coherent) : s.IgnoresStaleLeaves := by
  intro it playerId playerNetId hstale
  have herror : ∃ error, s.activePlayerEntity playerId playerNetId = .error error := by
    cases ha : s.activePlayerEntity playerId playerNetId with
    | ok e =>
      obtain ⟨pos, he⟩ := h.activePlayerEntity ha
      exact absurd rfl (hstale e _ he rfl)
    | error error => exact ⟨error, rfl⟩
  obtain ⟨error, ha⟩ := herror
  unfold MapState.handlePlayerLeave MapState.leavePlayerAndSnapshot
  rw [ha]
  exact ⟨rfl, rfl, error, rfl⟩

end MapState

/-! ## Every run -/

open MapState

theorem coherent_start : start.Coherent where
  players := Indexes.empty _
  nets := Indexes.empty _
  grid := Indexes.empty _
  spatial := fun _ => Iff.rfl
  count := rfl
  edges := by simp [start]

theorem ranged_start : start.Ranged where
  ids := by simp [start]
  reserved := by simp [start]
  handles := by simp [start, SpatialIndex.new]
  observers := by simp [start]

/-- What one step does to coherent indices. -/
theorem indexStep_coherent_iff {cfg : MapConfig} {s t : MapState} {ev : IndexEvent} (h : s.Coherent) (hr : s.Ranged)
    (ht : indexStep cfg s ev = some t) : t.Ranged ∧ (t.Coherent ↔ FreshId cfg s ev) := by
  cases ev with
  | reserveNetId =>
    cases ht
    refine ⟨{ hr with reserved := fun id hid => ?_ }, iff_of_true { h with } trivial⟩
    rcases List.mem_cons.1 hid with rfl | hid
    · exact nextEntityId_mem s.nextNetId
    · exact hr.reserved id hid
  | playerEnter e msg order =>
    simp only [indexStep] at ht
    split at ht
    · rename_i hg
      cases ht
      have hco : ({ s with reserved := s.reserved.erase msg.playerNetId } : MapState).Coherent := { h with }
      have hra : ({ s with reserved := s.reserved.erase msg.playerNetId } : MapState).Ranged :=
        { hr with reserved := fun id hid => hr.reserved id (List.mem_of_mem_erase hid) }
      exact hco.handlePlayerEnter_iff hra (Option.isNone_iff_eq_none.1 hg.2) (hr.reserved _ hg.1)
    · cases ht
  | playerLeave playerId playerNetId order =>
    cases ht
    obtain ⟨hco, hra⟩ := h.handlePlayerLeave hr order playerId playerNetId
    exact ⟨hra, iff_of_true hco trivial⟩
  | playerLeaveAndSnapshot playerId playerNetId order =>
    cases ht
    rw [leavePlayerAndSnapshot_snd]
    obtain ⟨hco, hra⟩ := h.handlePlayerLeave hr order playerId playerNetId
    exact ⟨hra, iff_of_true hco trivial⟩
  | spawnMob e mobId pos =>
    simp only [indexStep] at ht
    split at ht
    · rename_i he
      cases ht
      by_cases hm : mobId ∈ cfg.mobs
      · obtain ⟨hra, hco⟩ := h.spawnOneMob_iff hr pos (Option.isNone_iff_eq_none.1 he) hm
        exact ⟨hra, hco.trans ⟨fun hn _ => hn, fun hn => hn hm⟩⟩
      · unfold spawnOneMob
        rw [if_neg hm]
        exact ⟨hr, iff_of_true h fun hm' => absurd hm' hm⟩
    · cases ht
  | cleanup actor order =>
    simp only [indexStep] at ht
    split at ht
    · rename_i he
      cases ht
      unfold destroyMobEntity
      rw [he]
      exact ⟨hr, iff_of_true h trivial⟩
    · cases ht
    · rename_i netId pos mobId he
      split at ht
      · rename_i hid
        cases ht
        subst hid
        obtain ⟨hco, hra⟩ := h.destroyMobEntity hr order he
        exact ⟨hra, iff_of_true hco trivial⟩
      · cases ht
  | reconcile e order =>
    simp only [indexStep] at ht
    split at ht
    · rename_i netId pos playerId he
      cases ht
      exact ⟨hr.reconcile he rfl playerId pos, iff_of_true (h.reconcile he playerId pos) trivial⟩
    · cases ht
    · cases ht

/-! ## The first ids -/

/-- Whether the event may take a net id. -/
def IndexEvent.takesId : IndexEvent → Bool
  | .reserveNetId => true
  | .spawnMob .. => true
  | _ => false

/-- Before the ids wrap, none that is in use or reserved lies above the last one given out, and none is both. -/
structure Counted (s : MapState) : Prop where
  ids : ∀ e c, s.entities.get? e = some c → c.netId.raw ≤ s.nextNetId.toNat
  reserved : ∀ id ∈ s.reserved, id.raw ≤ s.nextNetId.toNat
  nodup : s.reserved.Nodup
  apart : ∀ e c, s.entities.get? e = some c → c.netId ∉ s.reserved

theorem toNat_nextEntityId {n : UInt32} (h : n.toNat + 1 < 4294967296) : (nextEntityId n).toNat = n.toNat + 1 := by
  have hadd : (n + 1).toNat = n.toNat + 1 := by
    rw [UInt32.toNat_add]
    exact Nat.mod_eq_of_lt h
  unfold nextEntityId
  rw [if_neg, hadd]
  intro h0
  rw [h0] at hadd
  exact absurd hadd (by simp)

/-- Where the entities are among those that were there, and the ids given out are what they were. -/
theorem Counted.of_subset {s t : MapState} (hc : Counted s)
    (hent : ∀ e c, t.entities.get? e = some c → s.entities.get? e = some c) (hres : t.reserved = s.reserved)
    (hnext : t.nextNetId = s.nextNetId) : Counted t where
  ids := by
    rw [hnext]
    exact fun e c he => hc.ids e c (hent e c he)
  reserved := by
    rw [hres, hnext]
    exact hc.reserved
  nodup := by
    rw [hres]
    exact hc.nodup
  apart := by
    rw [hres]
    exact fun e c he => hc.apart e c (hent e c he)

/-- What goes takes nothing from the ids given out and leaves the other entities as they are. -/
theorem despawn_frame (it : Iteration) (s : MapState) (e : Entity) :
    (s.despawn it e).reserved = s.reserved ∧ (s.despawn it e).nextNetId = s.nextNetId ∧
      ∀ f c, (s.despawn it e).entities.get? f = some c → s.entities.get? f = some c := by
  refine ⟨?_, ?_, fun f c hf => (OrdMap.get?_erase_eq_some_iff.1 hf).2⟩
  all_goals
    unfold MapState.despawn onPlayerRemoved
    split <;> rfl

theorem despawnExisting_frame (it : Iteration) (s : MapState) (playerId : PlayerId) :
    (s.despawnExisting it playerId).reserved = s.reserved ∧ (s.despawnExisting it playerId).nextNetId = s.nextNetId ∧
      ∀ f c, (s.despawnExisting it playerId).entities.get? f = some c → s.entities.get? f = some c := by
  unfold MapState.despawnExisting
  split
  · exact despawn_frame it s _
  · exact ⟨rfl, rfl, fun _ _ h => h⟩

theorem Counted.handlePlayerLeave {s : MapState} (hc : Counted s) (it : Iteration) (playerId : PlayerId)
    (playerNetId : EntityId) :
    Counted (s.handlePlayerLeave it playerId playerNetId) ∧
      (s.handlePlayerLeave it playerId playerNetId).nextNetId = s.nextNetId := by
  unfold MapState.handlePlayerLeave
  split
  · rename_i e _
    obtain ⟨hres, hnext, hent⟩ := despawn_frame it s e
    exact ⟨hc.of_subset hent hres hnext, hnext⟩
  · exact ⟨hc, rfl⟩

/-- A reserved id goes over to the entity that enters with it. -/
theorem Counted.handlePlayerEnter {s : MapState} (hc : Counted s) (cfg : MapConfig) (it : Iteration) (e : Entity)
    {msg : EnterMsg} (hmem : msg.playerNetId ∈ s.reserved) :
    Counted ({ s with reserved := s.reserved.erase msg.playerNetId }.handlePlayerEnter cfg it e msg) ∧
      ({ s with reserved := s.reserved.erase msg.playerNetId }.handlePlayerEnter cfg it e msg).nextNetId =
        s.nextNetId := by
  obtain ⟨hres, hnext, hent⟩ := despawnExisting_frame it
    { s with reserved := s.reserved.erase msg.playerNetId } msg.playerId
  unfold MapState.handlePlayerEnter
  obtain ⟨graph, heq, -⟩ := reconcileOneObserver_graph cfg it
    ((({ s with reserved := s.reserved.erase msg.playerNetId } : MapState).despawnExisting it msg.playerId).spawnPlayer
      e msg)
    msg.playerId msg.playerNetId msg.initialPos
  rw [heq, spawnPlayer_eq]
  refine ⟨?_, hnext⟩
  constructor
  · intro f c hf
    show c.netId.raw ≤ UInt32.toNat _
    rw [hnext]
    replace hf := (OrdMap.get?_insert ..).symm.trans hf
    split at hf
    · cases hf
      exact hc.reserved _ hmem
    · exact hc.ids f c (hent f c hf)
  · intro id hid
    show id.raw ≤ UInt32.toNat _
    rw [hnext]
    change id ∈ (MapState.despawnExisting it _ msg.playerId).reserved at hid
    rw [hres] at hid
    exact hc.reserved id (List.mem_of_mem_erase hid)
  · show List.Nodup _
    rw [hres]
    exact hc.nodup.erase _
  · intro f c hf
    show c.netId ∉ _
    rw [hres]
    replace hf := (OrdMap.get?_insert ..).symm.trans hf
    split at hf
    · cases hf
      exact hc.nodup.not_mem_erase
    · exact fun hid => hc.apart f c (hent f c hf) (List.mem_of_mem_erase hid)

theorem Counted.destroyMobEntity {s : MapState} (hc : Counted s) (order : Iteration) (actor : ActorRef) :
    Counted (s.destroyMobEntity order actor) ∧ (s.destroyMobEntity order actor).nextNetId = s.nextNetId := by
  unfold MapState.destroyMobEntity
  split
  · exact ⟨hc, rfl⟩
  · exact ⟨hc.of_subset (fun f c hf => (OrdMap.get?_erase_eq_some_iff.1 hf).2) rfl rfl, rfl⟩

/-- The id that is given out next is above all that are in use. -/
theorem Counted.freshNetId {s : MapState} (hc : Counted s) (h : s.Coherent) (hlt : s.nextNetId.toNat + 1 < 4294967296) :
    s.netIndex.get? ⟨(nextEntityId s.nextNetId).toNat⟩ = none := by
  have hnext : (nextEntityId s.nextNetId).toNat = s.nextNetId.toNat + 1 := toNat_nextEntityId hlt
  rw [Option.eq_none_iff_forall_ne_some]
  intro f hf
  obtain ⟨c, he, hk⟩ := (h.nets _ f).1 hf
  have hraw := congrArg EntityId.raw (Option.some.inj hk)
  have := hc.ids f c he
  dsimp only at hraw
  omega

theorem Counted.reserveNetId {cfg : MapConfig} {s t : MapState} (hc : Counted s)
    (hlt : s.nextNetId.toNat + 1 < 4294967296) (ht : indexStep cfg s .reserveNetId = some t) :
    Counted t ∧ t.nextNetId.toNat = s.nextNetId.toNat + 1 := by
  cases ht
  have hnext : (nextEntityId s.nextNetId).toNat = s.nextNetId.toNat + 1 := toNat_nextEntityId hlt
  have hle : s.nextNetId.toNat ≤ (nextEntityId s.nextNetId).toNat := by omega
  refine ⟨?_, hnext⟩
  constructor
  · exact fun e c he => (hc.ids e c he).trans hle
  · intro id hid
    rcases List.mem_cons.1 hid with rfl | hid
    · exact le_refl _
    · exact (hc.reserved id hid).trans hle
  · refine List.nodup_cons.2 ⟨fun hid => ?_, hc.nodup⟩
    have := hc.reserved _ hid
    dsimp only at this
    omega
  · intro e c he hid
    rcases List.mem_cons.1 hid with hid | hid
    · have hraw := congrArg EntityId.raw hid
      have := hc.ids e c he
      dsimp only at hraw
      omega
    · exact hc.apart e c he hid

theorem Counted.spawnOneMob {s : MapState} (hc : Counted s) (cfg : MapConfig) (e : Entity) (mobId : MobId)
    (pos : LocalPos) (hlt : s.nextNetId.toNat + 1 < 4294967296) :
    Counted (s.spawnOneMob cfg e mobId pos) ∧ (s.spawnOneMob cfg e mobId pos).nextNetId.toNat ≤
      s.nextNetId.toNat + 1 := by
  have hnext : (nextEntityId s.nextNetId).toNat = s.nextNetId.toNat + 1 := toNat_nextEntityId hlt
  have hle : s.nextNetId.toNat ≤ (nextEntityId s.nextNetId).toNat := by omega
  unfold MapState.spawnOneMob
  split
  · refine ⟨?_, hnext.le⟩
    constructor
    · intro f c hf
      rw [OrdMap.get?_insert] at hf
      split at hf
      · cases hf
        exact le_refl _
      · exact (hc.ids f c hf).trans hle
    · exact fun id hid => (hc.reserved id hid).trans hle
    · exact hc.nodup
    · intro f c hf hid
      rw [OrdMap.get?_insert] at hf
      split at hf
      · cases hf
        have := hc.reserved _ hid
        dsimp only at this
        omega
      · exact hc.apart f c hf hid
  · exact ⟨hc, Nat.le_add_right _ _⟩

/-- While the ids do not wrap, a step takes a fresh one, and at most one. -/
theorem indexStep_counted {cfg : MapConfig} {s t : MapState} {ev : IndexEvent} (h : s.Coherent) (hc : Counted s)
    (hlt : s.nextNetId.toNat + ev.takesId.toNat < 4294967296) (ht : indexStep cfg s ev = some t) :
    FreshId cfg s ev ∧ Counted t ∧ t.nextNetId.toNat ≤ s.nextNetId.toNat + ev.takesId.toNat := by
  cases ev with
  | reserveNetId =>
    obtain ⟨hco, hnext⟩ := hc.reserveNetId hlt ht
    exact ⟨trivial, hco, hnext.le⟩
  | playerEnter e msg order =>
    simp only [indexStep] at ht
    split at ht
    · rename_i hg
      cases ht
      obtain ⟨hco, hnext⟩ := hc.handlePlayerEnter cfg order e hg.1
      refine ⟨.inl ?_, hco, by rw [hnext]; exact Nat.le_add_right _ _⟩
      rw [Option.eq_none_iff_forall_ne_some]
      intro f hf
      obtain ⟨c, he, hk⟩ := (h.nets _ f).1 hf
      have hid : c.netId = msg.playerNetId := Option.some.inj hk
      exact hc.apart f c he (hid ▸ hg.1)
    · cases ht
  | playerLeave playerId playerNetId order =>
    cases ht
    obtain ⟨hco, hnext⟩ := hc.handlePlayerLeave order playerId playerNetId
    exact ⟨trivial, hco, by rw [hnext]; exact Nat.le_add_right _ _⟩
  | playerLeaveAndSnapshot playerId playerNetId order =>
    cases ht
    rw [leavePlayerAndSnapshot_snd]
    obtain ⟨hco, hnext⟩ := hc.handlePlayerLeave order playerId playerNetId
    exact ⟨trivial, hco, by rw [hnext]; exact Nat.le_add_right _ _⟩
  | spawnMob e mobId pos =>
    simp only [indexStep] at ht
    split at ht
    · cases ht
      obtain ⟨hco, hnext⟩ := hc.spawnOneMob cfg e mobId pos hlt
      exact ⟨fun _ => hc.freshNetId h hlt, hco, hnext⟩
    · cases ht
  | cleanup actor order =>
    obtain ⟨hco, hnext⟩ := hc.destroyMobEntity order actor
    have hgoal : t = s.destroyMobEntity order actor := by
      simp only [indexStep] at ht
      split at ht
      · cases ht; rfl
      · cases ht
      · split at ht
        · cases ht; rfl
        · cases ht
    rw [hgoal]
    exact ⟨trivial, hco, by rw [hnext]; exact Nat.le_add_right _ _⟩
  | reconcile e order =>
    simp only [indexStep] at ht
    split at ht
    · rename_i netId pos playerId he
      cases ht
      obtain ⟨graph, heq, -⟩ := reconcileOneObserver_graph cfg order s playerId netId pos
      rw [heq]
      exact ⟨trivial, hc.of_subset (fun _ _ h => h) rfl rfl, Nat.le_add_right _ _⟩
    · cases ht
    · cases ht

/-- As long as fewer than `2^32` ids have been given out, no id in use is given out again. -/
theorem meets_freshId_of_few {cfg : MapConfig} : ∀ {es : List IndexEvent} {s u : MapState}, s.Coherent →
    s.Ranged → Counted s →
    s.nextNetId.toNat + es.countP IndexEvent.takesId < 4294967296 → run (indexStep cfg) s es = some u →
    Meets (indexStep cfg) (FreshId cfg) s es
  | [], _, _, _, _, _, _, _ => trivial
  | ev :: es, s, u, h, hr, hc, hfew, hrun => by
    obtain ⟨t, ht, hrun⟩ := (run_cons_eq_some _).1 hrun
    rw [List.countP_cons] at hfew
    have htake : (if ev.takesId = true then 1 else 0) = ev.takesId.toNat := by cases ev.takesId <;> rfl
    rw [htake] at hfew
    obtain ⟨hfresh, hct, hle⟩ := indexStep_counted h hc (by omega) ht
    obtain ⟨hrt, hco⟩ := indexStep_coherent_iff h hr ht
    refine ⟨hfresh, fun t' ht' => ?_⟩
    rw [ht] at ht'
    cases ht'
    exact meets_freshId_of_few (hco.2 hfresh) hrt hct (by omega) hrun

/-! ## Ids that come round again -/

/-- Reservations before the ids wrap. -/
theorem run_reserveNetId (cfg : MapConfig) : ∀ (n : Nat) (s : MapState), s.nextNetId.toNat + n < 4294967296 →
    ∃ nextNetId reserved, run (indexStep cfg) s (List.replicate n .reserveNetId) = some { s with nextNetId, reserved } ∧
      nextNetId.toNat = s.nextNetId.toNat + n
  | 0, s, _ => ⟨s.nextNetId, s.reserved, rfl, rfl⟩
  | n + 1, s, h => by
    have hnext : (nextEntityId s.nextNetId).toNat = s.nextNetId.toNat + 1 := toNat_nextEntityId (by omega)
    obtain ⟨nextNetId, reserved, hrun, heq⟩ := run_reserveNetId cfg n
      { s with nextNetId := nextEntityId s.nextNetId, reserved := ⟨(nextEntityId s.nextNetId).toNat⟩ :: s.reserved }
      (by show (nextEntityId s.nextNetId).toNat + n < _; omega)
    refine ⟨nextNetId, reserved, (run_cons_eq_some _).2 ⟨_, rfl, hrun⟩, ?_⟩
    rw [heq]
    show (nextEntityId s.nextNetId).toNat + n = _
    omega

/-- One kind of mob, and everything in sight. -/
def pasture : MapConfig := ⟨⟨[⟨101⟩]⟩, fun _ _ _ => true⟩

/-- In every run of the map the indices are coherent and stale leaves are ignored throughout if and only if no step puts
a net id on an entity that another live entity has. -/
theorem coherent_along_iff (cfg : MapConfig) {es : List IndexEvent} {s : MapState}
    (h : run (indexStep cfg) start es = some s) :
    Along (indexStep cfg) (fun s => s.Coherent ∧ s.IgnoresStaleLeaves) start es ↔
      Meets (indexStep cfg) (FreshId cfg) start es := by
  refine along_iff_meets (I := Ranged) (fun s ev t hr hs ht => ?_) ranged_start
    ⟨coherent_start, coherent_start.ignoresStaleLeaves⟩ h
  obtain ⟨hra, hco⟩ := indexStep_coherent_iff hs.1 hr ht
  exact ⟨hra, (and_iff_left_of_imp Coherent.ignoresStaleLeaves).trans hco⟩

theorem coherent_along_iff_two :
    Along (indexStep pasture) (fun s => s.Coherent ∧ s.IgnoresStaleLeaves) start
      [.spawnMob ⟨0⟩ ⟨101⟩ ⟨0, 0⟩, .reserveNetId] ↔
      Meets (indexStep pasture) (FreshId pasture) start [.spawnMob ⟨0⟩ ⟨101⟩ ⟨0, 0⟩, .reserveNetId] :=
  coherent_along_iff pasture rfl

/-- After a mob and `2^32 - 2` reservations the next mob is given the net id of the first, whose entry is
overwritten. -/
theorem net_id_given_out_twice :
    ∃ s, run (indexStep pasture) start ([.spawnMob ⟨0⟩ ⟨101⟩ ⟨0, 0⟩] ++ List.replicate 4294967294 .reserveNetId ++
        [.spawnMob ⟨1⟩ ⟨101⟩ ⟨0, 0⟩]) = some s ∧
      s.entities.get? ⟨0⟩ = some ⟨⟨1⟩, ⟨0, 0⟩, .mob ⟨101⟩⟩ ∧ s.entities.get? ⟨1⟩ = some ⟨⟨1⟩, ⟨0, 0⟩, .mob ⟨101⟩⟩ ∧
      s.netIndex.get? ⟨1⟩ = some ⟨1⟩ ∧ ¬ s.Coherent := by
  obtain ⟨nextNetId, reserved, hrun, hnext⟩ := run_reserveNetId pasture 4294967294
    (start.spawnOneMob pasture ⟨0⟩ ⟨101⟩ ⟨0, 0⟩) (by decide)
  have hlast : nextNetId = 4294967295 := UInt32.toNat_inj.1 hnext
  have hfirst : run (indexStep pasture) start [.spawnMob ⟨0⟩ ⟨101⟩ ⟨0, 0⟩] =
    some (start.spawnOneMob pasture ⟨0⟩ ⟨101⟩ ⟨0, 0⟩) := rfl
  have hsecond : run (indexStep pasture) { start.spawnOneMob pasture ⟨0⟩ ⟨101⟩ ⟨0, 0⟩ with nextNetId, reserved }
      [.spawnMob ⟨1⟩ ⟨101⟩ ⟨0, 0⟩] =
      some ({ start.spawnOneMob pasture ⟨0⟩ ⟨101⟩ ⟨0, 0⟩ with nextNetId, reserved }.spawnOneMob pasture ⟨1⟩ ⟨101⟩
        ⟨0, 0⟩) := rfl
  have hall := (run_append_eq_some (indexStep pasture)).2 ⟨_, (run_append_eq_some _).2 ⟨_, hfirst, hrun⟩, hsecond⟩
  subst hlast
  have hmob : (⟨101⟩ : MobId) ∈ pasture.mobs := by decide
  have hentities : ∀ e, (MapState.spawnOneMob pasture { start.spawnOneMob pasture ⟨0⟩ ⟨101⟩ ⟨0, 0⟩ with
      nextNetId := 4294967295, reserved } ⟨1⟩ ⟨101⟩ ⟨0, 0⟩).entities.get? e =
      ((start.spawnOneMob pasture ⟨0⟩ ⟨101⟩ ⟨0, 0⟩).entities.insert ⟨1⟩
        ⟨⟨(nextEntityId 4294967295).toNat⟩, ⟨0, 0⟩, .mob ⟨101⟩⟩).get? e := by
    intro e
    unfold spawnOneMob
    rw [if_pos hmob]
  have hindex : ∀ id, (MapState.spawnOneMob pasture { start.spawnOneMob pasture ⟨0⟩ ⟨101⟩ ⟨0, 0⟩ with
      nextNetId := 4294967295, reserved } ⟨1⟩ ⟨101⟩ ⟨0, 0⟩).netIndex.get? id =
      ((start.spawnOneMob pasture ⟨0⟩ ⟨101⟩ ⟨0, 0⟩).netIndex.insert ⟨(nextEntityId 4294967295).toNat⟩ ⟨1⟩).get? id := by
    intro id
    unfold spawnOneMob
    rw [if_pos hmob]
  refine ⟨_, hall, (hentities _).trans (by decide), (hentities _).trans (by decide), (hindex _).trans (by decide),
    fun hco => ?_⟩
  -- the first mob would have to be found by its net id
  have hfind := hco.nets.get?_of_key ((hentities ⟨0⟩).trans (by decide : _ = some ⟨⟨1⟩, ⟨0, 0⟩, .mob ⟨101⟩⟩)) rfl
  rw [hindex] at hfind
  exact absurd hfind (by decide)

end Zohar.Indices
