/-
Where a resolved spawn stands. The coordinates of a core are built from a catalog whose town spawns and empire starts
are checked against the bounds of their maps; a stored position is checked when it is resolved. So the world position of
the main character can be computed for whatever is resolved. From zohar-gamesrv: coords.rs and handlers/loading.rs.
-/
import Zohar.Game.Coords

namespace Zohar.Game

open Zohar.Db Zohar.Lib

/-! ## `f32` arithmetic -/

def f32IsNaN (a : UInt32) : Bool := f32Key a = none

def f32IsNegative (a : UInt32) : Bool := a &&& 0x80000000 ≠ 0

def f32NaN : UInt32 := 0x7fc00000

def f32Infinity (negative : Bool) : UInt32 := if negative then 0xff800000 else 0x7f800000

/-- The bits of a finite number of at most 24 significant bits, given in units of `2^-149`; the sign of zero is
`negative`. -/
def f32OfUnits (negative : Bool) (units : Int) : UInt32 :=
  let magnitude := units.natAbs
  let bits := if magnitude < 2 ^ 23 then magnitude else
    let shift := Nat.log2 magnitude - 23
    (shift + 1) * 2 ^ 23 + (magnitude / 2 ^ shift - 2 ^ 23)
  UInt32.ofNat (if negative then bits + 2 ^ 31 else bits)

/-- The sum. An exact zero is positive unless both terms are negative. -/
def f32Add (a b : UInt32) : UInt32 :=
  if f32IsNaN a || f32IsNaN b then f32NaN
  else if !f32IsFinite a then if !f32IsFinite b && f32IsNegative a != f32IsNegative b then f32NaN else a
  else if !f32IsFinite b then b
  else
    let sum := f32Units a + f32Units b
    let negative := if sum = 0 then f32IsNegative a && f32IsNegative b else sum < 0
    match f32Round sum with
    | some units => f32OfUnits negative units
    | none => f32Infinity negative

/-- `(coord_m * 100.0).trunc() as i32`: the cast saturates, and `NaN` becomes 0. -/
def metersToWireCm (coordM : UInt32) : Int :=
  let saturated := if f32IsNegative coordM then i32Min else i32Max
  if f32IsNaN coordM then 0
  else if !f32IsFinite coordM then saturated
  else
    match f32Round (f32Units coordM * 100) with
    | some units => satI32 (units.tdiv (2 ^ 149))
    | none => saturated

/-! ## World positions -/

structure WorldPos where
  x : UInt32
  y : UInt32
  deriving DecidableEq, Repr

structure WireWorldPos where
  xCm : Int
  yCm : Int
  deriving DecidableEq, Repr

def WorldPos.toProtocol (pos : WorldPos) : WireWorldPos := ⟨metersToWireCm pos.x, metersToWireCm pos.y⟩

def MapCoordMeta.toWorld (m : MapCoordMeta) (pos : LocalPos) : WorldPos := ⟨f32Add m.baseX pos.x, f32Add m.baseY pos.y⟩

namespace ContentCoords

def localToWorld (coords : ContentCoords) (mapId : MapId) (pos : LocalPos) : Option WorldPos :=
  (coords.maps.get? mapId).bind fun map => if map.containsLocal pos then some (map.toWorld pos) else none

/-! ## Town spawns -/

/-- The loop over all town spawns: the only one on the map, if there is just one. -/
def townSpawnFallback (mapId : MapId) (fallback : Option LocalPos) : List ((MapId × Empire) × LocalPos) →
    Option LocalPos
  | [] => fallback
  | ((spawnMapId, _), pos) :: rest =>
    if spawnMapId ≠ mapId then townSpawnFallback mapId fallback rest
    else if fallback.isSome then none
    else townSpawnFallback mapId (some pos) rest

def resolveTownSpawn (coords : ContentCoords) (mapId : MapId) (preferredEmpire : Empire) : Option LocalPos :=
  match (coords.townSpawns.find? fun e => e.1 = (mapId, preferredEmpire)).map (·.2) with
  | some pos => some pos
  | none => townSpawnFallback mapId none coords.townSpawns

def resolveTownRestart (coords : ContentCoords) (mapId : MapId) (empire : Empire) : ResolvedSpawn :=
  match coords.resolveTownSpawn mapId empire with
  | some localPos => ⟨mapId, localPos, false⟩
  | none =>
    let start := coords.empireStarts empire
    ⟨start.mapId, ⟨start.localX, start.localY⟩, true⟩

/-- The position that `handle_enter` of the loading phase sends for an entry, `none` where its `expect` panics. -/
def handleEnterPos (coords : ContentCoords) (entryMapId : MapId) (initialPos : LocalPos) : Option WireWorldPos :=
  (coords.localToWorld entryMapId initialPos).map (·.toProtocol)

/-! ## What an accepted catalog places -/

/-- The map is known and the position is within it. -/
def Inside (maps : MapTable) (mapId : MapId) (pos : LocalPos) : Prop :=
  ∃ map, maps.get? mapId = some map ∧ map.containsLocal pos = true

theorem loadTownSpawns_inside {maps : MapTable} :
    ∀ {content : List MapTownSpawn} {spawns out : List ((MapId × Empire) × LocalPos)},
    (∀ e ∈ spawns, Inside maps e.1.1 e.2) → loadTownSpawns maps spawns content = .ok out → ∀ e ∈ out,
      Inside maps e.1.1 e.2
  | [], _, _, hin, h => by cases h; exact hin
  | spawn :: rest, spawns, out, hin, h => by
    unfold loadTownSpawns at h
    split at h
    · cases h
    rename_i map hmap
    split at h
    · cases h
    rename_i hcontains
    split at h
    · cases h
    refine loadTownSpawns_inside ?_ h
    intro e he
    rcases List.mem_append.1 he with he | he
    · exact hin e he
    · cases List.mem_singleton.1 he
      exact ⟨map, hmap, by simpa using hcontains⟩

theorem loadStarts_inside {maps : MapTable} :
    ∀ {configs : List EmpireStartConfig} {starts out : Empire → Option EmpireStart},
    (∀ empire start, starts empire = some start → Inside maps start.mapId ⟨start.localX, start.localY⟩) →
    loadStarts maps starts configs = .ok out →
    ∀ empire start, out empire = some start → Inside maps start.mapId ⟨start.localX, start.localY⟩
  | [], _, _, hin, h => by cases h; exact hin
  | config :: rest, starts, out, hin, h => by
    unfold loadStarts at h
    split at h
    · cases h
    split at h
    · cases h
    rename_i map hmap
    split at h
    · cases h
    rename_i hcontains
    split at h
    · cases h
    refine loadStarts_inside (fun empire start hs => ?_) h
    by_cases he : empire = config.empire
    · subst he
      rw [Function.update_self] at hs
      cases hs
      exact ⟨map, hmap, by simpa using hcontains⟩
    · rw [Function.update_of_ne he] at hs
      exact hin empire start hs

/-- Every spawn that the coordinates hold is within its map. -/
structure SpawnsInside (coords : ContentCoords) : Prop where
  keyed : MapTable.Keyed coords.maps
  town : ∀ e ∈ coords.townSpawns, Inside coords.maps e.1.1 e.2
  start : ∀ empire, Inside coords.maps (coords.empireStarts empire).mapId
    ⟨(coords.empireStarts empire).localX, (coords.empireStarts empire).localY⟩

theorem spawnsInside_of_fromCatalog {catalog : ContentCatalog} {coords : ContentCoords}
    (h : fromCatalog catalog = .ok coords) :
    coords.SpawnsInside := by
  have hkeyed := (accepted_of_fromCatalog h).keyed
  unfold fromCatalog at h
  split at h
  · cases h
  rename_i maps hmaps
  split at h
  · cases h
  split at h
  · cases h
  rename_i townSpawns htown
  split at h
  · cases h
  rename_i starts hstarts
  split at h
  · cases h
  · cases h
  · cases h
  rename_i red yellow blue hred hyellow hblue
  cases h
  have hstart := loadStarts_inside (fun _ _ hnone => by cases hnone) hstarts
  refine ⟨hkeyed, loadTownSpawns_inside (by rintro _ ⟨⟩) htown, ?_⟩
  rintro (_ | _ | _)
  · exact hstart .red red hred
  · exact hstart .yellow yellow hyellow
  · exact hstart .blue blue hblue

theorem townSpawnFallback_mem {mapId : MapId} {pos : LocalPos} : ∀ {spawns : List ((MapId × Empire) × LocalPos)}
    {fallback : Option LocalPos}, townSpawnFallback mapId fallback spawns = some pos →
      fallback = some pos ∨ ∃ empire, ((mapId, empire), pos) ∈ spawns
  | [], _, h => .inl h
  | ((spawnMapId, empire), spawnPos) :: rest, fallback, h => by
    unfold townSpawnFallback at h
    split at h
    · rcases townSpawnFallback_mem h with h | ⟨other, hmem⟩
      · exact .inl h
      · exact .inr ⟨other, List.mem_cons_of_mem _ hmem⟩
    rename_i hmap
    obtain rfl : spawnMapId = mapId := by simpa using hmap
    split at h
    · cases h
    · rcases townSpawnFallback_mem h with h | ⟨other, hmem⟩
      · cases h
        exact .inr ⟨empire, List.mem_cons_self⟩
      · exact .inr ⟨other, List.mem_cons_of_mem _ hmem⟩

theorem resolveTownSpawn_mem {coords : ContentCoords} {mapId : MapId} {preferredEmpire : Empire} {pos : LocalPos}
    (h : coords.resolveTownSpawn mapId preferredEmpire = some pos) :
    ∃ empire, ((mapId, empire), pos) ∈ coords.townSpawns := by
  unfold resolveTownSpawn at h
  split at h
  · rename_i found hfound
    cases h
    obtain ⟨e, he, rfl⟩ := Option.map_eq_some_iff.1 hfound
    have hkey : e.1 = (mapId, preferredEmpire) := by simpa using List.find?_some he
    refine ⟨preferredEmpire, ?_⟩
    rw [← hkey]
    exact List.mem_of_find?_eq_some he
  · rcases townSpawnFallback_mem h with h | h
    · cases h
    · exact h

/-- A spawn on a map that the coordinates know, at a position within it, which therefore has a world position. -/
structure Placed (coords : ContentCoords) (spawn : ResolvedSpawn) : Prop where
  known : Inside coords.maps spawn.mapId spawn.localPos
  world : (coords.localToWorld spawn.mapId spawn.localPos).isSome

variable {coords : ContentCoords}

theorem Inside.placed {spawn : ResolvedSpawn} (h : Inside coords.maps spawn.mapId spawn.localPos) :
    coords.Placed spawn := by
  refine ⟨h, ?_⟩
  obtain ⟨map, hmap, hin⟩ := h
  unfold localToWorld
  rw [hmap]
  show (if map.containsLocal spawn.localPos then some (map.toWorld spawn.localPos) else none).isSome = true
  rw [if_pos hin]
  rfl

namespace SpawnsInside

/-- The stored position is resolved where it is within its map; the empire's start is within its own. -/
theorem resolveSpawn (h : coords.SpawnsInside) (persisted : Option PersistedPlayerPos) (empire : Empire) :
    ∃ spawn, coords.resolveSpawn persisted empire = some spawn ∧ coords.Placed spawn := by
  unfold ContentCoords.resolveSpawn
  dsimp only
  split
  · rename_i spawn hsaved
    refine ⟨spawn, rfl, ?_⟩
    obtain ⟨saved, -, hsaved⟩ := Option.bind_eq_some_iff.1 hsaved
    obtain ⟨map, hmap, hsaved⟩ := Option.bind_eq_some_iff.1 hsaved
    split at hsaved
    · rename_i hin
      cases hsaved
      refine Inside.placed ⟨map, ?_, hin⟩
      rw [h.keyed.get? hmap]
      exact hmap
    · cases hsaved
  · obtain ⟨map, hmap, hin⟩ := h.start empire
    rw [hmap]
    exact ⟨_, rfl, Inside.placed ⟨map, hmap, hin⟩⟩

theorem resolveTownRestart (h : coords.SpawnsInside) (mapId : MapId) (empire : Empire) :
    coords.Placed (coords.resolveTownRestart mapId empire) := by
  unfold ContentCoords.resolveTownRestart
  split
  · rename_i pos hpos
    obtain ⟨other, hmem⟩ := resolveTownSpawn_mem hpos
    exact Inside.placed (h.town _ hmem)
  · exact Inside.placed (h.start empire)

end SpawnsInside

/-- For every catalog that is accepted: whatever is stored and whatever the empire, the spawn is resolved, stands within
a known map and has a world position, and so does a restart in town from any map. Neither `expect` fires. -/
theorem resolved_spawn_placed {catalog : ContentCatalog} {coords : ContentCoords} (h : fromCatalog catalog = .ok coords)
    (empire : Empire) :
    (∀ persisted, ∃ spawn, coords.resolveSpawn persisted empire = some spawn ∧ coords.Placed spawn ∧
      (coords.handleEnterPos spawn.mapId spawn.localPos).isSome) ∧
    (∀ mapId, coords.Placed (coords.resolveTownRestart mapId empire)) := by
  have hin := spawnsInside_of_fromCatalog h
  refine ⟨fun persisted => ?_, fun mapId => hin.resolveTownRestart mapId empire⟩
  obtain ⟨spawn, hspawn, hplaced⟩ := hin.resolveSpawn persisted empire
  refine ⟨spawn, hspawn, hplaced, ?_⟩
  unfold handleEnterPos
  rw [Option.isSome_map]
  exact hplaced.world

/-- A stored position that is `NaN` on the red start map, and a restart from a map that is not there. -/
theorem resolved_spawn_placed_nan : ∃ coords, fromCatalog startCatalog = .ok coords ∧
    coords.resolveSpawn (some ⟨⟨"metin2_map_a1"⟩, f32NaN, 0x43480000⟩) .yellow =
      some ⟨⟨"metin2_map_b1"⟩, ⟨0x41200000, 0x41200000⟩, true⟩ ∧
    coords.handleEnterPos ⟨"metin2_map_b1"⟩ ⟨0x41200000, 0x41200000⟩ = some ⟨103400, 1000⟩ ∧
    coords.Placed (coords.resolveTownRestart ⟨"nowhere"⟩ .blue) := by
  obtain ⟨coords, h, hspawn, hpos⟩ : ∃ coords, fromCatalog startCatalog = .ok coords ∧
      coords.resolveSpawn (some ⟨⟨"metin2_map_a1"⟩, f32NaN, 0x43480000⟩) .yellow =
        some ⟨⟨"metin2_map_b1"⟩, ⟨0x41200000, 0x41200000⟩, true⟩ ∧
      coords.handleEnterPos ⟨"metin2_map_b1"⟩ ⟨0x41200000, 0x41200000⟩ = some ⟨103400, 1000⟩ := ⟨_, rfl, rfl, by decide⟩
  exact ⟨coords, h, hspawn, hpos, (resolved_spawn_placed h .blue).2 _⟩

end ContentCoords

end Zohar.Game
