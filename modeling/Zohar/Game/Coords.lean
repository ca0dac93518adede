/-
Where a character is: the map that the gateway advertises for it and the map that a core loads it on. A core has the
content catalog and checks the stored position against the bounds of the stored map; the gateway has only the map codes
of the empires' starts. From zohar-gamesrv: coords.rs, new_player_defaults.rs, handlers/select.rs, handlers/loading.rs
and handlers/ingame.rs. A coordinate is the bit pattern of its `f32`.
-/
import Zohar.Db.Tables
import Mathlib.Tactic

namespace Zohar.Game

open Zohar.Db

/-! ## `f32` by its bits -/

def f32Exponent (a : UInt32) : Nat := ((a >>> 23) &&& 0xff).toNat

def f32IsFinite (a : UInt32) : Bool := f32Exponent a ≠ 255

/-- The place of a number in the order of the numbers, `none` for `NaN`: the magnitude is ordered like its bits. -/
def f32Key (a : UInt32) : Option Int :=
  let magnitude := (a &&& 0x7fffffff).toNat
  if 0x7f800000 < magnitude then none
  else if a &&& 0x80000000 = 0 then some (magnitude : Int) else some (-magnitude)

/-- `a < b`, false where one of them is `NaN`. -/
def f32Lt (a b : UInt32) : Bool :=
  match f32Key a, f32Key b with
  | some x, some y => x < y
  | _, _ => false

def f32Le (a b : UInt32) : Bool :=
  match f32Key a, f32Key b with
  | some x, some y => x ≤ y
  | _, _ => false

/-- A finite number in units of `2^-149`, of which every finite `f32` is a multiple. -/
def f32Units (a : UInt32) : Int :=
  let mantissa := (a &&& 0x7fffff).toNat
  let magnitude := if f32Exponent a = 0 then mantissa else (mantissa + 2 ^ 23) * 2 ^ (f32Exponent a - 1)
  if a &&& 0x80000000 = 0 then (magnitude : Int) else -magnitude

/-- The number of units after rounding to nearest, ties to even, or `none` where the result is infinite. -/
def f32Round (units : Int) : Option Int :=
  let magnitude := units.natAbs
  let ulp := 2 ^ (Nat.log2 magnitude - 23)
  let quotient := magnitude / ulp
  let rest := magnitude % ulp
  let rounded := if rest * 2 < ulp ∨ (rest * 2 = ulp ∧ quotient % 2 = 0) then quotient else quotient + 1
  if rounded * ulp < 2 ^ 128 * 2 ^ 149 then some (units.sign * (rounded * ulp)) else none

/-- `(base + (size - 1.0)).is_finite()` for a finite base and a finite size. -/
def f32ProjectionIsFinite (base size : UInt32) : Bool :=
  match f32Round (f32Units size - 2 ^ 149) with
  | some max => (f32Round (f32Units base + max)).isSome
  | none => false

/-! ## The catalog -/

inductive Empire where
  | red | yellow | blue
  deriving DecidableEq, Repr

/-- The derived `Debug`. -/
def Empire.debug : Empire → String
  | .red => "Red"
  | .yellow => "Yellow"
  | .blue => "Blue"

structure MapId where
  raw : String
  deriving DecidableEq, Repr

structure ContentMap where
  mapId : String
  mapWidth : UInt32
  mapHeight : UInt32
  empire : Option Empire
  baseX : Option UInt32
  baseY : Option UInt32
  deriving DecidableEq, Repr

structure MapTownSpawn where
  mapId : String
  empire : Empire
  x : UInt32
  y : UInt32
  deriving DecidableEq, Repr

structure EmpireStartConfig where
  empire : Empire
  startMapId : String
  startX : UInt32
  startY : UInt32
  deriving DecidableEq, Repr

structure ContentCatalog where
  maps : List ContentMap
  townSpawns : List MapTownSpawn
  empireStartConfigs : List EmpireStartConfig
  deriving DecidableEq, Repr

/-! ## Coordinates of a core -/

structure MapCoordMeta where
  mapId : MapId
  baseX : UInt32
  baseY : UInt32
  mapWidth : UInt32
  mapHeight : UInt32
  empire : Option Empire
  deriving DecidableEq, Repr

def MapCoordMeta.containsLocal (m : MapCoordMeta) (pos : LocalPos) : Bool :=
  f32IsFinite pos.x && f32IsFinite pos.y &&
    (f32Le 0 pos.x && f32Lt pos.x m.mapWidth && f32Le 0 pos.y && f32Lt pos.y m.mapHeight)

structure EmpireStart where
  mapId : MapId
  localX : UInt32
  localY : UInt32
  deriving DecidableEq, Repr

structure PersistedPlayerPos where
  mapKey : MapId
  localX : UInt32
  localY : UInt32
  deriving DecidableEq, Repr

structure ResolvedSpawn where
  mapId : MapId
  localPos : LocalPos
  usedFallback : Bool
  deriving DecidableEq, Repr

/-- The maps under their ids, as they were inserted. -/
abbrev MapTable := List (MapId × MapCoordMeta)

def MapTable.get? (maps : MapTable) (id : MapId) : Option MapCoordMeta := (maps.find? fun e => e.1 = id).map (·.2)

structure ContentCoords where
  maps : MapTable
  townSpawns : List ((MapId × Empire) × LocalPos)
  empireStarts : Empire → EmpireStart

inductive CatalogError where
  | missingBaseX (mapId : String)
  | missingBaseY (mapId : String)
  | nonFiniteOrigin (mapId : String)
  | nonFiniteDimensions (mapId : String)
  | invalidDimensions (mapId : String) (width height : UInt32)
  | nonFiniteProjection (mapId : String)
  | duplicateMap (mapId : String)
  | noMaps
  | townSpawnUnknownMap (empire : Empire) (mapId : String)
  | townSpawnOutOfBounds (empire : Empire) (mapId : String) (x y : UInt32)
  | duplicateTownSpawn (empire : Empire) (mapId : String)
  | nonFiniteStart (empire : Empire)
  | startUnknownMap (empire : Empire) (mapId : String)
  | startOutOfBounds (empire : Empire) (x y : UInt32) (mapId : String)
  | duplicateStart (empire : Empire)
  | missingStart (empire : Empire)
  deriving DecidableEq, Repr

/-- The message; `display` prints an `f32`. -/
def CatalogError.text (display : UInt32 → String) : CatalogError → String
  | missingBaseX id => s!"map {id} is missing map_placement.base_x"
  | missingBaseY id => s!"map {id} is missing map_placement.base_y"
  | nonFiniteOrigin id => s!"map {id} has non-finite placement origin"
  | nonFiniteDimensions id => s!"map {id} has non-finite dimensions"
  | invalidDimensions id width height => s!"map {id} has invalid dimensions {display width}x{display height}"
  | nonFiniteProjection id => s!"map {id} world projection produced non-finite coordinates"
  | duplicateMap id => s!"duplicate map_id {id} in content catalog"
  | noMaps => "content catalog does not define any maps"
  | townSpawnUnknownMap empire id => s!"town spawn for empire {empire.debug} references unknown map_id {id}"
  | townSpawnOutOfBounds empire id x y =>
    s!"town spawn for empire {empire.debug} on map_id {id} is out of bounds at ({display x}, {display y})"
  | duplicateTownSpawn empire id => s!"duplicate town spawn for empire {empire.debug} on map_id {id}"
  | nonFiniteStart empire => s!"empire {empire.debug} start coordinates are non-finite"
  | startUnknownMap empire id => s!"empire {empire.debug} start map_id {id} does not exist in maps"
  | startOutOfBounds empire x y id =>
    s!"empire {empire.debug} start ({display x}, {display y}) is out of bounds for map_id {id}"
  | duplicateStart empire => s!"duplicate start config for empire {empire.debug}"
  | missingStart empire => s!"missing start config for empire {empire.debug}"

namespace ContentCoords

/-- The checks on one map of the catalog. -/
def mapMeta (map : ContentMap) : Except CatalogError MapCoordMeta :=
  match map.baseX, map.baseY with
  | none, _ => .error (.missingBaseX map.mapId)
  | some _, none => .error (.missingBaseY map.mapId)
  | some baseX, some baseY =>
    if !f32IsFinite baseX || !f32IsFinite baseY then .error (.nonFiniteOrigin map.mapId)
    else if !f32IsFinite map.mapWidth || !f32IsFinite map.mapHeight then .error (.nonFiniteDimensions map.mapId)
    else if f32Le map.mapWidth 0 || f32Le map.mapHeight 0 then
      .error (.invalidDimensions map.mapId map.mapWidth map.mapHeight)
    else if !f32ProjectionIsFinite baseX map.mapWidth || !f32ProjectionIsFinite baseY map.mapHeight then
      .error (.nonFiniteProjection map.mapId)
    else .ok ⟨⟨map.mapId⟩, baseX, baseY, map.mapWidth, map.mapHeight, map.empire⟩

def loadMaps (maps : MapTable) : List ContentMap → Except CatalogError MapTable
  | [] => .ok maps
  | map :: rest =>
    match mapMeta map with
    | .error e => .error e
    | .ok entry =>
      if (maps.get? ⟨map.mapId⟩).isSome then .error (.duplicateMap map.mapId)
      else loadMaps (maps ++ [(⟨map.mapId⟩, entry)]) rest

def loadTownSpawns (maps : MapTable) (spawns : List ((MapId × Empire) × LocalPos)) :
    List MapTownSpawn → Except CatalogError (List ((MapId × Empire) × LocalPos))
  | [] => .ok spawns
  | spawn :: rest =>
    match maps.get? ⟨spawn.mapId⟩ with
    | none => .error (.townSpawnUnknownMap spawn.empire spawn.mapId)
    | some map =>
      if !map.containsLocal ⟨spawn.x, spawn.y⟩ then
        .error (.townSpawnOutOfBounds spawn.empire spawn.mapId spawn.x spawn.y)
      else if spawns.any fun e => e.1 = (⟨spawn.mapId⟩, spawn.empire) then
        .error (.duplicateTownSpawn spawn.empire spawn.mapId)
      else loadTownSpawns maps (spawns ++ [((⟨spawn.mapId⟩, spawn.empire), ⟨spawn.x, spawn.y⟩)]) rest

/-- `red`, `yellow` and `blue` of the source are one function of the empire here. -/
def loadStarts (maps : MapTable) (starts : Empire → Option EmpireStart) :
    List EmpireStartConfig → Except CatalogError (Empire → Option EmpireStart)
  | [] => .ok starts
  | start :: rest =>
    if !f32IsFinite start.startX || !f32IsFinite start.startY then .error (.nonFiniteStart start.empire)
    else
      match maps.get? ⟨start.startMapId⟩ with
      | none => .error (.startUnknownMap start.empire start.startMapId)
      | some map =>
        if !map.containsLocal ⟨start.startX, start.startY⟩ then
          .error (.startOutOfBounds start.empire start.startX start.startY start.startMapId)
        else if (starts start.empire).isSome then .error (.duplicateStart start.empire)
        else
          loadStarts maps (Function.update starts start.empire (some ⟨⟨start.startMapId⟩, start.startX, start.startY⟩))
            rest

def fromCatalog (catalog : ContentCatalog) : Except CatalogError ContentCoords :=
  match loadMaps [] catalog.maps with
  | .error e => .error e
  | .ok maps =>
    if maps.isEmpty then .error .noMaps
    else
      match loadTownSpawns maps [] catalog.townSpawns with
      | .error e => .error e
      | .ok townSpawns =>
        match loadStarts maps (fun _ => none) catalog.empireStartConfigs with
        | .error e => .error e
        | .ok starts =>
          match starts .red, starts .yellow, starts .blue with
          | none, _, _ => .error (.missingStart .red)
          | some _, none, _ => .error (.missingStart .yellow)
          | some _, some _, none => .error (.missingStart .blue)
          | some red, some yellow, some blue =>
            .ok { maps, townSpawns, empireStarts := fun | .red => red | .yellow => yellow | .blue => blue }

def persistedFromRuntimeState (player : RuntimeRow) : Option PersistedPlayerPos :=
  match player.mapKey, player.localX, player.localY with
  | some mapKey, some localX, some localY => some ⟨⟨mapKey⟩, localX, localY⟩
  | _, _, _ => none

/-- `none` where the `expect` on the empire's start map panics. -/
def resolveSpawn (coords : ContentCoords) (persisted : Option PersistedPlayerPos) (empire : Empire) :
    Option ResolvedSpawn :=
  let saved := persisted.bind fun saved =>
    (coords.maps.get? saved.mapKey).bind fun map =>
      let localPos : LocalPos := ⟨saved.localX, saved.localY⟩
      if map.containsLocal localPos then some (⟨map.mapId, localPos, false⟩ : ResolvedSpawn) else none
  match saved with
  | some spawn => some spawn
  | none =>
    -- the position is uninitialized or wiped
    let start := coords.empireStarts empire
    (coords.maps.get? start.mapId).map fun _ => ⟨start.mapId, ⟨start.localX, start.localY⟩, true⟩

def resolveSpawnForPlayer (coords : ContentCoords) (player : Option RuntimeRow) (empire : Empire) :
    Option ResolvedSpawn :=
  coords.resolveSpawn (player.bind persistedFromRuntimeState) empire

end ContentCoords

/-! ## Start maps of the gateway -/

/-- `char::is_whitespace`. -/
def isWhitespace (c : Char) : Bool :=
  let n := c.toNat
  (9 ≤ n && n ≤ 13) || n == 0x20 || n == 0x85 || n == 0xa0 || n == 0x1680 || (0x2000 ≤ n && n ≤ 0x200a) ||
    n == 0x2028 ||
    n == 0x2029 || n == 0x202f || n == 0x205f || n == 0x3000

structure EmpireStartMaps where
  red : MapId
  yellow : MapId
  blue : MapId
  deriving DecidableEq, Repr

namespace EmpireStartMaps

def default : EmpireStartMaps := ⟨⟨"metin2_map_a1"⟩, ⟨"metin2_map_b1"⟩, ⟨"metin2_map_c1"⟩⟩

def fromOptions (red yellow blue : Option String) : EmpireStartMaps :=
  ⟨(red.map MapId.mk).getD default.red, (yellow.map MapId.mk).getD default.yellow,
    (blue.map MapId.mk).getD default.blue⟩

/-- `trim().is_empty()`. -/
def isBlank (id : MapId) : Bool := id.raw.toList.all isWhitespace

def validate (starts : EmpireStartMaps) : Except String EmpireStartMaps :=
  if isBlank starts.red then .error "red start map code cannot be empty"
  else if isBlank starts.yellow then .error "yellow start map code cannot be empty"
  else if isBlank starts.blue then .error "blue start map code cannot be empty"
  else .ok starts

def mapIdForEmpire (starts : EmpireStartMaps) : Empire → MapId
  | .red => starts.red
  | .yellow => starts.yellow
  | .blue => starts.blue

/-- The gateway's start maps with the options set to the catalog's start maps. -/
def ofCatalog (catalog : ContentCatalog) : Except String EmpireStartMaps :=
  let option empire := (catalog.empireStartConfigs.find? fun start => start.empire = empire).map (·.startMapId)
  (fromOptions (option .red) (option .yellow) (option .blue)).validate

end EmpireStartMaps

/-! ## Routing -/

inductive SelectRouting where
  | core (coords : ContentCoords)
  | gateway (empireStartMaps : EmpireStartMaps)

/-- `none` where a core's resolution panics. -/
def resolvePlayerMapId (routing : SelectRouting) (runtimeState : Option RuntimeRow) (fallbackEmpire : Empire) :
    Option MapId :=
  match routing with
  | .core coords => (coords.resolveSpawnForPlayer runtimeState fallbackEmpire).map (·.mapId)
  | .gateway starts =>
    match (runtimeState.bind (·.mapKey)).filter fun key => key ≠ "" with
    | some key => some ⟨key⟩
    | none => some (starts.mapIdForEmpire fallbackEmpire)

inductive IngameRefusal where
  | draining | wrongMapCore
  deriving DecidableEq, Repr

/-- The refusals of `prepare_ingame` on the core of `coreMap`, for a player that was loaded on `entryMap`. -/
def prepareIngame (isDraining : Bool) (coreMap entryMap : MapId) : Except IngameRefusal Unit :=
  if isDraining then .error .draining
  else if entryMap ≠ coreMap then .error .wrongMapCore
  else .ok ()

/-! ## An accepted catalog -/

namespace ContentCoords

/-- Every map stands under its own id. -/
def MapTable.Keyed (maps : MapTable) : Prop := ∀ e ∈ maps, e.2.mapId = e.1

theorem mapMeta_mapId {map : ContentMap} {entry : MapCoordMeta} (h : mapMeta map = .ok entry) :
    entry.mapId = ⟨map.mapId⟩ := by
  unfold mapMeta at h
  split at h
  · cases h
  · cases h
  · split at h
    · cases h
    · split at h
      · cases h
      · split at h
        · cases h
        · split at h
          · cases h
          · cases h; rfl

theorem loadMaps_keyed : ∀ {content : List ContentMap} {maps out : MapTable}, MapTable.Keyed maps →
    loadMaps maps content = .ok out → MapTable.Keyed out
  | [], _, _, hk, h => by cases h; exact hk
  | map :: rest, maps, out, hk, h => by
    unfold loadMaps at h
    split at h
    · cases h
    · rename_i entry hentry
      split at h
      · cases h
      · refine loadMaps_keyed ?_ h
        intro e he
        rcases List.mem_append.1 he with he | he
        · exact hk e he
        · cases List.mem_singleton.1 he
          exact mapMeta_mapId hentry

theorem MapTable.Keyed.get? {maps : MapTable} (hk : MapTable.Keyed maps) {id : MapId} {m : MapCoordMeta}
    (h : maps.get? id = some m) :
    m.mapId = id := by
  unfold MapTable.get? at h
  obtain ⟨e, he, rfl⟩ := Option.map_eq_some_iff.1 h
  have hid : e.1 = id := by simpa using List.find?_some he
  rw [hk e (List.mem_of_find?_eq_some he), hid]

/-- What the loop over the start configurations has made of them: each is on a map of the table, and the first
configuration of an empire is the one that is kept. -/
theorem loadStarts_spec {maps : MapTable} :
    ∀ {configs : List EmpireStartConfig} {starts out : Empire → Option EmpireStart},
    loadStarts maps starts configs = .ok out → ∀ empire,
      (∀ start, starts empire = some start → out empire = some start) ∧
      (∀ start, out empire = some start → starts empire = some start ∨
        ((maps.get? start.mapId).isSome ∧
          (configs.find? fun config => config.empire = empire).map (fun config => MapId.mk config.startMapId) =
            some start.mapId))
  | [], starts, out, h, empire => by
    cases h
    exact ⟨fun _ hs => hs, fun _ hs => .inl hs⟩
  | config :: rest, starts, out, h, empire => by
    unfold loadStarts at h
    split at h
    · cases h
    split at h
    · cases h
    rename_i map hmap
    split at h
    · cases h
    split at h
    · cases h
    rename_i hnew
    obtain ⟨hkeep, hfrom⟩ := loadStarts_spec h empire
    by_cases he : empire = config.empire
    · subst he
      have hnone : starts config.empire = none := by simpa using hnew
      have hself := hkeep _ (Function.update_self ..)
      refine ⟨fun start hs => absurd (hnone.symm.trans hs) (by simp), fun start hs => .inr ?_⟩
      rw [hself] at hs
      cases hs
      exact ⟨by rw [hmap]; rfl, by simp⟩
    · have hne : ∀ v, Function.update starts config.empire v empire = starts empire := by
        intro v
        rw [Function.update_of_ne he]
      refine ⟨fun start hs => hkeep start ((hne _).trans hs), fun start hs => ?_⟩
      rcases hfrom start hs with h1 | ⟨h1, h2⟩
      · exact .inl ((hne _).symm.trans h1)
      · refine .inr ⟨h1, ?_⟩
        rw [List.find?_cons_of_neg (by simpa using Ne.symm he)]
        exact h2

end ContentCoords

/-- What an accepted catalog promises: every map stands under its own id, and the start of an empire is on a map of the
table, the one of the catalog's first configuration for it. -/
structure ContentCoords.Accepted (coords : ContentCoords) (catalog : ContentCatalog) : Prop where
  keyed : ContentCoords.MapTable.Keyed coords.maps
  startKnown : ∀ empire, (coords.maps.get? (coords.empireStarts empire).mapId).isSome
  startConfig : ∀ empire, (catalog.empireStartConfigs.find? fun config => config.empire = empire).map
    (fun config => MapId.mk config.startMapId) = some (coords.empireStarts empire).mapId

theorem ContentCoords.accepted_of_fromCatalog {catalog : ContentCatalog} {coords : ContentCoords}
    (h : ContentCoords.fromCatalog catalog = .ok coords) : coords.Accepted catalog := by
  unfold ContentCoords.fromCatalog at h
  split at h
  · cases h
  rename_i maps hmaps
  split at h
  · cases h
  split at h
  · cases h
  split at h
  · cases h
  rename_i starts hstarts
  split at h
  · cases h
  · cases h
  · cases h
  rename_i red yellow blue hred hyellow hblue
  cases h
  have hspec := ContentCoords.loadStarts_spec hstarts
  have hstart : ∀ empire start, starts empire = some start → (maps.get? start.mapId).isSome ∧
      (catalog.empireStartConfigs.find? fun config => config.empire = empire).map
        (fun config => MapId.mk config.startMapId) = some start.mapId := by
    intro empire start hs
    rcases (hspec empire).2 start hs with h | h
    · cases h
    · exact h
  refine ⟨ContentCoords.loadMaps_keyed (by rintro _ ⟨⟩) hmaps, ?_, ?_⟩
  · rintro (_ | _ | _)
    · exact (hstart .red red hred).1
    · exact (hstart .yellow yellow hyellow).1
    · exact (hstart .blue blue hblue).1
  · rintro (_ | _ | _)
    · exact (hstart .red red hred).2
    · exact (hstart .yellow yellow hyellow).2
    · exact (hstart .blue blue hblue).2

theorem EmpireStartMaps.raw_ne_empty {id : MapId} (h : ¬ EmpireStartMaps.isBlank id = true) : id.raw ≠ "" := by
  intro hraw
  exact h (by rw [EmpireStartMaps.isBlank, hraw]; rfl)

/-- With the options taken from the catalog, the gateway's start maps are those of the core, and none is empty. -/
theorem EmpireStartMaps.ofCatalog_spec {catalog : ContentCatalog} {coords : ContentCoords} {starts : EmpireStartMaps}
    (hc : coords.Accepted catalog) (hs : EmpireStartMaps.ofCatalog catalog = .ok starts) (empire : Empire) :
    starts.mapIdForEmpire empire = (coords.empireStarts empire).mapId ∧ (starts.mapIdForEmpire empire).raw ≠ "" := by
  have hoption : ∀ empire default, (((catalog.empireStartConfigs.find? fun start => start.empire = empire).map
      (·.startMapId)).map MapId.mk).getD default = (coords.empireStarts empire).mapId := by
    intro empire default
    rw [Option.map_map]
    exact congrArg (Option.getD · default) (hc.startConfig empire)
  unfold EmpireStartMaps.ofCatalog EmpireStartMaps.validate at hs
  dsimp only at hs
  split at hs
  · cases hs
  rename_i hred
  split at hs
  · cases hs
  rename_i hyellow
  split at hs
  · cases hs
  rename_i hblue
  cases hs
  cases empire with
  | red => exact ⟨hoption .red _, EmpireStartMaps.raw_ne_empty hred⟩
  | yellow => exact ⟨hoption .yellow _, EmpireStartMaps.raw_ne_empty hyellow⟩
  | blue => exact ⟨hoption .blue _, EmpireStartMaps.raw_ne_empty hblue⟩

/-! ## Gateway and core -/

/-- The row names a map of the catalog and a position within its bounds. -/
def ContentCoords.holds (coords : ContentCoords) (row : Option RuntimeRow) : Bool :=
  (row.bind ContentCoords.persistedFromRuntimeState).any fun saved =>
    (coords.maps.get? saved.mapKey).any fun map => map.containsLocal ⟨saved.localX, saved.localY⟩

theorem ContentCoords.persistedFromRuntimeState_mapKey {row : RuntimeRow} {saved : PersistedPlayerPos}
    (h : ContentCoords.persistedFromRuntimeState row = some saved) : row.mapKey = some saved.mapKey.raw := by
  unfold ContentCoords.persistedFromRuntimeState at h
  split at h
  · rename_i hkey _ _
    cases h
    exact hkey
  · cases h

/-- A core loads a player on the map of its row where the row holds, and on the empire's start map otherwise. -/
theorem ContentCoords.resolveSpawnForPlayer_mapId {catalog : ContentCatalog} {coords : ContentCoords}
    (hc : coords.Accepted catalog) (row : Option RuntimeRow) (empire : Empire) :
    (coords.holds row = true ∧ ∃ key, row.bind (·.mapKey) = some key ∧
      (coords.resolveSpawnForPlayer row empire).map (·.mapId) = some ⟨key⟩) ∨
    (coords.holds row = false ∧
      (coords.resolveSpawnForPlayer row empire).map (·.mapId) = some (coords.empireStarts empire).mapId) := by
  have hfallback : ((coords.maps.get? (coords.empireStarts empire).mapId).map fun _ =>
      (⟨(coords.empireStarts empire).mapId, ⟨(coords.empireStarts empire).localX, (coords.empireStarts empire).localY⟩,
        true⟩ : ResolvedSpawn)).map (·.mapId) = some (coords.empireStarts empire).mapId := by
    obtain ⟨m, hm⟩ := Option.isSome_iff_exists.1 (hc.startKnown empire)
    rw [hm]
    rfl
  unfold ContentCoords.holds ContentCoords.resolveSpawnForPlayer ContentCoords.resolveSpawn
  cases hsaved : row.bind ContentCoords.persistedFromRuntimeState with
  | none => exact .inr ⟨rfl, hfallback⟩
  | some saved =>
    cases hmap : coords.maps.get? saved.mapKey with
    | none => exact .inr ⟨by simp [hmap], by simpa [hmap] using hfallback⟩
    | some map =>
      by_cases hin : map.containsLocal ⟨saved.localX, saved.localY⟩ = true
      · left
        refine ⟨by simp [hmap, hin], saved.mapKey.raw, ?_, ?_⟩
        · obtain ⟨r, rfl, hr⟩ := Option.bind_eq_some_iff.1 hsaved
          exact ContentCoords.persistedFromRuntimeState_mapKey hr
        · simp [hmap, hin, hc.keyed.get? hmap]
      · exact .inr ⟨by simpa [hmap] using hin, by simpa [hmap, hin] using hfallback⟩

/-- The gateway names the map that the core resolves, so a core of that map does not turn the player away. -/
structure MapAgreement (coords : ContentCoords) (starts : EmpireStartMaps) (row : Option RuntimeRow) (empire : Empire) :
    Prop where
  sameMap : resolvePlayerMapId (.gateway starts) row empire = (coords.resolveSpawnForPlayer row empire).map (·.mapId)
  rightCore : ∀ isDraining coreMap spawn, resolvePlayerMapId (.gateway starts) row empire = some coreMap →
    coords.resolveSpawnForPlayer row empire = some spawn →
    prepareIngame isDraining coreMap spawn.mapId ≠ .error .wrongMapCore

theorem mapAgreement_iff_sameMap {coords : ContentCoords} {starts : EmpireStartMaps} {row : Option RuntimeRow}
    {empire : Empire} : MapAgreement coords starts row empire ↔
      resolvePlayerMapId (.gateway starts) row empire = (coords.resolveSpawnForPlayer row empire).map (·.mapId) := by
  constructor
  · exact fun h => h.sameMap
  · intro h
    refine ⟨h, ?_⟩
    rintro isDraining coreMap spawn hcore hspawn
    rw [hcore, hspawn, Option.map_some, Option.some.injEq] at h
    unfold prepareIngame
    rw [if_neg (not_not.2 h.symm)]
    split <;> simp

/-- The stored map key is missing, or it names a map that has the stored position, or the empire's start map; and an
empty key, which the gateway takes for a missing one, is no map that has the position. -/
def KeyUsable (coords : ContentCoords) (row : Option RuntimeRow) (empire : Empire) : Prop :=
  match row.bind (·.mapKey) with
  | none => True
  | some key =>
    if key = "" then coords.holds row = false
    else coords.holds row = true ∨ MapId.mk key = (coords.empireStarts empire).mapId

/-- The gateway takes an empty key for a missing one. -/
theorem resolvePlayerMapId_gateway (starts : EmpireStartMaps) (row : Option RuntimeRow) (empire : Empire) :
    resolvePlayerMapId (.gateway starts) row empire =
      some (match row.bind (·.mapKey) with
        | none => starts.mapIdForEmpire empire
        | some key => if key = "" then starts.mapIdForEmpire empire else ⟨key⟩) := by
  unfold resolvePlayerMapId
  dsimp only
  cases row.bind (·.mapKey) with
  | none => rfl
  | some key =>
    by_cases hempty : key = ""
    · subst hempty; rfl
    · have hkeep : (some key).filter (fun key => decide (key ≠ "")) = some key :=
        Option.filter_some_pos (by simpa using hempty)
      rw [hkeep]
      dsimp only
      rw [if_neg hempty]

/-- For every accepted catalog, row and empire, with the gateway's start maps from the same catalog: gateway and core
agree on the character's map exactly when its key is usable. -/
theorem gateway_core_agree_iff {catalog : ContentCatalog} {coords : ContentCoords} {starts : EmpireStartMaps}
    (hc : ContentCoords.fromCatalog catalog = .ok coords) (hs : EmpireStartMaps.ofCatalog catalog = .ok starts)
    (row : Option RuntimeRow) (empire : Empire) :
    MapAgreement coords starts row empire ↔ KeyUsable coords row empire := by
  have hacc := ContentCoords.accepted_of_fromCatalog hc
  obtain ⟨hstart, hne⟩ := EmpireStartMaps.ofCatalog_spec hacc hs empire
  rw [mapAgreement_iff_sameMap, resolvePlayerMapId_gateway]
  unfold KeyUsable
  rcases ContentCoords.resolveSpawnForPlayer_mapId hacc row empire with ⟨hholds, key, hkey, hcore⟩ | ⟨hholds, hcore⟩
  · rw [hcore, hkey, hholds]
    by_cases hempty : key = ""
    · subst hempty
      have hother : starts.mapIdForEmpire empire ≠ ⟨""⟩ := fun h => hne (congrArg MapId.raw h)
      simp [hother]
    · simp [hempty]
  · rw [hcore, hholds]
    cases hkey : row.bind (·.mapKey) with
    | none => simp [hstart]
    | some key =>
      by_cases hempty : key = ""
      · simp [hempty, hstart]
      · simp [hempty]

/-- Three maps of 1024 by 1280 metres, each an empire's start at (10, 10). -/
def startCatalog : ContentCatalog where
  maps := [⟨"metin2_map_a1", 0x44800000, 0x44a00000, some .red, some 0, some 0⟩,
    ⟨"metin2_map_b1", 0x44800000, 0x44a00000, some .yellow, some 0x44800000, some 0⟩,
    ⟨"metin2_map_c1", 0x44800000, 0x44a00000, some .blue, some 0x45000000, some 0⟩]
  townSpawns := [⟨"metin2_map_a1", .red, 0x41200000, 0x41200000⟩]
  empireStartConfigs := [⟨.red, "metin2_map_a1", 0x41200000, 0x41200000⟩,
    ⟨.yellow, "metin2_map_b1", 0x41200000, 0x41200000⟩, ⟨.blue, "metin2_map_c1", 0x41200000, 0x41200000⟩]

/-- A row on the red start map. -/
def rowAt (x y : Option UInt32) : RuntimeRow := ⟨some "metin2_map_a1", x, y, none, none, none, .initial, 0⟩

/-- A yellow character that stands in the red start map. -/
theorem gateway_core_agree_iff_in_bounds : ∃ coords starts, ContentCoords.fromCatalog startCatalog = .ok coords ∧
    EmpireStartMaps.ofCatalog startCatalog = .ok starts ∧
    MapAgreement coords starts (some (rowAt (some 0x43480000) (some 0x43480000))) .yellow := by
  obtain ⟨coords, hc, hholds⟩ : ∃ coords, ContentCoords.fromCatalog startCatalog = .ok coords ∧
      coords.holds (some (rowAt (some 0x43480000) (some 0x43480000))) = true := ⟨_, rfl, by decide⟩
  obtain ⟨starts, hs⟩ : ∃ starts, EmpireStartMaps.ofCatalog startCatalog = .ok starts := ⟨_, rfl⟩
  exact ⟨coords, starts, hc, hs, (gateway_core_agree_iff hc hs _ _).2 (.inl hholds)⟩

/-- The same character with a position beyond the map: the gateway sends it to the red start map, the core loads it on
the yellow one and turns it away. -/
theorem gateway_core_disagree : ∃ coords starts spawn, ContentCoords.fromCatalog startCatalog = .ok coords ∧
    EmpireStartMaps.ofCatalog startCatalog = .ok starts ∧
    resolvePlayerMapId (.gateway starts) (some (rowAt (some 0x459c4000) (some 0x43480000))) .yellow =
      some ⟨"metin2_map_a1"⟩ ∧
    coords.resolveSpawnForPlayer (some (rowAt (some 0x459c4000) (some 0x43480000))) .yellow = some spawn ∧
    spawn.mapId = ⟨"metin2_map_b1"⟩ ∧ prepareIngame false ⟨"metin2_map_a1"⟩ spawn.mapId = .error .wrongMapCore ∧
    ¬ MapAgreement coords starts (some (rowAt (some 0x459c4000) (some 0x43480000))) .yellow := by
  refine ⟨_, _, _, rfl, rfl, rfl, rfl, rfl, rfl, fun h => ?_⟩
  exact absurd h.sameMap (by decide)

end Zohar.Game
