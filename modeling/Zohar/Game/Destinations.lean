/-
Which map a place of the world is on, and where in a town a player comes back. From zohar-gamesrv/src/coords.rs. Both
go through a hash map in whatever order it has, so that order is a parameter. The coordinates are exact: counted in
units of `2^-149`, of which every finite `f32` is a multiple, with differences that are not rounded.
-/
import Zohar.Game.Placement
import Zohar.Lib.Sole

namespace Zohar.Game

open Zohar.Db Zohar.Lib

/-! ## The lookups -/

structure ExactPos where
  x : Int
  y : Int
  deriving DecidableEq, Repr

def MapCoordMeta.containsExact (m : MapCoordMeta) (pos : ExactPos) : Bool :=
  decide (0 ≤ pos.x ∧ pos.x < f32Units m.mapWidth) && decide (0 ≤ pos.y ∧ pos.y < f32Units m.mapHeight)

def MapCoordMeta.toLocal (m : MapCoordMeta) (world : ExactPos) : Option ExactPos :=
  let pos : ExactPos := ⟨world.x - f32Units m.baseX, world.y - f32Units m.baseY⟩
  if m.containsExact pos then some pos else none

/-- The town spawns under their keys. -/
abbrev TownSpawnTable := List ((MapId × Empire) × LocalPos)

namespace ContentCoords

def resolveWorldDestination (order : MapTable) (world : ExactPos) : Option (MapId × ExactPos) :=
  sole (fun entry => (entry.2.toLocal world).map fun pos => (entry.1, pos)) none order

def resolveTownSpawnInOrder (coords : ContentCoords) (order : TownSpawnTable) (mapId : MapId)
    (preferredEmpire : Empire) :
    Option LocalPos :=
  match coords.townSpawns.find? fun entry => entry.1 = (mapId, preferredEmpire) with
  | some entry => some entry.2
  | none => sole (fun entry => if entry.1.1 ≠ mapId then none else some entry.2) none order

def resolveTownRestartInOrder (coords : ContentCoords) (order : TownSpawnTable) (mapId : MapId) (empire : Empire) :
    ResolvedSpawn :=
  match coords.resolveTownSpawnInOrder order mapId empire with
  | some localPos => ⟨mapId, localPos, false⟩
  | none =>
    let start := coords.empireStarts empire
    ⟨start.mapId, ⟨start.localX, start.localY⟩, true⟩

/-- The loop in the order of the insertions is one of the scans. -/
theorem townSpawnFallback_eq_sole (mapId : MapId) : ∀ (spawns : TownSpawnTable) (fallback : Option LocalPos),
    townSpawnFallback mapId fallback spawns =
      sole (fun entry => if entry.1.1 ≠ mapId then none else some entry.2) fallback spawns
  | [], _ => rfl
  | ((spawnMapId, empire), pos) :: rest, fallback => by
    unfold townSpawnFallback sole
    by_cases hmap : spawnMapId ≠ mapId
    · rw [if_pos hmap, if_pos hmap]
      exact townSpawnFallback_eq_sole mapId rest fallback
    · rw [if_neg hmap, if_neg hmap]
      dsimp only
      rw [townSpawnFallback_eq_sole mapId rest (some pos)]

theorem resolveTownSpawn_eq (coords : ContentCoords) (mapId : MapId) (preferredEmpire : Empire) :
    coords.resolveTownSpawn mapId preferredEmpire =
      coords.resolveTownSpawnInOrder coords.townSpawns mapId preferredEmpire := by
  unfold resolveTownSpawn resolveTownSpawnInOrder
  cases coords.townSpawns.find? fun entry => entry.1 = (mapId, preferredEmpire) with
  | some entry => rfl
  | none => exact townSpawnFallback_eq_sole mapId coords.townSpawns none

end ContentCoords

/-! ## What a catalog says -/

/-- The rectangle of a map, without its far edges, has a place of the world in it, `pos` from its origin. -/
structure ContentMap.Covers (map : ContentMap) (world pos : ExactPos) : Prop where
  originX : ∃ baseX, map.baseX = some baseX ∧ world.x = f32Units baseX + pos.x
  originY : ∃ baseY, map.baseY = some baseY ∧ world.y = f32Units baseY + pos.y
  x : 0 ≤ pos.x ∧ pos.x < f32Units map.mapWidth
  y : 0 ≤ pos.y ∧ pos.y < f32Units map.mapHeight

/-- The catalog has a spawn for an empire on a map. -/
def ContentCatalog.HasSpawn (catalog : ContentCatalog) (mapId : MapId) (empire : Empire) (pos : LocalPos) : Prop :=
  ∃ spawn ∈ catalog.townSpawns, ⟨spawn.mapId⟩ = mapId ∧ spawn.empire = empire ∧ (⟨spawn.x, spawn.y⟩ : LocalPos) = pos

/-! ## What the tables of an accepted catalog hold -/

namespace ContentCoords

/-- An entry that passes the checks has the placement and the size of its map. -/
theorem mapMeta_placement {map : ContentMap} {entry : MapCoordMeta} (h : mapMeta map = .ok entry) :
    map.baseX = some entry.baseX ∧ map.baseY = some entry.baseY ∧ entry.mapWidth = map.mapWidth ∧
      entry.mapHeight = map.mapHeight := by
  unfold mapMeta at h
  split at h
  · cases h
  · cases h
  rename_i hx hy
  split at h
  · cases h
  split at h
  · cases h
  split at h
  · cases h
  split at h
  · cases h
  cases h
  exact ⟨hx, hy, rfl, rfl⟩

theorem toLocal_eq_some_iff {map : ContentMap} {entry : MapCoordMeta} (h : mapMeta map = .ok entry)
    {world pos : ExactPos} : entry.toLocal world = some pos ↔ map.Covers world pos := by
  obtain ⟨hx, hy, hw, hh⟩ := mapMeta_placement h
  unfold MapCoordMeta.toLocal MapCoordMeta.containsExact
  simp only [Bool.and_eq_true, decide_eq_true_eq, Option.ite_none_right_eq_some, Option.some.injEq, hw, hh]
  constructor
  · rintro ⟨⟨hinX, hinY⟩, rfl⟩
    exact ⟨⟨_, hx, by simp⟩, ⟨_, hy, by simp⟩, hinX, hinY⟩
  · rintro ⟨⟨baseX, hbx, hox⟩, ⟨baseY, hby, hoy⟩, hinX, hinY⟩
    obtain rfl := Option.some.inj (hx.symm.trans hbx)
    obtain rfl := Option.some.inj (hy.symm.trans hby)
    have hposX : world.x - f32Units entry.baseX = pos.x := by omega
    have hposY : world.y - f32Units entry.baseY = pos.y := by omega
    rw [hposX, hposY]
    exact ⟨⟨hinX, hinY⟩, rfl⟩

/-- A key that a lookup does not find is new, and stays the only one of its kind when it is appended. -/
theorem nodup_keys_append {κ α : Type} {l : List (κ × α)} {k : κ} (v : α) (hn : (l.map (·.1)).Nodup)
    (hnew : ∀ e ∈ l, e.1 ≠ k) : ((l ++ [(k, v)]).map (·.1)).Nodup := by
  rw [List.map_append, List.map_singleton, List.nodup_append]
  refine ⟨hn, List.nodup_singleton _, ?_⟩
  intro a ha b hb
  obtain ⟨e, he, rfl⟩ := List.mem_map.1 ha
  rw [List.mem_singleton.1 hb]
  exact hnew e he

/-- The table of maps has an entry for each map of the content, each under an id of its own. -/
theorem loadMaps_spec : ∀ {content : List ContentMap} {maps out : MapTable}, loadMaps maps content = .ok out →
    (maps.map (·.1)).Nodup → (out.map (·.1)).Nodup ∧ ∃ entries, out = maps ++ entries ∧
      List.Forall₂ (fun map entry => entry.1 = ⟨map.mapId⟩ ∧ mapMeta map = .ok entry.2) content entries
  | [], maps, out, h, hn => by
    cases h
    exact ⟨hn, [], (List.append_nil _).symm, .nil⟩
  | map :: rest, maps, out, h, hn => by
    unfold loadMaps at h
    split at h
    · cases h
    rename_i entry hentry
    split at h
    · cases h
    rename_i hnew
    have hfresh : ∀ e ∈ maps, e.1 ≠ ⟨map.mapId⟩ := by
      intro e he heq
      refine hnew ?_
      unfold MapTable.get?
      rw [Option.isSome_map, List.find?_isSome]
      exact ⟨e, he, by simpa using heq⟩
    obtain ⟨hout, entries, rfl, hall⟩ := loadMaps_spec h (nodup_keys_append entry hn hfresh)
    exact ⟨hout, (⟨map.mapId⟩, entry) :: entries, by simp, .cons ⟨rfl, hentry⟩ hall⟩

/-- The table of town spawns has those of the content, each under a key of its own. -/
theorem loadTownSpawns_spec {maps : MapTable} : ∀ {content : List MapTownSpawn} {spawns out : TownSpawnTable},
    loadTownSpawns maps spawns content = .ok out → (spawns.map (·.1)).Nodup → (out.map (·.1)).Nodup ∧
      out = spawns ++ content.map fun spawn => ((⟨spawn.mapId⟩, spawn.empire), ⟨spawn.x, spawn.y⟩)
  | [], spawns, out, h, hn => by
    cases h
    exact ⟨hn, (List.append_nil _).symm⟩
  | spawn :: rest, spawns, out, h, hn => by
    unfold loadTownSpawns at h
    split at h
    · cases h
    split at h
    · cases h
    split at h
    · cases h
    rename_i hnew
    have hfresh : ∀ e ∈ spawns, e.1 ≠ (⟨spawn.mapId⟩, spawn.empire) := by
      intro e he heq
      exact hnew (List.any_eq_true.2 ⟨e, he, by simpa using heq⟩)
    obtain ⟨hout, rfl⟩ := loadTownSpawns_spec h (nodup_keys_append ⟨spawn.x, spawn.y⟩ hn hfresh)
    exact ⟨hout, by simp⟩

/-- The tables that an accepted catalog is made into. -/
structure Tables (coords : ContentCoords) (catalog : ContentCatalog) : Prop where
  mapKeys : (coords.maps.map (·.1)).Nodup
  maps : List.Forall₂ (fun map entry => entry.1 = ⟨map.mapId⟩ ∧ mapMeta map = .ok entry.2) catalog.maps coords.maps
  spawnKeys : (coords.townSpawns.map (·.1)).Nodup
  spawns : coords.townSpawns =
    catalog.townSpawns.map fun spawn => ((⟨spawn.mapId⟩, spawn.empire), ⟨spawn.x, spawn.y⟩)

theorem tables_of_fromCatalog {catalog : ContentCatalog} {coords : ContentCoords}
    (h : fromCatalog catalog = .ok coords) :
    coords.Tables catalog := by
  unfold fromCatalog at h
  split at h
  · cases h
  rename_i maps hmaps
  split at h
  · cases h
  split at h
  · cases h
  rename_i spawns hspawns
  split at h
  · cases h
  split at h
  · cases h
  · cases h
  · cases h
  cases h
  obtain ⟨hmapKeys, entries, rfl, hall⟩ := loadMaps_spec hmaps .nil
  obtain ⟨hspawnKeys, rfl⟩ := loadTownSpawns_spec hspawns .nil
  exact ⟨hmapKeys, hall, hspawnKeys, rfl⟩

namespace Tables

variable {coords : ContentCoords} {catalog : ContentCatalog}

theorem hasSpawn_iff (h : coords.Tables catalog) {mapId : MapId} {empire : Empire} {pos : LocalPos} :
    catalog.HasSpawn mapId empire pos ↔ ((mapId, empire), pos) ∈ coords.townSpawns := by
  rw [h.spawns, List.mem_map]
  unfold ContentCatalog.HasSpawn
  simp only [Prod.mk.injEq, and_assoc]

/-- Every map of the catalog has its entry, and every entry its map. -/
theorem exists_entry (h : coords.Tables catalog) {map : ContentMap} (hmap : map ∈ catalog.maps) :
    ∃ entry ∈ coords.maps, entry.1 = ⟨map.mapId⟩ ∧ mapMeta map = .ok entry.2 := by
  obtain ⟨i, hi, rfl⟩ := List.getElem_of_mem hmap
  have hlen := h.maps.length_eq
  exact ⟨coords.maps.get ⟨i, hlen ▸ hi⟩, List.get_mem .., h.maps.get hi (hlen ▸ hi)⟩

theorem exists_map (h : coords.Tables catalog) {entry : MapId × MapCoordMeta} (hentry : entry ∈ coords.maps) :
    ∃ map ∈ catalog.maps, entry.1 = ⟨map.mapId⟩ ∧ mapMeta map = .ok entry.2 := by
  obtain ⟨i, hi, rfl⟩ := List.getElem_of_mem hentry
  have hlen := h.maps.length_eq
  exact ⟨catalog.maps.get ⟨i, hlen ▸ hi⟩, List.get_mem .., h.maps.get (hlen ▸ hi) hi⟩

theorem entry_unique (h : coords.Tables catalog) {e e' : MapId × MapCoordMeta} (he : e ∈ coords.maps)
    (he' : e' ∈ coords.maps) (hid : e.1 = e'.1) : e = e' :=
  List.inj_on_of_nodup_map h.mapKeys he he' hid

/-- A place of the world is resolved to the one map that covers it, whatever the order of the table. -/
theorem resolveWorldDestination_eq_some_iff (h : coords.Tables catalog) {order : MapTable}
    (horder : order.Perm coords.maps) {world pos : ExactPos} {mapId : MapId} :
    resolveWorldDestination order world = some (mapId, pos) ↔
      ∃ map ∈ catalog.maps, ⟨map.mapId⟩ = mapId ∧ map.Covers world pos ∧
        ∀ other ∈ catalog.maps, (∃ pos', other.Covers world pos') → other.mapId = map.mapId := by
  unfold resolveWorldDestination
  rw [sole_perm horder, sole_eq_some_iff (List.Nodup.of_map _ h.mapKeys)]
  simp only [Option.map_eq_some_iff, Prod.mk.injEq, Option.isSome_map]
  constructor
  · rintro ⟨entry, hentry, ⟨pos', hpos, rfl, rfl⟩, hsole⟩
    obtain ⟨map, hmap, hid, hmeta⟩ := h.exists_map hentry
    refine ⟨map, hmap, hid.symm, (toLocal_eq_some_iff hmeta).1 hpos, ?_⟩
    rintro other hother ⟨pos'', hcovers⟩
    obtain ⟨entry', hentry', hid', hmeta'⟩ := h.exists_entry hother
    have hsame := hsole entry' hentry' (by rw [(toLocal_eq_some_iff hmeta').2 hcovers]; rfl)
    rw [hsame, hid] at hid'
    exact (congrArg MapId.raw hid').symm
  · rintro ⟨map, hmap, rfl, hcovers, hsole⟩
    obtain ⟨entry, hentry, hid, hmeta⟩ := h.exists_entry hmap
    refine ⟨entry, hentry, ⟨pos, (toLocal_eq_some_iff hmeta).2 hcovers, hid, rfl⟩, ?_⟩
    intro entry' hentry' hsome
    obtain ⟨other, hother, hid', hmeta'⟩ := h.exists_map hentry'
    obtain ⟨pos', hpos'⟩ := Option.isSome_iff_exists.1 hsome
    have hsame := hsole other hother ⟨pos', (toLocal_eq_some_iff hmeta').1 hpos'⟩
    exact h.entry_unique hentry' hentry (by rw [hid', hid, hsame])

theorem hasSpawn_unique (h : coords.Tables catalog) {mapId : MapId} {empire : Empire} {pos pos' : LocalPos}
    (hp : catalog.HasSpawn mapId empire pos) (hp' : catalog.HasSpawn mapId empire pos') : pos = pos' :=
  congrArg Prod.snd (List.inj_on_of_nodup_map h.spawnKeys (h.hasSpawn_iff.1 hp) (h.hasSpawn_iff.1 hp') rfl)

/-- A town's spawn is that of the empire, or else the only one on the map, whatever the order of the table. -/
theorem resolveTownSpawnInOrder_eq_some_iff (h : coords.Tables catalog) {order : TownSpawnTable}
    (horder : order.Perm coords.townSpawns) {mapId : MapId} {empire : Empire} {pos : LocalPos} :
    coords.resolveTownSpawnInOrder order mapId empire = some pos ↔
      catalog.HasSpawn mapId empire pos ∨
        (∀ pos', ¬ catalog.HasSpawn mapId empire pos') ∧ ∃ only, catalog.HasSpawn mapId only pos ∧
          ∀ other pos', catalog.HasSpawn mapId other pos' → other = only := by
  unfold resolveTownSpawnInOrder
  cases hfind : coords.townSpawns.find? fun entry => entry.1 = (mapId, empire) with
  | some entry =>
    obtain ⟨key, found⟩ := entry
    have hkey : key = (mapId, empire) := by simpa using List.find?_some hfind
    subst hkey
    have hhas : catalog.HasSpawn mapId empire found := h.hasSpawn_iff.2 (List.mem_of_find?_eq_some hfind)
    simp only [Option.some.injEq]
    constructor
    · rintro rfl
      exact .inl hhas
    · rintro (hpos | ⟨hnone, -⟩)
      · exact h.hasSpawn_unique hhas hpos
      · exact absurd hhas (hnone found)
  | none =>
    have hnone : ∀ pos', ¬ catalog.HasSpawn mapId empire pos' := by
      intro pos' hhas
      have := List.find?_eq_none.1 hfind _ (h.hasSpawn_iff.1 hhas)
      simp at this
    dsimp only
    rw [sole_perm horder, sole_eq_some_iff (List.Nodup.of_map _ h.spawnKeys)]
    simp only [ne_eq, ite_not, Option.ite_none_right_eq_some, Option.some.injEq, Option.isSome_ite]
    constructor
    · rintro ⟨⟨⟨_, only⟩, _⟩, hmem, ⟨rfl, rfl⟩, hsole⟩
      refine .inr ⟨hnone, only, h.hasSpawn_iff.2 hmem, ?_⟩
      intro other pos' hhas
      have hsame := hsole _ (h.hasSpawn_iff.1 hhas) rfl
      exact congrArg (·.1.2) hsame
    · rintro (hpos | ⟨-, only, hpos, hsole⟩)
      · exact absurd hpos (hnone pos)
      · refine ⟨((mapId, only), pos), h.hasSpawn_iff.1 hpos, ⟨rfl, rfl⟩, ?_⟩
        rintro ⟨⟨_, other⟩, pos'⟩ hmem rfl
        have hhas := h.hasSpawn_iff.2 hmem
        obtain rfl := hsole other pos' hhas
        rw [h.hasSpawn_unique hhas hpos]

/-- A restart in a town ends in the same place in whatever order the table is gone through. -/
theorem resolveTownRestartInOrder_eq (h : coords.Tables catalog) {order : TownSpawnTable}
    (horder : order.Perm coords.townSpawns) (mapId : MapId) (empire : Empire) :
    coords.resolveTownRestartInOrder order mapId empire = coords.resolveTownRestart mapId empire := by
  have hspawn : coords.resolveTownSpawnInOrder order mapId empire = coords.resolveTownSpawn mapId empire := by
    refine Option.ext fun pos => ?_
    rw [resolveTownSpawn_eq, h.resolveTownSpawnInOrder_eq_some_iff horder,
      h.resolveTownSpawnInOrder_eq_some_iff (List.Perm.refl _)]
  unfold resolveTownRestartInOrder resolveTownRestart
  cases hown : coords.resolveTownSpawn mapId empire with
  | some localPos => simp only [hspawn.trans hown]
  | none => simp only [hspawn.trans hown]

end Tables

end ContentCoords

/-- For every accepted catalog and all orders of the two tables. -/
theorem resolution_unordered {catalog : ContentCatalog} {coords : ContentCoords}
    (hc : ContentCoords.fromCatalog catalog = .ok coords) {mapOrder : MapTable}
    (hmaps : mapOrder.Perm coords.maps) {spawnOrder : TownSpawnTable} (hspawns : spawnOrder.Perm coords.townSpawns) :
    (∀ world mapId pos, ContentCoords.resolveWorldDestination mapOrder world = some (mapId, pos) ↔
      ∃ map ∈ catalog.maps, ⟨map.mapId⟩ = mapId ∧ map.Covers world pos ∧
        ∀ other ∈ catalog.maps, (∃ pos', other.Covers world pos') → other.mapId = map.mapId) ∧
    ∀ mapId empire pos, coords.resolveTownSpawnInOrder spawnOrder mapId empire = some pos ↔
      catalog.HasSpawn mapId empire pos ∨
        (∀ pos', ¬ catalog.HasSpawn mapId empire pos') ∧ ∃ only, catalog.HasSpawn mapId only pos ∧
          ∀ other pos', catalog.HasSpawn mapId other pos' → other = only := by
  have htables := ContentCoords.tables_of_fromCatalog hc
  constructor
  · intro world mapId pos
    exact htables.resolveWorldDestination_eq_some_iff hmaps
  · intro mapId empire pos
    exact htables.resolveTownSpawnInOrder_eq_some_iff hspawns

/-- The place ten metres into the yellow start map, and the spawn of the only empire that has one in the red town, with
both tables reversed. -/
theorem resolution_unordered_reversed : ∃ coords, ContentCoords.fromCatalog startCatalog = .ok coords ∧
    ContentCoords.resolveWorldDestination coords.maps.reverse ⟨1034 * 2 ^ 149, 10 * 2 ^ 149⟩ =
      some (⟨"metin2_map_b1"⟩, ⟨10 * 2 ^ 149, 10 * 2 ^ 149⟩) ∧
    coords.resolveTownSpawnInOrder coords.townSpawns.reverse ⟨"metin2_map_a1"⟩ .blue =
      some ⟨0x41200000, 0x41200000⟩ := by
  obtain ⟨coords, hc⟩ : ∃ coords, ContentCoords.fromCatalog startCatalog = .ok coords := ⟨_, rfl⟩
  obtain ⟨hworld, htown⟩ := resolution_unordered hc coords.maps.reverse_perm coords.townSpawns.reverse_perm
  refine ⟨coords, hc, (hworld _ _ _).2 ?_, (htown _ _ _).2 ?_⟩
  · refine ⟨⟨"metin2_map_b1", 0x44800000, 0x44a00000, some .yellow, some 0x44800000, some 0⟩, by decide, rfl, ?_, ?_⟩
    · exact ⟨⟨_, rfl, by decide⟩, ⟨_, rfl, by decide⟩, by decide, by decide⟩
    · rintro other hother ⟨pos', ⟨baseX, hbase, horigin⟩, -, hx, -⟩
      have hunits : f32Units 0 = 0 ∧ f32Units 0x45000000 = 2048 * 2 ^ 149 ∧ f32Units 0x44800000 = 1024 * 2 ^ 149 := by
        decide
      simp only [startCatalog, List.mem_cons, List.not_mem_nil, or_false] at hother
      rcases hother with rfl | rfl | rfl
      · cases hbase
        dsimp only at hx horigin
        omega
      · rfl
      · cases hbase
        dsimp only at hx horigin
        omega
  · refine .inr ⟨?_, .red, ⟨_, List.mem_singleton_self _, rfl, rfl, rfl⟩, ?_⟩
    · rintro pos' ⟨spawn, hspawn, -, hempire, -⟩
      rw [List.mem_singleton.1 hspawn] at hempire
      cases hempire
    · rintro other pos' ⟨spawn, hspawn, -, rfl, -⟩
      rw [List.mem_singleton.1 hspawn]

end Zohar.Game
