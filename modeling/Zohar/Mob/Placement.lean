/-
Where the mobs of a template are placed, from zohar-sim/src/runtime/mob/spawn.rs and
zohar-domain/src/entity/mob/spawn.rs: every member in the area of the rule and on the map, near the one before it and
where a mob can stand, all of them one pack. What the spawn rules count of it is the placing of `Spawn.spawnMembers`,
for the places that are found here.
-/
import Zohar.Mob.Cadence
import Zohar.Spawn.Rules

namespace Zohar.Mob

open Zohar.Lib
open Zohar.Replication (EntityId)
open Zohar.Spawn (MobId SpawnWorld SpawnedMob SpawnConfig SpawnRule expandSpawnTemplate)

/-! ## Templates on the map -/

inductive Direction where
  | north | northEast | east | southEast | south | southWest | west | northWest
  deriving DecidableEq, Repr

/-- `to_angle` -/
def Direction.toAngle : Direction → Nat
  | north => 0
  | northEast => 45
  | east => 90
  | southEast => 135
  | south => 180
  | southWest => 225
  | west => 270
  | northWest => 315

inductive FacingStrategy where
  | random
  | fixed (direction : Direction)
  deriving DecidableEq, Repr

/-- A rule with its area and facing. -/
structure PlacedRule (F : Type) extends SpawnRule where
  bounds : LocalBox F
  facing : FacingStrategy

/-- What is random in the placing of one member: `extents` and `places` are asked for a number between two others. -/
structure MemberRoll (F : Type) where
  extents : Nat → F → F → F
  places : Nat → F → F → F
  facing : Nat
  pause : Nat

/-- A mob on the map; `packNo` counts the packs up to its own, and no function reads it. -/
structure PlacedMob (F : Type) where
  id : EntityId
  body : MobBody F
  packId : Option Nat
  packNo : Nat

/-- The world of the spawn rules with the mobs as they are placed; `packs` is the number of packs so far, which no
function reads. -/
structure PlacedWorld (F : Type) extends SpawnWorld where
  nextPackId : Nat
  placed : List (PlacedMob F)
  packs : Nat

/-- The pack id is a `u32`, and never zero. -/
def followingPackId (packId : Nat) : Nat :=
  let next := (packId + 1) % 4294967296
  if next = 0 then 1 else next

section
variable {F : Type} [F32 F] (cfg : MobConfig F)

open F32 (ofRat)

def maxSpawnPositionAttempts : Nat := 32

def sampleSpawnPosition (bounds : Option (LocalBox F)) (places : Nat → F → F → F) : Option (LocalPos F) :=
  bounds.bind fun box => (List.range maxSpawnPositionAttempts).findSome? fun i =>
    let candidate : LocalPos F := ⟨places (2 * i) box.min.x box.max.x, places (2 * i + 1) box.min.y box.max.y⟩
    if cfg.navigator.any fun nav => !nav.canStand candidate then none else some candidate

def chainedGroupMemberBounds (pos : LocalPos F) (extents : Nat → F → F → F) : LocalBox F :=
  .fromCenterHalfExtent pos ⟨extents 0 (ofRat 3) (ofRat 5), extents 1 (ofRat 3) (ofRat 5)⟩

def allowedBounds (rule : PlacedRule F) (previousPos : Option (LocalPos F)) (roll : MemberRoll F) :
    Option (LocalBox F) :=
  match previousPos with
  | some prevPos =>
    (rule.bounds.intersect (chainedGroupMemberBounds prevPos roll.extents)).bind fun bounds =>
      bounds.intersect (mapLocalBounds cfg.localSize)
  | none => rule.bounds.intersect (mapLocalBounds cfg.localSize)

def memberFacing (rule : PlacedRule F) (roll : MemberRoll F) : UInt8 :=
  match rule.facing with
  | .random => .ofNat (roll.facing % 72)
  | .fixed direction => degreesToFacing cfg.libm (ofRat direction.toAngle)

def spawnOneMob (w : PlacedWorld F) (mobId : MobId) (pos : LocalPos F) (rot : UInt8) (packId : Option Nat)
    (pause : Nat) :
    Option (EntityId × PlacedWorld F) :=
  (cfg.mobs mobId).map fun proto =>
    let (id, next) := w.toSpawnWorld.takeNetId
    (id, { w with
      toSpawnWorld := { next with nextEntity := next.nextEntity + 1, mobs := next.mobs ++ [⟨next.nextEntity, id⟩] }
      placed := w.placed ++ [⟨id, .spawned cfg proto mobId pos rot w.simNow pause, packId, w.packs⟩] })

/-- One member: its place and what has become of the world. -/
def placeMember (rule : PlacedRule F) (packId : Option Nat) (w : PlacedWorld F) (previousPos : Option (LocalPos F))
    (mobId : MobId) (roll : MemberRoll F) : Option (LocalPos F × EntityId × PlacedWorld F) :=
  (sampleSpawnPosition cfg (allowedBounds cfg rule previousPos roll) roll.places).bind fun pos =>
    (spawnOneMob cfg w mobId pos (memberFacing cfg rule roll) packId roll.pause).map fun spawned => (pos, spawned)

/-- The loop of `spawn_one_template`, with the place of the member before. -/
def placeMembers (rule : PlacedRule F) (packId : Option Nat) :
    PlacedWorld F → Option (LocalPos F) → List MobId → (Nat → MemberRoll F) → List EntityId × PlacedWorld F
  | w, _, [], _ => ([], w)
  | w, previousPos, mobId :: mobIds, rolls =>
    match placeMember cfg rule packId w previousPos mobId (rolls 0) with
    | none =>
      if previousPos.isSome then placeMembers rule packId w previousPos mobIds fun n => rolls (n + 1) else ([], w)
    | some (pos, id, w) =>
      let (ids, w) := placeMembers rule packId w (some pos) mobIds fun n => rolls (n + 1)
      (id :: ids, w)

def spawnOneTemplate (w : PlacedWorld F) (rule : PlacedRule F) (ticket : Nat) (rolls : Nat → MemberRoll F) :
    List EntityId × PlacedWorld F :=
  let mobIds := expandSpawnTemplate rule.template ticket
  if 1 < mobIds.length then
    let packId := followingPackId w.nextPackId
    placeMembers cfg rule (some packId) { w with nextPackId := packId, packs := w.packs + 1 } none mobIds rolls
  else placeMembers cfg rule none w none mobIds rolls

/-! ## One member -/

variable {cfg} {rule : PlacedRule F} {packId : Option Nat} {w w' : PlacedWorld F} {previousPos : Option (LocalPos F)}
  {mobId : MobId} {roll : MemberRoll F} {pos : LocalPos F} {id : EntityId}

/-- A member that is placed, in the place that was sampled for it. -/
structure MemberPlaced (cfg : MobConfig F) (rule : PlacedRule F) (packId : Option Nat) (w : PlacedWorld F)
    (previousPos : Option (LocalPos F)) (mobId : MobId) (roll : MemberRoll F) (pos : LocalPos F) (id : EntityId)
    (w' : PlacedWorld F) : Prop where
  place : sampleSpawnPosition cfg (allowedBounds cfg rule previousPos roll) roll.places = some pos
  mob : ∃ mob, w'.placed = w.placed ++ [mob] ∧ mob.id = id ∧ mob.body.pos = pos ∧ mob.body.homePos = pos ∧
    mob.packId = packId ∧ mob.packNo = w.packs
  packs : w'.packs = w.packs ∧ w'.nextPackId = w.nextPackId
  world : w'.toSpawnWorld = { w.toSpawnWorld.takeNetId.2 with
    nextEntity := w.nextEntity + 1
    mobs := w.mobs ++ [⟨w.nextEntity, id⟩] }
  id : id = w.toSpawnWorld.takeNetId.1
  known : (cfg.mobs mobId).isSome

theorem memberPlaced_of_eq (h : placeMember cfg rule packId w previousPos mobId roll = some (pos, id, w')) :
    MemberPlaced cfg rule packId w previousPos mobId roll pos id w' := by
  obtain ⟨pos', hpos, hspawned⟩ := Option.bind_eq_some_iff.1 h
  obtain ⟨spawned, hone, heq⟩ := Option.map_eq_some_iff.1 hspawned
  obtain ⟨rfl, rfl⟩ := Prod.mk.inj heq
  obtain ⟨proto, hproto, heq⟩ := Option.map_eq_some_iff.1 hone
  obtain ⟨rfl, rfl⟩ := Prod.mk.inj heq
  refine ⟨hpos, ⟨_, rfl, rfl, rfl, rfl, rfl, rfl⟩, ⟨rfl, rfl⟩, rfl, rfl, ?_⟩
  rw [hproto]
  rfl

/-! ## What the spawn rules see of it -/

/-- What is left of the spawned mobs are their net ids. -/
def netIds (spawned : List SpawnedMob × SpawnWorld) : List EntityId × SpawnWorld := (spawned.1.map (·.netId), spawned.2)

variable (cfg rule packId) in
/-- The loop brings what the loop without places brings, when it finds the same members a place. -/
theorem placeMembers_refines {scfg : SpawnConfig} (hcfg : ∀ mobId, mobId ∈ scfg.mobs ↔ (cfg.mobs mobId).isSome) :
    ∀ (mobIds : List MobId) (w : PlacedWorld F) (previousPos : Option (LocalPos F)) (rolls : Nat → MemberRoll F),
      ∃ places, netIds (Spawn.spawnMembers scfg w.toSpawnWorld previousPos.isSome mobIds places) =
        ((placeMembers cfg rule packId w previousPos mobIds rolls).1,
          (placeMembers cfg rule packId w previousPos mobIds rolls).2.toSpawnWorld)
  | [], w, previousPos, rolls => ⟨[], rfl⟩
  | mobId :: mobIds, w, previousPos, rolls => by
    unfold placeMembers
    cases hplaced : placeMember cfg rule packId w previousPos mobId (rolls 0) with
    | none =>
      cases previousPos with
      | none => exact ⟨[], by simp [Spawn.spawnMembers, netIds]⟩
      | some prevPos =>
        obtain ⟨places, hplaces⟩ := placeMembers_refines hcfg mobIds w (some prevPos) fun n => rolls (n + 1)
        exact ⟨false :: places, by simpa [Spawn.spawnMembers] using hplaces⟩
    | some spawned =>
      obtain ⟨pos, id, next⟩ := spawned
      have hmember := memberPlaced_of_eq hplaced
      obtain ⟨places, hplaces⟩ := placeMembers_refines hcfg mobIds next (some pos) fun n => rolls (n + 1)
      refine ⟨true :: places, ?_⟩
      have hmem : mobId ∈ scfg.mobs := (hcfg mobId).2 hmember.known
      have hone : Spawn.spawnOneMob scfg w.toSpawnWorld mobId = some (⟨w.nextEntity, id⟩, next.toSpawnWorld) := by
        unfold Spawn.spawnOneMob
        rw [if_pos hmem, hmember.world, hmember.id]
        rfl
      obtain ⟨hids, hworld⟩ := Prod.mk.inj hplaces
      simp only [netIds, Spawn.spawnMembers, List.headD_cons, if_true, hone, List.tail_cons, List.map_cons]
      rw [Option.isSome_some] at hids hworld
      rw [hids, hworld]

/-- What a template brings to the spawn rules, net ids and all, is what it brings without places, for a roll that picks
the same group and finds the same members a place. -/
theorem template_refines_spawn_rules {scfg : SpawnConfig} (hcfg : ∀ mobId, mobId ∈ scfg.mobs ↔ (cfg.mobs mobId).isSome)
    (w : PlacedWorld F) (rule : PlacedRule F) (ticket : Nat) (rolls : Nat → MemberRoll F) : ∃ roll,
      netIds (Spawn.spawnOneTemplate scfg w.toSpawnWorld rule.toSpawnRule roll) =
        ((spawnOneTemplate cfg w rule ticket rolls).1, (spawnOneTemplate cfg w rule ticket rolls).2.toSpawnWorld) := by
  unfold spawnOneTemplate
  dsimp only
  split
  · obtain ⟨places, hplaces⟩ := placeMembers_refines cfg rule (some (followingPackId w.nextPackId)) hcfg
      (expandSpawnTemplate rule.template ticket)
      { w with nextPackId := followingPackId w.nextPackId, packs := w.packs + 1 } none rolls
    exact ⟨⟨ticket, places⟩, hplaces⟩
  · obtain ⟨places, hplaces⟩ := placeMembers_refines cfg rule none hcfg
      (expandSpawnTemplate rule.template ticket) w none rolls
    exact ⟨⟨ticket, places⟩, hplaces⟩

/-! ## Packs -/

/-- The members that the loop has placed, all of one pack. -/
structure Members (packId : Option Nat) (w : PlacedWorld F) (members : List (PlacedMob F))
    (w' : PlacedWorld F) : Prop where
  placed : w'.placed = w.placed ++ members
  pack : ∀ mob ∈ members, mob.packId = packId ∧ mob.packNo = w.packs
  packs : w'.packs = w.packs ∧ w'.nextPackId = w.nextPackId

variable (cfg rule packId) in
theorem placeMembers_members : ∀ (mobIds : List MobId) (w : PlacedWorld F) (previousPos : Option (LocalPos F))
    (rolls : Nat → MemberRoll F), ∃ members, Members packId w members
      (placeMembers cfg rule packId w previousPos mobIds rolls).2 ∧
      (placeMembers cfg rule packId w previousPos mobIds rolls).1 = members.map (·.id)
  | [], w, previousPos, rolls => by
    refine ⟨[], ⟨(List.append_nil _).symm, ?_, ⟨rfl, rfl⟩⟩, rfl⟩
    intro mob hmob
    cases hmob
  | mobId :: mobIds, w, previousPos, rolls => by
    unfold placeMembers
    cases hplaced : placeMember cfg rule packId w previousPos mobId (rolls 0) with
    | none =>
      cases previousPos with
      | none =>
        refine ⟨[], ⟨(List.append_nil _).symm, ?_, ⟨rfl, rfl⟩⟩, rfl⟩
        intro mob hmob
        cases hmob
      | some prevPos => exact placeMembers_members mobIds w (some prevPos) fun n => rolls (n + 1)
    | some spawned =>
      obtain ⟨pos, id, next⟩ := spawned
      obtain ⟨-, ⟨mob, hmob, hid, -, -, hpack, hpackNo⟩, ⟨hpacks, hnext⟩, -, -, -⟩ := memberPlaced_of_eq hplaced
      obtain ⟨members, ⟨hplaced', hpack', hpacks', hnext'⟩, hids⟩ :=
        placeMembers_members mobIds next (some pos) fun n => rolls (n + 1)
      refine ⟨mob :: members, ⟨?_, ?_, ⟨hpacks'.trans hpacks, hnext'.trans hnext⟩⟩, ?_⟩
      · rw [hplaced', hmob, List.append_assoc, List.singleton_append]
      · intro other hother
        rcases List.mem_cons.1 hother with rfl | hother
        · exact ⟨hpack, hpackNo⟩
        · exact ⟨(hpack' other hother).1, (hpack' other hother).2.trans hpacks⟩
      · rw [List.map_cons, hid, ← hids]

/-- The id of a pack by its number; zero stands for no pack yet. -/
def packIdAt (packNo : Nat) : Nat := if packNo = 0 then 0 else (packNo - 1) % 4294967295 + 1

theorem followingPackId_packIdAt (packNo : Nat) : followingPackId (packIdAt packNo) = packIdAt (packNo + 1) := by
  unfold followingPackId packIdAt
  dsimp only
  by_cases hzero : packNo = 0
  · subst hzero
    rfl
  · rw [if_neg hzero, if_neg (Nat.succ_ne_zero packNo)]
    split
    · omega
    · omega

/-- Packs are numbered one after the other, and every mob of a pack has the id of its number. -/
structure Numbered (w : PlacedWorld F) : Prop where
  next : w.nextPackId = packIdAt w.packs
  mobs : ∀ mob ∈ w.placed, ∀ packId, mob.packId = some packId →
    packId = packIdAt mob.packNo ∧ 0 < mob.packNo ∧ mob.packNo ≤ w.packs

theorem Numbered.spawnOneTemplate (h : Numbered w) (ticket : Nat) (rolls : Nat → MemberRoll F) :
    Numbered (spawnOneTemplate cfg w rule ticket rolls).2 := by
  unfold Mob.spawnOneTemplate
  dsimp only
  split
  · obtain ⟨members, ⟨hplaced, hpack, hpacks, hnext⟩, -⟩ := placeMembers_members cfg rule
      (some (followingPackId w.nextPackId)) (expandSpawnTemplate rule.template ticket)
      { w with nextPackId := followingPackId w.nextPackId, packs := w.packs + 1 } none rolls
    have hfollowing : followingPackId w.nextPackId = packIdAt (w.packs + 1) := by
      rw [h.next, followingPackId_packIdAt]
    constructor
    · rw [hnext, hpacks]
      exact hfollowing
    · intro mob hmob packId hid
      rw [hplaced] at hmob
      rw [hpacks]
      rcases List.mem_append.1 hmob with hmob | hmob
      · obtain ⟨heq, hpos, hle⟩ := h.mobs mob hmob packId hid
        exact ⟨heq, hpos, Nat.le_succ_of_le hle⟩
      · obtain ⟨hpackId, hpackNo⟩ := hpack mob hmob
        rw [hpackId] at hid
        cases hid
        rw [hpackNo]
        exact ⟨hfollowing, Nat.succ_pos _, le_rfl⟩
  · obtain ⟨members, ⟨hplaced, hpack, hpacks, hnext⟩, -⟩ := placeMembers_members cfg rule none
      (expandSpawnTemplate rule.template ticket) w none rolls
    constructor
    · rw [hnext, hpacks]
      exact h.next
    · intro mob hmob packId hid
      rw [hplaced] at hmob
      rw [hpacks]
      rcases List.mem_append.1 hmob with hmob | hmob
      · exact h.mobs mob hmob packId hid
      · rw [(hpack mob hmob).1] at hid
        cases hid

/-- A template that is to be spawned. -/
structure TemplateCall (F : Type) where
  rule : PlacedRule F
  ticket : Nat
  rolls : Nat → MemberRoll F

variable (cfg) in
/-- The templates that are spawned on a map, one after the other. -/
def spawnTemplates (w : PlacedWorld F) (calls : List (TemplateCall F)) : PlacedWorld F :=
  calls.foldl (fun w call => (spawnOneTemplate cfg w call.rule call.ticket call.rolls).2) w

theorem Numbered.spawnTemplates {calls : List (TemplateCall F)} (h : Numbered w) :
    Numbered (spawnTemplates cfg w calls) := by
  induction calls generalizing w with
  | nil => exact h
  | cons call calls ih => exact ih (h.spawnOneTemplate call.ticket call.rolls)

/-- A map without a mob. -/
def PlacedWorld.bare {F : Type} (w : SpawnWorld) : PlacedWorld F := { w with nextPackId := 0, placed := [], packs := 0 }

omit [F32 F] in
theorem numbered_bare (w : SpawnWorld) : Numbered (PlacedWorld.bare w : PlacedWorld F) where
  next := rfl
  mobs _ hmob := by cases hmob

/-- Whatever templates a map spawns, the id of a pack is never zero, and mobs of different packs have the same id only
if another 4294967294 packs or more have been spawned between theirs. -/
theorem pack_ids_tell_packs_apart (start : SpawnWorld) (calls : List (TemplateCall F)) :
    ∀ m ∈ (spawnTemplates cfg (.bare start) calls).placed, ∀ n ∈ (spawnTemplates cfg (.bare start) calls).placed,
      ∀ i j, m.packId = some i → n.packId = some j → i ≠ 0 ∧
        (i = j → m.packNo < n.packNo → m.packNo + 4294967295 ≤ n.packNo) := by
  intro m hm n hn i j hi hj
  have hnumbered : Numbered (spawnTemplates cfg (.bare start) calls) := (numbered_bare start).spawnTemplates
  obtain ⟨hmi, hmpos, -⟩ := hnumbered.mobs m hm i hi
  obtain ⟨hnj, hnpos, -⟩ := hnumbered.mobs n hn j hj
  rw [packIdAt, if_neg (Nat.ne_of_gt hmpos)] at hmi
  rw [packIdAt, if_neg (Nat.ne_of_gt hnpos)] at hnj
  constructor
  · omega
  · intro heq hlt
    omega

end

/-! ## Places -/

/-- A number between two others is between them. -/
def Fair (randomRange : Nat → Rat → Rat → Rat) : Prop := ∀ i lo hi, lo ≤ hi → lo ≤ randomRange i lo hi ∧
    randomRange i lo hi ≤ hi

/-- A position in a box, its edges included. -/
structure LocalBox.Covers (box : LocalBox Rat) (pos : LocalPos Rat) : Prop where
  left : box.min.x ≤ pos.x
  right : pos.x ≤ box.max.x
  lower : box.min.y ≤ pos.y
  upper : pos.y ≤ box.max.y

/-- No farther from a place than the largest extent of the box around it. -/
def Beside (prev pos : LocalPos Rat) : Prop := |pos.x - prev.x| ≤ 5 ∧ |pos.y - prev.y| ≤ 5

section
variable {a b box : LocalBox Rat} {pos prev : LocalPos Rat}

theorem LocalBox.covers_of_intersect (h : a.intersect b = some box) (hbox : box.Covers pos) :
    a.Covers pos ∧ b.Covers pos := by
  unfold LocalBox.intersect at h
  dsimp only at h
  split at h
  · cases h
  · cases h
    obtain ⟨hleft, hright, hlower, hupper⟩ := hbox
    obtain ⟨hal, hbl⟩ := max_le_iff.1 hleft
    obtain ⟨har, hbr⟩ := le_min_iff.1 hright
    obtain ⟨halo, hblo⟩ := max_le_iff.1 hlower
    obtain ⟨hau, hbu⟩ := le_min_iff.1 hupper
    exact ⟨⟨hal, har, halo, hau⟩, ⟨hbl, hbr, hblo, hbu⟩⟩

theorem LocalBox.ordered_of_intersect (h : a.intersect b = some box) :
    box.min.x ≤ box.max.x ∧ box.min.y ≤ box.max.y := by
  unfold LocalBox.intersect at h
  dsimp only at h
  split at h
  · cases h
  · rename_i hnot
    cases h
    exact ⟨not_lt.1 fun hlt => hnot (.inl hlt), not_lt.1 fun hlt => hnot (.inr hlt)⟩

theorem beside_of_covers {extents : Nat → Rat → Rat → Rat} (hfair : Fair extents)
    (h : (chainedGroupMemberBounds prev extents).Covers pos) : Beside prev pos := by
  obtain ⟨-, hx⟩ := hfair 0 3 5 (by norm_num)
  obtain ⟨-, hy⟩ := hfair 1 3 5 (by norm_num)
  have hleft : prev.x - extents 0 3 5 ≤ pos.x := h.left
  have hright : pos.x ≤ prev.x + extents 0 3 5 := h.right
  have hlower : prev.y - extents 1 3 5 ≤ pos.y := h.lower
  have hupper : pos.y ≤ prev.y + extents 1 3 5 := h.upper
  exact ⟨abs_le.2 ⟨by linarith, by linarith⟩, abs_le.2 ⟨by linarith, by linarith⟩⟩

variable {cfg : MobConfig Rat} {rule : PlacedRule Rat} {packId : Option Nat} {roll : MemberRoll Rat}

theorem sampleSpawnPosition_spec {bounds : Option (LocalBox Rat)} {places : Nat → Rat → Rat → Rat} (hfair : Fair places)
    (hordered : ∀ box, bounds = some box → box.min.x ≤ box.max.x ∧ box.min.y ≤ box.max.y)
    (h : sampleSpawnPosition cfg bounds places = some pos) :
    (∃ box, bounds = some box ∧ box.Covers pos) ∧ ∀ nav, cfg.navigator = some nav → nav.canStand pos = true := by
  obtain ⟨box, hbox, hfound⟩ := Option.bind_eq_some_iff.1 h
  obtain ⟨i, -, hi⟩ := List.exists_of_findSome?_eq_some hfound
  dsimp only at hi
  split at hi
  · cases hi
  · rename_i hground
    cases hi
    obtain ⟨hx, hy⟩ := hordered box hbox
    obtain ⟨hleft, hright⟩ := hfair (2 * i) _ _ hx
    obtain ⟨hlower, hupper⟩ := hfair (2 * i + 1) _ _ hy
    refine ⟨⟨box, hbox, hleft, hright, hlower, hupper⟩, ?_⟩
    intro nav hnav
    simpa [hnav] using hground

/-- Where a member may be placed: in the area of its rule, on the map, where it can stand, and beside the one before
it. -/
structure WellPlaced (cfg : MobConfig Rat) (rule : PlacedRule Rat) (previousPos : Option (LocalPos Rat))
    (pos : LocalPos Rat) :
    Prop where
  area : rule.bounds.Covers pos
  map : (mapLocalBounds cfg.localSize).Covers pos
  stands : ∀ nav, cfg.navigator = some nav → nav.canStand pos = true
  beside : ∀ prev, previousPos = some prev → Beside prev pos

theorem wellPlaced_of_sample {previousPos : Option (LocalPos Rat)} (hextents : Fair roll.extents)
    (hplaces : Fair roll.places)
    (h : sampleSpawnPosition cfg (allowedBounds cfg rule previousPos roll) roll.places = some pos) :
    WellPlaced cfg rule previousPos pos := by
  cases previousPos with
  | none =>
    obtain ⟨⟨box, hbox, hcovers⟩, hstands⟩ :=
      sampleSpawnPosition_spec hplaces (fun box hbox => LocalBox.ordered_of_intersect hbox) h
    obtain ⟨harea, hmap⟩ := LocalBox.covers_of_intersect hbox hcovers
    refine ⟨harea, hmap, hstands, ?_⟩
    intro prev hprev
    cases hprev
  | some prev =>
    have hordered : ∀ box, allowedBounds cfg rule (some prev) roll = some box →
        box.min.x ≤ box.max.x ∧ box.min.y ≤ box.max.y := by
      intro box hbox
      obtain ⟨_, -, hlast⟩ := Option.bind_eq_some_iff.1 hbox
      exact LocalBox.ordered_of_intersect hlast
    obtain ⟨⟨box, hbox, hcovers⟩, hstands⟩ := sampleSpawnPosition_spec hplaces hordered h
    obtain ⟨chained, hchained, hlast⟩ := Option.bind_eq_some_iff.1 hbox
    obtain ⟨hin, hmap⟩ := LocalBox.covers_of_intersect hlast hcovers
    obtain ⟨harea, hnear⟩ := LocalBox.covers_of_intersect hchained hin
    refine ⟨harea, hmap, hstands, ?_⟩
    rintro _ ⟨⟩
    exact beside_of_covers hextents hnear

/-- The members of a template as they are placed one after the other. -/
def PlacedInTurn (cfg : MobConfig Rat) (rule : PlacedRule Rat) : Option (LocalPos Rat) → List (PlacedMob Rat) → Prop
  | _, [] => True
  | previousPos, mob :: mobs =>
    WellPlaced cfg rule previousPos mob.body.pos ∧ mob.body.homePos = mob.body.pos ∧
      PlacedInTurn cfg rule (some mob.body.pos) mobs

variable (cfg rule packId) in
theorem placeMembers_inTurn : ∀ (mobIds : List MobId) (w : PlacedWorld Rat) (previousPos : Option (LocalPos Rat))
    (rolls : Nat → MemberRoll Rat), (∀ n, Fair (rolls n).extents ∧ Fair (rolls n).places) → ∃ members,
      (placeMembers cfg rule packId w previousPos mobIds rolls).2.placed = w.placed ++ members ∧
      (placeMembers cfg rule packId w previousPos mobIds rolls).1 = members.map (·.id) ∧
      (∀ mob ∈ members, mob.packId = packId) ∧ PlacedInTurn cfg rule previousPos members
  | [], w, previousPos, rolls, _ => ⟨[], (List.append_nil _).symm, rfl, by simp, trivial⟩
  | mobId :: mobIds, w, previousPos, rolls, hfair => by
    unfold placeMembers
    cases hplaced : placeMember cfg rule packId w previousPos mobId (rolls 0) with
    | none =>
      cases previousPos with
      | none => exact ⟨[], (List.append_nil _).symm, rfl, by simp, trivial⟩
      | some prevPos =>
        exact placeMembers_inTurn mobIds w (some prevPos) (fun n => rolls (n + 1)) fun n => hfair (n + 1)
    | some spawned =>
      obtain ⟨pos, id, next⟩ := spawned
      obtain ⟨hsample, ⟨mob, hmob, hid, hpos, hhome, hpack, -⟩, -, -, -, -⟩ := memberPlaced_of_eq hplaced
      obtain ⟨members, hplaced', hids, hpacks, hturn⟩ :=
        placeMembers_inTurn mobIds next (some pos) (fun n => rolls (n + 1)) fun n => hfair (n + 1)
      refine ⟨mob :: members, ?_, ?_, ?_, ?_⟩
      · rw [hplaced', hmob, List.append_assoc, List.singleton_append]
      · rw [List.map_cons, hid, ← hids]
      · intro other hother
        rcases List.mem_cons.1 hother with rfl | hother
        · exact hpack
        · exact hpacks other hother
      · refine ⟨?_, hhome.trans hpos.symm, ?_⟩
        · rw [hpos]
          exact wellPlaced_of_sample (hfair 0).1 (hfair 0).2 hsample
        · rw [hpos]
          exact hturn

/-- A template brings mobs of one pack, each in the area of its rule, on the map and where it can stand, at home where
it is placed, and each beside the one before it. -/
theorem template_is_placed_together (w : PlacedWorld Rat) (rule : PlacedRule Rat) (ticket : Nat)
    (rolls : Nat → MemberRoll Rat) (hfair : ∀ n, Fair (rolls n).extents ∧ Fair (rolls n).places) : ∃ members packId,
      (spawnOneTemplate cfg w rule ticket rolls).2.placed = w.placed ++ members ∧
      (spawnOneTemplate cfg w rule ticket rolls).1 = members.map (·.id) ∧ (∀ mob ∈ members, mob.packId = packId) ∧
      (packId.isSome ↔ 1 < (expandSpawnTemplate rule.template ticket).length) ∧ PlacedInTurn cfg rule none members := by
  unfold spawnOneTemplate
  dsimp only
  split
  · rename_i hgroup
    obtain ⟨members, hplaced, hids, hpack, hturn⟩ := placeMembers_inTurn cfg rule
      (some (followingPackId w.nextPackId)) (expandSpawnTemplate rule.template ticket)
      { w with nextPackId := followingPackId w.nextPackId, packs := w.packs + 1 } none rolls hfair
    exact ⟨members, _, hplaced, hids, hpack, iff_of_true rfl hgroup, hturn⟩
  · rename_i hsingle
    obtain ⟨members, hplaced, hids, hpack, hturn⟩ := placeMembers_inTurn cfg rule none
      (expandSpawnTemplate rule.template ticket) w none rolls hfair
    exact ⟨members, none, hplaced, hids, hpack, iff_of_false Bool.false_ne_true hsingle, hturn⟩

end

/-! ## Wolves in a wood -/

def wolvesRule : PlacedRule Rat where
  template := .group [⟨101⟩, ⟨101⟩]
  maxCount := 3
  regenTime := 60000
  bounds := ⟨⟨10, 10⟩, ⟨20, 20⟩⟩
  facing := .fixed .north

/-- Always the least that is asked for. -/
def leastRoll : MemberRoll Rat := ⟨fun _ lo _ => lo, fun _ lo _ => lo, 0, 0⟩

theorem fair_least : Fair fun _ lo _ => lo := by
  intro _ lo hi hle
  exact ⟨le_rfl, hle⟩

/-- Wolves are all that there is. -/
def woodConfig : MobConfig Rat := { wolfConfig with mobs := fun mobId => if mobId = ⟨101⟩ then some wolf else none }

def wood : PlacedWorld Rat := .bare (.start [wolvesRule.toSpawnRule] 0)

theorem template_refines_spawn_rules_wolves : ∃ roll,
    netIds (Spawn.spawnOneTemplate ⟨[⟨101⟩]⟩ wood.toSpawnWorld wolvesRule.toSpawnRule roll) =
      ((spawnOneTemplate woodConfig wood wolvesRule 0 fun _ => leastRoll).1,
        (spawnOneTemplate woodConfig wood wolvesRule 0 fun _ => leastRoll).2.toSpawnWorld) := by
  refine template_refines_spawn_rules ?_ wood wolvesRule 0 fun _ => leastRoll
  intro mobId
  unfold woodConfig
  by_cases h : mobId = ⟨101⟩
  · simp [h]
  · simp [h]

theorem template_is_placed_together_wolves : ∃ members packId,
    (spawnOneTemplate woodConfig wood wolvesRule 0 fun _ => leastRoll).2.placed = wood.placed ++ members ∧
    (spawnOneTemplate woodConfig wood wolvesRule 0 fun _ => leastRoll).1 = members.map (·.id) ∧
    (∀ mob ∈ members, mob.packId = packId) ∧
    (packId.isSome ↔ 1 < (expandSpawnTemplate wolvesRule.template 0).length) ∧
    PlacedInTurn woodConfig wolvesRule none members :=
  template_is_placed_together wood wolvesRule 0 (fun _ => leastRoll) fun _ => ⟨fair_least, fair_least⟩

/-- The wood with two packs of wolves. -/
def twoPacks : PlacedWorld Rat :=
  spawnTemplates woodConfig wood [⟨wolvesRule, 0, fun _ => leastRoll⟩, ⟨wolvesRule, 0, fun _ => leastRoll⟩]

theorem pack_ids_tell_packs_apart_wolves : ∃ m ∈ twoPacks.placed, ∃ n ∈ twoPacks.placed, m.packId = some 1 ∧
    n.packId = some 2 ∧ 1 ≠ 0 ∧ (1 = 2 → m.packNo < n.packNo → m.packNo + 4294967295 ≤ n.packNo) := by
  have hfirst : some 1 ∈ twoPacks.placed.map (·.packId) := by decide +kernel
  have hsecond : some 2 ∈ twoPacks.placed.map (·.packId) := by decide +kernel
  obtain ⟨m, hm, hmid⟩ := List.mem_map.1 hfirst
  obtain ⟨n, hn, hnid⟩ := List.mem_map.1 hsecond
  exact ⟨m, hm, n, hn, hmid, hnid, pack_ids_tell_packs_apart (.start [wolvesRule.toSpawnRule] 0)
    [⟨wolvesRule, 0, fun _ => leastRoll⟩, ⟨wolvesRule, 0, fun _ => leastRoll⟩] m hm n hn 1 2 hmid hnid⟩

end Zohar.Mob
