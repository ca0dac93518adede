/-
What a spawn packet says an entity is: its type in one byte and its race in two. The id of a mob has four bytes
everywhere else, in the content as in the simulation, so the race of a packet is the id cut to its low half. From
zohar-protocol/src/game_pkt/ingame/world.rs, zohar-gamesrv/src/adapters.rs and zohar-core/src/adapters/content.rs.
-/
import Zohar.Domain
import Zohar.Net.Packets

namespace Zohar.Net

open Zohar.Lib

/-! ## The kinds of the simulation -/

inductive PlayerGender where
  | male | female
  deriving DecidableEq, Repr

inductive PortalBehavior where
  | mapTransfer | localReposition
  deriving DecidableEq, Repr

inductive MobKind where
  | monster | npc | stone
  | portal (behavior : PortalBehavior)
  deriving DecidableEq, Repr

/-- The id of a mob is a `DefId`, a `u32`. -/
inductive EntityKind where
  | player (cls : PlayerClass) (gender : PlayerGender)
  | mob (mobId : UInt32) (mobKind : MobKind)
  deriving DecidableEq, Repr

/-- `def_id_from_i64`: a content id that is no `u32` is skipped. -/
def defIdFromI64 (raw : Int) : Option UInt32 := if 0 ≤ raw ∧ raw < 4294967296 then some (.ofNat raw.toNat) else none

/-! ## The wire -/

inductive EntityType where
  | monster | npc | stone | warp | player | goto
  deriving DecidableEq, Repr

instance : ReprU8 EntityType where
  toRepr
    | .monster => 0 | .npc => 1 | .stone => 2 | .warp => 3 | .player => 6 | .goto => 9
  all := [.monster, .npc, .stone, .warp, .player, .goto]
  find_toRepr a := by cases a <;> rfl

/-- Its `Debug` text. -/
def EntityType.debug : EntityType → String
  | monster => "Monster" | npc => "Npc" | stone => "Stone" | warp => "Warp" | player => "Player" | goto => "Goto"

inductive NonPlayerEntityType where
  | monster | npc | stone | warp | goto
  deriving DecidableEq, Repr

def NonPlayerEntityType.toEntityType : NonPlayerEntityType → EntityType
  | monster => .monster | npc => .npc | stone => .stone | warp => .warp | goto => .goto

instance : ReprU8 NonPlayerEntityType where
  toRepr t := toRepr t.toEntityType
  all := [.monster, .npc, .stone, .warp, .goto]
  find_toRepr a := by cases a <;> rfl

structure MobTemplateId where
  raw : UInt32
  deriving DecidableEq, Repr

structure RaceCode where
  raw : UInt16
  deriving DecidableEq, Repr

instance : BinRead RaceCode := .map RaceCode.mk
instance : BinWrite RaceCode := .contramap RaceCode.raw
instance : RoundTrip RaceCode := .of_fields RaceCode.mk RaceCode.raw fun _ => rfl

inductive EntityRace where
  | player (cls : PlayerClassGendered)
  | nonPlayer (id : MobTemplateId)
  deriving DecidableEq, Repr

def EntityRace.toRaceCode : EntityRace → RaceCode
  | player p => ⟨(toRepr p).toUInt16⟩
  | nonPlayer id => ⟨id.raw.toUInt16⟩

inductive EntityKindCode where
  | player (cls : PlayerClassGendered)
  | nonPlayer (entityType : NonPlayerEntityType) (race : MobTemplateId)
  deriving DecidableEq, Repr

namespace EntityKindCode

def entityType : EntityKindCode → EntityType
  | player _ => .player
  | nonPlayer entityType _ => entityType.toEntityType

def raceCode : EntityKindCode → RaceCode
  | player cls => (EntityRace.player cls).toRaceCode
  | nonPlayer _ race => (EntityRace.nonPlayer race).toRaceCode

end EntityKindCode

structure EntityKindCodeWire where
  entityType : EntityType
  race : RaceCode
  deriving DecidableEq, Repr

instance : BinRead EntityKindCodeWire := .map fun (entityType, race) => ⟨entityType, race⟩
instance : BinWrite EntityKindCodeWire := .contramap fun w => (w.entityType, w.race)
instance : RoundTrip EntityKindCodeWire := .of_fields _ _ fun _ => rfl

def EntityKindCodeWire.from (entity : EntityKindCode) : EntityKindCodeWire := ⟨entity.entityType, entity.raceCode⟩

def EntityKindCodeWire.tryInto (wire : EntityKindCodeWire) : Except String EntityKindCode :=
  match wire.entityType with
  | .player =>
    match (ofRepr wire.race.raw.toUInt8 : Option PlayerClassGendered) with
    | some cls => .ok (.player cls)
    | none => .error s!"invalid player race code {wire.race.raw.toNat}"
  | .monster | .npc | .stone | .warp | .goto =>
    match (ofRepr (toRepr wire.entityType) : Option NonPlayerEntityType) with
    | some entityType => .ok (.nonPlayer entityType ⟨wire.race.raw.toUInt32⟩)
    | none => .error s!"invalid non-player entity type {wire.entityType.debug}"

/-- The field of the spawn packet. An error of the conversion is kept as its text. -/
instance : BinRead EntityKindCode where
  read := tryMap (fun pos wire => wire.tryInto.mapError (.assertFail pos)) (read : Read EntityKindCodeWire)
  stable := BinRead.stable.tryMap _

instance : BinWrite EntityKindCode := .contramap EntityKindCodeWire.from

/-! ## The kinds of the simulation on the wire -/

def classGendered : PlayerClass → PlayerGender → PlayerClassGendered
  | .warrior, .male => .warriorMale
  | .warrior, .female => .warriorFemale
  | .ninja, .male => .ninjaMale
  | .ninja, .female => .ninjaFemale
  | .sura, .male => .suraMale
  | .sura, .female => .suraFemale
  | .shaman, .male => .shamanMale
  | .shaman, .female => .shamanFemale

def PlayerClassGendered.toDomain : PlayerClassGendered → PlayerClass × PlayerGender
  | warriorMale => (.warrior, .male)
  | warriorFemale => (.warrior, .female)
  | ninjaMale => (.ninja, .male)
  | ninjaFemale => (.ninja, .female)
  | suraMale => (.sura, .male)
  | suraFemale => (.sura, .female)
  | shamanMale => (.shaman, .male)
  | shamanFemale => (.shaman, .female)

theorem toDomain_classGendered (cls : PlayerClass) (gender : PlayerGender) :
    (classGendered cls gender).toDomain = (cls, gender) := by
  cases cls <;> cases gender <;> rfl

def MobKind.entityType : MobKind → NonPlayerEntityType
  | npc => .npc
  | monster => .monster
  | stone => .stone
  | portal .mapTransfer => .warp
  | portal .localReposition => .goto

theorem MobKind.entityType_injective : Function.Injective entityType := by
  intro mobKind mobKind' h
  rcases mobKind with _ | _ | _ | ⟨_ | _⟩ <;> rcases mobKind' with _ | _ | _ | ⟨_ | _⟩ <;> first
    | rfl
    | cases h

namespace EntityKind

def toProtocol : EntityKind → EntityKindCode
  | player cls gender => .player (classGendered cls gender)
  | mob mobId mobKind => .nonPlayer mobKind.entityType ⟨mobId⟩

/-- The code of a kind tells the kind. -/
theorem toProtocol_injective : Function.Injective toProtocol := by
  rintro (⟨cls, gender⟩ | ⟨mobId, mobKind⟩) (⟨cls', gender'⟩ | ⟨mobId', mobKind'⟩) h
  · have hcls := congrArg PlayerClassGendered.toDomain (EntityKindCode.player.inj h)
    rw [toDomain_classGendered, toDomain_classGendered] at hcls
    cases hcls
    rfl
  · cases h
  · cases h
  · obtain ⟨hkind, hid⟩ := EntityKindCode.nonPlayer.inj h
    rw [MobKind.entityType_injective hkind, MobTemplateId.mk.inj hid]

/-- The bytes of the kind in a spawn packet are read as its code, wherever they stand. -/
def ShownAsItIs (kind : EntityKind) : Prop :=
  ∀ bs, write kind.toProtocol = .ok bs → ReadsBack (read : Read EntityKindCode) bs kind.toProtocol

/-- A player, or a mob whose id has two bytes. -/
def FitsRace : EntityKind → Prop
  | player _ _ => True
  | mob mobId _ => mobId.toNat < 65536

end EntityKind

theorem EntityKindCodeWire.tryInto_from_player (cls : PlayerClassGendered) :
    (EntityKindCodeWire.from (.player cls)).tryInto = .ok (.player cls) := by
  cases cls <;> rfl

/-- What the race of a mob is read as. -/
theorem EntityKindCodeWire.tryInto_from_nonPlayer (entityType : NonPlayerEntityType) (id : MobTemplateId) :
    (EntityKindCodeWire.from (.nonPlayer entityType id)).tryInto =
      .ok (.nonPlayer entityType ⟨id.raw.toUInt16.toUInt32⟩) := by
  cases entityType <;> rfl

/-- The bytes of a code are read as what its wire form is converted to. -/
theorem EntityKindCode.readsBack_iff {code code' : EntityKindCode}
    (h : (EntityKindCodeWire.from code).tryInto = .ok code') {bs : Bytes} (hw : write code = .ok bs) :
    ReadsBack (read : Read EntityKindCode) bs code' := by
  apply (RoundTrip.readsBack (α := EntityKindCodeWire) hw).tryMap
  intro pos
  rw [h]
  rfl

/-- The two low bytes of an id are the id exactly if it has no others. -/
theorem toUInt32_toUInt16_eq_iff (id : UInt32) : id.toUInt16.toUInt32 = id ↔ id.toNat < 65536 := by
  rw [← UInt32.toNat_inj, UInt16.toNat_toUInt32, UInt32.toNat_toUInt16]
  constructor
  · intro h
    omega
  · intro h
    exact Nat.mod_eq_of_lt h

theorem EntityKind.shownAsItIs_iff (kind : EntityKind) : kind.ShownAsItIs ↔ kind.FitsRace := by
  cases kind with
  | player cls gender =>
    refine iff_of_true (fun bs hw => ?_) trivial
    exact EntityKindCode.readsBack_iff (EntityKindCodeWire.tryInto_from_player _) hw
  | mob mobId mobKind =>
    have htry := EntityKindCodeWire.tryInto_from_nonPlayer mobKind.entityType ⟨mobId⟩
    constructor
    · intro h
      obtain ⟨bs, hw⟩ : ∃ bs, write (EntityKind.mob mobId mobKind).toProtocol = .ok bs := ⟨_, rfl⟩
      -- the same bytes are read as the low half of the id
      have hown := h bs hw 0 []
      rw [EntityKindCode.readsBack_iff htry hw 0 []] at hown
      exact (toUInt32_toUInt16_eq_iff mobId).1 (MobTemplateId.mk.inj (EntityKindCode.nonPlayer.inj (Prod.mk.inj
        (Except.ok.inj hown)).1).2)
    · intro hfits bs hw
      rw [(toUInt32_toUInt16_eq_iff mobId).2 hfits] at htry
      exact EntityKindCode.readsBack_iff htry hw

/-- The bytes of a code tell what it is read as. -/
theorem EntityKindCode.tryInto_eq_of_write_eq {code code' : EntityKindCode} (h : write code = write code') :
    (EntityKindCodeWire.from code).tryInto = (EntityKindCodeWire.from code').tryInto := by
  obtain ⟨bs, hw⟩ : ∃ bs, write (EntityKindCodeWire.from code) = .ok bs := ⟨_, rfl⟩
  have hw' : write (EntityKindCodeWire.from code') = .ok bs := h.symm.trans hw
  have hread := RoundTrip.readsBack hw 0 []
  rw [RoundTrip.readsBack hw' 0 []] at hread
  rw [(Prod.mk.inj (Except.ok.inj hread)).1]

/-- Two kinds have the same bytes exactly if they are the same, or mobs of one kind whose ids agree in their low
halves. -/
theorem EntityKind.write_eq_iff (kind kind' : EntityKind) : write kind.toProtocol = write kind'.toProtocol ↔
    kind = kind' ∨ ∃ mobKind mobId mobId', kind = .mob mobId mobKind ∧ kind' = .mob mobId' mobKind ∧
      mobId.toNat % 65536 = mobId'.toNat % 65536 := by
  constructor
  · intro h
    have htry := EntityKindCode.tryInto_eq_of_write_eq h
    rcases kind with ⟨cls, gender⟩ | ⟨mobId, mobKind⟩ <;> rcases kind' with ⟨cls', gender'⟩ | ⟨mobId', mobKind'⟩
    · left
      simp only [toProtocol, EntityKindCodeWire.tryInto_from_player] at htry
      exact toProtocol_injective (Except.ok.inj htry)
    · simp only [toProtocol, EntityKindCodeWire.tryInto_from_player, EntityKindCodeWire.tryInto_from_nonPlayer] at htry
      cases htry
    · simp only [toProtocol, EntityKindCodeWire.tryInto_from_player, EntityKindCodeWire.tryInto_from_nonPlayer] at htry
      cases htry
    · right
      simp only [toProtocol, EntityKindCodeWire.tryInto_from_nonPlayer] at htry
      obtain ⟨htype, hrace⟩ := EntityKindCode.nonPlayer.inj (Except.ok.inj htry)
      have hnat := congrArg UInt32.toNat (MobTemplateId.mk.inj hrace)
      rw [UInt16.toNat_toUInt32, UInt16.toNat_toUInt32, UInt32.toNat_toUInt16, UInt32.toNat_toUInt16] at hnat
      rw [MobKind.entityType_injective htype]
      exact ⟨mobKind', mobId, mobId', rfl, rfl, hnat⟩
  · rintro (rfl | ⟨mobKind, mobId, mobId', rfl, rfl, hmod⟩)
    · rfl
    · -- only the low half is written
      have hrace : mobId.toUInt16 = mobId'.toUInt16 := by
        rw [← UInt16.toNat_inj, UInt32.toNat_toUInt16, UInt32.toNat_toUInt16]
        exact hmod
      show write (EntityKindCodeWire.mk mobKind.entityType.toEntityType ⟨mobId.toUInt16⟩) =
        write (EntityKindCodeWire.mk mobKind.entityType.toEntityType ⟨mobId'.toUInt16⟩)
      rw [hrace]

/-- A spawn packet shows a kind as it is exactly if its race has room for the id, and the ids that content can give a
mob are all those of four bytes. -/
theorem entity_kind_iff (kind : EntityKind) :
    (kind.ShownAsItIs ↔ kind.FitsRace) ∧
    (∀ kind' : EntityKind, write kind.toProtocol = write kind'.toProtocol ↔
      kind = kind' ∨ ∃ mobKind mobId mobId', kind = .mob mobId mobKind ∧ kind' = .mob mobId' mobKind ∧
        mobId.toNat % 65536 = mobId'.toNat % 65536) ∧
    ∀ raw mobId, defIdFromI64 raw = some mobId ↔ raw = mobId.toNat := by
  refine ⟨kind.shownAsItIs_iff, kind.write_eq_iff, fun raw mobId => ?_⟩
  have hlt := mobId.toNat_lt
  unfold defIdFromI64
  constructor
  · intro h
    split at h
    · rename_i hrange
      cases h
      rw [UInt32.toNat_ofNat_of_lt' (by rw [UInt32.size]; omega)]
      omega
    · cases h
  · rintro rfl
    rw [if_pos (by omega), Int.toNat_natCast, UInt32.ofNat_toNat]

/-- A mob and one whose id is `65536` above its own are the same to the client. -/
theorem entity_kind_same : (defIdFromI64 101).isSome ∧ (defIdFromI64 65637).isSome ∧
    write (EntityKind.mob 101 .monster).toProtocol = write (EntityKind.mob 65637 .monster).toProtocol ∧
    ¬ (EntityKind.mob 65637 .monster).ShownAsItIs := by
  refine ⟨by decide, by decide, by decide, ?_⟩
  intro h
  have hread := h [0, 101, 0] rfl 0 []
  have hlow : (read : Read EntityKindCode) ⟨0, [0, 101, 0] ++ []⟩ = .ok (.nonPlayer .monster ⟨101⟩, ⟨3, []⟩) := rfl
  rw [hlow] at hread
  exact absurd hread (by simp [EntityKind.toProtocol])

end Zohar.Net
