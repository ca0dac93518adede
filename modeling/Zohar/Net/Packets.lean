/-
The packets a client sends, phase by phase, with the reads and writes of `zohar-protocol`: control
packets, the packets of the two handshakes, of login on both servers, of character selection, of
loading, and of the game itself.
-/
import Zohar.Net.Wire

namespace Zohar.Net

open Zohar.Lib

/-! ## Shared fields -/

structure HandshakeId where
  raw : UInt32
  deriving DecidableEq, Repr

instance : BinRead HandshakeId := .map HandshakeId.mk
instance : BinWrite HandshakeId := .contramap HandshakeId.raw
instance : RoundTrip HandshakeId := .of_fields HandshakeId.mk HandshakeId.raw fun _ => rfl

structure WireMillis32 where
  raw : UInt32
  deriving DecidableEq, Repr

instance : BinRead WireMillis32 := .map WireMillis32.mk
instance : BinWrite WireMillis32 := .contramap WireMillis32.raw
instance : RoundTrip WireMillis32 := .of_fields WireMillis32.mk WireMillis32.raw fun _ => rfl

/-- A delta that both directions assert not to be negative. -/
structure WireDeltaMillis where
  value : Int32
  deriving DecidableEq, Repr

instance : BinRead WireDeltaMillis where
  read := tryMap (fun pos value =>
    if 0 ≤ value then .ok ⟨value⟩ else .error (.assertFail pos "negative handshake delta")) (read : Read Int32)
  stable := BinRead.stable.tryMap _

instance : BinWrite WireDeltaMillis where
  write delta := if 0 ≤ delta.value then write delta.value else .error "negative handshake delta"

instance : RoundTrip WireDeltaMillis where
  readsBack {delta bs} h := by
    simp only [BinWrite.write] at h
    split at h
    · rename_i hnonneg
      exact (RoundTrip.readsBack (α := Int32) h).tryMap fun pos => by simp [hnonneg]
    · cases h

structure HandshakeSyncData where
  handshake : HandshakeId
  time : WireMillis32
  delta : WireDeltaMillis
  deriving DecidableEq, Repr

instance : BinRead HandshakeSyncData := .map fun (handshake, time, delta) => ⟨handshake, time, delta⟩
instance : BinWrite HandshakeSyncData := .contramap fun d => (d.handshake, d.time, d.delta)
instance : RoundTrip HandshakeSyncData := .of_fields _ _ fun _ => rfl

structure NetId where
  raw : UInt32
  deriving DecidableEq, Repr

instance : BinRead NetId := .map NetId.mk
instance : BinWrite NetId := .contramap NetId.raw
instance : RoundTrip NetId := .of_fields NetId.mk NetId.raw fun _ => rfl

structure WireWorldPos where
  xCm : Int32
  yCm : Int32
  deriving DecidableEq, Repr

instance : BinRead WireWorldPos := .map fun (xCm, yCm) => ⟨xCm, yCm⟩
instance : BinWrite WireWorldPos := .contramap fun p => (p.xCm, p.yCm)
instance : RoundTrip WireWorldPos := .of_fields _ _ fun _ => rfl

inductive Empire where
  | red | yellow | blue
  deriving DecidableEq, Repr

instance : ReprU8 Empire where
  toRepr
    | .red => 1 | .yellow => 2 | .blue => 3
  all := [.red, .yellow, .blue]
  find_toRepr a := by cases a <;> rfl

inductive PlayerClassGendered where
  | warriorMale | ninjaFemale | suraMale | shamanFemale | warriorFemale | ninjaMale | suraFemale | shamanMale
  deriving DecidableEq, Repr

instance : ReprU8 PlayerClassGendered where
  toRepr
    | .warriorMale => 0 | .ninjaFemale => 1 | .suraMale => 2 | .shamanFemale => 3 | .warriorFemale => 4
    | .ninjaMale => 5 | .suraFemale => 6 | .shamanMale => 7
  all := [.warriorMale, .ninjaFemale, .suraMale, .shamanFemale, .warriorFemale, .ninjaMale, .suraFemale, .shamanMale]
  find_toRepr a := by cases a <;> rfl

/-! ## Control packets -/

inductive ControlC2s where
  | heartbeatResponse
  | handshakeResponse (data : HandshakeSyncData)
  | requestTimeSync (data : HandshakeSyncData)
  deriving DecidableEq, Repr

def opcodeHeartbeatResponse : UInt8 := 0xFE
def opcodeHandshakeResponse : UInt8 := 0xFF
def opcodeTimeSyncRequest : UInt8 := 0xFC

/-- The control packets that a client sends without a sequence byte. -/
def isUnsequencedC2sOpcode (opcode : UInt8) : Bool :=
  opcode == opcodeHeartbeatResponse || opcode == opcodeHandshakeResponse

def ControlC2s.opcode : ControlC2s → UInt8
  | .heartbeatResponse => opcodeHeartbeatResponse
  | .handshakeResponse _ => opcodeHandshakeResponse
  | .requestTimeSync _ => opcodeTimeSyncRequest

def readControlC2sWithOpcode (opcode : UInt8) : Read (Option ControlC2s) :=
  if opcode = opcodeHeartbeatResponse then pure (some .heartbeatResponse)
  else if opcode = opcodeHandshakeResponse then (fun data => some (.handshakeResponse data)) <$> read
  else if opcode = opcodeTimeSyncRequest then (fun data => some (.requestTimeSync data)) <$> read
  else pure none

def ControlC2s.read : Read ControlC2s := do
  let opcode ← (Net.read : Read UInt8)
  match ← readControlC2sWithOpcode opcode with
  | some control => pure control
  | none => fun c => .error (.assertFail c.pos "Unknown ControlC2s opcode")

theorem readControlC2sWithOpcode_stable (opcode : UInt8) :
    Stable isIncomplete (readControlC2sWithOpcode opcode) := by
  unfold readControlC2sWithOpcode
  split
  · exact .pure _
  · split
    · exact BinRead.stable.map _
    · split
      · exact BinRead.stable.map _
      · exact .pure _

theorem ControlC2s.read_rest_stable (opcode : UInt8) : Stable isIncomplete (do
    match ← readControlC2sWithOpcode opcode with
    | some control => pure control
    | none => fun c => .error (.assertFail c.pos "Unknown ControlC2s opcode") : Read ControlC2s) := by
  refine (readControlC2sWithOpcode_stable opcode).bind fun o => ?_
  cases o with
  | none => exact Stable.throwAt fun pos => BinError.assertFail pos "Unknown ControlC2s opcode"
  | some control => exact .pure control

instance : BinRead ControlC2s := ⟨ControlC2s.read, BinRead.stable.bind fun opcode => ControlC2s.read_rest_stable opcode⟩

instance : BinWrite ControlC2s where
  write
    | .heartbeatResponse => writeVariant opcodeHeartbeatResponse ()
    | .handshakeResponse data => writeVariant opcodeHandshakeResponse data
    | .requestTimeSync data => writeVariant opcodeTimeSyncRequest data

instance : Consuming ControlC2s where
  consumes := Consumes.bind_left item_consumes fun opcode => ControlC2s.read_rest_stable opcode

/-- A control packet is read back behind its opcode if its body is. -/
theorem ControlC2s.readsBack_of_body {opcode : UInt8} {bs : Bytes} {p : ControlC2s}
    (h : ReadsBack (readControlC2sWithOpcode opcode) bs (some p)) : ReadsBack ControlC2s.read (opcode :: bs) p := by
  have hrest := h.bind (f := fun o => match o with
    | some control => (pure control : Read ControlC2s)
    | none => fun c => .error (.assertFail c.pos "Unknown ControlC2s opcode")) (.pure p)
  rw [List.append_nil] at hrest
  exact (item_readsBack BinError.io opcode).bind hrest

instance : RoundTrip ControlC2s where
  readsBack {p bs} h := by
    cases p with
    | heartbeatResponse =>
      obtain ⟨xs, hx, rfl⟩ := writeVariant_eq_ok.1 h
      cases hx
      exact ControlC2s.readsBack_of_body (.pure _)
    | handshakeResponse data =>
      obtain ⟨xs, hx, rfl⟩ := writeVariant_eq_ok.1 h
      exact ControlC2s.readsBack_of_body ((RoundTrip.readsBack hx).map _)
    | requestTimeSync data =>
      obtain ⟨xs, hx, rfl⟩ := writeVariant_eq_ok.1 h
      exact ControlC2s.readsBack_of_body ((RoundTrip.readsBack hx).map _)

theorem ControlC2s.startsIn {p : ControlC2s} {bs : Bytes} (h : write p = .ok bs) :
    StartsIn [0xFE, 0xFF, 0xFC] bs := by
  cases p with
  | heartbeatResponse => exact writeVariant_startsIn (by decide) h
  | handshakeResponse data => exact writeVariant_startsIn (by decide) h
  | requestTimeSync data => exact writeVariant_startsIn (by decide) h

/-! ## Handshake and login -/

inductive HandshakeGameC2sSpecific where
  | fetchChannelList
  deriving DecidableEq, Repr

instance : MagicEnum HandshakeGameC2sSpecific where
  variants := [.fields "FetchChannelList" 0xCE fun () => .fetchChannelList]
  magics_nodup := by decide

instance : BinWrite HandshakeGameC2sSpecific where
  write
    | .fetchChannelList => writeVariant 0xCE ()

instance : RoundTrip HandshakeGameC2sSpecific where
  readsBack {p bs} h := by
    cases p with
    | fetchChannelList => exact MagicEnum.readsBack h List.mem_cons_self rfl

theorem HandshakeGameC2sSpecific.startsIn {p : HandshakeGameC2sSpecific} {bs : Bytes} (h : write p = .ok bs) :
    StartsIn [0xCE] bs := by
  cases p with
  | fetchChannelList => exact writeVariant_startsIn (by decide) h

inductive LoginC2sSpecific where
  | requestTokenLogin (username : List.Vector UInt8 31) (token : UInt32) (encKey : List.Vector UInt8 16)
  deriving DecidableEq

instance : MagicEnum LoginC2sSpecific where
  variants :=
    [.fields "RequestTokenLogin" 0x6D fun (username, token, encKey) => .requestTokenLogin username token encKey]
  magics_nodup := by decide

instance : BinWrite LoginC2sSpecific where
  write
    | .requestTokenLogin username token encKey => writeVariant 0x6D (username, token, encKey)

instance : RoundTrip LoginC2sSpecific where
  readsBack {p bs} h := by
    cases p with
    | requestTokenLogin username token encKey => exact MagicEnum.readsBack h List.mem_cons_self rfl

theorem LoginC2sSpecific.startsIn {p : LoginC2sSpecific} {bs : Bytes} (h : write p = .ok bs) : StartsIn [0x6D] bs := by
  cases p with
  | requestTokenLogin username token encKey => exact writeVariant_startsIn (by decide) h

inductive AuthC2sSpecific where
  | requestPasswordLogin (username : List.Vector UInt8 31) (password : List.Vector UInt8 17)
      (encKey : List.Vector UInt8 16)
  deriving DecidableEq

instance : MagicEnum AuthC2sSpecific where
  variants :=
    [.fields "RequestPasswordLogin" 0x6F fun (username, password, encKey) =>
      .requestPasswordLogin username password encKey]
  magics_nodup := by decide

instance : BinWrite AuthC2sSpecific where
  write
    | .requestPasswordLogin username password encKey => writeVariant 0x6F (username, password, encKey)

instance : RoundTrip AuthC2sSpecific where
  readsBack {p bs} h := by
    cases p with
    | requestPasswordLogin username password encKey => exact MagicEnum.readsBack h List.mem_cons_self rfl

theorem AuthC2sSpecific.startsIn {p : AuthC2sSpecific} {bs : Bytes} (h : write p = .ok bs) : StartsIn [0x6F] bs := by
  cases p with
  | requestPasswordLogin username password encKey => exact writeVariant_startsIn (by decide) h

/-! ## Character selection -/

inductive PlayerSelectSlot where
  | first | second | third | fourth
  deriving DecidableEq, Repr

instance : ReprU8 PlayerSelectSlot where
  toRepr
    | .first => 0 | .second => 1 | .third => 2 | .fourth => 3
  all := [.first, .second, .third, .fourth]
  find_toRepr a := by cases a <;> rfl

inductive PlayerBaseAppearance where
  | variantA | variantB
  deriving DecidableEq, Repr

instance : ReprU8 PlayerBaseAppearance where
  toRepr
    | .variantA => 0 | .variantB => 1
  all := [.variantA, .variantB]
  find_toRepr a := by cases a <;> rfl

inductive SelectC2sSpecific where
  | submitEmpireChoice (empire : Empire)
  | requestCreatePlayer (slot : PlayerSelectSlot) (name : List.Vector UInt8 25) (classGender : PlayerClassGendered)
      (reserved : UInt8) (appearance : PlayerBaseAppearance) (reservedStats : UInt32)
  | requestDeletePlayer (slot : PlayerSelectSlot) (code : List.Vector UInt8 7) (reserved : UInt8)
  | submitPlayerChoice (slot : PlayerSelectSlot)
  deriving DecidableEq

instance : MagicEnum SelectC2sSpecific where
  variants :=
    [.fields "SubmitEmpireChoice" 0x5A .submitEmpireChoice,
     .fields "RequestCreatePlayer" 0x04 fun (slot, name, classGender, reserved, appearance, reservedStats) =>
       .requestCreatePlayer slot name classGender reserved appearance reservedStats,
     .fields "RequestDeletePlayer" 0x05 fun (slot, code, reserved) => .requestDeletePlayer slot code reserved,
     .fields "SubmitPlayerChoice" 0x06 .submitPlayerChoice]
  magics_nodup := by decide

instance : BinWrite SelectC2sSpecific where
  write
    | .submitEmpireChoice empire => writeVariant 0x5A empire
    | .requestCreatePlayer slot name classGender reserved appearance reservedStats =>
      writeVariant 0x04 (slot, name, classGender, reserved, appearance, reservedStats)
    | .requestDeletePlayer slot code reserved => writeVariant 0x05 (slot, code, reserved)
    | .submitPlayerChoice slot => writeVariant 0x06 slot

instance : RoundTrip SelectC2sSpecific where
  readsBack {p bs} h := by
    cases p with
    | submitEmpireChoice empire => exact MagicEnum.readsBack h List.mem_cons_self rfl
    | requestCreatePlayer slot name classGender reserved appearance reservedStats =>
      exact MagicEnum.readsBack h (List.mem_cons_of_mem _ List.mem_cons_self) rfl
    | requestDeletePlayer slot code reserved =>
      exact MagicEnum.readsBack h (List.mem_cons_of_mem _ (List.mem_cons_of_mem _ List.mem_cons_self)) rfl
    | submitPlayerChoice slot =>
      exact MagicEnum.readsBack h
        (List.mem_cons_of_mem _ (List.mem_cons_of_mem _ (List.mem_cons_of_mem _ List.mem_cons_self))) rfl

theorem SelectC2sSpecific.startsIn {p : SelectC2sSpecific} {bs : Bytes} (h : write p = .ok bs) :
    StartsIn [0x5A, 0x04, 0x05, 0x06] bs := by
  cases p with
  | submitEmpireChoice empire => exact writeVariant_startsIn (by decide) h
  | requestCreatePlayer slot name classGender reserved appearance reservedStats =>
    exact writeVariant_startsIn (by decide) h
  | requestDeletePlayer slot code reserved => exact writeVariant_startsIn (by decide) h
  | submitPlayerChoice slot => exact writeVariant_startsIn (by decide) h

/-! ## Loading -/

inductive LoadingC2sSpecific where
  | submitClientVersion (client version : List.Vector UInt8 33)
  | signalLoadingComplete
  deriving DecidableEq

instance : MagicEnum LoadingC2sSpecific where
  variants :=
    [.fields "SubmitClientVersion" 0xF1 fun (client, version) => .submitClientVersion client version,
     .fields "SignalLoadingComplete" 0x0A fun () => .signalLoadingComplete]
  magics_nodup := by decide

instance : BinWrite LoadingC2sSpecific where
  write
    | .submitClientVersion client version => writeVariant 0xF1 (client, version)
    | .signalLoadingComplete => writeVariant 0x0A ()

instance : RoundTrip LoadingC2sSpecific where
  readsBack {p bs} h := by
    cases p with
    | submitClientVersion client version => exact MagicEnum.readsBack h List.mem_cons_self rfl
    | signalLoadingComplete => exact MagicEnum.readsBack h (List.mem_cons_of_mem _ List.mem_cons_self) rfl

theorem LoadingC2sSpecific.startsIn {p : LoadingC2sSpecific} {bs : Bytes} (h : write p = .ok bs) :
    StartsIn [0xF1, 0x0A] bs := by
  cases p with
  | submitClientVersion client version => exact writeVariant_startsIn (by decide) h
  | signalLoadingComplete => exact writeVariant_startsIn (by decide) h

/-! ## In the game -/

inductive MovementKind where
  | wait | move | attack | combo
  deriving DecidableEq, Repr

instance : ReprU8 MovementKind where
  toRepr
    | .wait => 0 | .move => 1 | .attack => 2 | .combo => 3
  all := [.wait, .move, .attack, .combo]
  find_toRepr a := by cases a <;> rfl

/-- The only packet of the movement enum; the router also sends it the opcode `0x06`, which it then refuses. -/
inductive MovementC2s where
  | inputMovement (kind : MovementKind) (arg rot : UInt8) (pos : WireWorldPos) (ts : WireMillis32)
  deriving DecidableEq, Repr

instance : MagicEnum MovementC2s where
  variants := [.fields "InputMovement" 0x07 fun (kind, arg, rot, pos, ts) => .inputMovement kind arg rot pos ts]
  magics_nodup := by decide

instance : BinWrite MovementC2s where
  write
    | .inputMovement kind arg rot pos ts => writeVariant 0x07 (kind, arg, rot, pos, ts)

instance : RoundTrip MovementC2s where
  readsBack {p bs} h := by
    cases p with
    | inputMovement kind arg rot pos ts => exact MagicEnum.readsBack h List.mem_cons_self rfl

theorem MovementC2s.startsIn {p : MovementC2s} {bs : Bytes} (h : write p = .ok bs) : StartsIn [0x06, 0x07] bs := by
  cases p with
  | inputMovement kind arg rot pos ts => exact writeVariant_startsIn (by decide) h

inductive ChatKind where
  | speak | info | notice | command | shout
  deriving DecidableEq, Repr

instance : ReprU8 ChatKind where
  toRepr
    | .speak => 0 | .info => 1 | .notice => 2 | .command => 5 | .shout => 6
  all := [.speak, .info, .notice, .command, .shout]
  find_toRepr a := by cases a <;> rfl

inductive ChatC2s where
  | submitChatMessage (kind : ChatKind) (message : Bytes)
  deriving DecidableEq, Repr

/-- The body of a chat message: its size counts opcode, size and kind, and the message takes the rest. -/
def ChatC2s.readBody : Read ChatC2s := do
  let (size, kind) ← (read : Read (UInt16 × ChatKind))
  let message ← items .io (size.toNat - 4)
  pure (.submitChatMessage kind message.toList)

theorem ChatC2s.readBody_stable : Stable isIncomplete ChatC2s.readBody :=
  BinRead.stable.bind fun _ => (items_stable (by simp [isIncomplete]) _).bind fun _ => .pure _

instance : MagicEnum ChatC2s where
  variants := [⟨"SubmitChatMessage", 0x03, ChatC2s.readBody, ChatC2s.readBody_stable⟩]
  magics_nodup := by decide

/-- The size field is cut to sixteen bits. -/
instance : BinWrite ChatC2s where
  write
    | .submitChatMessage kind message => do
      let head ← writeVariant 0x03 (UInt16.ofNat (message.length + 4), kind)
      pure (head ++ message)

/-- The longest message whose size fits its field. -/
def ChatC2s.maxMessage : Nat := 65531

theorem ChatC2s.write_eq_ok {kind : ChatKind} {message bs : Bytes}
    (h : write (ChatC2s.submitChatMessage kind message) = .ok bs) :
    ∃ head, write (UInt16.ofNat (message.length + 4), kind) = .ok head ∧ bs = 0x03 :: (head ++ message) := by
  simp only [BinWrite.write] at h
  cases hw : writeVariant 0x03 (UInt16.ofNat (message.length + 4), kind) with
  | error e => rw [hw] at h; cases h
  | ok xs =>
    rw [hw] at h
    cases h
    obtain ⟨head, hh, rfl⟩ := writeVariant_eq_ok.1 hw
    exact ⟨head, hh, rfl⟩

/-- A message that fits is read back. -/
theorem ChatC2s.readsBack {kind : ChatKind} {message bs : Bytes} (hfit : message.length ≤ maxMessage)
    (h : write (ChatC2s.submitChatMessage kind message) = .ok bs) :
    ReadsBack (read : Read ChatC2s) bs (.submitChatMessage kind message) := by
  obtain ⟨head, hh, rfl⟩ := write_eq_ok h
  unfold maxMessage at hfit
  have hsize : (UInt16.ofNat (message.length + 4)).toNat - 4 = message.length := by
    rw [UInt16.toNat_ofNat_of_lt' (by simp [UInt16.size]; omega)]
    omega
  have hmsg : ReadsBack (items BinError.io ((UInt16.ofNat (message.length + 4)).toNat - 4)) message
      ⟨message, hsize.symm⟩ := items_readsBack BinError.io ⟨message, hsize.symm⟩
  have htail := hmsg.bind (f := fun m => (pure (.submitChatMessage kind m.toList) : Read ChatC2s)) (.pure _)
  have hbody : ReadsBack ChatC2s.readBody (head ++ (message ++ [])) (.submitChatMessage kind message) :=
    (RoundTrip.readsBack hh).bind htail
  rw [List.append_nil] at hbody
  exact readEnum_readsBack MagicEnum.magics_nodup
    (v := ⟨"SubmitChatMessage", 0x03, ChatC2s.readBody, ChatC2s.readBody_stable⟩) List.mem_cons_self hbody

theorem ChatC2s.startsIn {p : ChatC2s} {bs : Bytes} (h : write p = .ok bs) : StartsIn [0x03] bs := by
  cases p with
  | submitChatMessage kind message =>
    obtain ⟨head, -, rfl⟩ := write_eq_ok h
    exact ⟨0x03, by decide, _, rfl⟩

inductive Skill where
  | threeWayCut | swordSpin | berserk | auraOfTheSword | dash | lifeForce | shockwave | bash | stump | strongBody
  | swordStrike | swordOrb | ambush | fastAttack | rollingDagger | stealth | poisonousCloud | insidiousPoison
  | repetitiveShot | arrowShower | fireArrow | featherWalk | poisonArrow | spark | fingerStrike | dragonSwirl
  | enchantedBlade | fear | enchantedArmor | dispel | darkStrike | flameStrike | flameSpirit | darkProtection
  | spiritStrike | darkOrb | flyingTalisman | shootingDragon | dragonRoar | blessing | reflect | dragonAid
  | lightningThrow | summonLightning | lightningClaw | cure | swiftness | attackUp | leadership | combo | fishing
  | mining | languageShinsoo | languageChunjo | languageJinno | polymorph | horseRiding | horseSummon
  | horseWildAttack | horseCharge | horseEscape | horseWildAttackRange | addHp | penetrationResistance | guildEye
  | guildBlood | guildBless | guildSeonghwi | guildAcceleration | guildBunno | guildJumun | guildTeleport | guildDoor
  deriving DecidableEq, Repr

instance : ReprU8 Skill where
  toRepr
    | .threeWayCut => 1 | .swordSpin => 2 | .berserk => 3 | .auraOfTheSword => 4 | .dash => 5 | .lifeForce => 6
    | .shockwave => 16 | .bash => 17 | .stump => 18 | .strongBody => 19 | .swordStrike => 20 | .swordOrb => 21
    | .ambush => 31 | .fastAttack => 32 | .rollingDagger => 33 | .stealth => 34 | .poisonousCloud => 35
    | .insidiousPoison => 36 | .repetitiveShot => 46 | .arrowShower => 47 | .fireArrow => 48 | .featherWalk => 49
    | .poisonArrow => 50 | .spark => 51 | .fingerStrike => 61 | .dragonSwirl => 62 | .enchantedBlade => 63
    | .fear => 64 | .enchantedArmor => 65 | .dispel => 66 | .darkStrike => 76 | .flameStrike => 77
    | .flameSpirit => 78 | .darkProtection => 79 | .spiritStrike => 80 | .darkOrb => 81 | .flyingTalisman => 91
    | .shootingDragon => 92 | .dragonRoar => 93 | .blessing => 94 | .reflect => 95 | .dragonAid => 96
    | .lightningThrow => 106 | .summonLightning => 107 | .lightningClaw => 108 | .cure => 109 | .swiftness => 110
    | .attackUp => 111 | .leadership => 121 | .combo => 122 | .fishing => 123 | .mining => 124
    | .languageShinsoo => 126 | .languageChunjo => 127 | .languageJinno => 128 | .polymorph => 129
    | .horseRiding => 130 | .horseSummon => 131 | .horseWildAttack => 137 | .horseCharge => 138 | .horseEscape => 139
    | .horseWildAttackRange => 140 | .addHp => 141 | .penetrationResistance => 142 | .guildEye => 151
    | .guildBlood => 152 | .guildBless => 153 | .guildSeonghwi => 154 | .guildAcceleration => 155
    | .guildBunno => 156 | .guildJumun => 157 | .guildTeleport => 158 | .guildDoor => 159
  all := [.threeWayCut, .swordSpin, .berserk, .auraOfTheSword, .dash, .lifeForce, .shockwave, .bash, .stump,
    .strongBody, .swordStrike, .swordOrb, .ambush, .fastAttack, .rollingDagger, .stealth, .poisonousCloud,
    .insidiousPoison, .repetitiveShot, .arrowShower, .fireArrow, .featherWalk, .poisonArrow, .spark, .fingerStrike,
    .dragonSwirl, .enchantedBlade, .fear, .enchantedArmor, .dispel, .darkStrike, .flameStrike, .flameSpirit,
    .darkProtection, .spiritStrike, .darkOrb, .flyingTalisman, .shootingDragon, .dragonRoar, .blessing, .reflect,
    .dragonAid, .lightningThrow, .summonLightning, .lightningClaw, .cure, .swiftness, .attackUp, .leadership, .combo,
    .fishing, .mining, .languageShinsoo, .languageChunjo, .languageJinno, .polymorph, .horseRiding, .horseSummon,
    .horseWildAttack, .horseCharge, .horseEscape, .horseWildAttackRange, .addHp, .penetrationResistance, .guildEye,
    .guildBlood, .guildBless, .guildSeonghwi, .guildAcceleration, .guildBunno, .guildJumun, .guildTeleport,
    .guildDoor]
  find_toRepr a := by cases a <;> rfl

instance : ZeroFallback Skill where
  typeName := "zohar_protocol::game_pkt::ingame::Skill"
  toRepr_ne_zero a := by cases a <;> decide

inductive CombatC2s where
  | inputAttack (attackType : ZeroOpt Skill) (target : NetId) (unknown : UInt16)
  | signalTargetSwitch (target : NetId)
  deriving DecidableEq, Repr

instance : MagicEnum CombatC2s where
  variants :=
    [.fields "InputAttack" 0x02 fun (attackType, target, unknown) => .inputAttack attackType target unknown,
     .fields "SignalTargetSwitch" 0x3D .signalTargetSwitch]
  magics_nodup := by decide

instance : BinWrite CombatC2s where
  write
    | .inputAttack attackType target unknown => writeVariant 0x02 (attackType, target, unknown)
    | .signalTargetSwitch target => writeVariant 0x3D target

instance : RoundTrip CombatC2s where
  readsBack {p bs} h := by
    cases p with
    | inputAttack attackType target unknown => exact MagicEnum.readsBack h List.mem_cons_self rfl
    | signalTargetSwitch target => exact MagicEnum.readsBack h (List.mem_cons_of_mem _ List.mem_cons_self) rfl

theorem CombatC2s.startsIn {p : CombatC2s} {bs : Bytes} (h : write p = .ok bs) : StartsIn [0x02, 0x3D] bs := by
  cases p with
  | inputAttack attackType target unknown => exact writeVariant_startsIn (by decide) h
  | signalTargetSwitch target => exact writeVariant_startsIn (by decide) h

end Zohar.Net
