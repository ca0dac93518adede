/-
What the mobs of a map say by themselves. Which lines a mob has and how long it pauses comes from the content, where a
row for the one mob goes before a row for its kind; a mob that somebody can hear speaks, and speaks again after a pause
between the bounds of its row. From zohar-sim/src/chat.rs, zohar-sim/src/runtime/mob/ambient_chat.rs and
zohar-core/src/adapters/content.rs.
-/
import Zohar.Game.Chat
import Zohar.Lib.Run
import Zohar.Lib.Spaced
import Zohar.Net.EntityKind
import Zohar.Sim.Life
import Zohar.Spawn.Rules

namespace Zohar.Mob

open Zohar.Lib
open Zohar.Game (Text trim utf8)
open Zohar.Net (MobKind defIdFromI64)
open Zohar.Replication (EntityId)
open Zohar.Sim (Entity)
open Zohar.Spawn (MobId)

/-! ## Rows of the content -/

namespace Content

inductive MobType where
  | npc | monster | stone | warp | door | building | pc | polymorphPc | horse | goto
  deriving DecidableEq, Repr

def MobType.toDomain : MobType → Option MobKind
  | npc => some .npc
  | monster => some .monster
  | stone => some .stone
  | warp => some (.portal .mapTransfer)
  | goto => some (.portal .localReposition)
  | door | building | pc | polymorphPc | horse => none

structure MobChatStrategy where
  chatContext : Text
  mobType : Option MobType
  mobId : Option Int
  intervalMinSec : Int
  intervalMaxSec : Int
  deriving DecidableEq, Repr

structure MobChatLine where
  mobId : Int
  chatContext : Text
  sourceKey : Text
  text : Text
  deriving DecidableEq, Repr

end Content

/-- What the chat reads of the `ContentCatalog`. -/
structure ChatCatalog where
  mobChatStrategies : List Content.MobChatStrategy
  mobChatLines : List Content.MobChatLine

/-! ## The content of the simulation -/

structure MobChatStrategyInterval where
  intervalMinSec : Nat
  intervalMaxSec : Nat
  deriving DecidableEq, Repr

structure MobChatLine where
  sourceKey : Text
  text : Text
  deriving DecidableEq, Repr

/-- The maps of the content, by what they answer. -/
structure MobChatContent where
  strategyTypeDefaults : Text × MobKind → Option MobChatStrategyInterval
  strategyMobOverrides : Text × MobId → Option MobChatStrategyInterval
  linesByMob : Text × MobId → Option (List MobChatLine)

namespace MobChatContent

def default : MobChatContent := ⟨fun _ => none, fun _ => none, fun _ => none⟩

def strategyFor (content : MobChatContent) (context : Text) (mobKind : MobKind) (mobId : MobId) :
    Option MobChatStrategyInterval :=
  (content.strategyMobOverrides (context, mobId)).or (content.strategyTypeDefaults (context, mobKind))

def linesFor (content : MobChatContent) (context : Text) (mobId : MobId) : Option (List MobChatLine) :=
  content.linesByMob (context, mobId)

end MobChatContent

/-- `u32::try_from` of an `i64`. -/
def u32TryFrom (raw : Int) : Option Nat := if 0 ≤ raw ∧ raw < 4294967296 then some raw.toNat else none

def mobIdFromI64 (raw : Int) : Option MobId := (defIdFromI64 raw).map fun id => ⟨id.toNat⟩

/-- The bounds of a row, where they are bounds. -/
def Content.MobChatStrategy.interval (strategy : MobChatStrategy) : Option MobChatStrategyInterval := do
  let intervalMinSec ← u32TryFrom strategy.intervalMinSec
  let intervalMaxSec ← u32TryFrom strategy.intervalMaxSec
  if intervalMinSec = 0 ∨ intervalMaxSec < intervalMinSec then none else some ⟨intervalMinSec, intervalMaxSec⟩

/-- A round of the first loop of `build_mob_chat_content`. -/
def insertStrategy (out : MobChatContent) (strategy : Content.MobChatStrategy) : MobChatContent :=
  match strategy.interval with
  | none => out
  | some interval =>
    match strategy.mobType, strategy.mobId with
    | some mobType, none =>
      match mobType.toDomain with
      | none => out
      | some mobKind =>
        { out with
          strategyTypeDefaults := Function.update out.strategyTypeDefaults (strategy.chatContext, mobKind)
            (some interval) }
    | none, some rawMobId =>
      match mobIdFromI64 rawMobId with
      | none => out
      | some mobId =>
        { out with
          strategyMobOverrides := Function.update out.strategyMobOverrides (strategy.chatContext, mobId)
            (some interval) }
    | some _, some _ | none, none => out

/-- A round of the second loop of `build_mob_chat_content`. -/
def pushLine (out : MobChatContent) (line : Content.MobChatLine) : MobChatContent :=
  if (trim line.text).isEmpty then out
  else if (trim line.sourceKey).isEmpty then out
  else
    match mobIdFromI64 line.mobId with
    | none => out
    | some mobId =>
      { out with
        linesByMob := Function.update out.linesByMob (line.chatContext, mobId)
          (some ((out.linesByMob (line.chatContext, mobId)).getD [] ++ [⟨line.sourceKey, line.text⟩])) }

def buildMobChatContent (catalog : ChatCatalog) : MobChatContent :=
  catalog.mobChatLines.foldl pushLine (catalog.mobChatStrategies.foldl insertStrategy .default)

/-! ## What the rows come to -/

section
variable (context : Text)

/-- The bounds that a row has for one mob. -/
def Content.MobChatStrategy.forMob (mobId : MobId) (strategy : MobChatStrategy) : Option MobChatStrategyInterval :=
  if strategy.chatContext = context ∧ strategy.mobType = none ∧ strategy.mobId.bind mobIdFromI64 = some mobId then
    strategy.interval
  else none

/-- The bounds that a row has for the mobs of a kind. -/
def Content.MobChatStrategy.forKind (mobKind : MobKind) (strategy : MobChatStrategy) : Option MobChatStrategyInterval :=
  if strategy.chatContext = context ∧ strategy.mobId = none ∧ strategy.mobType.bind MobType.toDomain = some mobKind then
    strategy.interval
  else none

def Content.MobChatLine.forMob (mobId : MobId) (line : MobChatLine) : Option Mob.MobChatLine :=
  if line.chatContext = context ∧ mobIdFromI64 line.mobId = some mobId ∧ ¬(trim line.text).isEmpty ∧
    ¬(trim line.sourceKey).isEmpty then some ⟨line.sourceKey, line.text⟩
  else none

/-- The last usable row for the mob, or else the last for its kind. -/
def ChatCatalog.intervalOf (catalog : ChatCatalog) (mobKind : MobKind) (mobId : MobId) :
    Option MobChatStrategyInterval :=
  (catalog.mobChatStrategies.filterMap (Content.MobChatStrategy.forMob context mobId)).getLast?.or
    (catalog.mobChatStrategies.filterMap (Content.MobChatStrategy.forKind context mobKind)).getLast?

def ChatCatalog.linesOf (catalog : ChatCatalog) (mobId : MobId) : List MobChatLine :=
  catalog.mobChatLines.filterMap (Content.MobChatLine.forMob context mobId)

end

section
variable {context : Text} {mobId : MobId} {mobKind : MobKind}

theorem insertStrategy_overrides (out : MobChatContent) (strategy : Content.MobChatStrategy) :
    (insertStrategy out strategy).strategyMobOverrides (context, mobId) =
      (strategy.forMob context mobId).or (out.strategyMobOverrides (context, mobId)) := by
  unfold insertStrategy Content.MobChatStrategy.forMob
  cases hinterval : strategy.interval with
  | none => simp
  | some interval =>
    cases hkind : strategy.mobType with
    | some mobType =>
      cases hraw : strategy.mobId with
      | none => cases hdomain : mobType.toDomain <;> simp [hdomain]
      | some rawMobId => simp
    | none =>
      cases hraw : strategy.mobId with
      | none => simp
      | some rawMobId =>
        cases hid : mobIdFromI64 rawMobId with
        | none => simp [hid]
        | some id =>
          by_cases hkey : (context, mobId) = (strategy.chatContext, id)
          · obtain ⟨rfl, rfl⟩ := Prod.mk.inj hkey
            simp [hid]
          · have hother : ¬(strategy.chatContext = context ∧ id = mobId) := by
              rintro ⟨rfl, rfl⟩
              exact hkey rfl
            simp [hid, hkey, hother]

theorem insertStrategy_defaults (out : MobChatContent) (strategy : Content.MobChatStrategy) :
    (insertStrategy out strategy).strategyTypeDefaults (context, mobKind) =
      (strategy.forKind context mobKind).or (out.strategyTypeDefaults (context, mobKind)) := by
  unfold insertStrategy Content.MobChatStrategy.forKind
  cases hinterval : strategy.interval with
  | none => simp
  | some interval =>
    cases hkind : strategy.mobType with
    | none =>
      cases hraw : strategy.mobId with
      | none => simp
      | some rawMobId => cases hid : mobIdFromI64 rawMobId <;> simp [hid]
    | some mobType =>
      cases hraw : strategy.mobId with
      | some rawMobId => simp
      | none =>
        cases hdomain : mobType.toDomain with
        | none => simp [hdomain]
        | some kind =>
          by_cases hkey : (context, mobKind) = (strategy.chatContext, kind)
          · obtain ⟨rfl, rfl⟩ := Prod.mk.inj hkey
            simp [hdomain]
          · have hother : ¬(strategy.chatContext = context ∧ kind = mobKind) := by
              rintro ⟨rfl, rfl⟩
              exact hkey rfl
            simp [hdomain, hkey, hother]

variable (context mobId mobKind) in
/-- The maps after the rows, each by its last row for the key. -/
theorem foldl_insertStrategy (out : MobChatContent) (strategies : List Content.MobChatStrategy) :
    (strategies.foldl insertStrategy out).strategyMobOverrides (context, mobId) =
        (strategies.filterMap (Content.MobChatStrategy.forMob context mobId)).getLast?.or
          (out.strategyMobOverrides (context, mobId)) ∧
      (strategies.foldl insertStrategy out).strategyTypeDefaults (context, mobKind) =
        (strategies.filterMap (Content.MobChatStrategy.forKind context mobKind)).getLast?.or
          (out.strategyTypeDefaults (context, mobKind)) ∧
      (strategies.foldl insertStrategy out).linesByMob = out.linesByMob := by
  induction strategies using List.reverseRecOn with
  | nil => exact ⟨rfl, rfl, rfl⟩
  | append_singleton strategies strategy ih =>
    obtain ⟨hoverrides, hdefaults, hlines⟩ := ih
    rw [List.foldl_append, List.foldl_cons, List.foldl_nil, List.filterMap_append, List.filterMap_append]
    refine ⟨?_, ?_, ?_⟩
    · rw [insertStrategy_overrides, hoverrides, List.getLast?_append]
      cases hrow : strategy.forMob context mobId <;> simp [hrow]
    · rw [insertStrategy_defaults, hdefaults, List.getLast?_append]
      cases hrow : strategy.forKind context mobKind <;> simp [hrow]
    · rw [← hlines]
      unfold insertStrategy
      repeat' split
      all_goals rfl

theorem pushLine_lines (out : MobChatContent) (line : Content.MobChatLine) :
    (pushLine out line).linesByMob (context, mobId) = match line.forMob context mobId with
      | none => out.linesByMob (context, mobId)
      | some kept => some ((out.linesByMob (context, mobId)).getD [] ++ [kept]) := by
  unfold pushLine Content.MobChatLine.forMob
  by_cases htext : (trim line.text).isEmpty
  · simp [htext]
  by_cases hsource : (trim line.sourceKey).isEmpty
  · simp [htext, hsource]
  cases hid : mobIdFromI64 line.mobId with
  | none => simp [htext, hsource]
  | some id =>
    by_cases hkey : (context, mobId) = (line.chatContext, id)
    · obtain ⟨rfl, rfl⟩ := Prod.mk.inj hkey
      simp [htext, hsource]
    · have hother : ¬(line.chatContext = context ∧ id = mobId) := by
        rintro ⟨rfl, rfl⟩
        exact hkey rfl
      simp [htext, hsource, hkey, hother]

variable (context mobId) in
theorem foldl_pushLine (out : MobChatContent) (lines : List Content.MobChatLine) :
    ((lines.foldl pushLine out).linesByMob (context, mobId)).getD [] =
        (out.linesByMob (context, mobId)).getD [] ++ lines.filterMap (Content.MobChatLine.forMob context mobId) ∧
      (lines.foldl pushLine out).strategyMobOverrides = out.strategyMobOverrides ∧
      (lines.foldl pushLine out).strategyTypeDefaults = out.strategyTypeDefaults := by
  induction lines generalizing out with
  | nil => exact ⟨(List.append_nil _).symm, rfl, rfl⟩
  | cons line lines ih =>
    obtain ⟨hlines, hoverrides, hdefaults⟩ := ih (pushLine out line)
    have hkeep : (pushLine out line).strategyMobOverrides = out.strategyMobOverrides ∧
        (pushLine out line).strategyTypeDefaults = out.strategyTypeDefaults := by
      unfold pushLine
      repeat' split
      all_goals exact ⟨rfl, rfl⟩
    rw [List.foldl_cons]
    refine ⟨?_, hoverrides.trans hkeep.1, hdefaults.trans hkeep.2⟩
    rw [hlines, pushLine_lines]
    cases hline : line.forMob context mobId with
    | none => simp [hline]
    | some kept => simp [hline]

/-- Whatever the rows are, the content has for a mob the bounds of the last usable row that is its own, or else of the
last that is for its kind. -/
theorem strategyFor_buildMobChatContent (catalog : ChatCatalog) :
    (buildMobChatContent catalog).strategyFor context mobKind mobId = catalog.intervalOf context mobKind mobId := by
  obtain ⟨hoverrides, hdefaults, -⟩ :=
    foldl_insertStrategy context mobId mobKind .default catalog.mobChatStrategies
  obtain ⟨-, hkeepOverrides, hkeepDefaults⟩ := foldl_pushLine context mobId
    (catalog.mobChatStrategies.foldl insertStrategy .default) catalog.mobChatLines
  unfold MobChatContent.strategyFor ChatCatalog.intervalOf buildMobChatContent
  rw [hkeepOverrides, hkeepDefaults, hoverrides, hdefaults]
  simp [MobChatContent.default]

variable (context mobId) in
theorem linesFor_buildMobChatContent (catalog : ChatCatalog) :
    ((buildMobChatContent catalog).linesFor context mobId).getD [] = catalog.linesOf context mobId := by
  obtain ⟨hlines, -, -⟩ := foldl_pushLine context mobId
    (catalog.mobChatStrategies.foldl insertStrategy .default) catalog.mobChatLines
  obtain ⟨-, -, hnone⟩ := foldl_insertStrategy context mobId .npc .default catalog.mobChatStrategies
  unfold MobChatContent.linesFor ChatCatalog.linesOf buildMobChatContent
  rw [hlines, hnone]
  rfl

/-- The bounds of a row that is used are in order, and a pause of nothing is no pause. -/
theorem interval_spec {strategy : Content.MobChatStrategy} {interval : MobChatStrategyInterval}
    (h : strategy.interval = some interval) :
    1 ≤ interval.intervalMinSec ∧ interval.intervalMinSec ≤ interval.intervalMaxSec ∧
    interval.intervalMaxSec < 2 ^ 32 := by
  unfold Content.MobChatStrategy.interval at h
  obtain ⟨intervalMinSec, -, h⟩ := Option.bind_eq_some_iff.1 h
  obtain ⟨intervalMaxSec, hmax, h⟩ := Option.bind_eq_some_iff.1 h
  unfold u32TryFrom at hmax
  split at hmax
  · cases hmax
    split at h
    · cases h
    · cases h
      dsimp only
      omega
  · cases hmax

theorem intervalOf_spec {catalog : ChatCatalog} {interval : MobChatStrategyInterval}
    (h : catalog.intervalOf context mobKind mobId = some interval) :
    1 ≤ interval.intervalMinSec ∧ interval.intervalMinSec ≤ interval.intervalMaxSec ∧
    interval.intervalMaxSec < 2 ^ 32 := by
  rcases Option.or_eq_some_iff.1 h with h | ⟨-, h⟩
  · obtain ⟨strategy, -, hrow⟩ := List.mem_filterMap.1 (List.mem_of_getLast? h)
    unfold Content.MobChatStrategy.forMob at hrow
    split at hrow
    · exact interval_spec hrow
    · cases hrow
  · obtain ⟨strategy, -, hrow⟩ := List.mem_filterMap.1 (List.mem_of_getLast? h)
    unfold Content.MobChatStrategy.forKind at hrow
    split at hrow
    · exact interval_spec hrow
    · cases hrow

end

end Zohar.Mob
